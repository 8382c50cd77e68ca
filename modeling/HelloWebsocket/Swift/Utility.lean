import HelloWebsocket.Wire.Calendar

/-!
# The calendar of the Swift library

`nowISO` of `Codec.swift`, and that it finds the date of the calendar.

## Implementation notes

The arithmetic of Swift traps on overflow, which gives no value here; `Int` has 64 bits, and
`/` and `%` round towards zero. `nowISO` takes the whole seconds that the clock shows.
-/

namespace HelloWebsocket.Swift

open Calendar

section Functions

/-- A result of the arithmetic of `Int`. -/
def checked (n : Int) : Option Int := if -2 ^ 63 ≤ n ∧ n < 2 ^ 63 then some n else none

/-- The constant `leap` of `nowISO`. -/
def leap (y : Int) : Bool := (y.tmod 4 == 0 && y.tmod 100 != 0) || y.tmod 400 == 0

theorem checked_of_range {n : Int} (hlow : -2 ^ 63 ≤ n) (hhigh : n < 2 ^ 63) : checked n = some n :=
  if_pos ⟨hlow, hhigh⟩

theorem checked_natCast {n : Nat} (h : n < 2 ^ 63) : checked n = some (n : Int) :=
  checked_of_range (by omega) (by omega)

theorem eq_of_checked {n k : Int} (h : checked n = some k) : k = n := by
  obtain ⟨-, h⟩ := Option.ite_none_right_eq_some.mp h
  exact (Option.some.inj h).symm

/-- The loop of `nowISO` over the years. -/
def yearLoop (y d : Int) : Option (Int × Int) :=
  let yearDays : Int := if leap y then 366 else 365
  if d < yearDays then some (y, d)
  else match _hd : checked (d - yearDays) with
    | none => none
    | some d' => match checked (y + 1) with
        | none => none
        | some y' => yearLoop y' d'
  termination_by d.toNat
  decreasing_by
    have hd' := eq_of_checked _hd
    have hpos : 0 < yearDays := by
      dsimp only [yearDays]
      split <;> decide
    omega

/-- The loop of `nowISO` over the months. -/
def monthLoop : List Int → Int → Int → Option (Int × Int)
  | [], month, d => some (month, d)
  | md :: rest, month, d =>
      if d < md then some (month, d)
      else do
        let d ← checked (d - md)
        let month ← checked (month + 1)
        monthLoop rest month d

/-- The arguments of the format of `nowISO`. -/
structure Stamp where
  y : Int
  month : Int
  d : Int
  h : Int
  m : Int
  s : Int

/-- `nowISO` up to its format. -/
def stamp (secs : Int64) : Option Stamp := do
  let dayNum := secs.toInt.tdiv 86400
  let rem := secs.toInt.tmod 86400
  let h := rem.tdiv 3600
  let m := (rem.tdiv 60).tmod 60
  let s := rem.tmod 60
  let (y, d) ← yearLoop 1970 dayNum
  let monthDays := [31, if leap y then 29 else 28, 31, 30, 31, 30, 31, 31, 30, 31, 30, 31]
  let (month, d) ← monthLoop monthDays 1 d
  let d ← checked (d + 1)
  pure ⟨y, month, d, h, m, s⟩

/-- `nowISO` -/
def nowISO (secs : Int64) : Option Bytes :=
  (stamp secs).map fun x =>
    iso8601 x.y.toNat x.month.toNat x.d.toNat x.h.toNat x.m.toNat x.s.toNat

def Stamp.fields (x : Stamp) : List Int := [x.y, x.month, x.d, x.h, x.m, x.s]

end Functions

section Dates

theorem leap_eq (y : Nat) : leap y = Calendar.isLeap y := by
  rw [leap, Calendar.isLeap, Int.tmod_eq_emod_of_nonneg (Int.natCast_nonneg y),
    Int.tmod_eq_emod_of_nonneg (Int.natCast_nonneg y), Int.tmod_eq_emod_of_nonneg (Int.natCast_nonneg y)]

theorem yearDays_eq (y : Nat) : (if leap y then 366 else 365 : Int) = yearLength y := by
  rw [yearLength, leap_eq]
  split <;> rfl

theorem yearLoop_step {y d y' d' : Int} (hd : ¬ d < if leap y then 366 else 365)
    (hsub : checked (d - if leap y then 366 else 365) = some d') (hadd : checked (y + 1) = some y') :
    yearLoop y d = yearLoop y' d' := by
  rw [yearLoop, if_neg hd]
  split
  · next hnone => exact absurd (hsub.symm.trans hnone) (Option.some_ne_none d')
  · next d'' hsome =>
      obtain rfl := Option.some.inj (hsub.symm.trans hsome)
      rw [hadd]

theorem yearLoop_eq (y d : Nat) (h : y + d < 2 ^ 63) :
    yearLoop y d = some (((yearFrom y d).1 : Int), ((yearFrom y d).2 : Int)) := by
  fun_induction yearFrom y d with
  | case1 y d hd => rw [yearLoop, yearDays_eq, if_pos (by omega)]
  | case2 y d hd ih =>
      have hlong := le_yearLength y
      have hsub : checked ((d : Int) - yearLength y) = some ((d - yearLength y : Nat) : Int) := by
        rw [← Nat.cast_sub (Nat.le_of_not_lt hd), checked_natCast (by omega)]
      have hadd : checked ((y : Int) + 1) = some ((y + 1 : Nat) : Int) := by
        rw [← Nat.cast_succ, checked_natCast (by omega)]
      rw [← yearDays_eq] at hsub
      rw [yearLoop_step (by rw [yearDays_eq]; omega) hsub hadd]
      exact ih (by omega)

theorem monthLoop_eq (ms : List Nat) (mo d : Nat) (h : mo + ms.length + d < 2 ^ 63) :
    monthLoop (ms.map (fun n : Nat => (n : Int))) mo d =
      some (((monthFrom ms mo d).1 : Int), ((monthFrom ms mo d).2 : Int)) := by
  induction ms generalizing mo d with
  | nil => rfl
  | cons dm rest ih =>
      rw [List.length_cons] at h
      rw [List.map_cons, monthLoop, monthFrom]
      by_cases hd : d < dm
      · rw [if_pos hd, if_pos (by omega)]
      · have hsub : checked ((d : Int) - dm) = some ((d - dm : Nat) : Int) := by
          rw [← Nat.cast_sub (Nat.le_of_not_lt hd), checked_natCast (by omega)]
        have hadd : checked ((mo : Int) + 1) = some ((mo + 1 : Nat) : Int) := by
          rw [← Nat.cast_succ, checked_natCast (by omega)]
        rw [if_neg hd, if_neg (by omega), hsub, hadd]
        exact ih (mo + 1) (d - dm) (by omega)

/-- The array of month lengths. -/
theorem monthDays_eq (y : Nat) :
    ([31, if leap y then 29 else 28, 31, 30, 31, 30, 31, 31, 30, 31, 30, 31] : List Int) =
      (monthLengths (Calendar.isLeap y)).map fun n : Nat => (n : Int) := by
  rw [leap_eq]
  cases Calendar.isLeap y <;> rfl

/-- `nowISO` finds the fields of the time with this number of seconds. -/
theorem stamp_eq {secs : Int64} (h : 0 ≤ secs.toInt) :
    ∃ x, stamp secs = some x ∧ x.fields = (Moment.ofSeconds secs.toInt.toNat).fields := by
  have hlt := secs.toInt_lt
  obtain ⟨n, hn⟩ := Int.eq_ofNat_of_zero_le h
  have hdays : secs.toInt.tdiv 86400 = (n / 86400 : Nat) := by
    rw [hn, Int.tdiv_eq_ediv_of_nonneg (Int.natCast_nonneg n)]
    omega
  have hrem : secs.toInt.tmod 86400 = (n % 86400 : Nat) := by
    rw [hn, Int.tmod_eq_emod_of_nonneg (Int.natCast_nonneg n)]
    omega
  have hhour : ((n % 86400 : Nat) : Int).tdiv 3600 = (n % 86400 / 3600 : Nat) := by
    rw [Int.tdiv_eq_ediv_of_nonneg (Int.natCast_nonneg _)]
    omega
  have hminute : (((n % 86400 : Nat) : Int).tdiv 60).tmod 60 = (n % 3600 / 60 : Nat) := by
    rw [Int.tdiv_eq_ediv_of_nonneg (Int.natCast_nonneg _), Int.tmod_eq_emod_of_nonneg (by omega)]
    omega
  have hsecond : ((n % 86400 : Nat) : Int).tmod 60 = (n % 60 : Nat) := by
    rw [Int.tmod_eq_emod_of_nonneg (Int.natCast_nonneg _)]
    omega
  obtain ⟨y, d, hfrom⟩ : ∃ y d, yearFrom 1970 (n / 86400) = (y, d) := ⟨_, _, rfl⟩
  obtain ⟨mo, r, hplace⟩ : ∃ mo r, monthFrom (monthLengths (Calendar.isLeap y)) 1 d = (mo, r) :=
    ⟨_, _, rfl⟩
  have hd : d < 366 := by
    have hinside := (yearFrom_spec 1970 (n / 86400)).2.1
    rw [hfrom] at hinside
    exact hinside.trans_le (yearLength_le y)
  have hyear : yearLoop 1970 (n / 86400 : Nat) = some ((y : Int), (d : Int)) := by
    have hloop := yearLoop_eq 1970 (n / 86400) (by omega)
    rw [hfrom] at hloop
    exact hloop
  have hmonth := monthLoop_eq (monthLengths (Calendar.isLeap y)) 1 d (by
    change 1 + 12 + d < 2 ^ 63
    omega)
  rw [hplace, ← monthDays_eq, Nat.cast_one] at hmonth
  obtain ⟨hday, hfields⟩ := Moment.fields_ofSeconds hfrom hplace
  have hadd : checked ((r : Int) + 1) = some ((r + 1 : Nat) : Int) := by
    rw [← Nat.cast_succ, checked_natCast (by omega)]
  refine ⟨⟨y, mo, (r + 1 : Nat), (n % 86400 / 3600 : Nat), (n % 3600 / 60 : Nat), (n % 60 : Nat)⟩,
    ?_, ?_⟩
  · rw [stamp, hdays, hrem, hyear]
    dsimp only [Option.bind_eq_bind, Option.bind_some]
    rw [hmonth, Option.bind_some]
    dsimp only
    rw [hadd, Option.bind_some, hhour, hminute, hsecond, Option.pure_def]
  · rw [hn, Int.toNat_natCast, hfields, Stamp.fields]

end Dates

end HelloWebsocket.Swift
