import HelloWebsocket.Wire.Calendar

/-!
# The calendar of the Rust library

`unix_to_utc`, `is_leap` and `now_iso` of `lib.rs`, and that they find the date of the
calendar.

## Implementation notes

A `u32` that would leave its range gives no value: a debug build panics there and a release
build wraps around. `now_iso` takes the seconds that the clock shows.
-/

namespace HelloWebsocket.Rust

open Calendar

section Arithmetic

/-- A difference of `u32` values. -/
def sub? (a b : UInt32) : Option UInt32 := if b ≤ a then some (a - b) else none

/-- A sum of `u32` values. -/
def add? (a b : UInt32) : Option UInt32 :=
  if a.toNat + b.toNat < 2 ^ 32 then some (a + b) else none

theorem sub?_eq_some {a b c : UInt32} (h : sub? a b = some c) :
    b.toNat ≤ a.toNat ∧ c.toNat = a.toNat - b.toNat := by
  obtain ⟨hle, h⟩ := Option.ite_none_right_eq_some.mp h
  cases h
  exact ⟨hle, UInt32.toNat_sub_of_le a b hle⟩

theorem sub?_of_le {a b : UInt32} (h : b.toNat ≤ a.toNat) : ∃ c, sub? a b = some c :=
  ⟨a - b, if_pos h⟩

theorem add?_of_lt {a b : UInt32} (h : a.toNat + b.toNat < 2 ^ 32) :
    ∃ c, add? a b = some c ∧ c.toNat = a.toNat + b.toNat := by
  refine ⟨a + b, if_pos h, ?_⟩
  rw [UInt32.toNat_add, Nat.mod_eq_of_lt h]

end Arithmetic

section Functions

/-- `is_leap` -/
def isLeap (y : UInt32) : Bool := (y % 4 == 0 && y % 100 != 0) || y % 400 == 0

/-- The loop of `unix_to_utc` over the years. -/
def yearLoop (y d : UInt32) : Option (UInt32 × UInt32) :=
  let dy : UInt32 := if isLeap y then 366 else 365
  if d < dy then some (y, d)
  else match _hd : sub? d dy with
    | none => none
    | some d' => match add? y 1 with
        | none => none
        | some y' => yearLoop y' d'
  termination_by d.toNat
  decreasing_by
    obtain ⟨hle, hd'⟩ := sub?_eq_some _hd
    have hpos : 0 < dy.toNat := by
      dsimp only [dy]
      split <;> decide
    omega

/-- The loop of `unix_to_utc` over the months. -/
def monthLoop : List UInt32 → UInt32 → UInt32 → Option (UInt32 × UInt32)
  | [], mo, d => some (mo, d)
  | dm :: rest, mo, d =>
      if d < dm then some (mo, d)
      else do
        let d ← sub? d dm
        let mo ← add? mo 1
        monthLoop rest mo d

/-- The fields of a date and a time of day. -/
structure Utc where
  y : UInt32
  mo : UInt32
  d : UInt32
  h : UInt32
  mi : UInt32
  s : UInt32

/-- `unix_to_utc` -/
def unixToUtc (secs : UInt64) : Option Utc := do
  let days := (secs / 86400).toUInt32
  let rem := (secs % 86400).toUInt32
  let h := rem / 3600
  let mi := (rem % 3600) / 60
  let s := rem % 60
  let (y, d) ← yearLoop 1970 days
  let months := if isLeap y then [31, 29, 31, 30, 31, 30, 31, 31, 30, 31, 30, 31]
    else [31, 28, 31, 30, 31, 30, 31, 31, 30, 31, 30, 31]
  let (mo, d) ← monthLoop months 1 d
  let d ← add? d 1
  pure ⟨y, mo, d, h, mi, s⟩

/-- `now_iso` -/
def nowIso (secs : UInt64) : Option Bytes :=
  (unixToUtc secs).map fun u =>
    iso8601 u.y.toNat u.mo.toNat u.d.toNat u.h.toNat u.mi.toNat u.s.toNat

def Utc.fields (u : Utc) : List Int :=
  [u.y.toNat, u.mo.toNat, u.d.toNat, u.h.toNat, u.mi.toNat, u.s.toNat]

end Functions

section Dates

theorem isLeap_eq (y : UInt32) : isLeap y = Calendar.isLeap y.toNat := by
  have hmod (k : UInt32) : y % k = 0 ↔ (y.toNat : Int) % k.toNat = 0 := by
    rw [← UInt32.toNat_inj, UInt32.toNat_mod, UInt32.toNat_zero]
    omega
  rw [Bool.eq_iff_iff, isLeap_iff, isLeap]
  simp only [Bool.or_eq_true, Bool.and_eq_true, beq_iff_eq, bne_iff_ne, ne_eq, hmod]
  rfl

/-- The length of a year in 32 bits. -/
theorem toNat_yearDays (y : UInt32) :
    (if isLeap y then 366 else 365 : UInt32).toNat = yearLength y.toNat := by
  rw [yearLength, isLeap_eq]
  split <;> rfl

theorem yearLoop_eq (y d : UInt32) (h : y.toNat + d.toNat / 365 + 1 < 2 ^ 32) :
    ∃ y' d', yearLoop y d = some (y', d') ∧ yearFrom y.toNat d.toNat = (y'.toNat, d'.toNat) := by
  fun_induction yearLoop y d with
  | case1 y d dy hd =>
      have hlt : d.toNat < yearLength y.toNat := toNat_yearDays y ▸ hd
      rw [yearFrom, if_pos hlt]
      exact ⟨y, d, rfl, rfl⟩
  | case2 y d dy hd hnone =>
      obtain ⟨d', hsub⟩ := sub?_of_le (Nat.le_of_not_lt hd)
      rw [hsub] at hnone
      cases hnone
  | case3 y d dy hd d' hsub hnone =>
      obtain ⟨y', hadd, -⟩ := add?_of_lt (a := y) (b := 1) (by
        change y.toNat + 1 < 2 ^ 32
        omega)
      rw [hadd] at hnone
      cases hnone
  | case4 y d dy hd d' hsub y' hadd ih =>
      obtain ⟨hle, hd'⟩ := sub?_eq_some hsub
      obtain ⟨y'', hadd', hy'⟩ := add?_of_lt (a := y) (b := 1) (by
        change y.toNat + 1 < 2 ^ 32
        omega)
      rw [hadd] at hadd'
      cases hadd'
      have hdy : dy.toNat = yearLength y.toNat := toNat_yearDays y
      have hone : y'.toNat = y.toNat + 1 := hy'
      have hlong : 365 ≤ yearLength y.toNat := le_yearLength y.toNat
      rw [yearFrom, if_neg (by omega), ← hdy, ← hd', ← hone]
      exact ih (by omega)

theorem monthLoop_eq (ms : List UInt32) (mo d : UInt32) (h : mo.toNat + ms.length < 2 ^ 32) :
    ∃ mo' d', monthLoop ms mo d = some (mo', d') ∧
      monthFrom (ms.map UInt32.toNat) mo.toNat d.toNat = (mo'.toNat, d'.toNat) := by
  induction ms generalizing mo d with
  | nil => exact ⟨mo, d, rfl, rfl⟩
  | cons dm rest ih =>
      rw [List.length_cons] at h
      rw [monthLoop, List.map_cons, monthFrom]
      by_cases hd : d < dm
      · have hlt : d.toNat < dm.toNat := hd
        rw [if_pos hd, if_pos hlt]
        exact ⟨mo, d, rfl, rfl⟩
      · have hle : dm.toNat ≤ d.toNat := Nat.le_of_not_lt hd
        obtain ⟨d', hsub⟩ := sub?_of_le hle
        obtain ⟨mo', hadd, hmo'⟩ := add?_of_lt (a := mo) (b := 1) (by
          change mo.toNat + 1 < 2 ^ 32
          omega)
        obtain ⟨-, hd'⟩ := sub?_eq_some hsub
        have hone : mo'.toNat = mo.toNat + 1 := hmo'
        rw [if_neg hd, if_neg (Nat.not_lt.mpr hle), hsub, hadd, ← hd', ← hone]
        exact ih mo' d' (by omega)

/-- The array of month lengths. -/
theorem map_months (leap : Bool) :
    (if leap then [31, 29, 31, 30, 31, 30, 31, 31, 30, 31, 30, 31]
      else [31, 28, 31, 30, 31, 30, 31, 31, 30, 31, 30, 31] : List UInt32).map UInt32.toNat =
      monthLengths leap := by
  cases leap <;> rfl

/-- `unix_to_utc` finds the fields of the time with this number of seconds. -/
theorem unixToUtc_eq {secs : UInt64} (h : secs.toNat / 86400 < 2 ^ 32) :
    ∃ u, unixToUtc secs = some u ∧ u.fields = (Moment.ofSeconds secs.toNat).fields := by
  have hdays : (secs / 86400).toUInt32.toNat = secs.toNat / 86400 := by
    rw [UInt64.toNat_toUInt32, UInt64.toNat_div]
    exact Nat.mod_eq_of_lt h
  have hrem : (secs % 86400).toUInt32.toNat = secs.toNat % 86400 := by
    rw [UInt64.toNat_toUInt32, UInt64.toNat_mod]
    change secs.toNat % 86400 % 2 ^ 32 = secs.toNat % 86400
    omega
  obtain ⟨y, d, hyear, hfrom⟩ := yearLoop_eq 1970 (secs / 86400).toUInt32 (by
    rw [hdays]
    change 1970 + secs.toNat / 86400 / 365 + 1 < 2 ^ 32
    omega)
  rw [hdays] at hfrom
  obtain ⟨mo, d', hmonth, hplace⟩ := monthLoop_eq
    (if isLeap y then [31, 29, 31, 30, 31, 30, 31, 31, 30, 31, 30, 31]
      else [31, 28, 31, 30, 31, 30, 31, 31, 30, 31, 30, 31]) 1 d (by split <;> decide)
  rw [map_months, isLeap_eq] at hplace
  obtain ⟨hday, hfields⟩ := Moment.fields_ofSeconds hfrom hplace
  obtain ⟨d'', hadd, hd''⟩ := add?_of_lt (a := d') (b := 1) (by
    change d'.toNat + 1 < 2 ^ 32
    omega)
  let rem := (secs % 86400).toUInt32
  have hhour : (rem / 3600).toNat = secs.toNat % 86400 / 3600 := by
    rw [UInt32.toNat_div, hrem]
    rfl
  have hminute : (rem % 3600 / 60).toNat = secs.toNat % 3600 / 60 := by
    rw [UInt32.toNat_div, UInt32.toNat_mod, hrem]
    change secs.toNat % 86400 % 3600 / 60 = secs.toNat % 3600 / 60
    omega
  have hsecond : (rem % 60).toNat = secs.toNat % 60 := by
    rw [UInt32.toNat_mod, hrem]
    change secs.toNat % 86400 % 60 = secs.toNat % 60
    omega
  refine ⟨⟨y, mo, d'', rem / 3600, rem % 3600 / 60, rem % 60⟩, ?_, ?_⟩
  · simp only [unixToUtc, hyear, hmonth, hadd, Option.bind_eq_bind, Option.bind_some,
      Option.pure_def, rem]
  · rw [hfields, Utc.fields, hd'', hhour, hminute, hsecond]
    rfl

end Dates

end HelloWebsocket.Rust
