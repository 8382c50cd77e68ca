import HelloWebsocket.Wire.Decimal
import Mathlib.Data.List.Lex
import Mathlib.Order.Basic

/-!
# The Gregorian calendar

Dates and times of day in coordinated universal time, extended to all years, and the
number of seconds from the beginning of 1970 to each of them. Later times have more
seconds, so a time is determined by its seconds. Programs find the date by taking the
lengths of years and months away from a number of days.

## Implementation notes

The days before a year are counted by a formula; that every year adds its length shows
that it counts them. The order of times is that of the list of their fields.
-/

namespace HelloWebsocket.Calendar

open Decimal Utf8

section Lengths

def isLeap (y : Int) : Bool := (y % 4 == 0 && y % 100 != 0) || y % 400 == 0

def yearLength (y : Int) : Nat := if isLeap y then 366 else 365

/-- The lengths of the months of a leap year, or of another one. -/
def monthLengths (leap : Bool) : List Nat :=
  [31, if leap then 29 else 28, 31, 30, 31, 30, 31, 31, 30, 31, 30, 31]

def monthLength (y : Int) (m : Nat) : Nat := (monthLengths (isLeap y)).getD (m - 1) 0

/-- The days of a year before one of its months. -/
def daysBeforeMonth (y : Int) (m : Nat) : Nat := ((monthLengths (isLeap y)).take (m - 1)).sum

/-- The days from the beginning of the year 1 to that of another year. -/
def daysBeforeYear (y : Int) : Int := 365 * (y - 1) + (y - 1) / 4 - (y - 1) / 100 + (y - 1) / 400

theorem isLeap_iff (y : Int) : isLeap y = true ↔ (y % 4 = 0 ∧ y % 100 ≠ 0) ∨ y % 400 = 0 := by
  simp [isLeap]

theorem le_yearLength (y : Int) : 365 ≤ yearLength y := by
  rw [yearLength]
  split <;> decide

theorem yearLength_le (y : Int) : yearLength y ≤ 366 := by
  rw [yearLength]
  split <;> decide

/-- Every year adds its length. -/
theorem daysBeforeYear_succ (y : Int) :
    daysBeforeYear (y + 1) = daysBeforeYear y + yearLength y := by
  have h4 : (y - 1) / 4 = y / 4 - if y % 4 = 0 then 1 else 0 := by split <;> omega
  have h100 : (y - 1) / 100 = y / 100 - if y % 100 = 0 then 1 else 0 := by split <;> omega
  have h400 : (y - 1) / 400 = y / 400 - if y % 400 = 0 then 1 else 0 := by split <;> omega
  have hsub : y + 1 - 1 = y := by omega
  have hleap := isLeap_iff y
  rw [daysBeforeYear, daysBeforeYear, yearLength, hsub, h4, h100, h400]
  by_cases hy4 : y % 4 = 0
  · by_cases hy100 : y % 100 = 0
    · by_cases hy400 : y % 400 = 0
      · rw [if_pos hy4, if_pos hy100, if_pos hy400, if_pos (hleap.mpr (.inr hy400))]
        omega
      · rw [if_pos hy4, if_pos hy100, if_neg hy400, if_neg (by rw [hleap]; omega)]
        omega
    · rw [if_pos hy4, if_neg hy100, if_neg (by omega), if_pos (hleap.mpr (.inl ⟨hy4, hy100⟩))]
      omega
  · rw [if_neg hy4, if_neg (by omega), if_neg (by omega), if_neg (by rw [hleap]; omega)]
    omega

theorem daysBeforeYear_mono {y y' : Int} (h : y ≤ y') : daysBeforeYear y ≤ daysBeforeYear y' := by
  rw [daysBeforeYear, daysBeforeYear]
  omega

/-- The months of a year fill it. -/
theorem sum_monthLengths (y : Int) : (monthLengths (isLeap y)).sum = yearLength y := by
  rw [yearLength]
  cases isLeap y <;> rfl

theorem daysBeforeMonth_succ (y : Int) {m : Nat} (h1 : 1 ≤ m) (h12 : m ≤ 12) :
    daysBeforeMonth y (m + 1) = daysBeforeMonth y m + monthLength y m := by
  rw [daysBeforeMonth, daysBeforeMonth, monthLength]
  cases isLeap y <;> interval_cases m <;> rfl

theorem daysBeforeMonth_mono (y : Int) {m m' : Nat} (h : m ≤ m') :
    daysBeforeMonth y m ≤ daysBeforeMonth y m' := by
  have hsplit : m' - 1 = (m - 1) + (m' - m - (1 - m)) := by omega
  rw [daysBeforeMonth, daysBeforeMonth, hsplit, List.take_add, List.sum_append]
  exact Nat.le_add_right _ _

end Lengths

section Moments

/-- The text of a time: the year with four digits at least, all the rest with two. -/
def iso8601 (year month day hour minute second : Nat) : Bytes :=
  padded 4 year ++ utf8 "-" ++ padded 2 month ++ utf8 "-" ++ padded 2 day ++ utf8 "T" ++
    padded 2 hour ++ utf8 ":" ++ padded 2 minute ++ utf8 ":" ++ padded 2 second ++ utf8 "Z"

/-- A date with a time of day. -/
structure Moment where
  year : Int
  month : Nat
  day : Nat
  hour : Nat
  minute : Nat
  second : Nat
  month_pos : 1 ≤ month
  month_le : month ≤ 12
  day_pos : 1 ≤ day
  day_le : day ≤ monthLength year month
  hour_lt : hour < 24
  minute_lt : minute < 60
  second_lt : second < 60

namespace Moment

/-- The fields, from the largest unit to the smallest. -/
def fields (m : Moment) : List Int := [m.year, m.month, m.day, m.hour, m.minute, m.second]

/-- The days since the beginning of 1970. -/
def dayNumber (m : Moment) : Int :=
  daysBeforeYear m.year - daysBeforeYear 1970 + daysBeforeMonth m.year m.month + (m.day - 1 : Nat)

/-- The seconds since the beginning of 1970. -/
def seconds (m : Moment) : Int := m.dayNumber * 86400 + (m.hour * 3600 + m.minute * 60 + m.second : Nat)

/-- The text of ISO 8601, to the second. -/
def text (m : Moment) : Bytes := iso8601 m.year.toNat m.month m.day m.hour m.minute m.second

variable {a b : Moment}

theorem fields_injective : Function.Injective fields := by
  intro a b h
  simp only [fields, List.cons.injEq, Nat.cast_inj, and_true] at h
  obtain ⟨hyear, hmonth, hday, hhour, hminute, hsecond⟩ := h
  cases a
  cases b
  subst hyear hmonth hday hhour hminute hsecond
  rfl

/-- The day is inside its year. -/
theorem daysBeforeMonth_add_day_le (m : Moment) :
    daysBeforeMonth m.year m.month + m.day ≤ yearLength m.year := by
  have hsucc := daysBeforeMonth_succ m.year m.month_pos m.month_le
  have hend : daysBeforeMonth m.year (m.month + 1) ≤ daysBeforeMonth m.year 13 :=
    daysBeforeMonth_mono m.year (Nat.succ_le_succ m.month_le)
  have hyear : daysBeforeMonth m.year 13 = yearLength m.year := sum_monthLengths m.year
  have hday := m.day_le
  omega

theorem dayNumber_lt_of_year_lt (h : a.year < b.year) : a.dayNumber < b.dayNumber := by
  have hnext := daysBeforeYear_mono (Int.add_one_le_of_lt h)
  have hsucc := daysBeforeYear_succ a.year
  have hinside := a.daysBeforeMonth_add_day_le
  have hday := a.day_pos
  rw [dayNumber, dayNumber]
  omega

theorem dayNumber_lt_of_month_lt (hyear : a.year = b.year) (h : a.month < b.month) :
    a.dayNumber < b.dayNumber := by
  have hnext : daysBeforeMonth b.year (a.month + 1) ≤ daysBeforeMonth b.year b.month :=
    daysBeforeMonth_mono b.year (Nat.succ_le_of_lt h)
  have hsucc := daysBeforeMonth_succ b.year a.month_pos a.month_le
  have hday := a.day_pos
  have hinside := a.day_le
  rw [hyear] at hinside
  rw [dayNumber, dayNumber, hyear]
  omega

theorem dayNumber_lt_of_day_lt (hyear : a.year = b.year) (hmonth : a.month = b.month)
    (h : a.day < b.day) : a.dayNumber < b.dayNumber := by
  have hday := a.day_pos
  rw [dayNumber, dayNumber, hyear, hmonth]
  omega

theorem seconds_lt_of_dayNumber_lt (h : a.dayNumber < b.dayNumber) : a.seconds < b.seconds := by
  have hhour := a.hour_lt
  have hminute := a.minute_lt
  have hsecond := a.second_lt
  rw [seconds, seconds]
  omega

/-- A later time has more seconds. -/
theorem seconds_lt_of_fields_lt (h : a.fields < b.fields) : a.seconds < b.seconds := by
  simp only [fields, List.cons_lt_cons_iff, Nat.cast_lt, Nat.cast_inj] at h
  rcases h with hyear | ⟨hyear, hmonth | ⟨hmonth, hday | ⟨hday, htime⟩⟩⟩
  · exact seconds_lt_of_dayNumber_lt (dayNumber_lt_of_year_lt hyear)
  · exact seconds_lt_of_dayNumber_lt (dayNumber_lt_of_month_lt hyear hmonth)
  · exact seconds_lt_of_dayNumber_lt (dayNumber_lt_of_day_lt hyear hmonth hday)
  · have hsame : a.dayNumber = b.dayNumber := by rw [dayNumber, dayNumber, hyear, hmonth, hday]
    have hminute := a.minute_lt
    have hsecond := a.second_lt
    rw [seconds, seconds, hsame]
    rcases htime with h | ⟨h, h' | ⟨h', h'' | ⟨-, h''⟩⟩⟩
    · omega
    · omega
    · omega
    · exact absurd h'' (List.not_lt_nil _)

theorem fields_lt_iff : a.fields < b.fields ↔ a.seconds < b.seconds := by
  refine ⟨seconds_lt_of_fields_lt, fun h => ?_⟩
  rcases lt_trichotomy a.fields b.fields with hlt | heq | hgt
  · exact hlt
  · rw [fields_injective heq] at h
    exact absurd h (lt_irrefl _)
  · exact absurd (seconds_lt_of_fields_lt hgt) (lt_asymm h)

/-- A time is determined by its seconds. -/
theorem seconds_injective : Function.Injective seconds := by
  intro a b h
  rcases lt_trichotomy a.fields b.fields with hlt | heq | hgt
  · exact absurd (seconds_lt_of_fields_lt hlt) (by rw [h]; exact lt_irrefl _)
  · exact fields_injective heq
  · exact absurd (seconds_lt_of_fields_lt hgt) (by rw [h]; exact lt_irrefl _)

end Moment

end Moments

section Subtraction

/-- Take whole years away from a number of days. -/
def yearFrom (y d : Nat) : Nat × Nat :=
  if d < yearLength y then (y, d) else yearFrom (y + 1) (d - yearLength y)
  termination_by d
  decreasing_by
    have hlong := le_yearLength y
    omega

/-- Take whole months away from a number of days. -/
def monthFrom : List Nat → Nat → Nat → Nat × Nat
  | [], mo, d => (mo, d)
  | dm :: rest, mo, d => if d < dm then (mo, d) else monthFrom rest (mo + 1) (d - dm)

theorem yearFrom_spec (y d : Nat) :
    daysBeforeYear (yearFrom y d).1 + (yearFrom y d).2 = daysBeforeYear y + d ∧
      (yearFrom y d).2 < yearLength (yearFrom y d).1 ∧
      (yearFrom y d).1 ≤ y + d / 365 := by
  fun_induction yearFrom y d with
  | case1 y d h => exact ⟨rfl, h, Nat.le_add_right _ _⟩
  | case2 y d h ih =>
      obtain ⟨hdays, hrest, hyear⟩ := ih
      have hsucc := daysBeforeYear_succ y
      have hlong := le_yearLength y
      refine ⟨?_, hrest, ?_⟩
      · rw [hdays]
        push_cast [Nat.le_of_not_lt h]
        omega
      · omega

theorem monthFrom_spec {ms : List Nat} {d : Nat} (mo : Nat) (h : d < ms.sum) :
    ∃ i < ms.length, (monthFrom ms mo d).1 = mo + i ∧
      (ms.take i).sum + (monthFrom ms mo d).2 = d ∧ (monthFrom ms mo d).2 < ms.getD i 0 := by
  induction ms generalizing mo d with
  | nil => cases h
  | cons dm rest ih =>
      rw [monthFrom]
      by_cases hd : d < dm
      · rw [if_pos hd]
        exact ⟨0, Nat.succ_pos _, rfl, Nat.zero_add d, hd⟩
      · rw [if_neg hd]
        rw [List.sum_cons] at h
        obtain ⟨i, hi, hmonth, hsum, hrest⟩ := ih (mo + 1) (d := d - dm) (by omega)
        refine ⟨i + 1, Nat.succ_lt_succ hi, by omega, ?_, hrest⟩
        rw [List.take_succ_cons, List.sum_cons]
        omega

/-- The time that programs find for a number of seconds. -/
def Moment.ofSeconds (secs : Nat) : Moment :=
  let date := yearFrom 1970 (secs / 86400)
  let place := monthFrom (monthLengths (isLeap date.1)) 1 date.2
  have hplace : ∃ i < 12, place.1 = 1 + i ∧ place.2 < (monthLengths (isLeap date.1)).getD i 0 := by
    have hrest := (yearFrom_spec 1970 (secs / 86400)).2.1
    rw [← sum_monthLengths] at hrest
    obtain ⟨i, hi, hmonth, -, hday⟩ := monthFrom_spec 1 hrest
    exact ⟨i, hi, hmonth, hday⟩
  { year := date.1
    month := place.1
    day := place.2 + 1
    hour := secs % 86400 / 3600
    minute := secs % 3600 / 60
    second := secs % 60
    month_pos := by
      obtain ⟨i, -, hmonth, -⟩ := hplace
      omega
    month_le := by
      obtain ⟨i, hi, hmonth, -⟩ := hplace
      omega
    day_pos := Nat.succ_pos _
    day_le := by
      obtain ⟨i, -, hmonth, hday⟩ := hplace
      rw [monthLength, hmonth, Nat.add_sub_cancel_left]
      exact hday
    hour_lt := by omega
    minute_lt := by omega
    second_lt := Nat.mod_lt _ (by decide) }

theorem Moment.dayNumber_ofSeconds (secs : Nat) :
    (ofSeconds secs).dayNumber = (secs / 86400 : Nat) := by
  obtain ⟨hdays, hrest, -⟩ := yearFrom_spec 1970 (secs / 86400)
  rw [← sum_monthLengths] at hrest
  obtain ⟨i, -, hmonth, hsum, -⟩ := monthFrom_spec 1 hrest
  have hbefore : daysBeforeMonth (yearFrom 1970 (secs / 86400)).1
      (monthFrom (monthLengths (isLeap (yearFrom 1970 (secs / 86400)).1)) 1
        (yearFrom 1970 (secs / 86400)).2).1 =
      ((monthLengths (isLeap (yearFrom 1970 (secs / 86400)).1)).take i).sum := by
    rw [daysBeforeMonth, hmonth, Nat.add_sub_cancel_left]
  rw [dayNumber]
  dsimp only [ofSeconds]
  rw [hbefore, Nat.add_sub_cancel]
  push_cast at hdays
  omega

/-- It has the given number of seconds. -/
theorem Moment.seconds_ofSeconds (secs : Nat) : (ofSeconds secs).seconds = secs := by
  rw [seconds, dayNumber_ofSeconds]
  dsimp only [ofSeconds]
  omega

theorem Moment.day_le_31 (m : Moment) : m.day ≤ 31 := by
  have hle := m.day_le
  have h1 := m.month_pos
  have h12 := m.month_le
  have hmonth : monthLength m.year m.month ≤ 31 := by
    rw [monthLength]
    generalize m.month = k at h1 h12
    cases isLeap m.year <;> interval_cases k <;> decide
  omega

/-- The fields of the time, from the results of the two loops. -/
theorem Moment.fields_ofSeconds {secs y d mo r : Nat} (hyear : yearFrom 1970 (secs / 86400) = (y, d))
    (hmonth : monthFrom (monthLengths (isLeap y)) 1 d = (mo, r)) :
    r < 31 ∧ (ofSeconds secs).fields =
      [(y : Int), mo, (r + 1 : Nat), (secs % 86400 / 3600 : Nat), (secs % 3600 / 60 : Nat),
        (secs % 60 : Nat)] := by
  have hfields : (ofSeconds secs).fields =
      [((yearFrom 1970 (secs / 86400)).1 : Int),
        (monthFrom (monthLengths (isLeap (yearFrom 1970 (secs / 86400)).1)) 1
          (yearFrom 1970 (secs / 86400)).2).1,
        ((monthFrom (monthLengths (isLeap (yearFrom 1970 (secs / 86400)).1)) 1
          (yearFrom 1970 (secs / 86400)).2).2 + 1 : Nat),
        (secs % 86400 / 3600 : Nat), (secs % 3600 / 60 : Nat), (secs % 60 : Nat)] := rfl
  have hday : (ofSeconds secs).day = (monthFrom (monthLengths (isLeap (yearFrom 1970 (secs / 86400)).1))
      1 (yearFrom 1970 (secs / 86400)).2).2 + 1 := rfl
  have hle := (ofSeconds secs).day_le_31
  simp only [hyear, hmonth] at hfields hday
  exact ⟨by omega, hfields⟩

end Subtraction

section Seconds

/-- The calendar repeats itself after 400 years. -/
theorem isLeap_add (y k : Int) : isLeap (y + 400 * k) = isLeap y := by
  rw [Bool.eq_iff_iff, isLeap_iff, isLeap_iff]
  omega

theorem daysBeforeYear_add (y k : Int) :
    daysBeforeYear (y + 400 * k) = daysBeforeYear y + 146097 * k := by
  rw [daysBeforeYear, daysBeforeYear]
  omega

namespace Moment

/-- The same date and time of day some periods of 400 years later. -/
def shift (m : Moment) (k : Int) : Moment :=
  { m with
    year := m.year + 400 * k
    day_le := by
      rw [monthLength, isLeap_add]
      exact m.day_le }

theorem seconds_shift (m : Moment) (k : Int) :
    (m.shift k).seconds = m.seconds + 12622780800 * k := by
  have hmonth : daysBeforeMonth (m.year + 400 * k) m.month = daysBeforeMonth m.year m.month := by
    rw [daysBeforeMonth, isLeap_add, daysBeforeMonth]
  rw [seconds, seconds, dayNumber, dayNumber]
  dsimp only [shift]
  rw [daysBeforeYear_add, hmonth]
  ring

/-- The time with a number of seconds, before 1970 too. -/
def atSecond (t : Int) : Moment :=
  (ofSeconds (t % 12622780800).toNat).shift (t / 12622780800)

theorem seconds_atSecond (t : Int) : (atSecond t).seconds = t := by
  rw [atSecond, seconds_shift, seconds_ofSeconds]
  omega

theorem eq_atSecond {m : Moment} {t : Int} (h : m.seconds = t) : m = atSecond t :=
  seconds_injective (h.trans (seconds_atSecond t).symm)

/-- Times less than three centuries from 1970 have a year of four digits. -/
theorem year_of_seconds {m : Moment} (h : |m.seconds| ≤ 9223372037) :
    0 ≤ m.year ∧ m.year < 10000 := by
  have hinside := m.daysBeforeMonth_add_day_le
  have hlong := yearLength_le m.year
  have hday := m.day_pos
  have hhour := m.hour_lt
  have hminute := m.minute_lt
  have hsecond := m.second_lt
  rw [abs_le, seconds, dayNumber] at h
  have hbase : daysBeforeYear 1970 = 719162 := by decide
  rw [hbase] at h
  constructor
  · by_contra hneg
    have hmono : daysBeforeYear m.year ≤ daysBeforeYear 0 := daysBeforeYear_mono (by omega)
    have hzero : daysBeforeYear 0 = -366 := by decide
    omega
  · by_contra hlarge
    have hmono : daysBeforeYear 10000 ≤ daysBeforeYear m.year := daysBeforeYear_mono (by omega)
    have hten : daysBeforeYear 10000 = 3652059 := by decide
    omega

/-- A time with a year of four digits is determined by its text. -/
theorem eq_of_text {a b : Moment} (ha : 0 ≤ a.year ∧ a.year < 10000)
    (hb : 0 ≤ b.year ∧ b.year < 10000) (h : a.text = b.text) : a = b := by
  have hyear {m : Moment} (hm : 0 ≤ m.year ∧ m.year < 10000) :
      (padded 4 m.year.toNat).length = 4 := length_padded (by omega)
  have htwo {n : Nat} (hn : n < 100) : (padded 2 n).length = 2 := length_padded hn
  have hmonth (m : Moment) : m.month < 100 := by have := m.month_le; omega
  have hday (m : Moment) : m.day < 100 := by have := m.day_le_31; omega
  have hhour (m : Moment) : m.hour < 100 := by have := m.hour_lt; omega
  have hminute (m : Moment) : m.minute < 100 := by have := m.minute_lt; omega
  have hsecond (m : Moment) : m.second < 100 := by have := m.second_lt; omega
  rw [text, text, iso8601, iso8601] at h
  simp only [List.append_assoc] at h
  obtain ⟨h1, h⟩ := List.append_inj h (by rw [hyear ha, hyear hb])
  obtain ⟨h2, h⟩ := List.append_inj (List.append_cancel_left h)
    (by rw [htwo (hmonth a), htwo (hmonth b)])
  obtain ⟨h3, h⟩ := List.append_inj (List.append_cancel_left h)
    (by rw [htwo (hday a), htwo (hday b)])
  obtain ⟨h4, h⟩ := List.append_inj (List.append_cancel_left h)
    (by rw [htwo (hhour a), htwo (hhour b)])
  obtain ⟨h5, h⟩ := List.append_inj (List.append_cancel_left h)
    (by rw [htwo (hminute a), htwo (hminute b)])
  obtain ⟨h6, -⟩ := List.append_inj (List.append_cancel_left h)
    (by rw [htwo (hsecond a), htwo (hsecond b)])
  have hy : a.year = b.year := by
    have hsame := padded_injective 4 h1
    omega
  apply fields_injective
  rw [fields, fields, hy, padded_injective 2 h2, padded_injective 2 h3, padded_injective 2 h4,
    padded_injective 2 h5, padded_injective 2 h6]

/-- Two seconds less than three centuries from 1970 have the same text only if they are one. -/
theorem text_atSecond_inj {t u : Int} (ht : |t| ≤ 9223372037) (hu : |u| ≤ 9223372037) :
    (atSecond t).text = (atSecond u).text ↔ t = u := by
  constructor
  · intro h
    have heq := eq_of_text (year_of_seconds (by rwa [seconds_atSecond]))
      (year_of_seconds (by rwa [seconds_atSecond])) h
    rw [← seconds_atSecond t, heq, seconds_atSecond]
  · rintro rfl
    rfl

end Moment

end Seconds

end HelloWebsocket.Calendar
