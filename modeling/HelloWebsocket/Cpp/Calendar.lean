import HelloWebsocket.Cpp.Utility
import HelloWebsocket.Wire.Calendar

/-!
# The dates of the C++ codec

The date that `civil` computes from a number of days is the one of the calendar, so the
text of `nowISO` is that of the time of its seconds.

## Implementation notes

The years of `civil` begin in March, and 400 of them are an era of 146097 days. The year of
an era is found by a formula that grows with the day; its values at the first and the last
day of each year are tabulated.
-/

namespace HelloWebsocket.Cpp

open Calendar Decimal Utf8

section Years

/-- The year of a day of an era. -/
def yearOfEra (doe : Nat) : Nat := (doe - doe / 1460 + doe / 36524 - doe / 146096) / 365

/-- The first day of a year of an era. -/
def eraDay (y : Nat) : Nat := 365 * y + y / 4 - y / 100

theorem yearOfEra_mono : Monotone yearOfEra := by
  refine monotone_nat_of_le_succ fun doe => ?_
  rw [yearOfEra, yearOfEra]
  apply Nat.div_le_div_right
  omega

theorem yearOfEra_eraDay : ∀ y < 400, yearOfEra (eraDay y) = y := by decide +kernel

theorem yearOfEra_eve : ∀ y < 400, yearOfEra (eraDay (y + 1) - 1) ≤ y := by decide +kernel

theorem yearOfEra_lt {doe : Nat} (h : doe < 146097) : yearOfEra doe < 400 := by
  have hlast : yearOfEra 146096 = 399 := by decide +kernel
  have hmono := yearOfEra_mono (Nat.le_of_lt_succ h)
  omega

/-- A day lies in its year. Only the last year of the era reaches the day after it. -/
theorem yearOfEra_spec {doe : Nat} (h : doe < 146097) :
    eraDay (yearOfEra doe) ≤ doe ∧
      (doe < eraDay (yearOfEra doe + 1) ∨ yearOfEra doe = 399) := by
  have hlt := yearOfEra_lt h
  constructor
  · by_contra hbefore
    have hpos : yearOfEra doe ≠ 0 := by
      intro hzero
      rw [hzero] at hbefore
      exact hbefore (Nat.zero_le _)
    have heve := yearOfEra_eve (yearOfEra doe - 1) (by omega)
    rw [Nat.sub_add_cancel (Nat.pos_of_ne_zero hpos)] at heve
    have hmono := yearOfEra_mono (show doe ≤ eraDay (yearOfEra doe) - 1 by omega)
    omega
  · by_contra hafter
    push Not at hafter
    have hnext := yearOfEra_eraDay (yearOfEra doe + 1) (by omega)
    have hmono := yearOfEra_mono hafter.1
    omega

/-- Years with 366 days are those that end with 29 February. -/
theorem eraDay_succ : ∀ y < 400, eraDay (y + 1) ≤ eraDay y + 366 ∧
    (eraDay (y + 1) = eraDay y + 366 → (y + 1) % 4 = 0 ∧ (y + 1) % 100 ≠ 0) := by
  decide +kernel

theorem dayOfYear_le {doe : Nat} (h : doe < 146097) (era : Int) :
    doe - eraDay (yearOfEra doe) ≤ 365 ∧ (doe - eraDay (yearOfEra doe) = 365 →
      isLeap (yearOfEra doe + era * 400 + 1) = true) := by
  have hlt := yearOfEra_lt h
  obtain ⟨hfirst, hlast⟩ := yearOfEra_spec h
  obtain ⟨hlong, hleap⟩ := eraDay_succ (yearOfEra doe) hlt
  rw [isLeap_iff]
  rcases hlast with hlast | hlast
  · refine ⟨by omega, fun hday => .inl ?_⟩
    have hend := hleap (by omega)
    omega
  · have hstart : eraDay 399 = 145731 := rfl
    rw [hlast, hstart]
    refine ⟨by omega, fun _ => .inr ?_⟩
    omega

/-- The day before the year of an era is the last February day of the calendar. -/
theorem daysBeforeYear_era {y : Nat} (h : y < 400) (era : Int) :
    daysBeforeYear (y + era * 400 + 1) = era * 146097 + eraDay y := by
  rw [daysBeforeYear, eraDay]
  omega

end Years

section Months

/-- The month of a day of the year that begins in March. -/
def marchMonth (doy : Nat) : Nat := (5 * doy + 2) / 153

def marchDay (doy : Nat) : Nat := doy - (153 * marchMonth doy + 2) / 5 + 1

/-- From March on, a day is in the same year. -/
theorem marchMonth_spec : ∀ leap : Bool, ∀ doy < 366, marchMonth doy < 10 →
    marchDay doy ≤ (monthLengths leap).getD (marchMonth doy + 2) 0 ∧
      ((monthLengths leap).take (marchMonth doy + 2)).sum + marchDay doy =
        doy + 60 + leap.toNat := by
  decide +kernel

/-- January and February are in the next year. -/
theorem marchMonth_next : ∀ leap : Bool, ∀ doy < 366, ¬ marchMonth doy < 10 →
    (doy = 365 → leap = true) →
    marchMonth doy < 12 ∧ marchDay doy ≤ (monthLengths leap).getD (marchMonth doy - 10) 0 ∧
      ((monthLengths leap).take (marchMonth doy - 10)).sum + marchDay doy + 305 = doy := by
  decide +kernel

end Months

section Dates

/-- What makes a year, a month and a day the date of a number of days. -/
structure IsDate (days year : Int) (month day : Nat) : Prop where
  month_pos : 1 ≤ month
  month_le : month ≤ 12
  day_pos : 1 ≤ day
  day_le : day ≤ monthLength year month
  days_eq : daysBeforeYear year - daysBeforeYear 1970 + daysBeforeMonth year month +
    (day - 1 : Nat) = days

/-- `civil` finds the date. -/
theorem isDate_civil (days : Int) :
    IsDate days (civil days).1 (civil days).2.1 (civil days).2.2 := by
  obtain ⟨doe, hdoe⟩ : ∃ doe : Nat, doe = ((days + 719468) % 146097).toNat := ⟨_, rfl⟩
  obtain ⟨era, hera⟩ : ∃ era : Int, era = (days + 719468) / 146097 := ⟨_, rfl⟩
  obtain ⟨doy, hdoy⟩ : ∃ doy : Nat, doy = doe - eraDay (yearOfEra doe) := ⟨_, rfl⟩
  have hlt : doe < 146097 := by omega
  have hbase : daysBeforeYear 1970 = 719162 := by decide
  have hfirst := (yearOfEra_spec hlt).1
  have hleap := dayOfYear_le hlt era
  have hera' := daysBeforeYear_era (yearOfEra_lt hlt) era
  rw [← hdoy] at hleap
  -- The days are counted from the March that begins the year of the era.
  have hdays : days = daysBeforeYear (yearOfEra doe + era * 400 + 1) + doy - 719468 := by omega
  have hcivil : civil days = (yearOfEra doe + era * 400 +
      (if (if marchMonth doy < 10 then marchMonth doy + 3 else marchMonth doy - 9) ≤ 2
        then 1 else 0),
      if marchMonth doy < 10 then marchMonth doy + 3 else marchMonth doy - 9, marchDay doy) := by
    rw [hdoy, hdoe, hera]
    rfl
  rw [hcivil]
  by_cases hmarch : marchMonth doy < 10
  · obtain ⟨hle, hsum⟩ := marchMonth_spec (isLeap (yearOfEra doe + era * 400)) doy (by omega) hmarch
    have hsucc := daysBeforeYear_succ (yearOfEra doe + era * 400)
    have hlength : yearLength (yearOfEra doe + era * 400) =
        365 + (isLeap (yearOfEra doe + era * 400)).toNat := by
      rw [yearLength]
      cases isLeap (yearOfEra doe + era * 400) <;> rfl
    simp only [if_pos hmarch, if_neg (show ¬ marchMonth doy + 3 ≤ 2 by omega), add_zero]
    refine ⟨by omega, by omega, Nat.succ_pos _, hle, ?_⟩
    have hmonth : marchMonth doy + 3 - 1 = marchMonth doy + 2 := by omega
    rw [daysBeforeMonth, hmonth]
    have hpos : 1 ≤ marchDay doy := Nat.succ_pos _
    omega
  · obtain ⟨hlast, hle, hsum⟩ := marchMonth_next (isLeap (yearOfEra doe + era * 400 + 1)) doy
      (by omega) hmarch hleap.2
    have hmonth : marchMonth doy - 9 - 1 = marchMonth doy - 10 := by omega
    simp only [if_neg hmarch, if_pos (show marchMonth doy - 9 ≤ 2 by omega)]
    refine ⟨by omega, by omega, Nat.succ_pos _, ?_, ?_⟩
    · rw [monthLength, hmonth]
      exact hle
    · rw [daysBeforeMonth, hmonth]
      have hpos : 1 ≤ marchDay doy := Nat.succ_pos _
      omega

end Dates

section Texts

theorem digits_succ (count n : Nat) :
    digits (count + 1) n = digits count (n / 10) ++ [UInt8.ofNat (48 + n % 10)] := by
  rw [digits, digits, List.range_succ, List.map_append, List.map_singleton]
  congr 1
  · refine List.map_congr_left fun i hi => ?_
    rw [List.mem_range] at hi
    have hpower : count + 1 - 1 - i = count - 1 - i + 1 := by omega
    rw [hpower, Nat.pow_succ', Nat.div_div_eq_div_mul]
  · rw [Nat.add_sub_cancel, Nat.sub_self, Nat.pow_zero, Nat.div_one]

theorem digits_eq_padded (count : Nat) {n : Nat} (h : n < 10 ^ (count + 1)) :
    digits (count + 1) n = padded (count + 1) n := by
  induction count generalizing n with
  | zero =>
      have hlt : n < 10 := h
      rw [digits_succ, padded, Decimal.digits, if_pos hlt, Nat.mod_eq_of_lt hlt]
      rfl
  | succ count ih =>
      have hdiv : n / 10 < 10 ^ (count + 1) := by
        rw [Nat.div_lt_iff_lt_mul (by decide), ← Nat.pow_succ]
        exact h
      rw [digits_succ, ih hdiv, padded_succ]

/-- `nowISO` is the text of the second that the clock shows. -/
theorem nowISO_eq {now : Int64} (h : |now.toInt.tdiv 1000| ≤ 9223372037) :
    nowISO now = (Moment.atSecond (now.toInt.tdiv 1000)).text := by
  obtain ⟨t, ht⟩ : ∃ t : Int, t = now.toInt.tdiv 1000 := ⟨_, rfl⟩
  have hdate := isDate_civil (t / 86400)
  obtain ⟨m, hm⟩ : ∃ m : Moment, m = {
      year := (civil (t / 86400)).1
      month := (civil (t / 86400)).2.1
      day := (civil (t / 86400)).2.2
      hour := (t % 86400).toNat / 3600
      minute := (t % 86400).toNat / 60 % 60
      second := (t % 86400).toNat % 60
      month_pos := hdate.month_pos
      month_le := hdate.month_le
      day_pos := hdate.day_pos
      day_le := hdate.day_le
      hour_lt := by omega
      minute_lt := by omega
      second_lt := by omega } := ⟨_, rfl⟩
  have hseconds : m.seconds = t := by
    have hdays : m.dayNumber = t / 86400 := by
      rw [hm]
      exact hdate.days_eq
    rw [Moment.seconds, hdays, hm]
    dsimp only
    omega
  rw [← ht] at h ⊢
  have hyear := Moment.year_of_seconds (m := m) (by rwa [hseconds])
  have hday := m.day_le_31
  have hmonth := m.month_le
  have hhour := m.hour_lt
  have hminute := m.minute_lt
  have hsecond := m.second_lt
  rw [← Moment.eq_atSecond hseconds, Moment.text, iso8601,
    ← digits_eq_padded 3 (by omega), ← digits_eq_padded 1 (by omega),
    ← digits_eq_padded 1 (by omega), ← digits_eq_padded 1 (by omega),
    ← digits_eq_padded 1 (by omega), ← digits_eq_padded 1 (by omega),
    nowISO, ← ht, hm]

end Texts

end HelloWebsocket.Cpp
