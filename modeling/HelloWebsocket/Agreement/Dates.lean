import HelloWebsocket.Rust.Utility
import HelloWebsocket.Swift.Utility

/-!
# The calendars of Rust and Swift agree

Both languages bring their own conversion from seconds to a date. Each finds the time of
the Gregorian calendar that has this number of seconds, so later seconds give later
fields.
-/

namespace HelloWebsocket.Agreement

open Calendar

/-- `unix_to_utc` finds the fields of the time with the given number of seconds, and `nowISO` of
Swift finds the same. -/
theorem exists_moment {secs : UInt64} (h : secs.toNat / 86400 < 2 ^ 32) :
    ∃ (u : Rust.Utc) (x : Swift.Stamp) (m : Moment), Rust.unixToUtc secs = some u ∧
      Swift.stamp secs.toInt64 = some x ∧ u.fields = m.fields ∧ x.fields = m.fields ∧
      m.seconds = secs.toNat := by
  have hsmall : secs.toNat < 2 ^ 63 := by omega
  have hsigned : secs.toInt64.toInt = secs.toNat := by
    rw [Int64.toInt, UInt64.toBitVec_toInt64, BitVec.toInt_eq_toNat_of_lt (by
      rw [UInt64.toNat_toBitVec]
      omega), UInt64.toNat_toBitVec]
  obtain ⟨u, hu, hufields⟩ := Rust.unixToUtc_eq h
  have hnonneg : 0 ≤ secs.toInt64.toInt := by omega
  obtain ⟨x, hx, hxfields⟩ := Swift.stamp_eq hnonneg
  rw [hsigned, Int.toNat_natCast] at hxfields
  exact ⟨u, x, Moment.ofSeconds secs.toNat, hu, hx, hufields, hxfields,
    Moment.seconds_ofSeconds secs.toNat⟩

/-- The conversion is exact: its fields are those of a time of the calendar, which has the given
number of seconds; they grow with the seconds; and Swift finds the same fields. -/
theorem unixToUtc_exact {secs : UInt64} (h : secs.toNat / 86400 < 2 ^ 32) :
    ∃ (u : Rust.Utc) (x : Swift.Stamp) (m : Moment), Rust.unixToUtc secs = some u ∧
      Swift.stamp secs.toInt64 = some x ∧ u.fields = m.fields ∧ x.fields = u.fields ∧
      m.seconds = secs.toNat ∧
      ∀ later : UInt64, later.toNat / 86400 < 2 ^ 32 → secs < later →
        ∃ v, Rust.unixToUtc later = some v ∧ u.fields < v.fields := by
  obtain ⟨u, x, m, hu, hx, hufields, hxfields, hseconds⟩ := exists_moment h
  refine ⟨u, x, m, hu, hx, hufields, hxfields.trans hufields.symm, hseconds, ?_⟩
  intro later hlater hlt
  obtain ⟨v, -, n, hv, -, hvfields, -, hlaterSeconds⟩ := exists_moment hlater
  refine ⟨v, hv, ?_⟩
  have hsecs : secs.toNat < later.toNat := hlt
  rw [hufields, hvfields, Moment.fields_lt_iff, hseconds, hlaterSeconds]
  exact_mod_cast hsecs

/-- The last second of the leap day of 2000. -/
theorem unixToUtc_exact_leap_day :
    ∃ (u : Rust.Utc) (m : Moment), Rust.unixToUtc 951868799 = some u ∧ u.fields = m.fields ∧
      m.seconds = 951868799 := by
  have h : (951868799 : UInt64).toNat / 86400 < 2 ^ 32 := by decide
  obtain ⟨u, -, m, hu, -, hfields, -, hseconds, -⟩ := unixToUtc_exact h
  exact ⟨u, m, hu, hfields, hseconds⟩

/-- The texts agree: both are that of the time with the given number of seconds. -/
theorem nowIso_agree {secs : UInt64} (h : secs.toNat / 86400 < 2 ^ 32) :
    ∃ m : Moment, m.seconds = secs.toNat ∧ Rust.nowIso secs = some m.text ∧
      Swift.nowISO secs.toInt64 = some m.text := by
  obtain ⟨u, x, m, hu, hx, hufields, hxfields, hseconds⟩ := exists_moment h
  simp only [Rust.Utc.fields, Swift.Stamp.fields, Moment.fields, List.cons.injEq, and_true]
    at hufields hxfields
  obtain ⟨hy, hmo, hd, hh, hmi, hs⟩ := hufields
  obtain ⟨hy', hmo', hd', hh', hmi', hs'⟩ := hxfields
  refine ⟨m, hseconds, ?_, ?_⟩
  · rw [Rust.nowIso, hu, Option.map_some, Moment.text, ← hy, Int.toNat_natCast, Int.ofNat.inj hmo,
      Int.ofNat.inj hd, Int.ofNat.inj hh, Int.ofNat.inj hmi, Int.ofNat.inj hs]
  · rw [Swift.nowISO, hx, Option.map_some, Moment.text, hy', hmo', hd', hh', hmi', hs']
    rfl

end HelloWebsocket.Agreement
