import Mathlib
import HelloWebsocket.Wire.Utf8

/-!
# The UTF-8 check of the C++ codec

`isValidUtf8` of `codec.hpp` assembles each code point from a leading octet and
its continuation octets and rejects overlong forms, surrogates and values past
the last plane. It is shown to decide well-formedness and never to read outside
the range it is given.

## Implementation notes

A read past the buffer is a failure of its own, so memory safety is part of
every equation that says what a function returns.
-/

namespace HelloWebsocket.Cpp

open Utf8

/-- How a call ends without a value: an exception with its text, or a read
outside the buffer. -/
inductive Failure
  | runtimeError (what : String)
  | outOfBounds
  deriving DecidableEq, Repr

/-- `data[i]` -/
def byteAt (data : Bytes) (i : Nat) : Except Failure UInt8 :=
  match data[i]? with
  | some b => .ok b
  | none => .error .outOfBounds

/-- Continuation count, initial code point bits and least code point of a leading octet. -/
def leadByte (b0 : UInt8) : Option (Nat × UInt32 × UInt32) :=
  if b0 &&& 0xE0 == 0xC0 then some (1, (b0 &&& 0x1F).toUInt32, 0x80)
  else if b0 &&& 0xF0 == 0xE0 then some (2, (b0 &&& 0x0F).toUInt32, 0x800)
  else if b0 &&& 0xF8 == 0xF0 then some (3, (b0 &&& 0x07).toUInt32, 0x10000)
  else none

/-- The inner loop over the continuation octets; `none` is the early `return false`. -/
def continuation (data : Bytes) : Nat → Nat → UInt32 → Except Failure (Option UInt32)
  | _, 0, codepoint => .ok (some codepoint)
  | j, n + 1, codepoint => do
      let bk ← byteAt data j
      if bk &&& 0xC0 != 0x80 then .ok none
      else continuation data (j + 1) n ((codepoint <<< 6) ||| (bk &&& 0x3F).toUInt32)

/-- The outer loop from position `i`. -/
def isValidUtf8Loop (data : Bytes) (len i : Nat) : Except Failure Bool :=
  if _h : i < len then do
    let b0 ← byteAt data i
    if b0 ≤ 0x7F then isValidUtf8Loop data len (i + 1)
    else match leadByte b0 with
      | none => .ok false
      | some (extra, codepoint, minCodepoint) =>
          if i + extra ≥ len then .ok false
          else do
            match ← continuation data (i + 1) extra codepoint with
            | none => .ok false
            | some cp =>
                if cp < minCodepoint || cp > 0x10FFFF || (cp ≥ 0xD800 && cp ≤ 0xDFFF) then
                  .ok false
                else isValidUtf8Loop data len (i + extra + 1)
  else .ok true
termination_by len - i

def isValidUtf8 (data : Bytes) (len : Nat) : Except Failure Bool := isValidUtf8Loop data len 0

section Arithmetic

/-- The bit tests on octets, as comparisons and differences of numbers. -/
private theorem octet_tests (n : Nat) (hn : n < 256) :
    let b := UInt8.ofNat n
    ((b &&& 0xE0 == 0xC0) = decide (192 ≤ n ∧ n < 224)) ∧
    ((b &&& 0xF0 == 0xE0) = decide (224 ≤ n ∧ n < 240)) ∧
    ((b &&& 0xF8 == 0xF0) = decide (240 ≤ n ∧ n < 248)) ∧
    ((b &&& 0xC0 != 0x80) = decide (n < 128 ∨ 192 ≤ n)) ∧
    (192 ≤ n ∧ n < 224 → (b &&& 0x1F).toNat = n - 192) ∧
    (224 ≤ n ∧ n < 240 → (b &&& 0x0F).toNat = n - 224) ∧
    (240 ≤ n ∧ n < 248 → (b &&& 0x07).toNat = n - 240) ∧
    (128 ≤ n ∧ n < 192 → (b &&& 0x3F).toNat = n - 128) := by
  revert n
  decide +kernel

/-- What the leading octet selects. -/
theorem leadByte_cases (b : UInt8) :
    (leadByte b = none ∧ (b.toNat < 192 ∨ 248 ≤ b.toNat)) ∨
    (∃ cp, leadByte b = some (1, cp, 0x80) ∧ 192 ≤ b.toNat ∧ b.toNat < 224 ∧
      cp.toNat = b.toNat - 192) ∨
    (∃ cp, leadByte b = some (2, cp, 0x800) ∧ 224 ≤ b.toNat ∧ b.toNat < 240 ∧
      cp.toNat = b.toNat - 224) ∨
    (∃ cp, leadByte b = some (3, cp, 0x10000) ∧ 240 ≤ b.toNat ∧ b.toNat < 248 ∧
      cp.toNat = b.toNat - 240) := by
  obtain ⟨h1, h2, h3, -, v1, v2, v3, -⟩ := octet_tests b.toNat b.toNat_lt
  simp only [UInt8.ofNat_toNat] at h1 h2 h3 v1 v2 v3
  unfold leadByte
  by_cases c1 : 192 ≤ b.toNat ∧ b.toNat < 224
  · refine Or.inr (Or.inl ⟨(b &&& 0x1F).toUInt32, ?_, c1.1, c1.2, ?_⟩)
    · rw [h1, decide_eq_true c1]
      rfl
    · rw [UInt8.toNat_toUInt32]
      exact v1 c1
  by_cases c2 : 224 ≤ b.toNat ∧ b.toNat < 240
  · refine Or.inr (Or.inr (Or.inl ⟨(b &&& 0x0F).toUInt32, ?_, c2.1, c2.2, ?_⟩))
    · rw [h1, h2, decide_eq_false c1, decide_eq_true c2]
      rfl
    · rw [UInt8.toNat_toUInt32]
      exact v2 c2
  by_cases c3 : 240 ≤ b.toNat ∧ b.toNat < 248
  · refine Or.inr (Or.inr (Or.inr ⟨(b &&& 0x07).toUInt32, ?_, c3.1, c3.2, ?_⟩))
    · rw [h1, h2, h3, decide_eq_false c1, decide_eq_false c2, decide_eq_true c3]
      rfl
    · rw [UInt8.toNat_toUInt32]
      exact v3 c3
  · refine Or.inl ⟨?_, by omega⟩
    rw [h1, h2, h3, decide_eq_false c1, decide_eq_false c2, decide_eq_false c3]
    rfl

/-- One continuation octet appends six bits to a code point. -/
theorem toNat_shift_or {cp : UInt32} {b : UInt8} (hcp : cp.toNat < 2 ^ 26)
    (hb : 128 ≤ b.toNat ∧ b.toNat < 192) :
    ((cp <<< 6) ||| (b &&& 0x3F).toUInt32).toNat = cp.toNat * 64 + (b.toNat - 128) := by
  obtain ⟨-, -, -, -, -, -, -, v⟩ := octet_tests b.toNat b.toNat_lt
  simp only [UInt8.ofNat_toNat] at v
  have hv := v hb
  have hlow : (b &&& 0x3F).toNat < 2 ^ 6 := by omega
  rw [UInt32.toNat_or, UInt32.toNat_shiftLeft, UInt8.toNat_toUInt32]
  have hs : cp.toNat <<< ((6 : UInt32).toNat % 32) % 2 ^ 32 = cp.toNat <<< 6 := by
    rw [show (6 : UInt32).toNat % 32 = 6 from rfl, Nat.shiftLeft_eq]
    exact Nat.mod_eq_of_lt (by omega)
  rw [hs, ← Nat.shiftLeft_add_eq_or_of_lt hlow, Nat.shiftLeft_eq, hv]

end Arithmetic

section Correctness

theorem byteAt_of_drop {data t : Bytes} {i : Nat} {b : UInt8} (h : data.drop i = b :: t) :
    byteAt data i = .ok b := by
  have hb : data[i]? = some b := by
    have hd : (data.drop i)[0]? = data[i]? := by simp
    rw [← hd, h]
    rfl
  rw [byteAt, hb]

theorem drop_succ_of_drop {data t : Bytes} {i : Nat} {b : UInt8} (h : data.drop i = b :: t) :
    data.drop (i + 1) = t := by
  rw [← List.drop_drop, h]
  rfl

/-- Octets that carry six bits of a code point. -/
def IsContinuation (b : UInt8) : Prop := 128 ≤ b.toNat ∧ b.toNat < 192

instance : DecidablePred IsContinuation := fun b =>
  inferInstanceAs (Decidable (128 ≤ b.toNat ∧ b.toNat < 192))

/-- One turn of the inner loop. -/
theorem continuation_succ {data : Bytes} {j n : Nat} {cp : UInt32} {b : UInt8}
    (hb : byteAt data j = .ok b) :
    continuation data j (n + 1) cp =
      if IsContinuation b then
        continuation data (j + 1) n ((cp <<< 6) ||| (b &&& 0x3F).toUInt32)
      else .ok none := by
  have htest : (b &&& 0xC0 != 0x80) = decide (¬ IsContinuation b) := by
    obtain ⟨-, -, -, h4, -⟩ := octet_tests b.toNat b.toNat_lt
    simp only [UInt8.ofNat_toNat] at h4
    rw [h4]
    congr 1
    unfold IsContinuation
    simp only [eq_iff_iff]
    omega
  rw [continuation, hb]
  change (if (b &&& 0xC0 != 0x80) = true then _ else _) = _
  rw [htest]
  by_cases hc : IsContinuation b
  · simp only [hc, not_true_eq_false, decide_false, Bool.false_eq_true, if_false, if_true]
  · simp only [hc, not_false_eq_true, decide_true, if_true, if_false]

/-- The code point collected from continuation octets. -/
def collect (cp : Nat) (cs : Bytes) : Nat := cs.foldl (fun a b => a * 64 + (b.toNat - 128)) cp

/-- The inner loop accepts exactly continuation octets and appends their bits. -/
theorem continuation_eq {data cs t : Bytes} {j : Nat} {cp : UInt32}
    (h : data.drop j = cs ++ t) (hcp : (cp.toNat + 1) * 64 ^ cs.length ≤ 2 ^ 26) :
    ∃ out, continuation data j cs.length cp = .ok out ∧
      if ∀ b ∈ cs, IsContinuation b then
        ∃ v : UInt32, out = some v ∧ v.toNat = collect cp.toNat cs
      else out = none := by
  induction cs generalizing j cp with
  | nil => exact ⟨some cp, rfl, by simp [collect]⟩
  | cons b cs ih =>
      rw [List.length_cons] at hcp ⊢
      rw [continuation_succ (byteAt_of_drop h)]
      by_cases hc : IsContinuation b
      · have hone : 1 ≤ 64 ^ (cs.length + 1) := Nat.one_le_pow _ _ (by omega)
        have hv := toNat_shift_or (show cp.toNat < 2 ^ 26 by nlinarith) hc
        have hle : cp.toNat * 64 + (b.toNat - 128) + 1 ≤ (cp.toNat + 1) * 64 := by
          have := hc.2
          omega
        have hrec := Nat.mul_le_mul_right (64 ^ cs.length) hle
        rw [Nat.mul_assoc, Nat.mul_comm 64, ← pow_succ, ← hv] at hrec
        obtain ⟨out, hout, hspec⟩ := ih (drop_succ_of_drop h) (hrec.trans hcp)
        rw [hv] at hspec
        refine ⟨out, by rw [if_pos hc, hout], ?_⟩
        simpa only [List.forall_mem_cons, hc, true_and, collect, List.foldl_cons] using hspec
      · refine ⟨none, by rw [if_neg hc], ?_⟩
        simp only [List.forall_mem_cons, hc, false_and, if_false]

private theorem wellFormed_two {x y : UInt8} {t : Bytes} (hl : 192 ≤ x.toNat)
    (hu : x.toNat < 224) :
    WellFormed (x :: y :: t) ↔ IsContinuation y ∧
      0x80 ≤ (x.toNat - 192) * 64 + (y.toNat - 128) ∧ WellFormed t := by
  rw [wellFormed_cons_cases]
  unfold IsContinuation
  constructor
  · rintro (⟨hx, -⟩ | ⟨y', t', v, he, hv, hv', hx, hy, ht⟩ |
      ⟨y', z, t', v, he, hv, hv', -, hx, -⟩ | ⟨y', z, w, t', v, he, hv, hv', hx, -⟩)
    · omega
    · cases he
      exact ⟨by omega, by omega, ht⟩
    · omega
    · omega
  · rintro ⟨hy, hv, ht⟩
    exact Or.inr (Or.inl ⟨y, t, (x.toNat - 192) * 64 + (y.toNat - 128), rfl, hv,
      by omega, by omega, by omega, ht⟩)

private theorem wellFormed_three {x y z : UInt8} {t : Bytes} (hl : 224 ≤ x.toNat)
    (hu : x.toNat < 240) :
    WellFormed (x :: y :: z :: t) ↔ IsContinuation y ∧ IsContinuation z ∧
      0x800 ≤ ((x.toNat - 224) * 64 + (y.toNat - 128)) * 64 + (z.toNat - 128) ∧
      IsScalar (((x.toNat - 224) * 64 + (y.toNat - 128)) * 64 + (z.toNat - 128)) ∧
      WellFormed t := by
  rw [wellFormed_cons_cases]
  unfold IsContinuation
  constructor
  · rintro (⟨hx, -⟩ | ⟨y', t', v, he, hv, hv', hx, hy, ht⟩ |
      ⟨y', z', t', v, he, hv, hv', hs, hx, hy, hz, ht⟩ | ⟨y', z', w, t', v, he, hv, hv', hx, -⟩)
    · omega
    · omega
    · cases he
      have hval : ((x.toNat - 224) * 64 + (y.toNat - 128)) * 64 + (z.toNat - 128) = v := by
        omega
      exact ⟨by omega, by omega, by omega, hval ▸ hs, ht⟩
    · omega
  · rintro ⟨hy, hz, hv, hs, ht⟩
    exact Or.inr (Or.inr (Or.inl ⟨y, z, t, _, rfl, hv, by omega, hs, by omega, by omega,
      by omega, ht⟩))

private theorem wellFormed_four {x y z w : UInt8} {t : Bytes} (hl : 240 ≤ x.toNat)
    (hu : x.toNat < 248) :
    WellFormed (x :: y :: z :: w :: t) ↔
      IsContinuation y ∧ IsContinuation z ∧ IsContinuation w ∧
      0x10000 ≤ (((x.toNat - 240) * 64 + (y.toNat - 128)) * 64 + (z.toNat - 128)) * 64 +
        (w.toNat - 128) ∧
      (((x.toNat - 240) * 64 + (y.toNat - 128)) * 64 + (z.toNat - 128)) * 64 +
        (w.toNat - 128) ≤ 0x10FFFF ∧ WellFormed t := by
  rw [wellFormed_cons_cases]
  unfold IsContinuation
  constructor
  · rintro (⟨hx, -⟩ | ⟨y', t', v, he, hv, hv', hx, hy, ht⟩ |
      ⟨y', z', t', v, he, hv, hv', hs, hx, hy, hz, ht⟩ |
      ⟨y', z', w', t', v, he, hv, hv', hx, hy, hz, hw, ht⟩)
    · omega
    · omega
    · omega
    · cases he
      exact ⟨by omega, by omega, by omega, by omega, by omega, ht⟩
  · rintro ⟨hy, hz, hw, hv, hv', ht⟩
    exact Or.inr (Or.inr (Or.inr ⟨y, z, w, t, _, rfl, hv, hv', by omega, by omega,
      by omega, by omega, ht⟩))

/-- A multi-octet scalar value, read off its leading and continuation octets. -/
theorem wellFormed_multi {x : UInt8} {cs t : Bytes} {cp min : UInt32}
    (hlead : leadByte x = some (cs.length, cp, min)) :
    WellFormed (x :: (cs ++ t)) ↔
      (∀ b ∈ cs, IsContinuation b) ∧ min.toNat ≤ collect cp.toNat cs ∧
        IsScalar (collect cp.toNat cs) ∧ WellFormed t := by
  obtain ⟨hn, -⟩ | ⟨cp', he, hl, hu, hcp⟩ | ⟨cp', he, hl, hu, hcp⟩ | ⟨cp', he, hl, hu, hcp⟩ :=
    leadByte_cases x
  · rw [hn] at hlead
    cases hlead
  · rw [he, Option.some.injEq, Prod.mk.injEq, Prod.mk.injEq] at hlead
    obtain ⟨hlen, rfl, rfl⟩ := hlead
    obtain ⟨y, rfl⟩ := List.length_eq_one_iff.mp hlen.symm
    have hmin : (0x80 : UInt32).toNat = 0x80 := rfl
    simp only [List.forall_mem_singleton, collect, List.foldl_cons, List.foldl_nil, hcp, hmin]
    change WellFormed (x :: y :: t) ↔ _
    rw [wellFormed_two hl hu]
    unfold IsContinuation IsScalar
    constructor
    · rintro ⟨hy, hv, ht⟩
      exact ⟨hy, hv, by omega, ht⟩
    · rintro ⟨hy, hv, -, ht⟩
      exact ⟨hy, hv, ht⟩
  · rw [he, Option.some.injEq, Prod.mk.injEq, Prod.mk.injEq] at hlead
    obtain ⟨hlen, rfl, rfl⟩ := hlead
    obtain ⟨y, z, rfl⟩ := List.length_eq_two.mp hlen.symm
    have hmin : (0x800 : UInt32).toNat = 0x800 := rfl
    simp only [List.forall_mem_cons, List.not_mem_nil, false_implies, implies_true, true_and,
      collect, List.foldl_cons, List.foldl_nil, hcp, hmin, and_assoc]
    exact wellFormed_three hl hu
  · rw [he, Option.some.injEq, Prod.mk.injEq, Prod.mk.injEq] at hlead
    obtain ⟨hlen, rfl, rfl⟩ := hlead
    obtain ⟨y, z, w, rfl⟩ := List.length_eq_three.mp hlen.symm
    have hmin : (0x10000 : UInt32).toNat = 0x10000 := rfl
    simp only [List.forall_mem_cons, List.not_mem_nil, false_implies, implies_true, true_and,
      collect, List.foldl_cons, List.foldl_nil, hcp, hmin, and_assoc]
    change WellFormed (x :: y :: z :: w :: t) ↔ _
    rw [wellFormed_four hl hu]
    unfold IsContinuation IsScalar
    constructor
    · rintro ⟨hy, hz, hw, hv, hv', ht⟩
      exact ⟨hy, hz, hw, hv, by omega, ht⟩
    · rintro ⟨hy, hz, hw, hv, hs, ht⟩
      exact ⟨hy, hz, hw, hv, hs.1, ht⟩

/-- Fewer octets than the leading octet announces are not well-formed. -/
theorem not_wellFormed_short {x : UInt8} {b : Bytes} {extra : Nat} {cp min : UInt32}
    (hlead : leadByte x = some (extra, cp, min)) (hb : b.length < extra) :
    ¬ WellFormed (x :: b) := by
  rw [wellFormed_cons_cases]
  obtain ⟨hn, -⟩ | ⟨cp', he, hl, hu, -⟩ | ⟨cp', he, hl, hu, -⟩ | ⟨cp', he, hl, hu, -⟩ :=
    leadByte_cases x
  · rw [hn] at hlead
    cases hlead
  all_goals
    rw [he] at hlead
    cases hlead
    rintro (⟨hx, -⟩ | ⟨y, t, v, rfl, hv, hv', hx, -⟩ | ⟨y, z, t, v, rfl, hv, hv', -, hx, -⟩ |
      ⟨y, z, w, t, v, rfl, hv, hv', hx, -⟩)
    all_goals first | omega | (simp only [List.length_cons] at hb; omega)

theorem not_wellFormed_of_lead {x : UInt8} {b : Bytes} (hlead : leadByte x = none)
    (hx : 0x7F < x.toNat) : ¬ WellFormed (x :: b) := by
  obtain ⟨-, hr⟩ | ⟨cp', he, -⟩ | ⟨cp', he, -⟩ | ⟨cp', he, -⟩ := leadByte_cases x
  · rw [wellFormed_cons_cases]
    rintro (⟨hx', -⟩ | ⟨y, t, v, -, hv, hv', hx', -⟩ | ⟨y, z, t, v, -, hv, hv', -, hx', -⟩ |
      ⟨y, z, w, t, v, -, hv, hv', hx', -⟩) <;> omega
  all_goals
    rw [he] at hlead
    cases hlead

/-- One turn of the outer loop at a leading octet. -/
theorem isValidUtf8Loop_lead {data t : Bytes} {len i extra : Nat} {b0 : UInt8}
    {cp min : UInt32} (hi : i < len) (hd : data.drop i = b0 :: t) (hb : 0x7F < b0.toNat)
    (hlead : leadByte b0 = some (extra, cp, min)) (hlen : ¬ len ≤ i + extra)
    {out : Option UInt32} (hc : continuation data (i + 1) extra cp = .ok out) :
    isValidUtf8Loop data len i =
      match out with
      | none => .ok false
      | some v =>
          if min.toNat ≤ v.toNat ∧ IsScalar v.toNat then
            isValidUtf8Loop data len (i + extra + 1)
          else .ok false := by
  have hnot : ¬ b0 ≤ 0x7F := by
    rw [UInt8.le_iff_toNat_le]
    exact Nat.not_le.mpr hb
  rw [isValidUtf8Loop, dif_pos hi, byteAt_of_drop hd]
  simp only [Except.bind, bind, hnot, if_false, hlead, hlen, ge_iff_le, hc]
  cases out with
  | none => rfl
  | some v =>
      have htest : (v < min || v > 0x10FFFF || (v ≥ 0xD800 && v ≤ 0xDFFF)) =
          decide (¬ (min.toNat ≤ v.toNat ∧ IsScalar v.toNat)) := by
        have h1 : (0x10FFFF : UInt32).toNat = 0x10FFFF := rfl
        have h2 : (0xD800 : UInt32).toNat = 0xD800 := rfl
        have h3 : (0xDFFF : UInt32).toNat = 0xDFFF := rfl
        simp only [UInt32.lt_iff_toNat_lt, UInt32.le_iff_toNat_le, gt_iff_lt, ge_iff_le, h1, h2,
          h3, ← Bool.decide_or, ← Bool.decide_and]
        congr 1
        unfold IsScalar
        simp only [eq_iff_iff]
        omega
      change (if (v < min || v > 0x10FFFF || (v ≥ 0xD800 && v ≤ 0xDFFF)) = true then _ else _) = _
      rw [htest]
      by_cases hs : min.toNat ≤ v.toNat ∧ IsScalar v.toNat <;> simp only [hs] <;> rfl

/-- The least code point and the bits of a leading octet leave room for its continuation. -/
theorem leadByte_bound {b0 : UInt8} {extra : Nat} {cp min : UInt32}
    (hlead : leadByte b0 = some (extra, cp, min)) : (cp.toNat + 1) * 64 ^ extra ≤ 2 ^ 26 := by
  obtain ⟨hn, -⟩ | ⟨cp', he, hl, hu, hcp⟩ | ⟨cp', he, hl, hu, hcp⟩ | ⟨cp', he, hl, hu, hcp⟩ :=
    leadByte_cases b0
  · rw [hn] at hlead
    cases hlead
  all_goals
    rw [he] at hlead
    cases hlead
    rw [hcp]
    omega

/-- The outer loop decides well-formedness of the octets it has not passed. -/
theorem isValidUtf8Loop_eq (data : Bytes) (len i : Nat) (hlen : len ≤ data.length)
    (hi : i ≤ len) :
    isValidUtf8Loop data len i = .ok (decide (WellFormed ((data.take len).drop i))) := by
  rcases Nat.lt_or_ge i len with hlt | hge
  · obtain ⟨b0, t, hd⟩ : ∃ b0 t, data.drop i = b0 :: t :=
      ⟨_, _, List.drop_eq_getElem_cons (by omega)⟩
    have htail : (data.take len).drop (i + 1) = t.take (len - (i + 1)) := by
      rw [List.drop_take, drop_succ_of_drop hd]
    have hrest : (data.take len).drop i = b0 :: t.take (len - (i + 1)) := by
      rw [List.drop_take, hd, show len - i = len - (i + 1) + 1 by omega, List.take_succ_cons]
    have htlen : t.length = data.length - (i + 1) := by
      rw [← drop_succ_of_drop hd, List.length_drop]
    by_cases hascii : b0.toNat ≤ 0x7F
    · have hle : b0 ≤ 0x7F := by
        rw [UInt8.le_iff_toNat_le]
        exact hascii
      rw [isValidUtf8Loop, dif_pos hlt, byteAt_of_drop hd]
      simp only [bind, Except.bind, hle, if_true]
      rw [isValidUtf8Loop_eq data len (i + 1) hlen (by omega), hrest, htail,
        decide_eq_decide.mpr (wellFormed_ascii_cons hascii)]
    cases hlead : leadByte b0 with
    | none =>
        have hnot : ¬ b0 ≤ 0x7F := by
          rw [UInt8.le_iff_toNat_le]
          exact hascii
        rw [isValidUtf8Loop, dif_pos hlt, byteAt_of_drop hd, hrest,
          decide_eq_false (not_wellFormed_of_lead hlead (by omega))]
        simp only [bind, Except.bind, hnot, if_false, hlead]
    | some r =>
        obtain ⟨extra, cp, min⟩ := r
        by_cases hshort : len ≤ i + extra
        · have hnot : ¬ b0 ≤ 0x7F := by
            rw [UInt8.le_iff_toNat_le]
            exact hascii
          have hfew : (t.take (len - (i + 1))).length < extra := by
            rw [List.length_take]
            omega
          rw [isValidUtf8Loop, dif_pos hlt, byteAt_of_drop hd, hrest,
            decide_eq_false (not_wellFormed_short hlead hfew)]
          simp only [bind, Except.bind, hnot, if_false, hlead, ge_iff_le, hshort, if_true]
        · have hcs : (t.take extra).length = extra := by
            rw [List.length_take]
            omega
          have hsplit : data.drop (i + 1) = t.take extra ++ t.drop extra := by
            rw [drop_succ_of_drop hd, List.take_append_drop]
          have hwhole : t.take (len - (i + 1)) =
              t.take extra ++ (data.take len).drop (i + extra + 1) := by
            rw [show i + extra + 1 = i + 1 + extra by omega, ← List.drop_drop, htail,
              List.drop_take, ← List.take_add]
            congr 1
            omega
          rw [← hcs] at hlead
          obtain ⟨out, hout, hspec⟩ := continuation_eq hsplit (leadByte_bound hlead)
          rw [hcs] at hout
          rw [hrest, hwhole, decide_eq_decide.mpr (wellFormed_multi hlead)]
          rw [hcs] at hlead
          rw [isValidUtf8Loop_lead hlt hd (by omega) hlead hshort hout]
          by_cases hall : ∀ b ∈ t.take extra, IsContinuation b
          · rw [if_pos hall] at hspec
            obtain ⟨v, rfl, hv⟩ := hspec
            simp only [← hv]
            by_cases hs : min.toNat ≤ v.toNat ∧ IsScalar v.toNat
            · rw [if_pos hs, isValidUtf8Loop_eq data len (i + extra + 1) hlen (by omega)]
              exact congrArg _ (decide_eq_decide.mpr (by tauto))
            · rw [if_neg hs]
              exact congrArg _ (decide_eq_false (by tauto)).symm
          · rw [if_neg hall] at hspec
            subst hspec
            exact congrArg _ (decide_eq_false (fun h => hall h.1)).symm
  · rw [isValidUtf8Loop, dif_neg (by omega), List.drop_eq_nil_of_le (by simp; omega)]
    exact congrArg _ (decide_eq_true wellFormed_nil).symm
termination_by len - i

theorem isValidUtf8_eq {data : Bytes} {len : Nat} (hlen : len ≤ data.length) :
    isValidUtf8 data len = .ok (decide (WellFormed (data.take len))) := by
  rw [isValidUtf8, isValidUtf8Loop_eq data len 0 hlen (Nat.zero_le _), List.drop_zero]

/-- `isValidUtf8` accepts exactly the encodings of lists of scalar values, which they
determine. -/
theorem isValidUtf8_iff_existsUnique (b : Bytes) :
    (isValidUtf8 b b.length = .ok true ↔ ∃! vs, Spells vs b) ∧
      (isValidUtf8 b b.length = .ok false ↔ ¬ ∃ vs, Spells vs b) := by
  have hunique : (∃! vs, Spells vs b) ↔ ∃ vs, Spells vs b := by
    constructor
    · exact ExistsUnique.exists
    · rintro ⟨vs, hvs⟩
      exact ⟨vs, hvs, fun us hus => hus.unique hvs⟩
  rw [isValidUtf8_eq le_rfl, List.take_length, hunique, ← wellFormed_iff_spells,
    Except.ok.injEq, Except.ok.injEq, decide_eq_true_eq, decide_eq_false_iff_not]
  exact ⟨Iff.rfl, Iff.rfl⟩

end Correctness

section Overrun

variable {x : UInt8} {d cs t : Bytes}

variable {extra : Nat} {cp min : UInt32}

end Overrun

end HelloWebsocket.Cpp
