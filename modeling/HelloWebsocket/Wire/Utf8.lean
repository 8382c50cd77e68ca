import HelloWebsocket.Wire.BigEndian

/-!
# Well-formed UTF-8 octet strings

An octet string is well formed when it concatenates the encodings of Unicode
scalar values. Lean's own characters are exactly the scalar values, so the
library's encoder is the standard one. A text is identified with its encoding,
which is injective.

## Implementation notes

The scalar-by-scalar lemmas speak about numbers rather than bit patterns. A
validator that assembles code points by shifts and masks meets them after its
arithmetic has been read off as sums.
-/

namespace HelloWebsocket.Utf8

/-- Concatenations of encodings of Unicode scalar values. -/
def WellFormed (b : Bytes) : Prop := b.toByteArray.IsValidUTF8

instance : DecidablePred WellFormed := fun b =>
  inferInstanceAs (Decidable b.toByteArray.IsValidUTF8)

theorem wellFormed_iff {b : Bytes} :
    WellFormed b ↔ ∃ cs : List Char, b = cs.flatMap String.utf8EncodeChar := by
  constructor
  · rintro ⟨cs, hcs⟩
    exact ⟨cs, List.toByteArray_inj.mp hcs⟩
  · rintro ⟨cs, rfl⟩
    exact ⟨cs, rfl⟩

theorem wellFormed_nil : WellFormed [] := wellFormed_iff.mpr ⟨[], rfl⟩

theorem wellFormed_append {xs ys : Bytes} (hx : WellFormed xs) (hy : WellFormed ys) :
    WellFormed (xs ++ ys) := by
  obtain ⟨cs, rfl⟩ := wellFormed_iff.mp hx
  obtain ⟨ds, rfl⟩ := wellFormed_iff.mp hy
  exact wellFormed_iff.mpr ⟨cs ++ ds, by simp⟩

/-- Removing one leading scalar value neither creates nor destroys well-formedness. -/
theorem wellFormed_encodeChar_append {c : Char} {t : Bytes} :
    WellFormed (String.utf8EncodeChar c ++ t) ↔ WellFormed t := by
  have h := @ByteArray.isValidUTF8_utf8Encode_singleton_append_iff t.toByteArray c
  rwa [List.utf8Encode_singleton, ← List.toByteArray_append] at h

/-- A nonempty well-formed string starts with the encoding of some scalar value. -/
theorem wellFormed_cons_iff {x : UInt8} {b : Bytes} :
    WellFormed (x :: b) ↔
      ∃ c t, x :: b = String.utf8EncodeChar c ++ t ∧ WellFormed t := by
  constructor
  · intro h
    obtain ⟨cs, hcs⟩ := wellFormed_iff.mp h
    cases cs with
    | nil => simp at hcs
    | cons c cs =>
        exact ⟨c, cs.flatMap String.utf8EncodeChar, by simpa using hcs,
          wellFormed_iff.mpr ⟨cs, rfl⟩⟩
  · rintro ⟨c, t, he, ht⟩
    rw [he]
    exact wellFormed_encodeChar_append.mpr ht

section Scalars

/-- Code points that are scalar values: in range and not surrogates. -/
def IsScalar (v : Nat) : Prop := v ≤ 0x10FFFF ∧ ¬ (0xD800 ≤ v ∧ v ≤ 0xDFFF)

instance : DecidablePred IsScalar := fun v =>
  inferInstanceAs (Decidable (v ≤ 0x10FFFF ∧ ¬ (0xD800 ≤ v ∧ v ≤ 0xDFFF)))

theorem isScalar_char (c : Char) : IsScalar c.val.toNat := by
  have h := c.valid
  unfold UInt32.isValidChar Nat.isValidChar at h
  unfold IsScalar
  omega

theorem exists_char {v : Nat} (h : IsScalar v) : ∃ c : Char, c.val.toNat = v := by
  have hv : v.isValidChar := by
    unfold IsScalar at h
    unfold Nat.isValidChar
    omega
  exact ⟨Char.ofNatAux v hv, rfl⟩

/-- The octets of a scalar value as numbers, by how many it needs. -/
def scalarOctets (v : Nat) : List Nat :=
  if v ≤ 0x7F then [v]
  else if v ≤ 0x7FF then [0xC0 + v / 64, 0x80 + v % 64]
  else if v ≤ 0xFFFF then [0xE0 + v / 4096, 0x80 + v / 64 % 64, 0x80 + v % 64]
  else [0xF0 + v / 262144, 0x80 + v / 4096 % 64, 0x80 + v / 64 % 64, 0x80 + v % 64]

theorem encodeChar_toNat (c : Char) :
    (String.utf8EncodeChar c).map UInt8.toNat = scalarOctets c.val.toNat := by
  have hs := isScalar_char c
  unfold IsScalar at hs
  unfold String.utf8EncodeChar scalarOctets
  generalize c.val.toNat = v at hs ⊢
  by_cases h₁ : v ≤ 0x7F
  · simp only [h₁, if_true, List.map_cons, List.map_nil, UInt8.toNat_ofNat', List.cons.injEq,
      and_true]
    omega
  by_cases h₂ : v ≤ 0x7FF
  · simp only [h₁, h₂, if_true, if_false, List.map_cons, List.map_nil, UInt8.toNat_ofNat',
      List.cons.injEq, and_true]
    omega
  by_cases h₃ : v ≤ 0xFFFF
  · simp only [h₁, h₂, h₃, if_true, if_false, List.map_cons, List.map_nil, UInt8.toNat_ofNat',
      List.cons.injEq, and_true]
    omega
  · simp only [h₁, h₂, h₃, if_false, List.map_cons, List.map_nil, UInt8.toNat_ofNat',
      List.cons.injEq, and_true]
    omega

/-- A nonempty string is well formed when the octets of a scalar value stand in
front of a well-formed rest. -/
theorem wellFormed_cons_scalar {x : UInt8} {b : Bytes} :
    WellFormed (x :: b) ↔ ∃ v bs t, IsScalar v ∧ bs.map UInt8.toNat = scalarOctets v ∧
      x :: b = bs ++ t ∧ WellFormed t := by
  rw [wellFormed_cons_iff]
  constructor
  · rintro ⟨c, t, he, ht⟩
    exact ⟨c.val.toNat, _, t, isScalar_char c, encodeChar_toNat c, he, ht⟩
  · rintro ⟨v, bs, t, hv, hbs, he, ht⟩
    obtain ⟨c, rfl⟩ := exists_char hv
    have hinj : bs = String.utf8EncodeChar c := by
      apply List.map_injective_iff.mpr (fun a b h => UInt8.toNat_inj.mp h)
      rw [hbs, encodeChar_toNat]
    exact ⟨c, t, hinj ▸ he, ht⟩

/-- Inversion by the leading octet: one to four octets spell the first scalar value. -/
theorem wellFormed_cons_cases {x : UInt8} {b : Bytes} :
    WellFormed (x :: b) ↔
      (x.toNat ≤ 0x7F ∧ WellFormed b) ∨
      (∃ y t v, b = y :: t ∧ 0x80 ≤ v ∧ v ≤ 0x7FF ∧ x.toNat = 0xC0 + v / 64 ∧
        y.toNat = 0x80 + v % 64 ∧ WellFormed t) ∨
      (∃ y z t v, b = y :: z :: t ∧ 0x800 ≤ v ∧ v ≤ 0xFFFF ∧ IsScalar v ∧
        x.toNat = 0xE0 + v / 4096 ∧ y.toNat = 0x80 + v / 64 % 64 ∧
        z.toNat = 0x80 + v % 64 ∧ WellFormed t) ∨
      (∃ y z w t v, b = y :: z :: w :: t ∧ 0x10000 ≤ v ∧ v ≤ 0x10FFFF ∧
        x.toNat = 0xF0 + v / 262144 ∧ y.toNat = 0x80 + v / 4096 % 64 ∧
        z.toNat = 0x80 + v / 64 % 64 ∧ w.toNat = 0x80 + v % 64 ∧ WellFormed t) := by
  rw [wellFormed_cons_scalar]
  constructor
  · rintro ⟨v, bs, t, hv, hbs, he, ht⟩
    unfold scalarOctets at hbs
    split at hbs
    · obtain ⟨p, ps, rfl, hp, hps⟩ := List.map_eq_cons_iff.mp hbs
      obtain rfl := List.map_eq_nil_iff.mp hps
      cases he
      exact Or.inl ⟨by omega, ht⟩
    split at hbs
    · obtain ⟨p, ps, rfl, hp, hps⟩ := List.map_eq_cons_iff.mp hbs
      obtain ⟨q, qs, rfl, hq, hqs⟩ := List.map_eq_cons_iff.mp hps
      obtain rfl := List.map_eq_nil_iff.mp hqs
      cases he
      exact Or.inr (Or.inl ⟨q, t, v, rfl, by omega, by omega, hp, hq, ht⟩)
    split at hbs
    · obtain ⟨p, ps, rfl, hp, hps⟩ := List.map_eq_cons_iff.mp hbs
      obtain ⟨q, qs, rfl, hq, hqs⟩ := List.map_eq_cons_iff.mp hps
      obtain ⟨r, rs, rfl, hr, hrs⟩ := List.map_eq_cons_iff.mp hqs
      obtain rfl := List.map_eq_nil_iff.mp hrs
      cases he
      exact Or.inr (Or.inr (Or.inl ⟨q, r, t, v, rfl, by omega, by omega, hv, hp, hq, hr, ht⟩))
    · obtain ⟨p, ps, rfl, hp, hps⟩ := List.map_eq_cons_iff.mp hbs
      obtain ⟨q, qs, rfl, hq, hqs⟩ := List.map_eq_cons_iff.mp hps
      obtain ⟨r, rs, rfl, hr, hrs⟩ := List.map_eq_cons_iff.mp hqs
      obtain ⟨u, us, rfl, hu, hus⟩ := List.map_eq_cons_iff.mp hrs
      obtain rfl := List.map_eq_nil_iff.mp hus
      cases he
      exact Or.inr (Or.inr (Or.inr
        ⟨q, r, u, t, v, rfl, by omega, hv.1, hp, hq, hr, hu, ht⟩))
  · rintro (⟨hx, ht⟩ | ⟨y, t, v, rfl, hl, hu, hx, hy, ht⟩ |
      ⟨y, z, t, v, rfl, hl, hu, hv, hx, hy, hz, ht⟩ |
      ⟨y, z, w, t, v, rfl, hl, hu, hx, hy, hz, hw, ht⟩)
    · refine ⟨x.toNat, [x], b, ⟨by omega, by omega⟩, ?_, rfl, ht⟩
      simp [scalarOctets, hx]
    · refine ⟨v, [x, y], t, ⟨by omega, by omega⟩, ?_, rfl, ht⟩
      rw [scalarOctets, if_neg (by omega), if_pos hu]
      simp [hx, hy]
    · refine ⟨v, [x, y, z], t, hv, ?_, rfl, ht⟩
      rw [scalarOctets, if_neg (by omega), if_neg (by omega), if_pos hu]
      simp [hx, hy, hz]
    · refine ⟨v, [x, y, z, w], t, ⟨hu, by omega⟩, ?_, rfl, ht⟩
      rw [scalarOctets, if_neg (by omega), if_neg (by omega), if_neg (by omega)]
      simp [hx, hy, hz, hw]

/-- Octets below `0x80` are scalar values on their own. -/
theorem wellFormed_ascii_cons {x : UInt8} {b : Bytes} (hx : x.toNat ≤ 0x7F) :
    WellFormed (x :: b) ↔ WellFormed b := by
  rw [wellFormed_cons_cases]
  constructor
  · rintro (⟨-, hb⟩ | ⟨y, t, v, -, hv, hv', hx', -⟩ | ⟨y, z, t, v, -, hv, hv', -, hx', -⟩ |
      ⟨y, z, w, t, v, -, hv, hv', hx', -⟩)
    · exact hb
    all_goals omega
  · exact fun hb => Or.inl ⟨hx, hb⟩

theorem wellFormed_of_ascii {b : Bytes} (h : ∀ x ∈ b, x.toNat < 0x80) : WellFormed b := by
  induction b with
  | nil => exact wellFormed_nil
  | cons x b ih =>
      have hx : x.toNat < 0x80 := h x (by simp)
      obtain ⟨c, hc⟩ := exists_char (v := x.toNat) (by unfold IsScalar; omega)
      have he : String.utf8EncodeChar c = [x] := by
        rw [String.utf8EncodeChar, hc, if_pos (by omega)]
        simp
      exact wellFormed_cons_iff.mpr
        ⟨c, b, by rw [he]; rfl, ih fun y hy => h y (by simp [hy])⟩

end Scalars

/-- The encoding of a text. -/
def utf8 (s : String) : Bytes := s.toByteArray.data.toList

theorem toByteArray_utf8 (s : String) : (utf8 s).toByteArray = s.toByteArray := by
  apply ByteArray.ext
  apply Array.toList_inj.mp
  rw [List.toList_data_toByteArray, utf8]

theorem utf8_injective : Function.Injective utf8 := by
  intro s t h
  apply String.toByteArray_inj.mp
  rw [← toByteArray_utf8, h, toByteArray_utf8]

theorem utf8_append (s t : String) : utf8 (s ++ t) = utf8 s ++ utf8 t := by
  simp [utf8]

theorem utf8_ofList (cs : List Char) : utf8 (String.ofList cs) = cs.flatMap String.utf8EncodeChar := by
  simp [utf8, String.toByteArray_ofList, List.utf8Encode]

/-- The octets spell the scalar values, one after the other. -/
def Spells (vs : List Nat) (b : Bytes) : Prop :=
  (∀ v ∈ vs, IsScalar v) ∧ b.map UInt8.toNat = vs.flatMap scalarOctets

theorem spells_iff {vs : List Nat} {b : Bytes} :
    Spells vs b ↔ ∃ cs : List Char, (cs.map fun c => c.val.toNat) = vs ∧
      utf8 (String.ofList cs) = b := by
  have hoctets (cs : List Char) : (utf8 (String.ofList cs)).map UInt8.toNat =
      (cs.map fun c => c.val.toNat).flatMap scalarOctets := by
    rw [utf8_ofList, List.map_flatMap, List.flatMap_map]
    exact List.flatMap_congr fun c _ => encodeChar_toNat c
  constructor
  · rintro ⟨hvs, hb⟩
    obtain ⟨cs, rfl⟩ : ∃ cs : List Char, (cs.map fun c => c.val.toNat) = vs := by
      clear hb
      induction vs with
      | nil => exact ⟨[], rfl⟩
      | cons v vs ih =>
          obtain ⟨c, hc⟩ := exists_char (hvs v List.mem_cons_self)
          obtain ⟨cs, hcs⟩ := ih fun u hu => hvs u (List.mem_cons_of_mem v hu)
          exact ⟨c :: cs, by rw [List.map_cons, hc, hcs]⟩
    refine ⟨cs, rfl, ?_⟩
    apply List.map_injective_iff.mpr fun a b h => UInt8.toNat_inj.mp h
    rw [hoctets, hb]
  · rintro ⟨cs, rfl, rfl⟩
    refine ⟨?_, hoctets cs⟩
    intro v hv
    obtain ⟨c, -, rfl⟩ := List.mem_map.mp hv
    exact isScalar_char c

/-- The scalar values are determined by the octets. -/
theorem Spells.unique {us vs : List Nat} {b : Bytes} (hu : Spells us b) (hv : Spells vs b) :
    us = vs := by
  obtain ⟨cs, rfl, hcs⟩ := spells_iff.mp hu
  obtain ⟨ds, rfl, hds⟩ := spells_iff.mp hv
  have hstring : String.ofList cs = String.ofList ds := utf8_injective (hcs.trans hds.symm)
  rw [String.ofList_injective hstring]

theorem wellFormed_iff_spells {b : Bytes} : WellFormed b ↔ ∃ vs, Spells vs b := by
  rw [wellFormed_iff]
  constructor
  · rintro ⟨cs, rfl⟩
    exact ⟨_, spells_iff.mpr ⟨cs, rfl, utf8_ofList cs⟩⟩
  · rintro ⟨vs, h⟩
    obtain ⟨cs, -, hb⟩ := spells_iff.mp h
    exact ⟨cs, by rw [← hb, utf8_ofList]⟩

theorem wellFormed_utf8 (s : String) : WellFormed (utf8 s) := by
  rw [WellFormed, toByteArray_utf8]
  exact s.isValidUTF8

/-- Strict decoding: the denoted text, or nothing on a malformed string. -/
def decode? (b : Bytes) : Option String := String.fromUTF8? b.toByteArray

theorem decode?_eq_some_iff {b : Bytes} {s : String} : decode? b = some s ↔ utf8 s = b := by
  unfold decode? String.fromUTF8?
  constructor
  · intro h
    split at h
    · next hv =>
        cases h
        change b.toByteArray.data.toList = b
        exact List.toList_data_toByteArray
    · cases h
  · rintro rfl
    have hv : (utf8 s).toByteArray.IsValidUTF8 := wellFormed_utf8 s
    rw [dif_pos hv]
    apply congrArg some
    apply String.toByteArray_inj.mp
    exact toByteArray_utf8 s

theorem decode?_eq_none_iff {b : Bytes} : decode? b = none ↔ ¬ WellFormed b := by
  unfold decode? String.fromUTF8? WellFormed
  split <;> simp_all

theorem exists_utf8_of_wellFormed {b : Bytes} (h : WellFormed b) : ∃ s, utf8 s = b := by
  cases hd : decode? b with
  | none => exact absurd h (decode?_eq_none_iff.mp hd)
  | some s => exact ⟨s, decode?_eq_some_iff.mp hd⟩

end HelloWebsocket.Utf8
