import HelloWebsocket.Wire.Utf8

/-!
# The byte order mark in front of a text

Some decoders take a leading U+FEFF for a mark of the encoding and drop it. Such a
decoder gives a text back unless the text begins with that character.
-/

namespace HelloWebsocket.Utf8

/-- The encoding of U+FEFF. -/
def mark : Bytes := [0xEF, 0xBB, 0xBF]

def Marked (b : Bytes) : Prop := mark <+: b

instance : DecidablePred Marked := fun b => inferInstanceAs (Decidable (mark <+: b))

/-- The octets after a leading mark. -/
def unmark (b : Bytes) : Bytes := if Marked b then b.drop 3 else b

/-- Strict decoding that drops a leading mark. -/
def decodeUnmarked? (b : Bytes) : Option String := decode? (unmark b)

theorem unmark_of_not_marked {b : Bytes} (h : ¬ Marked b) : unmark b = b := if_neg h

theorem unmark_mark_append (t : Bytes) : unmark (mark ++ t) = t :=
  if_pos (List.prefix_append mark t)

/-- Only a mark makes the difference. -/
theorem unmark_eq_self_iff {b : Bytes} : unmark b = b ↔ ¬ Marked b := by
  refine ⟨?_, unmark_of_not_marked⟩
  rintro h ⟨t, rfl⟩
  rw [unmark_mark_append] at h
  have hlen := congrArg List.length h
  rw [List.length_append, show mark.length = 3 from rfl] at hlen
  omega

theorem length_unmark_le (b : Bytes) : (unmark b).length ≤ b.length := by
  rw [unmark]
  split
  · simp
  · exact le_rfl

theorem utf8_mark_append (t : String) : utf8 ("\uFEFF" ++ t) = mark ++ utf8 t := by
  simp only [utf8, String.toByteArray_append, ByteArray.data_append, Array.toList_append]
  rfl

/-- Dropping the mark changes nothing about well-formedness. -/
theorem wellFormed_unmark {b : Bytes} : WellFormed (unmark b) ↔ WellFormed b := by
  by_cases h : Marked b
  · obtain ⟨t, rfl⟩ := h
    rw [unmark_mark_append]
    exact (wellFormed_encodeChar_append (c := '\uFEFF')).symm
  · rw [unmark_of_not_marked h]

/-- A text begins with a mark exactly when its encoding does. -/
theorem marked_utf8_iff {s : String} : Marked (utf8 s) ↔ ∃ t, s = "\uFEFF" ++ t := by
  constructor
  · rintro ⟨t, ht⟩
    have hwf : WellFormed (mark ++ t) := ht ▸ wellFormed_utf8 s
    have hrest : WellFormed t := (wellFormed_encodeChar_append (c := '\uFEFF')).mp hwf
    obtain ⟨u, rfl⟩ := exists_utf8_of_wellFormed hrest
    exact ⟨u, utf8_injective (by rw [utf8_mark_append, ht])⟩
  · rintro ⟨t, rfl⟩
    exact ⟨utf8 t, (utf8_mark_append t).symm⟩

/-- A well-formed string is decoded to what stands after the mark. -/
theorem exists_decodeUnmarked? {b : Bytes} (h : WellFormed b) :
    ∃ s, decodeUnmarked? b = some s ∧ utf8 s = unmark b := by
  obtain ⟨s, hs⟩ := exists_utf8_of_wellFormed (wellFormed_unmark.mpr h)
  exact ⟨s, decode?_eq_some_iff.mpr hs, hs⟩

theorem decodeUnmarked?_eq_none {b : Bytes} (h : ¬ WellFormed b) : decodeUnmarked? b = none :=
  decode?_eq_none_iff.mpr (mt wellFormed_unmark.mp h)

end HelloWebsocket.Utf8
