import HelloWebsocket.Wire.ByteOrderMark
import HelloWebsocket.Protocol.RoundTrip

/-!
# Maps without byte order marks

A decoder that drops leading byte order marks fills a map with stripped keys and
values. The map still has the bindings of the entries exactly when no key and no
value that wins begins with a mark.

## Implementation notes

If some key begins with a mark and the map still has all the keys, that key comes
from a longer one that begins with a mark as well. The keys are finitely many, so
there is no such key.
-/

namespace HelloWebsocket.Protocol

open BigEndian Utf8

variable {es : Entries}

/-- The finite map that is filled with the stripped entries. -/
def strippedMap (es : Entries) : KvMap := toMap (es.map fun e => (unmark e.1, unmark e.2))

theorem isSome_toMap_iff {k : Bytes} : ((toMap es)[k]?).isSome ↔ ∃ e ∈ es, e.1 = k := by
  rw [getElem?_toMap, List.lookup_isSome_iff]
  simp only [List.mem_reverse, beq_iff_eq]
  exact exists_congr fun e => and_congr_right fun _ => eq_comm

theorem isSome_strippedMap_iff {k : Bytes} :
    ((strippedMap es)[k]?).isSome ↔ ∃ e ∈ es, unmark e.1 = k := by
  rw [strippedMap, isSome_toMap_iff]
  simp only [List.mem_map, exists_exists_and_eq_and]

/-- If stripping loses no key, no key begins with a mark. -/
theorem not_marked_of_keys (h : ∀ e ∈ es, ∃ e' ∈ es, unmark e'.1 = e.1) :
    ∀ e ∈ es, ¬ Marked e.1 := by
  have hbound : ∀ e ∈ es, e.1.length ≤ (es.map fun e => e.1.length).sum := fun e he =>
    List.le_sum_of_mem (List.mem_map.mpr ⟨e, he, rfl⟩)
  set bound := (es.map fun e => e.1.length).sum
  intro e he hmark
  induction hn : bound - e.1.length using Nat.strongRecOn generalizing e with
  | ind n ih =>
      obtain ⟨e', he', heq⟩ := h e he
      have hmark' : Marked e'.1 := by
        by_contra hnot
        rw [unmark_of_not_marked hnot] at heq
        exact hnot (heq ▸ hmark)
      have hlong : e.1.length < e'.1.length := by
        obtain ⟨t, ht⟩ := hmark'
        rw [← ht, unmark_mark_append] at heq
        rw [← ht, ← heq, List.length_append, show mark.length = 3 from rfl]
        omega
      have hle := hbound e' he'
      exact ih (bound - e'.1.length) (by omega) e' he' hmark' rfl

/-- A value under keys without marks. -/
theorem getElem?_strippedMap (hkeys : ∀ e ∈ es, ¬ Marked e.1) (k : Bytes) :
    (strippedMap es)[k]? = ((toMap es)[k]?).map unmark := by
  have hmap : (es.map fun e => (unmark e.1, unmark e.2)) = es.map fun e => (e.1, unmark e.2) :=
    List.map_congr_left fun e he => by rw [unmark_of_not_marked (hkeys e he)]
  have hlookup (l : Entries) :
      (l.map fun e => (e.1, unmark e.2)).lookup k = (l.lookup k).map unmark := by
    induction l with
    | nil => rfl
    | cons e l ih =>
        rw [List.map_cons, List.lookup_cons, List.lookup_cons, ih]
        cases k == e.1 <;> rfl
  rw [strippedMap, hmap, getElem?_toMap, getElem?_toMap, ← List.map_reverse, hlookup]

theorem strippedMap_eq_iff : strippedMap es = toMap es ↔
    (∀ e ∈ es, ¬ Marked e.1) ∧ ∀ k v : Bytes, (toMap es)[k]? = some v → ¬ Marked v := by
  constructor
  · intro h
    have hkeys : ∀ e ∈ es, ¬ Marked e.1 := not_marked_of_keys fun e he => by
      rw [← isSome_strippedMap_iff, h, isSome_toMap_iff]
      exact ⟨e, he, rfl⟩
    refine ⟨hkeys, fun k v hv => ?_⟩
    have hget := getElem?_strippedMap hkeys k
    rw [h, hv, Option.map_some, Option.some.injEq] at hget
    exact unmark_eq_self_iff.mp hget.symm
  · rintro ⟨hkeys, hvalues⟩
    apply Std.ExtTreeMap.ext_getElem?
    intro k
    rw [getElem?_strippedMap hkeys]
    cases hv : (toMap es)[k]? with
    | none => rfl
    | some v => rw [Option.map_some, unmark_of_not_marked (hvalues k v hv)]

/-- With distinct keys, every entry wins. -/
theorem strippedMap_eq_iff_of_nodup (hn : (es.map Prod.fst).Nodup) :
    strippedMap es = toMap es ↔ ∀ e ∈ es, ¬ Marked e.1 ∧ ¬ Marked e.2 := by
  simp only [strippedMap_eq_iff, getElem?_toMap_of_nodup hn, Prod.forall]
  grind

/-- Leaving the strings and maps of a message alone means that no text begins with a mark. -/
theorem Message.unmarked_iff {m : Message Entries}
    (hn : ∀ es ∈ m.maps, (es.map Prod.fst).Nodup) :
    ((∀ b ∈ m.strings, unmark b = b) ∧ ∀ es ∈ m.maps, strippedMap es = toMap es) ↔
      ∀ b ∈ m.texts, ¬ Marked b := by
  have hmaps : (∀ es ∈ m.maps, strippedMap es = toMap es) ↔
      ∀ es ∈ m.maps, ∀ e ∈ es, ¬ Marked e.1 ∧ ¬ Marked e.2 :=
    forall₂_congr fun es hes => strippedMap_eq_iff_of_nodup (hn es hes)
  simp only [hmaps, unmark_eq_self_iff, mem_texts_iff]
  constructor
  · rintro ⟨hstrings, hentries⟩ b (hb | ⟨es, hes, e, he, rfl | rfl⟩)
    · exact hstrings b hb
    · exact (hentries es hes e he).1
    · exact (hentries es hes e he).2
  · intro htexts
    refine ⟨fun b hb => htexts b (Or.inl hb), fun es hes e he => ⟨?_, ?_⟩⟩
    · exact htexts e.1 (Or.inr ⟨es, hes, e, he, Or.inl rfl⟩)
    · exact htexts e.2 (Or.inr ⟨es, hes, e, he, Or.inr rfl⟩)

end HelloWebsocket.Protocol
