import HelloWebsocket.Protocol.Marks
import HelloWebsocket.Node.Decode
import HelloWebsocket.Node.Encode

/-!
# Which maps survive as objects

An object that is filled from wire entries has their bindings exactly when none of
the keys is `__proto__` or begins with a byte order mark and no value that wins
begins with one.
-/

namespace HelloWebsocket.Node

open BigEndian Utf8 Parsing Writing Protocol
open Jvm (octetsOf mem_octetsOf)

section Enumeration

/-- `Object.keys` arranges the properties. -/
theorem perm_enumerate (m : PlainObject) : m.enumerate.Perm m.entries := by
  rw [PlainObject.enumerate]
  refine ((List.mergeSort_perm _ _).append_right _).trans ?_
  exact List.filter_append_perm _ m.entries

theorem nodup_enumerate (m : PlainObject) :
    ((octetsOf m.enumerate).map Prod.fst).Nodup := by
  have hperm := ((perm_enumerate m).map fun e => (utf8 e.1, utf8 e.2)).map Prod.fst
  exact hperm.nodup_iff.mpr m.nodup_octetsOf

theorem toMap_enumerate (m : PlainObject) : toMap (octetsOf m.enumerate) = m.toMap := by
  apply Std.ExtTreeMap.ext_getElem?
  intro k
  apply Option.ext
  intro v
  rw [getElem?_toMap_of_nodup (nodup_enumerate m), Jvm.LinkedHashMap.toMap,
    getElem?_toMap_of_nodup m.nodup_octetsOf, mem_octetsOf, mem_octetsOf]
  simp only [(perm_enumerate m).mem_iff]

end Enumeration

section Keys

variable {es : Entries}

theorem isSome_objectMap_iff {k : Bytes} :
    ((objectMap es)[k]?).isSome ↔ (∃ e ∈ es, unmark e.1 = k) ∧ k ≠ utf8 "__proto__" := by
  rw [objectMap, isSome_toMap_iff]
  simp only [unmarkEntries, List.mem_filter, List.mem_map]
  constructor
  · rintro ⟨_, ⟨⟨e, he, rfl⟩, hne⟩, rfl⟩
    exact ⟨⟨e, he, rfl⟩, by simpa using hne⟩
  · rintro ⟨⟨e, he, rfl⟩, hne⟩
    exact ⟨_, ⟨⟨e, he, rfl⟩, by simpa using hne⟩, rfl⟩

/-- Without the key that is lost, an object is a map of stripped entries. -/
theorem objectMap_eq_strippedMap (hkeys : ∀ e ∈ es, e.1 ≠ utf8 "__proto__" ∧ ¬ Marked e.1) :
    objectMap es = strippedMap es := by
  have hfilter : (unmarkEntries es).filter (fun e => e.1 ≠ utf8 "__proto__") =
      unmarkEntries es := by
    rw [List.filter_eq_self]
    intro e he
    obtain ⟨e', he', rfl⟩ := List.mem_map.mp he
    rw [unmark_of_not_marked (hkeys e' he').2]
    simpa using (hkeys e' he').1
  rw [objectMap, hfilter]
  rfl

/-- The entries keep their bindings when they are assigned to an object. -/
def Assignable (es : Entries) : Prop :=
  (∀ e ∈ es, e.1 ≠ utf8 "__proto__" ∧ ¬ Marked e.1) ∧
    ∀ k v : Bytes, (toMap es)[k]? = some v → ¬ Marked v

theorem objectMap_eq_iff : objectMap es = toMap es ↔ Assignable es := by
  constructor
  · intro h
    have hsome (e : Bytes × Bytes) (he : e ∈ es) :
        (∃ e' ∈ es, unmark e'.1 = e.1) ∧ e.1 ≠ utf8 "__proto__" := by
      rw [← isSome_objectMap_iff, h, isSome_toMap_iff]
      exact ⟨e, he, rfl⟩
    have hmark := not_marked_of_keys fun e he => (hsome e he).1
    have hkeys : ∀ e ∈ es, e.1 ≠ utf8 "__proto__" ∧ ¬ Marked e.1 := fun e he =>
      ⟨(hsome e he).2, hmark e he⟩
    rw [objectMap_eq_strippedMap hkeys, strippedMap_eq_iff] at h
    exact ⟨hkeys, h.2⟩
  · rintro ⟨hkeys, hvalues⟩
    rw [objectMap_eq_strippedMap hkeys, strippedMap_eq_iff]
    exact ⟨fun e he => (hkeys e he).2, hvalues⟩

/-- With distinct keys, every entry wins. -/
theorem assignable_iff_of_nodup (hn : (es.map Prod.fst).Nodup) :
    Assignable es ↔ ∀ e ∈ es, e.1 ≠ utf8 "__proto__" ∧ ¬ Marked e.1 ∧ ¬ Marked e.2 := by
  simp only [Assignable, getElem?_toMap_of_nodup hn, Prod.forall]
  grind

end Keys

end HelloWebsocket.Node
