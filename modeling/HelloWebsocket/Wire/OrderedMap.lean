import Mathlib.Data.List.Basic
import Mathlib.Data.List.Nodup

/-!
# Maps that keep the order of their keys

The bindings of a map in the order in which their keys were first set. A key that is set
again keeps its place.
-/

namespace HelloWebsocket.OrderedMaps

variable {κ κ' ν ν' : Type} [DecidableEq κ] [DecidableEq κ']

/-- The entries after a key has been set. -/
def setEntries (es : List (κ × ν)) (key : κ) (value : ν) : List (κ × ν) :=
  if key ∈ es.map Prod.fst then es.map fun e => if e.1 = key then (key, value) else e
  else es ++ [(key, value)]

theorem keys_setEntries (es : List (κ × ν)) (key : κ) (value : ν) :
    (setEntries es key value).map Prod.fst =
      if key ∈ es.map Prod.fst then es.map Prod.fst else es.map Prod.fst ++ [key] := by
  rw [setEntries]
  split
  · rw [List.map_map]
    refine List.map_congr_left fun e _ => ?_
    change (if e.1 = key then (key, value) else e).1 = e.1
    split
    · next h => exact h.symm
    · rfl
  · rw [List.map_append]
    rfl

theorem nodup_setEntries {es : List (κ × ν)} (h : (es.map Prod.fst).Nodup) (key : κ) (value : ν) :
    ((setEntries es key value).map Prod.fst).Nodup := by
  rw [keys_setEntries]
  split
  · exact h
  · next hnew => exact h.append (List.nodup_singleton key) (List.disjoint_singleton.mpr hnew)

theorem mem_setEntries {es : List (κ × ν)} {key : κ} {value : ν} {e : κ × ν} :
    e ∈ setEntries es key value ↔ if e.1 = key then e.2 = value else e ∈ es := by
  obtain ⟨k, v⟩ := e
  rw [setEntries]
  split
  · next hold =>
      obtain ⟨⟨k₀, v₀⟩, hmem, rfl⟩ := List.mem_map.mp hold
      rw [List.mem_map]
      constructor
      · rintro ⟨⟨a, b⟩, hab, he⟩
        grind
      · intro h
        split at h
        · exact ⟨(k₀, v₀), hmem, by grind⟩
        · exact ⟨(k, v), h, by grind⟩
  · next hnew =>
      rw [List.mem_append, List.mem_singleton, Prod.mk.injEq]
      by_cases hk : k = key
      · have habsent : (k, v) ∉ es := by
          intro h
          exact hnew (List.mem_map.mpr ⟨_, h, hk⟩)
        simp [hk, hk ▸ habsent]
      · simp [hk]

/-- Keys that are renamed without a clash are set in the same place. -/
theorem map_setEntries {f : κ → κ'} (hf : Function.Injective f) (g : ν → ν') (es : List (κ × ν))
    (key : κ) (value : ν) :
    (setEntries es key value).map (Prod.map f g) =
      setEntries (es.map (Prod.map f g)) (f key) (g value) := by
  have hkeys : f key ∈ (es.map (Prod.map f g)).map Prod.fst ↔ key ∈ es.map Prod.fst := by
    rw [← List.mem_map_of_injective hf, List.map_map, List.map_map]
    rfl
  by_cases hold : key ∈ es.map Prod.fst
  · rw [setEntries, setEntries, if_pos hold, if_pos (hkeys.mpr hold), List.map_map, List.map_map]
    refine List.map_congr_left fun e _ => ?_
    change Prod.map f g (if e.1 = key then (key, value) else e) =
      if f e.1 = f key then (f key, g value) else Prod.map f g e
    by_cases h : e.1 = key
    · rw [if_pos h, if_pos (congrArg f h)]
      rfl
    · rw [if_neg h, if_neg (mt (@hf _ _) h)]
  · rw [setEntries, setEntries, if_neg hold, if_neg (mt hkeys.mp hold), List.map_append]
    rfl

variable (κ ν) in
/-- A map with an order on its keys. -/
structure OrderedMap where
  entries : List (κ × ν)
  nodup : (entries.map Prod.fst).Nodup
  deriving DecidableEq

namespace OrderedMap

def empty : OrderedMap κ ν := ⟨[], List.nodup_nil⟩

def set (m : OrderedMap κ ν) (key : κ) (value : ν) : OrderedMap κ ν :=
  ⟨setEntries m.entries key value, nodup_setEntries m.nodup key value⟩

end OrderedMap

end HelloWebsocket.OrderedMaps
