import HelloWebsocket.Wire.Simulation

/-!
# Input streams and their delivery in chunks

Programs that take tokens from the front of a stream, and the queue of nonempty
chunks in which a transport delivers the stream. Taking a number of tokens by
repeated reads of whatever the queue has to offer is the same as taking them from
the stream.

## Implementation notes

A take that finds too few tokens has consumed all of them when it fails.
-/

namespace HelloWebsocket.Streams

open Parsing (throwIf)

variable {ε τ α β : Type}

section Take

/-- The next `n` tokens; on a shorter stream the error, with nothing left. -/
def takeOr (e : ε) (n : Nat) : EStateM ε (List τ) (List τ) := fun input =>
  if n ≤ input.length then .ok (input.take n) (input.drop n) else .error e []

theorem takeOr_append (e : ε) (xs rest : List τ) :
    takeOr e xs.length (xs ++ rest) = .ok xs rest := by
  rw [takeOr, if_pos (by simp), List.take_left, List.drop_left]

theorem takeOr_eq_error {e : ε} {n : Nat} {input : List τ} (h : input.length < n) :
    takeOr e n input = .error e [] :=
  if_neg (by omega)

theorem takeOr_eq_ok_iff {e : ε} {n : Nat} {input xs rest : List τ} :
    takeOr e n input = .ok xs rest ↔ xs.length = n ∧ input = xs ++ rest := by
  constructor
  · intro h
    rw [takeOr] at h
    split at h
    · next hle =>
        cases h
        exact ⟨by rw [List.length_take]; omega, (List.take_append_drop n input).symm⟩
    · cases h
  · rintro ⟨rfl, rfl⟩
    exact takeOr_append e xs rest

theorem bind_eq_ok_iff {σ : Type} {m : EStateM ε σ α} {f : α → EStateM ε σ β} {s s'' : σ} {b : β} :
    (m >>= f) s = .ok b s'' ↔ ∃ a s', m s = .ok a s' ∧ f a s' = .ok b s'' := by
  change EStateM.bind m f s = _ ↔ _
  rw [EStateM.bind]
  cases m s with
  | ok a s' =>
      constructor
      · intro h
        exact ⟨a, s', rfl, h⟩
      · rintro ⟨_, _, ⟨⟩, hf⟩
        exact hf
  | error e s' =>
      constructor
      · intro h
        cases h
      · rintro ⟨_, _, ⟨⟩, _⟩

theorem bind_eq_error_iff {σ : Type} {m : EStateM ε σ α} {f : α → EStateM ε σ β} {s s'' : σ}
    {e : ε} : (m >>= f) s = .error e s'' ↔
      m s = .error e s'' ∨ ∃ a s', m s = .ok a s' ∧ f a s' = .error e s'' := by
  change EStateM.bind m f s = _ ↔ _
  rw [EStateM.bind]
  cases m s with
  | ok a s' =>
      constructor
      · intro h
        exact .inr ⟨a, s', rfl, h⟩
      · rintro (⟨⟨⟩⟩ | ⟨_, _, ⟨⟩, hf⟩)
        exact hf
  | error e' s' =>
      constructor
      · intro h
        cases h
        exact .inl rfl
      · rintro (⟨⟨⟩⟩ | ⟨_, _, ⟨⟩, _⟩)
        rfl

theorem bind_of_ok {σ : Type} {m : EStateM ε σ α} {f : α → EStateM ε σ β} {s s' : σ} {a : α}
    (h : m s = .ok a s') : (m >>= f) s = f a s' := by
  change EStateM.bind m f s = _
  rw [EStateM.bind, h]

theorem bind_of_error {σ : Type} {m : EStateM ε σ α} {f : α → EStateM ε σ β} {s s' : σ} {e : ε}
    (h : m s = .error e s') : (m >>= f) s = .error e s' := by
  change EStateM.bind m f s = _
  rw [EStateM.bind, h]

theorem throwIf_bind_apply {σ : Type} {c : Prop} [Decidable c] {e : ε}
    {f : Unit → EStateM ε σ β} {s : σ} :
    (throwIf c e >>= f) s = if c then .error e s else f () s := by
  rw [throwIf]
  split <;> rfl

theorem throwIf_bind_eq_ok_iff {σ : Type} {c : Prop} [Decidable c] {e : ε}
    {f : Unit → EStateM ε σ β} {s s' : σ} {b : β} :
    (throwIf c e >>= f) s = .ok b s' ↔ ¬ c ∧ f () s = .ok b s' := by
  rw [throwIf_bind_apply]
  split
  · next h => simp [h]
  · next h => simp [h]

end Take

section Stability

/-- More input changes no result, and no error but the one for missing input. -/
def Stable (short : ε) (m : EStateM ε (List τ) α) : Prop :=
  ∀ input more, (∀ a rest, m input = .ok a rest → m (input ++ more) = .ok a (rest ++ more)) ∧
    ∀ e rest, e ≠ short → m input = .error e rest → m (input ++ more) = .error e (rest ++ more)

variable {short : ε}

theorem stable_pure (a : α) : Stable (τ := τ) short (pure a) := by
  intro input more
  refine ⟨fun b rest h => ?_, fun e rest _ h => by cases h⟩
  cases h
  rfl

theorem stable_takeOr (n : Nat) : Stable (τ := τ) short (takeOr short n) := by
  intro input more
  refine ⟨fun xs rest h => ?_, fun e rest hne h => ?_⟩
  · obtain ⟨rfl, rfl⟩ := takeOr_eq_ok_iff.mp h
    rw [List.append_assoc]
    exact takeOr_append short xs (rest ++ more)
  · rw [takeOr] at h
    split at h <;> cases h
    exact absurd rfl hne

theorem stable_bind {m : EStateM ε (List τ) α} {f : α → EStateM ε (List τ) β}
    (hm : Stable short m) (hf : ∀ a, Stable short (f a)) : Stable short (m >>= f) := by
  intro input more
  constructor
  · intro b rest h
    obtain ⟨a, s, hs, hrest⟩ := bind_eq_ok_iff.mp h
    exact bind_eq_ok_iff.mpr ⟨a, s ++ more, (hm input more).1 a s hs, (hf a s more).1 b rest hrest⟩
  · intro e rest hne h
    obtain hs | ⟨a, s, hs, hrest⟩ := bind_eq_error_iff.mp h
    · exact bind_eq_error_iff.mpr (.inl ((hm input more).2 e rest hne hs))
    · exact bind_eq_error_iff.mpr
        (.inr ⟨a, s ++ more, (hm input more).1 a s hs, (hf a s more).2 e rest hne hrest⟩)

theorem stable_throwIf {c : Prop} [Decidable c] (e : ε) : Stable (τ := τ) short (throwIf c e) := by
  intro input more
  rw [throwIf]
  split
  · refine ⟨fun a rest h => (by cases h), fun e' rest _ h => ?_⟩
    cases h
    rfl
  · exact stable_pure () input more

end Stability

section Chunks

/-- The chunks in which a transport will deliver a stream. -/
structure Chunks (τ : Type) where
  list : List (List τ)
  nonempty : [] ∉ list

namespace Chunks

/-- The stream itself. -/
def unread (q : Chunks τ) : List τ := q.list.flatten

/-- A stream that comes token by token. -/
def singles (xs : List τ) : Chunks τ where
  list := xs.map fun x => [x]
  nonempty := by
    intro h
    obtain ⟨x, -, hx⟩ := List.mem_map.mp h
    cases hx

theorem unread_singles (xs : List τ) : (singles xs).unread = xs := by
  change (xs.map fun x => [x]).flatten = xs
  rw [← List.flatMap_def, List.flatMap_singleton']

/-- Some chunks after others. -/
def append (x y : Chunks τ) : Chunks τ where
  list := x.list ++ y.list
  nonempty h := (List.mem_append.mp h).elim x.nonempty y.nonempty

theorem unread_append (x y : Chunks τ) : (x.append y).unread = x.unread ++ y.unread :=
  List.flatten_append

/-- At most `n` tokens of the first chunk, or nothing at the end of the stream. -/
def next : Chunks τ → Nat → Option (List τ × Chunks τ)
  | ⟨[], _⟩, _ => none
  | ⟨chunk :: rest, h⟩, n =>
      if hle : chunk.length ≤ n then some (chunk, ⟨rest, fun hr => h (List.mem_cons_of_mem _ hr)⟩)
      else
        some (chunk.take n, ⟨chunk.drop n :: rest, by
          intro hr
          rcases List.mem_cons.mp hr with hdrop | hr
          · exact hle (List.drop_eq_nil_iff.mp hdrop.symm)
          · exact h (List.mem_cons_of_mem _ hr)⟩)

theorem next_eq_none {q : Chunks τ} {n : Nat} (h : q.next n = none) : q.unread = [] := by
  obtain ⟨_ | ⟨chunk, rest⟩, hq⟩ := q
  · rfl
  · rw [next] at h
    split at h <;> cases h

theorem next_eq_some {q q' : Chunks τ} {n : Nat} {xs : List τ} (hn : 0 < n)
    (h : q.next n = some (xs, q')) :
    0 < xs.length ∧ xs.length ≤ n ∧ q.unread = xs ++ q'.unread := by
  obtain ⟨_ | ⟨chunk, rest⟩, hq⟩ := q
  · cases h
  · have hchunk : 0 < chunk.length := by
      rw [List.length_pos_iff]
      intro he
      exact hq (he ▸ List.mem_cons_self)
    rw [next] at h
    split at h
    · next hle =>
        cases h
        exact ⟨hchunk, hle, rfl⟩
    · next hgt =>
        cases h
        refine ⟨by rw [List.length_take]; omega, by rw [List.length_take]; omega, ?_⟩
        simp only [unread, List.flatten_cons, ← List.append_assoc, List.take_append_drop]

/-- A read of one token. -/
theorem next_one {q : Chunks τ} {x : τ} {rest : List τ} (h : q.unread = x :: rest) :
    ∃ q', q.next 1 = some ([x], q') ∧ q'.unread = rest := by
  cases hnext : q.next 1 with
  | none =>
      rw [next_eq_none hnext] at h
      cases h
  | some r =>
      obtain ⟨hpos, hone, hr⟩ := next_eq_some Nat.one_pos hnext
      obtain ⟨y, hy⟩ := List.length_eq_one_iff.mp (Nat.le_antisymm hone hpos)
      rw [h, hy] at hr
      obtain ⟨rfl, hrest⟩ := List.cons.inj hr
      exact ⟨r.2, by rw [← hy], hrest.symm⟩

end Chunks

end Chunks

end HelloWebsocket.Streams
