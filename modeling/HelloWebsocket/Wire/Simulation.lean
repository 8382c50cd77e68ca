import HelloWebsocket.Wire.Parser

/-!
# Simulation between stateful programs

A program over a concrete state simulates one over an abstract state when, from
related states, both return related values or both throw related errors, and end
in related states. Unlike refinement of a parser, this also fixes the state in
which a failing program leaves off.
-/

namespace HelloWebsocket.Simulation

open Parsing (throwIf)

variable {ε ε' σ τ α β α' β' : Type}

/-- Which abstract states and errors the concrete ones stand for. -/
structure View (ε ε' σ τ : Type) where
  shows : σ → τ → Prop
  throws : ε → ε' → Prop

/-- The two results agree under the view. -/
def Agrees (V : View ε ε' σ τ) (R : α → β → Prop) :
    EStateM.Result ε σ α → EStateM.Result ε' τ β → Prop
  | .ok a s, .ok b t => R a b ∧ V.shows s t
  | .error e s, .error e' t => V.throws e e' ∧ V.shows s t
  | _, _ => False

/-- From related states the programs end with results that agree. -/
def Simulates (V : View ε ε' σ τ) (R : α → β → Prop) (m : EStateM ε σ α) (n : EStateM ε' τ β) :
    Prop :=
  ∀ s t, V.shows s t → Agrees V R (m s) (n t)

variable {V : View ε ε' σ τ} {R : α → β → Prop} {S : α' → β' → Prop} {m : EStateM ε σ α}
  {n : EStateM ε' τ β}

theorem Agrees.ok {a : α} {s : σ} {result : EStateM.Result ε' τ β}
    (h : Agrees V R (.ok a s) result) : ∃ b t, result = .ok b t ∧ R a b ∧ V.shows s t := by
  cases result with
  | ok b t => exact ⟨b, t, rfl, h⟩
  | error e t => exact h.elim

theorem Agrees.error {e : ε} {s : σ} {result : EStateM.Result ε' τ β}
    (h : Agrees V R (.error e s) result) :
    ∃ e' t, result = .error e' t ∧ V.throws e e' ∧ V.shows s t := by
  cases result with
  | ok b t => exact h.elim
  | error e' t => exact ⟨e', t, rfl, h⟩

theorem Agrees.of_ok {b : β} {t : τ} {result : EStateM.Result ε σ α}
    (h : Agrees V R result (.ok b t)) : ∃ a s, result = .ok a s ∧ R a b ∧ V.shows s t := by
  cases result with
  | ok a s => exact ⟨a, s, rfl, h⟩
  | error e s => exact h.elim

theorem Agrees.of_error {e' : ε'} {t : τ} {result : EStateM.Result ε σ α}
    (h : Agrees V R result (.error e' t)) :
    ∃ e s, result = .error e s ∧ V.throws e e' ∧ V.shows s t := by
  cases result with
  | ok a s => exact h.elim
  | error e s => exact ⟨e, s, rfl, h⟩

theorem Simulates.mono {R' : α → β → Prop} (h : Simulates V R m n)
    (hR : ∀ a b, R a b → R' a b) : Simulates V R' m n := by
  intro s t hst
  have hagrees := h s t hst
  cases hm : m s with
  | ok a s' =>
      rw [hm] at hagrees
      obtain ⟨b, t', hn, hab, hst'⟩ := hagrees.ok
      rw [hn]
      exact ⟨hR a b hab, hst'⟩
  | error e s' =>
      rw [hm] at hagrees
      obtain ⟨e', t', hn, he, hst'⟩ := hagrees.error
      rw [hn]
      exact ⟨he, hst'⟩

theorem simulates_pure {a : α} {b : β} (h : R a b) : Simulates V R (pure a) (pure b) :=
  fun _ _ hst => ⟨h, hst⟩

theorem simulates_throw {e : ε} {e' : ε'} (h : V.throws e e') :
    Simulates V R (throw e) (throw e') :=
  fun _ _ hst => ⟨h, hst⟩

theorem simulates_bind {f : α → EStateM ε σ α'} {g : β → EStateM ε' τ β'}
    (hm : Simulates V R m n) (hf : ∀ a b, R a b → Simulates V S (f a) (g b)) :
    Simulates V S (m >>= f) (n >>= g) := by
  intro s t hst
  have hagrees := hm s t hst
  change Agrees V S (EStateM.bind m f s) (EStateM.bind n g t)
  rw [EStateM.bind, EStateM.bind]
  cases h : m s with
  | ok a s' =>
      rw [h] at hagrees
      obtain ⟨b, t', hn, hab, hst'⟩ := hagrees.ok
      rw [hn]
      exact hf a b hab s' t' hst'
  | error e s' =>
      rw [h] at hagrees
      obtain ⟨e', t', hn, he⟩ := hagrees.error
      rw [hn]
      exact he

/-- Errors may be renamed on the concrete side. -/
theorem simulates_adaptExcept {ε₁ : Type} {W : View ε₁ ε' σ τ} {g : ε → ε₁}
    (hm : Simulates V R m n) (hshows : W.shows = V.shows)
    (hthrows : ∀ e e', V.throws e e' → W.throws (g e) e') :
    Simulates W R (m.adaptExcept g) n := by
  intro s t hst
  rw [hshows] at hst
  have hagrees := hm s t hst
  rw [EStateM.adaptExcept]
  cases h : m s with
  | ok a s' =>
      rw [h] at hagrees
      obtain ⟨b, t', hn, hab, hst'⟩ := hagrees.ok
      rw [hn]
      exact ⟨hab, hshows ▸ hst'⟩
  | error e s' =>
      rw [h] at hagrees
      obtain ⟨e', t', hn, he, hst'⟩ := hagrees.error
      rw [hn]
      exact ⟨hthrows e e' he, hshows ▸ hst'⟩

/-- What the abstract program ensures of its values. -/
theorem Simulates.and_post {Q : β → Prop} (h : Simulates V R m n)
    (hn : ∀ t b t', n t = .ok b t' → Q b) : Simulates V (fun a b => R a b ∧ Q b) m n := by
  intro s t hst
  have hagrees := h s t hst
  cases hm : m s with
  | ok a s' =>
      rw [hm] at hagrees
      obtain ⟨b, t', hnt, hab, hst'⟩ := hagrees.ok
      rw [hnt]
      exact ⟨⟨hab, hn t b t' hnt⟩, hst'⟩
  | error e s' =>
      rw [hm] at hagrees
      obtain ⟨e', t', hnt, he⟩ := hagrees.error
      rw [hnt]
      exact he

/-- The same check in both programs. -/
theorem simulates_throwIf {c c' : Prop} [Decidable c] [Decidable c'] {e : ε} {e' : ε'}
    {f : Unit → EStateM ε σ α'} {g : Unit → EStateM ε' τ β'} (hc : c ↔ c') (he : V.throws e e')
    (hf : ¬ c → Simulates V S (f ()) (g ())) :
    Simulates V S (throwIf c e >>= f) (throwIf c' e' >>= g) := by
  by_cases h : c
  · rw [throwIf, throwIf, if_pos h, if_pos (hc.mp h)]
    exact fun _ _ hst => ⟨he, hst⟩
  · rw [throwIf, throwIf, if_neg h, if_neg (mt hc.mpr h)]
    exact hf h

/-- A branch on the same condition in both programs. -/
theorem simulates_ite {c c' : Prop} [Decidable c] [Decidable c'] {m₁ m₂ : EStateM ε σ α}
    {n₁ n₂ : EStateM ε' τ β} (hc : c ↔ c') (h₁ : c → Simulates V R m₁ n₁)
    (h₂ : ¬ c → Simulates V R m₂ n₂) :
    Simulates V R (if c then m₁ else m₂) (if c' then n₁ else n₂) := by
  by_cases h : c
  · rw [if_pos h, if_pos (hc.mp h)]
    exact h₁ h
  · rw [if_neg h, if_neg (mt hc.mpr h)]
    exact h₂ h

section Respect

/-- The program cannot tell related states apart. -/
def Respects (r : σ → σ → Prop) (m : EStateM ε σ α) : Prop := Simulates ⟨r, Eq⟩ Eq m m

variable {r : σ → σ → Prop}

theorem respects_pure (a : α) : Respects r (pure a : EStateM ε σ α) := simulates_pure rfl

theorem respects_throw (e : ε) : Respects r (throw e : EStateM ε σ α) := simulates_throw rfl

theorem respects_bind {f : α → EStateM ε σ α'} (hm : Respects r m) (hf : ∀ a, Respects r (f a)) :
    Respects r (m >>= f) := by
  refine simulates_bind hm ?_
  rintro a _ rfl
  exact hf a

theorem respects_throwIf {c : Prop} [Decidable c] {e : ε} {f : Unit → EStateM ε σ α}
    (hf : Respects r (f ())) : Respects r (throwIf c e >>= f) :=
  simulates_throwIf Iff.rfl rfl fun _ => hf

theorem respects_ite {c : Prop} [Decidable c] {m₁ m₂ : EStateM ε σ α} (h₁ : Respects r m₁)
    (h₂ : Respects r m₂) : Respects r (if c then m₁ else m₂) :=
  simulates_ite Iff.rfl (fun _ => h₁) fun _ => h₂

theorem respects_adaptExcept {g : ε → ε'} (hm : Respects r m) : Respects r (m.adaptExcept g) := by
  intro s t hst
  have hagrees := hm s t hst
  rw [EStateM.adaptExcept]
  cases h : m s with
  | ok a s' =>
      rw [h] at hagrees
      obtain ⟨b, t', hn, hab, hst'⟩ := hagrees.ok
      rw [EStateM.adaptExcept, hn]
      exact ⟨hab, hst'⟩
  | error e s' =>
      rw [h] at hagrees
      obtain ⟨e', t', hn, he, hst'⟩ := hagrees.error
      rw [EStateM.adaptExcept, hn]
      exact ⟨congrArg g he, hst'⟩

end Respect

end HelloWebsocket.Simulation
