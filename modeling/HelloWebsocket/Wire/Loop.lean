import HelloWebsocket.Wire.Simulation

/-!
# Loops over a state

A loop whose body goes on with a new loop variable, ends with a value or throws.
The body carries the proof that it goes on only with less to do, so the loop is a
total program. Two rules follow from the unfolding: an invariant of the body is one
of the loop, and loops simulate each other when their bodies do.
-/

namespace HelloWebsocket.Loops

open Simulation

variable {ε ε' S T σ τ α β : Type}

/-- The body of a loop, with a measure of what is left to do. -/
structure Body (ε S σ α : Type) where
  measure : σ → S → Nat
  run : σ → EStateM ε S (σ ⊕ α)
  shrinks : ∀ {x s y s'}, run x s = .ok (.inl y) s' → measure y s' < measure x s

/-- The loop, from a first value of its variable. -/
def iterate (B : Body ε S σ α) (x : σ) (s : S) : EStateM.Result ε S α :=
  match _h : B.run x s with
  | .ok (.inl y) s' => iterate B y s'
  | .ok (.inr a) s' => .ok a s'
  | .error e s' => .error e s'
termination_by B.measure x s
decreasing_by exact B.shrinks _h

section Unfolding

variable {B : Body ε S σ α} {x y : σ} {s s' : S}

theorem iterate_of_continue (h : B.run x s = .ok (.inl y) s') :
    iterate B x s = iterate B y s' := by
  rw [iterate]
  split <;> simp_all

theorem iterate_of_done {a : α} (h : B.run x s = .ok (.inr a) s') :
    iterate B x s = .ok a s' := by
  rw [iterate]
  split <;> simp_all

theorem iterate_of_error {e : ε} (h : B.run x s = .error e s') :
    iterate B x s = .error e s' := by
  rw [iterate]
  split <;> simp_all

/-- What one turn of the body may end with, given what it may go on with. -/
def Turn (P : σ → S → Prop) (Q : EStateM.Result ε S α → Prop) :
    EStateM.Result ε S (σ ⊕ α) → Prop
  | .ok (.inl y) s => P y s
  | .ok (.inr a) s => Q (.ok a s)
  | .error e s => Q (.error e s)

/-- The rule of invariants. -/
theorem iterate_invariant {P : σ → S → Prop} {Q : EStateM.Result ε S α → Prop}
    (hturn : ∀ x s, P x s → Turn P Q (B.run x s)) (x : σ) (s : S) (h : P x s) :
    Q (iterate B x s) := by
  -- the measure of the body is the measure of the induction
  induction hn : B.measure x s using Nat.strong_induction_on generalizing x s with
  | _ n ih =>
      subst hn
      have hstep := hturn x s h
      cases hrun : B.run x s with
      | error e s' =>
          rw [hrun] at hstep
          rw [iterate_of_error hrun]
          exact hstep
      | ok next s' =>
          rw [hrun] at hstep
          cases next with
          | inl y =>
              rw [iterate_of_continue hrun]
              exact ih _ (B.shrinks hrun) y s' hstep rfl
          | inr a =>
              rw [iterate_of_done hrun]
              exact hstep

end Unfolding

section Simulation

variable {V : View ε ε' S T} {B : Body ε S σ α} {C : Body ε' T τ β} {X : σ → τ → Prop}
  {R : α → β → Prop}

/-- A loop simulates another when every turn does, from related loop variables. -/
theorem simulates_iterate
    (hturn : ∀ x y, X x y → Simulates V (Sum.LiftRel X R) (B.run x) (C.run y))
    {x : σ} {y : τ} (hxy : X x y) : Simulates V R (iterate B x) (iterate C y) := by
  intro s t hst
  induction hn : B.measure x s using Nat.strong_induction_on generalizing x y s t with
  | _ n ih =>
      subst hn
      have hagrees := hturn x y hxy s t hst
      cases hrun : B.run x s with
      | error e s' =>
          rw [hrun] at hagrees
          obtain ⟨e', t', hrun', he⟩ := hagrees.error
          rw [iterate_of_error hrun, iterate_of_error hrun']
          exact he
      | ok next s' =>
          rw [hrun] at hagrees
          obtain ⟨next', t', hrun', hnext, hst'⟩ := hagrees.ok
          cases hnext with
          | inl hxy' =>
              rw [iterate_of_continue hrun, iterate_of_continue hrun']
              exact ih _ (B.shrinks hrun) hxy' s' t' hst' rfl
          | inr hab =>
              rw [iterate_of_done hrun, iterate_of_done hrun']
              exact ⟨hab, hst'⟩

/-- A loop cannot tell states apart which no turn tells apart. -/
theorem respects_iterate {r : S → S → Prop} (hturn : ∀ x, Respects r (B.run x)) (x : σ) :
    Respects r (iterate B x) := by
  refine simulates_iterate ?_ rfl
  rintro x _ rfl
  refine (hturn x).mono ?_
  rintro (y | a) _ rfl
  · exact .inl rfl
  · exact .inr rfl

end Simulation

end HelloWebsocket.Loops
