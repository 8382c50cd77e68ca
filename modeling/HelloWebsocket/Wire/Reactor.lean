import Mathlib.Data.List.Basic
import Mathlib.Data.List.Forall2
import Mathlib.Data.List.Infix

/-!
# Machines that answer a sequence of inputs

A reactor answers each input with outputs and a new state, until an input stops it.
What it puts out for a sequence is determined by the inputs up to the first stop.

## Implementation notes

The stopping input is still answered. Inputs after it leave no trace.
-/

namespace HelloWebsocket.Reactors

/-- The answer to one input. -/
structure Reaction (σ ο : Type) where
  next : σ
  out : List ο
  stop : Bool

/-- A machine that answers one input at a time. -/
abbrev Reactor (σ ι ο : Type) := σ → ι → Reaction σ ο

variable {σ ι ο : Type} (R : Reactor σ ι ο)

/-- Everything put out for a sequence of inputs. -/
def outputs : σ → List ι → List ο
  | _, [] => []
  | s, i :: is => (R s i).out ++ if (R s i).stop then [] else outputs (R s i).next is

/-- The state after a sequence of inputs. -/
def final : σ → List ι → σ
  | s, [] => s
  | s, i :: is => if (R s i).stop then (R s i).next else final (R s i).next is

/-- Whether one of the inputs stops the machine. -/
def stopped : σ → List ι → Bool
  | _, [] => false
  | s, i :: is => (R s i).stop || stopped (R s i).next is

/-- The inputs that are answered: those up to the first that stops the machine. -/
def answered : σ → List ι → List ι
  | _, [] => []
  | s, i :: is => i :: if (R s i).stop then [] else answered (R s i).next is

variable {R} {s : σ} {is js : List ι}

theorem outputs_append_of_stopped (h : stopped R s is = true) :
    outputs R s (is ++ js) = outputs R s is := by
  induction is generalizing s with
  | nil => cases h
  | cons i is ih =>
      rw [List.cons_append, outputs, outputs]
      cases hstop : (R s i).stop with
      | true => rfl
      | false =>
          rw [stopped, hstop, Bool.false_or] at h
          rw [if_neg (by decide), if_neg (by decide), ih h]

theorem outputs_append (h : stopped R s is = false) :
    outputs R s (is ++ js) = outputs R s is ++ outputs R (final R s is) js := by
  induction is generalizing s with
  | nil => rfl
  | cons i is ih =>
      obtain ⟨hstop, hrest⟩ := Bool.or_eq_false_iff.mp h
      rw [List.cons_append, outputs, outputs, final, hstop, if_neg (by decide), if_neg (by decide),
        if_neg (by decide), ih hrest, List.append_assoc]

theorem final_append (h : stopped R s is = false) :
    final R s (is ++ js) = final R (final R s is) js := by
  induction is generalizing s with
  | nil => rfl
  | cons i is ih =>
      obtain ⟨hstop, hrest⟩ := Bool.or_eq_false_iff.mp h
      rw [List.cons_append, final, final, hstop, if_neg (by decide), if_neg (by decide), ih hrest]

theorem stopped_append (h : stopped R s is = false) :
    stopped R s (is ++ js) = stopped R (final R s is) js := by
  induction is generalizing s with
  | nil => rfl
  | cons i is ih =>
      obtain ⟨hstop, hrest⟩ := Bool.or_eq_false_iff.mp h
      rw [List.cons_append, stopped, final, hstop, if_neg (by decide), Bool.false_or, ih hrest]

theorem answered_of_not_stopped (h : stopped R s is = false) : answered R s is = is := by
  induction is generalizing s with
  | nil => rfl
  | cons i is ih =>
      obtain ⟨hstop, hrest⟩ := Bool.or_eq_false_iff.mp h
      rw [answered, hstop, if_neg (by decide), ih hrest]

/-- One more input after a sequence that did not stop the machine. -/
theorem outputs_concat (h : stopped R s is = false) (i : ι) :
    outputs R s (is ++ [i]) = outputs R s is ++ (R (final R s is) i).out := by
  rw [outputs_append h, outputs, outputs, ite_self, List.append_nil]

theorem final_concat (h : stopped R s is = false) (i : ι) :
    final R s (is ++ [i]) = (R (final R s is) i).next := by
  rw [final_append h, final, final, ite_self]

theorem stopped_concat (h : stopped R s is = false) (i : ι) :
    stopped R s (is ++ [i]) = (R (final R s is) i).stop := by
  rw [stopped_append h, stopped, stopped, Bool.or_false]

theorem answered_concat (h : stopped R s is = false) (i : ι) :
    answered R s (is ++ [i]) = is ++ [i] := by
  induction is generalizing s with
  | nil =>
      rw [List.nil_append, answered, answered, ite_self]
  | cons j is ih =>
      obtain ⟨hstop, hrest⟩ := Bool.or_eq_false_iff.mp h
      rw [List.cons_append, answered, hstop, if_neg (by decide), ih hrest]

/-- Inputs that are all answered are so with more inputs after them. -/
theorem prefix_answered_append (h : answered R s is = is) (js : List ι) :
    is <+: answered R s (is ++ js) := by
  induction is generalizing s with
  | nil => exact List.nil_prefix
  | cons i is ih =>
      rw [answered] at h
      rw [List.cons_append, answered, List.cons_prefix_cons]
      refine ⟨rfl, ?_⟩
      have htail := (List.cons.inj h).2
      split at htail
      · rw [← htail]
        exact List.nil_prefix
      next hgo =>
        rw [if_neg hgo]
        exact ih htail

/-- More inputs never take an output back. -/
theorem prefix_outputs_append (s : σ) (is js : List ι) : outputs R s is <+: outputs R s (is ++ js) := by
  cases h : stopped R s is with
  | true => rw [outputs_append_of_stopped h]
  | false => exact ⟨_, (outputs_append h).symm⟩

section Congruence

variable {r : ι → ι → Prop} (hR : ∀ s i j, r i j → R s i = R s j)

include hR

/-- Inputs that the machine does not tell apart have the same outputs. -/
theorem outputs_congr (his : List.Forall₂ r is js) : outputs R s is = outputs R s js := by
  induction his generalizing s with
  | nil => rfl
  | cons hij _ ih => rw [outputs, outputs, hR s _ _ hij, ih]

theorem final_congr (his : List.Forall₂ r is js) : final R s is = final R s js := by
  induction his generalizing s with
  | nil => rfl
  | cons hij _ ih => rw [final, final, hR s _ _ hij, ih]

theorem stopped_congr (his : List.Forall₂ r is js) : stopped R s is = stopped R s js := by
  induction his generalizing s with
  | nil => rfl
  | cons hij _ ih => rw [stopped, stopped, hR s _ _ hij, ih]

end Congruence

section Simulation

variable {σ' ι' ο' : Type} {R' : Reactor σ' ι' ο'} {f : σ → σ'} {g : ι → ι'} {h : ο' → ο}

/-- The first machine answers as the second one does, seen through maps of states, inputs and
outputs. -/
structure Implements (R : Reactor σ ι ο) (R' : Reactor σ' ι' ο') (f : σ → σ') (g : ι → ι')
    (h : ο' → ο) : Prop where
  next : ∀ s i, f (R s i).next = (R' (f s) (g i)).next
  out : ∀ s i, (R s i).out = (R' (f s) (g i)).out.map h
  stop : ∀ s i, (R s i).stop = (R' (f s) (g i)).stop

theorem Implements.outputs (hR : Implements R R' f g h) (s : σ) (is : List ι) :
    outputs R s is = (outputs R' (f s) (is.map g)).map h := by
  induction is generalizing s with
  | nil => rfl
  | cons i is ih =>
      rw [Reactors.outputs, List.map_cons, Reactors.outputs, hR.out, hR.stop, ih, hR.next,
        List.map_append]
      split <;> rfl

theorem Implements.final (hR : Implements R R' f g h) (s : σ) (is : List ι) :
    f (final R s is) = final R' (f s) (is.map g) := by
  induction is generalizing s with
  | nil => rfl
  | cons i is ih =>
      rw [Reactors.final, List.map_cons, Reactors.final, ← hR.stop, ← hR.next, ← ih]
      split <;> rfl

theorem Implements.stopped (hR : Implements R R' f g h) (s : σ) (is : List ι) :
    stopped R s is = stopped R' (f s) (is.map g) := by
  induction is generalizing s with
  | nil => rfl
  | cons i is ih =>
      rw [Reactors.stopped, List.map_cons, Reactors.stopped, ← hR.stop, ← hR.next, ← ih]

theorem Implements.answered (hR : Implements R R' f g h) (s : σ) (is : List ι) :
    (answered R s is).map g = answered R' (f s) (is.map g) := by
  induction is generalizing s with
  | nil => rfl
  | cons i is ih =>
      rw [Reactors.answered, List.map_cons, List.map_cons, Reactors.answered, ← hR.stop, ← hR.next,
        ← ih]
      split <;> rfl

end Simulation

section Relations

variable {σ' ι' ο' : Type} {R' : Reactor σ' ι' ο'} {S : σ → σ' → Prop} {I : ι → ι' → Prop}
  {O : ο → ο' → Prop} {s' : σ'} {is' : List ι'}

/-- Nothing is put out any more. -/
def Silent (R : Reactor σ ι ο) (s : σ) : Prop := ∀ is, outputs R s is = []

/-- From related states the first machine answers related inputs as the second one does, and it
says nothing more once the second one has stopped. -/
structure Follows (R : Reactor σ ι ο) (R' : Reactor σ' ι' ο') (S : σ → σ' → Prop)
    (I : ι → ι' → Prop) (O : ο → ο' → Prop) : Prop where
  out : ∀ {s s' i i'}, S s s' → I i i' → List.Forall₂ O (R s i).out (R' s' i').out
  goesOn : ∀ {s s' i i'}, S s s' → I i i' → (R' s' i').stop = false →
    (R s i).stop = false ∧ S (R s i).next (R' s' i').next
  ends : ∀ {s s' i i'}, S s s' → I i i' → (R' s' i').stop = true →
    (R s i).stop = true ∨ Silent R (R s i).next

theorem Follows.outputs (hR : Follows R R' S I O) (hs : S s s') (his : List.Forall₂ I is is') :
    List.Forall₂ O (outputs R s is) (outputs R' s' is') := by
  induction his generalizing s s' with
  | nil => exact .nil
  | cons hi _ ih =>
      rw [Reactors.outputs, Reactors.outputs]
      refine List.rel_append (hR.out hs hi) ?_
      cases hstop : (R' s' _).stop with
      | false =>
          obtain ⟨hgoing, hnext⟩ := hR.goesOn hs hi hstop
          rw [hgoing, if_neg (by decide), if_neg (by decide)]
          exact ih hnext
      | true =>
          rw [if_pos rfl]
          rcases hR.ends hs hi hstop with hended | hsilent
          · rw [hended, if_pos rfl]
            exact .nil
          · rw [hsilent, ite_self]
            exact .nil

/-- What every answer keeps that does not stop the machine holds while the machine runs. -/
theorem final_of_going {P : σ → Prop} (hP : ∀ s i, (R s i).stop = false → P s → P (R s i).next)
    (hs : P s) (h : stopped R s is = false) : P (final R s is) := by
  induction is generalizing s with
  | nil => exact hs
  | cons i is ih =>
      obtain ⟨hstop, hrest⟩ := Bool.or_eq_false_iff.mp h
      rw [final, hstop, if_neg (by decide)]
      exact ih (hP s i hstop hs) hrest

end Relations

end HelloWebsocket.Reactors
