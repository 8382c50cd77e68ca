import Mathlib.Data.List.Basic

/-!
# Runs of a labelled system

A system is a partial step function on its states. A label says which part of the
system moves and what its environment answers, so a list of labels is a schedule
and a run is determined by it. Invariants are carried along a run once and for all.
-/

namespace HelloWebsocket.Transitions

variable {S L : Type} (step : S → L → Option S)

/-- The state after a schedule, if every step of it can be taken. -/
def run : S → List L → Option S
  | s, [] => some s
  | s, l :: ls => (step s l).bind fun s' => run s' ls

/-- Some schedule leads from one state to the other. -/
def Reaches (s s' : S) : Prop := ∃ ls, run step s ls = some s'

/-- Every step of the schedule is taken in a state that admits it. -/
def Along (Q : S → L → Prop) : S → List L → Prop
  | _, [] => True
  | s, l :: ls => Q s l ∧ ∀ s', step s l = some s' → Along Q s' ls

variable {step} {s s' s'' : S} {l : L} {ls ms : List L}

theorem run_cons : run step s (l :: ls) = some s'' ↔
    ∃ s', step s l = some s' ∧ run step s' ls = some s'' :=
  Option.bind_eq_some_iff

theorem run_append : run step s (ls ++ ms) = some s'' ↔
    ∃ s', run step s ls = some s' ∧ run step s' ms = some s'' := by
  induction ls generalizing s with
  | nil =>
      constructor
      · intro h
        exact ⟨s, rfl, h⟩
      · rintro ⟨s', hs, h⟩
        cases hs
        exact h
  | cons l ls ih =>
      rw [List.cons_append, run_cons]
      constructor
      · rintro ⟨s₁, hstep, hrest⟩
        obtain ⟨s', hls, hms⟩ := ih.mp hrest
        exact ⟨s', run_cons.mpr ⟨s₁, hstep, hls⟩, hms⟩
      · rintro ⟨s', hls, hms⟩
        obtain ⟨s₁, hstep, hrest⟩ := run_cons.mp hls
        exact ⟨s₁, hstep, ih.mpr ⟨s', hrest, hms⟩⟩

theorem run_singleton (h : step s l = some s') : run step s [l] = some s' :=
  run_cons.mpr ⟨s', h, rfl⟩

theorem Reaches.refl (s : S) : Reaches step s s := ⟨[], rfl⟩

/-- A schedule whose last state passes a test. -/
theorem exists_reaches_of_run {p : S → Bool} (ls : List L) (h : (run step s ls).map p = some true) :
    ∃ s', Reaches step s s' ∧ p s' = true := by
  obtain ⟨s', hs', hp⟩ := Option.map_eq_some_iff.mp h
  exact ⟨s', ⟨ls, hs'⟩, hp⟩

theorem Reaches.tail (h : Reaches step s s') (hstep : step s' l = some s'') :
    Reaches step s s'' := by
  obtain ⟨ls, hls⟩ := h
  exact ⟨ls ++ [l], run_append.mpr ⟨s', hls, run_singleton hstep⟩⟩

theorem Reaches.trans (h : Reaches step s s') (h' : Reaches step s' s'') : Reaches step s s'' := by
  obtain ⟨ls, hls⟩ := h
  obtain ⟨ms, hms⟩ := h'
  exact ⟨ls ++ ms, run_append.mpr ⟨s', hls, hms⟩⟩

/-- A schedule in two parts, each with a test for its last state. -/
theorem exists_reaches_of_runs {p q : S → Bool} (ls ms : List L)
    (hp : (run step s ls).map p = some true) (hq : (run step s (ls ++ ms)).map q = some true) :
    ∃ s' s'', Reaches step s s' ∧ p s' = true ∧ Reaches step s' s'' ∧ q s'' = true := by
  obtain ⟨s', hs', hp⟩ := Option.map_eq_some_iff.mp hp
  obtain ⟨s'', hs'', hq⟩ := Option.map_eq_some_iff.mp hq
  obtain ⟨s₁, hs₁, hrest⟩ := run_append.mp hs''
  cases hs'.symm.trans hs₁
  exact ⟨s', s'', ⟨ls, hs'⟩, hp, ⟨ms, hrest⟩, hq⟩

section Invariants

variable {I : S → Prop} {Q : S → L → Prop}

/-- What every admitted step keeps, a run of admitted steps keeps. -/
theorem Along.invariant (hstep : ∀ s l s', I s → Q s l → step s l = some s' → I s')
    (halong : Along step Q s ls) (hrun : run step s ls = some s') (hs : I s) : I s' := by
  induction ls generalizing s with
  | nil =>
      cases hrun
      exact hs
  | cons l ls ih =>
      obtain ⟨s₁, hs₁, hrest⟩ := run_cons.mp hrun
      exact ih (halong.2 s₁ hs₁) hrest (hstep s l s₁ hs halong.1 hs₁)

theorem along_true : Along step (fun _ _ => True) s ls := by
  induction ls generalizing s with
  | nil => trivial
  | cons l ls ih => exact ⟨trivial, fun s' _ => ih⟩

/-- Two conditions on steps that agree as long as the first one holds. -/
theorem along_congr_of {Q' : S → L → Prop} (h : ∀ s l, I s → (Q s l ↔ Q' s l))
    (hstep : ∀ s l s', I s → Q s l → step s l = some s' → I s') (hs : I s) :
    Along step Q s ls ↔ Along step Q' s ls := by
  induction ls generalizing s with
  | nil => exact Iff.rfl
  | cons l ls ih =>
      have hrest : Q s l → ((∀ s', step s l = some s' → Along step Q s' ls) ↔
          ∀ s', step s l = some s' → Along step Q' s' ls) :=
        fun hl => forall_congr' fun s' => forall_congr' fun hs' => ih (hstep s l s' hs hl hs')
      constructor
      · rintro ⟨hl, hall⟩
        exact ⟨(h s l hs).mp hl, (hrest hl).mp hall⟩
      · rintro ⟨hl, hall⟩
        have hl' := (h s l hs).mpr hl
        exact ⟨hl', (hrest hl').mpr hall⟩

theorem Along.mono {Q' : S → L → Prop} (hQ : ∀ s l, Q s l → Q' s l) (h : Along step Q s ls) :
    Along step Q' s ls := by
  induction ls generalizing s with
  | nil => trivial
  | cons l ls ih => exact ⟨hQ s l h.1, fun s' hs' => ih (h.2 s' hs')⟩

/-- What every step keeps, every run keeps. -/
theorem Reaches.invariant (hstep : ∀ s l s', I s → step s l = some s' → I s')
    (hreach : Reaches step s s') (hs : I s) : I s' := by
  obtain ⟨ls, hrun⟩ := hreach
  exact Along.invariant (fun s l s' hI _ => hstep s l s' hI) along_true hrun hs

/-- A goal is reached if, short of it, a number can always be made smaller. -/
theorem exists_reaches_of_measure {goal : S → Prop} (measure : S → Nat)
    (hstep : ∀ s, I s → ¬ goal s → ∃ s', Reaches step s s' ∧ I s' ∧ measure s' < measure s)
    (hs : I s) : ∃ s', Reaches step s s' ∧ I s' ∧ goal s' := by
  induction hn : measure s using Nat.strongRecOn generalizing s with
  | ind n ih =>
      by_cases hgoal : goal s
      · exact ⟨s, .refl s, hs, hgoal⟩
      · obtain ⟨s₁, hreach, hs₁, hlt⟩ := hstep s hs hgoal
        obtain ⟨s', hreach', hs', hgoal'⟩ := ih (measure s₁) (hn ▸ hlt) hs₁ rfl
        exact ⟨s', hreach.trans hreach', hs', hgoal'⟩

/-- A test of every step of a schedule. -/
def passes (step : S → L → Option S) (q : S → L → Bool) : S → List L → Bool
  | _, [] => true
  | s, l :: ls => q s l && ((step s l).map fun s' => passes step q s' ls).getD true

theorem along_of_passes {q : S → L → Bool} (h : passes step q s ls = true) :
    Along step (fun s l => q s l = true) s ls := by
  induction ls generalizing s with
  | nil => trivial
  | cons l ls ih =>
      obtain ⟨hl, hls⟩ := Bool.and_eq_true_iff.mp h
      refine ⟨hl, fun s' hs' => ih ?_⟩
      rwa [hs'] at hls

theorem along_append : Along step Q s (ls ++ ms) ↔
    Along step Q s ls ∧ ∀ s', run step s ls = some s' → Along step Q s' ms := by
  induction ls generalizing s with
  | nil =>
      constructor
      · intro h
        refine ⟨trivial, ?_⟩
        rintro s' hs
        cases hs
        exact h
      · rintro ⟨-, h⟩
        exact h s rfl
  | cons l ls ih =>
      constructor
      · rintro ⟨hQ, hrest⟩
        refine ⟨⟨hQ, fun s₁ hs₁ => (ih.mp (hrest s₁ hs₁)).1⟩, ?_⟩
        intro s' hrun
        obtain ⟨s₁, hs₁, hls⟩ := run_cons.mp hrun
        exact (ih.mp (hrest s₁ hs₁)).2 s' hls
      · rintro ⟨⟨hQ, hls⟩, hms⟩
        refine ⟨hQ, fun s₁ hs₁ => ih.mpr ⟨hls s₁ hs₁, ?_⟩⟩
        intro s' hrun
        exact hms s' (run_cons.mpr ⟨s₁, hs₁, hrun⟩)

end Invariants

end HelloWebsocket.Transitions
