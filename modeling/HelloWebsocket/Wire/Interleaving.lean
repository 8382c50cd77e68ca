import Mathlib.Data.List.Basic
import Mathlib.Data.List.Infix

/-!
# Writers that share a medium

Several writers put words of a prefix-free code on one medium, piece by piece. The log
is tidy when each word stands in one block of pieces of one writer, with at most one
unfinished word at the end. A piece of another writer behind an unfinished word makes a
log untidy for good.
-/

namespace HelloWebsocket.Interleaving

variable {τ α : Type}

/-- The pieces with their writers. -/
abbrev Log (τ α : Type) := List (τ × List α)

/-- What stands on the medium. -/
def text (log : Log τ α) : List α := log.flatMap Prod.snd

/-- Every piece is one of this writer. -/
def By (t : τ) (log : Log τ α) : Prop := ∀ y ∈ log, y.1 = t

/-- No piece is empty. -/
def Pieces (log : Log τ α) : Prop := ∀ y ∈ log, y.2 ≠ []

/-- No word of the code begins another one. -/
def PrefixFree (C : List α → Prop) : Prop := ∀ u v, C u → C v → u <+: v → u = v

variable {C : List α → Prop}

/-- Whole words one after another, each by one writer. -/
inductive Blocks (C : List α → Prop) : Log τ α → Prop
  | nil : Blocks C []
  | cons {block rest t} (hby : By t block) (hword : C (text block)) (hrest : Blocks C rest) :
      Blocks C (block ++ rest)

/-- Whole words one after another, and the beginning of one more. -/
def Tidy (C : List α → Prop) (log : Log τ α) : Prop :=
  ∃ whole part, log = whole ++ part ∧ Blocks C whole ∧
    (part = [] ∨ ∃ t word, By t part ∧ C word ∧ text part <+: word)

variable {log log' whole part rest : Log τ α} {t t' : τ} {word piece : List α}

@[simp] theorem text_append : text (log ++ log') = text log ++ text log' := List.flatMap_append

@[simp] theorem text_singleton : text [(t, piece)] = piece := List.append_nil piece

theorem by_append : By t (log ++ log') ↔ By t log ∧ By t log' := List.forall_mem_append

theorem pieces_append : Pieces (log ++ log') ↔ Pieces log ∧ Pieces log' := List.forall_mem_append

theorem eq_nil_of_text (hpieces : Pieces log) (h : text log = []) : log = [] := by
  cases log with
  | nil => rfl
  | cons y log =>
      have hy := List.flatMap_eq_nil_iff.mp h y List.mem_cons_self
      exact absurd hy (hpieces y List.mem_cons_self)

theorem Blocks.append (h : Blocks C log) (h' : Blocks C log') : Blocks C (log ++ log') := by
  induction h with
  | nil => exact h'
  | cons hby hword _ ih =>
      rw [List.append_assoc]
      exact .cons hby hword ih

theorem Blocks.concat (h : Blocks C whole) (hby : By t part) (hword : C (text part)) :
    Blocks C (whole ++ part) := by
  have hlast : Blocks C (part ++ []) := .cons hby hword .nil
  rw [List.append_nil] at hlast
  exact h.append hlast

theorem Blocks.words (h : Blocks C log) :
    ∃ words : List (List α), (∀ u ∈ words, C u) ∧ text log = words.flatten := by
  induction h with
  | nil => exact ⟨[], nofun, rfl⟩
  | @cons block rest t _ hword _ ih =>
      obtain ⟨words, hwords, htext⟩ := ih
      refine ⟨text block :: words, List.forall_mem_cons.mpr ⟨hword, hwords⟩, ?_⟩
      rw [text_append, htext, List.flatten_cons]

/-- On the medium a tidy log is whole words and the beginning of one more. -/
theorem Tidy.words (h : Tidy C log) : ∃ (words : List (List α)) (p : List α), text log = words.flatten ++ p ∧
    (∀ u ∈ words, C u) ∧ (p = [] ∨ ∃ word, C word ∧ p <+: word) := by
  obtain ⟨whole, part, rfl, hwhole, hpart⟩ := h
  obtain ⟨words, hwords, htext⟩ := hwhole.words
  refine ⟨words, text part, by rw [text_append, htext], hwords, ?_⟩
  rcases hpart with rfl | ⟨t, word, -, hword, hpre⟩
  · exact .inl rfl
  · exact .inr ⟨word, hword, hpre⟩

/-- Two blocks at the front of one log are the same. -/
theorem block_unique (hC : PrefixFree C) {block block' : Log τ α}
    (hpieces : Pieces (block ++ rest)) (hword : C (text block)) (hword' : C (text block'))
    (h : block ++ rest = block' ++ log') : block = block' ∧ rest = log' := by
  rcases List.append_eq_append_iff.mp h with ⟨more, rfl, rfl⟩ | ⟨more, rfl, rfl⟩
  · have heq := hC _ _ hword hword' (by rw [text_append]; exact List.prefix_append _ _)
    rw [text_append, List.self_eq_append_right] at heq
    have hmore := eq_nil_of_text (pieces_append.mp (pieces_append.mp hpieces).2).1 heq
    exact ⟨by rw [hmore, List.append_nil], by rw [hmore, List.nil_append]⟩
  · have heq := hC _ _ hword' hword (by rw [text_append]; exact List.prefix_append _ _)
    rw [text_append, List.self_eq_append_right] at heq
    have hmore := eq_nil_of_text (pieces_append.mp (pieces_append.mp hpieces).1).2 heq
    exact ⟨by rw [hmore, List.append_nil], by rw [hmore, List.nil_append]⟩

/-- Behind whole words a tidy log is tidy. -/
theorem Tidy.of_blocks (hC : PrefixFree C) (hwhole : Blocks C whole)
    (hpieces : Pieces (whole ++ rest)) (h : Tidy C (whole ++ rest)) : Tidy C rest := by
  induction hwhole with
  | nil => exact h
  | @cons block log t hby hword _ ih =>
      rw [List.append_assoc] at h hpieces
      apply ih (pieces_append.mp hpieces).2
      obtain ⟨whole', part, heq, hwhole', hpart⟩ := h
      cases hwhole' with
      | nil =>
          rw [List.nil_append] at heq
          subst heq
          rcases hpart with hnil | ⟨t', word, -, hw, hpre⟩
          · rw [(List.append_eq_nil_iff.mp hnil).2]
            exact ⟨[], [], rfl, .nil, .inl rfl⟩
          · rw [text_append] at hpre
            have hfull := hC _ _ hword hw ((List.prefix_append _ _).trans hpre)
            rw [← hfull] at hpre
            have hrest : text (log ++ rest) = [] := by
              have hlen := hpre.length_le
              rw [List.length_append] at hlen
              exact List.length_eq_zero_iff.mp (by omega)
            rw [eq_nil_of_text (pieces_append.mp hpieces).2 hrest]
            exact ⟨[], [], rfl, .nil, .inl rfl⟩
      | @cons block' log' t' hby' hword' hrest' =>
          rw [List.append_assoc] at heq
          obtain ⟨-, htail⟩ := block_unique hC hpieces hword hword' heq
          exact ⟨log', part, htail, hrest', hpart⟩

/-- A piece of another writer behind an unfinished word. -/
theorem not_tidy_of_intrusion (hC : PrefixFree C) (hwhole : Blocks C whole)
    (hpieces : Pieces (whole ++ (part ++ [(t', piece)]))) (hpart : part ≠ []) (hby : By t part)
    (hword : C word) (hpre : text part <+: word) (hproper : text part ≠ word) (hne : t' ≠ t) :
    ¬ Tidy C (whole ++ (part ++ [(t', piece)])) := by
  intro h
  obtain ⟨y, hy⟩ := List.exists_mem_of_ne_nil part hpart
  have hmixed : ∀ t₀, ¬ By t₀ (part ++ [(t', piece)]) := by
    intro t₀ hall
    have hfirst := hall y (List.mem_append_left _ hy)
    have hlast := hall (t', piece) (List.mem_append_right _ (List.mem_singleton_self _))
    exact hne (hlast.trans (hfirst.symm.trans (hby y hy)))
  obtain ⟨whole', part', heq, hwhole', hpart'⟩ := h.of_blocks hC hwhole hpieces
  cases hwhole' with
  | nil =>
      rw [List.nil_append] at heq
      subst heq
      rcases hpart' with hnil | ⟨t₀, word', hall, -⟩
      · exact hpart (List.append_eq_nil_iff.mp hnil).1
      · exact hmixed t₀ hall
  | @cons block log' t₀ hby' hword' hrest' =>
      rw [List.append_assoc] at heq
      rcases List.append_eq_append_iff.mp heq with ⟨more, rfl, hmore⟩ | ⟨more, rfl, -⟩
      · -- The first word would end behind the intruding piece.
        cases more with
        | nil =>
            rw [List.append_nil] at hword'
            exact hproper (hC _ _ hword' hword hpre)
        | cons z more =>
            obtain ⟨rfl, -⟩ := List.cons.inj hmore
            refine hne ?_
            have hlast := hby' (t', piece) (List.mem_append_right _ List.mem_cons_self)
            exact hlast.trans ((hby' y (List.mem_append_left _ hy)).symm.trans (hby y hy))
      · -- The first word would end inside the unfinished one.
        rw [text_append] at hpre hproper
        have hfull := hC _ _ hword' hword ((List.prefix_append _ _).trans hpre)
        rw [← hfull] at hpre hproper
        have hlen := hpre.length_le
        rw [List.length_append] at hlen
        have hnil : text more = [] := List.length_eq_zero_iff.mp (by omega)
        exact hproper (by rw [hnil, List.append_nil])

end HelloWebsocket.Interleaving
