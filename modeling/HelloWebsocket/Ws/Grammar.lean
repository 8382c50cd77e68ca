import HelloWebsocket.Ws.Message

/-!
# The frames of a binary message

A binary message is a data frame with opcode 2, and after it, when it is not final,
continuation frames up to the first final one. Pings and pongs may stand anywhere
before the last frame. This is the order in which the reader's transitions can be
taken from the beginning to the end of a message.

## Implementation notes

The size condition counts the length of every frame, control frames too, on top of
the data before it. Only data frames add to the data.
-/

namespace HelloWebsocket.Ws

/-- A ping or a pong as the protocol allows it. -/
def Frame.IsControl (f : Frame) : Prop :=
  (f.opcode = 9 ∨ f.opcode = 10) ∧ f.fin = true ∧ f.payload.length ≤ 125

/-- What a frame contributes to the message. -/
def Frame.data (f : Frame) : Bytes := if f.opcode < 8 then f.payload else []

/-- The data of some frames. -/
def dataOf (fs : List Frame) : Bytes := fs.flatMap Frame.data

@[simp] theorem dataOf_nil : dataOf [] = [] := rfl

theorem dataOf_cons (f : Frame) (fs : List Frame) : dataOf (f :: fs) = f.data ++ dataOf fs :=
  List.flatMap_cons

/-- The length of each frame, added to the data before it, is within the limit. -/
def Sized : Nat → List Frame → Prop
  | _, [] => True
  | n, f :: fs => n + f.payload.length ≤ limit ∧ Sized (n + f.data.length) fs

/-- The frames after a first one that is not final. -/
def IsTail (fs : List Frame) : Prop :=
  ∃ mid last, fs = mid ++ [last] ∧
    (∀ f ∈ mid, f.IsControl ∨ (f.opcode = 0 ∧ f.fin = false)) ∧
    last.opcode = 0 ∧ last.fin = true

/-- The frames of a binary message. -/
def IsMessage (fs : List Frame) : Prop :=
  ∃ lead first tail, fs = lead ++ first :: tail ∧ (∀ f ∈ lead, f.IsControl) ∧
    first.opcode = 2 ∧ ((first.fin = true ∧ tail = []) ∨ (first.fin = false ∧ IsTail tail))

section Order

theorem isTail_cons {f : Frame} {fs : List Frame} : IsTail (f :: fs) ↔
    (fs = [] ∧ f.opcode = 0 ∧ f.fin = true) ∨
      ((f.IsControl ∨ (f.opcode = 0 ∧ f.fin = false)) ∧ IsTail fs) := by
  constructor
  · rintro ⟨mid, last, hfs, hmid, hlast⟩
    cases mid with
    | nil =>
        obtain ⟨rfl, rfl⟩ := List.cons.inj hfs
        exact .inl ⟨rfl, hlast⟩
    | cons g mid =>
        obtain ⟨rfl, rfl⟩ := List.cons.inj hfs
        exact .inr ⟨hmid f List.mem_cons_self,
          mid, last, rfl, fun h hh => hmid h (List.mem_cons_of_mem _ hh), hlast⟩
  · rintro (⟨rfl, hlast⟩ | ⟨hf, mid, last, rfl, hmid, hlast⟩)
    · exact ⟨[], f, rfl, fun g hg => (nomatch hg), hlast⟩
    · refine ⟨f :: mid, last, rfl, ?_, hlast⟩
      intro g hg
      rcases List.mem_cons.mp hg with rfl | hg
      · exact hf
      · exact hmid g hg

theorem isMessage_cons {f : Frame} {fs : List Frame} : IsMessage (f :: fs) ↔
    (f.IsControl ∧ IsMessage fs) ∨
      (f.opcode = 2 ∧ ((f.fin = true ∧ fs = []) ∨ (f.fin = false ∧ IsTail fs))) := by
  constructor
  · rintro ⟨lead, first, tail, hfs, hlead, hfirst⟩
    cases lead with
    | nil =>
        obtain ⟨rfl, rfl⟩ := List.cons.inj hfs
        exact .inr hfirst
    | cons g lead =>
        obtain ⟨rfl, rfl⟩ := List.cons.inj hfs
        exact .inl ⟨hlead f List.mem_cons_self,
          lead, first, tail, rfl, fun h hh => hlead h (List.mem_cons_of_mem _ hh), hfirst⟩
  · rintro (⟨hf, lead, first, tail, rfl, hlead, hfirst⟩ | hfirst)
    · refine ⟨f :: lead, first, tail, rfl, ?_, hfirst⟩
      intro g hg
      rcases List.mem_cons.mp hg with rfl | hg
      · exact hf
      · exact hlead g hg
    · exact ⟨[], f, fs, rfl, fun g hg => (nomatch hg), hfirst⟩

theorem not_isTail_nil : ¬ IsTail [] := by
  rintro ⟨mid, last, h, -⟩
  cases mid <;> cases h

theorem not_isMessage_nil : ¬ IsMessage [] := by
  rintro ⟨lead, first, tail, h, -⟩
  cases lead <;> cases h

theorem Frame.data_of_opcode {f : Frame} (h : f.opcode = 2 ∨ f.opcode = 0) : f.data = f.payload :=
  if_pos (by rcases h with h | h <;> (rw [h]; decide))

theorem Frame.IsControl.data {f : Frame} (h : f.IsControl) : f.data = [] :=
  if_neg (by rcases h.1 with h | h <;> (rw [h]; decide))

end Order

section Transitions

variable {a : Assembly} {f : Frame} {fs : List Frame} {p q : Bytes} {x : Assembly ⊕ Bytes}

/-- A control frame takes the place of none. -/
theorem admits_control_iff (h : f.opcode = 9 ∨ f.opcode = 10) :
    a.Admits f ↔ f.IsControl ∧ a.held + f.payload.length ≤ limit := by
  have hop : 8 ≤ f.opcode := by rcases h with h | h <;> (rw [h]; decide)
  constructor
  · rintro ⟨hcontrol, hsize⟩
    exact ⟨⟨h, hcontrol hop⟩, hsize⟩
  · rintro ⟨hcontrol, hsize⟩
    exact ⟨fun _ => hcontrol.2, hsize⟩

theorem admits_data_iff (h : f.opcode = 2 ∨ f.opcode = 0) :
    a.Admits f ↔ a.held + f.payload.length ≤ limit := by
  have hop : ¬ 8 ≤ f.opcode := by rcases h with h | h <;> (rw [h]; decide)
  exact ⟨fun hadmits => hadmits.2, fun hsize => ⟨fun h8 => absurd h8 hop, hsize⟩⟩

theorem next_of_data (h : f.opcode = 2 ∨ f.opcode = 0) : a.next f = a.place f :=
  if_neg (by rcases h with h | h <;> (rw [h]; decide))

theorem advances_cons_iff : Advances a (f :: fs) (.inr p) ↔ a.Admits f ∧
    ((fs = [] ∧ a.next f = some (.inr p)) ∨
      ∃ a', a.next f = some (.inl a') ∧ Advances a' fs (.inr p)) := by
  constructor
  · intro h
    cases h with
    | last hok hnext => exact ⟨hok, .inl ⟨rfl, hnext⟩⟩
    | cons hok hnext hrest => exact ⟨hok, .inr ⟨_, hnext, hrest⟩⟩
  · rintro ⟨hok, ⟨rfl, hnext⟩ | ⟨a', hnext, hrest⟩⟩
    · exact .last hok hnext
    · exact .cons hok hnext hrest

theorem advances_control_iff (h : f.opcode = 9 ∨ f.opcode = 10) :
    Advances a (f :: fs) (.inr p) ↔
      (f.IsControl ∧ a.held + f.payload.length ≤ limit) ∧ Advances a fs (.inr p) := by
  have hnext : a.next f = some (.inl a) := if_pos h
  rw [advances_cons_iff, admits_control_iff h, hnext]
  constructor
  · rintro ⟨hok, ⟨-, hp⟩ | ⟨a', ha', hrest⟩⟩
    · cases hp
    · cases ha'
      exact ⟨hok, hrest⟩
  · rintro ⟨hok, hrest⟩
    exact ⟨hok, .inr ⟨a, rfl, hrest⟩⟩

theorem sized_control_iff {n : Nat} (h : f.IsControl) :
    Sized n (f :: fs) ↔ n + f.payload.length ≤ limit ∧ Sized n fs := by
  rw [Sized, h.data]
  rfl

theorem dataOf_control (h : f.IsControl) : dataOf (f :: fs) = dataOf fs := by
  rw [dataOf_cons, h.data, List.nil_append]

/-- A data frame in its place, followed by the frames the message goes on with. -/
theorem advances_data_iff (h : f.opcode = 2 ∨ f.opcode = 0) (hplace : a.place f = some
      (if f.fin then .inr (a.getD [] ++ f.payload) else .inl (some (a.getD [] ++ f.payload)))) :
    Advances a (f :: fs) (.inr p) ↔ a.held + f.payload.length ≤ limit ∧
      ((f.fin = true ∧ fs = [] ∧ p = a.getD [] ++ f.payload) ∨
        (f.fin = false ∧ Advances (some (a.getD [] ++ f.payload)) fs (.inr p))) := by
  rw [advances_cons_iff, admits_data_iff h, next_of_data h, hplace]
  cases f.fin with
  | true => simp [and_comm, eq_comm]
  | false => simp

theorem place_none (h : f.opcode = 2) : Assembly.place f none = some
    (if f.fin then .inr ((none : Assembly).getD [] ++ f.payload)
      else .inl (some ((none : Assembly).getD [] ++ f.payload))) :=
  if_pos h

theorem place_some (h : f.opcode = 0) : Assembly.place f (some q) = some
    (if f.fin then .inr ((some q : Assembly).getD [] ++ f.payload)
      else .inl (some ((some q : Assembly).getD [] ++ f.payload))) :=
  if_pos h

/-- After a first fragment the message is the rest of its fragments. -/
theorem advances_some_iff : Advances (some q) fs (.inr p) ↔
    IsTail fs ∧ Sized q.length fs ∧ p = q ++ dataOf fs := by
  induction fs generalizing q with
  | nil =>
      constructor
      · intro h
        cases h
      · rintro ⟨h, -⟩
        exact absurd h not_isTail_nil
  | cons f fs ih =>
      by_cases hcontrol : f.opcode = 9 ∨ f.opcode = 10
      · have hop : f.opcode ≠ 0 := by rcases hcontrol with h | h <;> (rw [h]; decide)
        rw [advances_control_iff hcontrol, ih, isTail_cons]
        constructor
        · rintro ⟨⟨hf, hsize⟩, htail, hsized, hp⟩
          exact ⟨.inr ⟨.inl hf, htail⟩, (sized_control_iff hf).mpr ⟨hsize, hsized⟩,
            by rw [dataOf_control hf]; exact hp⟩
        · rintro ⟨⟨-, hzero, -⟩ | ⟨hf | ⟨hzero, -⟩, htail⟩, hsized, hp⟩
          · exact absurd hzero hop
          · rw [sized_control_iff hf] at hsized
            rw [dataOf_control hf] at hp
            exact ⟨⟨hf, hsized.1⟩, htail, hsized.2, hp⟩
          · exact absurd hzero hop
      by_cases hzero : f.opcode = 0
      · have hdata : f.data = f.payload := Frame.data_of_opcode (.inr hzero)
        have hnot : ¬ f.IsControl := fun h => hcontrol h.1
        rw [advances_data_iff (.inr hzero) (place_some hzero), isTail_cons, Sized, dataOf_cons,
          hdata]
        constructor
        · rintro ⟨hsize, ⟨hfin, rfl, rfl⟩ | ⟨hfin, hrest⟩⟩
          · exact ⟨.inl ⟨rfl, hzero, hfin⟩, ⟨hsize, trivial⟩, by simp⟩
          · obtain ⟨htail, hsized, rfl⟩ := ih.mp hrest
            rw [Option.getD_some, List.length_append] at hsized
            exact ⟨.inr ⟨.inr ⟨hzero, hfin⟩, htail⟩, ⟨hsize, hsized⟩, List.append_assoc _ _ _⟩
        · rintro ⟨⟨rfl, -, hfin⟩ | ⟨hf | ⟨-, hfin⟩, htail⟩, ⟨hsize, hsized⟩, rfl⟩
          · exact ⟨hsize, .inl ⟨hfin, rfl, by simp⟩⟩
          · exact absurd hf hnot
          · refine ⟨hsize, .inr ⟨hfin, ih.mpr ⟨htail, ?_, (List.append_assoc _ _ _).symm⟩⟩⟩
            rw [Option.getD_some, List.length_append]
            exact hsized
      · have hnext : Assembly.next (some q) f = none := by
          rw [Assembly.next, if_neg hcontrol]
          exact if_neg hzero
        rw [advances_cons_iff, hnext, isTail_cons]
        constructor
        · rintro ⟨-, ⟨-, h⟩ | ⟨_, h, -⟩⟩ <;> cases h
        · rintro ⟨⟨-, h, -⟩ | ⟨hf | ⟨h, -⟩, -⟩, -⟩
          · exact absurd h hzero
          · exact absurd hf.1 hcontrol
          · exact absurd h hzero

/-- The transitions from the beginning to the end of a message follow the order of its frames. -/
theorem advances_none_iff : Advances none fs (.inr p) ↔
    IsMessage fs ∧ Sized 0 fs ∧ p = dataOf fs := by
  induction fs with
  | nil =>
      constructor
      · intro h
        cases h
      · rintro ⟨h, -⟩
        exact absurd h not_isMessage_nil
  | cons f fs ih =>
      by_cases hcontrol : f.opcode = 9 ∨ f.opcode = 10
      · have hop : f.opcode ≠ 2 := by rcases hcontrol with h | h <;> (rw [h]; decide)
        rw [advances_control_iff hcontrol, ih, isMessage_cons]
        constructor
        · rintro ⟨⟨hf, hsize⟩, hmessage, hsized, hp⟩
          exact ⟨.inl ⟨hf, hmessage⟩, (sized_control_iff hf).mpr ⟨hsize, hsized⟩,
            by rw [dataOf_control hf]; exact hp⟩
        · rintro ⟨⟨hf, hmessage⟩ | ⟨htwo, -⟩, hsized, hp⟩
          · rw [sized_control_iff hf] at hsized
            rw [dataOf_control hf] at hp
            exact ⟨⟨hf, hsized.1⟩, hmessage, hsized.2, hp⟩
          · exact absurd htwo hop
      by_cases htwo : f.opcode = 2
      · have hdata : f.data = f.payload := Frame.data_of_opcode (.inl htwo)
        have hnot : ¬ f.IsControl := fun h => hcontrol h.1
        rw [advances_data_iff (.inl htwo) (place_none htwo), advances_some_iff, isMessage_cons,
          Sized, dataOf_cons, hdata, Assembly.held, Option.getD_none, List.nil_append,
          List.length_nil, Nat.zero_add]
        constructor
        · rintro ⟨hsize, ⟨hfin, rfl, rfl⟩ | ⟨hfin, htail, hsized, rfl⟩⟩
          · exact ⟨.inr ⟨htwo, .inl ⟨hfin, rfl⟩⟩, ⟨hsize, trivial⟩, by simp⟩
          · exact ⟨.inr ⟨htwo, .inr ⟨hfin, htail⟩⟩, ⟨hsize, hsized⟩, rfl⟩
        · rintro ⟨⟨hf, -⟩ | ⟨-, ⟨hfin, rfl⟩ | ⟨hfin, htail⟩⟩, ⟨hsize, hsized⟩, rfl⟩
          · exact absurd hf hnot
          · exact ⟨hsize, .inl ⟨hfin, rfl, by simp⟩⟩
          · exact ⟨hsize, .inr ⟨hfin, htail, hsized, rfl⟩⟩
      · have hnext : Assembly.next none f = none := by
          rw [Assembly.next, if_neg hcontrol]
          exact if_neg htwo
        rw [advances_cons_iff, hnext, isMessage_cons]
        constructor
        · rintro ⟨-, ⟨-, h⟩ | ⟨_, h, -⟩⟩ <;> cases h
        · rintro ⟨⟨hf, -⟩ | ⟨h, -⟩, -⟩
          · exact absurd hf.1 hcontrol
          · exact absurd h htwo

end Transitions

section Insertion

/-- The data held after frames that do not end the message. -/
theorem Advances.held {a a' : Assembly} {fs : List Frame} (h : Advances a fs (.inl a')) :
    a'.held = a.held + (dataOf fs).length := by
  generalize hx : (Sum.inl a' : Assembly ⊕ Bytes) = x at h
  induction h with
  | nil =>
      cases hx
      rfl
  | last _ _ => cases hx
  | @cons a a₁ f fs x hok hnext _ ih =>
      rw [ih hx, dataOf_cons, List.length_append]
      suffices a₁.held = a.held + f.data.length by omega
      by_cases hcontrol : f.opcode = 9 ∨ f.opcode = 10
      · rw [Assembly.next, if_pos hcontrol] at hnext
        cases hnext
        rw [((admits_control_iff hcontrol).mp hok).1.data]
        rfl
      · rw [Assembly.next, if_neg hcontrol] at hnext
        have hdata := Frame.data_of_opcode (Assembly.opcode_of_place hnext)
        rw [hdata]
        cases a with
        | none =>
            rw [Assembly.place] at hnext
            split at hnext <;> try cases hnext
            split at hnext <;> cases hnext
            exact (Nat.zero_add _).symm
        | some p =>
            rw [Assembly.place] at hnext
            split at hnext <;> try cases hnext
            split at hnext <;> cases hnext
            exact List.length_append

theorem Advances.held_of_none {a : Assembly} {fs : List Frame} (h : Advances none fs (.inl a)) :
    a.held = (dataOf fs).length := by
  rw [h.held]
  exact Nat.zero_add _

/-- A control frame between two frames of a message is read exactly if it fits the limit. -/
theorem advances_insert_iff {g : Frame} {pre post : List Frame} {p : Bytes} (hg : g.IsControl)
    (hpost : post ≠ []) (h : Advances none (pre ++ post) (.inr p)) :
    Advances none (pre ++ g :: post) (.inr p) ↔ (dataOf pre).length + g.payload.length ≤ limit := by
  obtain ⟨a, hpre, hrest⟩ := h.split hpost
  constructor
  · intro hinsert
    obtain ⟨a', hpre', hrest'⟩ := hinsert.split (List.cons_ne_nil _ _)
    rw [← hpre'.held_of_none]
    exact ((advances_control_iff hg.1).mp hrest').1.2
  · intro hfits
    rw [← hpre.held_of_none] at hfits
    exact hpre.append ((advances_control_iff hg.1).mpr ⟨⟨hg, hfits⟩, hrest⟩)

end Insertion

section Refusals

/-- The beginning of a message, before or after its first frame. -/
def IsBeginning (fragmented : Bool) (fs : List Frame) : Prop :=
  match fragmented with
  | false => ∀ f ∈ fs, f.IsControl
  | true => ∃ lead first mid, fs = lead ++ first :: mid ∧ (∀ f ∈ lead, f.IsControl) ∧
      first.opcode = 2 ∧ first.fin = false ∧
      ∀ f ∈ mid, f.IsControl ∨ (f.opcode = 0 ∧ f.fin = false)

/-- What frames make of the message when none of them ends it, whatever their sizes. -/
inductive Leads : Assembly → List Frame → Assembly → Prop
  | nil {a} : Leads a [] a
  | cons {a a' a'' f fs} : a.next f = some (.inl a') → Leads a' fs a'' → Leads a (f :: fs) a''

theorem Leads.append {a a' a'' : Assembly} {fs gs : List Frame} (hf : Leads a fs a')
    (hg : Leads a' gs a'') : Leads a (fs ++ gs) a'' := by
  induction hf with
  | nil => exact hg
  | cons hnext _ ih => exact .cons hnext (ih hg)

theorem leads_of_controls {a : Assembly} {fs : List Frame} (h : ∀ f ∈ fs, f.IsControl) :
    Leads a fs a := by
  induction fs with
  | nil => exact .nil
  | cons f fs ih =>
      exact .cons (if_pos (h f List.mem_cons_self).1)
        (ih fun g hg => h g (List.mem_cons_of_mem _ hg))

theorem leads_of_fragments {p : Bytes} {fs : List Frame}
    (h : ∀ f ∈ fs, f.IsControl ∨ (f.opcode = 0 ∧ f.fin = false)) :
    ∃ q, Leads (some p) fs (some q) := by
  induction fs generalizing p with
  | nil => exact ⟨p, .nil⟩
  | cons f fs ih =>
      have hrest := fun g hg => h g (List.mem_cons_of_mem f hg)
      rcases h f List.mem_cons_self with hf | ⟨hzero, hfin⟩
      · obtain ⟨q, hq⟩ := ih (p := p) hrest
        exact ⟨q, .cons (if_pos hf.1) hq⟩
      · obtain ⟨q, hq⟩ := ih (p := p ++ f.payload) hrest
        refine ⟨q, .cons ?_ hq⟩
        rw [next_of_data (.inr hzero), place_some hzero, hfin]
        rfl

theorem IsBeginning.leads {fragmented : Bool} {fs : List Frame} (h : IsBeginning fragmented fs) :
    ∃ a : Assembly, a.isSome = fragmented ∧ Leads none fs a := by
  cases fragmented with
  | false => exact ⟨none, rfl, leads_of_controls h⟩
  | true =>
      obtain ⟨lead, first, mid, rfl, hlead, htwo, hfin, hmid⟩ := h
      obtain ⟨q, hq⟩ := leads_of_fragments (p := first.payload) hmid
      refine ⟨some q, rfl, (leads_of_controls hlead).append (.cons ?_ hq)⟩
      rw [next_of_data (.inl htwo), place_none htwo, hfin]
      rfl

/-- A data frame with another opcode than the one that is due. -/
theorem next_of_refused {a : Assembly} {f : Frame} (hcontrol : f.opcode ≠ 9 ∧ f.opcode ≠ 10)
    (hdata : f.opcode ≠ if a.isSome then 0 else 2) : a.next f = none := by
  rw [Assembly.next, if_neg (not_or.mpr hcontrol)]
  cases a with
  | none => exact if_neg hdata
  | some p => exact if_neg hdata

variable {masked : Bool} {a a' : Assembly} {f : Frame} {fs : List Frame} {b rest : Bytes} {l : Link}

theorem iterate_of_refused (hb : Encodes masked f b) (hclose : f.opcode ≠ 8)
    (hnext : a.next f = none) (hstream : l.stream = b ++ rest) :
    ∃ l', Loops.iterate (reading masked) a l = .error (.fault .violation) l' := by
  by_cases hok : a.Admits f
  · have hcontrol : ¬ (f.opcode = 9 ∨ f.opcode = 10) := by
      intro hc
      rw [Assembly.next, if_pos hc] at hnext
      cases hnext
    rw [Assembly.next, if_neg hcontrol] at hnext
    obtain ⟨hping, hpong⟩ := not_or.mp hcontrol
    have hturn : turn masked a l = .error (.fault .violation) { l with stream := rest } := by
      rw [turn_of_encodes hb hok hstream, handle, if_neg hclose, if_neg hping, if_neg hpong, hnext]
      rfl
    exact ⟨_, Loops.iterate_of_error (B := reading masked) hturn⟩
  · obtain ⟨l', hturn⟩ := turn_of_not_admits hb hok hstream
    exact ⟨l', Loops.iterate_of_error (B := reading masked) hturn⟩

/-- The beginning of a message is read, or refused for its size. -/
theorem iterate_of_leads (h : Leads a fs a') (hb : EncodesAll masked fs b)
    (hstream : l.stream = b ++ rest) (haccepts : ∀ n, l.accepts n = true) :
    (∃ l', Loops.iterate (reading masked) a l = .error (.fault .violation) l') ∨
      Loops.iterate (reading masked) a l = Loops.iterate (reading masked) a'
        { l with stream := rest, replies := l.replies ++ pongs fs } := by
  induction h generalizing b l with
  | nil =>
      cases hb
      cases l
      cases hstream
      simp
  | @cons a a₁ a₂ f fs hnext _ ih =>
      obtain ⟨b₁, b₂, hb₁, hb₂, rfl⟩ := hb
      rw [List.append_assoc] at hstream
      by_cases hok : a.Admits f
      · have hturn := (turn_of_encodes hb₁ hok hstream).trans (handle_of_next hnext (haccepts _))
        rw [iterate_of_turn hturn]
        have hrest := ih (l := { l with
          stream := b₂ ++ rest
          replies := l.replies ++ pongs [f] }) hb₂ rfl haccepts
        rwa [List.append_assoc, ← pongs_append, List.singleton_append] at hrest
      · obtain ⟨l', hturn⟩ := turn_of_not_admits hb₁ hok hstream
        exact .inl ⟨l', Loops.iterate_of_error (B := reading masked) hturn⟩

end Refusals

end HelloWebsocket.Ws
