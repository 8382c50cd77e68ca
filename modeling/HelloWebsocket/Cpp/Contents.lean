import HelloWebsocket.Cpp.Answers

/-!
# What a C++ session sends

Every frame that is sent comes from the program: the answer to a message, the message
of a thread, a call before or after the receive loop, or the answer to a control
frame. So a property of frames that the program gives to each of these holds for
every call and for everything that has been sent.
-/

namespace HelloWebsocket.Cpp.Threads

open Ws Transitions

variable {β V W : Type} {P : Program β V W} {s s' : State β V W}

section Beginning

/-- What the main thread begins to send at a point. -/
inductive Begins (P : Program β V W) (s : State β V W) (key : Key) : Point → Sending β → Prop
  | reply {data r} (hreply : (P.handle s.vars s.clock.nowMs data).reply = some r) :
      Begins P s key (.handling data) (.data .reply r)
  | opening {data rest} : Begins P s key (.prologue (.send data :: rest)) (.data .script data)
  | closing {data rest} : Begins P s key (.epilogue (.send data :: rest)) (.data .script data)
  | control {f rest} : Begins P s key (.epilogue (.control f :: rest))
      ⟨.control, f, .write (P.octets key f)⟩
  | answer {a f g b rest} (hinbox : s.inbox = b ++ rest) (hb : Encodes (!P.masked) f b)
      (hok : a.Admits f) (hg : (f.opcode = 8 ∧ g = Ws.closing f) ∨ (f.opcode = 9 ∧ g = pong f)) :
      Begins P s key (.reading a) ⟨.control, g, .write (P.octets key g)⟩

theorem begins_frameStep {key : Key} {a : Assembly} {f : Ws.Frame} {b rest : Bytes} {x : Sending β}
    (hinbox : s.inbox = b ++ rest) (hb : Encodes (!P.masked) f b) (hok : a.Admits f)
    (hx : (frameStep P { s with inbox := rest } key a b f).sending? .main = some x) :
    Begins P s key (.reading a) x := by
  rw [frameStep] at hx
  split at hx
  next hclose =>
    cases hx
    exact .answer hinbox hb hok (.inl ⟨hclose, rfl⟩)
  split at hx
  next hping =>
    cases hx
    exact .answer hinbox hb hok (.inr ⟨hping, rfl⟩)
  split at hx
  · cases hx
  split at hx <;> cases hx

variable [Fintype β]

theorem begins_of_pointStep {key : Key} {p : Point} {x : Sending β} (h : PointStep P s key p s')
    (hx : s'.sending? .main = some x) : Begins P s key p x := by
  cases h with
  | begin | loop | exhausted | refused | stop => cases hx
  | @prologue call rest =>
      cases call with
      | spawn => cases hx
      | send data =>
          cases hx
          exact .opening
  | @epilogue call rest _ hcall =>
      cases call with
      | clear | close =>
          cases hcall
          cases hx
      | join =>
          obtain ⟨-, hcall⟩ := Option.ite_none_right_eq_some.mp hcall
          cases hcall
          cases hx
      | send data =>
          cases hcall
          cases hx
          exact .closing
      | control f =>
          cases hcall
          cases hx
          exact .control
  | frame hinbox hb hok => exact begins_frameStep hinbox hb hok hx
  | @handle data =>
      cases hreply : (P.handle s.vars s.clock.nowMs data).reply with
      | none =>
          rw [handleStep] at hx
          simp [hreply, State.sending?, Main.call?] at hx
      | some r =>
          rw [handleStep] at hx
          simp only [hreply, State.sending?, Main.call?, Option.some.injEq] at hx
          subst hx
          exact .reply hreply

end Beginning

section Scripts

/-- The calls that a point leaves to be made are the last ones of the program. -/
def Point.Scripted (P : Program β V W) : Point → Prop
  | .prologue rest => rest <:+ P.prologue
  | .epilogue rest => rest <:+ P.epilogue
  | _ => True

/-- Both points that a call can lead to. -/
def Main.Scripted (P : Program β V W) : Main β → Prop
  | .standing p => p.Scripted P
  | .sending _ k k' => k.Scripted P ∧ k'.Scripted P

theorem scripted_tail {p : Point} {key : Key} [Fintype β] (h : PointStep P s key p s')
    (hp : p.Scripted P) : s'.main.Scripted P := by
  have hepilogue : (Point.epilogue P.epilogue).Scripted P := List.suffix_refl _
  cases h with
  | begin | stop => exact trivial
  | loop =>
      change (if s.active then Point.reading none else .epilogue P.epilogue).Scripted P
      split
      · exact trivial
      · exact hepilogue
  | exhausted | refused => exact hepilogue
  | @prologue call rest =>
      have hrest : (Point.prologue rest).Scripted P := (List.suffix_cons call rest).trans hp
      cases call with
      | spawn => exact hrest
      | send data => exact ⟨hrest, hrest⟩
  | @epilogue call rest _ hcall =>
      have hrest : (Point.epilogue rest).Scripted P := (List.suffix_cons call rest).trans hp
      cases call with
      | clear | close =>
          cases hcall
          exact hrest
      | join =>
          obtain ⟨-, hcall⟩ := Option.ite_none_right_eq_some.mp hcall
          cases hcall
          exact hrest
      | send | control =>
          cases hcall
          exact ⟨hrest, hrest⟩
  | @frame a f b rest =>
      cases hnext : a.next f with
      | none =>
          obtain ⟨m, hm, -, ⟨x, -, rfl⟩ | rfl⟩ := frameStep_of_refused (P := P)
            (s := { s with inbox := rest }) key hnext b
          · rw [hm]
            exact ⟨hepilogue, hepilogue⟩
          · rw [hm]
            exact hepilogue
      | some y =>
          obtain ⟨m, hm, -, ⟨x, a', -, -, rfl⟩ | rfl⟩ := frameStep_of_next (P := P)
            (s := { s with inbox := rest }) key hnext b
          · rw [hm]
            exact ⟨trivial, hepilogue⟩
          · rw [hm]
            cases y <;> exact trivial
  | @handle data =>
      have hafter : ∀ stop : Bool, (if stop then Point.stopping else .loop).Scripted P := by
        intro stop
        cases stop <;> exact trivial
      rw [handleStep]
      cases (P.handle s.vars s.clock.nowMs data).reply with
      | none => exact hafter _
      | some r => exact ⟨hafter _, hafter _⟩

variable [DecidableEq β] [Fintype β]

theorem MainStep.scripted (hstep : MainStep P s s') (h : s.main.Scripted P) :
    s'.main.Scripted P := by
  cases hstep with
  | acquire hmain _ | test hmain _ | refuse hmain _ =>
      rw [hmain] at h
      exact h
  | @release x k k' result mutex hmain _ =>
      rw [hmain] at h
      cases result with
      | true => exact h.1
      | false => exact h.2
  | @write x k k' rest n hmain _ _ =>
      rw [hmain] at h
      rw [(wrote_main n rest hmain).1]
      exact h
  | point hmain hpoint =>
      rw [hmain] at h
      exact scripted_tail hpoint h

end Scripts

section Contents

/-- The program gives a property to every frame it sends. The variables of the receive loop may
keep a property of their own. -/
structure Program.Gives (P : Program β V W) (L : V → Prop) (Q : Origin β → Ws.Frame → Prop) :
    Prop where
  initial : ∀ now, L (P.initial now)
  vars : ∀ v now data, L v → data.length ≤ limit → L (P.handle v now data).vars
  reply : ∀ v now data r, L v → data.length ≤ limit → (P.handle v now data).reply = some r →
    Q .reply ⟨true, 2, r⟩
  beat : ∀ b w now number, Q (.beat b) ⟨true, 2, P.build b w now number⟩
  opening : ∀ data, .send data ∈ P.prologue → Q .script ⟨true, 2, data⟩
  closing : ∀ data, .send data ∈ P.epilogue → Q .script ⟨true, 2, data⟩
  control : ∀ f, .control f ∈ P.epilogue → Q .control f
  answer : ∀ opcode payload, opcode = 8 ∨ opcode = 10 → payload.length ≤ 125 →
    Q .control ⟨true, opcode, payload⟩

/-- Every call, and everything sent, has the property. -/
structure Given (P : Program β V W) (L : V → Prop) (Q : Origin β → Ws.Frame → Prop)
    (s : State β V W) : Prop where
  vars : L s.vars
  scripted : s.main.Scripted P
  calls : ∀ t x, s.sending? t = some x → Q x.origin x.frame
  sent : ∀ y ∈ s.sent, Q y.1 y.2

variable {L : V → Prop} {Q : Origin β → Ws.Frame → Prop} {c : Clock}

theorem given_start (hP : P.Gives L Q) (c : Clock) : Given P L Q (P.start c) where
  vars := hP.initial _
  scripted := List.suffix_refl _
  calls t x hx := by cases t <;> cases hx
  sent _ hy := nomatch hy

/-- A message about to be handled is within the limit. -/
theorem length_of_handling {data : Bytes} (h : Following P s)
    (hmain : s.main = .standing (.handling data)) : data.length ≤ limit := by
  obtain ⟨⟨a, hreads, -⟩, -⟩ := h
  rw [hmain] at hreads
  exact hreads.length_le data (List.mem_append_right _ (List.mem_singleton_self _))

theorem Begins.given {key : Key} {p : Point} {x : Sending β} (h : Begins P s key p x)
    (hP : P.Gives L Q) (hfollowing : Following P s) (hgiven : Given P L Q s)
    (hmain : s.main = .standing p) : Q x.origin x.frame := by
  have hscript := hgiven.scripted
  rw [hmain] at hscript
  cases h with
  | @reply data r hreply =>
      exact hP.reply _ _ data r hgiven.vars (length_of_handling hfollowing hmain) hreply
  | opening => exact hP.opening _ (hscript.subset List.mem_cons_self)
  | closing => exact hP.closing _ (hscript.subset List.mem_cons_self)
  | control => exact hP.control _ (hscript.subset List.mem_cons_self)
  | @answer a f g b rest hinbox hb hok hg =>
      have hshort : 8 ≤ f.opcode → f.payload.length ≤ 125 := fun hop => (hok.1 hop).2
      rcases hg with ⟨hop, rfl⟩ | ⟨hop, rfl⟩
      · exact hP.answer _ _ (.inl rfl) (hshort (by rw [hop]))
      · exact hP.answer _ _ (.inr rfl) (hshort (by rw [hop]; decide))

variable [DecidableEq β] [Fintype β] {l : Label β}

theorem Given.step (hP : P.Gives L Q) (horderly : Orderly P c s) (h : Given P L Q s)
    (hstep : Step P s l s') : Given P L Q s' := by
  refine ⟨?_, ?_, fun t x hx => ?_, ?_⟩
  · rcases handles_of_step hstep with ⟨_, data, -, hmain, rfl⟩ | ⟨-, hvars⟩
    · exact hP.vars _ _ data h.vars (length_of_handling horderly.following hmain)
    · rw [hvars]
      exact h.vars
  · rcases step_main_or_aside horderly.exclusive hstep with hmain | haside
    · exact hmain.scripted h.scripted
    · rw [haside.main]
      exact h.scripted
  · cases call_of_step hstep hx with
    | @same _ y phase hy => exact h.calls t y hy
    | main hmain hpoint _ =>
        exact (begins_of_pointStep hpoint hx).given hP horderly.following h hmain
    | beat number _ => exact hP.beat _ _ _ _
  · rcases sends_of_step hstep with hsame | ⟨t, x, -, hx, -, hsent⟩
    · rw [hsame]
      exact h.sent
    · rw [hsent]
      intro y hy
      rcases List.mem_append.mp hy with hy | hy
      · exact h.sent y hy
      · rw [List.mem_singleton.mp hy]
        exact h.calls t x hx

theorem given_of_reaches (hP : P.Gives L Q) (h : Reaches (step P) (P.start c) s) :
    Given P L Q s := by
  have hboth : Orderly P c s ∧ Given P L Q s := by
    refine h.invariant (I := fun s => Orderly P c s ∧ Given P L Q s) ?_
      ⟨orderly_start c, given_start hP c⟩
    rintro s l s' ⟨horderly, hgiven⟩ hstep
    exact ⟨horderly.step hstep, hgiven.step hP horderly (step_cases hstep)⟩
  exact hboth.2

end Contents

section Beats

variable [DecidableEq β] [Fintype β] {l : Label β} {b : β} {c : Clock}

/-- A thread that begins to send has built its message in that step. -/
theorem built_of_step {x : Sending β} (h : Step P s l s') (hnone : s.sending? (.beat b) = none)
    (hx : s'.sending? (.beat b) = some x) : ∃ choice, l = .move (.beat b) choice ∧
      x = .data (.beat b) (P.build b (s.counters b) s.clock.nowMs choice.number) := by
  have hmove (s₁ : State β V W) (t : Thread β) (phase : Phase)
      (hcalls : s₁.sending? (.beat b) = none)
      (hx : (s₁.moveSending t phase).sending? (.beat b) = some x) : False := by
    rw [sending?_moveSending] at hx
    split at hx
    next ht =>
      rw [← ht, hcalls] at hx
      cases hx
    · cases hcalls.symm.trans hx
  cases h with
  | arrive | hangUp | time => cases hnone.symm.trans hx
  | acquire | test | refuse => exact (hmove _ _ _ hnone hx).elim
  | @write t n y rest hy =>
      obtain ⟨s₁, hs₁, -, hcalls⟩ := wrote_eq (s := s) t n y rest
      rw [hs₁] at hx
      exact (hmove _ _ _ ((hcalls _).trans hnone) hx).elim
  | @release t choice y result hy hphase =>
      have hcalls : ∀ t, State.sending? { s with
          mutex := if y.origin = .control then s.mutex else none } t = s.sending? t := by
        intro t
        cases t <;> rfl
      rw [sending?_returned ((hcalls t).trans hy), hcalls, hnone, ite_self] at hx
      cases hx
  | point hmain hpoint =>
      have hbefore := (calls_of_pointStep hpoint).2.1 (.beat b) x nofun hx
      cases hnone.symm.trans hbefore
  | watch hwatch =>
      have hbeats := (watchStep_fields hwatch).2.2
      cases hnone.symm.trans ((congrArg Beat.call? (congrFun hbeats b)).symm.trans hx)
  | @beat b' choice s' hidle hbeat =>
      by_cases hb : b = b'
      · subst hb
        refine ⟨choice, rfl, ?_⟩
        cases hbeats : s.beats b with
        | build =>
            rw [hbeats] at hbeat
            cases hbeat
            rw [sending?_withBeat, if_pos rfl] at hx
            exact (Option.some.inj hx).symm
        | loop | recheck =>
            rw [hbeats] at hbeat
            cases hbeat
            rw [sending?_withBeat, if_pos rfl] at hx
            split at hx <;> cases hx
        | asleep | clear =>
            rw [hbeats] at hbeat
            cases hbeat
            rw [sending?_withBeat, if_pos rfl] at hx
            cases hx
        | unborn | sending | done =>
            rw [hbeats] at hbeat
            cases hbeat
      · have hother (s₁ : State β V W) (y : Beat β) (hcalls : s₁.sending? (.beat b) = none) :
            (s₁.withBeat b' y).sending? (.beat b) = none := by
          rw [sending?_withBeat, if_neg (by simpa using hb), hcalls]
        rcases hbeats : s.beats b' <;> rw [hbeats] at hbeat <;> cases hbeat <;>
          cases (hother _ _ hnone).symm.trans hx

/-- What the program gives to every message that a thread builds in a step that the schedule
admits, everything that the thread has sent has. -/
theorem sent_of_along {Q : Ws.Frame → Prop} {A : State β V W → Label β → Prop}
    {ls : List (Label β)}
    (hbuild : ∀ s choice, A s (.move (.beat b) choice) →
      Q ⟨true, 2, P.build b (s.counters b) s.clock.nowMs choice.number⟩)
    (halong : Along (step P) A (P.start c) ls) (hrun : run (step P) (P.start c) ls = some s) :
    ∀ f, (.beat b, f) ∈ s.sent → Q f := by
  have hall : Orderly P c s ∧ (∀ x, s.sending? (.beat b) = some x → Q x.frame) ∧
      ∀ f, (.beat b, f) ∈ s.sent → Q f := by
    refine halong.invariant (I := fun s => Orderly P c s ∧
      (∀ x, s.sending? (.beat b) = some x → Q x.frame) ∧ ∀ f, (.beat b, f) ∈ s.sent → Q f) ?_ hrun
      ⟨orderly_start c, nofun, nofun⟩
    rintro s l s' ⟨horderly, hcalls, hsent⟩ hadmits hstep
    have hcases := step_cases hstep
    refine ⟨horderly.step hstep, fun x hx => ?_, fun f hf => ?_⟩
    · cases hbefore : s.sending? (.beat b) with
      | none =>
          obtain ⟨choice, rfl, rfl⟩ := built_of_step hcases hbefore hx
          exact hbuild s choice hadmits
      | some y =>
          have hcall := call_of_step hcases hx
          generalize ht : Thread.beat b = t at hcall
          cases hcall with
          | @same _ y' phase hy => exact hcalls y' (ht ▸ hy)
          | main => cases ht
          | beat number hb =>
              cases ht
              rw [State.sending?, hb] at hbefore
              cases hbefore
    · rcases sends_of_step hcases with hsame | ⟨t, x, -, hx, -, hmore⟩
      · exact hsent f (hsame ▸ hf)
      · rw [hmore] at hf
        rcases List.mem_append.mp hf with hf | hf
        · exact hsent f hf
        · obtain ⟨horigin, rfl⟩ := Prod.mk.inj (List.mem_singleton.mp hf)
          have hthread : Thread.beat b = t := by
            rw [← (horderly.exclusive t x hx).1, ← horigin]
            rfl
          exact hcalls x (hthread ▸ hx)
  exact hall.2.2

end Beats

end HelloWebsocket.Cpp.Threads
