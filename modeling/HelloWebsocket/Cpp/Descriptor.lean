import HelloWebsocket.Cpp.Refinement

/-!
# The descriptor of a C++ session

`handleClient` clears `active`, closes the socket and then joins the other threads. A
thread that has passed its test of `active` before goes on to `send` or `shutdown` with
the number of the closed descriptor, which may be that of the next connection by then.
The descriptor is used no more exactly if no thread is in such a place at the close.
-/

namespace HelloWebsocket.Cpp.Threads

open Ws Transitions

variable {β V W : Type} {P : Program β V W} {s s' : State β V W}

section Flags

/-- The descriptor is misused only after it has been closed, and `active` is set only once. -/
structure Later (s s' : State β V W) : Prop where
  active : s.active = false → s'.active = false
  closed : s'.closed = s.closed ∨ s'.closed = true
  misused : s'.misused = true → s.misused = true ∨ s.closed = true

theorem later_of_eq (hactive : s'.active = s.active) (hclosed : s'.closed = s.closed)
    (hmisused : s'.misused = s.misused) : Later s s' :=
  ⟨fun h => hactive.trans h, .inl hclosed, fun h => .inl (hmisused ▸ h)⟩

theorem later_used (hactive : s'.active = s.active) (hclosed : s'.closed = s.closed)
    (hmisused : s'.misused = (s.misused || s.closed)) : Later s s' :=
  ⟨fun h => hactive.trans h, .inl hclosed, fun h => by rwa [hmisused, Bool.or_eq_true] at h⟩

theorem later_of_watchStep (h : watchStep P s = some s') : Later s s' := by
  rw [watchStep] at h
  split at h <;> cases h
  case h_5 => exact ⟨fun _ => rfl, .inl rfl, .inl⟩
  case h_6 => exact later_used rfl rfl rfl
  all_goals exact later_of_eq rfl rfl rfl

variable [Fintype β]

theorem later_of_pointStep {key : Key} {p : Point} (h : PointStep P s key p s') : Later s s' := by
  cases h with
  | begin | loop | exhausted | refused | handle => exact later_of_eq rfl rfl rfl
  | stop => exact ⟨fun _ => rfl, .inl rfl, .inl⟩
  | @prologue call rest => cases call <;> exact later_of_eq rfl rfl rfl
  | @frame a f b rest =>
      obtain ⟨m, consumed, hm⟩ := frameStep_eq (P := P) (s := { s with inbox := rest }) key a b f
      rw [hm]
      exact later_of_eq rfl rfl rfl
  | @epilogue call rest _ hcall =>
      cases call with
      | clear =>
          cases hcall
          exact ⟨fun _ => rfl, .inl rfl, .inl⟩
      | close =>
          cases hcall
          exact ⟨id, .inr rfl, .inl⟩
      | join =>
          obtain ⟨-, hcall⟩ := Option.ite_none_right_eq_some.mp hcall
          cases hcall
          exact later_of_eq rfl rfl rfl
      | send | control =>
          cases hcall
          exact later_of_eq rfl rfl rfl

variable [DecidableEq β] {l : Label β}

theorem later_of_step (h : Step P s l s') : Later s s' := by
  cases h with
  | arrive | hangUp | time | acquire | test | release => exact later_of_eq rfl rfl rfl
  | refuse => exact later_used rfl rfl rfl
  | write =>
      rw [wrote]
      split
      · exact later_used rfl rfl rfl
      · exact later_of_eq rfl rfl rfl
  | @beat b choice _ _ hbeat =>
      cases hy : s.beats b with
      | clear =>
          rw [hy] at hbeat
          cases hbeat
          exact ⟨fun _ => rfl, .inl rfl, .inl⟩
      | loop | asleep | recheck | build =>
          rw [hy] at hbeat
          cases hbeat
          exact later_of_eq rfl rfl rfl
      | unborn | sending | done =>
          rw [hy] at hbeat
          cases hbeat
  | watch hwatch => exact later_of_watchStep hwatch
  | point _ hpoint => exact later_of_pointStep hpoint

end Flags

section Ending

/-- How far the main thread is with the calls after its loop. -/
structure Ending (P : Program β V W) (s : State β V W) : Prop where
  place : s.main.point.Over → (s.main.point = .epilogue P.epilogue ∧ s.closed = false) ∨
    (s.active = false ∧ ∃ rest, s.main = .standing (.epilogue rest) ∧
      ((rest = [.close, .join] ∧ s.closed = false) ∨ rest = [.join] ∨ rest = []))
  calls : ∀ x k k', s.main = .sending x k k' → k' = k ∨ k' = .epilogue P.epilogue
  misused : s.misused = true → s.closed = true

theorem ending_start (c : Clock) : Ending P (P.start c) where
  place := by
    rintro ⟨rest, hbad⟩
    cases hbad
  calls := calls_of_standing rfl
  misused hbad := by cases hbad

theorem Later.misused_closed (hlater : Later s s') (h : s.misused = true → s.closed = true) :
    s'.misused = true → s'.closed = true := by
  intro hmisused
  have hclosed : s.closed = true := (hlater.misused hmisused).elim h id
  rcases hlater.closed with hsame | htrue
  · rw [hsame, hclosed]
  · exact htrue

theorem Aside.ending (haside : Aside s s') (hlater : Later s s') (h : Ending P s) : Ending P s' where
  place hover := by
    rw [haside.main, haside.closed]
    rcases h.place (haside.main ▸ hover) with hfirst | ⟨hactive, hrest⟩
    · exact .inl hfirst
    · exact .inr ⟨hlater.active hactive, hrest⟩
  calls := by
    rw [haside.main]
    exact h.calls
  misused := hlater.misused_closed h.misused

/-- The main thread goes to its epilogue, or stays before it. -/
theorem ending_of_first (h : Ending P s) (hlater : Later s s') (hclosed : s'.closed = false)
    (hplace : s'.main.point.Over → s'.main.point = .epilogue P.epilogue)
    (hcalls : ∀ x k k', s'.main = .sending x k k' → k' = k ∨ k' = .epilogue P.epilogue) :
    Ending P s' :=
  ⟨fun hover => .inl ⟨hplace hover, hclosed⟩, hcalls, hlater.misused_closed h.misused⟩

theorem Ending.frame {key : Key} {a : Assembly} {f : Ws.Frame} {b rest : Bytes} (h : Ending P s)
    (hclosed : s.closed = false) :
    Ending P (frameStep P { s with inbox := rest } key a b f) := by
  have hkeep : ∀ (m : Main β) (consumed : Bytes), (m.point.Over → m.point = .epilogue P.epilogue) →
      (∀ x k k', m = .sending x k k' → k' = k ∨ k' = .epilogue P.epilogue) →
      Ending P { s with inbox := rest, consumed, main := m } := by
    intro m consumed hplace hcalls
    refine ending_of_first h ?_ hclosed hplace hcalls
    exact later_of_eq rfl rfl rfl
  cases hnext : a.next f with
  | none =>
      obtain ⟨m, hm, -, hm'⟩ := frameStep_of_refused (P := P) (s := { s with inbox := rest }) key
        hnext b
      rw [hm]
      apply hkeep
      · obtain ⟨x, -, rfl⟩ | rfl := hm' <;> exact fun _ => rfl
      · intro x k k' hcall
        obtain ⟨y, -, rfl⟩ | rfl := hm' <;> cases hcall
        exact .inl rfl
  | some y =>
      obtain ⟨m, hm, -, hm'⟩ := frameStep_of_next (P := P) (s := { s with inbox := rest }) key
        hnext b
      rw [hm]
      apply hkeep
      · rintro ⟨_, hbad⟩
        obtain ⟨x, a', rfl, -, rfl⟩ | rfl := hm'
        · cases hbad
        · cases y <;> cases hbad
      · intro x k k' hcall
        obtain ⟨y, a', -, -, rfl⟩ | rfl := hm' <;> cases hcall
        exact .inr rfl

variable [Fintype β]

theorem Ending.close {key : Key} {call : Closing} {rest : List Closing} (h : Ending P s)
    (hP : P.epilogue = [.clear, .close, .join]) (hmain : s.main = .standing (.epilogue (call :: rest)))
    (hcall : closeStep P s key (.epilogue rest) call = some s') : Ending P s' := by
  have hmisused := (later_of_pointStep (.epilogue hcall)).misused_closed h.misused
  have hplace := h.place (by rw [hmain]; exact ⟨_, rfl⟩)
  rw [hmain] at hplace
  rcases hplace with ⟨hfirst, hclosed⟩ | ⟨hactive, rest', heq, hrest⟩
  · rw [hP] at hfirst
    cases hfirst
    cases hcall
    exact ⟨fun _ => .inr ⟨rfl, _, rfl, .inl ⟨rfl, hclosed⟩⟩, calls_of_standing rfl, hmisused⟩
  · cases heq
    obtain ⟨hrest, -⟩ | hrest | hrest := hrest
    · cases hrest
      cases hcall
      exact ⟨fun _ => .inr ⟨hactive, _, rfl, .inr (.inl rfl)⟩, calls_of_standing rfl, hmisused⟩
    · cases hrest
      obtain ⟨-, hcall⟩ := Option.ite_none_right_eq_some.mp hcall
      cases hcall
      exact ⟨fun _ => .inr ⟨hactive, _, rfl, .inr (.inr rfl)⟩, calls_of_standing rfl, hmisused⟩
    · cases hrest

theorem Ending.point {p : Point} {key : Key} (h : Ending P s) (hplaced : Placed s)
    (hP : P.epilogue = [.clear, .close, .join]) (hmain : s.main = .standing p)
    (hstep : PointStep P s key p s') : Ending P s' := by
  have hlater := later_of_pointStep hstep
  have hopen : ¬ p.Over → s.closed = false := by
    intro hp
    apply not_closed_of_point hplaced
    rwa [hmain]
  cases hstep with
  | begin | stop => exact ending_of_first h hlater (hopen nofun) nofun (calls_of_standing rfl)
  | loop =>
      refine ending_of_first h hlater (hopen nofun) ?_ (calls_of_standing rfl)
      rintro ⟨rest, hrest⟩
      change (if s.active then Point.reading none else .epilogue P.epilogue) = _ at hrest ⊢
      split at hrest
      · cases hrest
      next hactive => rw [if_neg hactive]
  | exhausted | refused =>
      exact ending_of_first h hlater (hopen nofun) (fun _ => rfl) (calls_of_standing rfl)
  | @prologue call rest =>
      cases call with
      | spawn => exact ending_of_first h hlater (hopen nofun) nofun (calls_of_standing rfl)
      | send data =>
          refine ending_of_first h hlater (hopen nofun) nofun ?_
          intro x k k' hcall
          cases hcall
          exact .inl rfl
  | @handle data =>
      refine ending_of_first h hlater (hopen nofun) ?_ ?_
      · rintro ⟨rest, hrest⟩
        rw [point_handleStep] at hrest
        split at hrest <;> cases hrest
      · intro x k k' hcall
        rw [handleStep] at hcall
        cases hreply : (P.handle s.vars s.clock.nowMs data).reply with
        | none =>
            rw [hreply] at hcall
            cases hcall
        | some reply =>
            rw [hreply] at hcall
            cases hcall
            exact .inl rfl
  | epilogue hcall => exact h.close hP hmain hcall
  | frame => exact h.frame (hopen nofun)

variable [DecidableEq β]

theorem MainStep.ending (hstep : MainStep P s s') (hlater : Later s s') (hplaced : Placed s)
    (hP : P.epilogue = [.clear, .close, .join]) (h : Ending P s) : Ending P s' := by
  have hcall : ∀ x k k', s.main = .sending x k k' → (k.Over → k = .epilogue P.epilogue) ∧
      s.closed = false := by
    intro x k k' hmain
    have hplace := h.place
    rw [hmain] at hplace
    have hfirst : k.Over → k = .epilogue P.epilogue ∧ s.closed = false := by
      intro hover
      rcases hplace hover with hfirst | ⟨-, rest, hbad, -⟩
      · exact hfirst
      · cases hbad
    refine ⟨fun hover => (hfirst hover).1, ?_⟩
    by_cases hover : k.Over
    · exact (hfirst hover).2
    · apply not_closed_of_point hplaced
      rwa [hmain]
  cases hstep with
  | @acquire x k k' hmain | @test x k k' _ hmain | @refuse x k k' _ hmain =>
      obtain ⟨hk, hclosed⟩ := hcall x k k' hmain
      refine ending_of_first h hlater hclosed hk fun y j j' hy => ?_
      cases hy
      exact h.calls x k k' hmain
  | @write x k k' rest n hmain =>
      obtain ⟨hk, hclosed⟩ := hcall x k k' hmain
      obtain ⟨hmain', -, hclosed'⟩ := wrote_main n rest hmain
      refine ending_of_first h hlater (hclosed'.trans hclosed) ?_ fun y j j' hy => ?_
      · rw [hmain']
        exact hk
      · rw [hmain'] at hy
        cases hy
        exact h.calls x k k' hmain
  | @release x k k' result mutex hmain =>
      obtain ⟨hk, hclosed⟩ := hcall x k k' hmain
      refine ending_of_first h hlater hclosed ?_ (calls_of_standing rfl)
      change (if result then k else k').Over → (if result then k else k') = _
      split
      · exact hk
      · rcases h.calls x k k' hmain with rfl | rfl
        · exact hk
        · exact fun _ => rfl
  | point hmain hpoint => exact h.point hplaced hP hmain hpoint

theorem ending_of_reaches {c : Clock} (hP : P.epilogue = [.clear, .close, .join])
    (h : Reaches (step P) (P.start c) s) : Ending P s := by
  have hboth : Orderly P c s ∧ Ending P s := by
    refine h.invariant (I := fun s => Orderly P c s ∧ Ending P s) ?_
      ⟨orderly_start c, ending_start c⟩
    rintro s l s' ⟨horderly, hending⟩ hstep
    have hcases := step_cases hstep
    have hlater := later_of_step hcases
    refine ⟨horderly.step hstep, ?_⟩
    rcases step_main_or_aside horderly.exclusive hcases with hmain | haside
    · exact hmain.ending hlater horderly.placed hP hending
    · exact haside.ending hlater hending
  exact hboth.2

end Ending

section Exposure

/-- A thread has passed its test of `active` and may still use the descriptor. -/
def Exposed (P : Program β V W) (s : State β V W) : Prop :=
  (∃ b x rest, s.beats b = .sending x ∧ x.phase = .write rest) ∨
    s.watch = .clear ∨ s.watch = .shutdown ∨
    (s.watch = .check ∧ ∃ now : Clock, P.expired s.vars now.nowMs = true)

/-- The session has been left by its loop and no thread uses the descriptor again. -/
structure Harmless (P : Program β V W) (s : State β V W) : Prop where
  active : s.active = false
  main : ∃ rest, s.main = .standing (.epilogue rest) ∧
    (rest = [.close, .join] ∨ rest = [.join] ∨ rest = [])
  hidden : ¬ Exposed P s
  misused : s.misused = false

theorem Harmless.not_writing (h : Harmless P s) {t : Thread β} {x : Sending β} {rest : Bytes}
    (hx : s.sending? t = some x) : x.phase ≠ .write rest := by
  intro hphase
  cases t with
  | main =>
      obtain ⟨k, k', hmain⟩ := sending?_main_iff.mp hx
      obtain ⟨rest', hbad, -⟩ := h.main
      cases hmain.symm.trans hbad
  | beat b => exact h.hidden (.inl ⟨b, x, rest, sending?_beat_iff.mp hx, hphase⟩)
  | watch => cases hx

theorem exposed_congr (hbeats : s'.beats = s.beats) (hwatch : s'.watch = s.watch)
    (hvars : s'.vars = s.vars) : Exposed P s' ↔ Exposed P s := by
  rw [Exposed, Exposed, hbeats, hwatch, hvars]

theorem Harmless.keep (h : Harmless P s) (hactive : s'.active = s.active) (hmain : s'.main = s.main)
    (hmisused : s'.misused = s.misused) (hexposed : Exposed P s' → Exposed P s) : Harmless P s' where
  active := hactive.trans h.active
  main := by
    rw [hmain]
    exact h.main
  hidden hbad := h.hidden (hexposed hbad)
  misused := hmisused.trans h.misused

theorem Harmless.watchStep (h : Harmless P s) (hstep : watchStep P s = some s') : Harmless P s' := by
  have hbeats : ∀ b x rest, s.beats b = .sending x → x.phase ≠ .write rest :=
    fun b x rest hx hphase => h.hidden (.inl ⟨b, x, rest, hx, hphase⟩)
  have hmove : ∀ w : Watch, w = .loop ∨ w = .recheck ∨ w = .done →
      Harmless P { s with watch := w } := by
    intro w hw
    refine h.keep rfl rfl rfl ?_
    rintro (⟨b, x, rest, hx, hphase⟩ | hbad | hbad | ⟨hbad, -⟩)
    · exact absurd hphase (hbeats b x rest hx)
    all_goals
      change w = _ at hbad
      subst hbad
      simp at hw
  rw [Threads.watchStep] at hstep
  split at hstep
  next hw =>
    cases hstep
    exact hmove _ (.inr (.inr (by rw [h.active]; rfl)))
  · cases hstep
    exact hmove _ (.inr (.inl rfl))
  next hw =>
    cases hstep
    exact hmove _ (.inr (.inr (by rw [h.active]; rfl)))
  next hw =>
    have hnot : P.expired s.vars s.clock.nowMs = false := by
      rw [← Bool.not_eq_true]
      exact fun hbad => h.hidden (.inr (.inr (.inr ⟨hw, s.clock, hbad⟩)))
    cases hstep
    exact hmove _ (.inl (by rw [hnot]; rfl))
  next hw => exact absurd (.inr (.inl hw)) h.hidden
  next hw => exact absurd (.inr (.inr (.inl hw))) h.hidden
  · cases hstep
  · cases hstep

theorem Harmless.point [Fintype β] {p : Point} {key : Key} (h : Harmless P s) (hmain : s.main = .standing p)
    (hstep : PointStep P s key p s') : Harmless P s' := by
  obtain ⟨rest, hrest, hcases⟩ := h.main
  cases hmain.symm.trans hrest
  obtain rfl | rfl | rfl := hcases
  · cases hstep with
    | epilogue hcall =>
        cases hcall
        exact ⟨h.active, ⟨_, rfl, .inr (.inl rfl)⟩, h.hidden, h.misused⟩
  · cases hstep with
    | epilogue hcall =>
        obtain ⟨-, hcall⟩ := Option.ite_none_right_eq_some.mp hcall
        cases hcall
        exact ⟨h.active, ⟨_, rfl, .inr (.inr rfl)⟩, h.hidden, h.misused⟩
  · cases hstep

variable [DecidableEq β]

/-- A thread other than the main one changes its place, but not to one inside `sendAll`. -/
theorem Harmless.withBeat (h : Harmless P s) {b : β} {y : Beat β}
    (hy : ∀ x rest, y = .sending x → x.phase ≠ .write rest) : Harmless P (s.withBeat b y) := by
  refine h.keep rfl rfl rfl ?_
  rintro (⟨b', x, rest, hx, hphase⟩ | hwatch)
  · refine .inl ⟨b', x, rest, ?_, hphase⟩
    change Function.update s.beats b y b' = _ at hx
    by_cases hb : b' = b
    · subst hb
      rw [Function.update_self] at hx
      exact absurd hphase (hy x rest hx)
    · rwa [Function.update_of_ne hb] at hx
  · exact .inr hwatch

theorem Harmless.moveSending (h : Harmless P s) {t : Thread β} {x : Sending β} {phase : Phase}
    (hx : s.sending? t = some x) (hphase : ∀ rest, phase ≠ .write rest) :
    Harmless P (s.moveSending t phase) := by
  cases t with
  | main =>
      obtain ⟨k, k', hmain⟩ := sending?_main_iff.mp hx
      obtain ⟨rest, hbad, -⟩ := h.main
      cases hmain.symm.trans hbad
  | beat b =>
      refine h.withBeat (b := b) (y := (s.beats b).moved phase) fun y rest hy => ?_
      rw [sending?_beat_iff.mp hx] at hy
      cases hy
      exact hphase rest
  | watch => cases hx

variable [Fintype β]

theorem Harmless.step {l : Label β} (h : Harmless P s) (hstep : Step P s l s') : Harmless P s' := by
  cases hstep with
  | arrive | hangUp | time => exact h.keep rfl rfl rfl id
  | @acquire t choice x hx =>
      have hlocked : Harmless P { s with mutex := some t } := h.keep rfl rfl rfl id
      exact hlocked.moveSending (x := x) (by rw [← hx]; cases t <;> rfl) nofun
  | test hx =>
      rw [h.active]
      exact h.moveSending hx nofun
  | @release t choice x result hx =>
      cases t with
      | main =>
          obtain ⟨k, k', hmain⟩ := sending?_main_iff.mp hx
          obtain ⟨rest, hbad, -⟩ := h.main
          cases hmain.symm.trans hbad
      | beat b =>
          have hreturned : Harmless P (s.withBeat b (if result then .loop else .clear)) := by
            refine h.withBeat fun y rest hy => ?_
            split at hy <;> cases hy
          exact hreturned.keep rfl rfl rfl id
      | watch => cases hx
  | write hx hphase => exact absurd hphase (h.not_writing hx)
  | refuse hx hphase => exact absurd hphase (h.not_writing hx)
  | point hmain hpoint => exact h.point hmain hpoint
  | @beat b choice _ _ hbeat =>
      cases hy : s.beats b with
      | loop | recheck =>
          rw [hy] at hbeat
          cases hbeat
          refine h.withBeat fun x rest hx => ?_
          split at hx <;> cases hx
      | asleep =>
          rw [hy] at hbeat
          cases hbeat
          exact h.withBeat nofun
      | build =>
          rw [hy] at hbeat
          cases hbeat
          refine h.withBeat fun x rest hx => ?_
          cases hx
          exact nofun
      | clear =>
          rw [hy] at hbeat
          cases hbeat
          have hint : Harmless P s.interrupt := h.keep h.active.symm rfl rfl id
          exact hint.withBeat nofun
      | unborn | sending | done =>
          rw [hy] at hbeat
          cases hbeat
  | watch hwatch => exact h.watchStep hwatch

theorem harmless_of_reaches (h : Harmless P s) (hreach : Reaches (Threads.step P) s s') :
    Harmless P s' :=
  hreach.invariant (fun _ _ _ hharmless hstep => hharmless.step (step_cases hstep)) h

/-- Some schedule uses the descriptor after it has been closed. -/
def Misusable (P : Program β V W) (s : State β V W) : Prop :=
  ∃ s', Reaches (Threads.step P) s s' ∧ s'.misused = true

theorem Misusable.of_step {l : Label β} (hstep : Threads.step P s l = some s')
    (h : Misusable P s') : Misusable P s := by
  obtain ⟨s'', hreach, hmisused⟩ := h
  exact ⟨s'', ((Reaches.refl s).tail hstep).trans hreach, hmisused⟩

theorem step_of_watch (choice : Choice) :
    Threads.step P s (.move .watch choice) = Threads.watchStep P s := by
  rw [Threads.step, moveStep.eq_def]
  rfl

theorem misusable_of_shutdown (hclosed : s.closed = true) (hwatch : s.watch = .shutdown)
    (choice : Choice) : Misusable P s := by
  have hstep : Threads.step P s (.move .watch choice) =
      some { s.used with shut := true, watch := .done } := by
    rw [step_of_watch, Threads.watchStep, hwatch]
  refine ⟨_, (Reaches.refl s).tail hstep, ?_⟩
  change (s.misused || s.closed) = true
  rw [hclosed, Bool.or_true]

theorem misusable_of_clear (hclosed : s.closed = true) (hwatch : s.watch = .clear)
    (choice : Choice) : Misusable P s := by
  have hstep : Threads.step P s (.move .watch choice) =
      some { s.interrupt with watch := .shutdown } := by
    rw [step_of_watch, Threads.watchStep, hwatch]
  refine .of_step hstep ?_
  exact misusable_of_shutdown hclosed rfl choice

/-- The clock can be set to any time. -/
theorem exists_moved (c now : Clock) :
    ∃ adjustment c', c.moved 0 adjustment = some c' ∧ c'.nowMs = now.nowMs := by
  have hsum : ((c.elapsed + 0 : Nat) : Int) + (c.offset + (now.wall - c.wall)) = now.wall := by
    rw [Clock.wall, Clock.wall]
    omega
  have hrange : |((c.elapsed + 0 : Nat) : Int) + (c.offset + (now.wall - c.wall))| ≤
      9223372036854 := by
    rw [hsum]
    exact now.inRange
  exact ⟨now.wall - c.wall, _, dif_pos hrange, congrArg Int64.ofInt hsum⟩

theorem misusable_of_check (hclosed : s.closed = true) (hwatch : s.watch = .check) {now : Clock}
    (hexpired : P.expired s.vars now.nowMs = true) (choice : Choice) : Misusable P s := by
  obtain ⟨adjustment, c, hmoved, hnow⟩ := exists_moved s.clock now
  have htime : Threads.step P s (.time 0 adjustment) = some { s with clock := c } := by
    rw [Threads.step, hmoved]
    rfl
  have hcheck : Threads.step P { s with clock := c } (.move .watch choice) =
      some { s with clock := c, watch := .clear } := by
    rw [step_of_watch, Threads.watchStep]
    simp only [hwatch, hnow, hexpired, if_true]
  refine .of_step htime (.of_step hcheck ?_)
  exact misusable_of_clear hclosed rfl choice

theorem misusable_of_write {b : β} {x : Sending β} {rest : Bytes} (hclosed : s.closed = true)
    (hbeat : s.beats b = .sending x) (hphase : x.phase = .write rest) : Misusable P s := by
  have hstep : Threads.step P s (.refuse (.beat b)) =
      some ({ s.used with broken := true }.moveSending (.beat b) (.release false)) := by
    rw [Threads.step, sending?_beat_iff.mpr hbeat, Option.bind_some, refuseStep, hphase]
  refine ⟨_, (Reaches.refl s).tail hstep, ?_⟩
  change (s.misused || s.closed) = true
  rw [hclosed, Bool.or_true]

theorem misusable_of_exposed (hmain : s.main = .standing (.epilogue [.close, .join]))
    (h : Exposed P s) : Misusable P s := by
  let choice : Choice := ⟨0, ⟨[0, 0, 0, 0], rfl⟩⟩
  have hclose : Threads.step P s (.move .main choice) =
      some { s.goto (.epilogue [.join]) with closed := true } := by
    rw [step_of_point hmain, pointStep, closeStep]
  refine .of_step hclose ?_
  rcases h with ⟨b, x, rest, hbeat, hphase⟩ | hclear | hshutdown | ⟨hcheck, now, hexpired⟩
  · exact misusable_of_write rfl hbeat hphase
  · exact misusable_of_clear rfl hclear choice
  · exact misusable_of_shutdown rfl hshutdown choice
  · exact misusable_of_check rfl hcheck hexpired choice

/-- A session about to close its descriptor uses it no more exactly if no thread is exposed. -/
theorem unused_iff_not_exposed {c : Clock} (hP : P.epilogue = [.clear, .close, .join])
    (hreach : Reaches (Threads.step P) (P.start c) s)
    (hmain : s.main = .standing (.epilogue [.close, .join])) :
    (∀ s', Reaches (Threads.step P) s s' → s'.misused = false) ↔ ¬ Exposed P s := by
  constructor
  · intro hunused hexposed
    obtain ⟨s', hreach', hmisused⟩ := misusable_of_exposed hmain hexposed
    cases (hunused s' hreach').symm.trans hmisused
  · intro hhidden s' hreach'
    have hending := ending_of_reaches hP hreach
    rcases hending.place (by rw [hmain]; exact ⟨_, rfl⟩) with ⟨hbad, -⟩ | ⟨hactive, rest, hrest, hcases⟩
    · rw [hmain, hP] at hbad
      cases hbad
    · cases hmain.symm.trans hrest
      obtain ⟨-, hopen⟩ | hbad | hbad := hcases
      · have hclean : s.misused = false := by
          rw [← Bool.not_eq_true]
          exact fun hbad => by cases hopen.symm.trans (hending.misused hbad)
        exact (harmless_of_reaches ⟨hactive, ⟨_, hmain, .inl rfl⟩, hhidden, hclean⟩ hreach').misused
      · cases hbad
      · cases hbad

end Exposure

end HelloWebsocket.Cpp.Threads

namespace HelloWebsocket.Cpp.Server

open Threads Transitions

section Descriptor

variable {c : Clock} {s : State Background Vars Unit}

/-- From the close on, no thread of a session uses the descriptor exactly if none is inside
`wsSendBinary` then and the timeout thread has not passed its test of `active`, or has and can never
find the session timed out. -/
theorem clientSock_unused_iff (hreach : Reaches (step server) (server.start c) s)
    (hmain : s.main = .standing (.epilogue [.close, .join])) :
    (∀ s', Reaches (step server) s s' → s'.misused = false) ↔ ¬ Exposed server s :=
  unused_iff_not_exposed rfl hreach hmain

/-- The threads are started, the ping thread goes through some steps, and the client hangs up: the
main thread leaves its loop and clears `active`. -/
def hangUpAfter (n : Nat) : List (Label Background) :=
  let idle : Choice := ⟨0, .zero⟩
  List.replicate 3 (.move .main idle) ++ List.replicate n (.move (.beat .ping) idle) ++
    [.hangUp, .move .main idle, .move .main idle]

/-- The ping thread has found the session active; the main thread closes the descriptor; the ping
thread writes. -/
theorem clientSock_misused : ∃ s : State Background Vars Unit,
    Reaches (step server) (server.start ⟨0, 0, by decide⟩) s ∧ s.closed = true ∧ s.misused = true := by
  let idle : Choice := ⟨0, ⟨[0, 0, 0, 0], rfl⟩⟩
  have hrun : ∃ s : State Background Vars Unit,
      Reaches (step server) (server.start ⟨0, 0, by decide⟩) s ∧
        (s.closed && s.misused) = true :=
    exists_reaches_of_run (hangUpAfter 6 ++ [.move .main idle, .write (.beat .ping) 1])
      (by decide +kernel)
  obtain ⟨s, hreach, hs⟩ := hrun
  exact ⟨s, hreach, (Bool.and_eq_true_iff.mp hs).1, (Bool.and_eq_true_iff.mp hs).2⟩

/-- The main thread is about to close the socket. -/
def Main.closing : Main Background → Bool
  | .standing (.epilogue [.close, .join]) => true
  | _ => false

/-- With the ping thread asleep nothing happens to the closed descriptor. -/
theorem clientSock_unused_asleep : ∃ s : State Background Vars Unit,
    Reaches (step server) (server.start ⟨0, 0, by decide⟩) s ∧
      s.main = .standing (.epilogue [.close, .join]) ∧
      ((∀ s', Reaches (step server) s s' → s'.misused = false) ↔ ¬ Exposed server s) := by
  have hrun : ∃ s : State Background Vars Unit,
      Reaches (step server) (server.start ⟨0, 0, by decide⟩) s ∧
        Main.closing s.main = true :=
    exists_reaches_of_run (hangUpAfter 1) (by decide +kernel)
  obtain ⟨s, hreach, hs⟩ := hrun
  unfold Main.closing at hs
  split at hs
  next hmain => exact ⟨s, hreach, hmain, clientSock_unused_iff hreach hmain⟩
  · cases hs

end Descriptor

end HelloWebsocket.Cpp.Server
