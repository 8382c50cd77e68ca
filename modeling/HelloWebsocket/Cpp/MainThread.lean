import HelloWebsocket.Cpp.Exclusion
import HelloWebsocket.Ws.Sequence

/-!
# The main thread of a C++ session

What the other threads can do to the main thread is little: they may clear `active`,
break the connection or put frames of their own on it. So what the main thread has
read, handled and answered is told by its own steps. The messages it has handled come
first among the messages of the stream, the answers it has written come first among
the answers to them, and nothing is missing unless the session was interrupted or a
call of `send` was refused.
-/

namespace HelloWebsocket.Cpp.Threads

open Ws Reactors

variable {β V W : Type} {P : Program β V W} {s s' : State β V W}

section Views

/-- What the main thread goes on with. -/
def Main.point : Main β → Point
  | .standing p => p
  | .sending _ success _ => success

/-- The message that the main thread is about to handle. -/
def Main.handling? : Main β → Option Bytes
  | .standing (.handling data) => some data
  | _ => none

theorem Main.handling?_eq_some_iff {m : Main β} {data : Bytes} :
    m.handling? = some data ↔ m = .standing (.handling data) := by
  constructor
  · intro h
    unfold handling? at h
    split at h <;> cases h
    rfl
  · rintro rfl
    rfl

/-- The answer that the main thread is sending. -/
def Main.pending : Main β → List Bytes
  | .sending ⟨.reply, _, .release _⟩ _ _ => []
  | .sending ⟨.reply, f, _⟩ _ _ => [f.payload]
  | _ => []

variable [DecidableEq β]

/-- The answers among some frames. -/
def repliesOf (frames : List (Origin β × Ws.Frame)) : List Bytes :=
  (frames.filter fun y => y.1 = .reply).map fun y => y.2.payload

/-- The answers that have been written to their end. -/
def State.replies (s : State β V W) : List Bytes := repliesOf s.sent

theorem repliesOf_append (ys zs : List (Origin β × Ws.Frame)) :
    repliesOf (ys ++ zs) = repliesOf ys ++ repliesOf zs := by
  rw [repliesOf, List.filter_append, List.map_append]
  rfl

theorem repliesOf_eq_nil {ys : List (Origin β × Ws.Frame)} (h : ∀ y ∈ ys, y.1 ≠ .reply) :
    repliesOf ys = [] := by
  rw [repliesOf, List.filter_eq_nil_iff.mpr (by simpa using h)]
  rfl

end Views

section Separation

/-- A step of which the main thread notices no more than this. -/
structure Aside (s s' : State β V W) : Prop where
  main : s'.main = s.main
  vars : s'.vars = s.vars
  handled : s'.handled = s.handled
  consumed : s'.consumed = s.consumed
  closed : s'.closed = s.closed
  stream : (s'.inbox = s.inbox ∧ s'.arrived = s.arrived) ∨
    (s.ended = false ∧ ∃ b, s'.inbox = s.inbox ++ b ∧ s'.arrived = s.arrived ++ b)
  ended : s.ended = true → s'.ended = true
  active : (s'.active = s.active ∧ s'.interrupted = s.interrupted) ∨
    (s'.active = false ∧ s'.interrupted = (s.interrupted || s.active))
  broken : s.broken = true → s'.broken = true
  sent : ∃ added, s'.sent = s.sent ++ added ∧ ∀ y ∈ added, ∃ b, y.1 = .beat b

/-- A step that changes neither the stream nor `active` nor what has been sent. -/
theorem aside_of_eq (hmain : s'.main = s.main) (hvars : s'.vars = s.vars)
    (hhandled : s'.handled = s.handled) (hconsumed : s'.consumed = s.consumed)
    (hclosed : s'.closed = s.closed) (hinbox : s'.inbox = s.inbox)
    (harrived : s'.arrived = s.arrived) (hended : s.ended = true → s'.ended = true)
    (hactive : s'.active = s.active) (hinterrupted : s'.interrupted = s.interrupted)
    (hbroken : s.broken = true → s'.broken = true) (hsent : s'.sent = s.sent) : Aside s s' :=
  ⟨hmain, hvars, hhandled, hconsumed, hclosed, .inl ⟨hinbox, harrived⟩, hended,
    .inl ⟨hactive, hinterrupted⟩, hbroken, [], by rw [hsent, List.append_nil], nofun⟩

theorem aside_of_watchStep (h : watchStep P s = some s') : Aside s s' := by
  rw [watchStep] at h
  split at h <;> cases h
  case h_5 =>
    exact ⟨rfl, rfl, rfl, rfl, rfl, .inl ⟨rfl, rfl⟩, id, .inr ⟨rfl, rfl⟩, id, [],
      (List.append_nil _).symm, List.forall_mem_nil _⟩
  all_goals exact aside_of_eq rfl rfl rfl rfl rfl rfl rfl id rfl rfl id rfl

variable [DecidableEq β]

theorem aside_of_beatStep {b : β} {number : Int64} {y : Beat β}
    (h : beatStep P s b number y = some s') : Aside s s' := by
  cases y with
  | clear =>
      cases h
      exact ⟨rfl, rfl, rfl, rfl, rfl, .inl ⟨rfl, rfl⟩, id, .inr ⟨rfl, rfl⟩, id, [],
        (List.append_nil _).symm, nofun⟩
  | loop | asleep | recheck | build =>
      cases h
      exact aside_of_eq rfl rfl rfl rfl rfl rfl rfl id rfl rfl id rfl
  | unborn | sending | done => cases h

/-- A step of the main thread. -/
inductive MainStep [Fintype β] (P : Program β V W) (s : State β V W) : State β V W → Prop
  | acquire {x k k'} (hmain : s.main = .sending x k k') (hphase : x.phase = .acquire) :
      MainStep P s { s with mutex := some .main, main := .sending { x with phase := .test } k k' }
  | test {x k k' key} (hmain : s.main = .sending x k k') (hphase : x.phase = .test) :
      MainStep P s { s with main := .sending { x with
        phase := if s.active then .write (P.octets key x.frame) else .release false } k k' }
  | release {x k k' result mutex} (hmain : s.main = .sending x k k')
      (hphase : x.phase = .release result) :
      MainStep P s { s with mutex := mutex, main := .standing (if result then k else k') }
  | write {x k k' rest n} (hmain : s.main = .sending x k k') (hphase : x.phase = .write rest)
      (hbroken : s.broken = false) : MainStep P s (wrote s .main n x rest)
  | refuse {x k k' rest} (hmain : s.main = .sending x k k') (hphase : x.phase = .write rest) :
      MainStep P s { s.used with
        broken := true
        main := .sending { x with phase := .release false } k k' }
  | point {p key s'} (hmain : s.main = .standing p) (hstep : PointStep P s key p s') :
      MainStep P s s'

variable [Fintype β] {l : Label β}

/-- Every step is one of the main thread or one that it hardly notices. -/
theorem step_main_or_aside (hex : Exclusive s) (h : Step P s l s') :
    MainStep P s s' ∨ Aside s s' := by
  cases h with
  | arrive hended =>
      exact .inr ⟨rfl, rfl, rfl, rfl, rfl, .inr ⟨hended, _, rfl, rfl⟩, id, .inl ⟨rfl, rfl⟩, id, [],
        (List.append_nil _).symm, nofun⟩
  | hangUp => exact .inr (aside_of_eq rfl rfl rfl rfl rfl rfl rfl (fun _ => rfl) rfl rfl id rfl)
  | time => exact .inr (aside_of_eq rfl rfl rfl rfl rfl rfl rfl id rfl rfl id rfl)
  | @acquire t choice x hx hphase hfree =>
      cases t with
      | main =>
          obtain ⟨k, k', hmain⟩ := sending?_main_iff.mp hx
          have hmove : State.moveSending { s with mutex := some .main } .main .test =
              { s with mutex := some .main, main := .sending { x with phase := .test } k k' } := by
            rw [State.moveSending, hmain]
            rfl
          rw [hmove]
          exact .inl (.acquire hmain hphase)
      | beat b => exact .inr (aside_of_eq rfl rfl rfl rfl rfl rfl rfl id rfl rfl id rfl)
      | watch => cases hx
  | @test t choice x hx hphase =>
      cases t with
      | main =>
          obtain ⟨k, k', hmain⟩ := sending?_main_iff.mp hx
          refine .inl ?_
          rw [State.moveSending, hmain]
          exact .test hmain hphase
      | beat b => exact .inr (aside_of_eq rfl rfl rfl rfl rfl rfl rfl id rfl rfl id rfl)
      | watch => cases hx
  | @release t choice x result hx hphase =>
      cases t with
      | main =>
          obtain ⟨k, k', hmain⟩ := sending?_main_iff.mp hx
          refine .inl ?_
          rw [returned, hmain]
          exact .release hmain hphase
      | beat b => exact .inr (aside_of_eq rfl rfl rfl rfl rfl rfl rfl id rfl rfl id rfl)
      | watch => cases hx
  | @write t n x rest hx hphase hpos hle hbroken hshut =>
      cases t with
      | main =>
          obtain ⟨k, k', hmain⟩ := sending?_main_iff.mp hx
          exact .inl (.write hmain hphase hbroken)
      | beat b =>
          refine .inr ?_
          obtain ⟨horigin, -⟩ := hex _ _ hx
          have hbeat : x.origin = .beat b := by
            cases ho : x.origin <;> rw [ho] at horigin <;> cases horigin
            rfl
          cases hclosed : s.closed with
          | true =>
              rw [wrote_of_closed hclosed]
              exact aside_of_eq rfl rfl rfl rfl rfl rfl rfl id rfl rfl id rfl
          | false =>
              rw [wrote_of_open hclosed]
              refine ⟨rfl, rfl, rfl, rfl, rfl, .inl ⟨rfl, rfl⟩, id, .inl ⟨rfl, rfl⟩, id,
                if n = rest.length then [(x.origin, x.frame)] else [], ?_, ?_⟩
              · change (if n = rest.length then s.sent ++ [(x.origin, x.frame)] else s.sent) = _
                split
                · rfl
                · exact (List.append_nil _).symm
              · intro y hy
                split at hy
                · rw [List.mem_singleton.mp hy]
                  exact ⟨b, hbeat⟩
                · cases hy
      | watch => cases hx
  | @refuse t x rest hx hphase =>
      cases t with
      | main =>
          obtain ⟨k, k', hmain⟩ := sending?_main_iff.mp hx
          refine .inl ?_
          have hmove : State.moveSending { s.used with broken := true } .main (.release false) =
              { s.used with
                broken := true
                main := .sending { x with phase := .release false } k k' } := by
            rw [State.moveSending, show State.main { s.used with broken := true } = s.main from rfl,
              hmain]
            rfl
          rw [hmove]
          exact .refuse hmain hphase
      | beat b =>
          exact .inr (aside_of_eq rfl rfl rfl rfl rfl rfl rfl id rfl rfl (fun _ => rfl) rfl)
      | watch => cases hx
  | point hmain hstep => exact .inl (.point hmain hstep)
  | beat hidle hstep => exact .inr (aside_of_beatStep hstep)
  | watch hstep => exact .inr (aside_of_watchStep hstep)

end Separation

section Places

/-- The receive loop has been left. -/
def Point.Over (p : Point) : Prop := ∃ rest, p = .epilogue rest

/-- The points after a call, by what it is for. A control frame fails only on the connection. -/
inductive Calling (broken : Bool) : Sending β → Point → Point → Prop
  | reply {f phase k} (hk : k = .loop ∨ k = .stopping) : Calling broken ⟨.reply, f, phase⟩ k k
  | script {f phase k} (hk : (∃ rest, k = .prologue rest) ∨ k.Over) :
      Calling broken ⟨.script, f, phase⟩ k k
  | control {f phase k k'} (hk : (∃ a, k = .reading a) ∨ k.Over) (hk' : k'.Over)
      (hphase : phase = .release false → broken = true) : Calling broken ⟨.control, f, phase⟩ k k'

theorem Calling.mono {broken broken' : Bool} {x : Sending β} {k k' : Point}
    (h : Calling broken x k k') (hbroken : broken = true → broken' = true) :
    Calling broken' x k k' := by
  cases h with
  | reply hk => exact .reply hk
  | script hk => exact .script hk
  | control hk hk' hphase => exact .control hk hk' fun h => hbroken (hphase h)

theorem Calling.move {broken : Bool} {x : Sending β} {k k' : Point} (h : Calling broken x k k')
    {phase : Phase} (hphase : phase = .release false → x.origin = .control → broken = true) :
    Calling broken { x with phase } k k' := by
  cases h with
  | reply hk => exact .reply hk
  | script hk => exact .script hk
  | control hk hk' _ => exact .control hk hk' fun h => hphase h rfl

/-- After a call that fails the main thread goes on as after one that does not, or it leaves. -/
theorem Calling.failure {broken : Bool} {x : Sending β} {k k' : Point} (h : Calling broken x k k') :
    k' = k ∨ k'.Over := by
  cases h with
  | reply => exact .inl rfl
  | script => exact .inl rfl
  | control _ hk' _ => exact .inr hk'

/-- The main thread is in no call that does not fit, and it closes the socket after its loop. -/
structure Placed (s : State β V W) : Prop where
  calling : ∀ x k k', s.main = .sending x k k' → Calling s.broken x k k'
  closed : s.closed = true → s.main.point.Over

/-- What holds in every call holds outside of calls. -/
theorem calls_of_standing {p : Point} {Q : Sending β → Point → Point → Prop}
    (hmain : s.main = .standing p) : ∀ x k k', s.main = .sending x k k' → Q x k k' := by
  intro x k k' hcall
  rw [hmain] at hcall
  cases hcall

theorem placed_start (c : Clock) : Placed (P.start c) :=
  ⟨calls_of_standing rfl, fun hclosed => by cases hclosed⟩

theorem Aside.placed (haside : Aside s s') (h : Placed s) : Placed s' where
  calling x k k' hmain := (h.calling x k k' (haside.main ▸ hmain)).mono haside.broken
  closed hclosed := by
    rw [haside.main]
    exact h.closed (haside.closed ▸ hclosed)

theorem placed_goto {p : Point} (hclosed : s.closed = true → p.Over) : Placed (s.goto p) :=
  ⟨calls_of_standing rfl, hclosed⟩

theorem not_closed_of_point (h : Placed s) (hp : ¬ s.main.point.Over) : s.closed = false := by
  cases hclosed : s.closed with
  | true => exact absurd (h.closed hclosed) hp
  | false => rfl

theorem placed_frameStep {key : Key} {a : Assembly} {b : Bytes} {f : Ws.Frame}
    (hclosed : s.closed = false) : Placed (frameStep P s key a b f) := by
  have hnot : ∀ p : Point, s.closed = true → p.Over := by
    intro p hbad
    rw [hclosed] at hbad
    cases hbad
  rw [frameStep]
  split
  · refine ⟨fun x k k' hmain => ?_, hnot _⟩
    cases hmain
    exact .control (.inr ⟨_, rfl⟩) ⟨_, rfl⟩ fun hphase => by cases hphase
  split
  · refine ⟨fun x k k' hmain => ?_, hnot _⟩
    cases hmain
    exact .control (.inl ⟨_, rfl⟩) ⟨_, rfl⟩ fun hphase => by cases hphase
  split
  · exact ⟨calls_of_standing rfl, hnot _⟩
  split <;> exact ⟨calls_of_standing rfl, hnot _⟩

theorem point_handleStep (data : Bytes) : (handleStep P s data).main.point =
    if (P.handle s.vars s.clock.nowMs data).stop then .stopping else .loop := by
  rw [handleStep]
  cases (P.handle s.vars s.clock.nowMs data).reply <;> rfl

theorem placed_handleStep {data : Bytes} (hclosed : s.closed = false) :
    Placed (handleStep P s data) := by
  constructor
  · intro x k k' hmain
    rw [handleStep] at hmain
    cases hreply : (P.handle s.vars s.clock.nowMs data).reply with
    | none =>
        rw [hreply] at hmain
        cases hmain
    | some reply =>
        rw [hreply] at hmain
        cases hmain
        refine .reply ?_
        split
        · exact .inr rfl
        · exact .inl rfl
  · intro hbad
    rw [show (handleStep P s data).closed = s.closed from rfl, hclosed] at hbad
    cases hbad

/-- The place in the call, and nothing else of what places are about, after octets are taken. -/
theorem wrote_main [DecidableEq β] {x : Sending β} {k k' : Point} (n : Nat) (rest : Bytes)
    (hmain : s.main = .sending x k k') :
    (wrote s .main n x rest).main = .sending { x with
        phase := if n = rest.length then .release true else .write (rest.drop n) } k k' ∧
      (wrote s .main n x rest).broken = s.broken ∧ (wrote s .main n x rest).closed = s.closed := by
  cases hclosed : s.closed with
  | true =>
      rw [wrote_of_closed hclosed, State.moveSending, State.used, hmain]
      exact ⟨rfl, rfl, hclosed⟩
  | false =>
      rw [wrote_of_open hclosed, State.moveSending, hmain]
      exact ⟨rfl, rfl, hclosed⟩

variable [Fintype β]

theorem placed_closeStep {key : Key} {rest : List Closing} {call : Closing}
    (h : closeStep P s key (.epilogue rest) call = some s') : Placed s' := by
  cases call with
  | clear | close =>
      cases h
      exact ⟨calls_of_standing rfl, fun _ => ⟨rest, rfl⟩⟩
  | join =>
      obtain ⟨-, h⟩ := Option.ite_none_right_eq_some.mp h
      cases h
      exact ⟨calls_of_standing rfl, fun _ => ⟨rest, rfl⟩⟩
  | send data =>
      cases h
      refine ⟨fun x k k' hmain => ?_, fun _ => ⟨rest, rfl⟩⟩
      cases hmain
      exact .script (.inr ⟨rest, rfl⟩)
  | control f =>
      cases h
      refine ⟨fun x k k' hmain => ?_, fun _ => ⟨rest, rfl⟩⟩
      cases hmain
      exact .control (.inr ⟨rest, rfl⟩) ⟨rest, rfl⟩ fun hphase => by cases hphase

theorem Placed.point {p : Point} {key : Key} (h : Placed s) (hmain : s.main = .standing p)
    (hstep : PointStep P s key p s') : Placed s' := by
  have hopen : ¬ p.Over → s.closed = false := by
    intro hp
    apply not_closed_of_point h
    rwa [hmain]
  cases hstep with
  | begin => exact placed_goto fun hbad => by rw [hopen nofun] at hbad; cases hbad
  | @prologue call rest =>
      have hclosed := hopen nofun
      cases call with
      | spawn => exact ⟨calls_of_standing rfl, fun hbad => by cases hclosed.symm.trans hbad⟩
      | send data =>
          refine ⟨fun x k k' hcall => ?_, fun hbad => by cases hclosed.symm.trans hbad⟩
          cases hcall
          exact .script (.inl ⟨rest, rfl⟩)
  | epilogue hcall => exact placed_closeStep hcall
  | loop => exact placed_goto fun hbad => by cases (hopen nofun).symm.trans hbad
  | frame => exact placed_frameStep (hopen nofun)
  | exhausted | refused => exact placed_goto fun _ => ⟨_, rfl⟩
  | handle => exact placed_handleStep (hopen nofun)
  | stop => exact ⟨calls_of_standing rfl, fun hbad => by cases (hopen nofun).symm.trans hbad⟩

variable [DecidableEq β]

theorem MainStep.placed (hstep : MainStep P s s') (hex : Exclusive s) (h : Placed s) :
    Placed s' := by
  cases hstep with
  | @acquire x k k' hmain hphase =>
      refine ⟨fun y j j' hcall => ?_, fun hclosed => ?_⟩
      · cases hcall
        exact (h.calling x k k' hmain).move fun hbad => by cases hbad
      · have hover := h.closed hclosed
        rwa [hmain] at hover
  | @test x k k' key hmain hphase =>
      refine ⟨fun y j j' hcall => ?_, fun hclosed => ?_⟩
      · cases hcall
        refine (h.calling x k k' hmain).move fun _ hcontrol => ?_
        obtain ⟨-, ⟨-, -, htest⟩ | ⟨hlocked, -⟩⟩ := hex .main x (by rw [State.sending?, hmain]; rfl)
        · exact absurd hphase htest
        · exact absurd hcontrol hlocked
      · have hover := h.closed hclosed
        rwa [hmain] at hover
  | @release x k k' result mutex hmain hphase =>
      refine ⟨calls_of_standing rfl, fun hclosed => ?_⟩
      have hover := h.closed hclosed
      rw [hmain] at hover
      cases result with
      | true => exact hover
      | false =>
          rcases (h.calling x k k' hmain).failure with rfl | hleft
          · exact hover
          · exact hleft
  | @write x k k' rest n hmain hphase hbroken =>
      obtain ⟨hcall', hbroken', hclosed'⟩ := wrote_main n rest hmain
      refine ⟨fun y j j' hcall => ?_, fun hclosed => ?_⟩
      · rw [hcall'] at hcall
        cases hcall
        rw [hbroken']
        refine (h.calling x k k' hmain).move fun hbad _ => ?_
        split at hbad <;> cases hbad
      · have hover := h.closed (hclosed' ▸ hclosed)
        rw [hmain] at hover
        rwa [hcall']
  | @refuse x k k' rest hmain hphase =>
      refine ⟨fun y j j' hcall => ?_, fun hclosed => ?_⟩
      · cases hcall
        exact ((h.calling x k k' hmain).mono fun _ => rfl).move fun _ _ => rfl
      · have hover := h.closed hclosed
        rwa [hmain] at hover
  | point hmain hpoint => exact h.point hmain hpoint

end Places

section Handling

variable {c : Clock}

/-- One of the messages handled so far has stopped the session. -/
abbrev Stopped (P : Program β V W) (c : Clock) (s : State β V W) : Prop :=
  stopped P.reactor (P.initial c.nowMs) s.handled = true

/-- How the variables and the end of the loop follow from the messages handled so far. -/
structure Handling (P : Program β V W) (c : Clock) (s : State β V W) : Prop where
  vars : s.vars = final P.reactor (P.initial c.nowMs) s.handled
  stopped : Stopped P c s → s.main.point = .stopping ∨
    (s.active = false ∧ (s.main.point = .loop ∨ s.main.point.Over))
  stopping : s.main.point = .stopping → Stopped P c s
  inactive : s.active = false → s.interrupted = true ∨
    (s.main = .standing .loop ∧ Stopped P c s) ∨ s.main.point.Over

theorem handling_start (c : Clock) : Handling P c (P.start c) := ⟨rfl, nofun, nofun, nofun⟩

theorem Aside.stopped_iff (haside : Aside s s') : Stopped P c s' ↔ Stopped P c s := by
  rw [Stopped, haside.handled]

theorem Aside.handling (haside : Aside s s') (h : Handling P c s) : Handling P c s' where
  vars := by rw [haside.vars, haside.handled, h.vars]
  stopped hstop := by
    rw [haside.main]
    rcases h.stopped (haside.stopped_iff.mp hstop) with hp | ⟨hactive, hp⟩
    · exact .inl hp
    · refine .inr ⟨?_, hp⟩
      rcases haside.active with ⟨hsame, -⟩ | ⟨hfalse, -⟩
      · rw [hsame, hactive]
      · exact hfalse
  stopping hp := haside.stopped_iff.mpr (h.stopping (haside.main ▸ hp))
  inactive hactive := by
    rw [haside.main, haside.stopped_iff]
    rcases haside.active with ⟨hsame, hint⟩ | ⟨-, hint⟩
    · rw [hint]
      exact h.inactive (hsame ▸ hactive)
    · rw [hint]
      cases hold : s.active with
      | true => exact .inl (Bool.or_true _)
      | false =>
          rw [Bool.or_false]
          exact h.inactive hold

/-- A session that has been stopped does not go on reading. -/
theorem Handling.not_stopped (h : Handling P c s) (hstopping : s.main.point ≠ .stopping)
    (hp : s.active = true ∨ (s.main.point ≠ .loop ∧ ¬ s.main.point.Over)) : ¬ Stopped P c s := by
  intro hstop
  rcases h.stopped hstop with hbad | ⟨hactive, hbad⟩
  · exact hstopping hbad
  · rcases hp with hp | ⟨hloop, hover⟩
    · rw [hp] at hactive
      cases hactive
    · exact hbad.elim hloop hover

/-- A message about to be handled comes after none that has stopped the session. -/
theorem Handling.running (h : Handling P c s) {data : Bytes}
    (hmain : s.main = .standing (.handling data)) :
    Reactors.stopped P.reactor (P.initial c.nowMs) s.handled = false := by
  have hnot : ¬ Stopped P c s := h.not_stopped (by rw [hmain]; exact nofun)
    (.inr ⟨by rw [hmain]; exact nofun, by rw [hmain]; exact nofun⟩)
  exact Bool.not_eq_true _ ▸ hnot

/-- Inside a call nothing of this changes. -/
theorem Handling.call (h : Handling P c s) {x y : Sending β} {k k' : Point}
    (hmain : s.main = .sending x k k') (hmain' : s'.main = .sending y k k')
    (hvars : s'.vars = s.vars) (hhandled : s'.handled = s.handled) (hactive : s'.active = s.active)
    (hinterrupted : s'.interrupted = s.interrupted) : Handling P c s' := by
  have hpoint : s'.main.point = s.main.point := by rw [hmain, hmain']; rfl
  refine ⟨by rw [hvars, hhandled, h.vars], ?_, ?_, ?_⟩
  · rw [Stopped, hhandled, hpoint, hactive]
    exact h.stopped
  · rw [Stopped, hhandled, hpoint]
    exact h.stopping
  · intro hfalse
    rw [hpoint, hinterrupted]
    rcases h.inactive (hactive ▸ hfalse) with hint | ⟨hbad, -⟩ | hover
    · exact .inl hint
    · rw [hmain] at hbad
      cases hbad
    · exact .inr (.inr hover)

/-- After a call the main thread goes on to one of the points of the call. -/
theorem Handling.release (h : Handling P c s) {x : Sending β} {k k' p : Point} {broken : Bool}
    (hmain : s.main = .sending x k k') (hcalling : Calling broken x k k') (hp : p = k ∨ p = k')
    (hmain' : s'.main = .standing p) (hvars : s'.vars = s.vars) (hhandled : s'.handled = s.handled)
    (hactive : s'.active = s.active) (hinterrupted : s'.interrupted = s.interrupted) :
    Handling P c s' := by
  have hpoint : s'.main.point = p := by rw [hmain']; rfl
  have hold : s.main.point = k := by rw [hmain]; rfl
  have hover : k.Over → p.Over := by
    rcases hp with rfl | rfl
    · exact id
    · exact fun hk => hcalling.failure.elim (fun he => he ▸ hk) id
  have hkeep : p = k ∨ p.Over := by
    rcases hp with rfl | rfl
    · exact .inl rfl
    · exact hcalling.failure
  have hnot : k = .stopping ∨ k = .loop → p = k := by
    intro hk
    rcases hp with rfl | rfl
    · rfl
    · cases hcalling with
      | reply => rfl
      | script => rfl
      | control hk₁ _ _ =>
          obtain ⟨a, rfl⟩ | ⟨rest, rfl⟩ := hk₁ <;> exact absurd hk (by simp)
  refine ⟨by rw [hvars, hhandled, h.vars], ?_, ?_, ?_⟩
  · rw [Stopped, hhandled, hpoint, hactive]
    intro hstop
    rcases h.stopped hstop with hk | ⟨hfalse, hk | hk⟩
    · rw [hold] at hk
      exact .inl ((hnot (.inl hk)).trans hk)
    · rw [hold] at hk
      exact .inr ⟨hfalse, .inl ((hnot (.inr hk)).trans hk)⟩
    · exact .inr ⟨hfalse, .inr (hover (hold ▸ hk))⟩
  · rw [Stopped, hhandled, hpoint]
    intro hstopping
    rcases hkeep with hk | ⟨rest, hk⟩
    · exact h.stopping (by rw [hold, ← hk, hstopping])
    · rw [hk] at hstopping
      cases hstopping
  · intro hfalse
    rw [hpoint, hinterrupted]
    rcases h.inactive (hactive ▸ hfalse) with hint | ⟨hbad, -⟩ | hk
    · exact .inl hint
    · rw [hmain] at hbad
      cases hbad
    · exact .inr (.inr (hover (hold ▸ hk)))

theorem handling_of_over (hvars : s.vars = final P.reactor (P.initial c.nowMs) s.handled)
    (hover : s.main.point.Over) (hactive : Stopped P c s → s.active = false) : Handling P c s where
  vars := hvars
  stopped hstop := .inr ⟨hactive hstop, .inr hover⟩
  stopping hbad := by
    obtain ⟨rest, hp⟩ := hover
    rw [hp] at hbad
    cases hbad
  inactive _ := .inr (.inr hover)

/-- The main thread at a point from which it goes on reading. -/
theorem handling_of_running (hvars : s.vars = final P.reactor (P.initial c.nowMs) s.handled)
    (hnot : ¬ Stopped P c s) (hstopping : s.main.point ≠ .stopping)
    (hinactive : s.active = false → s.interrupted = true) : Handling P c s :=
  ⟨hvars, fun hstop => absurd hstop hnot, fun hbad => absurd hbad hstopping,
    fun hfalse => .inl (hinactive hfalse)⟩

theorem Handling.handle (h : Handling P c s) {data : Bytes}
    (hmain : s.main = .standing (.handling data)) : Handling P c (handleStep P s data) := by
  have hgo := h.running hmain
  have hreact : P.reactor s.vars (data, s.clock) =
      ⟨(P.handle s.vars s.clock.nowMs data).vars, (P.handle s.vars s.clock.nowMs data).reply.toList,
        (P.handle s.vars s.clock.nowMs data).stop⟩ := rfl
  have hstop : Stopped P c (handleStep P s data) ↔
      (P.handle s.vars s.clock.nowMs data).stop = true := by
    change Reactors.stopped _ _ (s.handled ++ [(data, s.clock)]) = true ↔ _
    rw [stopped_concat hgo, ← h.vars, hreact]
  have hpoint := point_handleStep (P := P) (s := s) data
  refine ⟨?_, fun hs => ?_, fun hp => ?_, fun hfalse => ?_⟩
  · change (P.handle s.vars s.clock.nowMs data).vars = final _ _ (s.handled ++ [(data, s.clock)])
    rw [final_concat hgo, ← h.vars, hreact]
  · rw [hpoint, if_pos (hstop.mp hs)]
    exact .inl rfl
  · apply hstop.mpr
    rw [hpoint] at hp
    split at hp
    · assumption
    · cases hp
  · refine .inl ?_
    rcases h.inactive hfalse with hint | ⟨hbad, -⟩ | hbad
    · exact hint
    · rw [hmain] at hbad
      cases hbad
    · rw [hmain] at hbad
      exact absurd hbad nofun

variable [Fintype β]

theorem closeStep_fields {key : Key} {rest : List Closing} {call : Closing}
    (h : closeStep P s key (.epilogue rest) call = some s') :
    s'.main.point = .epilogue rest ∧ s'.vars = s.vars ∧ s'.handled = s.handled ∧
      s'.consumed = s.consumed ∧ s'.inbox = s.inbox ∧ s'.arrived = s.arrived ∧
      s'.ended = s.ended ∧ s'.sent = s.sent ∧ s'.broken = s.broken ∧
      s'.interrupted = s.interrupted ∧ s'.main.pending = [] ∧
      (s.active = false → s'.active = false) := by
  cases call with
  | clear | close | send | control =>
      cases h
      simp [State.goto, State.control, Main.point, Main.pending, Sending.data]
  | join =>
      obtain ⟨-, h⟩ := Option.ite_none_right_eq_some.mp h
      cases h
      simp [State.goto, Main.point, Main.pending]

theorem Handling.point {p : Point} {key : Key} (h : Handling P c s) (hmain : s.main = .standing p)
    (hstep : PointStep P s key p s') : Handling P c s' := by
  have hpoint : s.main.point = p := by rw [hmain]; rfl
  have hrunning : p ≠ .stopping → (s.active = true ∨ (p ≠ .loop ∧ ¬ p.Over)) → ¬ Stopped P c s := by
    intro hstopping hp
    apply h.not_stopped
    · rwa [hpoint]
    · rwa [hpoint]
  have hinactive : p ≠ .loop → ¬ p.Over → s.active = false → s.interrupted = true := by
    intro hloop hover hfalse
    rcases h.inactive hfalse with hint | ⟨hbad, -⟩ | hbad
    · exact hint
    · rw [hmain] at hbad
      cases hbad
      exact absurd rfl hloop
    · exact absurd (hpoint ▸ hbad) hover
  cases hstep with
  | begin =>
      exact handling_of_running h.vars (hrunning nofun (.inr ⟨nofun, nofun⟩)) nofun
        (hinactive nofun nofun)
  | @prologue call rest =>
      have hgo := hrunning nofun (.inr ⟨nofun, nofun⟩)
      cases call with
      | spawn => exact handling_of_running h.vars hgo nofun (hinactive nofun nofun)
      | send data => exact handling_of_running h.vars hgo nofun (hinactive nofun nofun)
  | @epilogue call rest _ hcall =>
      obtain ⟨hp, hvars, hhandled, -, -, -, -, -, -, -, -, hactive⟩ := closeStep_fields hcall
      refine handling_of_over (by rw [hvars, hhandled, h.vars]) ⟨rest, hp⟩ fun hstop => ?_
      rw [Stopped, hhandled] at hstop
      rcases h.stopped hstop with hbad | ⟨hfalse, -⟩
      · rw [hpoint] at hbad
        cases hbad
      · exact hactive hfalse
  | loop =>
      cases hactive : s.active with
      | true =>
          exact handling_of_running h.vars (hrunning nofun (.inl hactive)) nofun
            fun hbad => by cases hactive.symm.trans hbad
      | false => exact handling_of_over h.vars ⟨_, rfl⟩ fun _ => hactive
  | @frame a f b rest hinbox hb hok =>
      have hgo := hrunning nofun (.inr ⟨nofun, nofun⟩)
      have hint := hinactive nofun nofun
      cases hnext : a.next f with
      | none =>
          obtain ⟨m, hm, -, hplace⟩ := frameStep_of_refused (P := P) (s := { s with inbox := rest })
            key hnext b
          have hover : m.point.Over := by
            obtain ⟨x, -, rfl⟩ | rfl := hplace <;> exact ⟨_, rfl⟩
          rw [hm]
          exact handling_of_over h.vars hover fun hstop => absurd hstop hgo
      | some y =>
          obtain ⟨m, hm, -, hplace⟩ := frameStep_of_next (P := P) (s := { s with inbox := rest })
            key hnext b
          have hstopping : m.point ≠ .stopping := by
            obtain ⟨x, a', -, -, rfl⟩ | rfl := hplace
            · exact nofun
            · cases y <;> exact nofun
          rw [hm]
          exact handling_of_running h.vars hgo hstopping hint
  | exhausted | refused =>
      exact handling_of_over h.vars ⟨_, rfl⟩
        fun hstop => absurd hstop (hrunning nofun (.inr ⟨nofun, nofun⟩))
  | handle => exact h.handle hmain
  | stop =>
      have hstop := h.stopping hpoint
      exact ⟨h.vars, fun _ => .inr ⟨rfl, .inl rfl⟩, nofun, fun _ => .inr (.inl ⟨rfl, hstop⟩)⟩

variable [DecidableEq β]

theorem MainStep.handling (hstep : MainStep P s s') (hplaced : Placed s) (h : Handling P c s) :
    Handling P c s' := by
  cases hstep with
  | acquire hmain _ => exact h.call hmain rfl rfl rfl rfl rfl
  | test hmain _ => exact h.call hmain rfl rfl rfl rfl rfl
  | @release x k k' result mutex hmain _ =>
      refine h.release hmain (hplaced.calling x k k' hmain) ?_ rfl rfl rfl rfl rfl
      cases result with
      | true => exact .inl rfl
      | false => exact .inr rfl
  | @write x k k' rest n hmain _ _ =>
      refine h.call hmain (wrote_main _ _ hmain).1 ?_ ?_ ?_ ?_ <;> (rw [wrote]; split <;> rfl)
  | refuse hmain _ => exact h.call hmain rfl rfl rfl rfl rfl
  | point hmain hpoint => exact h.point hmain hpoint

/-- Messages are handled by the `switch` of the receive loop only, and only it assigns variables. -/
theorem handles_of_step {l : Label β} (h : Step P s l s') :
    (∃ choice data, l = .move .main choice ∧ s.main = .standing (.handling data) ∧
        s' = handleStep P s data) ∨
      (s'.handled = s.handled ∧ s'.vars = s.vars) := by
  cases h with
  | arrive | hangUp | time | acquire | test | release | refuse => exact .inr ⟨rfl, rfl⟩
  | write =>
      refine .inr ?_
      rw [wrote]
      split <;> exact ⟨rfl, rfl⟩
  | beat _ hbeat =>
      have haside := aside_of_beatStep hbeat
      exact .inr ⟨haside.handled, haside.vars⟩
  | watch hwatch =>
      have haside := aside_of_watchStep hwatch
      exact .inr ⟨haside.handled, haside.vars⟩
  | @point choice p s' hmain hpoint =>
      cases hpoint with
      | @handle data => exact .inl ⟨choice, data, rfl, hmain, rfl⟩
      | begin | loop | exhausted | refused | stop => exact .inr ⟨rfl, rfl⟩
      | @prologue call rest => cases call <;> exact .inr ⟨rfl, rfl⟩
      | epilogue hcall =>
          obtain ⟨-, hvars, hhandled, -⟩ := closeStep_fields hcall
          exact .inr ⟨hhandled, hvars⟩
      | @frame a f b rest =>
          obtain ⟨m, consumed, hm⟩ := frameStep_eq (P := P) (s := { s with inbox := rest })
            choice.key a b f
          rw [hm]
          exact .inr ⟨rfl, rfl⟩

end Handling

section Frames

variable [DecidableEq β] [Fintype β] {l : Label β}

/-- The octets of a frame that has been written to its end are those of a call. -/
theorem sends_of_step (h : Step P s l s') : s'.sent = s.sent ∨
    ∃ t x rest, s.sending? t = some x ∧ x.phase = .write rest ∧
      s'.sent = s.sent ++ [(x.origin, x.frame)] := by
  cases h with
  | arrive | hangUp | time | acquire | test | release | refuse => exact .inl rfl
  | @write t n x rest hx hphase =>
      by_cases hclosed : s.closed = true
      · rw [wrote_of_closed hclosed]
        exact .inl rfl
      · rw [wrote_of_open (Bool.not_eq_true _ ▸ hclosed)]
        by_cases hn : n = rest.length
        · exact .inr ⟨t, x, rest, hx, hphase, if_pos hn⟩
        · exact .inl (if_neg hn)
  | @beat b choice _ _ hbeat =>
      cases hy : s.beats b <;> rw [hy] at hbeat <;> cases hbeat <;> exact .inl rfl
  | watch hwatch =>
      refine .inl ?_
      rw [watchStep] at hwatch
      split at hwatch <;> cases hwatch <;> rfl
  | @point choice p _ _ hpoint =>
      refine .inl ?_
      cases hpoint with
      | begin | loop | exhausted | refused | stop | handle => rfl
      | @prologue call rest => cases call <;> rfl
      | epilogue hcall => exact (closeStep_fields hcall).2.2.2.2.2.2.2.1
      | @frame a f b rest =>
          obtain ⟨m, consumed, hm⟩ := frameStep_eq (P := P) (s := { s with inbox := rest })
            choice.key a b f
          rw [hm]

/-- Nothing makes a session active again. -/
theorem inactive_of_step (h : Step P s l s') (hs : s.active = false) : s'.active = false := by
  cases h with
  | arrive | hangUp | time | acquire | test | release | refuse => exact hs
  | write =>
      rw [wrote]
      split <;> exact hs
  | beat _ hbeat =>
      rcases (aside_of_beatStep hbeat).active with ⟨hsame, -⟩ | ⟨hfalse, -⟩
      · rw [hsame, hs]
      · exact hfalse
  | watch hwatch =>
      rcases (aside_of_watchStep hwatch).active with ⟨hsame, -⟩ | ⟨hfalse, -⟩
      · rw [hsame, hs]
      · exact hfalse
  | @point choice p _ _ hpoint =>
      cases hpoint with
      | begin | loop | exhausted | refused | handle => exact hs
      | stop => rfl
      | @prologue call rest => cases call <;> exact hs
      | epilogue hcall => exact (closeStep_fields hcall).2.2.2.2.2.2.2.2.2.2.2 hs
      | @frame a f b rest =>
          obtain ⟨m, consumed, hm⟩ := frameStep_eq (P := P) (s := { s with inbox := rest })
            choice.key a b f
          rw [hm]
          exact hs

/-- The clocks move in a step of their own. -/
theorem clock_of_step (h : Step P s l s') :
    s'.clock = s.clock ∨ ∃ ms adjustment, s.clock.moved ms adjustment = some s'.clock := by
  cases h with
  | time hclock => exact .inr ⟨_, _, hclock⟩
  | arrive | hangUp | acquire | test | release | refuse => exact .inl rfl
  | write =>
      refine .inl ?_
      rw [wrote]
      split <;> rfl
  | @beat b choice _ _ hbeat =>
      cases hy : s.beats b <;> rw [hy] at hbeat <;> cases hbeat <;> exact .inl rfl
  | watch hwatch =>
      refine .inl ?_
      rw [watchStep] at hwatch
      split at hwatch <;> cases hwatch <;> rfl
  | @point choice p _ _ hpoint =>
      refine .inl ?_
      cases hpoint with
      | begin | loop | exhausted | refused | stop | handle => rfl
      | @prologue call rest => cases call <;> rfl
      | @epilogue call rest _ hcall =>
          cases call with
          | clear | close | send | control =>
              cases hcall
              rfl
          | join =>
              obtain ⟨-, hcall⟩ := Option.ite_none_right_eq_some.mp hcall
              cases hcall
              rfl
      | @frame a f b rest =>
          obtain ⟨m, consumed, hm⟩ := frameStep_eq (P := P) (s := { s with inbox := rest })
            choice.key a b f
          rw [hm]

theorem elapsed_le_of_step (h : Step P s l s') : s.clock.elapsed ≤ s'.clock.elapsed := by
  rcases clock_of_step h with hsame | ⟨ms, adjustment, hmoved⟩
  · rw [hsame]
  · rw [Clock.moved] at hmoved
    split at hmoved
    · rw [← Option.some.inj hmoved]
      exact Nat.le_add_right _ ms
    · cases hmoved

end Frames

end HelloWebsocket.Cpp.Threads
