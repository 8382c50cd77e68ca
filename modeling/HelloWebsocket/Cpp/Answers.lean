import HelloWebsocket.Cpp.MainThread

/-!
# The answers of a C++ session

The messages that the main thread has handled come first among the messages of the
stream, and the answers it has written come first among the answers to them. An
answer is missing only if a call of `send` was refused or another thread ended the
session. A main thread that waits for octets, or has left its loop, has handled all
messages of a stream that has arrived as a whole.

## Implementation notes

The answers are those of the receive loop as a reactor. An answer that is being sent
counts with those that have been written until the call gives it up.
-/

namespace HelloWebsocket.Cpp.Threads

open Ws Reactors

variable {β V W : Type} {P : Program β V W} {s s' : State β V W} {c : Clock}

section Answering

/-- The phases in which a call may still write its frame to the end. -/
def Phase.Undecided : Phase → Prop
  | .release _ => False
  | _ => True

theorem pending_move {x : Sending β} (phase : Phase) (hx : x.phase.Undecided)
    (hphase : phase.Undecided) (k k' : Point) :
    Main.pending (.sending { x with phase } k k') = Main.pending (.sending x k k') := by
  obtain ⟨origin, f, φ⟩ := x
  cases origin with
  | reply =>
      cases φ <;> cases phase <;> first | rfl | exact absurd hx id | exact absurd hphase id
  | _ => rfl

theorem pending_release {x : Sending β} {result : Bool} (k k' : Point) :
    Main.pending (.sending { x with phase := .release result } k k') = [] := by
  obtain ⟨origin, f, φ⟩ := x
  cases origin <;> rfl

theorem pending_reply {x : Sending β} (hx : x.phase.Undecided) (horigin : x.origin = .reply)
    (k k' : Point) : Main.pending (.sending x k k') = [x.frame.payload] := by
  obtain ⟨origin, f, φ⟩ := x
  cases horigin
  cases φ <;> first | rfl | exact absurd hx id

theorem pending_other {origin : Origin β} {f : Ws.Frame} {phase : Phase} (horigin : origin ≠ .reply)
    (k k' : Point) : Main.pending (.sending ⟨origin, f, phase⟩ k k') = [] := by
  cases origin with
  | reply => exact absurd rfl horigin
  | _ => rfl

/-- The main thread does not read any more. -/
def Point.Ending (p : Point) : Prop := p = .loop ∨ p = .stopping ∨ p.Over

/-- An answer has been given up, and none will be written after it. -/
structure Cut (s : State β V W) : Prop where
  cause : s.broken = true ∨ (s.interrupted = true ∧ s.active = false ∧ s.main.pending = [] ∧
    s.main.point.Ending)

theorem Aside.cut (haside : Aside s s') (h : Cut s) : Cut s' := by
  constructor
  rcases h.cause with hbroken | ⟨hint, hactive, hpending, hending⟩
  · exact .inl (haside.broken hbroken)
  · rw [haside.main]
    refine .inr ?_
    rcases haside.active with ⟨hactive', hint'⟩ | ⟨hactive', hint'⟩
    · exact ⟨hint'.trans hint, hactive'.trans hactive, hpending, hending⟩
    · exact ⟨by rw [hint', hint, Bool.true_or], hactive', hpending, hending⟩

/-- Where the main thread is, and whether the session goes on, decides about a cut. -/
theorem Cut.of_same (h : Cut s) (hbroken : s'.broken = s.broken)
    (hint : s'.interrupted = s.interrupted) (hactive : s.active = false → s'.active = false)
    (hpending : s'.main.pending = [])
    (hpoint : s.main.point.Ending → s.active = false → s'.main.point.Ending) : Cut s' := by
  constructor
  rcases h.cause with hb | ⟨hi, ha, -, hp⟩
  · exact .inl (hbroken.trans hb)
  · exact .inr ⟨hint.trans hi, hactive ha, hpending, hpoint hp ha⟩

/-- A main thread that is sending an answer when `active` is cleared has been interrupted. -/
theorem interrupted_of_reply {x : Sending β} {k k' : Point} (hplaced : Placed s)
    (hhandling : Handling P c s) (hmain : s.main = .sending x k k') (horigin : x.origin = .reply)
    (hactive : s.active = false) : s.interrupted = true ∧ k.Ending := by
  have hcalling := hplaced.calling x k k' hmain
  obtain ⟨origin, f, phase⟩ := x
  cases horigin
  cases hcalling with
  | reply hk =>
      refine ⟨?_, hk.imp_right .inl⟩
      rcases hhandling.inactive hactive with hint | ⟨hbad, -⟩ | hbad
      · exact hint
      · rw [hmain] at hbad
        cases hbad
      · rw [hmain] at hbad
        rcases hk with rfl | rfl <;> exact absurd hbad nofun

variable [DecidableEq β]

/-- The answers written so far, and the one being sent, are those to the messages handled so
far, or the first of them. -/
def Answering (P : Program β V W) (c : Clock) (s : State β V W) : Prop :=
  s.replies ++ s.main.pending = outputs P.reactor (P.initial c.nowMs) s.handled ∨
    (s.replies <+: outputs P.reactor (P.initial c.nowMs) s.handled ∧ Cut s)

theorem answering_start (c : Clock) : Answering P c (P.start c) := .inl rfl

theorem Answering.prefix_outputs (h : Answering P c s) :
    s.replies <+: outputs P.reactor (P.initial c.nowMs) s.handled := by
  rcases h with hfull | ⟨hpre, -⟩
  · exact ⟨_, hfull⟩
  · exact hpre

/-- A step that changes neither the answers nor what is being sent. -/
theorem Answering.keep (h : Answering P c s) (hreplies : s'.replies = s.replies)
    (hhandled : s'.handled = s.handled) (hpending : s'.main.pending = s.main.pending)
    (hcut : Cut s → Cut s') : Answering P c s' := by
  rw [Answering, hreplies, hhandled, hpending]
  exact h.imp_right (And.imp_right hcut)

/-- A step that gives an answer up. -/
theorem Answering.drop (h : Answering P c s) (hreplies : s'.replies = s.replies)
    (hhandled : s'.handled = s.handled) (hcut : Cut s') : Answering P c s' := by
  rw [Answering, hreplies, hhandled]
  exact .inr ⟨h.prefix_outputs, hcut⟩

theorem Aside.replies (haside : Aside s s') : s'.replies = s.replies := by
  obtain ⟨added, hsent, hbeats⟩ := haside.sent
  have hnone : repliesOf added = [] := by
    apply repliesOf_eq_nil
    intro y hy
    obtain ⟨b, hb⟩ := hbeats y hy
    rw [hb]
    exact nofun
  rw [State.replies, hsent, repliesOf_append, hnone, List.append_nil]
  rfl

theorem Aside.answering (haside : Aside s s') (h : Answering P c s) : Answering P c s' :=
  h.keep haside.replies haside.handled (by rw [haside.main]) haside.cut

theorem answering_test {x : Sending β} {k k' : Point} {key : Key} (hplaced : Placed s)
    (hhandling : Handling P c s) (h : Answering P c s) (hmain : s.main = .sending x k k')
    (hphase : x.phase = .test) :
    Answering P c { s with main := .sending { x with
      phase := if s.active then .write (P.octets key x.frame) else .release false } k k' } := by
  have hundecided : x.phase.Undecided := by rw [hphase]; exact trivial
  by_cases hactive : s.active = true
  · rw [if_pos hactive]
    have hpending := pending_move (.write (P.octets key x.frame)) hundecided trivial k k'
    refine h.keep rfl rfl (hpending.trans (by rw [hmain])) fun hcut => ⟨?_⟩
    rcases hcut.cause with hb | ⟨-, hbad, -⟩
    · exact .inl hb
    · cases hactive.symm.trans hbad
  · rw [if_neg hactive]
    rw [Bool.not_eq_true] at hactive
    by_cases horigin : x.origin = .reply
    · obtain ⟨hint, hending⟩ := interrupted_of_reply hplaced hhandling hmain horigin hactive
      exact h.drop rfl rfl ⟨.inr ⟨hint, hactive, pending_release k k', hending⟩⟩
    · have hnone : s.main.pending = [] := by
        rw [hmain]
        exact pending_other horigin k k'
      refine h.keep rfl rfl ((pending_release k k').trans hnone.symm) fun hcut => ?_
      refine hcut.of_same rfl rfl id (pending_release k k') fun hp _ => ?_
      rwa [hmain] at hp

theorem answering_write {x : Sending β} {k k' : Point} {rest : Bytes} {n : Nat}
    (hplaced : Placed s) (h : Answering P c s) (hmain : s.main = .sending x k k')
    (hphase : x.phase = .write rest) (hbroken : s.broken = false) :
    Answering P c (wrote s .main n x rest) := by
  have hundecided : x.phase.Undecided := by rw [hphase]; exact trivial
  obtain ⟨hmain', hbroken', -⟩ := wrote_main n rest hmain
  have hrest : (wrote s .main n x rest).handled = s.handled ∧
      (wrote s .main n x rest).interrupted = s.interrupted ∧
      (wrote s .main n x rest).active = s.active := by
    rw [wrote]
    split <;> exact ⟨rfl, rfl, rfl⟩
  have hcut : (wrote s .main n x rest).main.pending = [] → Cut s →
      Cut (wrote s .main n x rest) := by
    intro hpending hcut
    refine hcut.of_same hbroken' hrest.2.1 (fun ha => hrest.2.2.trans ha) hpending fun hp _ => ?_
    rw [hmain']
    rwa [hmain] at hp
  by_cases horigin : x.origin = .reply
  · -- An answer is on its way, so nothing has been cut and the socket is open.
    have hpending : s.main.pending = [x.frame.payload] := by
      rw [hmain, pending_reply hundecided horigin]
    have hfull : s.replies ++ [x.frame.payload] =
        outputs P.reactor (P.initial c.nowMs) s.handled := by
      rcases h with hfull | ⟨-, hcut⟩
      · rwa [hpending] at hfull
      · rcases hcut.cause with hb | ⟨-, -, hnone, -⟩
        · cases hbroken.symm.trans hb
        · rw [hpending] at hnone
          cases hnone
    have hopen : s.closed = false := by
      apply not_closed_of_point hplaced
      have hcalling := hplaced.calling x k k' hmain
      obtain ⟨origin, f, phase⟩ := x
      cases horigin
      cases hcalling with
      | reply hk =>
          rw [hmain]
          rintro ⟨last, hbad⟩
          rcases hk with rfl | rfl <;> cases hbad
    have hsent : (wrote s .main n x rest).sent =
        if n = rest.length then s.sent ++ [(x.origin, x.frame)] else s.sent := by
      rw [wrote_of_open hopen]
      rfl
    left
    rw [State.replies, hsent, hmain', hrest.1, ← hfull]
    split
    · rw [pending_release, List.append_nil, repliesOf_append, horigin]
      rfl
    · rw [pending_move (.write (rest.drop n)) hundecided trivial,
        pending_reply hundecided horigin]
      rfl
  · have hpending : s.main.pending = [] := by
      rw [hmain]
      exact pending_other horigin k k'
    have hpending' : (wrote s .main n x rest).main.pending = [] := by
      rw [hmain']
      exact pending_other horigin k k'
    have hreplies : (wrote s .main n x rest).replies = s.replies := by
      have hother : repliesOf [(x.origin, x.frame)] = [] := by
        apply repliesOf_eq_nil
        intro y hy
        rw [List.mem_singleton.mp hy]
        exact horigin
      cases hclosed : s.closed with
      | true =>
          rw [wrote_of_closed hclosed]
          rfl
      | false =>
          rw [wrote_of_open hclosed]
          change repliesOf (if n = rest.length then s.sent ++ [(x.origin, x.frame)] else s.sent) = _
          split
          · rw [repliesOf_append, hother, List.append_nil]
            rfl
          · rfl
    exact h.keep hreplies hrest.1 (hpending'.trans hpending.symm) (hcut hpending')

theorem answering_handle {data : Bytes} (hhandling : Handling P c s) (h : Answering P c s)
    (hmain : s.main = .standing (.handling data)) : Answering P c (handleStep P s data) := by
  have hgo := hhandling.running hmain
  have hout : outputs P.reactor (P.initial c.nowMs) (handleStep P s data).handled =
      outputs P.reactor (P.initial c.nowMs) s.handled ++
        (P.handle s.vars s.clock.nowMs data).reply.toList := by
    change outputs _ _ (s.handled ++ [(data, s.clock)]) = _
    rw [outputs_concat hgo, ← hhandling.vars]
    rfl
  have hpending : (handleStep P s data).main.pending =
      (P.handle s.vars s.clock.nowMs data).reply.toList := by
    rw [handleStep]
    cases (P.handle s.vars s.clock.nowMs data).reply <;> rfl
  rw [Answering, hout, hpending]
  rcases h with hfull | ⟨hpre, hcut⟩
  · left
    rw [← hfull, hmain]
    exact congrArg (· ++ _) (List.append_nil _).symm
  · right
    refine ⟨hpre.trans (List.prefix_append _ _), ⟨?_⟩⟩
    rcases hcut.cause with hb | ⟨-, -, -, hp⟩
    · exact .inl hb
    · rw [hmain] at hp
      rcases hp with hp | hp | ⟨rest, hp⟩ <;> cases hp

variable [Fintype β]

theorem answering_point {p : Point} {key : Key} (hhandling : Handling P c s)
    (h : Answering P c s) (hmain : s.main = .standing p) (hstep : PointStep P s key p s') :
    Answering P c s' := by
  have hnone : s.main.pending = [] := by rw [hmain]; rfl
  have hcut : s'.broken = s.broken → s'.interrupted = s.interrupted →
      (s.active = false → s'.active = false) → s'.main.pending = [] →
      (p.Ending → s.active = false → s'.main.point.Ending) → Cut s → Cut s' := by
    intro hbroken hint hactive hpending hpoint hcut
    refine hcut.of_same hbroken hint hactive hpending fun hp ha => hpoint ?_ ha
    rwa [hmain] at hp
  have hreading : ∀ {q : Point}, (∃ rest, q = .prologue rest) ∨ (∃ a, q = .reading a) →
      ¬ q.Ending := by
    rintro q (⟨rest, rfl⟩ | ⟨a, rfl⟩) <;> rintro (hp | hp | ⟨_, hp⟩) <;> cases hp
  cases hstep with
  | begin =>
      exact h.keep rfl rfl hnone.symm (hcut rfl rfl id rfl fun hp => absurd hp (hreading (.inl ⟨_, rfl⟩)))
  | @prologue call rest =>
      have hcontra : ∀ q, (Point.prologue (call :: rest)).Ending → q :=
        fun q hp => absurd hp (hreading (.inl ⟨_, rfl⟩))
      cases call with
      | spawn => exact h.keep rfl rfl hnone.symm (hcut rfl rfl id rfl (hcontra _))
      | send data => exact h.keep rfl rfl hnone.symm (hcut rfl rfl id rfl (hcontra _))
  | @epilogue call rest _ hcall =>
      obtain ⟨hp, -, hhandled, -, -, -, -, hsent, hbroken, hint, hpending, hactive⟩ :=
        closeStep_fields hcall
      refine h.keep (by rw [State.replies, hsent]; rfl) hhandled (hpending.trans hnone.symm)
        (hcut hbroken hint hactive hpending fun _ _ => ?_)
      rw [hp]
      exact .inr (.inr ⟨rest, rfl⟩)
  | loop =>
      refine h.keep rfl rfl hnone.symm (hcut rfl rfl id rfl fun _ ha => ?_)
      rw [ha]
      exact .inr (.inr ⟨_, rfl⟩)
  | @frame a f b rest hinbox hb hok =>
      have hcontra : ∀ q, (Point.reading a).Ending → q :=
        fun q hp => absurd hp (hreading (.inr ⟨_, rfl⟩))
      cases hnext : a.next f with
      | none =>
          obtain ⟨m, hm, -, hplace⟩ := frameStep_of_refused (P := P) (s := { s with inbox := rest })
            key hnext b
          have hpending : m.pending = [] := by
            obtain ⟨x, hx, rfl⟩ | rfl := hplace
            · exact pending_other (by rw [hx]; exact nofun) _ _
            · rfl
          rw [hm] at hcut ⊢
          exact h.keep rfl rfl (hpending.trans hnone.symm) (hcut rfl rfl id hpending (hcontra _))
      | some y =>
          obtain ⟨m, hm, -, hplace⟩ := frameStep_of_next (P := P) (s := { s with inbox := rest })
            key hnext b
          have hpending : m.pending = [] := by
            obtain ⟨x, a', -, hx, rfl⟩ | rfl := hplace
            · exact pending_other (by rw [hx]; exact nofun) _ _
            · rfl
          rw [hm] at hcut ⊢
          exact h.keep rfl rfl (hpending.trans hnone.symm) (hcut rfl rfl id hpending (hcontra _))
  | exhausted | refused =>
      exact h.keep rfl rfl hnone.symm
        (hcut rfl rfl id rfl fun hp => absurd hp (hreading (.inr ⟨_, rfl⟩)))
  | handle => exact answering_handle hhandling h hmain
  | stop =>
      exact h.keep rfl rfl hnone.symm (hcut rfl rfl (fun _ => rfl) rfl fun _ _ => .inl rfl)

theorem MainStep.answering (hstep : MainStep P s s') (hplaced : Placed s)
    (hhandling : Handling P c s) (h : Answering P c s) : Answering P c s' := by
  cases hstep with
  | @acquire x k k' hmain hphase =>
      have hpending := pending_move (x := x) .test (by rw [hphase]; exact trivial)
        trivial k k'
      refine h.keep rfl rfl (hpending.trans (by rw [hmain])) fun hcut => ⟨?_⟩
      rcases hcut.cause with hb | ⟨hint, hactive, hnone, hp⟩
      · exact .inl hb
      · rw [hmain] at hnone hp
        exact .inr ⟨hint, hactive, hpending.trans hnone, hp⟩
  | test hmain hphase => exact answering_test hplaced hhandling h hmain hphase
  | @release x k k' result mutex hmain hphase =>
      have hnone : s.main.pending = [] := by
        obtain ⟨origin, f, phase⟩ := x
        cases hphase
        rw [hmain]
        cases origin <;> rfl
      refine h.keep rfl rfl hnone.symm fun hcut => ?_
      refine hcut.of_same rfl rfl id rfl fun hp _ => ?_
      rw [hmain] at hp
      cases result with
      | true => exact hp
      | false =>
          rcases (hplaced.calling x k k' hmain).failure with hk | hk
          · exact hk ▸ hp
          · exact .inr (.inr hk)
  | write hmain hphase hbroken => exact answering_write hplaced h hmain hphase hbroken
  | refuse hmain _ => exact h.drop rfl rfl ⟨.inl rfl⟩
  | point hmain hpoint => exact answering_point hhandling h hmain hpoint

end Answering

section Following

/-- The message that has been read and not yet handled. -/
def Point.unhandled : Point → List Bytes
  | .handling data => [data]
  | _ => []

/-- What there is of the message that is being read. -/
def Point.assembly : Point → Assembly
  | .reading a => a
  | _ => none

/-- The octets read so far bring the messages handled so far, and the one about to be. -/
structure Following (P : Program β V W) (s : State β V W) : Prop where
  reads : ∃ a, Reads (!P.masked) none s.consumed
      (s.handled.map Prod.fst ++ s.main.point.unhandled) a ∧
    (s.main.point.Over ∨ (a = s.main.point.assembly ∧ s.arrived = s.consumed ++ s.inbox))
  arrived : s.consumed <+: s.arrived

theorem following_start (c : Clock) : Following P (P.start c) :=
  ⟨⟨none, .nil, .inr ⟨rfl, rfl⟩⟩, List.prefix_refl _⟩

theorem Aside.following (haside : Aside s s') (h : Following P s) : Following P s' := by
  obtain ⟨⟨a, hreads, hplace⟩, harrived⟩ := h
  rw [← haside.consumed, ← haside.handled, ← haside.main] at hreads
  rcases haside.stream with ⟨hinbox, harr⟩ | ⟨-, b, hinbox, harr⟩
  · refine ⟨⟨a, hreads, ?_⟩, by rw [harr, haside.consumed]; exact harrived⟩
    rw [hinbox, harr, haside.consumed, haside.main]
    exact hplace
  · constructor
    · refine ⟨a, hreads, ?_⟩
      rw [hinbox, harr, haside.consumed, haside.main]
      refine hplace.imp_right fun ⟨ha, hall⟩ => ⟨ha, ?_⟩
      rw [hall, List.append_assoc]
    · rw [harr, haside.consumed]
      exact harrived.trans (List.prefix_append _ _)

/-- A step that reads nothing, to a point from which the same message is read. -/
theorem Following.keep (h : Following P s) (hconsumed : s'.consumed = s.consumed)
    (hhandled : s'.handled = s.handled) (hinbox : s'.inbox = s.inbox)
    (harrived : s'.arrived = s.arrived)
    (hunhandled : s'.main.point.unhandled = s.main.point.unhandled)
    (hplace : s'.main.point.Over ∨
      (¬ s.main.point.Over ∧ s'.main.point.assembly = s.main.point.assembly)) :
    Following P s' := by
  obtain ⟨⟨a, hreads, hold⟩, hpre⟩ := h
  rw [← hconsumed, ← hhandled, ← hunhandled] at hreads
  refine ⟨⟨a, hreads, ?_⟩, by rw [harrived, hconsumed]; exact hpre⟩
  rcases hplace with hover | ⟨hnot, hassembly⟩
  · exact .inl hover
  · obtain ⟨ha, hall⟩ := hold.resolve_left hnot
    rw [hassembly, harrived, hconsumed, hinbox]
    exact .inr ⟨ha, hall⟩

theorem unhandled_of_over {p : Point} (h : p.Over) : p.unhandled = [] := by
  obtain ⟨rest, rfl⟩ := h
  rfl

theorem Following.call (h : Following P s) (hconsumed : s'.consumed = s.consumed)
    (hhandled : s'.handled = s.handled) (hinbox : s'.inbox = s.inbox)
    (harrived : s'.arrived = s.arrived) (hpoint : s'.main.point = s.main.point) :
    Following P s' := by
  refine h.keep hconsumed hhandled hinbox harrived (by rw [hpoint]) ?_
  rw [hpoint]
  by_cases hover : s.main.point.Over
  · exact .inl hover
  · exact .inr ⟨hover, rfl⟩

theorem Following.release (h : Following P s) {x : Sending β} {k k' p : Point} {broken : Bool}
    (hmain : s.main = .sending x k k') (hcalling : Calling broken x k k') (hp : p = k ∨ p = k')
    (hconsumed : s'.consumed = s.consumed) (hhandled : s'.handled = s.handled)
    (hinbox : s'.inbox = s.inbox) (harrived : s'.arrived = s.arrived)
    (hmain' : s'.main = .standing p) : Following P s' := by
  have hnew : s'.main.point = p := by rw [hmain']; rfl
  have hold : s.main.point = k := by rw [hmain]; rfl
  have hsame : p = k ∨ p.Over := by
    rcases hp with rfl | rfl
    · exact .inl rfl
    · exact hcalling.failure
  rcases hsame with rfl | hover
  · exact h.call hconsumed hhandled hinbox harrived (hnew.trans hold.symm)
  · refine h.keep hconsumed hhandled hinbox harrived ?_ (.inl (hnew ▸ hover))
    rw [hnew, hold, unhandled_of_over hover]
    cases hcalling with
    | reply hk => rcases hk with rfl | rfl <;> rfl
    | script hk => obtain ⟨rest, rfl⟩ | ⟨rest, rfl⟩ := hk <;> rfl
    | control hk => obtain ⟨a, rfl⟩ | ⟨rest, rfl⟩ := hk <;> rfl

theorem Following.handle (h : Following P s) {data : Bytes}
    (hmain : s.main = .standing (.handling data)) : Following P (handleStep P s data) := by
  obtain ⟨⟨a, hreads, hplace⟩, hpre⟩ := h
  rw [hmain] at hreads hplace
  obtain ⟨ha, hall⟩ := hplace.resolve_left nofun
  have hpoint := point_handleStep (P := P) (s := s) data
  have hempty : (handleStep P s data).main.point.unhandled = [] ∧
      (handleStep P s data).main.point.assembly = none := by
    rw [hpoint]
    split <;> exact ⟨rfl, rfl⟩
  refine ⟨⟨a, ?_, .inr ⟨ha.trans hempty.2.symm, hall⟩⟩, hpre⟩
  rw [hempty.1, List.append_nil]
  change Reads _ _ s.consumed ((s.handled ++ [(data, s.clock)]).map Prod.fst) a
  rw [List.map_append]
  exact hreads

theorem Following.frame (h : Following P s) {key : Key} {a : Assembly} {f : Ws.Frame}
    {b rest : Bytes} (hmain : s.main = .standing (.reading a)) (hinbox : s.inbox = b ++ rest)
    (hb : Encodes (!P.masked) f b) (hok : a.Admits f) :
    Following P (frameStep P { s with inbox := rest } key a b f) := by
  obtain ⟨⟨a₀, hreads, hplace⟩, hpre⟩ := h
  rw [hmain] at hreads hplace
  obtain ⟨ha, hall⟩ := hplace.resolve_left nofun
  have ha' : a = a₀ := ha.symm
  subst ha'
  rw [show Main.point (.standing (.reading a) : Main β) = .reading a from rfl,
    show (Point.reading a).unhandled = [] from rfl, List.append_nil] at hreads
  cases hnext : a.next f with
  | none =>
      obtain ⟨m, hm, -, hout⟩ := frameStep_of_refused (P := P) (s := { s with inbox := rest })
            key hnext b
      have hover : m.point.Over := by
        obtain ⟨x, -, rfl⟩ | rfl := hout <;> exact ⟨_, rfl⟩
      rw [hm]
      refine ⟨⟨a, ?_, .inl hover⟩, hpre⟩
      rw [unhandled_of_over hover, List.append_nil]
      exact hreads
  | some y =>
      obtain ⟨m, hm, -, hout⟩ := frameStep_of_next (P := P) (s := { s with inbox := rest })
            key hnext b
      have hpoint : m.point = y.elim .reading .handling := by
        obtain ⟨x, a', rfl, -, rfl⟩ | rfl := hout <;> rfl
      have harrived : s.arrived = s.consumed ++ b ++ rest := by
        rw [hall, hinbox, List.append_assoc]
      rw [hm]
      refine ⟨?_, harrived ▸ List.prefix_append _ _⟩
      cases y with
      | inl a' =>
          refine ⟨a', ?_, .inr ⟨by rw [hpoint]; rfl, harrived⟩⟩
          have hread := hreads.append (Reads.single_more hb hok hnext)
          rw [hpoint]
          exact hread
      | inr data =>
          refine ⟨none, ?_, .inr ⟨by rw [hpoint]; rfl, harrived⟩⟩
          have hread := hreads.append (Reads.single_last hb hok hnext)
          rw [hpoint]
          exact hread

variable [Fintype β]

theorem Following.point {p : Point} {key : Key} (h : Following P s) (hmain : s.main = .standing p)
    (hstep : PointStep P s key p s') : Following P s' := by
  have hp : s.main.point = p := by rw [hmain]; rfl
  cases hstep with
  | begin | stop =>
      refine h.keep rfl rfl rfl rfl (by rw [hp]; rfl) (.inr ⟨by rw [hp]; exact nofun, ?_⟩)
      rw [hp]
      rfl
  | @prologue call rest =>
      cases call <;>
        exact h.keep rfl rfl rfl rfl (by rw [hp]; rfl)
          (.inr ⟨by rw [hp]; exact nofun, by rw [hp]; rfl⟩)
  | @epilogue call rest _ hcall =>
      obtain ⟨hpoint, -, hhandled, hconsumed, hinbox, harrived, -⟩ := closeStep_fields hcall
      exact h.keep hconsumed hhandled hinbox harrived (by rw [hpoint, hp]; rfl)
        (.inl ⟨rest, hpoint⟩)
  | loop =>
      by_cases hactive : s.active = true
      · rw [if_pos hactive]
        exact h.keep rfl rfl rfl rfl (by rw [hp]; rfl)
          (.inr ⟨by rw [hp]; exact nofun, by rw [hp]; rfl⟩)
      · rw [if_neg hactive]
        exact h.keep rfl rfl rfl rfl (by rw [hp]; rfl) (.inl ⟨_, rfl⟩)
  | frame hinbox hb hok => exact h.frame hmain hinbox hb hok
  | exhausted | refused => exact h.keep rfl rfl rfl rfl (by rw [hp]; rfl) (.inl ⟨_, rfl⟩)
  | handle => exact h.handle hmain

variable [DecidableEq β]

theorem MainStep.following (hstep : MainStep P s s') (hplaced : Placed s) (h : Following P s) :
    Following P s' := by
  cases hstep with
  | acquire hmain _ => exact h.call rfl rfl rfl rfl (by rw [hmain]; rfl)
  | test hmain _ => exact h.call rfl rfl rfl rfl (by rw [hmain]; rfl)
  | @release x k k' result mutex hmain _ =>
      refine h.release hmain (hplaced.calling x k k' hmain) ?_ rfl rfl rfl rfl rfl
      cases result with
      | true => exact .inl rfl
      | false => exact .inr rfl
  | @write x k k' rest n hmain _ _ =>
      have hpoint : (wrote s .main n x rest).main.point = s.main.point := by
        rw [(wrote_main _ _ hmain).1, hmain]
        rfl
      refine h.call ?_ ?_ ?_ ?_ hpoint <;> (rw [wrote]; split <;> rfl)
  | refuse hmain _ => exact h.call rfl rfl rfl rfl (by rw [hmain]; rfl)
  | point hmain hpoint => exact h.point hmain hpoint

end Following

section Shutting

/-- The socket is shut down only after the session has been ended. -/
def Shutting (s : State β V W) : Prop := s.watch = .shutdown ∨ s.shut = true → s.active = false

theorem shutting_start (c : Clock) : Shutting (P.start c) := by
  rintro (h | h) <;> cases h

theorem Shutting.keep (h : Shutting s) (hwatch : s'.watch = .shutdown → s.watch = .shutdown)
    (hshut : s'.shut = s.shut) (hactive : s.active = false → s'.active = false) : Shutting s' := by
  rintro (hw | hs)
  · exact hactive (h (.inl (hwatch hw)))
  · exact hactive (h (.inr (hshut ▸ hs)))

theorem Shutting.watchStep (h : Shutting s) (hstep : watchStep P s = some s') : Shutting s' := by
  rw [Threads.watchStep] at hstep
  split at hstep <;> cases hstep
  case h_5 => exact fun _ => rfl
  case h_6 hw => exact fun _ => h (.inl hw)
  all_goals
    refine h.keep (fun hbad => ?_) rfl id
    first
      | cases hbad
      | (change (if _ then _ else _) = Watch.shutdown at hbad; split at hbad <;> cases hbad)

variable [Fintype β]

theorem Shutting.point {p : Point} {key : Key} (h : Shutting s) (hstep : PointStep P s key p s') :
    Shutting s' := by
  cases hstep with
  | begin | loop | exhausted | refused | handle => exact h.keep id rfl id
  | stop => exact h.keep id rfl fun _ => rfl
  | @prologue call rest =>
      cases call with
      | spawn =>
          refine h.keep (fun hbad => ?_) rfl id
          change (if P.watches then Watch.loop else .done) = _ at hbad
          split at hbad <;> cases hbad
      | send data => exact h.keep id rfl id
  | @epilogue call rest _ hcall =>
      cases call with
      | join =>
          obtain ⟨-, hcall⟩ := Option.ite_none_right_eq_some.mp hcall
          cases hcall
          exact h.keep id rfl id
      | clear =>
          cases hcall
          exact h.keep id rfl fun _ => rfl
      | close | send | control =>
          cases hcall
          exact h.keep id rfl id
  | @frame a f b rest =>
      cases hnext : a.next f with
      | none =>
          obtain ⟨m, hm, -⟩ := frameStep_of_refused (P := P) (s := { s with inbox := rest })
            key hnext b
          rw [hm]
          exact h.keep id rfl id
      | some y =>
          obtain ⟨m, hm, -⟩ := frameStep_of_next (P := P) (s := { s with inbox := rest })
            key hnext b
          rw [hm]
          exact h.keep id rfl id

variable [DecidableEq β] {l : Label β}

theorem Shutting.step (h : Shutting s) (hstep : Step P s l s') : Shutting s' := by
  cases hstep with
  | arrive | hangUp | time | acquire | test | release | refuse => exact h.keep id rfl id
  | @write t n x rest =>
      refine h.keep ?_ ?_ ?_ <;> rw [wrote] <;> split <;> first | exact id | rfl
  | point _ hpoint => exact h.point hpoint
  | @beat b choice _ _ hbeat =>
      cases hy : s.beats b with
      | clear =>
          rw [hy] at hbeat
          cases hbeat
          exact h.keep id rfl fun _ => rfl
      | loop | asleep | recheck | build =>
          rw [hy] at hbeat
          cases hbeat
          exact h.keep id rfl id
      | unborn | sending | done =>
          rw [hy] at hbeat
          cases hbeat
  | watch hwatch => exact h.watchStep hwatch

end Shutting

section Leaving

/-- Why the main thread may have left its loop. -/
inductive Left (P : Program β V W) (c : Clock) (s : State β V W) : Prop
  | stopped (h : Stopped P c s)
  | interrupted (h : s.interrupted = true)
  | broken (h : s.broken = true)
  | exhausted {a left} (hended : s.ended = true)
      (hreads : Reads (!P.masked) none s.consumed (s.handled.map Prod.fst) a)
      (harrived : s.arrived = s.consumed ++ s.inbox)
      (hread : readFrame (!P.masked) a.held s.inbox = .error .endOfStream left)

/-- On a stream of messages the main thread leaves its loop for no other reason. -/
def Leaving (P : Program β V W) (c : Clock) (w : Bytes) (s : State β V W) : Prop :=
  s.arrived <+: w → s.main.point.Over → Left P c s

variable {w : Bytes} {ms : List Bytes}

theorem leaving_start (c : Clock) : Leaving P c w (P.start c) := by
  rintro - ⟨rest, h⟩
  cases h

theorem Left.keep (h : Left P c s) (hhandled : s'.handled = s.handled)
    (hint : s.interrupted = true → s'.interrupted = true)
    (hbroken : s.broken = true → s'.broken = true) (hended : s.ended = true → s'.ended = true)
    (hstream : s.ended = true → s'.consumed = s.consumed ∧ s'.inbox = s.inbox ∧
      s'.arrived = s.arrived) : Left P c s' := by
  cases h with
  | stopped h => exact .stopped (by rwa [Stopped, hhandled])
  | interrupted h => exact .interrupted (hint h)
  | broken h => exact .broken (hbroken h)
  | exhausted he hreads harrived hread =>
      obtain ⟨hconsumed, hinbox, harr⟩ := hstream he
      refine .exhausted (hended he) (a := _) ?_ ?_ (hinbox ▸ hread)
      · rwa [hconsumed, hhandled]
      · rwa [harr, hconsumed, hinbox]

theorem Aside.leaving (haside : Aside s s') (h : Leaving P c w s) : Leaving P c w s' := by
  intro harrived hover
  have hold : s.arrived <+: w := by
    rcases haside.stream with ⟨-, harr⟩ | ⟨-, b, -, harr⟩
    · rwa [harr] at harrived
    · exact (harr ▸ List.prefix_append s.arrived b).trans harrived
  refine (h hold (haside.main ▸ hover)).keep haside.handled ?_ haside.broken haside.ended ?_
  · intro hint
    rcases haside.active with ⟨-, hint'⟩ | ⟨-, hint'⟩
    · rw [hint', hint]
    · rw [hint', hint, Bool.true_or]
  · intro hended
    rcases haside.stream with ⟨hinbox, harr⟩ | ⟨hbad, -⟩
    · exact ⟨haside.consumed, hinbox, harr⟩
    · cases hended.symm.trans hbad

/-- On a stream of messages, what is left to read begins with a frame of a message. -/
theorem Following.rest (h : Following P s) (hw : Reads (!P.masked) none w ms none)
    (harrived : s.arrived <+: w) {a : Assembly} (hmain : s.main = .standing (.reading a)) :
    ∃ more ns, ms = s.handled.map Prod.fst ++ ns ∧ w = s.arrived ++ more ∧
      Reads (!P.masked) a (s.inbox ++ more) ns none := by
  obtain ⟨⟨a₀, hreads, hplace⟩, -⟩ := h
  rw [hmain] at hreads hplace
  obtain ⟨ha, hall⟩ := hplace.resolve_left nofun
  have ha' : a = a₀ := ha.symm
  subst ha'
  obtain ⟨more, rfl⟩ := harrived
  rw [hall, List.append_assoc] at hw
  have hempty : s.handled.map Prod.fst ++ (Main.standing (.reading a) : Main β).point.unhandled =
      s.handled.map Prod.fst := List.append_nil _
  rw [hempty] at hreads
  obtain ⟨ns, hns, hrest⟩ := hreads.residual hw
  exact ⟨more, ns, hns, rfl, hrest⟩

variable [Fintype β]

theorem leaving_point {p : Point} {key : Key} (hw : Reads (!P.masked) none w ms none)
    (hplaced : Placed s) (hhandling : Handling P c s) (hshutting : Shutting s)
    (hfollowing : Following P s) (h : Leaving P c w s) (hmain : s.main = .standing p)
    (hstep : PointStep P s key p s') : Leaving P c w s' := by
  intro harrived hover
  have hpoint : s.main.point = p := by rw [hmain]; rfl
  have hinactive : ∀ a, p = .reading a → s.active = false → s.interrupted = true := by
    rintro a rfl hfalse
    rcases hhandling.inactive hfalse with hint | ⟨hbad, -⟩ | ⟨rest, hbad⟩
    · exact hint
    · rw [hmain] at hbad
      cases hbad
    · rw [hpoint] at hbad
      cases hbad
  cases hstep with
  | begin | stop =>
      obtain ⟨rest, hbad⟩ := hover
      cases hbad
  | @prologue call rest =>
      obtain ⟨rest, hbad⟩ := hover
      cases call <;> cases hbad
  | @epilogue call rest _ hcall =>
      obtain ⟨-, -, hhandled, hconsumed, hinbox, harr, hended, -, hbroken, hint, -, -⟩ :=
        closeStep_fields hcall
      refine (h (harr ▸ harrived) ⟨_, hpoint⟩).keep hhandled (fun hi => hint.trans hi)
        (fun hb => hbroken.trans hb) (fun he => hended.trans he) fun _ => ⟨hconsumed, hinbox, harr⟩
  | loop =>
      by_cases hactive : s.active = true
      · rw [if_pos hactive] at hover
        obtain ⟨rest, hbad⟩ := hover
        cases hbad
      · rw [Bool.not_eq_true] at hactive
        rcases hhandling.inactive hactive with hint | ⟨-, hstop⟩ | ⟨rest, hbad⟩
        · exact .interrupted hint
        · exact .stopped hstop
        · rw [hpoint] at hbad
          cases hbad
  | @frame a f b rest hinbox hb hok =>
      exfalso
      cases hnext : a.next f with
      | none =>
          obtain ⟨m, hm, -⟩ := frameStep_of_refused (P := P) (s := { s with inbox := rest })
            key hnext b
          rw [hm] at harrived
          obtain ⟨more, ns, -, -, hrest⟩ := hfollowing.rest hw harrived hmain
          rw [hinbox, List.append_assoc] at hrest
          have hsome := hrest.next_isSome hb hok
          rw [hnext] at hsome
          cases hsome
      | some y =>
          obtain ⟨m, hm, -, hplace⟩ := frameStep_of_next (P := P) (s := { s with inbox := rest })
            key hnext b
          rw [hm] at hover
          obtain ⟨rest, hover⟩ := hover
          obtain ⟨x, a', -, -, rfl⟩ | rfl := hplace
          · cases hover
          · cases y <;> cases hover
  | @exhausted a left hread hcause =>
      rcases hcause with hended | hshut | hclosed
      · obtain ⟨⟨a₀, hreads, hplace⟩, -⟩ := hfollowing
        rw [hmain] at hreads hplace
        obtain ⟨ha, hall⟩ := hplace.resolve_left nofun
        have ha' : a = a₀ := ha.symm
        subst ha'
        refine .exhausted hended ?_ hall hread
        rw [← List.append_nil (List.map Prod.fst _)]
        exact hreads
      · exact .interrupted (hinactive a rfl (hshutting (.inr hshut)))
      · obtain ⟨rest, hbad⟩ := hplaced.closed hclosed
        rw [hpoint] at hbad
        cases hbad
  | refused hread =>
      obtain ⟨more, ns, -, -, hrest⟩ := hfollowing.rest hw harrived hmain
      exact absurd hread hrest.readFrame_part
  | @handle data =>
      obtain ⟨rest, hbad⟩ := hover
      rw [handleStep] at hbad
      cases hreply : (P.handle s.vars s.clock.nowMs data).reply <;> rw [hreply] at hbad <;>
        cases hstop : (P.handle s.vars s.clock.nowMs data).stop <;> rw [hstop] at hbad <;> cases hbad

variable [DecidableEq β]

theorem MainStep.leaving (hstep : MainStep P s s') (hw : Reads (!P.masked) none w ms none)
    (hplaced : Placed s) (hhandling : Handling P c s) (hshutting : Shutting s)
    (hfollowing : Following P s) (h : Leaving P c w s) : Leaving P c w s' := by
  cases hstep with
  | acquire hmain _ | test hmain _ =>
      intro harrived hover
      refine (h harrived (by rw [hmain]; exact hover)).keep rfl id id id fun _ => ⟨rfl, rfl, rfl⟩
  | refuse hmain _ => exact fun _ _ => .broken rfl
  | @release x k k' result mutex hmain hphase =>
      intro harrived hover
      have hkeep : k.Over → Left P c s := fun hk => h harrived (by rw [hmain]; exact hk)
      suffices Left P c s from this.keep rfl id id id fun _ => ⟨rfl, rfl, rfl⟩
      cases result with
      | true => exact hkeep hover
      | false =>
          have hcalling := hplaced.calling x k k' hmain
          obtain ⟨origin, f, phase⟩ := x
          cases hphase
          cases hcalling with
          | reply => exact hkeep hover
          | script => exact hkeep hover
          | control _ _ hbroken => exact .broken (hbroken rfl)
  | @write x k k' rest n hmain _ _ =>
      have hsame : (wrote s .main n x rest).handled = s.handled ∧
          (wrote s .main n x rest).interrupted = s.interrupted ∧
          (wrote s .main n x rest).ended = s.ended ∧
          (wrote s .main n x rest).consumed = s.consumed ∧
          (wrote s .main n x rest).inbox = s.inbox ∧
          (wrote s .main n x rest).arrived = s.arrived := by
        rw [wrote]
        split <;> exact ⟨rfl, rfl, rfl, rfl, rfl, rfl⟩
      obtain ⟨hhandled, hint, hended, hconsumed, hinbox, harr⟩ := hsame
      intro harrived hover
      rw [(wrote_main _ _ hmain).1] at hover
      refine (h (harr ▸ harrived) (by rw [hmain]; exact hover)).keep hhandled
        (fun hi => hint.trans hi) (fun hb => (wrote_main _ _ hmain).2.1.trans hb)
        (fun he => hended.trans he) fun _ => ⟨hconsumed, hinbox, harr⟩
  | point hmain hpoint =>
      exact leaving_point hw hplaced hhandling hshutting hfollowing h hmain hpoint

end Leaving

section Runs

variable [DecidableEq β] {w : Bytes} {ms : List Bytes}

/-- What holds in every state of a session. -/
structure Orderly (P : Program β V W) (c : Clock) (s : State β V W) : Prop where
  exclusive : Exclusive s
  placed : Placed s
  handling : Handling P c s
  answering : Answering P c s
  following : Following P s
  shutting : Shutting s

theorem orderly_start (c : Clock) : Orderly P c (P.start c) :=
  ⟨exclusive_start c, placed_start c, handling_start c, answering_start c, following_start c,
    shutting_start c⟩

/-- The main thread waits for octets that have not arrived, or it has left its loop. -/
def State.AtRest (P : Program β V W) (s : State β V W) : Prop :=
  s.main.point.Over ∨ ∃ a left, s.main = .standing (.reading a) ∧
    readFrame (!P.masked) a.held s.inbox = .error .endOfStream left

theorem Orderly.prefix_of_arrived (h : Orderly P c s) (hw : Reads (!P.masked) none w ms none)
    (harrived : s.arrived <+: w) : s.handled.map Prod.fst <+: ms := by
  obtain ⟨⟨a, hreads, -⟩, hpre⟩ := h.following
  obtain ⟨more, rfl⟩ := hpre.trans harrived
  obtain ⟨ns, rfl, -⟩ := hreads.residual hw
  exact (List.prefix_append _ _).trans (List.prefix_append _ _)

/-- A reader that has everything and waits has brought all messages. -/
theorem eq_of_exhausted {m : Bool} {a : Assembly} {b inbox left : Bytes} {ns : List Bytes}
    (hreads : Reads m none b ns a) (hw : Reads m none (b ++ inbox) ms none)
    (hread : readFrame m a.held inbox = .error .endOfStream left) : ns = ms := by
  obtain ⟨ns', rfl, hrest⟩ := hreads.residual hw
  have hnil := hrest.eq_nil_of_endOfStream hread
  subst hnil
  generalize hb : ([] : Bytes) = b' at hrest
  cases hrest with
  | nil => exact (List.append_nil ns).symm
  | more hf | last hf =>
      have hpos := length_pos_of_encodes hf
      rw [(List.append_eq_nil_iff.mp hb.symm).1] at hpos
      cases hpos

/-- With nothing refused and nothing interrupted, a main thread at rest has answered every message
it has handled. -/
theorem Orderly.replies_of_rest (h : Orderly P c s) (hbroken : s.broken = false)
    (hint : s.interrupted = false) (hrest : s.AtRest P) :
    s.replies = outputs P.reactor (P.initial c.nowMs) s.handled := by
  have hpending : s.main.pending = [] := by
    rcases hrest with hover | ⟨a, left, hmain, -⟩
    · cases hmain : s.main with
      | standing p => rfl
      | sending x k k' =>
          have hcalling := h.placed.calling x k k' hmain
          rw [hmain] at hover
          cases hcalling with
          | reply hk =>
              obtain ⟨rest, hbad⟩ := hover
              change _ = _ at hbad
              rcases hk with rfl | rfl <;> cases hbad
          | script => rfl
          | control => rfl
    · rw [hmain]
      rfl
  rcases h.answering with hfull | ⟨-, hcut⟩
  · rwa [hpending, List.append_nil] at hfull
  · rcases hcut.cause with hbad | ⟨hbad, -⟩
    · cases hbroken.symm.trans hbad
    · cases hint.symm.trans hbad

variable [Fintype β]

theorem Orderly.step {l : Label β} (h : Orderly P c s) (hstep : step P s l = some s') :
    Orderly P c s' := by
  have hcases := step_cases hstep
  have hex := h.exclusive.step hcases
  have hshut := h.shutting.step hcases
  rcases step_main_or_aside h.exclusive hcases with hmain | haside
  · exact ⟨hex, hmain.placed h.exclusive h.placed, hmain.handling h.placed h.handling,
      hmain.answering h.placed h.handling h.answering, hmain.following h.placed h.following, hshut⟩
  · exact ⟨hex, haside.placed h.placed, haside.handling h.handling, haside.answering h.answering,
      haside.following h.following, hshut⟩

theorem orderly_of_reaches (h : Transitions.Reaches (step P) (P.start c) s) : Orderly P c s :=
  h.invariant (fun _ _ _ horderly hstep => horderly.step hstep) (orderly_start c)

/-- A message is handled only if none before it has stopped the session. -/
theorem answered_of_reaches (h : Transitions.Reaches (step P) (P.start c) s) :
    answered P.reactor (P.initial c.nowMs) s.handled = s.handled := by
  have hboth : Orderly P c s ∧ answered P.reactor (P.initial c.nowMs) s.handled = s.handled := by
    refine h.invariant (I := fun s => Orderly P c s ∧
      answered P.reactor (P.initial c.nowMs) s.handled = s.handled) ?_ ⟨orderly_start c, rfl⟩
    rintro s l s' ⟨horderly, hanswered⟩ hstep
    refine ⟨horderly.step hstep, ?_⟩
    rcases handles_of_step (step_cases hstep) with ⟨_, data, -, hmain, rfl⟩ | ⟨hhandled, -⟩
    · exact answered_concat (horderly.handling.running hmain) _
    · rwa [hhandled]
  exact hboth.2

/-- Once a message has stopped the session, no other message is handled. -/
theorem handled_of_stopped (h : Transitions.Reaches (step P) (P.start c) s) (hstop : Stopped P c s)
    (h' : Transitions.Reaches (step P) s s') : s'.handled = s.handled := by
  have hboth : Orderly P c s' ∧ s'.handled = s.handled := by
    refine h'.invariant (I := fun s' => Orderly P c s' ∧ s'.handled = s.handled) ?_
      ⟨orderly_of_reaches h, rfl⟩
    rintro s₁ l s₂ ⟨horderly, hsame⟩ hstep
    refine ⟨horderly.step hstep, ?_⟩
    rcases handles_of_step (step_cases hstep) with ⟨_, data, -, hmain, rfl⟩ | ⟨hhandled, -⟩
    · rw [Stopped, ← hsame, horderly.handling.running hmain] at hstop
      cases hstop
    · exact hhandled.trans hsame
  exact hboth.2

theorem leaving_of_reaches (hw : Reads (!P.masked) none w ms none)
    (h : Transitions.Reaches (step P) (P.start c) s) : Leaving P c w s := by
  have hboth : Orderly P c s ∧ Leaving P c w s := by
    refine h.invariant (I := fun s => Orderly P c s ∧ Leaving P c w s) ?_
      ⟨orderly_start c, leaving_start c⟩
    rintro s l s' ⟨horderly, hleaving⟩ hstep
    refine ⟨horderly.step hstep, ?_⟩
    rcases step_main_or_aside horderly.exclusive (step_cases hstep) with hmain | haside
    · exact hmain.leaving hw horderly.placed horderly.handling horderly.shutting
        horderly.following hleaving
    · exact haside.leaving hleaving
  exact hboth.2

/-- With the stream arrived, nothing refused and nothing interrupted, a main thread at rest has
handled every message up to the first that stops it. -/
theorem handled_of_rest (hw : Reads (!P.masked) none w ms none)
    (h : Transitions.Reaches (step P) (P.start c) s) (harrived : s.arrived = w)
    (hbroken : s.broken = false) (hint : s.interrupted = false) (hrest : s.AtRest P) :
    Stopped P c s ∨ s.handled.map Prod.fst = ms := by
  have horderly := orderly_of_reaches h
  rcases hrest with hover | ⟨a, left, hmain, hread⟩
  · cases leaving_of_reaches hw h (harrived ▸ List.prefix_refl _) hover with
    | stopped hstop => exact .inl hstop
    | interrupted hbad => cases hint.symm.trans hbad
    | broken hbad => cases hbroken.symm.trans hbad
    | exhausted _ hreads hall hread =>
        rw [← harrived, hall] at hw
        exact .inr (eq_of_exhausted hreads hw hread)
  · obtain ⟨⟨a₀, hreads, hplace⟩, -⟩ := horderly.following
    rw [hmain] at hreads hplace
    obtain ⟨ha, hall⟩ := hplace.resolve_left nofun
    have ha' : a = a₀ := ha.symm
    subst ha'
    rw [← harrived, hall] at hw
    have hempty : s.handled.map Prod.fst ++ (Main.standing (.reading a) : Main β).point.unhandled =
        s.handled.map Prod.fst := List.append_nil _
    rw [hempty] at hreads
    exact .inr (eq_of_exhausted hreads hw hread)

end Runs

end HelloWebsocket.Cpp.Threads
