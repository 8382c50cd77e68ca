import HelloWebsocket.Cpp.Threads

/-!
# The mutex of a C++ session

The frames of `sendFrame` are written under the mutex, one thread at a time. The
replies to control frames are not: `wsRecvFrame` sends them without the mutex, so the
main thread may be inside `sendAll` while another thread holds it.
-/

namespace HelloWebsocket.Cpp.Threads

open Ws

variable {β V W : Type} {P : Program β V W} {s s' : State β V W}

section Calls

variable {t t' : Thread β} {x : Sending β}

theorem sending?_main_iff : s.sending? .main = some x ↔ ∃ k k', s.main = .sending x k k' := by
  rw [State.sending?]
  cases s.main <;> simp [Main.call?]

theorem sending?_beat_iff {b : β} : s.sending? (.beat b) = some x ↔ s.beats b = .sending x := by
  rw [State.sending?]
  cases s.beats b <;> simp [Beat.call?]

variable [DecidableEq β]

/-- A call that moves on is the call of its thread, and no other call. -/
theorem sending?_moveSending (phase : Phase) : (s.moveSending t phase).sending? t' =
    if t' = t then (s.sending? t).map fun x => { x with phase } else s.sending? t' := by
  cases t' with
  | watch =>
      cases t with
      | watch => rfl
      | _ => rfl
  | main =>
      cases t with
      | main =>
          rw [if_pos rfl]
          cases hmain : s.main <;> simp [State.sending?, State.moveSending, Main.moved, Main.call?, hmain]
      | _ => rfl
  | beat b =>
      cases t with
      | beat b' =>
          by_cases hb : b = b'
          · subst hb
            rw [if_pos rfl]
            cases hbeat : s.beats b <;>
              simp [State.sending?, State.moveSending, Beat.moved, Beat.call?, hbeat]
          · rw [if_neg (by simpa using hb)]
            simp [State.sending?, State.moveSending, hb]
      | _ => rfl

/-- A call that has returned is over, and no other call is. -/
theorem sending?_returned (hx : s.sending? t = some x) (result : Bool) :
    (returned P s t result).sending? t' = if t' = t then none else s.sending? t' := by
  cases t' with
  | watch =>
      cases t with
      | watch => cases hx
      | _ => rfl
  | main =>
      cases t with
      | main =>
          obtain ⟨k, k', hmain⟩ := sending?_main_iff.mp hx
          simp [State.sending?, returned, Main.returned, Main.call?, hmain]
      | _ => rfl
  | beat b =>
      cases t with
      | beat b' =>
          by_cases hb : b = b'
          · subst hb
            rw [if_pos rfl]
            cases result <;> simp [State.sending?, returned, Beat.call?]
          · rw [if_neg (by simpa using hb)]
            simp [State.sending?, returned, hb]
      | _ => rfl

theorem sending?_withBeat (b : β) (y : Beat β) : (s.withBeat b y).sending? t' =
    if t' = .beat b then y.call? else s.sending? t' := by
  cases t' with
  | watch => rfl
  | main => rfl
  | beat b' =>
      by_cases hb : b' = b
      · subst hb
        simp [State.sending?, State.withBeat]
      · rw [if_neg (by simpa using hb)]
        simp [State.sending?, State.withBeat, hb]

end Calls

section Opening

variable {key : Key} {p : Point}

/-- A call at its beginning: before the lock, or with all the octets of a control frame left. -/
def Sending.Opens (P : Program β V W) (key : Key) (x : Sending β) : Prop :=
  (∃ data, x = .data .reply data ∨ x = .data .script data) ∨
    (x.origin = .control ∧ x.phase = .write (P.octets key x.frame))

theorem others_of_beats (hbeats : s'.beats = s.beats) (t : Thread β) (x : Sending β)
    (ht : t ≠ .main) (hx : s'.sending? t = some x) : s.sending? t = some x := by
  cases t with
  | main => exact absurd rfl ht
  | beat b => rwa [State.sending?, hbeats] at hx
  | watch => exact hx

/-- A frame that the message goes on with, a ping or a pong too. -/
theorem frameStep_of_next (key : Key) {a : Assembly} {f : Ws.Frame} {y : Assembly ⊕ Bytes}
    (hnext : a.next f = some y) (b : Bytes) : ∃ m,
      frameStep P s key a b f = { s with consumed := s.consumed ++ b, main := m } ∧
      (∀ x, m.call? = some x → x.Opens P key) ∧
      ((∃ x a', y = .inl a' ∧ x.origin = .control ∧
          m = .sending x (.reading a') (.epilogue P.epilogue)) ∨
        m = .standing (y.elim .reading .handling)) := by
  rw [Assembly.next] at hnext
  by_cases hclose : f.opcode = 8
  · rw [if_neg (by rw [hclose]; decide)] at hnext
    rcases Assembly.opcode_of_place hnext with hop | hop <;>
      (rw [hop] at hclose; exact absurd hclose (by decide))
  by_cases hping : f.opcode = 9
  · rw [if_pos (.inl hping)] at hnext
    cases hnext
    rw [frameStep, if_neg hclose, if_pos hping]
    refine ⟨_, rfl, fun x hx => ?_, .inl ⟨_, a, rfl, rfl, rfl⟩⟩
    cases hx
    exact .inr ⟨rfl, rfl⟩
  by_cases hpong : f.opcode = 10
  · rw [if_pos (.inr hpong)] at hnext
    cases hnext
    rw [frameStep, if_neg hclose, if_neg hping, if_pos hpong]
    exact ⟨_, rfl, fun x hx => (by cases hx), .inr rfl⟩
  · rw [if_neg (not_or.mpr ⟨hping, hpong⟩)] at hnext
    rw [frameStep, if_neg hclose, if_neg hping, if_neg hpong, hnext]
    cases y with
    | inl a' => exact ⟨_, rfl, fun x hx => (by cases hx), .inr rfl⟩
    | inr data => exact ⟨_, rfl, fun x hx => (by cases hx), .inr rfl⟩

/-- A frame that the message does not go on with, a close frame too. -/
theorem frameStep_of_refused (key : Key) {a : Assembly} {f : Ws.Frame} (hnext : a.next f = none)
    (b : Bytes) :
    ∃ m, frameStep P s key a b f = { s with main := m } ∧
      (∀ x, m.call? = some x → x.Opens P key) ∧
      ((∃ x, x.origin = .control ∧
          m = .sending x (.epilogue P.epilogue) (.epilogue P.epilogue)) ∨
        m = .standing (.epilogue P.epilogue)) := by
  rw [Assembly.next] at hnext
  split at hnext
  · cases hnext
  next hcontrol =>
  by_cases hclose : f.opcode = 8
  · rw [frameStep, if_pos hclose]
    refine ⟨_, rfl, fun x hx => ?_, .inl ⟨_, rfl, rfl⟩⟩
    cases hx
    exact .inr ⟨rfl, rfl⟩
  · obtain ⟨hping, hpong⟩ := not_or.mp hcontrol
    rw [frameStep, if_neg hclose, if_neg hping, if_neg hpong, hnext]
    exact ⟨_, rfl, fun x hx => (by cases hx), .inr rfl⟩

/-- A frame changes the place of the main thread and what has been read, and nothing else. -/
theorem frameStep_eq (key : Key) (a : Assembly) (b : Bytes) (f : Ws.Frame) : ∃ m consumed,
    frameStep P s key a b f = { s with consumed, main := m } := by
  cases hnext : a.next f with
  | none =>
      obtain ⟨m, hm, -⟩ := frameStep_of_refused (P := P) (s := s) key hnext b
      exact ⟨m, s.consumed, hm⟩
  | some y =>
      obtain ⟨m, hm, -⟩ := frameStep_of_next (P := P) (s := s) key hnext b
      exact ⟨m, s.consumed ++ b, hm⟩

theorem calls_of_frameStep (a : Assembly) (b : Bytes) (f : Ws.Frame) :
    (frameStep P s key a b f).mutex = s.mutex ∧
      (∀ t x, t ≠ .main → (frameStep P s key a b f).sending? t = some x → s.sending? t = some x) ∧
      ∀ x, (frameStep P s key a b f).sending? .main = some x → x.Opens P key := by
  cases hnext : a.next f with
  | none =>
      obtain ⟨m, hm, hopens, -⟩ := frameStep_of_refused (P := P) (s := s) key hnext b
      rw [hm]
      exact ⟨rfl, others_of_beats rfl, hopens⟩
  | some y =>
      obtain ⟨m, hm, hopens, -⟩ := frameStep_of_next (P := P) (s := s) key hnext b
      rw [hm]
      exact ⟨rfl, others_of_beats rfl, hopens⟩

theorem opens_of_handleStep {data : Bytes} {x : Sending β}
    (hx : (handleStep P s data).sending? .main = some x) : x.Opens P key := by
  rw [handleStep] at hx
  cases hreply : (P.handle s.vars s.clock.nowMs data).reply with
  | none => simp [hreply, State.sending?, Main.call?] at hx
  | some reply =>
      simp only [hreply, State.sending?, Main.call?, Option.some.injEq] at hx
      subst hx
      exact .inl ⟨_, .inl rfl⟩

theorem calls_of_openStep (call : Opening) : (openStep P s p call).mutex = s.mutex ∧
    (∀ t x, t ≠ .main → (openStep P s p call).sending? t = some x → s.sending? t = some x) ∧
    ∀ x, (openStep P s p call).sending? .main = some x → x.Opens P key := by
  cases call with
  | spawn =>
      refine ⟨rfl, fun t x ht hx => ?_, fun x hx => by cases hx⟩
      cases t with
      | main => exact absurd rfl ht
      | beat b => cases hx
      | watch => cases hx
  | send data =>
      refine ⟨rfl, others_of_beats rfl, fun x hx => ?_⟩
      cases hx
      exact .inl ⟨_, .inr rfl⟩

variable [Fintype β]

theorem calls_of_closeStep {call : Closing} (h : closeStep P s key p call = some s') :
    s'.mutex = s.mutex ∧
      (∀ t x, t ≠ .main → s'.sending? t = some x → s.sending? t = some x) ∧
      ∀ x, s'.sending? .main = some x → x.Opens P key := by
  cases call with
  | clear | close =>
      cases h
      exact ⟨rfl, others_of_beats rfl, fun x hx => by cases hx⟩
  | join =>
      obtain ⟨-, h⟩ := Option.ite_none_right_eq_some.mp h
      cases h
      exact ⟨rfl, others_of_beats rfl, fun x hx => by cases hx⟩
  | send data =>
      cases h
      refine ⟨rfl, others_of_beats rfl, fun x hx => ?_⟩
      cases hx
      exact .inl ⟨_, .inr rfl⟩
  | control f =>
      cases h
      refine ⟨rfl, others_of_beats rfl, fun x hx => ?_⟩
      cases hx
      exact .inr ⟨rfl, rfl⟩

/-- Outside of a call the main thread may begin one, and it ends none of another thread. -/
theorem calls_of_pointStep (h : PointStep P s key p s') :
    s'.mutex = s.mutex ∧
      (∀ t x, t ≠ .main → s'.sending? t = some x → s.sending? t = some x) ∧
      ∀ x, s'.sending? .main = some x → x.Opens P key := by
  cases h with
  | begin | loop | exhausted | refused | stop =>
      exact ⟨rfl, others_of_beats rfl, fun x hx => by cases hx⟩
  | prologue => exact calls_of_openStep _
  | epilogue hcall => exact calls_of_closeStep hcall
  | @frame a f b rest => exact calls_of_frameStep (s := { s with inbox := rest }) a b f
  | handle => exact ⟨rfl, others_of_beats rfl,
      fun x hx => opens_of_handleStep hx⟩

end Opening

section Invariant

/-- A call of a thread as the mutex allows it: a control frame goes without the mutex, every other
frame is inside of it once the lock is taken. -/
def Admitted (mutex : Option (Thread β)) (t : Thread β) (x : Sending β) : Prop :=
  x.origin.thread = t ∧
    ((x.origin = .control ∧ x.phase ≠ .acquire ∧ x.phase ≠ .test) ∨
      (x.origin ≠ .control ∧ (x.phase = .acquire ∨ mutex = some t)))

/-- Every call is as the mutex allows it. -/
def Exclusive (s : State β V W) : Prop := ∀ t x, s.sending? t = some x → Admitted s.mutex t x

theorem exclusive_start (c : Clock) : Exclusive (P.start c) := by
  intro t x hx
  cases t <;> cases hx

/-- A step that leaves the calls of other threads and their hold on the mutex alone. -/
theorem Exclusive.of_thread {t : Thread β} (h : Exclusive s)
    (hothers : ∀ t' x, t' ≠ t → s'.sending? t' = some x → s.sending? t' = some x)
    (hmutex : ∀ t', t' ≠ t → s.mutex = some t' → s'.mutex = some t')
    (hown : ∀ x, s'.sending? t = some x → Admitted s'.mutex t x) : Exclusive s' := by
  intro t' x hx
  by_cases ht : t' = t
  · subst ht
    exact hown x hx
  · obtain ⟨hthread, hcontrol | ⟨hlocked, hphase⟩⟩ := h t' x (hothers t' x ht hx)
    · exact ⟨hthread, .inl hcontrol⟩
    · exact ⟨hthread, .inr ⟨hlocked, hphase.imp_right (hmutex t' ht)⟩⟩

theorem Sending.Opens.admitted {key : Key} {x : Sending β} (h : x.Opens P key)
    (mutex : Option (Thread β)) : Admitted mutex .main x := by
  obtain ⟨data, rfl | rfl⟩ | ⟨horigin, hphase⟩ := h
  · exact ⟨rfl, .inr ⟨nofun, .inl rfl⟩⟩
  · exact ⟨rfl, .inr ⟨nofun, .inl rfl⟩⟩
  · exact ⟨by rw [horigin]; rfl,
      .inl ⟨horigin, by rw [hphase]; exact nofun, by rw [hphase]; exact nofun⟩⟩

theorem Exclusive.of_calls (h : Exclusive s) (hcalls : ∀ t, s'.sending? t = s.sending? t)
    (hmutex : s'.mutex = s.mutex) : Exclusive s' := by
  intro t x hx
  rw [hmutex]
  exact h t x ((hcalls t).symm.trans hx)

theorem watchStep_fields (hstep : watchStep P s = some s') :
    s'.mutex = s.mutex ∧ s'.main = s.main ∧ s'.beats = s.beats := by
  rw [watchStep] at hstep
  split at hstep <;> cases hstep <;> exact ⟨rfl, rfl, rfl⟩

variable [DecidableEq β]

/-- Moving a call on inside the lock, or inside `sendAll`. -/
theorem Exclusive.moveSending {t : Thread β} {x : Sending β} {phase : Phase} (h : Exclusive s)
    (hx : s.sending? t = some x) (hheld : x.phase ≠ .acquire)
    (hphase : phase ≠ .acquire ∧ phase ≠ .test) : Exclusive (s.moveSending t phase) := by
  refine h.of_thread (t := t) ?_ (fun _ _ => id) ?_
  · intro t' y ht hy
    rwa [sending?_moveSending, if_neg ht] at hy
  · intro y hy
    rw [sending?_moveSending, if_pos rfl, hx] at hy
    cases hy
    obtain ⟨hthread, ⟨hcontrol, -⟩ | ⟨hlocked, hmutex⟩⟩ := h t x hx
    · exact ⟨hthread, .inl ⟨hcontrol, hphase⟩⟩
    · exact ⟨hthread, .inr ⟨hlocked, .inr (hmutex.resolve_left hheld)⟩⟩

theorem Exclusive.beatStep {b : β} {number : Int64} {y : Beat β} (h : Exclusive s)
    (hstep : beatStep P s b number y = some s') : Exclusive s' := by
  have hset : ∀ s₁ : State β V W, Exclusive s₁ → ∀ y : Beat β,
      (∀ x, y.call? = some x → Admitted s₁.mutex (.beat b) x) → Exclusive (s₁.withBeat b y) := by
    intro s₁ h₁ y hy
    refine h₁.of_thread (t := .beat b) ?_ (fun _ _ => id) ?_
    · intro t' x ht hx
      rwa [sending?_withBeat, if_neg ht] at hx
    · intro x hx
      rw [sending?_withBeat, if_pos rfl] at hx
      exact hy x hx
  cases y with
  | loop | recheck =>
      cases hstep
      refine hset s h _ ?_
      intro x hx
      split at hx <;> cases hx
  | asleep =>
      cases hstep
      exact hset s h _ fun x hx => by cases hx
  | build =>
      cases hstep
      refine hset s h _ ?_
      intro x hx
      cases hx
      exact ⟨rfl, .inr ⟨nofun, .inl rfl⟩⟩
  | clear =>
      cases hstep
      exact hset s.interrupt (h.of_calls (fun t => by cases t <;> rfl) rfl) _ fun x hx => by cases hx
  | unborn | sending | done => cases hstep

theorem wrote_of_closed {t : Thread β} {n : Nat} {x : Sending β} {rest : Bytes}
    (h : s.closed = true) : wrote s t n x rest =
      s.used.moveSending t (if n = rest.length then .release true else .write (rest.drop n)) := by
  rw [wrote, if_pos h]

theorem wrote_of_open {t : Thread β} {n : Nat} {x : Sending β} {rest : Bytes}
    (h : s.closed = false) : wrote s t n x rest = State.moveSending { s with
        written := s.written ++ [(t, rest.take n)]
        sent := if n = rest.length then s.sent ++ [(x.origin, x.frame)] else s.sent } t
      (if n = rest.length then .release true else .write (rest.drop n)) := by
  rw [wrote, if_neg (by rw [h]; decide)]

/-- The state once the kernel has taken octets, apart from the place in the call. -/
theorem wrote_eq (t : Thread β) (n : Nat) (x : Sending β) (rest : Bytes) :
    ∃ s₁ : State β V W, wrote s t n x rest =
        s₁.moveSending t (if n = rest.length then .release true else .write (rest.drop n)) ∧
      s₁.mutex = s.mutex ∧ ∀ t', s₁.sending? t' = s.sending? t' := by
  refine ⟨_, rfl, ?_, ?_⟩
  · split <;> rfl
  · intro t'
    split <;> cases t' <;> rfl

variable [Fintype β] {l : Label β}

/-- The mutex lets one thread at a time into the calls of `sendFrame`. -/
theorem Exclusive.step (h : Exclusive s) (hstep : Step P s l s') : Exclusive s' := by
  cases hstep with
  | arrive | hangUp | time => exact h.of_calls (fun t => by cases t <;> rfl) rfl
  | @acquire t choice x hx hphase hfree =>
      refine h.of_thread (t := t) ?_ ?_ ?_
      · intro t' y ht hy
        rw [sending?_moveSending, if_neg ht] at hy
        cases t' <;> exact hy
      · intro t' _ hheld
        rw [hfree] at hheld
        cases hheld
      · intro y hy
        rw [sending?_moveSending, if_pos rfl, show State.sending? _ t = s.sending? t by cases t <;> rfl,
          hx] at hy
        cases hy
        obtain ⟨hthread, ⟨-, hcontrol, -⟩ | ⟨hlocked, -⟩⟩ := h t x hx
        · exact absurd hphase hcontrol
        · exact ⟨hthread, .inr ⟨hlocked, .inr rfl⟩⟩
  | @test t choice x hx hphase =>
      refine h.moveSending hx (by rw [hphase]; exact nofun) ?_
      split <;> exact ⟨nofun, nofun⟩
  | @release t choice x result hx hphase =>
      have hcalls : ∀ t', State.sending? { s with
          mutex := if x.origin = .control then s.mutex else none } t' = s.sending? t' := by
        intro t'
        cases t' <;> rfl
      refine h.of_thread (t := t) ?_ ?_ ?_
      · intro t' y ht hy
        rwa [sending?_returned ((hcalls t).trans hx), if_neg ht, hcalls] at hy
      · intro t' ht hheld
        change (if x.origin = .control then s.mutex else none) = some t'
        by_cases hcontrol : x.origin = .control
        · rwa [if_pos hcontrol]
        · obtain ⟨-, ⟨hbad, -⟩ | ⟨-, hacquire | hmutex⟩⟩ := h t x hx
          · exact absurd hbad hcontrol
          · rw [hphase] at hacquire
            cases hacquire
          · rw [hheld] at hmutex
            exact absurd (Option.some.inj hmutex) ht
      · intro y hy
        rw [sending?_returned ((hcalls t).trans hx), if_pos rfl] at hy
        cases hy
  | @write t n x rest hx hphase hpos hle hbroken hshut =>
      obtain ⟨s₁, hs₁, hmutex, hcalls⟩ := wrote_eq (s := s) t n x rest
      rw [hs₁]
      refine (h.of_calls hcalls hmutex).moveSending ((hcalls t).trans hx) (by rw [hphase]; exact nofun)
        ?_
      split <;> exact ⟨nofun, nofun⟩
  | @refuse t x rest hx hphase =>
      have hcalls : ∀ t', State.sending? { s.used with broken := true } t' = s.sending? t' := by
        intro t'
        cases t' <;> rfl
      exact (h.of_calls hcalls rfl).moveSending ((hcalls t).trans hx)
        (by rw [hphase]; exact nofun) ⟨nofun, nofun⟩
  | point hmain hstep =>
      obtain ⟨hmutex, hothers, hopens⟩ := calls_of_pointStep hstep
      refine h.of_thread (t := .main) hothers ?_ fun x hx => (hopens x hx).admitted _
      intro t' _ hheld
      rwa [hmutex]
  | beat _ hstep => exact h.beatStep hstep
  | watch hstep =>
      obtain ⟨hmutex, hmain, hbeats⟩ := watchStep_fields hstep
      refine h.of_calls (fun t => ?_) hmutex
      cases t with
      | main => exact congrArg Main.call? hmain
      | beat b => exact congrArg Beat.call? (congrFun hbeats b)
      | watch => rfl

end Invariant

section Origins

/-- A call of a state is one of the state before, at another place, or it has begun. -/
inductive Call [Fintype β] (P : Program β V W) (s s' : State β V W) : Thread β → Sending β → Prop
  | same {t x} (phase : Phase) (hx : s.sending? t = some x) : Call P s s' t { x with phase }
  | main {p x} {choice : Choice} (hmain : s.main = .standing p)
      (hstep : PointStep P s choice.key p s') (hx : x.Opens P choice.key) : Call P s s' .main x
  | beat {b} (number : Int64) (hbeat : s.beats b = .build) :
      Call P s s' (.beat b) (.data (.beat b) (P.build b (s.counters b) s.clock.nowMs number))

/-- The frames that are sent under the mutex are binary messages in one frame. -/
def Framed (s : State β V W) : Prop :=
  ∀ t x, s.sending? t = some x → x.origin ≠ .control → ∃ data, x.frame = ⟨true, 2, data⟩

theorem framed_start (c : Clock) : Framed (P.start c) := by
  intro t x hx
  cases t <;> cases hx

variable [DecidableEq β] [Fintype β] {l : Label β} {t : Thread β} {x : Sending β}

theorem call_of_moveSending {s₁ : State β V W} {t' : Thread β} {phase : Phase}
    (hcalls : s₁.sending? t = s.sending? t)
    (hx : (s₁.moveSending t' phase).sending? t = some x) : Call P s s' t x := by
  rw [sending?_moveSending] at hx
  split at hx
  next ht =>
    subst ht
    obtain ⟨y, hy, rfl⟩ := Option.map_eq_some_iff.mp hx
    exact .same phase (hcalls ▸ hy)
  · exact .same x.phase (hcalls ▸ hx)

theorem call_of_beatStep {b : β} {number : Int64}
    (hstep : beatStep P s b number (s.beats b) = some s') (hx : s'.sending? t = some x) :
    Call P s s' t x := by
  have hother : ∀ (s₁ : State β V W) (y : Beat β), (∀ t, s₁.sending? t = s.sending? t) →
      y.call? = none → (s₁.withBeat b y).sending? t = some x → Call P s s' t x := by
    intro s₁ y hcalls hnone hx
    rw [sending?_withBeat] at hx
    split at hx
    · cases hnone.symm.trans hx
    · exact .same x.phase (hcalls t ▸ hx)
  cases hy : s.beats b with
  | loop | recheck =>
      rw [hy] at hstep
      cases hstep
      exact hother s _ (fun _ => rfl) (by split <;> rfl) hx
  | asleep =>
      rw [hy] at hstep
      cases hstep
      exact hother s _ (fun _ => rfl) rfl hx
  | clear =>
      rw [hy] at hstep
      cases hstep
      exact hother s.interrupt _ (fun t => by cases t <;> rfl) rfl hx
  | build =>
      rw [hy] at hstep
      cases hstep
      rw [sending?_withBeat] at hx
      split at hx
      next ht =>
        subst ht
        cases hx
        exact .beat number hy
      · exact .same x.phase hx
  | unborn | sending | done =>
      rw [hy] at hstep
      cases hstep

/-- Where the calls of a state come from. -/
theorem call_of_step (h : Step P s l s') (hx : s'.sending? t = some x) : Call P s s' t x := by
  cases h with
  | arrive | hangUp | time => exact .same x.phase (by rw [← hx]; cases t <;> rfl)
  | acquire | test | refuse => exact call_of_moveSending (by cases t <;> rfl) hx
  | @write t' n y rest hy =>
      obtain ⟨s₁, hs₁, -, hcalls⟩ := wrote_eq (s := s) t' n y rest
      rw [hs₁] at hx
      exact call_of_moveSending (hcalls t) hx
  | @release t' choice y result hy hphase =>
      have hcalls : ∀ t, State.sending? { s with
          mutex := if y.origin = .control then s.mutex else none } t = s.sending? t := by
        intro t
        cases t <;> rfl
      rw [sending?_returned ((hcalls t').trans hy), hcalls] at hx
      split at hx
      · cases hx
      · exact .same x.phase hx
  | @point choice p _ hmain hstep =>
      obtain ⟨-, hothers, hopens⟩ := calls_of_pointStep hstep
      by_cases ht : t = .main
      · subst ht
        exact .main hmain hstep (hopens x hx)
      · exact .same x.phase (hothers t x ht hx)
  | beat _ hstep => exact call_of_beatStep hstep hx
  | watch hstep =>
      obtain ⟨-, hmain, hbeats⟩ := watchStep_fields hstep
      refine .same x.phase ?_
      rw [← hx]
      cases t with
      | main => exact (congrArg Main.call? hmain).symm
      | beat b => exact (congrArg Beat.call? (congrFun hbeats b)).symm
      | watch => rfl

theorem Framed.step (h : Framed s) (hstep : Step P s l s') : Framed s' := by
  intro t x hx horigin
  cases call_of_step hstep hx with
  | @same _ y phase hy => exact h t y hy horigin
  | main _ _ hopens =>
      obtain ⟨data, rfl | rfl⟩ | ⟨hcontrol, -⟩ := hopens
      · exact ⟨data, rfl⟩
      · exact ⟨data, rfl⟩
      · exact absurd hcontrol horigin
  | beat => exact ⟨_, rfl⟩

end Origins

end HelloWebsocket.Cpp.Threads
