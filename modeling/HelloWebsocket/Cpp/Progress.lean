import HelloWebsocket.Cpp.Answers

/-!
# Progress of a C++ session

The receive loop is never stuck: as long as no call of `send` is refused and no other
thread ends the session, the main thread can go on until it waits for octets that have
not arrived or has left its loop. It waits for another thread only at the mutex, and a
thread that holds the mutex can write its frame and give the mutex back.

## Implementation notes

The programs are those whose only call before the loop starts the threads.
-/

namespace HelloWebsocket.Cpp.Threads

open Ws Transitions

variable {β V W : Type} {P : Program β V W} {s s' : State β V W}

section Points

variable [Fintype β]

/-- Outside of a call the main thread leaves the other threads alone, unless it starts them. -/
theorem beats_of_pointStep {key : Key} {p : Point} (h : PointStep P s key p s') :
    s'.beats = s.beats ∨ ∃ rest, p = .prologue (.spawn :: rest) := by
  cases h with
  | begin | loop | exhausted | refused | stop | handle => exact .inl rfl
  | @prologue call rest =>
      cases call with
      | spawn => exact .inr ⟨rest, rfl⟩
      | send data => exact .inl rfl
  | @epilogue call rest _ hcall =>
      cases call with
      | clear | close | send | control =>
          cases hcall
          exact .inl rfl
      | join =>
          obtain ⟨-, hcall⟩ := Option.ite_none_right_eq_some.mp hcall
          cases hcall
          exact .inl rfl
  | @frame a f b rest =>
      obtain ⟨m, consumed, hm⟩ := frameStep_eq (P := P) (s := { s with inbox := rest }) key a b f
      rw [hm]
      exact .inl rfl

/-- Where the main thread can come to from a point. -/
theorem point_of_pointStep {key : Key} {p : Point} (h : PointStep P s key p s') :
    (∃ call rest, p = .prologue (call :: rest) ∧ s'.main.point = .prologue rest) ∨
      ∀ rest, s'.main.point ≠ .prologue rest := by
  cases h with
  | begin | exhausted | refused | stop => exact .inr nofun
  | loop =>
      refine .inr ?_
      change ∀ rest, (if s.active then Point.reading none else .epilogue P.epilogue) ≠ .prologue rest
      split <;> exact nofun
  | @prologue call rest =>
      refine .inl ⟨call, rest, rfl, ?_⟩
      cases call <;> rfl
  | epilogue hcall =>
      refine .inr ?_
      rw [(closeStep_fields hcall).1]
      exact nofun
  | @handle data =>
      refine .inr ?_
      rw [point_handleStep]
      split <;> exact nofun
  | @frame a f b rest =>
      refine .inr ?_
      cases hnext : a.next f with
      | none =>
          obtain ⟨m, hm, -, ⟨x, -, rfl⟩ | rfl⟩ := frameStep_of_refused (P := P)
            (s := { s with inbox := rest }) key hnext b <;>
          · rw [hm]
            exact nofun
      | some y =>
          obtain ⟨m, hm, -, ⟨x, a', rfl, -, rfl⟩ | rfl⟩ := frameStep_of_next (P := P)
            (s := { s with inbox := rest }) key hnext b
          · rw [hm]
            exact nofun
          · rw [hm]
            cases y <;> exact nofun

end Points

section Locking

/-- The mutex is held by a call inside of it, the calls inside `sendAll` have octets left, and no
thread sends before it is started. -/
structure Locking (s : State β V W) : Prop where
  held : ∀ t, s.mutex = some t →
    ∃ x, s.sending? t = some x ∧ x.origin ≠ .control ∧ x.phase ≠ .acquire
  left : ∀ t x, s.sending? t = some x → x.phase ≠ .write []
  unborn : ∀ rest, s.main.point = .prologue rest →
    rest = [] ∨ (rest = [.spawn] ∧ ∀ b, s.beats b = .unborn)

theorem locking_start (hP : P.prologue = [.spawn]) (c : Clock) : Locking (P.start c) where
  held _ h := nomatch h
  left t _ h := by cases t <;> cases h
  unborn rest h := by
    cases h
    exact .inr ⟨hP, fun _ => rfl⟩

theorem octets_ne_nil (key : Key) (f : Ws.Frame) : P.octets key f ≠ [] := nofun

/-- A step that changes neither the calls nor the mutex nor the places before the loop. -/
theorem Locking.of_calls (h : Locking s) (hcalls : ∀ t, s'.sending? t = s.sending? t)
    (hmutex : s'.mutex = s.mutex) (hmain : s'.main.point = s.main.point)
    (hbeats : s'.beats = s.beats) : Locking s' where
  held t ht := by
    rw [hcalls]
    exact h.held t (hmutex ▸ ht)
  left t x hx := h.left t x (hcalls t ▸ hx)
  unborn rest hrest := by
    rw [hbeats]
    exact h.unborn rest (hmain ▸ hrest)

theorem point_moved (phase : Phase) (m : Main β) : (m.moved phase).point = m.point := by
  cases m <;> rfl

/-- A thread in a call has been started. -/
theorem Locking.prologue_of_call (h : Locking s) {b : β} {x : Sending β}
    (hx : s.sending? (.beat b) = some x) {rest : List Opening}
    (hrest : s.main.point = .prologue rest) : rest = [] := by
  rcases h.unborn rest hrest with hnil | ⟨-, hunborn⟩
  · exact hnil
  · rw [sending?_beat_iff, hunborn b] at hx
    cases hx

variable [DecidableEq β]

theorem point_moveSending (t : Thread β) (phase : Phase) :
    (s.moveSending t phase).main.point = s.main.point := by
  cases t with
  | main => exact point_moved phase s.main
  | beat b => rfl
  | watch => rfl

theorem Locking.moveSending (h : Locking s) {t : Thread β} {x : Sending β} {phase : Phase}
    (hx : s.sending? t = some x) (hacquire : phase ≠ .acquire) (hwrite : phase ≠ .write []) :
    Locking (s.moveSending t phase) where
  held t' ht' := by
    obtain ⟨y, hy, horigin, hphase⟩ := h.held t' ht'
    rw [sending?_moveSending]
    by_cases ht : t' = t
    · subst ht
      rw [if_pos rfl, hy]
      exact ⟨_, rfl, horigin, hacquire⟩
    · rw [if_neg ht]
      exact ⟨y, hy, horigin, hphase⟩
  left t' y hy := by
    rw [sending?_moveSending] at hy
    split at hy
    · obtain ⟨z, -, rfl⟩ := Option.map_eq_some_iff.mp hy
      exact hwrite
    · exact h.left t' y hy
  unborn rest hrest := by
    rw [point_moveSending] at hrest
    cases t with
    | main => exact h.unborn rest hrest
    | beat b => exact .inl (h.prologue_of_call hx hrest)
    | watch => exact h.unborn rest hrest

theorem Locking.withBeat (h : Locking s) {b : β} {y : Beat β} (hidle : s.sending? (.beat b) = none)
    (hborn : s.beats b ≠ .unborn) (hy : ∀ x, y.call? = some x → x.phase = .acquire) :
    Locking (s.withBeat b y) where
  held t ht := by
    obtain ⟨x, hx, hrest⟩ := h.held t ht
    refine ⟨x, ?_, hrest⟩
    rw [sending?_withBeat, if_neg ?_, hx]
    rintro rfl
    cases hidle.symm.trans hx
  left t x hx := by
    rw [sending?_withBeat] at hx
    split at hx
    · rw [hy x hx]
      exact nofun
    · exact h.left t x hx
  unborn rest hrest := by
    rcases h.unborn rest hrest with hnil | ⟨-, hunborn⟩
    · exact .inl hnil
    · exact absurd (hunborn b) hborn

theorem Locking.returned (h : Locking s) (hplaced : Placed s) {t : Thread β} {x : Sending β}
    {result : Bool} (hx : s.sending? t = some x) (hfree : s.mutex ≠ some t) :
    Locking (returned P s t result) where
  held t' ht' := by
    obtain ⟨y, hy, hrest⟩ := h.held t' ht'
    refine ⟨y, ?_, hrest⟩
    rw [sending?_returned hx, if_neg ?_, hy]
    rintro rfl
    exact hfree ht'
  left t' y hy := by
    rw [sending?_returned hx] at hy
    split at hy
    · cases hy
    · exact h.left t' y hy
  unborn rest hrest := by
    cases t with
    | main =>
        obtain ⟨k, k', hmain⟩ := sending?_main_iff.mp hx
        change (s.main.returned result).point = .prologue rest at hrest
        rw [hmain] at hrest
        have hpoint : s.main.point = .prologue rest := by
          rw [hmain]
          cases result with
          | true => exact hrest
          | false =>
              rcases (hplaced.calling x k k' hmain).failure with rfl | ⟨more, rfl⟩
              · exact hrest
              · cases hrest
        exact h.unborn rest hpoint
    | beat b => exact .inl (h.prologue_of_call hx hrest)
    | watch => cases hx

variable [Fintype β]

theorem Locking.point {p : Point} {key : Key} (h : Locking s) (hmain : s.main = .standing p)
    (hstep : PointStep P s key p s') : Locking s' := by
  obtain ⟨hmutex, hothers, hopens⟩ := calls_of_pointStep hstep
  have hpoint : s.main.point = p := by rw [hmain]; rfl
  have hnone : s.sending? .main = none := by rw [State.sending?, hmain]; rfl
  refine ⟨fun t ht => ?_, fun t x hx => ?_, fun rest hrest => ?_⟩
  · obtain ⟨x, hx, hlocked⟩ := h.held t (hmutex ▸ ht)
    refine ⟨x, ?_, hlocked⟩
    cases t with
    | main => cases hnone.symm.trans hx
    | beat b =>
        rcases beats_of_pointStep hstep with hbeats | ⟨rest, rfl⟩
        · rwa [State.sending?, hbeats]
        · cases h.prologue_of_call hx hpoint
    | watch => cases hx
  · by_cases ht : t = .main
    · subst ht
      obtain ⟨data, rfl | rfl⟩ | ⟨-, hphase⟩ := hopens x hx
      · intro hbad
        cases hbad
      · intro hbad
        cases hbad
      · rw [hphase]
        exact fun hbad => octets_ne_nil key x.frame (Phase.write.inj hbad)
    · exact h.left t x (hothers t x ht hx)
  · rcases point_of_pointStep hstep with ⟨call, more, rfl, hmore⟩ | hnot
    · rw [hmore] at hrest
      cases hrest
      rcases h.unborn _ hpoint with hbad | ⟨heq, -⟩
      · cases hbad
      · exact .inl (List.cons.inj heq).2
    · exact absurd hrest (hnot rest)

theorem Locking.step {l : Label β} (h : Locking s) (hex : Exclusive s) (hplaced : Placed s)
    (hstep : Step P s l s') : Locking s' := by
  cases hstep with
  | arrive | hangUp | time => exact h.of_calls (fun t => by cases t <;> rfl) rfl rfl rfl
  | @acquire t choice x hx hphase hfree =>
      have hcalls : ∀ t', State.sending? { s with mutex := some t } t' = s.sending? t' := by
        intro t'
        cases t' <;> rfl
      have hold : Locking { s with mutex := none } :=
        h.of_calls (fun t => by cases t <;> rfl) hfree.symm rfl rfl
      have hmoved : Locking (State.moveSending { s with mutex := none } t .test) :=
        hold.moveSending (x := x) (by rw [← hx]; cases t <;> rfl) nofun nofun
      refine ⟨fun t' ht' => ?_, fun t' y hy => ?_, hmoved.unborn⟩
      · cases ht'
        rw [sending?_moveSending, if_pos rfl, hcalls, hx]
        obtain ⟨-, ⟨-, hcontrol, -⟩ | ⟨hlocked, -⟩⟩ := hex t x hx
        · exact absurd hphase hcontrol
        · exact ⟨_, rfl, hlocked, nofun⟩
      · apply hmoved.left t' y
        rw [← hy]
        cases t' <;> rfl
  | @test t choice x hx hphase =>
      refine h.moveSending hx ?_ ?_ <;> split
      · exact nofun
      · exact nofun
      · exact fun hbad => octets_ne_nil choice.key x.frame (Phase.write.inj hbad)
      · exact nofun
  | @release t choice x result hx hphase =>
      have hcalls : ∀ t', State.sending? { s with
          mutex := if x.origin = .control then s.mutex else none } t' = s.sending? t' := by
        intro t'
        cases t' <;> rfl
      have hold : Locking { s with mutex := if x.origin = .control then s.mutex else none } := by
        refine ⟨fun t' ht' => ?_, fun t' y hy => h.left t' y (hcalls t' ▸ hy), h.unborn⟩
        rw [hcalls]
        change (if x.origin = .control then s.mutex else none) = some t' at ht'
        split at ht'
        · exact h.held t' ht'
        · cases ht'
      refine hold.returned ⟨hplaced.calling, hplaced.closed⟩ ((hcalls t).trans hx) fun hbad => ?_
      change (if x.origin = .control then s.mutex else none) = some t at hbad
      split at hbad
      next hcontrol =>
        obtain ⟨y, hy, horigin, -⟩ := h.held t hbad
        cases hx.symm.trans hy
        exact horigin hcontrol
      · cases hbad
  | @write t n x rest hx hphase hpos hle hbroken hshut =>
      have hdrop : (if n = rest.length then Phase.release true else .write (rest.drop n)) ≠
          .write [] := by
        split
        · exact nofun
        next hn =>
          intro hbad
          have hlen := congrArg List.length (Phase.write.inj hbad)
          rw [List.length_drop, List.length_nil] at hlen
          omega
      have hacquire : (if n = rest.length then Phase.release true else .write (rest.drop n)) ≠
          .acquire := by
        split <;> exact nofun
      cases hclosed : s.closed with
      | true =>
          rw [wrote_of_closed hclosed]
          have hused : Locking s.used := h.of_calls (fun t => by cases t <;> rfl) rfl rfl rfl
          exact hused.moveSending (x := x) (by rw [← hx]; cases t <;> rfl) hacquire hdrop
      | false =>
          rw [wrote_of_open hclosed]
          refine Locking.moveSending (x := x) ?_ (by rw [← hx]; cases t <;> rfl) hacquire hdrop
          exact h.of_calls (fun t => by cases t <;> rfl) rfl rfl rfl
  | @refuse t x rest hx hphase =>
      refine Locking.moveSending (x := x) ?_ (by rw [← hx]; cases t <;> rfl) nofun nofun
      exact h.of_calls (fun t => by cases t <;> rfl) rfl rfl rfl
  | point hmain hpoint => exact h.point hmain hpoint
  | @beat b choice _ hidle hbeat =>
      cases hy : s.beats b with
      | loop | recheck =>
          rw [hy] at hbeat
          cases hbeat
          refine h.withBeat hidle (by rw [hy]; exact nofun) fun x hx => ?_
          split at hx <;> cases hx
      | asleep =>
          rw [hy] at hbeat
          cases hbeat
          exact h.withBeat hidle (by rw [hy]; exact nofun) nofun
      | build =>
          rw [hy] at hbeat
          cases hbeat
          refine h.withBeat hidle (by rw [hy]; exact nofun) fun x hx => ?_
          cases hx
          rfl
      | clear =>
          rw [hy] at hbeat
          cases hbeat
          have hint : Locking s.interrupt := h.of_calls (fun t => by cases t <;> rfl) rfl rfl rfl
          have hborn : s.beats b ≠ .unborn := by
            rw [hy]
            exact nofun
          exact hint.withBeat hidle hborn nofun
      | unborn | sending | done =>
          rw [hy] at hbeat
          cases hbeat
  | watch hwatch =>
      obtain ⟨hmutex, hmain, hbeats⟩ := watchStep_fields hwatch
      refine h.of_calls (fun t => ?_) hmutex (by rw [hmain]) hbeats
      cases t with
      | main => exact congrArg Main.call? hmain
      | beat b => exact congrArg Beat.call? (congrFun hbeats b)
      | watch => rfl

end Locking

section Unlocking

/-- What the main thread depends on has not changed. -/
structure Unmoved (s s' : State β V W) : Prop where
  main : s'.main = s.main
  inbox : s'.inbox = s.inbox
  arrived : s'.arrived = s.arrived
  active : s'.active = s.active
  broken : s'.broken = s.broken
  interrupted : s'.interrupted = s.interrupted

theorem Unmoved.trans {s₁ : State β V W} (h : Unmoved s s₁) (h' : Unmoved s₁ s') : Unmoved s s' :=
  ⟨h'.main.trans h.main, h'.inbox.trans h.inbox, h'.arrived.trans h.arrived,
    h'.active.trans h.active, h'.broken.trans h.broken, h'.interrupted.trans h.interrupted⟩

variable [DecidableEq β] {t : Thread β} {x : Sending β} {b : β}

theorem wrote_beat (b : β) (n : Nat) (x : Sending β) (rest : Bytes) :
    Unmoved s (wrote s (.beat b) n x rest) := by
  cases hclosed : s.closed with
  | true =>
      rw [wrote_of_closed hclosed]
      exact ⟨rfl, rfl, rfl, rfl, rfl, rfl⟩
  | false =>
      rw [wrote_of_open hclosed]
      exact ⟨rfl, rfl, rfl, rfl, rfl, rfl⟩

variable [Fintype β]

theorem step_of_call (hx : s.sending? t = some x) (choice : Choice) :
    step P s (.move t choice) = sendStep P s t choice.key x := by
  rw [step, moveStep.eq_def, hx]

theorem step_of_write {n : Nat} {rest : Bytes} (hx : s.sending? t = some x)
    (hphase : x.phase = .write rest) (hpos : 0 < n) (hle : n ≤ rest.length)
    (hbroken : s.broken = false) (hshut : s.shut = false) :
    step P s (.write t n) = some (wrote s t n x rest) := by
  rw [step, hx, Option.bind_some, writeStep, hphase]
  exact if_pos ⟨hpos, hle, hbroken, hshut⟩

theorem exists_unlocked_of_release {result : Bool} (choice : Choice)
    (hx : s.sending? (.beat b) = some x) (horigin : x.origin ≠ .control)
    (hphase : x.phase = .release result) :
    ∃ s', Reaches (step P) s s' ∧ s'.mutex = none ∧ Unmoved s s' := by
  have hstep : step P s (.move (.beat b) choice) = some (returned P
      { s with mutex := if x.origin = .control then s.mutex else none } (.beat b) result) := by
    rw [step_of_call hx, sendStep, hphase]
  exact ⟨_, (Reaches.refl s).tail hstep, if_neg horigin, rfl, rfl, rfl, rfl, rfl, rfl⟩

theorem exists_unlocked_of_write {rest : Bytes} (choice : Choice)
    (hx : s.sending? (.beat b) = some x) (horigin : x.origin ≠ .control)
    (hphase : x.phase = .write rest) (hrest : rest ≠ []) (hbroken : s.broken = false)
    (hshut : s.shut = false) :
    ∃ s', Reaches (step P) s s' ∧ s'.mutex = none ∧ Unmoved s s' := by
  have hpos : 0 < rest.length := List.length_pos_iff.mpr hrest
  have hstep := step_of_write (P := P) hx hphase hpos le_rfl hbroken hshut
  obtain ⟨s₁, hs₁, -, hcalls⟩ := wrote_eq (s := s) (.beat b) rest.length x rest
  have hnext : (wrote s (.beat b) rest.length x rest).sending? (.beat b) =
      some { x with phase := .release true } := by
    rw [hs₁, sending?_moveSending, if_pos rfl, hcalls, hx, if_pos rfl]
    rfl
  obtain ⟨s', hreach, hmutex, hsame⟩ :=
    exists_unlocked_of_release (P := P) choice hnext horigin rfl
  exact ⟨s', ((Reaches.refl s).tail hstep).trans hreach, hmutex,
    (wrote_beat b rest.length x rest).trans hsame⟩

/-- A thread that holds the mutex can give it back. -/
theorem Locking.exists_unlocked (h : Locking s) (hheld : s.mutex = some (.beat b))
    (choice : Choice) (hactive : s.active = true) (hbroken : s.broken = false)
    (hshut : s.shut = false) :
    ∃ s', Reaches (Threads.step P) s s' ∧ s'.mutex = none ∧ Unmoved s s' := by
  obtain ⟨x, hx, horigin, hacquire⟩ := h.held _ hheld
  cases hphase : x.phase with
  | acquire => exact absurd hphase hacquire
  | release result => exact exists_unlocked_of_release choice hx horigin hphase
  | write rest =>
      refine exists_unlocked_of_write choice hx horigin hphase ?_ hbroken hshut
      rintro rfl
      exact h.left _ x hx hphase
  | test =>
      have hstep : Threads.step P s (.move (.beat b) choice) =
          some (s.moveSending (.beat b) (.write (P.octets choice.key x.frame))) := by
        rw [step_of_call hx, sendStep, hphase, hactive]
        rfl
      have hnext : (s.moveSending (.beat b) (.write (P.octets choice.key x.frame))).sending?
          (.beat b) = some { x with phase := .write (P.octets choice.key x.frame) } := by
        rw [sending?_moveSending, if_pos rfl, hx]
        rfl
      obtain ⟨s', hreach, hmutex, hsame⟩ := exists_unlocked_of_write (P := P) choice hnext horigin
        rfl (octets_ne_nil _ _) hbroken hshut
      have hfirst : Unmoved s (s.moveSending (.beat b) (.write (P.octets choice.key x.frame))) :=
        ⟨rfl, rfl, rfl, rfl, rfl, rfl⟩
      exact ⟨s', ((Reaches.refl s).tail hstep).trans hreach, hmutex, hfirst.trans hsame⟩

end Unlocking

section Work

def Phase.rank : Phase → Nat
  | .acquire => 4
  | .test => 3
  | .write _ => 2
  | .release _ => 1

def Point.rank : Point → Nat
  | .prologue rest => 3 + rest.length
  | .loop => 2
  | .reading _ => 1
  | .handling _ => 8
  | .stopping => 3
  | .epilogue _ => 0

def Main.rank : Main β → Nat
  | .standing p => p.rank
  | .sending x success _ => x.phase.rank + success.rank

/-- A bound for the steps of the main thread until it is at rest. -/
def State.work (s : State β V W) : Nat := 8 * s.inbox.length + s.main.rank

theorem work_lt (hinbox : s'.inbox = s.inbox) (hrank : s'.main.rank < s.main.rank) :
    s'.work < s.work := by
  rw [State.work, State.work, hinbox]
  omega

theorem rank_of_opens {key : Key} {x : Sending β} (h : x.Opens P key) (hx : x.origin = .control) :
    x.phase.rank = 2 := by
  obtain ⟨data, rfl | rfl⟩ | ⟨-, hphase⟩ := h
  · cases hx
  · cases hx
  · rw [hphase]
    rfl

theorem rank_frameStep_le (key : Key) (a : Assembly) (b : Bytes) (f : Ws.Frame) :
    (frameStep P s key a b f).main.rank ≤ 8 := by
  cases hnext : a.next f with
  | none =>
      obtain ⟨m, hm, hopens, ⟨x, hx, rfl⟩ | rfl⟩ := frameStep_of_refused (P := P) (s := s) key hnext b
      · rw [hm]
        change x.phase.rank + 0 ≤ 8
        rw [rank_of_opens (hopens x rfl) hx]
        decide
      · rw [hm]
        exact Nat.zero_le _
  | some y =>
      obtain ⟨m, hm, hopens, ⟨x, a', rfl, hx, rfl⟩ | rfl⟩ :=
        frameStep_of_next (P := P) (s := s) key hnext b
      · rw [hm]
        change x.phase.rank + 1 ≤ 8
        rw [rank_of_opens (hopens x rfl) hx]
        decide
      · rw [hm]
        cases y with
        | inl a' => exact (by decide : 1 ≤ 8)
        | inr data => exact le_rfl

end Work

section Progress

variable [DecidableEq β] [Fintype β] {c : Clock} {w : Bytes}

/-- The main thread can come closer to rest, with nothing refused, interrupted or arrived. -/
def Advances (P : Program β V W) (s : State β V W) : Prop :=
  ∃ s', Reaches (step P) s s' ∧ s'.broken = s.broken ∧ s'.interrupted = s.interrupted ∧
    s'.arrived = s.arrived ∧ s'.work < s.work

theorem advances_of_step {l : Label β} (hstep : step P s l = some s')
    (hbroken : s'.broken = s.broken) (hint : s'.interrupted = s.interrupted)
    (harrived : s'.arrived = s.arrived) (hwork : s'.work < s.work) : Advances P s :=
  ⟨s', (Reaches.refl s).tail hstep, hbroken, hint, harrived, hwork⟩

theorem advances_of_unmoved (hreach : Reaches (step P) s s') (hsame : Unmoved s s')
    (h : Advances P s') : Advances P s := by
  obtain ⟨s'', hreach', hbroken, hint, harrived, hwork⟩ := h
  refine ⟨s'', hreach.trans hreach', hbroken.trans hsame.broken, hint.trans hsame.interrupted,
    harrived.trans hsame.arrived, ?_⟩
  rwa [State.work, State.work, hsame.inbox, hsame.main] at hwork

theorem step_of_point {p : Point} (hmain : s.main = .standing p) (choice : Choice) :
    step P s (.move .main choice) = pointStep P s choice.key p := by
  have hnone : s.sending? .main = none := by rw [State.sending?, hmain]; rfl
  rw [step, moveStep.eq_def, hnone]
  simp only [hmain]

theorem advances_of_reading {a : Assembly} (hmain : s.main = .standing (.reading a))
    (hrest : ¬ s.AtRest P) (choice : Choice) : Advances P s := by
  have hrank : s.main.rank = 1 := by rw [hmain]; rfl
  cases hread : readFrame (!P.masked) a.held s.inbox with
  | ok f rest =>
      have hstep : step P s (.move .main choice) = some (frameStep P { s with inbox := rest }
          choice.key a (s.inbox.take (s.inbox.length - rest.length)) f) := by
        rw [step_of_point hmain, pointStep, readStep, hread]
      obtain ⟨-, b, hb, hinbox⟩ := readFrame_sound hread
      have hpos := length_pos_of_encodes hb
      have hlen : s.inbox.length = b.length + rest.length := by rw [hinbox, List.length_append]
      have hle := rank_frameStep_le (P := P) (s := { s with inbox := rest }) choice.key a
        (s.inbox.take (s.inbox.length - rest.length)) f
      obtain ⟨m, consumed, hm⟩ := frameStep_eq (P := P) (s := { s with inbox := rest }) choice.key a
        (s.inbox.take (s.inbox.length - rest.length)) f
      rw [hm] at hstep hle
      refine advances_of_step hstep rfl rfl rfl ?_
      rw [State.work, State.work, hrank]
      change 8 * rest.length + m.rank < _
      change m.rank ≤ 8 at hle
      omega
  | error e left =>
      cases e with
      | endOfStream => exact absurd (.inr ⟨a, left, hmain, hread⟩) hrest
      | violation =>
          have hstep : step P s (.move .main choice) = some (s.goto (.epilogue P.epilogue)) := by
            rw [step_of_point hmain, pointStep, readStep, hread]
          refine advances_of_step hstep rfl rfl rfl (work_lt rfl ?_)
          rw [hrank]
          exact Nat.one_pos

theorem advances_of_standing {p : Point} (hlock : Locking s) (hmain : s.main = .standing p)
    (hactive : s.active = true) (hrest : ¬ s.AtRest P) (choice : Choice) : Advances P s := by
  have hpoint : s.main.point = p := by rw [hmain]; rfl
  have hrank : s.main.rank = p.rank := by rw [hmain]; rfl
  have hstep := step_of_point (P := P) hmain choice
  cases p with
  | prologue rest =>
      rcases hlock.unborn rest hpoint with rfl | ⟨rfl, -⟩
      · refine advances_of_step hstep rfl rfl rfl (work_lt rfl ?_)
        rw [hrank]
        exact (by decide : 2 < 3)
      · refine advances_of_step hstep rfl rfl rfl (work_lt rfl ?_)
        rw [hrank]
        exact (by decide : 3 < 4)
  | loop =>
      rw [pointStep, hactive] at hstep
      refine advances_of_step hstep rfl rfl rfl (work_lt rfl ?_)
      rw [hrank]
      exact (by decide : 1 < 2)
  | reading a => exact advances_of_reading hmain hrest choice
  | handling data =>
      refine advances_of_step hstep rfl rfl rfl (work_lt rfl ?_)
      rw [hrank, handleStep]
      cases (P.handle s.vars s.clock.nowMs data).reply <;>
        cases (P.handle s.vars s.clock.nowMs data).stop <;>
          simp [Main.rank, Point.rank, Phase.rank, Sending.data]
  | stopping =>
      refine advances_of_step hstep rfl rfl rfl (work_lt rfl ?_)
      rw [hrank]
      exact (by decide : 2 < 3)
  | epilogue rest => exact absurd (.inl ⟨rest, hpoint⟩) hrest

theorem advances_of_sending {x : Sending β} {k k' : Point} (h : Orderly P c s) (hlock : Locking s)
    (hmain : s.main = .sending x k k') (hactive : s.active = true) (hbroken : s.broken = false)
    (hshut : s.shut = false) (choice : Choice) : Advances P s := by
  have hx : s.sending? .main = some x := sending?_main_iff.mpr ⟨k, k', hmain⟩
  have hrank : s.main.rank = x.phase.rank + k.rank := by rw [hmain]; rfl
  have hmoved : ∀ (s₁ : State β V W) (phase : Phase), s₁.main = s.main → s₁.inbox = s.inbox →
      phase.rank < x.phase.rank → (s₁.moveSending .main phase).work < s.work := by
    intro s₁ phase hmain₁ hinbox₁ hlt
    refine work_lt hinbox₁ ?_
    change (s₁.main.moved phase).rank < _
    rw [hrank, hmain₁, hmain]
    exact Nat.add_lt_add_right hlt k.rank
  cases hphase : x.phase with
  | acquire =>
      have hfree : ∀ s₁ : State β V W, Unmoved s s₁ → s₁.mutex = none → Advances P s₁ := by
        intro s₁ hsame hnone
        have hx₁ : s₁.sending? .main = some x := by rw [State.sending?, hsame.main]; exact hx
        have hstep : step P s₁ (.move .main choice) =
            some (State.moveSending { s₁ with mutex := some .main } .main .test) := by
          rw [step_of_call hx₁, sendStep, hphase]
          exact if_pos hnone
        refine advances_of_step hstep rfl rfl rfl ?_
        have hwork := hmoved { s₁ with mutex := some .main } .test hsame.main hsame.inbox
          (by rw [hphase]; decide)
        rwa [State.work, State.work, ← hsame.inbox, ← hsame.main] at hwork
      cases hmutex : s.mutex with
      | none => exact hfree s ⟨rfl, rfl, rfl, rfl, rfl, rfl⟩ hmutex
      | some t =>
          obtain ⟨y, hy, -, hinside⟩ := hlock.held t hmutex
          cases t with
          | main =>
              cases hx.symm.trans hy
              exact absurd hphase hinside
          | beat b =>
              obtain ⟨s₁, hreach, hnone, hsame⟩ :=
                hlock.exists_unlocked (P := P) hmutex choice hactive hbroken hshut
              exact advances_of_unmoved hreach hsame (hfree s₁ hsame hnone)
          | watch => cases hy
  | test =>
      have hstep : step P s (.move .main choice) =
          some (s.moveSending .main (.write (P.octets choice.key x.frame))) := by
        rw [step_of_call hx, sendStep, hphase, hactive]
        rfl
      refine advances_of_step hstep rfl rfl rfl (hmoved s _ rfl rfl ?_)
      rw [hphase]
      exact (by decide : 2 < 3)
  | write rest =>
      have hpos : 0 < rest.length := by
        apply List.length_pos_iff.mpr
        rintro rfl
        exact hlock.left .main x hx hphase
      have hstep := step_of_write (P := P) hx hphase hpos le_rfl hbroken hshut
      have hless : Phase.rank (.release true) < x.phase.rank := by
        rw [hphase]
        exact (by decide : 1 < 2)
      by_cases hclosed : s.closed = true
      · rw [wrote_of_closed hclosed, if_pos rfl] at hstep
        exact advances_of_step hstep rfl rfl rfl (hmoved _ _ rfl rfl hless)
      · rw [wrote_of_open (Bool.not_eq_true _ ▸ hclosed), if_pos rfl, if_pos rfl] at hstep
        exact advances_of_step hstep rfl rfl rfl (hmoved _ _ rfl rfl hless)
  | release result =>
      have hstep : step P s (.move .main choice) = some (returned P
          { s with mutex := if x.origin = .control then s.mutex else none } .main result) := by
        rw [step_of_call hx, sendStep, hphase]
      refine advances_of_step hstep rfl rfl rfl (work_lt rfl ?_)
      change (s.main.returned result).rank < _
      rw [hrank, hmain, hphase]
      cases result with
      | true => exact Nat.lt_add_of_pos_left Nat.one_pos
      | false =>
          rcases (h.placed.calling x k k' hmain).failure with rfl | ⟨rest, rfl⟩
          · exact Nat.lt_add_of_pos_left Nat.one_pos
          · exact Nat.lt_of_lt_of_le Nat.one_pos (Nat.le_add_right 1 k.rank)

/-- Short of rest, the main thread can come closer to it. -/
theorem Orderly.advances (h : Orderly P c s) (hlock : Locking s) (hbroken : s.broken = false)
    (hint : s.interrupted = false) (hrest : ¬ s.AtRest P) (choice : Choice) : Advances P s := by
  by_cases hactive : s.active = true
  · have hshut : s.shut = false := by
      rw [← Bool.not_eq_true]
      intro hbad
      cases hactive.symm.trans (h.shutting (.inr hbad))
    cases hmain : s.main with
    | standing p => exact advances_of_standing hlock hmain hactive hrest choice
    | sending x k k' => exact advances_of_sending h hlock hmain hactive hbroken hshut choice
  · rw [Bool.not_eq_true] at hactive
    rcases h.handling.inactive hactive with hbad | ⟨hmain, -⟩ | hover
    · cases hint.symm.trans hbad
    · have hstep : Threads.step P s (.move .main choice) = some (s.goto (.epilogue P.epilogue)) := by
        rw [step_of_point hmain, pointStep, hactive]
        rfl
      refine advances_of_step hstep rfl rfl rfl (work_lt rfl ?_)
      rw [hmain]
      exact (by decide : 0 < 2)
    · exact absurd (.inl hover) hrest

theorem locking_of_reaches (hP : P.prologue = [.spawn]) (h : Reaches (step P) (P.start c) s) :
    Locking s := by
  have hboth : Orderly P c s ∧ Locking s := by
    refine h.invariant (I := fun s => Orderly P c s ∧ Locking s) ?_
      ⟨orderly_start c, locking_start hP c⟩
    rintro s l s' ⟨horderly, hlock⟩ hstep
    exact ⟨horderly.step hstep, hlock.step horderly.exclusive horderly.placed (step_cases hstep)⟩
  exact hboth.2

/-- From every state without a refused call or an interruption the main thread can come to rest
without either. -/
theorem exists_atRest (hP : P.prologue = [.spawn]) (h : Reaches (step P) (P.start c) s)
    (hbroken : s.broken = false) (hint : s.interrupted = false) :
    ∃ s', Reaches (step P) s s' ∧ s'.broken = false ∧ s'.interrupted = false ∧
      s'.arrived = s.arrived ∧ s'.AtRest P := by
  let I : State β V W → Prop := fun s' => Reaches (step P) (P.start c) s' ∧ s'.broken = false ∧
    s'.interrupted = false ∧ s'.arrived = s.arrived
  have hstep : ∀ s₁, I s₁ → ¬ s₁.AtRest P →
      ∃ s₂, Reaches (step P) s₁ s₂ ∧ I s₂ ∧ s₂.work < s₁.work := by
    rintro s₁ ⟨h₁, hbroken₁, hint₁, harrived₁⟩ hrest₁
    obtain ⟨s₂, hreach, hbroken₂, hint₂, harrived₂, hwork⟩ := (orderly_of_reaches h₁).advances
      (locking_of_reaches hP h₁) hbroken₁ hint₁ hrest₁ ⟨0, ⟨[0, 0, 0, 0], rfl⟩⟩
    exact ⟨s₂, hreach, ⟨h₁.trans hreach, hbroken₂.trans hbroken₁, hint₂.trans hint₁,
      harrived₂.trans harrived₁⟩, hwork⟩
  obtain ⟨s', hreach, ⟨-, hbroken', hint', harrived⟩, hrest⟩ :=
    exists_reaches_of_measure State.work hstep ⟨h, hbroken, hint, rfl⟩
  exact ⟨s', hreach, hbroken', hint', harrived, hrest⟩

end Progress

end HelloWebsocket.Cpp.Threads
