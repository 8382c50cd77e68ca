import HelloWebsocket.Cpp.Refinement

/-!
# Waiting in a C++ session that has ended

When a call of `send` fails, the thread that made it clears `active` and ends. The
other threads end when they see the flag, the one that watches for the timeout
included, and nobody calls `hws_shutdown`. A main thread that waits in `recv` at that
time goes on waiting until the peer sends something or hangs up.
-/

namespace HelloWebsocket.Cpp.Threads

open Ws Transitions

variable {β V W : Type} {P : Program β V W} {s s' : State β V W} {c : Clock}

section Waiting

/-- The main thread is in a call of `recv` for octets that have not arrived. -/
def State.Waiting (P : Program β V W) (s : State β V W) : Prop :=
  ∃ a left, s.main = .standing (.reading a) ∧
    readFrame (!P.masked) a.held s.inbox = .error .endOfStream left ∧ s.ended = false

/-- The peer does something. -/
def Label.peer : Label β → Bool
  | .arrive _ | .hangUp => true
  | _ => false

/-- Nobody will end the wait: `active` is cleared, the socket is open and the watching thread has
not got to its check. -/
structure Hanging (P : Program β V W) (s : State β V W) : Prop where
  inactive : s.active = false
  waiting : s.Waiting P
  unshut : s.shut = false
  unclosed : s.closed = false
  unwatched : s.watch ∈ [Watch.loop, .asleep, .recheck, .done]

/-- A step that touches nothing of this. -/
theorem Hanging.of_eq (h : Hanging P s) (hactive : s.active = false → s'.active = false)
    (hmain : s'.main = s.main) (hinbox : s'.inbox = s.inbox) (hended : s'.ended = s.ended)
    (hshut : s'.shut = s.shut) (hclosed : s'.closed = s.closed)
    (hwatch : s'.watch ∈ [Watch.loop, .asleep, .recheck, .done]) : Hanging P s' where
  inactive := hactive h.inactive
  waiting := by
    rw [State.Waiting, hmain, hinbox, hended]
    exact h.waiting
  unshut := hshut.trans h.unshut
  unclosed := hclosed.trans h.unclosed
  unwatched := hwatch

theorem Hanging.watch (h : Hanging P s) (hstep : watchStep P s = some s') : Hanging P s' := by
  have hwatch := h.unwatched
  simp only [List.mem_cons, List.not_mem_nil, or_false] at hwatch
  rw [watchStep] at hstep
  rcases hwatch with hw | hw | hw | hw
  · rw [hw, h.inactive] at hstep
    cases hstep
    exact h.of_eq (fun _ => rfl) rfl rfl rfl rfl rfl (by simp)
  · rw [hw] at hstep
    cases hstep
    exact h.of_eq id rfl rfl rfl rfl rfl (by simp)
  · rw [hw, h.inactive] at hstep
    cases hstep
    exact h.of_eq (fun _ => rfl) rfl rfl rfl rfl rfl (by simp)
  · rw [hw] at hstep
    cases hstep

/-- While the main thread stands at a point, only the threads that send are in a call. -/
theorem beat_of_sending {p : Point} {t : Thread β} {x : Sending β} (hmain : s.main = .standing p)
    (hx : s.sending? t = some x) : ∃ b, t = .beat b := by
  cases t with
  | main =>
      rw [State.sending?, hmain] at hx
      cases hx
  | beat b => exact ⟨b, rfl⟩
  | watch => cases hx

variable [DecidableEq β] [Fintype β] {l : Label β}

/-- Without the peer the wait goes on. -/
theorem Hanging.step (h : Hanging P s) (hl : l.peer = false) (hstep : Threads.step P s l = some s') :
    Hanging P s' := by
  obtain ⟨a, left, hmain, hread, hended⟩ := h.waiting
  have hwatch := h.unwatched
  cases step_cases hstep with
  | arrive => cases hl
  | hangUp => cases hl
  | time => exact h.of_eq id rfl rfl rfl rfl rfl hwatch
  | acquire hx | test hx | release hx | refuse hx =>
      obtain ⟨b, rfl⟩ := beat_of_sending hmain hx
      exact h.of_eq id rfl rfl rfl rfl rfl hwatch
  | @write t n x rest hx =>
      obtain ⟨b, rfl⟩ := beat_of_sending hmain hx
      rw [wrote_of_open h.unclosed]
      exact h.of_eq id rfl rfl rfl rfl rfl hwatch
  | @point choice p _ hp hpoint =>
      -- The call of `recv` does not return.
      have hnone : Threads.step P s (.move .main choice) = none := by
        rw [Threads.step, moveStep, State.sending?, hmain]
        change readStep P s choice.key a = none
        rw [readStep, hread]
        simp [hended, h.unshut, h.unclosed]
      rw [hstep] at hnone
      cases hnone
  | @beat b choice _ hidle hbeat =>
      cases hb : s.beats b with
      | loop | asleep | recheck | build =>
          rw [hb] at hbeat
          cases hbeat
          exact h.of_eq id rfl rfl rfl rfl rfl hwatch
      | clear =>
          rw [hb] at hbeat
          cases hbeat
          exact h.of_eq (fun _ => rfl) rfl rfl rfl rfl rfl hwatch
      | unborn | sending | done =>
          rw [hb] at hbeat
          cases hbeat
  | watch hstep => exact h.watch hstep

theorem Hanging.run {ls : List (Label β)} (h : Hanging P s) (hls : ∀ l ∈ ls, l.peer = false)
    (hrun : Transitions.run (Threads.step P) s ls = some s') : Hanging P s' := by
  induction ls generalizing s with
  | nil =>
      cases hrun
      exact h
  | cons l ls ih =>
      obtain ⟨s₁, hstep, hrest⟩ := run_cons.mp hrun
      obtain ⟨hl, hls⟩ := List.forall_mem_cons.mp hls
      exact ih (h.step hl hstep) hls hrest

end Waiting

end HelloWebsocket.Cpp.Threads

namespace HelloWebsocket.Cpp.Server

open Ws Threads Transitions

end HelloWebsocket.Cpp.Server
