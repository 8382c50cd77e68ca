import HelloWebsocket.Cpp.Server
import HelloWebsocket.Cpp.Progress

/-!
# The C++ server refines the protocol's server

Whatever the threads of `handleClient` and the kernel do, the answers that the receive
loop writes come first among the answers of the protocol's server to the messages of
the stream, and they are all of them once the loop is at rest, unless a call of `send`
was refused or another thread ended the session.

## Implementation notes

The time of an answer is the clock when the message was handled. The list of inputs
pairs the messages of the stream with these times; a message that has not been handled
yet has the time of the present state.
-/

namespace HelloWebsocket.Cpp.Server

open Utf8 Protocol Threads Reactors Transitions

section Refinement

/-- Messages with the clocks at which they are handled, as inputs of the protocol's server. -/
def timed (inputs : List (Bytes × Clock)) : List (Bytes × Int) :=
  inputs.map fun i => (i.1, i.2.wall)

/-- The answers of the protocol's server. -/
def reference (inputs : List (Bytes × Clock)) : List Bytes :=
  (outputs (serve host) (utf8 "unknown") (timed inputs)).map octets

theorem toInt_nowMs (c : Clock) : c.nowMs.toInt = c.wall := by
  have hrange := abs_le.mp c.inRange
  rw [Clock.nowMs, Clock.wall]
  exact Int64.toInt_ofInt_of_le (by omega) (by omega)

/-- The receive loop answers as the protocol's server does. -/
theorem implements_serve : Implements server.reactor (serve host) Vars.clientLanguage
    (fun i => (i.1, i.2.wall)) octets where
  next v i := by
    change (handle v i.2.nowMs i.1).vars.clientLanguage = _
    rw [handle_eq, specified, toInt_nowMs]
  stop v i := by
    change (handle v i.2.nowMs i.1).stop = _
    rw [handle_eq, specified, toInt_nowMs]
  out v i := by
    change (handle v i.2.nowMs i.1).reply.toList = _
    rw [handle_eq, specified, toInt_nowMs]
    have hlen := length_out_serve_le host v.clientLanguage (i.1, i.2.wall)
    generalize (serve host v.clientLanguage (i.1, i.2.wall)).out = out at hlen ⊢
    rcases out with - | ⟨m, - | ⟨m', more⟩⟩
    · rfl
    · rfl
    · simp at hlen

variable {c : Clock} {w : Bytes} {ms : List Bytes} {s : State Background Vars Unit}

theorem outputs_eq_reference (c : Clock) (inputs : List (Bytes × Clock)) :
    outputs server.reactor (server.initial c.nowMs) inputs = reference inputs :=
  implements_serve.outputs _ inputs

theorem stopped_iff : Stopped server c s ↔
    stopped (serve host) (utf8 "unknown") (timed s.handled) = true := by
  rw [Stopped, implements_serve.stopped]
  rfl

/-- The answers of the receive loop come first among those of the protocol's server, which answers
the messages up to the first that stops it. Nothing is missing from a main thread at rest, unless a
call of `send` was refused or another thread ended the session, and the main thread can come to
rest. Nothing is handled after a message that stops the session. -/
theorem handleClient_refines_serve (hw : Ws.Carries true w ms)
    (hreach : Reaches (step server) (server.start c) s) (harrived : s.arrived <+: w) :
    (∃ inputs : List (Bytes × Clock), inputs.map Prod.fst = ms ∧
      timed s.handled <+: answered (serve host) (utf8 "unknown") (timed inputs) ∧
      s.vars.clientLanguage = final (serve host) (utf8 "unknown") (timed s.handled) ∧
      s.replies <+: reference inputs ∧
      (s.broken = false → s.interrupted = false → s.arrived = w → s.AtRest server →
        s.replies = reference inputs)) ∧
    (s.broken = false → s.interrupted = false →
      ∃ s', Reaches (step server) s s' ∧ s'.broken = false ∧ s'.interrupted = false ∧
        s'.arrived = s.arrived ∧ s'.AtRest server) ∧
    (stopped (serve host) (utf8 "unknown") (timed s.handled) = true →
      ∀ s', Reaches (step server) s s' → s'.handled = s.handled) := by
  have hreads : Ws.Reads (!server.masked) none w ms none := hw.reads
  have horderly := orderly_of_reaches hreach
  obtain ⟨more, hmore⟩ := horderly.prefix_of_arrived hreads harrived
  refine ⟨⟨s.handled ++ more.map fun m => (m, s.clock), ?_, ?_, ?_, ?_, ?_⟩,
    exists_atRest rfl hreach, fun hstop s' => handled_of_stopped hreach (stopped_iff.mpr hstop)⟩
  · rw [List.map_append, List.map_map]
    exact (congrArg _ (List.map_id' more)).trans hmore
  · have hanswered := congrArg timed (answered_of_reaches hreach)
    rw [timed, implements_serve.answered] at hanswered
    rw [show timed (s.handled ++ _) = timed s.handled ++ timed _ from List.map_append]
    exact prefix_answered_append hanswered _
  · rw [horderly.handling.vars]
    exact implements_serve.final _ s.handled
  · rw [← outputs_eq_reference c]
    exact horderly.answering.prefix_outputs.trans (prefix_outputs_append _ _ _)
  · intro hbroken hint hall hrest
    rw [horderly.replies_of_rest hbroken hint hrest, ← outputs_eq_reference c]
    rcases handled_of_rest hreads hreach hall hbroken hint hrest with hstop | hmessages
    · exact (outputs_append_of_stopped hstop).symm
    · rw [hmessages] at hmore
      rw [List.append_right_eq_self.mp hmore, List.map_nil, List.append_nil]

/-- A client that takes its leave at once: its message arrives and the loop can come to rest. -/
theorem handleClient_refines_serve_disconnect :
    let c : Clock := ⟨0, 0, by decide⟩
    let data := octets (.disconnect [])
    let w := Ws.frameOctets .short (some ⟨[1, 2, 3, 4], rfl⟩) ⟨true, 2, data⟩
    let s : State Background Vars Unit := { server.start c with inbox := w, arrived := w }
    (∃ inputs : List (Bytes × Clock), inputs.map Prod.fst = [data] ∧ s.replies <+: reference inputs) ∧
      ∃ s', Reaches (step server) s s' ∧ s'.AtRest server := by
  intro c data w s
  have hw : Ws.Carries true w [data] := by
    refine ⟨[⟨true, 2, data⟩], w, [], (List.append_nil w).symm,
      ⟨w, [], ⟨.short, some ⟨[1, 2, 3, 4], rfl⟩, ?_, rfl, rfl⟩, rfl, (List.append_nil w).symm⟩,
      ⟨[], _, [], rfl, nofun, rfl, .inl ⟨rfl, rfl⟩⟩, ⟨?_, trivial⟩, (List.append_nil data).symm, rfl⟩
    · decide
    · decide
  have hreach : Reaches (step server) (server.start c) s := ⟨[.arrive w], rfl⟩
  obtain ⟨⟨inputs, hmessages, -, -, hreplies, -⟩, hrest, -⟩ :=
    handleClient_refines_serve hw hreach (List.prefix_refl w)
  obtain ⟨s', hreach', -, -, -, hrest'⟩ := hrest rfl rfl
  exact ⟨⟨inputs, hmessages, hreplies⟩, s', hreach', hrest'⟩

end Refinement

end HelloWebsocket.Cpp.Server
