import HelloWebsocket.Ws.Grammar
import HelloWebsocket.Swift.WebSocket

/-!
# The Swift frame reader refines the message reader

Every turn of the loop of `wsReadFrame` simulates a turn of `readMessage`. A close
frame and the end of the stream are thrown as the same error. Which of the two it was
can still be told from the replies: only a close frame is answered with one.
-/

namespace HelloWebsocket.Swift

open Parsing Streams Loops Simulation Ws

/-- What `wsReadFrame` throws when no message could be read. -/
def Failure.Stops : Failure → Stop → Prop
  | .thrown .connectionClosed, .closed _ => True
  | .thrown .connectionClosed, .fault .endOfStream => True
  | .thrown (.recvFailed _), .fault .endOfStream => True
  | .thrown (.upgradeFailed _), .fault .violation => True
  | .thrown (.sendFailed _), .replyFailed => True
  | _, _ => False

/-- No call traps. -/
theorem Failure.Stops.thrown {failure : Failure} {stop : Stop} (h : failure.Stops stop) :
    ∃ e, failure = .thrown e := by
  cases failure with
  | thrown e => exact ⟨e, rfl⟩
  | trap => exact h.elim

theorem Failure.Stops.closed {failure : Failure} {p : Bytes} (h : failure.Stops (.closed p)) :
    failure = .thrown .connectionClosed := by
  obtain ⟨e, rfl⟩ := h.thrown
  cases e with
  | connectionClosed => rfl
  | sendFailed code => exact h.elim
  | recvFailed code => exact h.elim
  | upgradeFailed message => exact h.elim

/-- The loop variables between two frames of a message. -/
structure Progress.Holds (st : Progress) (a : Assembly) : Prop where
  fragmented : st.fragmented = a.isSome
  complete : st.complete = a.getD []
  size : a.held ≤ limit

abbrev readView (expectMasked : Bool) (base : Socket) : View Failure Stop Socket Link :=
  replyView (!expectMasked) base Failure.Stops

section Frames

variable {expectMasked : Bool} {base : Socket} {st : Progress} {a : Assembly} {f : Frame}

theorem recvExact_simulates (count : Nat) :
    Simulates (readView expectMasked base) Eq (recvExact count) (onStream (take count)) := by
  apply recvChunk.receive_simulates
  rintro (_ | code) <;> trivial

/-- The first part of a turn reads a frame. -/
theorem readFrameParts_simulates (h : st.Holds a) :
    Simulates (readView expectMasked base)
      (fun r f => r = (f.fin, UInt8.ofNat f.opcode.val, f.payload))
      (readFrameParts expectMasked st.complete) (onStream (readFrame expectMasked a.held)) := by
  rw [readFrameParts_eq]
  apply frameBy_simulates recvExact_simulates
  · rintro e (rfl | rfl | rfl | rfl) <;> trivial
  · intro fin opcode len hop
    rw [← oversized_iff h.size hop, h.complete]
    simp only [not_and_or, not_or, not_not, decide_eq_true_eq, UInt64.not_le, Bool.not_eq_true]
    rfl

theorem wsEncodeControlFrame_eq (opcode : Fin 16) {payload : Bytes} (h : payload.length ≤ 125)
    (masked : Bool) (s : Socket) :
    wsEncodeControlFrame (UInt8.ofNat opcode.val) payload masked s =
      .ok (frameOctets .short (s.nextKey masked) ⟨true, opcode, payload⟩) s := by
  rw [wsEncodeControlFrame, if_neg (not_not.mpr h), or_firstOctet opcode payload,
    or_secondOctet masked (by omega)]
  cases masked <;> rfl

theorem sendBytes_eq (data : Bytes) (s : Socket) : sendBytes data s =
    match s.refusals s.sends.length with
    | none => .ok data.length { s with sends := s.sends ++ [data] }
    | some code => .error (.thrown (.sendFailed code)) { s with sends := s.sends ++ [data] } := by
  refine (bind_of_ok rfl).trans ?_
  cases s.refusals s.sends.length <;> rfl

/-- The close answer is sent, whether that succeeds or not. -/
theorem send_close_simulates (hlen : f.payload.length ≤ 125) :
    Simulates (readView expectMasked base) (fun _ _ => True)
      (wsEncodeControlFrame 0x08 f.payload (!expectMasked) >>= Socket.send) (reply (closing f)) := by
  intro s l hshows
  have hencode : wsEncodeControlFrame 0x08 f.payload (!expectMasked) s =
      .ok (frameOctets .short (s.nextKey (!expectMasked)) (closing f)) s :=
    wsEncodeControlFrame_eq 8 hlen _ s
  rw [bind_of_ok hencode]
  exact ⟨trivial, hshows.sent _⟩

/-- The answer to a ping is sent, or the error of the failed send is thrown. -/
theorem send_pong_simulates (hlen : f.payload.length ≤ 125) :
    Simulates (readView expectMasked base) (fun _ _ => True)
      (wsEncodeControlFrame 0x0A f.payload (!expectMasked) >>= sendBytes)
      (reply (pong f) >>= fun sent => throwIf (sent = false) .replyFailed) := by
  intro s l hshows
  have hencode : wsEncodeControlFrame 0x0A f.payload (!expectMasked) s =
      .ok (frameOctets .short (s.nextKey (!expectMasked)) (pong f)) s :=
    wsEncodeControlFrame_eq 10 hlen _ s
  have hreply : reply (pong f) l =
      .ok (l.accepts l.replies.length) { l with replies := l.replies ++ [pong f] } := rfl
  rw [bind_of_ok hencode, bind_of_ok hreply, sendBytes_eq, throwIf, ← hshows.refusal]
  cases s.refusals s.sends.length with
  | none => exact ⟨trivial, hshows.sent _⟩
  | some code => exact ⟨trivial, hshows.sent _⟩

/-- A frame that takes its place in the message. -/
theorem Progress.holds_extend (hok : a.Admits f) :
    Progress.Holds ⟨a.getD [] ++ f.payload, true⟩ (some (a.getD [] ++ f.payload)) where
  fragmented := rfl
  complete := rfl
  size := by
    rw [Assembly.held, Option.getD_some, List.length_append]
    exact hok.2

/-- The second part of a turn does with the frame what the message reader does. -/
theorem switchOpcode_simulates (h : st.Holds a) (hok : a.Admits f) :
    Simulates (readView expectMasked base) (Sum.LiftRel Progress.Holds Eq)
      (switchOpcode expectMasked st f.fin (UInt8.ofNat f.opcode.val) f.payload) (handle a f) := by
  rw [switchOpcode, handle]
  refine simulates_ite (opcode_eq_iff f 8) (fun hclose => ?_) fun _ => ?_
  · have hlen := (hok.1 (by rw [(opcode_eq_iff f 8).mp hclose])).2
    rw [← bind_assoc]
    exact simulates_bind (send_close_simulates hlen) fun _ _ _ => simulates_throw trivial
  refine simulates_ite (opcode_eq_iff f 9) (fun hping => ?_) fun _ => ?_
  · have hlen := (hok.1 (by rw [(opcode_eq_iff f 9).mp hping]; decide)).2
    rw [← bind_assoc, ← bind_assoc]
    exact simulates_bind (send_pong_simulates hlen) fun _ _ _ => simulates_pure (.inl h)
  refine simulates_ite (opcode_eq_iff f 10) (fun _ => simulates_pure (.inl h)) fun _ => ?_
  cases a with
  | none =>
      have hfirst : st.fragmented = false := h.fragmented
      by_cases htwo : f.opcode = 2
      · rw [if_pos ⟨(opcode_eq_iff f 2).mpr htwo, hfirst⟩, place_none htwo]
        cases f.fin with
        | true => exact simulates_pure (.inr rfl)
        | false => exact simulates_pure (.inl (Progress.holds_extend hok))
      · rw [if_neg fun hc => htwo ((opcode_eq_iff f 2).mp hc.1),
          if_neg fun hc => Bool.false_ne_true (hfirst.symm.trans hc.2),
          show Assembly.place f none = none from if_neg htwo]
        exact simulates_throw trivial
  | some p =>
      have hlater : st.fragmented = true := h.fragmented
      rw [if_neg fun hc => Bool.false_ne_true (hc.2.symm.trans hlater)]
      by_cases hzero : f.opcode = 0
      · rw [if_pos ⟨(opcode_eq_iff f 0).mpr hzero, hlater⟩, place_some hzero, h.complete, hlater]
        cases f.fin with
        | true => exact simulates_pure (.inr rfl)
        | false => exact simulates_pure (.inl (Progress.holds_extend hok))
      · rw [if_neg fun hc => hzero ((opcode_eq_iff f 0).mp hc.1),
          show Assembly.place f (some p) = none from if_neg hzero]
        exact simulates_throw trivial

/-- A turn of the loop of `wsReadFrame` is one of the message reader. -/
theorem readTurn_simulates (h : st.Holds a) :
    Simulates (readView expectMasked base) (Sum.LiftRel Progress.Holds Eq)
      (readTurn expectMasked st) (turn expectMasked a) := by
  have hframe : Simulates (readView expectMasked base) _ (readFrameParts expectMasked st.complete) _ :=
    readFrameParts_simulates h
  refine simulates_bind (hframe.and_post (Q := a.Admits) fun _ _ _ hread =>
    (readFrame_sound (onStream_eq_ok hread).1).1) ?_
  rintro _ f ⟨rfl, hok⟩
  exact switchOpcode_simulates h hok

end Frames

/-- `wsReadFrame` refines the message reader. -/
theorem wsReadFrame_agrees (expectMasked : Bool) (s : Socket) :
    Agrees (readView expectMasked s) Eq (wsReadFrame expectMasked s)
      (readMessage expectMasked s.link) := by
  have hinit : Progress.Holds ⟨[], false⟩ none := ⟨rfl, rfl, Nat.zero_le _⟩
  have hturn : ∀ st a, Progress.Holds st a → Simulates (readView expectMasked s) _
      ((readLoop expectMasked).run st) ((reading expectMasked).run a) :=
    fun _ _ h => readTurn_simulates h
  exact simulates_iterate hturn hinit s s.link (Shows.start _ s)

end HelloWebsocket.Swift
