import HelloWebsocket.Ws.Grammar
import HelloWebsocket.Cpp.WebSocket

/-!
# The C++ frame reader refines the message reader

Every turn of the loop of `wsRecvFrame` simulates a turn of `readMessage`, so a call
returns a valid message, a close frame or an invalid one exactly when the message
reader returns the message, meets the close frame or stops for another reason, with
the same octets consumed and the same replies on the way.
-/

namespace HelloWebsocket.Cpp

open Parsing Streams Loops Simulation Ws

/-- A valid binary message with its payload. -/
def WSFrame.IsMessage (w : WSFrame) (p : Bytes) : Prop :=
  w.isValid = true ∧ w.isClose = false ∧ w.opcode = some 2 ∧ w.payload = p

/-- What `wsRecvFrame` returns when no message could be read. -/
def WSFrame.Stops (w : WSFrame) : Stop → Prop
  | .closed p => w.isValid = true ∧ w.isClose = true ∧ w.payload = p
  | .fault _ => w.isValid = false
  | .replyFailed => w.isValid = false

/-- The loop variables between two frames of a message. -/
structure Assembling.Holds (st : Assembling) (a : Assembly) : Prop where
  fragmented : st.fragmented = a.isSome
  payload : st.message.payload = a.getD []
  size : a.held ≤ limit
  opcode : a.isSome = true → st.message.opcode = some 2
  invalid : st.message.isValid = false
  isOpen : st.message.isClose = false

abbrev recvView (expectMasked : Bool) (base : Socket) : View WSFrame Stop Socket Link :=
  replyView (!expectMasked) base WSFrame.Stops

section Frames

variable {expectMasked : Bool} {base : Socket} {st : Assembling} {a : Assembly} {f : Ws.Frame}

theorem orReturn_recvAll_simulates {message : WSFrame} (h : message.isValid = false) (len : Nat) :
    Simulates (recvView expectMasked base) Eq (orReturn message (recvAll len))
      (onStream (take len)) := by
  have hreceive : Simulates (replyView (!expectMasked) base fun _ e => e = .fault .endOfStream) Eq
      (recvAll len) (onStream (take len)) := recvSome.receive_simulates (fun _ => rfl) len
  refine simulates_adaptExcept hreceive rfl ?_
  rintro _ _ rfl
  exact h

/-- The first part of a turn reads a frame. -/
theorem recvFrame_simulates (h : st.Holds a) :
    Simulates (recvView expectMasked base)
      (fun r f => r = (f.fin, { opcode := some (UInt8.ofNat f.opcode.val), payload := f.payload }))
      (recvFrame expectMasked st.message) (onStream (readFrame expectMasked a.held)) := by
  rw [recvFrame_eq]
  apply frameBy_simulates (orReturn_recvAll_simulates h.invalid)
  · rintro e (rfl | rfl | rfl | rfl) <;> exact h.invalid
  · intro fin opcode len hop
    rw [← oversized_iff h.size hop, h.payload]
    simp only [decide_eq_true_eq, Bool.not_eq_true]
    rfl

/-- A control frame sent is a reply. -/
theorem wsSendControl_simulates {f : Ws.Frame} (hfin : f.fin = true) (hlen : f.payload.length ≤ 125) :
    Simulates (recvView expectMasked base) Eq
      (wsSendControl (UInt8.ofNat f.opcode.val) f.payload (!expectMasked)) (reply f) := by
  intro s l hshows
  rw [wsSendControl_eq f.opcode hlen]
  obtain ⟨fin, opcode, payload⟩ := f
  cases hfin
  exact ⟨hshows.refusal, hshows.sent _⟩

theorem some_opcode_eq_iff (f : Ws.Frame) (k : Fin 16) :
    some (UInt8.ofNat f.opcode.val) = some (UInt8.ofNat k.val) ↔ f.opcode = k := by
  rw [Option.some.injEq, opcode_eq_iff]

/-- A frame that takes its place in the message. -/
theorem Assembling.Holds.extend (h : st.Holds a) (hok : a.Admits f) {opcode : Option UInt8}
    (hop : opcode = some 2) :
    Assembling.Holds ⟨{ st.message with
      opcode := opcode
      payload := a.getD [] ++ f.payload }, true⟩ (some (a.getD [] ++ f.payload)) where
  fragmented := rfl
  payload := rfl
  opcode _ := hop
  size := by
    rw [Assembly.held, Option.getD_some, List.length_append]
    exact hok.2
  invalid := h.invalid
  isOpen := h.isOpen

/-- The second part of a turn does with the frame what the message reader does. -/
theorem handleFrame_simulates (h : st.Holds a) (hok : a.Admits f) :
    Simulates (recvView expectMasked base) (Sum.LiftRel Assembling.Holds WSFrame.IsMessage)
      (handleFrame expectMasked st f.fin
        { opcode := some (UInt8.ofNat f.opcode.val), payload := f.payload }) (handle a f) := by
  rw [handleFrame, handle]
  refine simulates_ite (some_opcode_eq_iff f 8) (fun hclose => ?_) fun _ => ?_
  · have hlen := (hok.1 (by rw [(some_opcode_eq_iff f 8).mp hclose])).2
    refine simulates_bind (wsSendControl_simulates (f := closing f) rfl hlen) fun _ _ _ => ?_
    exact simulates_throw ⟨rfl, rfl, rfl⟩
  refine simulates_ite (some_opcode_eq_iff f 9) (fun hping => ?_) fun hping => ?_
  · have hlen := (hok.1 (by rw [(some_opcode_eq_iff f 9).mp hping]; decide)).2
    refine simulates_bind (wsSendControl_simulates (f := pong f) rfl hlen) ?_
    rintro sent _ rfl
    exact simulates_throwIf Iff.rfl h.invalid fun _ => simulates_pure (.inl h)
  refine simulates_ite (some_opcode_eq_iff f 10) (fun _ => simulates_pure (.inl h)) fun _ => ?_
  cases a with
  | none =>
      have hfirst : st.fragmented = false := h.fragmented
      by_cases htwo : f.opcode = 2
      · have hop := (some_opcode_eq_iff f 2).mpr htwo
        rw [if_pos ⟨hop, hfirst⟩, place_none htwo]
        cases f.fin with
        | true => exact simulates_pure (.inr ⟨rfl, h.isOpen, hop, rfl⟩)
        | false => exact simulates_pure (.inl (h.extend hok hop))
      · rw [if_neg fun hc => htwo ((some_opcode_eq_iff f 2).mp hc.1),
          if_neg fun hc => Bool.false_ne_true (hfirst.symm.trans hc.2),
          show Assembly.place f none = none from if_neg htwo]
        exact simulates_throw rfl
  | some p =>
      have hlater : st.fragmented = true := h.fragmented
      rw [if_neg fun hc => Bool.false_ne_true (hc.2.symm.trans hlater)]
      by_cases hzero : f.opcode = 0
      · rw [if_pos ⟨(some_opcode_eq_iff f 0).mpr hzero, hlater⟩, place_some hzero, h.payload, hlater]
        cases f.fin with
        | true => exact simulates_pure (.inr ⟨rfl, h.isOpen, h.opcode rfl, rfl⟩)
        | false => exact simulates_pure (.inl (h.extend hok (h.opcode rfl)))
      · rw [if_neg fun hc => hzero ((some_opcode_eq_iff f 0).mp hc.1),
          show Assembly.place f (some p) = none from if_neg hzero]
        exact simulates_throw rfl

/-- A turn of the loop of `wsRecvFrame` is one of the message reader. -/
theorem recvTurn_simulates (h : st.Holds a) :
    Simulates (recvView expectMasked base) (Sum.LiftRel Assembling.Holds WSFrame.IsMessage)
      (recvTurn expectMasked st) (turn expectMasked a) := by
  have hframe : Simulates (recvView expectMasked base) _ (recvFrame expectMasked st.message) _ :=
    recvFrame_simulates h
  refine simulates_bind (hframe.and_post (Q := a.Admits) fun _ _ _ hread =>
    (readFrame_sound (onStream_eq_ok hread).1).1) ?_
  rintro _ f ⟨rfl, hok⟩
  exact handleFrame_simulates h hok

end Frames

section Calls

/-- What a call of `wsRecvFrame` returns, next to what the message reader does. -/
def Matches (s : Socket) (expectMasked : Bool) (w : WSFrame) (s' : Socket) :
    EStateM.Result Stop Link Bytes → Prop
  | .ok p l => w.IsMessage p ∧ Shows (!expectMasked) s s' l
  | .error e l => w.Stops e ∧ Shows (!expectMasked) s s' l

/-- `wsRecvFrame` refines the message reader. -/
theorem wsRecvFrame_matches (expectMasked : Bool) (s : Socket) :
    Matches s expectMasked (wsRecvFrame expectMasked s).1 (wsRecvFrame expectMasked s).2
      (readMessage expectMasked s.link) := by
  have hinit : Assembling.Holds ⟨{}, false⟩ none := ⟨rfl, rfl, Nat.zero_le _, nofun, rfl, rfl⟩
  have hturn : ∀ st a, Assembling.Holds st a → Simulates (recvView expectMasked s) _
      ((receiving expectMasked).run st) ((reading expectMasked).run a) :=
    fun _ _ h => recvTurn_simulates h
  have hloop := simulates_iterate hturn hinit s s.link (Shows.start _ s)
  rw [wsRecvFrame, readMessage]
  cases hrun : iterate (receiving expectMasked) ⟨{}, false⟩ s with
  | ok w s' =>
      rw [hrun] at hloop
      obtain ⟨p, l, hread, hloop⟩ := hloop.ok
      rw [hread]
      exact hloop
  | error w s' =>
      rw [hrun] at hloop
      obtain ⟨e, l, hread, hloop⟩ := hloop.error
      rw [hread]
      exact hloop

end Calls

end HelloWebsocket.Cpp
