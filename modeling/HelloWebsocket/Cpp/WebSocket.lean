import HelloWebsocket.Ws.Reading

/-!
# The C++ frame reader and writers

`recvAll`, `sendAll`, `wsSendBinary`, `wsSendBinaryMasked`, `WSFrame`,
`wsSendControl` and `wsRecvFrame` of `ws.hpp`.

## Implementation notes

A `return` out of the loop of `wsRecvFrame` that is not the return of a complete
message is a throw of the returned frame. The `bool` of `recvAll` is the difference
between a value and an error. `WSFrame` has no initialiser for its opcode: `none`
stands for the indeterminate value. The random key of a masked frame comes from the
socket's oracle.
-/

namespace HelloWebsocket.Cpp

open Parsing Streams Loops Simulation Ws

section Sending

variable {ε : Type}

/-- One turn of `sendAll`. -/
def sendMore (buf : Bytes) : EStateM ε Socket (Bytes ⊕ Bool) :=
  if 0 < buf.length then do
    match ← Socket.send buf with
    | .error _ => pure (.inr false)
    | .ok n => pure (.inl (buf.drop n))
  else pure (.inr true)

theorem sendMore_eq {buf : Bytes} (h : 0 < buf.length) (s : Socket) :
    sendMore (ε := ε) buf s = .ok (if (s.refusals s.sends.length).isNone then .inl [] else .inr false)
      { s with sends := s.sends ++ [buf] } := by
  rw [sendMore, if_pos h]
  refine (bind_of_ok rfl).trans ?_
  cases s.refusals s.sends.length with
  | none =>
      change EStateM.Result.ok (Sum.inl (buf.drop buf.length)) _ = _
      rw [List.drop_length]
      rfl
  | some code => rfl

def sending : Body ε Socket Bytes Bool where
  measure buf _ := buf.length
  run := sendMore
  shrinks := by
    intro buf s buf' s' h
    by_cases hpos : 0 < buf.length
    · rw [sendMore_eq hpos] at h
      split at h <;> cases h
      exact hpos
    · rw [sendMore, if_neg hpos] at h
      cases h

/-- `sendAll` -/
def sendAll (buf : Bytes) : EStateM ε Socket Bool := iterate sending buf

theorem sendAll_eq {buf : Bytes} (h : 0 < buf.length) (s : Socket) :
    sendAll (ε := ε) buf s =
      .ok (s.refusals s.sends.length).isNone { s with sends := s.sends ++ [buf] } := by
  have hturn := sendMore_eq (ε := ε) h s
  cases hrefusal : (s.refusals s.sends.length).isNone with
  | true =>
      rw [hrefusal, if_pos rfl] at hturn
      refine (iterate_of_continue (B := sending) hturn).trans ?_
      exact iterate_of_done (B := sending) rfl
  | false =>
      rw [hrefusal, if_neg Bool.false_ne_true] at hturn
      exact iterate_of_done (B := sending) hturn

/-- `wsSendBinary` -/
def wsSendBinary (data : Bytes) : EStateM ε Socket Bool :=
  sendAll (0x82 :: (lengthOctets 0x00 data.length ++ data))

/-- `wsSendBinaryMasked` -/
def wsSendBinaryMasked (data : Bytes) : EStateM ε Socket Bool := do
  let key ← Socket.newKey
  sendAll (0x82 :: (lengthOctets 0x80 data.length ++ key.octets ++ mask key.octets data))

/-- The octets `wsSendBinary` and `wsSendBinaryMasked` write for a message. -/
theorem binary_octets (data : Bytes) (key : Option Key) :
    0x82 :: (lengthOctets (if key.isSome then 0x80 else 0x00) data.length ++ body key data) =
      frameOctets (.of data.length) key ⟨true, 2, data⟩ := by
  rw [lengthOctets_eq]
  rfl

theorem wsSendBinary_eq (data : Bytes) (s : Socket) :
    wsSendBinary (ε := ε) data s = .ok (s.refusals s.sends.length).isNone { s with
      sends := s.sends ++ [frameOctets (.of data.length) none ⟨true, 2, data⟩] } := by
  rw [← binary_octets data none]
  exact sendAll_eq (by simp) s

theorem wsSendBinaryMasked_eq (data : Bytes) (s : Socket) :
    wsSendBinaryMasked (ε := ε) data s = .ok (s.refusals s.sends.length).isNone { s with
      sends := s.sends ++
        [frameOctets (.of data.length) (some (s.keys s.sends.length)) ⟨true, 2, data⟩] } := by
  rw [← binary_octets data (some _)]
  refine (bind_of_ok rfl).trans ((sendAll_eq (by simp) s).trans ?_)
  rw [List.append_assoc]
  rfl

/-- `wsSendControl` -/
def wsSendControl (opcode : UInt8) (payload : Bytes) (masked : Bool) : EStateM ε Socket Bool :=
  if 125 < payload.length then pure false
  else
    let head : Bytes := [0x80 ||| (opcode &&& 0x0F),
      (if masked then 0x80 else 0x00) ||| UInt8.ofNat payload.length]
    if masked then do
      let key ← Socket.newKey
      sendAll (head ++ key.octets ++ mask key.octets payload)
    else sendAll (head ++ payload)

/-- A control frame goes out in the short form. -/
theorem wsSendControl_eq (opcode : Fin 16) {payload : Bytes} (h : payload.length ≤ 125)
    (masked : Bool) (s : Socket) :
    wsSendControl (ε := ε) (UInt8.ofNat opcode.val) payload masked s =
      .ok (s.refusals s.sends.length).isNone { s with
        sends := s.sends ++ [frameOctets .short (s.nextKey masked) ⟨true, opcode, payload⟩] } := by
  have hnibble : UInt8.ofNat opcode.val &&& 0x0F = UInt8.ofNat opcode.val := by
    have hop := opcode.isLt
    apply UInt8.toNat_inj.mp
    rw [Words.toNat_and_nibble, UInt8.toNat_ofNat_of_lt' (by change _ < 256; omega),
      Nat.mod_eq_of_lt hop]
  rw [wsSendControl, if_neg (by omega), hnibble, or_firstOctet opcode payload,
    or_secondOctet masked (by omega)]
  cases masked with
  | false => exact sendAll_eq (by simp) s
  | true =>
      refine (bind_of_ok rfl).trans ((sendAll_eq (by simp) s).trans ?_)
      rfl

theorem consumes_wsSendControl (opcode : UInt8) (payload : Bytes) (masked : Bool) :
    Consumes 0 (wsSendControl opcode payload masked : EStateM ε Socket Bool) := by
  have hsend : ∀ b : Bytes, 0 < b.length → Consumes 0 (sendAll b : EStateM ε Socket Bool) := by
    intro b hb s sent s' h
    rw [sendAll_eq hb] at h
    cases h
    exact Nat.le_refl _
  apply consumes_ite (consumes_pure _)
  apply consumes_ite
  · apply consumes_bind consumes_newKey
    intro key
    exact hsend _ (Nat.succ_pos _)
  · exact hsend _ (Nat.succ_pos _)

end Sending

section Receiving

/-- `WSFrame` -/
structure WSFrame where
  opcode : Option UInt8 := none
  payload : Bytes := []
  isClose : Bool := false
  isValid : Bool := false
  deriving DecidableEq

/-- A call of `recv` that returns `false` from `recvAll` when nothing comes. -/
def recvSome : Reader Unit where
  get n := do
    match ← Socket.recv n with
    | .data octets => pure octets
    | .closed => throw ()
    | .failed _ => throw ()
  onEnd _ := ()
  get_eq := by
    intro n s _
    change EStateM.bind (Socket.recv n) _ s = _
    rw [EStateM.bind, Socket.recv]
    cases s.inbox.next n with
    | some q => rfl
    | none => cases s.ending <;> rfl

/-- `recvAll` -/
def recvAll (len : Nat) : EStateM Unit Socket Bytes := recvSome.receive len

/-- The programs inside `wsRecvFrame`, which may return from it. -/
abbrev RecvM := EStateM WSFrame Socket

def orReturn {α : Type} (message : WSFrame) (m : EStateM Unit Socket α) : RecvM α :=
  m.adaptExcept fun _ => message

/-- `MAX_MESSAGE_SIZE` -/
def MAX_MESSAGE_SIZE : UInt64 := 1024 * 1024

/-- The payload length after the second octet of the header. -/
def recvLength (message : WSFrame) (payloadLen : UInt64) : RecvM UInt64 :=
  if payloadLen = 126 then do
    let ext ← orReturn message (recvAll 2)
    pure ((ext.getD 0 0).toUInt64 <<< 8 ||| (ext.getD 1 0).toUInt64)
  else if payloadLen = 127 then do
    let ext ← orReturn message (recvAll 8)
    throwIf (ext.getD 0 0 &&& 0x80 ≠ 0) message
    pure (ext.foldl (fun n b => n <<< 8 ||| b.toUInt64) 0)
  else pure payloadLen

/-- The mask, which is zero when there is none. -/
def recvMask (message : WSFrame) (masked : Bool) : RecvM Bytes :=
  if masked then orReturn message (recvAll 4) else pure [0, 0, 0, 0]

/-- The payload as it stands on the wire. -/
def recvPayload (message : WSFrame) (payloadLen : UInt64) : RecvM Bytes :=
  if 0 < payloadLen then orReturn message (recvAll payloadLen.toNat) else pure []

/-- The first part of a turn: a frame and whether it is final. -/
def recvFrame (expectMasked : Bool) (message : WSFrame) : RecvM (Bool × WSFrame) := do
  let hdr ← orReturn message (recvAll 2)
  let fin := decide (hdr.getD 0 0 &&& 0x80 ≠ 0)
  throwIf (hdr.getD 0 0 &&& 0x70 ≠ 0) message
  let opcode := hdr.getD 0 0 &&& 0x0F
  let masked := decide (hdr.getD 1 0 &&& 0x80 ≠ 0)
  throwIf (masked ≠ expectMasked) message
  let payloadLen ← recvLength message (hdr.getD 1 0 &&& 0x7F).toUInt64
  let control := decide (0x08 ≤ opcode)
  throwIf ((control ∧ (¬ fin ∨ 125 < payloadLen)) ∨ MAX_MESSAGE_SIZE < payloadLen ∨
    MAX_MESSAGE_SIZE < UInt64.ofNat message.payload.length + payloadLen) message
  let key ← recvMask message masked
  let payload ← recvPayload message payloadLen
  pure (fin, { opcode := some opcode, payload := if masked then mask key payload else payload })

/-- The first part of a turn has the common shape. -/
theorem recvFrame_eq (expectMasked : Bool) (message : WSFrame) :
    recvFrame expectMasked message =
      frameBy (fun n => orReturn message (recvAll n)) ⟨message, message, message, message⟩
        (fun fin opcode len => (decide (0x08 ≤ opcode) ∧ (¬ fin ∨ 125 < len)) ∨
          MAX_MESSAGE_SIZE < len ∨
          MAX_MESSAGE_SIZE < UInt64.ofNat message.payload.length + len)
        [0, 0, 0, 0] expectMasked
        (fun fin opcode payload => (fin, { opcode := some opcode, payload := payload })) :=
  rfl

/-- The variables of the loop. -/
structure Assembling where
  message : WSFrame
  fragmented : Bool

/-- The second part of a turn: what is done with the frame. -/
def handleFrame (expectMasked : Bool) (st : Assembling) (fin : Bool) (frame : WSFrame) :
    RecvM (Assembling ⊕ WSFrame) :=
  if frame.opcode = some 0x08 then do
    let _ ← wsSendControl 0x08 frame.payload (!expectMasked)
    throw { frame with isClose := true, isValid := true }
  else if frame.opcode = some 0x09 then do
    let sent ← wsSendControl 0x0A frame.payload (!expectMasked)
    throwIf (sent = false) st.message
    pure (.inl st)
  else if frame.opcode = some 0x0A then pure (.inl st)
  else if frame.opcode = some 0x02 ∧ st.fragmented = false then
    let message := { st.message with opcode := frame.opcode, payload := frame.payload }
    if fin then pure (.inr { message with isValid := true })
    else pure (.inl ⟨message, true⟩)
  else if frame.opcode = some 0x00 ∧ st.fragmented = true then
    let message := { st.message with payload := st.message.payload ++ frame.payload }
    if fin then pure (.inr { message with isValid := true })
    else pure (.inl ⟨message, st.fragmented⟩)
  else throw { opcode := some 0 }

/-- One turn of the loop of `wsRecvFrame`. -/
def recvTurn (expectMasked : Bool) (st : Assembling) : RecvM (Assembling ⊕ WSFrame) := do
  let (fin, frame) ← recvFrame expectMasked st.message
  handleFrame expectMasked st fin frame

section Termination

theorem consumes_handleFrame (expectMasked : Bool) (st : Assembling) (fin : Bool)
    (frame : WSFrame) : Consumes 0 (handleFrame expectMasked st fin frame) := by
  apply consumes_ite
  · apply consumes_bind (consumes_wsSendControl _ _ _)
    intro sent
    exact consumes_throw _
  apply consumes_ite
  · apply consumes_bind (consumes_wsSendControl _ _ _)
    intro sent
    exact consumes_throwIf (consumes_pure _)
  apply consumes_ite (consumes_pure _)
  apply consumes_ite
  · exact consumes_ite (consumes_pure _) (consumes_pure _)
  apply consumes_ite
  · exact consumes_ite (consumes_pure _) (consumes_pure _)
  · exact consumes_throw _

/-- The loop of `wsRecvFrame`. -/
def receiving (expectMasked : Bool) : Body WSFrame Socket Assembling WSFrame where
  measure _ s := s.unread.length
  run := recvTurn expectMasked
  shrinks := by
    intro st s st' s' h
    have hframe : Consumes 2 (recvFrame expectMasked st.message) := by
      rw [recvFrame_eq]
      exact consumes_frameBy fun n => consumes_adaptExcept (recvSome.consumes_receive n)
    have hturn : Consumes 2 (recvTurn expectMasked st) :=
      consumes_bind hframe fun _ => consumes_handleFrame _ _ _ _
    have hle := hturn _ _ _ h
    omega

end Termination

/-- `wsRecvFrame` -/
def wsRecvFrame (expectMasked : Bool) (s : Socket) : WSFrame × Socket :=
  match iterate (receiving expectMasked) ⟨{}, false⟩ s with
  | .ok message s' => (message, s')
  | .error returned s' => (returned, s')

end Receiving

end HelloWebsocket.Cpp
