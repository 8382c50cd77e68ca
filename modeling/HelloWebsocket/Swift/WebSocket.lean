import HelloWebsocket.Ws.Reading

/-!
# The Swift frame reader and writers

`wsEncodeBinaryFrame`, `wsReadFrame`, `wsEncodeControlFrame` and `recvExact` of
`WebSocket.swift` over `sendBytes` and `recvBytes` of `TCPSocket.swift`.

## Implementation notes

A call can throw a `SocketError` or trap on a failed precondition. The cases of
`SocketError` for opening a connection are left out. The random key of a masked frame
comes from the socket's oracle.
-/

namespace HelloWebsocket.Swift

open Parsing Streams Loops Simulation Ws

/-- `SocketError` -/
inductive SocketError
  | sendFailed (code : Int32)
  | recvFailed (code : Int32)
  | connectionClosed
  | upgradeFailed (message : String)
  deriving DecidableEq

/-- How a call ends without a value. -/
inductive Failure
  | thrown (error : SocketError)
  | trap
  deriving DecidableEq

abbrev SwiftM := EStateM Failure Socket

section Sockets

/-- `sendBytes` -/
def sendBytes (data : Bytes) : SwiftM Nat := do
  match ← Socket.send data with
  | .error code => throw (.thrown (.sendFailed code))
  | .ok sent => pure sent

/-- `recvBytes` -/
def recvBytes (maxLen : Nat) : SwiftM Bytes := do
  match ← Socket.recv maxLen with
  | .failed code => throw (.thrown (.recvFailed code))
  | .closed => throw (.thrown .connectionClosed)
  | .data octets => pure octets

/-- The error at the end of the stream. -/
def endError : Option Int32 → Failure
  | none => .thrown .connectionClosed
  | some code => .thrown (.recvFailed code)

/-- One turn of `recvExact`, which checks again for an empty chunk. -/
def recvChunk : Reader Failure where
  get remaining := do
    let chunk ← recvBytes remaining
    throwIf (chunk.isEmpty = true) (.thrown .connectionClosed)
    pure chunk
  onEnd := endError
  get_eq := by
    intro n s hn
    have hrecv : recvBytes n s = match s.inbox.next n with
        | some (octets, rest) => .ok octets { s with inbox := rest }
        | none => .error (endError s.ending) s := by
      change EStateM.bind (Socket.recv n) _ s = _
      rw [EStateM.bind, Socket.recv]
      cases s.inbox.next n with
      | some q => rfl
      | none => cases s.ending <;> rfl
    cases hnext : s.inbox.next n with
    | none =>
        rw [hnext] at hrecv
        exact bind_of_error hrecv
    | some q =>
        rw [hnext] at hrecv
        obtain ⟨hpos, -, -⟩ := Chunks.next_eq_some hn hnext
        refine (bind_of_ok hrecv).trans ?_
        rw [throwIf_bind_apply, if_neg]
        · rfl
        · rw [List.isEmpty_iff]
          exact List.length_pos_iff.mp hpos

/-- `recvExact` -/
def recvExact (count : Nat) : SwiftM Bytes := recvChunk.receive count

end Sockets

section Writing

/-- `wsEncodeBinaryFrame`; the key is the one that is drawn when the frame is masked. -/
def wsEncodeBinaryFrame (data : Bytes) (masked : Bool) (maskKey : Key) : Bytes :=
  let len := data.length
  let maskBit : UInt8 := if masked then 0x80 else 0x00
  let head : Bytes :=
    if len ≤ 125 then [maskBit ||| UInt8.ofNat len]
    else if len ≤ 65535 then
      [maskBit ||| 126, UInt8.ofNat ((len >>> 8) &&& 0xFF), UInt8.ofNat (len &&& 0xFF)]
    else (maskBit ||| 127) ::
      [7, 6, 5, 4, 3, 2, 1, 0].map fun i => UInt8.ofNat ((len >>> (i * 8)) &&& 0xFF)
  0x82 :: (head ++ if masked then maskKey.octets ++ mask maskKey.octets data else data)

theorem wsEncodeBinaryFrame_eq (data : Bytes) (masked : Bool) (maskKey : Key) :
    wsEncodeBinaryFrame data masked maskKey =
      frameOctets (.of data.length) (if masked then some maskKey else none) ⟨true, 2, data⟩ := by
  have hhead := lengthOctets_eq masked data.length
  simp only [lengthOctets, Nat.lt_succ_iff] at hhead
  rw [wsEncodeBinaryFrame]
  change (0x82 : UInt8) :: (_ ++ _) = _
  rw [hhead]
  cases masked <;> rfl

/-- `wsEncodeControlFrame` -/
def wsEncodeControlFrame (opcode : UInt8) (payload : Bytes) (masked : Bool) : SwiftM Bytes :=
  if ¬ payload.length ≤ 125 then throw .trap
  else
    let head : Bytes :=
      [0x80 ||| opcode, (if masked then 0x80 else 0x00) ||| UInt8.ofNat payload.length]
    if masked then do
      let key ← Socket.newKey
      pure (head ++ key.octets ++ mask key.octets payload)
    else pure (head ++ payload)

end Writing

section Reading

def maxMessageSize : UInt64 := 1024 * 1024

/-- The payload length after the second octet of the header. -/
def readPayloadLength (payloadLength : UInt64) : SwiftM UInt64 :=
  if payloadLength = 126 then do
    let ext ← recvExact 2
    pure ((ext.getD 0 0).toUInt64 <<< 8 ||| (ext.getD 1 0).toUInt64)
  else if payloadLength = 127 then do
    let ext ← recvExact 8
    throwIf (ext.getD 0 0 &&& 0x80 ≠ 0) (.thrown (.upgradeFailed "invalid 64-bit payload length"))
    pure (ext.foldl (fun n b => n <<< 8 ||| b.toUInt64) 0)
  else pure payloadLength

def readMaskKey (masked : Bool) : SwiftM Bytes := if masked then recvExact 4 else pure []

def readPayload (payloadLength : UInt64) : SwiftM Bytes :=
  if payloadLength = 0 then pure [] else recvExact payloadLength.toNat

/-- The first part of a turn: FIN, opcode and the payload, unmasked. -/
def readFrameParts (expectMasked : Bool) (complete : Bytes) : SwiftM (Bool × UInt8 × Bytes) := do
  let header ← recvExact 2
  let fin := decide (header.getD 0 0 &&& 0x80 ≠ 0)
  throwIf (header.getD 0 0 &&& 0x70 ≠ 0) (.thrown (.upgradeFailed "RSV bits are unsupported"))
  let opcode := header.getD 0 0 &&& 0x0F
  let masked := decide (header.getD 1 0 &&& 0x80 ≠ 0)
  throwIf (masked ≠ expectMasked)
    (.thrown (.upgradeFailed "invalid WebSocket masking direction"))
  let payloadLength ← readPayloadLength (header.getD 1 0 &&& 0x7F).toUInt64
  let isControl := decide (0x08 ≤ opcode)
  throwIf (¬ ((¬ isControl ∨ (fin ∧ payloadLength ≤ 125)) ∧ payloadLength ≤ maxMessageSize ∧
      UInt64.ofNat complete.length + payloadLength ≤ maxMessageSize))
    (.thrown (.upgradeFailed "WebSocket message exceeds protocol limits"))
  let maskKey ← readMaskKey masked
  let payload ← readPayload payloadLength
  pure (fin, opcode, if masked then mask maskKey payload else payload)

theorem readPayload_eq : readPayload = payloadBy recvExact := by
  funext len
  rw [readPayload, payloadBy]
  by_cases hzero : len = 0
  · rw [if_pos hzero, if_neg (by rw [hzero]; decide)]
  · rw [if_neg hzero, if_pos (UInt64.pos_iff_ne_zero.mpr hzero)]

/-- The errors of `wsReadFrame` for a frame. -/
def faults : Faults Failure where
  rsv := .thrown (.upgradeFailed "RSV bits are unsupported")
  direction := .thrown (.upgradeFailed "invalid WebSocket masking direction")
  length := .thrown (.upgradeFailed "invalid 64-bit payload length")
  limits := .thrown (.upgradeFailed "WebSocket message exceeds protocol limits")

/-- The first part of a turn has the common shape. -/
theorem readFrameParts_eq (expectMasked : Bool) (complete : Bytes) :
    readFrameParts expectMasked complete =
      frameBy recvExact faults
        (fun fin opcode len => ¬ ((¬ decide (0x08 ≤ opcode) ∨ (fin ∧ len ≤ 125)) ∧
          len ≤ maxMessageSize ∧ UInt64.ofNat complete.length + len ≤ maxMessageSize))
        [] expectMasked (fun fin opcode payload => (fin, opcode, payload)) := by
  rw [readFrameParts, readPayload_eq]
  rfl

/-- The variables of the loop. -/
structure Progress where
  complete : Bytes
  fragmented : Bool

/-- The second part of a turn: the `switch` over the opcode. -/
def switchOpcode (expectMasked : Bool) (st : Progress) (fin : Bool) (opcode : UInt8)
    (payload : Bytes) : SwiftM (Progress ⊕ Bytes) :=
  if opcode = 0x08 then do
    let close ← wsEncodeControlFrame 0x08 payload (!expectMasked)
    let _ ← Socket.send close
    throw (.thrown .connectionClosed)
  else if opcode = 0x09 then do
    let answer ← wsEncodeControlFrame 0x0A payload (!expectMasked)
    let _ ← sendBytes answer
    pure (.inl st)
  else if opcode = 0x0A then pure (.inl st)
  else if opcode = 0x02 ∧ st.fragmented = false then
    if fin then pure (.inr payload) else pure (.inl ⟨payload, true⟩)
  else if opcode = 0x00 ∧ st.fragmented = true then
    if fin then pure (.inr (st.complete ++ payload))
    else pure (.inl ⟨st.complete ++ payload, st.fragmented⟩)
  else throw (.thrown (.upgradeFailed ("unsupported WebSocket opcode " ++ toString opcode.toNat)))

/-- One turn of the loop of `wsReadFrame`. -/
def readTurn (expectMasked : Bool) (st : Progress) : SwiftM (Progress ⊕ Bytes) := do
  let (fin, opcode, payload) ← readFrameParts expectMasked st.complete
  switchOpcode expectMasked st fin opcode payload

section Termination

theorem consumes_wsEncodeControlFrame (opcode : UInt8) (payload : Bytes) (masked : Bool) :
    Consumes 0 (wsEncodeControlFrame opcode payload masked) := by
  apply consumes_ite (consumes_throw _)
  apply consumes_ite
  · apply consumes_bind consumes_newKey
    intro key
    exact consumes_pure _
  · exact consumes_pure _

theorem consumes_sendBytes (data : Bytes) : Consumes 0 (sendBytes data) := by
  apply consumes_bind (consumes_send data)
  rintro (code | sent)
  · exact consumes_throw _
  · exact consumes_pure _

theorem consumes_switchOpcode (expectMasked : Bool) (st : Progress) (fin : Bool) (opcode : UInt8)
    (payload : Bytes) : Consumes 0 (switchOpcode expectMasked st fin opcode payload) := by
  apply consumes_ite
  · apply consumes_bind (consumes_wsEncodeControlFrame _ _ _)
    intro close
    apply consumes_bind (consumes_send close)
    intro sent
    exact consumes_throw _
  apply consumes_ite
  · apply consumes_bind (consumes_wsEncodeControlFrame _ _ _)
    intro answer
    apply consumes_bind (consumes_sendBytes answer)
    intro sent
    exact consumes_pure _
  apply consumes_ite (consumes_pure _)
  apply consumes_ite
  · exact consumes_ite (consumes_pure _) (consumes_pure _)
  apply consumes_ite
  · exact consumes_ite (consumes_pure _) (consumes_pure _)
  · exact consumes_throw _

theorem consumes_readTurn (expectMasked : Bool) (st : Progress) :
    Consumes 2 (readTurn expectMasked st) := by
  have hframe : Consumes 2 (readFrameParts expectMasked st.complete) := by
    rw [readFrameParts_eq]
    exact consumes_frameBy recvChunk.consumes_receive
  exact consumes_bind hframe fun _ => consumes_switchOpcode _ _ _ _ _

theorem readTurn_shrinks (expectMasked : Bool) {st : Progress} {s : Socket} {st' : Progress}
    {s' : Socket} (h : readTurn expectMasked st s = .ok (.inl st') s') :
    s'.unread.length < s.unread.length := by
  have hle := consumes_readTurn expectMasked st _ _ _ h
  omega

/-- The loop of `wsReadFrame`. -/
def readLoop (expectMasked : Bool) : Body Failure Socket Progress Bytes where
  measure _ s := s.unread.length
  run := readTurn expectMasked
  shrinks h := readTurn_shrinks expectMasked h

end Termination

/-- `wsReadFrame` -/
def wsReadFrame (expectMasked : Bool) : SwiftM Bytes := iterate (readLoop expectMasked) ⟨[], false⟩

end Reading

end HelloWebsocket.Swift
