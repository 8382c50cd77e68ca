import HelloWebsocket.Wire.Hex
import HelloWebsocket.Protocol.Grammar

/-!
# The Go decoder

`Reader`, `DecodeFrame`, the `Decode` functions of the thirteen messages and
`DecodeMessage` of `codec.go`.

## Implementation notes

`int` has 64 bits. A Go string is its octets and a `map[string]string` is a
finite map. An index or a slice outside its bounds is a panic, which is an error
of its own. `encoding/binary` and `utf8.Valid` follow their documentation: the
first reads a big-endian number and panics on a short slice, the second accepts
exactly well-formed UTF-8.
-/

namespace HelloWebsocket.Go

open BigEndian Utf8 Parsing
open Protocol (KvMap MsgType)

/-- How a call ends without a value. -/
inductive Error
  | codecError (code : Int32) (message : String)
  | errorf (message : String)
  | panic
  deriving DecidableEq, Repr

section Slices

/-- `len(data)` -/
def len (data : Bytes) : Int64 := Int64.ofNat data.length

/-- `data[i]` -/
def index (data : Bytes) (i : Int64) : Except Error UInt8 :=
  if 0 ≤ i ∧ i < len data then
    match data[i.toInt.toNat]? with
    | some b => .ok b
    | none => .error .panic
  else .error .panic

/-- `data[i:j]` -/
def slice (data : Bytes) (i j : Int64) : Except Error Bytes :=
  if 0 ≤ i ∧ i ≤ j ∧ j ≤ len data then
    .ok ((data.drop i.toInt.toNat).take (j.toInt - i.toInt).toNat)
  else .error .panic

/-- `binary.BigEndian.Uint32` -/
def bigEndianUint32 (b : Bytes) : Except Error UInt32 :=
  if 4 ≤ b.length then .ok (UInt32.ofNat (beNat (b.take 4))) else .error .panic

/-- `binary.BigEndian.Uint64` -/
def bigEndianUint64 (b : Bytes) : Except Error UInt64 :=
  if 8 ≤ b.length then .ok (UInt64.ofNat (beNat (b.take 8))) else .error .panic

end Slices

section Reader

/-- `Reader` -/
structure Reader where
  data : Bytes
  pos : Int64
  deriving DecidableEq

/-- A method of the reader. -/
abbrev ReaderM := EStateM Error Reader

def remaining : ReaderM Int64 := do
  let r ← get
  pure (len r.data - r.pos)

/-- The bounds check of a read of `n` octets, which names the kind of value. -/
def ensure (n : Int64) (kind : String) : ReaderM Unit := do
  let r ← get
  throwIf (r.pos + n > len r.data)
    (.errorf ("unexpected end of data at offset " ++ toString r.pos ++ " reading " ++ kind))

/-- `r.pos += n` -/
def advance (n : Int64) : ReaderM Unit := modify fun r => { r with pos := r.pos + n }

def readU8 : ReaderM UInt8 := do
  ensure 1 "u8"
  let r ← get
  let v ← ofExcept (index r.data r.pos)
  advance 1
  pure v

def readU32 : ReaderM UInt32 := do
  ensure 4 "u32"
  let r ← get
  let b ← ofExcept (slice r.data r.pos (len r.data))
  let v ← ofExcept (bigEndianUint32 b)
  advance 4
  pure v

def readI32 : ReaderM Int32 := do
  let u ← readU32
  pure u.toInt32

def readI64 : ReaderM Int64 := do
  ensure 8 "i64"
  let r ← get
  let b ← ofExcept (slice r.data r.pos (len r.data))
  let v ← ofExcept (bigEndianUint64 b)
  advance 8
  pure v.toInt64

def readString : ReaderM Bytes := do
  let ln ← readU32
  let n := ln.toUInt64.toInt64
  let r ← get
  throwIf (r.pos + n > len r.data)
    (.errorf ("string length " ++ toString ln ++ " exceeds remaining data"))
  let b ← ofExcept (slice r.data r.pos (r.pos + n))
  throwIf (¬ WellFormed b) (.errorf "string payload is not valid UTF-8")
  advance n
  pure b

/-- One turn of the loop of `ReadKV`. -/
def readEntry : ReaderM (Bytes × Bytes) := do
  let k ← readString
  let v ← readString
  pure (k, v)

def readKV : ReaderM KvMap := do
  let count ← readU32
  let left ← remaining
  throwIf (count.toUInt64 > (left / 8).toUInt64)
    (.errorf ("kv count " ++ toString count ++ " exceeds remaining payload"))
  forCount readEntry (fun m e => m.insert e.1 e.2) count.toNat ∅

end Reader

section Messages

structure Hello where
  clientLanguage : Bytes

structure Bonjour where
  serverLanguage : Bytes

structure EchoRequest where
  id : Int64
  tag : Bytes
  data : Bytes

structure EchoResult where
  idx : Int64
  type : UInt8
  kv : KvMap

structure EchoResponse where
  status : Int32
  results : List EchoResult

structure KissRequest where
  osName : Bytes
  osVersion : Bytes
  osRelease : Bytes
  osArchitecture : Bytes

structure KissResponse where
  language : Bytes
  encoding : Bytes
  timeZone : Bytes

structure Ping where
  timestampMs : Int64

structure Pong where
  timestampMs : Int64

structure TimeNotification where
  timestampMs : Int64
  iso8601 : Bytes

structure RandomNumber where
  id : Int64
  number : Int64

structure HashResponse where
  id : Int64
  hashHex : Bytes

structure Disconnect where
  reason : Bytes

structure ErrorMsg where
  code : Int32
  message : Bytes

def decodeHello : ReaderM Hello := do
  let lang ← readString
  pure ⟨lang⟩

def decodeBonjour : ReaderM Bonjour := do
  let lang ← readString
  pure ⟨lang⟩

def decodeEchoRequest : ReaderM EchoRequest := do
  let id ← readI64
  let tag ← readString
  let data ← readString
  pure ⟨id, tag, data⟩

/-- One turn of the loop of `DecodeEchoResponse`. -/
def readEchoResult : ReaderM EchoResult := do
  let idx ← readI64
  let typ ← readU8
  let kv ← readKV
  pure ⟨idx, typ, kv⟩

/-- The count and the loop of `DecodeEchoResponse`. -/
def readEchoResults : ReaderM (List EchoResult) := do
  let count ← readU32
  let left ← remaining
  throwIf (count.toUInt64 > (left / 13).toUInt64)
    (.errorf ("result count " ++ toString count ++ " exceeds remaining payload"))
  forCount readEchoResult (fun rs r => rs ++ [r]) count.toNat []

def decodeEchoResponse : ReaderM EchoResponse := do
  let status ← readI32
  let results ← readEchoResults
  pure ⟨status, results⟩

def decodeKissRequest : ReaderM KissRequest := do
  let name ← readString
  let ver ← readString
  let rel ← readString
  let arch ← readString
  pure ⟨name, ver, rel, arch⟩

def decodeKissResponse : ReaderM KissResponse := do
  let lang ← readString
  let enc ← readString
  let tz ← readString
  pure ⟨lang, enc, tz⟩

def decodePing : ReaderM Ping := do
  let ts ← readI64
  pure ⟨ts⟩

def decodePong : ReaderM Pong := do
  let ts ← readI64
  pure ⟨ts⟩

def decodeTimeNotification : ReaderM TimeNotification := do
  let ts ← readI64
  let iso ← readString
  pure ⟨ts, iso⟩

def decodeRandomNumber : ReaderM RandomNumber := do
  let id ← readI64
  let num ← readI64
  pure ⟨id, num⟩

def decodeHashResponse : ReaderM HashResponse := do
  let id ← readI64
  let hash ← readString
  pure ⟨id, hash⟩

def decodeDisconnect : ReaderM Disconnect := do
  let reason ← readString
  pure ⟨reason⟩

def decodeErrorMsg : ReaderM ErrorMsg := do
  let code ← readI32
  let msg ← readString
  pure ⟨code, msg⟩

/-- `Message`: the type and one pointer for each kind of message. -/
structure Message where
  type : UInt8
  hello : Option Hello := none
  bonjour : Option Bonjour := none
  echoReq : Option EchoRequest := none
  echoResp : Option EchoResponse := none
  kissReq : Option KissRequest := none
  kissResp : Option KissResponse := none
  ping : Option Ping := none
  pong : Option Pong := none
  timeNotif : Option TimeNotification := none
  random : Option RandomNumber := none
  hash : Option HashResponse := none
  disconnect : Option Disconnect := none
  error : Option ErrorMsg := none

def EchoResult.view (r : EchoResult) : Protocol.EchoResult KvMap := ⟨r.idx.toInt, r.type.toNat, r.kv⟩

/-- What the pointer of a type points to. -/
def Message.fields (m : Message) : MsgType → Option (Protocol.Message KvMap)
  | .hello => m.hello.map fun x => .hello x.clientLanguage
  | .bonjour => m.bonjour.map fun x => .bonjour x.serverLanguage
  | .echoRequest => m.echoReq.map fun x => .echoRequest x.id.toInt x.tag x.data
  | .echoResponse => m.echoResp.map fun x =>
      .echoResponse x.status.toInt (x.results.map EchoResult.view)
  | .kissRequest => m.kissReq.map fun x =>
      .kissRequest x.osName x.osVersion x.osRelease x.osArchitecture
  | .kissResponse => m.kissResp.map fun x => .kissResponse x.language x.encoding x.timeZone
  | .ping => m.ping.map fun x => .ping x.timestampMs.toInt
  | .pong => m.pong.map fun x => .pong x.timestampMs.toInt
  | .timeNotification => m.timeNotif.map fun x => .timeNotification x.timestampMs.toInt x.iso8601
  | .randomNumber => m.random.map fun x => .randomNumber x.id.toInt x.number.toInt
  | .hashResponse => m.hash.map fun x => .hashResponse x.id.toInt x.hashHex
  | .disconnect => m.disconnect.map fun x => .disconnect x.reason
  | .error => m.error.map fun x => .error x.code.toInt x.message

/-- What a message says: its type and what the pointer of that type points to. -/
def Message.view (m : Message) : Option (Protocol.Message KvMap) :=
  (MsgType.ofCode? m.type).bind m.fields

/-- The `switch` of `DecodeMessage` on a registered type. -/
def readFields (msg : Message) : MsgType → ReaderM Message
  | .hello => do
      let x ← decodeHello
      pure { msg with hello := some x }
  | .bonjour => do
      let x ← decodeBonjour
      pure { msg with bonjour := some x }
  | .echoRequest => do
      let x ← decodeEchoRequest
      pure { msg with echoReq := some x }
  | .echoResponse => do
      let x ← decodeEchoResponse
      pure { msg with echoResp := some x }
  | .kissRequest => do
      let x ← decodeKissRequest
      pure { msg with kissReq := some x }
  | .kissResponse => do
      let x ← decodeKissResponse
      pure { msg with kissResp := some x }
  | .ping => do
      let x ← decodePing
      pure { msg with ping := some x }
  | .pong => do
      let x ← decodePong
      pure { msg with pong := some x }
  | .timeNotification => do
      let x ← decodeTimeNotification
      pure { msg with timeNotif := some x }
  | .randomNumber => do
      let x ← decodeRandomNumber
      pure { msg with random := some x }
  | .hashResponse => do
      let x ← decodeHashResponse
      pure { msg with hash := some x }
  | .disconnect => do
      let x ← decodeDisconnect
      pure { msg with disconnect := some x }
  | .error => do
      let x ← decodeErrorMsg
      pure { msg with error := some x }

/-- `DecodeFrame` -/
def decodeFrame (data : Bytes) : Except Error (UInt8 × Bytes) := do
  throwIf (len data < 8) (.codecError 0x03 ("frame too short: " ++ toString (len data) ++ " bytes"))
  let magic ← index data 0
  throwIf (magic ≠ 0x48) (.codecError 0x04 ("bad magic: 0x" ++ Hex.byte magic))
  let version ← index data 1
  throwIf (version ≠ 0x01) (.codecError 0x05 ("bad version: 0x" ++ Hex.byte version))
  let msgType ← index data 2
  let b ← slice data 4 (len data)
  let payloadLen ← bigEndianUint32 b
  let n := payloadLen.toUInt64.toInt64
  throwIf (n ≠ len data - 8) (.codecError 0x03 ("payload length mismatch: declared " ++
    toString payloadLen ++ ", available " ++ toString (len data - 8)))
  let payload ← slice data 8 (8 + n)
  pure (msgType, payload)

/-- `DecodeMessage` -/
def decodeMessage (data : Bytes) : Except Error Message := do
  let (msgType, payload) ← decodeFrame data
  match MsgType.ofCode? msgType with
  | some t =>
      match readFields { type := msgType } t ⟨payload, 0⟩ with
      | .ok msg _ => .ok msg
      | .error e _ => .error e
  | none => .error (.codecError 0x02 ("unknown message type: 0x" ++ Hex.byte msgType))

end Messages

end HelloWebsocket.Go
