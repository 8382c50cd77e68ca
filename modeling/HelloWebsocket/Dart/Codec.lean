import HelloWebsocket.Wire.ByteOrderMark
import HelloWebsocket.Wire.Hex
import HelloWebsocket.Protocol.Tagged
import HelloWebsocket.Jvm.Library

/-!
# The Dart codec

`ByteWriter`, `ByteReader`, `encodeFrame`, `decodeFrame`, class `Message` with
`encode`, and `decodeMessage` of `codec.dart`.

## Implementation notes

An `int` has 64 bits. Strings hold Unicode scalar values, so unpaired surrogates do
not occur. A map literal is a `LinkedHashMap`. `Uint8List.fromList` and an assignment
to an element keep the low eight bits. `utf8.encode` is the standard encoding, and
`utf8.decode` throws on malformed octets and drops a leading byte order mark.
Positions and lengths are far below 2⁶³ and are natural numbers. A decoded message has
the fields of its type set and no others, so the `switch` of `decodeMessage` is the one
of the tagged union, whose fields are then filled in.
-/

namespace HelloWebsocket.Dart

open BigEndian Utf8 Parsing
open Jvm (LinkedHashMap)
open Positions (remaining nextText)
open Protocol (MsgType Tagged TaggedReaders TaggedWriters HeaderErrors readTagged writeTagged)

/-- How a call ends without a value. -/
inductive Thrown
  | exception (message : String)
  | formatException
  | argumentError (message : String)
  /-- The operator `!` on `null`. -/
  | nullCheck
  deriving DecidableEq, Repr

section Messages

/-- `EchoResult` -/
structure EchoResult where
  idx : Int64
  type : Int64
  kv : LinkedHashMap
  deriving DecidableEq

/-- `Message` -/
structure Message where
  type : Int64
  clientLanguage : Option String := none
  serverLanguage : Option String := none
  echoId : Option Int64 := none
  echoMeta : Option String := none
  echoData : Option String := none
  echoStatus : Option Int64 := none
  echoResults : Option (List EchoResult) := none
  osName : Option String := none
  osVersion : Option String := none
  osRelease : Option String := none
  osArch : Option String := none
  kissLanguage : Option String := none
  kissEncoding : Option String := none
  kissTimeZone : Option String := none
  timestampMs : Option Int64 := none
  iso8601 : Option String := none
  randomId : Option Int64 := none
  randomNumber : Option Int64 := none
  hashHex : Option String := none
  disconnectReason : Option String := none
  errorCode : Option Int64 := none
  errorMessage : Option String := none
  deriving DecidableEq

/-- The fields of one type of message. -/
abbrev Fields := Tagged String Int64 Int64 EchoResult

/-- The fields of a type, unless one of them is `null`. -/
def Message.fields (m : Message) : MsgType → Option Fields
  | .hello => do
      let clientLanguage ← m.clientLanguage
      pure (.hello clientLanguage)
  | .bonjour => do
      let serverLanguage ← m.serverLanguage
      pure (.bonjour serverLanguage)
  | .echoRequest => do
      let echoId ← m.echoId
      let echoMeta ← m.echoMeta
      let echoData ← m.echoData
      pure (.echoRequest echoId echoMeta echoData)
  | .echoResponse => do
      let echoStatus ← m.echoStatus
      let echoResults ← m.echoResults
      pure (.echoResponse echoStatus echoResults)
  | .kissRequest => do
      let osName ← m.osName
      let osVersion ← m.osVersion
      let osRelease ← m.osRelease
      let osArch ← m.osArch
      pure (.kissRequest osName osVersion osRelease osArch)
  | .kissResponse => do
      let kissLanguage ← m.kissLanguage
      let kissEncoding ← m.kissEncoding
      let kissTimeZone ← m.kissTimeZone
      pure (.kissResponse kissLanguage kissEncoding kissTimeZone)
  | .ping => do
      let timestampMs ← m.timestampMs
      pure (.ping timestampMs)
  | .pong => do
      let timestampMs ← m.timestampMs
      pure (.pong timestampMs)
  | .timeNotification => do
      let timestampMs ← m.timestampMs
      let iso8601 ← m.iso8601
      pure (.timeNotification timestampMs iso8601)
  | .randomNumber => do
      let randomId ← m.randomId
      let randomNumber ← m.randomNumber
      pure (.randomNumber randomId randomNumber)
  | .hashResponse => do
      let randomId ← m.randomId
      let hashHex ← m.hashHex
      pure (.hashResponse randomId hashHex)
  | .disconnect => do
      let disconnectReason ← m.disconnectReason
      pure (.disconnect disconnectReason)
  | .error => do
      let errorCode ← m.errorCode
      let errorMessage ← m.errorMessage
      pure (.error errorCode errorMessage)

/-- A new message with the fields of its type set. -/
def Message.fill (type : Int64) : Fields → Message
  | .hello l => { type, clientLanguage := some l }
  | .bonjour l => { type, serverLanguage := some l }
  | .echoRequest i t d => { type, echoId := some i, echoMeta := some t, echoData := some d }
  | .echoResponse s rs => { type, echoStatus := some s, echoResults := some rs }
  | .kissRequest n v r a =>
      { type, osName := some n, osVersion := some v, osRelease := some r, osArch := some a }
  | .kissResponse l e z =>
      { type, kissLanguage := some l, kissEncoding := some e, kissTimeZone := some z }
  | .ping t => { type, timestampMs := some t }
  | .pong t => { type, timestampMs := some t }
  | .timeNotification t i => { type, timestampMs := some t, iso8601 := some i }
  | .randomNumber i n => { type, randomId := some i, randomNumber := some n }
  | .hashResponse i h => { type, randomId := some i, hashHex := some h }
  | .disconnect r => { type, disconnectReason := some r }
  | .error c e => { type, errorCode := some c, errorMessage := some e }

/-- The case of a `switch` over the constants `msgHello` to `msgError`. -/
def msgType? (type : Int64) : Option MsgType :=
  MsgType.all.find? fun t => t.code.toUInt64.toInt64 == type

end Messages

section Writer

/-- `ByteWriter` -/
structure ByteWriter where
  buf : List Int64

/-- A method of the writer. -/
abbrev WriterM := EStateM Thrown ByteWriter

/-- `_buf.addAll` -/
def addAll (vs : List Int64) : WriterM Unit := modify fun w => ⟨w.buf ++ vs⟩

def writeU8 (v : Int64) : WriterM Unit := addAll [v &&& 0xFF]

def writeU32 (v : Int64) : WriterM Unit :=
  addAll [(v >>> 24) &&& 0xFF, (v >>> 16) &&& 0xFF, (v >>> 8) &&& 0xFF, v &&& 0xFF]

def writeI32 (v : Int64) : WriterM Unit := writeU32 (v &&& 0xFFFFFFFF)

def writeI64 (v : Int64) : WriterM Unit := do
  writeU32 ((v >>> 32) &&& 0xFFFFFFFF)
  writeU32 (v &&& 0xFFFFFFFF)

def writeString (s : String) : WriterM Unit := do
  let b := utf8 s
  writeU32 (Int64.ofNat b.length)
  addAll (b.map fun octet => octet.toUInt64.toInt64)

def writeKV (m : LinkedHashMap) : WriterM Unit := do
  writeU32 (Int64.ofNat m.entries.length)
  m.entries.forM fun e => do
    writeString e.1
    writeString e.2

/-- The result count and the result loop of `encode`. -/
def writeEchoResults (rs : List EchoResult) : WriterM Unit := do
  writeU32 (Int64.ofNat rs.length)
  rs.forM fun r => do
    writeI64 r.idx
    writeU8 r.type
    writeKV r.kv

def taggedWriters : TaggedWriters WriterM String Int64 Int64 EchoResult :=
  ⟨writeString, writeI64, writeI32, writeEchoResults⟩

/-- An element of a `Uint8List` that is given an `int`. -/
def lowOctet (v : Int64) : UInt8 := v.toInt32.toInt8.toUInt8

/-- `toBytes()` -/
def ByteWriter.toBytes (w : ByteWriter) : Bytes := w.buf.map lowOctet

/-- `encodeFrame` -/
def encodeFrame (msgType : UInt8) (payload : Bytes) : Bytes :=
  let n := Int64.ofNat payload.length
  [0x48, 0x01, msgType, 0x00] ++
    [(n >>> 24) &&& 0xFF, (n >>> 16) &&& 0xFF, (n >>> 8) &&& 0xFF, n &&& 0xFF].map lowOctet ++
    payload

/-- `Message.encode` -/
def Message.encode (m : Message) : Except Thrown Bytes :=
  match msgType? m.type with
  | none => .error (.argumentError ("unknown message type: 0x" ++ Hex.signed m.type.toInt))
  | some t =>
      match m.fields t with
      | none => .error .nullCheck
      | some fields =>
          match writeTagged taggedWriters fields ⟨[]⟩ with
          | .ok _ w => .ok (encodeFrame t.code w.toBytes)
          | .error e _ => .error e

end Writer

section Reader

/-- A method of the reader. -/
abbrev ReaderM := EStateM Thrown Positions.Reader

/-- A read of `n` octets behind a check that names the kind of value. -/
def readOctets (n : Nat) (kind : String) : ReaderM Bytes :=
  Positions.next n fun _ => .exception ("unexpected end of data reading " ++ kind)

def readU8 : ReaderM Int64 := do
  let b ← readOctets 1 "u8"
  pure (b.getD 0 0).toUInt64.toInt64

def readU32 : ReaderM Int64 := do
  let b ← readOctets 4 "u32"
  let octet (k : Nat) : Int64 := (b.getD k 0).toUInt64.toInt64
  pure ((octet 0 <<< 24) ||| (octet 1 <<< 16) ||| (octet 2 <<< 8) ||| octet 3)

/-- `v.toSigned(32)` -/
def toSigned32 (v : Int64) : Int64 := Int64.ofInt (Int.bmod v.toInt (2 ^ 32))

def readI32 : ReaderM Int64 := do
  let v ← readU32
  pure (toSigned32 v)

/-- `readI64`; on 64 bits `toSigned(64)` changes nothing. -/
def readI64 : ReaderM Int64 := do
  Positions.ensure 8 fun _ => .exception "unexpected end of data reading i64"
  let hi ← readU32
  let lo ← readU32
  pure ((hi <<< 32) ||| lo)

def readString : ReaderM String := do
  let ln ← readU32
  nextText decodeUnmarked? ln.toInt.toNat
    (fun _ => .exception ("string length " ++ toString ln ++ " exceeds remaining data"))
    (fun _ => .formatException)

/-- One turn of the loop of `readKV`. -/
def readEntry : ReaderM (String × String) := do
  let k ← readString
  let v ← readString
  pure (k, v)

def readKV : ReaderM LinkedHashMap := do
  let count ← readU32
  let left ← remaining
  throwIf (count.toInt > (left / 8 : Nat))
    (.exception ("kv count " ++ toString count ++ " exceeds remaining payload"))
  forCount readEntry (fun m e => m.put e.1 e.2) count.toInt.toNat LinkedHashMap.empty

/-- One turn of the result loop of `decodeMessage`. -/
def readEchoResult : ReaderM EchoResult := do
  let idx ← readI64
  let type ← readU8
  let kv ← readKV
  pure ⟨idx, type, kv⟩

/-- The result count and the result loop of `decodeMessage`. -/
def readEchoResults : ReaderM (List EchoResult) := do
  let count ← readU32
  let left ← remaining
  throwIf (count.toInt > (left / 13 : Nat))
    (.exception ("result count " ++ toString count ++ " exceeds remaining payload"))
  forCount readEchoResult (fun rs r => rs ++ [r]) count.toInt.toNat []

def taggedReaders : TaggedReaders ReaderM String Int64 Int64 EchoResult :=
  ⟨readString, readI64, readI32, readEchoResults⟩

/-- The errors of `decodeFrame`, which is the header check with these errors. -/
def headerErrors : HeaderErrors Thrown where
  short n := .exception ("frame too short: " ++ toString n)
  magic b := .exception ("bad magic: 0x" ++ Hex.signed b.toNat)
  version b := .exception ("bad version: 0x" ++ Hex.signed b.toNat)
  length n m :=
    .exception ("payload length mismatch: declared " ++ toString n ++ ", available " ++ toString m)

/-- `decodeMessage` -/
def decodeMessage (data : Bytes) : Except Thrown Message := do
  let fields ← Protocol.decodeWith headerErrors taggedReaders
    (fun type => .exception ("unknown message type: 0x" ++ Hex.signed type.toNat)) data
  pure (Message.fill fields.type.code.toUInt64.toInt64 fields)

end Reader

end HelloWebsocket.Dart
