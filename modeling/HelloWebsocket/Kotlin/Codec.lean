import HelloWebsocket.Wire.Hex
import HelloWebsocket.Protocol.Record
import HelloWebsocket.Jvm.Reader

/-!
# The Kotlin codec

`ByteWriter`, `ByteReader`, `encodeFrame`, `decodeFrame`, `Message.encode` and
`decodeMessage` of `Codec.kt`.

## Implementation notes

All positions, lengths and counts are `Int`, and a length read from the wire may
be negative. The type of an echo result is a signed `Byte`. The two `when`
expressions are the `switch`es of `Protocol.Record`; the constants `MSG_HELLO` to
`MSG_ERROR` are the codes of `MsgType`, none of which is negative as a byte.
-/

namespace HelloWebsocket.Kotlin

open Utf8 Parsing Jvm
open Protocol (MsgType Record FieldReaders FieldWriters)

section Messages

/-- `EchoResult`, generic in the representation of its map. -/
structure EchoResult (κ : Type) where
  idx : Int64
  type : Int8
  kv : κ
  deriving DecidableEq

/-- `Message` -/
abbrev Message (κ : Type) := Record Int8 String (List (EchoResult κ))

/-- `Message(type)` -/
def Message.new {κ : Type} (type : Int8) : Message κ := Record.init type "" []

variable {κ κ' : Type}

def EchoResult.view (read : κ → κ') (r : EchoResult κ) : Protocol.EchoResult κ' :=
  ⟨r.idx.toInt, r.type.toInt, read r.kv⟩

def text (s : String) : Option Bytes := some (utf8 s)

/-- What a message says: its type and the fields of that type, for a reading of its maps. -/
def Message.view (read : κ → κ') (m : Message κ) : Option (Protocol.Message κ') :=
  (MsgType.ofCode? m.type.toUInt8).bind
    (m.fields text fun rs => some (rs.map (EchoResult.view read)))

end Messages

section Writer

def writeU8 (v : Int32) : WriterM Unit := write (v &&& 0xFF)

def writeU32 (v : Int32) : WriterM Unit := do
  write ((v >>> 24) &&& 0xFF)
  write ((v >>> 16) &&& 0xFF)
  write ((v >>> 8) &&& 0xFF)
  write (v &&& 0xFF)

def writeI32 (v : Int32) : WriterM Unit := writeU32 v

def writeI64 (v : Int64) : WriterM Unit := do
  writeU32 (v >>> 32).toInt32
  writeU32 (v &&& 0xFFFFFFFF).toInt32

def writeString (s : String) : WriterM Unit := do
  let b ← ofExcept (getBytes s)
  writeU32 b.length
  writeBytes b

/-- `writeKV`, for the entries in the order of the map's iterator. -/
def writeKV (m : List (String × String)) : WriterM Unit := do
  writeU32 (Int32.ofNat m.length)
  m.forM fun e => do
    writeString e.1
    writeString e.2

/-- The result count and the result loop of `encode`. -/
def writeEchoResults (rs : List (EchoResult (List (String × String)))) : WriterM Unit := do
  writeU32 (Int32.ofNat rs.length)
  rs.forM fun r => do
    writeI64 r.idx
    writeU8 r.type.toInt32
    writeKV r.kv

def fieldWriters : FieldWriters WriterM String (List (EchoResult (List (String × String)))) :=
  ⟨writeString, writeI64, writeI32, writeEchoResults⟩

end Writer

section Reader

/-- What `check` throws. -/
def endOfData : Throwable := .illegalState "unexpected end of data"

def readU8 : ReaderM Int32 := readOctet endOfData

def readU32 : ReaderM Int32 :=
  readFour endOfData fun b0 b1 b2 b3 => (b0 <<< 24) ||| (b1 <<< 16) ||| (b2 <<< 8) ||| b3

def readI32 : ReaderM Int32 := readU32

def readI64 : ReaderM Int64 := do
  let hi ← readU32
  let lo ← readU32
  pure (((hi.toInt64 &&& 0xFFFFFFFF) <<< 32) ||| (lo.toInt64 &&& 0xFFFFFFFF))

def readString : ReaderM String := do
  let len ← readU32
  let left ← remaining
  throwIf (len < 0 ∨ len > left)
    (.illegalState ("string length " ++ toString len ++ " exceeds remaining data"))
  let r ← get
  decodeNext len (r.pos + len) (.illegalState "string payload is not valid UTF-8")

/-- One turn of the loop of `readKV`. -/
def readEntry : ReaderM (String × String) := do
  let key ← readString
  let value ← readString
  pure (key, value)

def readKV : ReaderM LinkedHashMap := do
  let count ← readU32
  let left ← remaining
  throwIf (count < 0 ∨ count > left / 8)
    (.illegalState ("kv count " ++ toString count ++ " exceeds remaining payload"))
  forCount readEntry (fun m e => m.put e.1 e.2) count.toInt.toNat LinkedHashMap.empty

/-- One turn of the result loop of `decodeMessage`. -/
def readEchoResult : ReaderM (EchoResult LinkedHashMap) := do
  let idx ← readI64
  let type ← readU8
  let kv ← readKV
  pure ⟨idx, type.toInt8, kv⟩

/-- The result count and the result loop of `decodeMessage`. -/
def readEchoResults : ReaderM (List (EchoResult LinkedHashMap)) := do
  let count ← readU32
  let left ← remaining
  throwIf (count < 0 ∨ count > left / 13)
    (.illegalState ("result count " ++ toString count ++ " exceeds remaining payload"))
  forCount readEchoResult (fun rs r => rs ++ [r]) count.toInt.toNat []

def fieldReaders : FieldReaders ReaderM String (List (EchoResult LinkedHashMap)) :=
  ⟨readString, readI64, readI32, readEchoResults⟩

end Reader

section Frames

/-- `Frame` -/
structure Frame where
  msgType : Int8
  payload : JArray
  deriving DecidableEq

/-- `decodeFrame` -/
def decodeFrame (data : JArray) : Except Throwable Frame := do
  throwIf (data.length < 8) (.illegalState ("frame too short: " ++ toString data.length))
  let magic ← data.index 0
  throwIf (magic ≠ 0x48) (.illegalState ("bad magic: 0x" ++ Hex.signed magic.toInt))
  let version ← data.index 1
  throwIf (version ≠ 0x01) (.illegalState ("bad version: 0x" ++ Hex.signed version.toInt))
  let msgType ← data.index 2
  let b4 ← data.index 4
  let b5 ← data.index 5
  let b6 ← data.index 6
  let b7 ← data.index 7
  let payloadLen := ((b4.toInt32 &&& 0xFF) <<< 24) ||| ((b5.toInt32 &&& 0xFF) <<< 16) |||
    ((b6.toInt32 &&& 0xFF) <<< 8) ||| (b7.toInt32 &&& 0xFF)
  throwIf (payloadLen < 0 ∨ payloadLen ≠ data.length - 8)
    (.illegalState ("payload length mismatch: declared " ++ toString payloadLen ++
      ", available " ++ toString (data.length - 8)))
  let payload ← data.copyOfRange 8 (8 + payloadLen)
  pure ⟨msgType, payload⟩

/-- `decodeMessage` -/
def decodeMessage (data : JArray) : Except Throwable (Message LinkedHashMap) := do
  let frame ← decodeFrame data
  Protocol.decodeFields fieldReaders ⟨frame.payload, 0⟩
    (.illegalState ("unknown message type: 0x" ++ Hex.signed frame.msgType.toInt))
    (Message.new frame.msgType) (MsgType.ofCode? frame.msgType.toUInt8)

/-- `encodeFrame` -/
def encodeFrame (msgType : Int8) (payload : JArray) : Except Throwable JArray :=
  frameArray msgType payload

/-- `Message.encode`, for a message whose map entries are enumerated in the given order. -/
def Message.encode (m : Message (List (String × String))) : Except Throwable JArray := do
  let (t, w) ← Protocol.encodeFields fieldWriters ⟨.empty⟩
    (.illegalArgument ("unknown message type: 0x" ++ Hex.signed m.type.toInt)) m
    (MsgType.ofCode? m.type.toUInt8)
  encodeFrame t.code.toInt8 w.buf

end Frames

end HelloWebsocket.Kotlin
