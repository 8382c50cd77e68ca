import HelloWebsocket.Wire.Hex
import HelloWebsocket.Protocol.Record
import HelloWebsocket.Jvm.Reader

/-!
# The Java codec

`ByteWriter`, `ByteReader`, `encodeFrame`, `decodeFrame`, `Message.encode` and
`decodeMessage` of `Codec.java`.

## Implementation notes

A string field or the result array of a new message is null. Entries, results
and maps inside a message are not null. `readU32` and `writeU32` work on `long`,
the other positions and lengths on `int`, with the conversions the language
inserts written out. The two `switch`es are the ones of `Protocol.Record`; the
constants `MSG_HELLO` to `MSG_ERROR` are the codes of `MsgType`, none of which
is negative as a byte.
-/

namespace HelloWebsocket.Java

open Utf8 Parsing Jvm
open Protocol (MsgType Record FieldReaders FieldWriters)

section Messages

/-- `EchoResult`, generic in the representation of its map. -/
structure EchoResult (κ : Type) where
  idx : Int64
  type : Int32
  kv : κ
  deriving DecidableEq

/-- `Message` -/
abbrev Message (κ : Type) := Record Int8 (Option String) (Option (List (EchoResult κ)))

/-- `new Message()` -/
def Message.new {κ : Type} : Message κ := Record.init 0 none none

variable {κ κ' : Type}

def EchoResult.view (read : κ → κ') (r : EchoResult κ) : Protocol.EchoResult κ' :=
  ⟨r.idx.toInt, r.type.toInt, read r.kv⟩

/-- The octets of a string field that is not null. -/
def text (s : Option String) : Option Bytes := s.map utf8

/-- What a message says: its type and the fields of that type, for a reading of its maps. -/
def Message.view (read : κ → κ') (m : Message κ) : Option (Protocol.Message κ') :=
  (MsgType.ofCode? m.type.toUInt8).bind
    (m.fields text fun rs => rs.map (List.map (EchoResult.view read)))

end Messages

section Writer

def writeU8 (v : Int32) : WriterM Unit := write (v &&& 0xFF)

def writeU32 (v : Int64) : WriterM Unit := do
  write ((v >>> 24) &&& 0xFF).toInt32
  write ((v >>> 16) &&& 0xFF).toInt32
  write ((v >>> 8) &&& 0xFF).toInt32
  write (v &&& 0xFF).toInt32

def writeI32 (v : Int32) : WriterM Unit := writeU32 (v.toInt64 &&& 0xFFFFFFFF)

def writeI64 (v : Int64) : WriterM Unit := do
  write ((v >>> 56) &&& 0xFF).toInt32
  write ((v >>> 48) &&& 0xFF).toInt32
  write ((v >>> 40) &&& 0xFF).toInt32
  write ((v >>> 32) &&& 0xFF).toInt32
  write ((v >>> 24) &&& 0xFF).toInt32
  write ((v >>> 16) &&& 0xFF).toInt32
  write ((v >>> 8) &&& 0xFF).toInt32
  write (v &&& 0xFF).toInt32

def writeString (s : String) : WriterM Unit := do
  let b ← ofExcept (getBytes s)
  writeU32 b.length.toInt64
  writeBytes b

/-- `writeKV`, for the entries in the order of `entrySet()`. -/
def writeKV (m : List (String × String)) : WriterM Unit := do
  writeU32 (Int32.ofNat m.length).toInt64
  m.forM fun e => do
    writeString e.1
    writeString e.2

/-- The result count and the result loop of `encode`. -/
def writeEchoResults (rs : List (EchoResult (List (String × String)))) : WriterM Unit := do
  writeU32 (Int32.ofNat rs.length).toInt64
  rs.forM fun r => do
    writeI64 r.idx
    writeU8 r.type
    writeKV r.kv

/-- A use of a reference, which throws when it is null. -/
def nonNull {α : Type} (f : α → WriterM Unit) : Option α → WriterM Unit
  | some a => f a
  | none => throw .nullPointer

def fieldWriters :
    FieldWriters WriterM (Option String) (Option (List (EchoResult (List (String × String))))) :=
  ⟨nonNull writeString, writeI64, writeI32, nonNull writeEchoResults⟩

end Writer

section Reader

/-- What a failed bounds check throws. -/
def endOfData (kind : String) : Throwable :=
  .decodeException ("unexpected end of data reading " ++ kind)

def readU8 : ReaderM Int32 := readOctet (endOfData "u8")

def readU32 : ReaderM Int64 :=
  readFour (endOfData "u32") fun b0 b1 b2 b3 =>
    (b0.toInt64 <<< 24) ||| (b1.toInt64 <<< 16) ||| (b2.toInt64 <<< 8) ||| b3.toInt64

def readI32 : ReaderM Int32 := do
  let v ← readU32
  pure v.toInt32

/-- One turn of the loop of `readI64`. -/
def shiftIn (v : Int64) (i : Nat) : ReaderM Int64 := do
  let b ← octet (Int32.ofNat i)
  pure ((v <<< 8) ||| b.toInt64)

def readI64 : ReaderM Int64 := do
  require 8 (endOfData "i64")
  let v ← (List.range' 0 8).foldlM shiftIn 0
  advance 8
  pure v

def readString : ReaderM String := do
  let ln ← readU32
  let r ← get
  throwIf (r.pos.toInt64 + ln > r.data.length.toInt64)
    (.decodeException ("string length " ++ toString ln ++ " exceeds remaining data"))
  -- `pos += ln` adds as `long` and casts the sum to `int`.
  decodeNext ln.toInt32 (r.pos.toInt64 + ln).toInt32
    (.decodeException "string payload is not valid UTF-8")

/-- One turn of the loop of `readKV`. -/
def readEntry : ReaderM (String × String) := do
  let k ← readString
  let v ← readString
  pure (k, v)

def readKV : ReaderM LinkedHashMap := do
  let count ← readU32
  let left ← remaining
  throwIf (count > (left / 8).toInt64)
    (.decodeException ("kv count " ++ toString count ++ " exceeds remaining payload"))
  forCount readEntry (fun m e => m.put e.1 e.2) count.toInt.toNat LinkedHashMap.empty

/-- One turn of the result loop of `decodeMessage`. -/
def readEchoResult : ReaderM (EchoResult LinkedHashMap) := do
  let idx ← readI64
  let type ← readU8
  let kv ← readKV
  pure ⟨idx, type, kv⟩

/-- The result count and the result loop of `decodeMessage`. -/
def readEchoResults : ReaderM (List (EchoResult LinkedHashMap)) := do
  let count ← readU32
  let left ← remaining
  throwIf (count > (left / 13).toInt64)
    (.decodeException ("result count " ++ toString count ++ " exceeds remaining payload"))
  forCount readEchoResult (fun rs r => rs ++ [r]) count.toInt.toNat []

def fieldReaders :
    FieldReaders ReaderM (Option String) (Option (List (EchoResult LinkedHashMap))) :=
  ⟨some <$> readString, readI64, readI32, some <$> readEchoResults⟩

end Reader

section Frames

/-- `Frame` -/
structure Frame where
  msgType : Int8
  payload : JArray
  deriving DecidableEq

/-- `decodeFrame` -/
def decodeFrame (data : JArray) : Except Throwable Frame := do
  throwIf (data.length < 8) (.decodeException ("frame too short: " ++ toString data.length))
  let magic ← data.index 0
  throwIf (magic ≠ 0x48) (.decodeException ("bad magic: 0x" ++ Hex.byte magic.toUInt8))
  let version ← data.index 1
  throwIf (version ≠ 0x01) (.decodeException ("bad version: 0x" ++ Hex.byte version.toUInt8))
  let msgType ← data.index 2
  let b4 ← data.index 4
  let b5 ← data.index 5
  let b6 ← data.index 6
  let b7 ← data.index 7
  let payloadLen := ((b4.toInt32 &&& 0xFF).toInt64 <<< 24) |||
    ((b5.toInt32 &&& 0xFF).toInt64 <<< 16) ||| ((b6.toInt32 &&& 0xFF).toInt64 <<< 8) |||
    (b7.toInt32 &&& 0xFF).toInt64
  throwIf (payloadLen ≠ (data.length - 8).toInt64)
    (.decodeException ("payload length mismatch: declared " ++ toString payloadLen ++
      ", available " ++ toString (data.length - 8)))
  let payload ← data.copy 8 payloadLen.toInt32
  pure ⟨msgType, payload⟩

/-- `decodeMessage` -/
def decodeMessage (data : JArray) : Except Throwable (Message LinkedHashMap) := do
  let frame ← decodeFrame data
  Protocol.decodeFields fieldReaders ⟨frame.payload, 0⟩
    (.decodeException ("unknown message type: 0x" ++ Hex.byte frame.msgType.toUInt8))
    { Message.new with type := frame.msgType } (MsgType.ofCode? frame.msgType.toUInt8)

/-- `encodeFrame` -/
def encodeFrame (msgType : Int8) (payload : JArray) : Except Throwable JArray :=
  frameArray msgType payload

/-- `Message.encode`, for a message whose map entries are enumerated in the given order. -/
def Message.encode (m : Message (List (String × String))) : Except Throwable JArray := do
  let (t, w) ← Protocol.encodeFields fieldWriters ⟨.empty⟩
    (.illegalArgument ("unknown message type: 0x" ++ Hex.byte m.type.toUInt8)) m
    (MsgType.ofCode? m.type.toUInt8)
  encodeFrame t.code.toInt8 w.buf

end Frames

end HelloWebsocket.Java
