import HelloWebsocket.Protocol.Record
import HelloWebsocket.Cpp.Utf8

/-!
# The C++ codec

`ByteWriter`, `ByteReader`, `encodeFrame`, `decodeFrame`, `Message::encode` and
`decodeMessage` of `codec.hpp`.

## Implementation notes

The width of `size_t` is a parameter `w` of the reader: every sum of a position
and a length is reduced modulo `2 ^ w`. A `std::string` is its octets and a
`std::map` with such keys is a finite map. Messages are generic in the
representation of a map, because the writer sees the entries one after the
other while the reader returns the map. The constants `MSG_HELLO` to
`MSG_ERROR` are the codes of `MsgType`, and the two `switch`es over them are
the ones of `Protocol.Record`.
-/

namespace HelloWebsocket.Cpp

open Parsing
open Protocol (Entries KvMap MsgType Record FieldReaders FieldWriters)

section Messages

/-- `EchoResult` -/
structure EchoResult (κ : Type) where
  idx : Int64
  type : UInt8
  kv : κ
  deriving DecidableEq

/-- `Message` -/
abbrev Message (κ : Type) := Record UInt8 Bytes (List (EchoResult κ))

/-- `Message m{}` -/
def Message.zero {κ : Type} : Message κ := Record.init 0 [] []

/-- Replace the representation of every map, as when the entries of a map are enumerated. -/
def Message.mapKv {κ κ' : Type} (f : κ → κ') (m : Message κ) : Message κ' :=
  { m with echoResults := m.echoResults.map fun r => ⟨r.idx, r.type, f r.kv⟩ }

def EchoResult.view {κ : Type} (r : EchoResult κ) : Protocol.EchoResult κ :=
  ⟨r.idx.toInt, r.type.toNat, r.kv⟩

/-- What a message says: its type and the fields of that type. -/
def Message.view {κ : Type} (m : Message κ) : Option (Protocol.Message κ) :=
  (MsgType.ofCode? m.type).bind (m.fields some fun rs => some (rs.map EchoResult.view))

end Messages

section Writer

/-- `ByteWriter` -/
structure ByteWriter where
  buf : Bytes

/-- A member function of the writer. -/
abbrev WriterM := EStateM Failure ByteWriter

/-- `buf_.push_back` for each octet in turn -/
def push (bs : Bytes) : WriterM Unit := modify fun w => ⟨w.buf ++ bs⟩

def writeU8 (v : UInt8) : WriterM Unit := push [v]

def writeU32 (v : UInt32) : WriterM Unit :=
  push [((v >>> 24) &&& 0xFF).toUInt8, ((v >>> 16) &&& 0xFF).toUInt8,
    ((v >>> 8) &&& 0xFF).toUInt8, (v &&& 0xFF).toUInt8]

def writeI32 (v : Int32) : WriterM Unit := writeU32 v.toUInt32

def writeI64 (v : Int64) : WriterM Unit := do
  writeU32 (v >>> 32).toUInt64.toUInt32
  writeU32 (v &&& 0xFFFFFFFF).toUInt64.toUInt32

def writeString (s : Bytes) : WriterM Unit := do
  writeU32 (UInt32.ofNat s.length)
  push s

def writeKV (m : Entries) : WriterM Unit := do
  writeU32 (UInt32.ofNat m.length)
  m.forM fun e => do
    writeString e.1
    writeString e.2

/-- The result count and the result loop of `Message::encode`. -/
def writeEchoResults (rs : List (EchoResult Entries)) : WriterM Unit := do
  writeU32 (UInt32.ofNat rs.length)
  rs.forM fun r => do
    writeI64 r.idx
    writeU8 r.type
    writeKV r.kv

def fieldWriters : FieldWriters WriterM Bytes (List (EchoResult Entries)) :=
  ⟨writeString, writeI64, writeI32, writeEchoResults⟩

/-- `encodeFrame` -/
def encodeFrame (msgType : UInt8) (payload : Bytes) : Bytes :=
  let len := UInt32.ofNat payload.length
  [0x48, 0x01, msgType, 0x00, ((len >>> 24) &&& 0xFF).toUInt8, ((len >>> 16) &&& 0xFF).toUInt8,
    ((len >>> 8) &&& 0xFF).toUInt8, (len &&& 0xFF).toUInt8] ++ payload

/-- `Message::encode`, for a message whose map entries are enumerated in the given order. -/
def Message.encode (m : Message Entries) : Except Failure Bytes := do
  let (t, w) ← Protocol.encodeFields fieldWriters ⟨[]⟩ (.runtimeError "unknown message type") m
    (MsgType.ofCode? m.type)
  pure (encodeFrame t.code w.buf)

end Writer

section Reader

/-- `ByteReader` -/
structure ByteReader where
  data : Bytes
  len : Nat
  pos : Nat
  deriving DecidableEq

/-- A member function of the reader: a failing one leaves the position where it was then. -/
abbrev ReaderM := EStateM Failure ByteReader

/-- A read of the buffer inside a member function. -/
def ofBuffer {α : Type} (read : ByteReader → Except Failure α) : ReaderM α := do
  match read (← get) with
  | .ok a => pure a
  | .error e => throw e

/-- The octets `data[i]` to `data[i + n - 1]`. -/
def range (data : Bytes) (i n : Nat) : Except Failure Bytes :=
  if i + n ≤ data.length then .ok ((data.drop i).take n) else .error .outOfBounds

variable (w : Nat)

/-- A sum of `size_t` values. -/
def addSize (a b : Nat) : Nat := (a + b) % 2 ^ w

/-- A difference of `size_t` values. -/
def subSize (a b : Nat) : Nat := (a + 2 ^ w - b) % 2 ^ w

def remaining : ReaderM Nat := do
  let r ← get
  pure (subSize w r.len r.pos)

def check (n : Nat) : ReaderM Unit := do
  let r ← get
  throwIf (addSize w r.pos n > r.len) (.runtimeError "unexpected end of data")

/-- `data_[pos_ + k]` -/
def peek (k : Nat) : ReaderM UInt8 := ofBuffer fun r => byteAt r.data (addSize w r.pos k)

/-- `pos_ += n` -/
def advance (n : Nat) : ReaderM Unit := modify fun r => { r with pos := addSize w r.pos n }

def readU8 : ReaderM UInt8 := do
  check w 1
  let b ← peek w 0
  advance w 1
  pure b

def readU16 : ReaderM UInt16 := do
  check w 2
  let b0 ← peek w 0
  let b1 ← peek w 1
  advance w 2
  pure ((b0.toUInt16 <<< 8) ||| b1.toUInt16)

def readU32 : ReaderM UInt32 := do
  check w 4
  let b0 ← peek w 0
  let b1 ← peek w 1
  let b2 ← peek w 2
  let b3 ← peek w 3
  advance w 4
  pure ((b0.toUInt32 <<< 24) ||| (b1.toUInt32 <<< 16) ||| (b2.toUInt32 <<< 8) ||| b3.toUInt32)

def readI32 : ReaderM Int32 := do
  let v ← readU32 w
  pure v.toInt32

def readI64 : ReaderM Int64 := do
  let hi ← readU32 w
  let lo ← readU32 w
  pure ((hi.toUInt64.toInt64 <<< 32) ||| lo.toUInt64.toInt64)

def readString : ReaderM Bytes := do
  let ln ← readU32 w
  let r ← get
  throwIf (addSize w r.pos ln.toNat > r.len) (.runtimeError "string length exceeds data")
  let valid ← ofBuffer fun r => isValidUtf8 (r.data.drop r.pos) ln.toNat
  throwIf (!valid) (.runtimeError "string payload is not valid UTF-8")
  let s ← ofBuffer fun r => range r.data r.pos ln.toNat
  advance w ln.toNat
  pure s

/-- One turn of the loop of `readKV`. -/
def readEntry : ReaderM (Bytes × Bytes) := do
  let key ← readString w
  let val ← readString w
  pure (key, val)

def readKV : ReaderM KvMap := do
  let count ← readU32 w
  let left ← remaining w
  throwIf (count.toNat > left / 8) (.runtimeError "kv count exceeds remaining payload")
  forCount (readEntry w) (fun m e => m.insert e.1 e.2) count.toNat ∅

/-- One turn of the result loop of `decodeMessage`. -/
def readEchoResult : ReaderM (EchoResult KvMap) := do
  let idx ← readI64 w
  let type ← readU8 w
  let kv ← readKV w
  pure ⟨idx, type, kv⟩

/-- The result count and the result loop of `decodeMessage`. -/
def readEchoResults : ReaderM (List (EchoResult KvMap)) := do
  let count ← readU32 w
  let left ← remaining w
  throwIf (count.toNat > left / 13) (.runtimeError "result count exceeds remaining payload")
  forCount (readEchoResult w) (fun rs r => rs ++ [r]) count.toNat []

def fieldReaders : FieldReaders ReaderM Bytes (List (EchoResult KvMap)) :=
  ⟨readString w, readI64 w, readI32 w, readEchoResults w⟩

/-- `Frame` -/
structure Frame where
  msgType : UInt8
  payload : Bytes
  deriving DecidableEq

/-- `decodeFrame` -/
def decodeFrame (data : Bytes) : Except Failure Frame := do
  let len := data.length
  throwIf (len < 8) (.runtimeError ("frame too short: " ++ toString len))
  let magic ← byteAt data 0
  throwIf (magic ≠ 0x48) (.runtimeError "bad magic")
  let version ← byteAt data 1
  throwIf (version ≠ 0x01) (.runtimeError "bad version")
  let msgType ← byteAt data 2
  let b4 ← byteAt data 4
  let b5 ← byteAt data 5
  let b6 ← byteAt data 6
  let b7 ← byteAt data 7
  let payloadLen := (b4.toUInt32 <<< 24) ||| (b5.toUInt32 <<< 16) ||| (b6.toUInt32 <<< 8) |||
    b7.toUInt32
  throwIf (payloadLen.toNat ≠ len - 8) (.runtimeError "payload length mismatch")
  let payload ← range data 8 payloadLen.toNat
  pure ⟨msgType, payload⟩

/-- `decodeMessage` -/
def decodeMessage (data : Bytes) : Except Failure (Message KvMap) := do
  let frame ← decodeFrame data
  Protocol.decodeFields (fieldReaders w) ⟨frame.payload, frame.payload.length, 0⟩
    (.runtimeError "unknown message type") { Message.zero with type := frame.msgType }
    (MsgType.ofCode? frame.msgType)

end Reader

end HelloWebsocket.Cpp
