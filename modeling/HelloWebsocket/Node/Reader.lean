import HelloWebsocket.Wire.ByteOrderMark
import HelloWebsocket.Wire.Hex
import HelloWebsocket.Protocol.Tagged
import HelloWebsocket.Jvm.Library
import HelloWebsocket.Node.Codec

/-!
# The Node.js decoder

`ByteReader`, `decodeFrame` and `decodeMessage` of `codec.js`, and the objects that
`readKV` fills.

## Implementation notes

A message is an object with its type and one property for the fields of that type,
so it is a value of the tagged union. The own properties of an object literal are
kept in the order of their creation, as a `LinkedHashMap` keeps its entries. The
`TextDecoder` is strict and has `ignoreBOM` unset. `ensure` guards every access to
the data, so no read gives `undefined`.
-/

namespace HelloWebsocket.Node

open BigEndian Utf8 Parsing
open Protocol (Tagged TaggedReaders HeaderErrors)
open Positions (slice advance decodeNext remaining)

/-- `new Error(message)` -/
structure Failure where
  message : String
  deriving DecidableEq, Repr

section Objects

/-- An object that started as `{}`, with strings for values. -/
abbrev PlainObject := Jvm.LinkedHashMap

/-- `m[key] = value`. The setter `__proto__` of `Object.prototype` ignores a string; every other
property there is data that can be written, so the object gets one of its own. -/
def PlainObject.assign (m : PlainObject) (key value : String) : PlainObject :=
  if key = "__proto__" ∧ key ∉ m.entries.map Prod.fst then m else m.put key value

/-- The integer that a property name spells, if it is an array index. -/
def arrayIndex? (key : String) : Option Nat :=
  key.toNat?.filter fun n => toString n = key ∧ n < 2 ^ 32 - 1

/-- The own properties in the order of `Object.keys`: array indices by size, then the other names
by age. -/
def PlainObject.enumerate (m : PlainObject) : List (String × String) :=
  (m.entries.filter fun e => (arrayIndex? e.1).isSome).mergeSort
      (fun e e' => (arrayIndex? e.1).getD 0 ≤ (arrayIndex? e'.1).getD 0) ++
    m.entries.filter fun e => !(arrayIndex? e.1).isSome

end Objects

section Reader

/-- A method of the reader. -/
abbrev ReaderM := EStateM Failure Positions.Reader

/-- `Number.isSafeInteger(n)` -/
def IsSafeInteger (n : Int) : Prop := -(2 ^ 53 - 1) ≤ n ∧ n ≤ 2 ^ 53 - 1

instance : DecidablePred IsSafeInteger := fun n =>
  inferInstanceAs (Decidable (-(2 ^ 53 - 1) ≤ n ∧ n ≤ 2 ^ 53 - 1))

def ensure (n : Int) (field : String) : ReaderM Unit := do
  let r ← get
  throwIf (¬ IsSafeInteger n ∨ n < 0 ∨ n > r.remaining)
    ⟨field ++ " requires " ++ toString n ++ " bytes, only " ++ toString r.remaining ++ " remain"⟩

/-- `v << k` -/
def shl (v : Int) (k : Int32) : Int := (Int32.ofInt v <<< k).toInt

/-- The next `n` octets, which the reader then steps over. -/
def readOctets (n : Nat) (field : String) : ReaderM Bytes := do
  ensure n field
  let b ← slice n
  advance n
  pure b

def readU8 : ReaderM Int := do
  let b ← readOctets 1 "u8"
  pure (b.getD 0 0).toNat

def readU32 : ReaderM Int := do
  let b ← readOctets 4 "u32"
  let octet (k : Nat) : Int := (b.getD k 0).toNat
  pure (octet 0 * 0x1000000 + shl (octet 1) 16 + shl (octet 2) 8 + octet 3)

/-- `readI32`: `v | 0` converts with ToInt32. -/
def readI32 : ReaderM Int := do
  let v ← readU32
  pure (Int32.ofInt v).toInt

/-- `BigInt.asIntN(64, v)` -/
def asInt64 (v : Nat) : Int := Int.bmod v (2 ^ 64)

def readI64 : ReaderM Int := do
  let hi ← readU32
  let lo ← readU32
  pure (asInt64 (hi.toNat <<< 32 ||| lo.toNat))

def readString : ReaderM String := do
  let ln ← readU32
  ensure ln "string"
  decodeNext decodeUnmarked? ln.toNat fun _ => ⟨"string payload is not valid UTF-8"⟩

/-- One turn of the loop of `readKV`. -/
def readEntry : ReaderM (String × String) := do
  let k ← readString
  let v ← readString
  pure (k, v)

def readKV : ReaderM PlainObject := do
  let count ← readU32
  let left ← remaining
  throwIf (count > (left / 8 : Nat)) ⟨"kv count " ++ toString count ++ " exceeds remaining payload"⟩
  forCount readEntry (fun m e => m.assign e.1 e.2) count.toNat Jvm.LinkedHashMap.empty

/-- An element of `results`. -/
structure ResultObject where
  idx : Int
  type : Int
  kv : PlainObject
  deriving DecidableEq

/-- One turn of the result loop of `decodeMessage`. -/
def readEchoResult : ReaderM ResultObject := do
  let idx ← readI64
  let type ← readU8
  let kv ← readKV
  pure ⟨idx, type, kv⟩

/-- The result count and the result loop of `decodeMessage`. -/
def readEchoResults : ReaderM (List ResultObject) := do
  let count ← readU32
  let left ← remaining
  throwIf (count > (left / 13 : Nat))
    ⟨"result count " ++ toString count ++ " exceeds remaining payload"⟩
  forCount readEchoResult (fun rs r => rs ++ [r]) count.toNat []

def taggedReaders : TaggedReaders ReaderM String Int Int ResultObject :=
  ⟨readString, readI64, readI32, readEchoResults⟩

end Reader

section Messages

/-- What `decodeMessage` returns. -/
abbrev Message := Tagged String Int Int ResultObject

/-- The errors of `decodeFrame`, which is the header check with these errors. -/
def headerErrors : HeaderErrors Failure where
  short n := ⟨"frame too short: " ++ toString n⟩
  magic b := ⟨"bad magic: 0x" ++ Hex.signed b.toNat⟩
  version b := ⟨"bad version: 0x" ++ Hex.signed b.toNat⟩
  length n m := ⟨"payload length mismatch: declared " ++ toString n ++ ", available " ++ toString m⟩

/-- `decodeMessage` -/
def decodeMessage (data : Bytes) : Except Failure Message :=
  Protocol.decodeWith headerErrors taggedReaders
    (fun msgType => ⟨"unknown message type: 0x" ++ Hex.signed msgType.toNat⟩) data

/-- The argument of `encodeEchoResponse` for an element of `results`. -/
def ResultObject.toEchoResult (r : ResultObject) : EchoResult := ⟨r.idx, r.type, r.kv.enumerate⟩

/-- The `encode` function of the type of a message, called with its fields. -/
def call : Message → Call
  | .hello l => .hello l
  | .bonjour l => .bonjour l
  | .echoRequest i t d => .echoRequest i t d
  | .echoResponse s rs => .echoResponse s (rs.map ResultObject.toEchoResult)
  | .kissRequest n v r a => .kissRequest n v r a
  | .kissResponse l e z => .kissResponse l e z
  | .ping t => .ping t
  | .pong t => .pong t
  | .timeNotification t i => .timeNotification t i
  | .randomNumber i n => .randomNumber i n
  | .hashResponse i h => .hashResponse i h
  | .disconnect r => .disconnect r
  | .error c m => .error c m

end Messages

end HelloWebsocket.Node
