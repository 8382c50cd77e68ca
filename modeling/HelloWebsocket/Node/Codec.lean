import HelloWebsocket.Wire.Words
import HelloWebsocket.Wire.Writer
import HelloWebsocket.Protocol.Message

/-!
# The Node.js encoders

`ByteWriter`, `encodeFrame` and the thirteen `encode` functions of `codec.js`.

## Implementation notes

A Number that holds an integer and a BigInt are integers. The operators `&`,
`>>` and `>>>` convert their left operand with ToInt32 or ToUint32 first. Strings
hold Unicode scalar values, so unpaired surrogates do not occur. An object used
as a map is its own enumerable properties in the order of `Object.keys`.
`Buffer.from` on an array keeps the low eight bits of each element, and
`writeUInt32BE` throws a `RangeError` for a value of more than 32 bits.
-/

namespace HelloWebsocket.Node

open Utf8
open Protocol (Entries MsgType)

/-- How a call ends without a value. -/
inductive Error
  | rangeError
  deriving DecidableEq, Repr

section Operators

/-- `v & w` -/
def bitAnd (v w : Int) : Int := (Int32.ofInt v &&& Int32.ofInt w).toInt

/-- `v >> k` -/
def shr (v : Int) (k : Int32) : Int := (Int32.ofInt v >>> k).toInt

/-- `v >>> k` -/
def ushr (v : Int) (k : UInt32) : Int := (UInt32.ofInt v >>> k).toNat

/-- `BigInt.asUintN(64, v)` -/
def asUint64 (v : Int) : Nat := (v % 2 ^ 64).toNat

end Operators

section Writer

/-- `ByteWriter` -/
structure ByteWriter where
  buf : List Int

/-- A method of the writer. -/
abbrev WriterM := EStateM Error ByteWriter

/-- `this.buf.push(...)` -/
def push (vs : List Int) : WriterM Unit := modify fun w => ⟨w.buf ++ vs⟩

def writeU8 (v : Int) : WriterM Unit := push [bitAnd v 0xFF]

def writeU16 (v : Int) : WriterM Unit := push [bitAnd (shr v 8) 0xFF, bitAnd v 0xFF]

def writeU32 (v : Int) : WriterM Unit :=
  push [bitAnd (ushr v 24) 0xFF, bitAnd (shr v 16) 0xFF, bitAnd (shr v 8) 0xFF, bitAnd v 0xFF]

def writeI32 (v : Int) : WriterM Unit := writeU32 (ushr v 0)

def writeI64 (v : Int) : WriterM Unit := do
  let n := asUint64 v
  writeU32 ((n >>> 32 &&& 0xFFFFFFFF : Nat) : Int)
  writeU32 ((n &&& 0xFFFFFFFF : Nat) : Int)

def writeString (s : String) : WriterM Unit := do
  let b := utf8 s
  writeU32 b.length
  b.forM fun byte => push [(byte.toNat : Int)]

/-- `writeKV`, for the properties in the order of `Object.keys`. -/
def writeKV (m : List (String × String)) : WriterM Unit := do
  writeU32 m.length
  m.forM fun e => do
    writeString e.1
    writeString e.2

/-- `data()` -/
def ByteWriter.data (w : ByteWriter) : Bytes := w.buf.map UInt8.ofInt

end Writer

section Messages

/-- `encodeFrame` -/
def encodeFrame (msgType : UInt8) (payload : Bytes) : Except Error Bytes :=
  if payload.length < 2 ^ 32 then
    .ok ([0x48, 0x01, msgType, 0x00] ++ BigEndian.beBytes 4 payload.length ++ payload)
  else .error .rangeError

/-- A new writer, the writes of an `encode` function, and the frame of what was written. -/
def encodeWith (t : MsgType) (writes : WriterM Unit) : Except Error Bytes :=
  match writes ⟨[]⟩ with
  | .ok _ w => encodeFrame t.code w.data
  | .error e _ => .error e

def encodeHello (clientLanguage : String) : Except Error Bytes :=
  encodeWith .hello (writeString clientLanguage)

def encodeBonjour (serverLanguage : String) : Except Error Bytes :=
  encodeWith .bonjour (writeString serverLanguage)

def encodeEchoRequest (id : Int) (tag data : String) : Except Error Bytes :=
  encodeWith .echoRequest do
    writeI64 id
    writeString tag
    writeString data

/-- An element of the array that `encodeEchoResponse` takes. -/
structure EchoResult where
  idx : Int
  type : Int
  kv : List (String × String)

def encodeEchoResponse (status : Int) (results : List EchoResult) : Except Error Bytes :=
  encodeWith .echoResponse do
    writeI32 status
    writeU32 results.length
    results.forM fun r => do
      writeI64 r.idx
      writeU8 r.type
      writeKV r.kv

def encodeKissRequest (osName osVersion osRelease osArch : String) : Except Error Bytes :=
  encodeWith .kissRequest do
    writeString osName
    writeString osVersion
    writeString osRelease
    writeString osArch

def encodeKissResponse (language encoding timeZone : String) : Except Error Bytes :=
  encodeWith .kissResponse do
    writeString language
    writeString encoding
    writeString timeZone

def encodePing (ts : Int) : Except Error Bytes := encodeWith .ping (writeI64 ts)

def encodePong (ts : Int) : Except Error Bytes := encodeWith .pong (writeI64 ts)

def encodeTimeNotification (ts : Int) (iso : String) : Except Error Bytes :=
  encodeWith .timeNotification do
    writeI64 ts
    writeString iso

def encodeRandomNumber (id number : Int) : Except Error Bytes :=
  encodeWith .randomNumber do
    writeI64 id
    writeI64 number

def encodeHashResponse (id : Int) (hashHex : String) : Except Error Bytes :=
  encodeWith .hashResponse do
    writeI64 id
    writeString hashHex

def encodeDisconnect (reason : String) : Except Error Bytes :=
  encodeWith .disconnect (writeString reason)

def encodeError (code : Int) (message : String) : Except Error Bytes :=
  encodeWith .error do
    writeI32 code
    writeString message

end Messages

section Calls

/-- A call of one of the `encode` functions. -/
inductive Call
  | hello (clientLanguage : String)
  | bonjour (serverLanguage : String)
  | echoRequest (id : Int) (tag data : String)
  | echoResponse (status : Int) (results : List EchoResult)
  | kissRequest (osName osVersion osRelease osArch : String)
  | kissResponse (language encoding timeZone : String)
  | ping (ts : Int)
  | pong (ts : Int)
  | timeNotification (ts : Int) (iso : String)
  | randomNumber (id number : Int)
  | hashResponse (id : Int) (hashHex : String)
  | disconnect (reason : String)
  | error (code : Int) (message : String)

def Call.run : Call → Except Error Bytes
  | .hello clientLanguage => encodeHello clientLanguage
  | .bonjour serverLanguage => encodeBonjour serverLanguage
  | .echoRequest id tag data => encodeEchoRequest id tag data
  | .echoResponse status results => encodeEchoResponse status results
  | .kissRequest osName osVersion osRelease osArch =>
      encodeKissRequest osName osVersion osRelease osArch
  | .kissResponse language encoding timeZone => encodeKissResponse language encoding timeZone
  | .ping ts => encodePing ts
  | .pong ts => encodePong ts
  | .timeNotification ts iso => encodeTimeNotification ts iso
  | .randomNumber id number => encodeRandomNumber id number
  | .hashResponse id hashHex => encodeHashResponse id hashHex
  | .disconnect reason => encodeDisconnect reason
  | .error code message => encodeError code message

def EchoResult.view (r : EchoResult) : Protocol.EchoResult Entries :=
  ⟨r.idx, r.type, r.kv.map fun e => (utf8 e.1, utf8 e.2)⟩

/-- The message a call is about. -/
def Call.view : Call → Protocol.Message Entries
  | .hello clientLanguage => .hello (utf8 clientLanguage)
  | .bonjour serverLanguage => .bonjour (utf8 serverLanguage)
  | .echoRequest id tag data => .echoRequest id (utf8 tag) (utf8 data)
  | .echoResponse status results => .echoResponse status (results.map EchoResult.view)
  | .kissRequest osName osVersion osRelease osArch =>
      .kissRequest (utf8 osName) (utf8 osVersion) (utf8 osRelease) (utf8 osArch)
  | .kissResponse language encoding timeZone =>
      .kissResponse (utf8 language) (utf8 encoding) (utf8 timeZone)
  | .ping ts => .ping ts
  | .pong ts => .pong ts
  | .timeNotification ts iso => .timeNotification ts (utf8 iso)
  | .randomNumber id number => .randomNumber id number
  | .hashResponse id hashHex => .hashResponse id (utf8 hashHex)
  | .disconnect reason => .disconnect (utf8 reason)
  | .error code message => .error code (utf8 message)

end Calls

end HelloWebsocket.Node
