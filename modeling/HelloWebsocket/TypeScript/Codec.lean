import HelloWebsocket.Node.Reader

/-!
# The TypeScript codec

`encodeMessage` and `decodeMessage` of `codec.ts`.

## Implementation notes

But for type annotations, the classes `ByteWriter` and `ByteReader` and the functions
`encodeFrame` and `decodeFrame` are the text of `codec.js`, except `writeI64`, and are
taken from there. The two message types have the same fields. `v & 0xFFFFFFFFn` is the
residue of the BigInt modulo 2³², and `>>` rounds down.
-/

namespace HelloWebsocket.TypeScript

open Protocol
open Node (WriterM ReaderM PlainObject ResultObject)

/-- `Message` -/
abbrev Message := Node.Message

section Writer

def writeU8 (v : Int) : WriterM Unit := Node.writeU8 v

def writeU16 (v : Int) : WriterM Unit := Node.writeU16 v

def writeU32 (v : Int) : WriterM Unit := Node.writeU32 v

def writeI32 (v : Int) : WriterM Unit := Node.writeI32 v

def writeString (s : String) : WriterM Unit := Node.writeString s

def writeKV (m : PlainObject) : WriterM Unit := Node.writeKV m.enumerate

def writeI64 (v : Int) : WriterM Unit := do
  let lo := v % 2 ^ 32
  let hi := (v >>> (32 : Nat)) % 2 ^ 32
  Node.writeU32 hi
  Node.writeU32 lo

/-- The result count and the result loop of `encodeMessage`. -/
def writeEchoResults (rs : List ResultObject) : WriterM Unit := do
  Node.writeU32 rs.length
  rs.forM fun r => do
    writeI64 r.idx
    Node.writeU8 r.type
    writeKV r.kv

def taggedWriters : TaggedWriters WriterM String Int Int ResultObject :=
  ⟨writeString, writeI64, Node.writeI32, writeEchoResults⟩

/-- `encodeMessage` -/
def encodeMessage (msg : Message) : Except Node.Error Bytes :=
  Node.encodeWith msg.type (writeTagged taggedWriters msg)

end Writer

section Reader

def readU32 : ReaderM Int := Node.readU32

def readI32 : ReaderM Int := Node.readI32

def readI64 : ReaderM Int := Node.readI64

def readString : ReaderM String := Node.readString

def readKV : ReaderM PlainObject := Node.readKV

/-- `decodeMessage` -/
def decodeMessage (data : Bytes) : Except Node.Failure Message := Node.decodeMessage data

end Reader

end HelloWebsocket.TypeScript
