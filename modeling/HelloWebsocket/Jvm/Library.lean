import HelloWebsocket.Wire.Words
import HelloWebsocket.Wire.Writer
import HelloWebsocket.Protocol.Message

/-!
# The Java platform under the Java and Kotlin codecs

Arrays, strings, `LinkedHashMap` and `ByteArrayOutputStream` as far as the two
codecs use them.

## Implementation notes

A `byte[]` is stored as octets and read as signed bytes; its length fits in an
`int`. A string holds Unicode scalar values, so unpaired surrogates do not occur.
The strict UTF-8 decoder and `getBytes` follow the documentation of
`CharsetDecoder` and `String`.
-/

namespace HelloWebsocket.Jvm

open Utf8 Parsing Writing Words OrderedMaps
open Protocol (Entries KvMap toMap_setEntries)

/-- How a call ends without a value. -/
inductive Throwable
  | decodeException (message : String)
  | illegalState (message : String)
  | illegalArgument (message : String)
  | nullPointer
  | indexOutOfBounds
  | negativeArraySize
  | outOfMemory
  deriving DecidableEq, Repr

section Arrays

/-- `byte[]` -/
@[ext]
structure JArray where
  octets : Bytes
  fits : octets.length < 2 ^ 31
  deriving DecidableEq

namespace JArray

def empty : JArray := ⟨[], by decide⟩

/-- `data.length` -/
def length (data : JArray) : Int32 := Int32.ofNat data.octets.length

theorem toInt_length (data : JArray) : data.length.toInt = data.octets.length :=
  Int32.toInt_ofNat_of_lt data.fits

/-- `data[i]` -/
def index (data : JArray) (i : Int32) : Except Throwable Int8 :=
  if 0 ≤ i ∧ i < data.length then
    match data.octets[i.toInt.toNat]? with
    | some b => .ok b.toInt8
    | none => .error .indexOutOfBounds
  else .error .indexOutOfBounds

/-- A new array of `n` elements, filled by `System.arraycopy` from index `i` on. -/
def copy (data : JArray) (i n : Int32) : Except Throwable JArray :=
  if n < 0 then .error .negativeArraySize
  else if 0 ≤ i ∧ i.toInt + n.toInt ≤ data.length.toInt then
    .ok ⟨(data.octets.drop i.toInt.toNat).take n.toInt.toNat,
      lt_of_le_of_lt (List.length_take_le _ _) (by have := n.toInt_lt; omega)⟩
  else .error .indexOutOfBounds

/-- Kotlin's `copyOfRange(i, j)`. -/
def copyOfRange (data : JArray) (i j : Int32) : Except Throwable JArray :=
  if j > data.length then .error .indexOutOfBounds
  else if i > j then .error (.illegalArgument (toString i ++ " > " ++ toString j))
  else data.copy i (j - i)

/-- The strict decoder on `ByteBuffer.wrap(data, i, n)`: there is no string when the decoder
throws `CharacterCodingException`. -/
def decode (data : JArray) (i n : Int32) : Except Throwable (Option String) :=
  if 0 ≤ i ∧ 0 ≤ n ∧ i.toInt + n.toInt ≤ data.length.toInt then
    .ok (decode? ((data.octets.drop i.toInt.toNat).take n.toInt.toNat))
  else .error .indexOutOfBounds

end JArray

/-- `new byte[size]` with its elements then stored one by one. -/
def newArray (size : Int32) (octets : Bytes) : Except Throwable JArray :=
  if size < 0 then .error .negativeArraySize
  else if h : size.toInt = octets.length then
    .ok ⟨octets, by have := size.toInt_lt; omega⟩
  else .error .indexOutOfBounds

/-- `s.getBytes(UTF_8)`, which fails when the result does not fit in an array. -/
def getBytes (s : String) : Except Throwable JArray :=
  if h : (utf8 s).length < 2 ^ 31 then .ok ⟨utf8 s, h⟩ else .error .outOfMemory

end Arrays

section Maps

/-- `LinkedHashMap<String, String>`: the bindings in the order their keys were first put. -/
structure LinkedHashMap where
  entries : List (String × String)
  nodup : (entries.map Prod.fst).Nodup
  deriving DecidableEq

/-- The octets of the entries of a map. -/
def octetsOf (es : List (String × String)) : Entries := es.map fun e => (utf8 e.1, utf8 e.2)

theorem mem_octetsOf {es : List (String × String)} {k v : Bytes} :
    (k, v) ∈ octetsOf es ↔ ∃ a b, (a, b) ∈ es ∧ utf8 a = k ∧ utf8 b = v := by
  simp [octetsOf]

theorem wellFormed_octetsOf (es : List (String × String)) :
    ∀ e ∈ octetsOf es, WellFormed e.1 ∧ WellFormed e.2 := by
  intro e he
  obtain ⟨e', -, rfl⟩ := List.mem_map.mp he
  exact ⟨wellFormed_utf8 _, wellFormed_utf8 _⟩

namespace LinkedHashMap

def empty : LinkedHashMap := ⟨[], List.nodup_nil⟩

/-- The entries after `put`: a key that is there keeps its place. -/
def putEntries (es : List (String × String)) (key value : String) : List (String × String) :=
  if key ∈ es.map Prod.fst then es.map fun e => if e.1 = key then (key, value) else e
  else es ++ [(key, value)]

theorem keys_putEntries (es : List (String × String)) (key value : String) :
    (putEntries es key value).map Prod.fst =
      if key ∈ es.map Prod.fst then es.map Prod.fst else es.map Prod.fst ++ [key] :=
  keys_setEntries es key value

/-- `put` -/
def put (m : LinkedHashMap) (key value : String) : LinkedHashMap where
  entries := putEntries m.entries key value
  nodup := nodup_setEntries m.nodup key value

theorem nodup_octetsOf (m : LinkedHashMap) : ((octetsOf m.entries).map Prod.fst).Nodup := by
  have hkeys : (octetsOf m.entries).map Prod.fst = (m.entries.map Prod.fst).map utf8 := by
    simp [octetsOf, List.map_map, Function.comp_def]
  rw [hkeys]
  exact m.nodup.map utf8_injective

/-- The finite map a `LinkedHashMap` stands for. -/
def toMap (m : LinkedHashMap) : KvMap := Protocol.toMap (octetsOf m.entries)

theorem toMap_put (m : LinkedHashMap) (key value : String) :
    (m.put key value).toMap = m.toMap.insert (utf8 key) (utf8 value) := by
  have hoctets : octetsOf (m.put key value).entries =
      setEntries (octetsOf m.entries) (utf8 key) (utf8 value) :=
    map_setEntries utf8_injective utf8 m.entries key value
  rw [toMap, hoctets, toMap_setEntries m.nodup_octetsOf]
  rfl

/-- Putting decoded entries one after the other denotes the finite map of their octets. -/
theorem toMap_foldl_put (es : List (String × String)) (m : LinkedHashMap) :
    (es.foldl (fun m e => m.put e.1 e.2) m).toMap =
      (octetsOf es).foldl (fun m e => m.insert e.1 e.2) m.toMap := by
  induction es generalizing m with
  | nil => rfl
  | cons e es ih => exact (ih (m.put e.1 e.2)).trans (by rw [toMap_put]; rfl)

end LinkedHashMap

end Maps

section Streams

/-- `ByteArrayOutputStream` -/
structure ByteArrayOutputStream where
  buf : JArray

/-- A method that writes to a stream. -/
abbrev WriterM := EStateM Throwable ByteArrayOutputStream

/-- The stream with some more octets, which must fit in one array. -/
def append (bs : Bytes) : WriterM Unit := do
  let w ← get
  if h : (w.buf.octets ++ bs).length < 2 ^ 31 then set (ByteArrayOutputStream.mk ⟨_, h⟩)
  else throw .outOfMemory

/-- `buf.write(int)` keeps the low eight bits. -/
def write (v : Int32) : WriterM Unit := append [v.toInt8.toUInt8]

/-- `buf.writeBytes(b)` -/
def writeBytes (b : JArray) : WriterM Unit := append b.octets

/-- The octets written so far. -/
def sink : Sink ByteArrayOutputStream where
  octets w := w.buf.octets
  fits n := n < 2 ^ 31
  fits_of_le h := lt_of_le_of_lt h

theorem writes_append (bs : Bytes) : Writes sink (append bs) bs := by
  intro w hfit
  refine ⟨⟨⟨_, hfit⟩⟩, ?_, rfl⟩
  have h : (w.buf.octets ++ bs).length < 2 ^ 31 := hfit
  simp only [append, bind, EStateM.bind, get, getThe, MonadStateOf.get, EStateM.get, dif_pos h]
  rfl

theorem writes_write (v : Int32) : Writes sink (write v) [v.toInt8.toUInt8] :=
  writes_append _

theorem writes_write_bind (v : Int32) {m : WriterM Unit} {bs : Bytes} (hm : Writes sink m bs) :
    Writes sink (write v >>= fun _ => m) (v.toInt8.toUInt8 :: bs) :=
  writes_bind (writes_write v) hm

/-- A string is written after its octets have been taken, and then they fit in an array. -/
theorem writes_getBytes {s : String} {f : JArray → WriterM Unit} {bs : Bytes}
    (hle : (utf8 s).length ≤ bs.length)
    (hf : ∀ b : JArray, b.octets = utf8 s → Writes sink (f b) bs) :
    Writes sink (ofExcept (getBytes s) >>= f) bs := by
  intro w hfit
  have hlt : (utf8 s).length < 2 ^ 31 := by
    change (w.buf.octets ++ bs).length < 2 ^ 31 at hfit
    rw [List.length_append] at hfit
    omega
  have hok : getBytes s = .ok ⟨utf8 s, hlt⟩ := by rw [getBytes, dif_pos hlt]
  obtain ⟨w', hw, ho⟩ := hf ⟨utf8 s, hlt⟩ rfl w hfit
  refine ⟨w', ?_, ho⟩
  change EStateM.bind (ofExcept (getBytes s)) f w = _
  rw [EStateM.bind, ofExcept_ok hok]
  exact hw

end Streams

section Frames

/-- The stores into the first eight elements of a frame array. -/
def header (msgType : Int8) (len : Int32) : List Int8 :=
  [0x48, 0x01, msgType, 0x00, ((len >>> 24) &&& 0xFF).toInt8, ((len >>> 16) &&& 0xFF).toInt8,
    ((len >>> 8) &&& 0xFF).toInt8, (len &&& 0xFF).toInt8]

/-- The array both codecs build for a frame. Its size is computed as an `int`. -/
def frameArray (msgType : Int8) (payload : JArray) : Except Throwable JArray :=
  newArray (8 + payload.length)
    ((header msgType payload.length).map Int8.toUInt8 ++ payload.octets)

theorem header_eq (type : UInt8) (payload : JArray) :
    (header type.toInt8 payload.length).map Int8.toUInt8 =
      [0x48, 0x01, type, 0x00] ++ Protocol.u32 payload.octets.length := by
  have hfits := payload.fits
  have hbits : payload.length.toBitVec.toNat = payload.octets.length := by
    change (BitVec.ofNat 32 _).toNat = _
    rw [BitVec.toNat_ofNat, Nat.mod_eq_of_lt (by omega)]
  rw [Protocol.u32, ← hbits, ← octets_int32]
  rfl

/-- The array is the frame, unless its size overflows. -/
theorem frameArray_eq (type : UInt8) (payload : JArray) (h : payload.octets.length + 8 < 2 ^ 31) :
    ∃ a, frameArray type.toInt8 payload = .ok a ∧
      a.octets = Protocol.envelope type 0x00 payload.octets := by
  have height : (8 : Int32).toInt = 8 := rfl
  have hlen := payload.toInt_length
  have hsize : (8 + payload.length).toInt = 8 + payload.octets.length := by
    rw [toInt_add_int32 (by omega) (by omega), hlen, height]
  have hnonneg : ¬ 8 + payload.length < 0 := by
    rw [Int32.lt_iff_toInt_lt, hsize, Int32.toInt_zero]
    omega
  have hoctets : (8 + payload.length).toInt =
      ((header type.toInt8 payload.length).map Int8.toUInt8 ++ payload.octets).length := by
    rw [hsize, List.length_append]
    simp [header]
  refine ⟨_, by rw [frameArray, newArray, if_neg hnonneg, dif_pos hoctets], ?_⟩
  change (header type.toInt8 payload.length).map Int8.toUInt8 ++ payload.octets = _
  rw [header_eq]
  rfl

end Frames

end HelloWebsocket.Jvm
