import HelloWebsocket.Wire.Hex
import HelloWebsocket.Wire.Decimal
import HelloWebsocket.Protocol.Primitives
import HelloWebsocket.Protocol.RoundTrip
import HelloWebsocket.Jvm.Reader

/-!
# The Python codec

`ByteWriter`, `ByteReader`, `encode_frame`, `decode_frame`, the message classes with
their `encode`, and `decode_message` of `codec.py`.

## Implementation notes

An `int` has no bound, and `struct.pack` raises an error if it does not fit. A `dict`
keeps the order in which its keys were first set. A `str` that is read holds Unicode
scalar values, so surrogates do not occur. A message that is decoded has the attribute
of its type set and no other, so it is a value of the tagged union. The text of a
`UnicodeDecodeError` is made by the interpreter; the model keeps the octets that it is
about.
-/

namespace HelloWebsocket.Python

open BigEndian Utf8 Parsing Writing Protocol
open Jvm (LinkedHashMap octetsOf)
open Positions (Reader number cursor)

/-- The exceptions of the codec. -/
inductive Exception
  | codecError (code : Int) (message : String)
  | valueError (message : String)
  | unicodeDecodeError (object : Bytes)
  | structError
  deriving DecidableEq

/-- `dict[str, str]` -/
abbrev Dict := LinkedHashMap

/-- `EchoResult` -/
structure EchoResult where
  idx : Int
  type : Int
  kv : Dict
  deriving DecidableEq

/-- `Message`, and the class of each type of message. -/
abbrev Message := Tagged String Int Int EchoResult

section Writer

/-- `ByteWriter` -/
structure ByteWriter where
  buf : Bytes

/-- A method of the writer. -/
abbrev WriterM := EStateM Exception ByteWriter

/-- `self.buf.extend(bs)` -/
def extend (bs : Bytes) : WriterM Unit := modify fun w => ⟨w.buf ++ bs⟩

/-- `struct.pack` of a number that has to be in the range of its format. -/
def pack (inRange : Prop) [Decidable inRange] (bs : Bytes) : WriterM Unit := do
  throwIf (¬ inRange) .structError
  extend bs

/-- `write_u8`, which keeps the low eight bits. -/
def writeU8 (v : Int) : WriterM Unit := extend [UInt8.ofNat (twos 8 v)]

def writeU32 (v : Nat) : WriterM Unit := pack (v < 2 ^ 32) (beBytes 4 v)

def writeI32 (v : Int) : WriterM Unit := pack (IsI32 v) (beBytes 4 (twos 32 v))

def writeI64 (v : Int) : WriterM Unit := pack (IsI64 v) (beBytes 8 (twos 64 v))

def writeString (s : String) : WriterM Unit := do
  writeU32 (utf8 s).length
  extend (utf8 s)

def writeKv (m : Dict) : WriterM Unit := do
  writeU32 m.entries.length
  m.entries.forM fun e => do
    writeString e.1
    writeString e.2

/-- The result count and the result loop of `EchoResponse.encode`. -/
def writeEchoResults (rs : List EchoResult) : WriterM Unit := do
  writeU32 rs.length
  rs.forM fun r => do
    writeI64 r.idx
    writeU8 r.type
    writeKv r.kv

def taggedWriters : TaggedWriters WriterM String Int Int EchoResult :=
  ⟨writeString, writeI64, writeI32, writeEchoResults⟩

/-- `encode_frame` -/
def encodeFrame (msgType : UInt8) (payload : Bytes) : Except Exception Bytes :=
  if payload.length < 2 ^ 32 then
    .ok ([0x48, 0x01, msgType, 0x00] ++ beBytes 4 payload.length ++ payload)
  else .error .structError

/-- `encode` of the class of the message. -/
def encode (m : Message) : Except Exception Bytes :=
  match writeTagged taggedWriters m ⟨[]⟩ with
  | .ok _ w => encodeFrame m.type.code w.buf
  | .error e _ => .error e

end Writer

section Reader

/-- A method of the reader. -/
abbrev ReaderM := EStateM Exception Reader

/-- What `require` raises. -/
def requires (size : Nat) (field : String) (r : Reader) : Exception :=
  .valueError (field ++ " requires " ++ toString size ++ " bytes, only " ++ toString r.remaining ++
    " remain")

def readU8 : ReaderM Int := do
  let v ← number 1 (requires 1 "u8")
  pure v

def readU32 : ReaderM Nat := number 4 (requires 4 "u32")

def readI32 : ReaderM Int := do
  let v ← number 4 (requires 4 "i32")
  pure (signed 32 v)

def readI64 : ReaderM Int := do
  let v ← number 8 (requires 8 "i64")
  pure (signed 64 v)

/-- `read_string`; `decode("utf-8")` is strict. -/
def readString : ReaderM String :=
  textBy readU32 id decode? (fun ln => requires ln "string")
    fun ln r => .unicodeDecodeError ((r.data.drop r.pos).take ln)

def readKv : ReaderM Dict :=
  countedBy readU32 id 8
    (fun count => .valueError ("kv count " ++ toString count ++ " exceeds remaining payload"))
    (entryBy readString) (fun m e => m.put e.1 e.2) LinkedHashMap.empty

/-- One turn of the result loop of `decode_message`. -/
def readEchoResult : ReaderM EchoResult := do
  let idx ← readI64
  let type ← readU8
  let kv ← readKv
  pure ⟨idx, type, kv⟩

/-- The result count and the result loop of `decode_message`. -/
def readEchoResults : ReaderM (List EchoResult) :=
  countedBy readU32 id 13
    (fun count => .valueError ("result count " ++ toString count ++ " exceeds remaining payload"))
    readEchoResult (fun rs r => rs ++ [r]) []

def taggedReaders : TaggedReaders ReaderM String Int Int EchoResult :=
  ⟨readString, readI64, readI32, readEchoResults⟩

/-- The errors of `decode_frame`, which is the header check with these errors. -/
def headerErrors : HeaderErrors Exception where
  short n := .codecError 0x03 ("frame too short: " ++ toString n ++ " bytes")
  magic b := .codecError 0x04 ("bad magic: 0x" ++ Hex.byte b)
  version b := .codecError 0x05 ("bad version: 0x" ++ Hex.byte b)
  length n m := .codecError 0x03
    ("payload length mismatch: declared " ++ toString n ++ ", available " ++ toString m)

/-- The error for a type that is not registered. -/
def unknownType (type : UInt8) : Exception :=
  .codecError 0x02 ("unknown message type: 0x" ++ Hex.byte type)

/-- `decode_message` -/
def decodeMessage (data : Bytes) : Except Exception Message :=
  decodeWith headerErrors taggedReaders unknownType data

end Reader

section Written

/-- What a message says, with the entries of its maps in their order. -/
def listed : Reading String Int Int EchoResult Entries :=
  ⟨utf8, id, id, fun r => ⟨r.idx, r.type, octetsOf r.kv.entries⟩⟩

/-- A string whose length fits its field. -/
def Fits (s : String) : Prop := (utf8 s).length < 2 ^ 32

/-- A result that can be written: its type is cut to eight bits, so that any type can. -/
def EchoResult.Fits (r : EchoResult) : Prop :=
  IsI64 r.idx ∧ r.kv.entries.length < 2 ^ 32 ∧ ∀ e ∈ r.kv.entries, Python.Fits e.1 ∧ Python.Fits e.2

/-- A message that can be written. -/
def Encodable (m : Message) : Prop :=
  m.Each Fits IsI64 IsI32 fun rs => rs.length < 2 ^ 32 ∧ ∀ r ∈ rs, r.Fits

theorem writesIf_extend (bs : Bytes) : WritesIf ByteWriter.buf True (extend bs) bs :=
  fun w => ⟨fun _ => ⟨⟨w.buf ++ bs⟩, rfl, rfl⟩, fun h => absurd trivial h⟩

theorem writesIf_pack {inRange : Prop} [Decidable inRange] (bs : Bytes) :
    WritesIf ByteWriter.buf inRange (pack inRange bs) bs := by
  intro w
  refine ⟨fun h => ⟨⟨w.buf ++ bs⟩, ?_, rfl⟩, fun h => ⟨.structError, w, ?_⟩⟩
  · rw [pack, throwIf, if_neg (not_not.mpr h)]
    rfl
  · rw [pack, throwIf, if_pos h]
    rfl

theorem writesIf_writeString (s : String) :
    WritesIf ByteWriter.buf (Fits s) (writeString s) (string (utf8 s)) :=
  (writesIf_bind (writesIf_pack _) (writesIf_extend _)).congr (iff_of_eq (and_true _))

theorem writesIf_writeKv (m : Dict) :
    WritesIf ByteWriter.buf (m.entries.length < 2 ^ 32 ∧ ∀ e ∈ m.entries, Fits e.1 ∧ Fits e.2)
      (writeKv m) (kv (octetsOf m.entries)) := by
  have hentry (e : String × String) : WritesIf ByteWriter.buf (Fits e.1 ∧ Fits e.2)
      (writeString e.1 >>= fun _ => writeString e.2) (entry (utf8 e.1, utf8 e.2)) :=
    writesIf_bind (writesIf_writeString e.1) (writesIf_writeString e.2)
  rw [kv, octetsOf, List.length_map, List.flatMap_map]
  exact writesIf_bind (writesIf_pack _) (writesIf_forM hentry m.entries)

theorem writesIf_writeU8 (v : Int) : WritesIf ByteWriter.buf True (writeU8 v) (u8 v) := by
  have hoctet : u8 v = [UInt8.ofNat (twos 8 v)] := by simp [u8, beBytes]
  rw [hoctet]
  exact writesIf_extend _

theorem checked_taggedWriters : taggedWriters.Checked ByteWriter.buf listed Fits IsI64 IsI32
    fun rs => rs.length < 2 ^ 32 ∧ ∀ r ∈ rs, r.Fits where
  writeString := writesIf_writeString
  writeI64 _ := writesIf_pack _
  writeI32 _ := writesIf_pack _
  writeEchoResults rs := by
    have hresult (r : EchoResult) : WritesIf ByteWriter.buf r.Fits
        (do writeI64 r.idx; writeU8 r.type; writeKv r.kv) (echoResult (listed.result r)) := by
      rw [echoResult, List.append_assoc]
      exact (writesIf_bind (writesIf_pack _)
        (writesIf_bind (writesIf_writeU8 _) (writesIf_writeKv _))).congr
          (and_congr_right fun _ => iff_of_eq (true_and _))
    rw [List.flatMap_map]
    exact writesIf_bind (writesIf_pack _) (writesIf_forM hresult rs)

/-- A message that fits is written as the frame of what it says. -/
theorem encode_eq {m : Message} (h : Encodable m) (hlen : (payload (m.view listed)).length < 2 ^ 32) :
    encode m = .ok (frame (m.view listed)) := by
  obtain ⟨w, hw, hbuf⟩ := (writesIf_writeTagged checked_taggedWriters m ⟨[]⟩).1 h
  have hbytes : w.buf = payload (m.view listed) := hbuf
  rw [encode, hw]
  simp only [hbytes]
  rw [encodeFrame, if_pos hlen, frame, envelope, Tagged.type_view]
  rfl

end Written

section Read

variable {data : Bytes} {limit : Nat} (hdata : data.length ≤ limit)

/-- What `getattr(e, "code", ERR_DECODE)` gives. -/
def Exception.code : Exception → Int
  | .codecError code _ => code
  | _ => 0x01

/-- The text of an exception, with what the interpreter writes for a malformed string. -/
def Exception.text (explain : Bytes → String) : Exception → String
  | .codecError _ message => message
  | .valueError message => message
  | .unicodeDecodeError object => explain object
  | .structError => "argument out of range"

/-- The reader raises no exception with a code, and those that it words are short. -/
def Plain (limit : Nat) (e : Exception) : Prop :=
  (∃ message, e = .valueError message ∧ (utf8 message).length ≤ 60 + limit) ∨
    ∃ object, e = .unicodeDecodeError object

theorem length_toString_le (n : Nat) : (utf8 (toString n)).length ≤ n + 1 := by
  rw [Decimal.utf8_toString_nat]
  exact Decimal.length_digits_le (n.lt_succ_self.trans (Nat.lt_pow_self (by decide)))

theorem length_toString_u32 {n : Nat} (hn : n < 2 ^ 32) : (utf8 (toString n)).length ≤ 10 := by
  rw [Decimal.utf8_toString_nat]
  exact Decimal.length_digits_le (by omega)

include hdata in
theorem plain_requires {size : Nat} (hsize : size < 2 ^ 32) {field : String}
    (hfield : (utf8 field).length ≤ 6) {r : Reader} (hr : r.data = data) :
    Plain limit (requires size field r) := by
  refine .inl ⟨_, rfl, ?_⟩
  have hdigits := length_toString_u32 hsize
  have hleft := length_toString_le r.remaining
  have hle : r.remaining ≤ limit := by
    rw [Reader.remaining, hr]
    exact (Nat.sub_le _ _).trans hdata
  simp only [utf8_append, List.length_append, show (utf8 " requires ").length = 10 from rfl,
    show (utf8 " bytes, only ").length = 13 from rfl, show (utf8 " remain").length = 7 from rfl]
  omega

/-- The error of a count that is too large. -/
theorem plain_excess {count : Nat} (hcount : count < 2 ^ 32) {what : String}
    (hwhat : (utf8 what).length ≤ 13) :
    Plain limit (.valueError (what ++ toString count ++ " exceeds remaining payload")) := by
  refine .inl ⟨_, rfl, ?_⟩
  have hdigits := length_toString_u32 hcount
  simp only [utf8_append, List.length_append,
    show (utf8 " exceeds remaining payload").length = 26 from rfl]
  omega

/-- The reader on some data. -/
abbrev reading (data : Bytes) (limit : Nat) : Cursor Exception Reader UInt8 := cursor data (Plain limit)

/-- What a message says. -/
def view : Reading String Int Int EchoResult KvMap :=
  ⟨utf8, id, id, fun r => ⟨r.idx, r.type, r.kv.toMap⟩⟩

section Methods

include hdata

theorem refines_readU8 : Refines (reading data limit) (fun v n => v = n) readU8 parseU8 :=
  refines_map_left (refines_number_u8 fun _ => plain_requires hdata (by decide) (by decide))
    fun _ _ h => h.1

theorem refines_readU32 :
    Refines (reading data limit) (fun v n => id v = n ∧ n < 2 ^ 32) readU32 parseU32 :=
  refines_number_u32 fun _ => plain_requires hdata (by decide) (by decide)

theorem refines_readI32 : Refines (reading data limit) (fun v n => v = n) readI32 parseI32 := by
  refine refines_map_left
    (refines_number_i32 fun _ => plain_requires hdata (by decide) (by decide)) ?_
  rintro v n ⟨h, -⟩
  exact h

theorem refines_readI64 : Refines (reading data limit) (fun v n => v = n) readI64 parseI64 := by
  refine refines_map_left
    (refines_number_i64 fun _ => plain_requires hdata (by decide) (by decide)) ?_
  rintro v n ⟨h, -⟩
  exact h

theorem refines_readString :
    Refines (reading data limit) (fun s b => utf8 s = b) readString parseString :=
  refines_textBy (refines_readU32 hdata) (fun _ _ hv => plain_requires hdata hv (by decide))
    (fun _ _ => .inr ⟨_, rfl⟩)
    (fun _ hb => by
      obtain ⟨s, rfl⟩ := exists_utf8_of_wellFormed hb
      exact ⟨s, decode?_eq_some_iff.mpr rfl, rfl⟩)
    fun _ hb => decode?_eq_none_iff.mpr hb

theorem refines_readKv :
    Refines (reading data limit) (fun m es => m.toMap = toMap es) readKv parseKv :=
  refines_countedBy_entries (refines_readU32 hdata) (fun _ hv => plain_excess hv (by decide))
    (refines_entryBy (refines_readString hdata)) fun _ _ has => Jvm.toMap_foldl_put_empty has

theorem refines_readEchoResult : Refines (reading data limit)
    (fun r b => view.result r = b.mapKv toMap) readEchoResult parseEchoResult := by
  refine refines_bind (refines_readI64 hdata) fun i i' hi => ?_
  refine refines_bind (refines_readU8 hdata) fun t t' ht => ?_
  refine refines_bind (refines_readKv hdata) fun m es hm => refines_pure ?_
  subst hi ht
  simp only [view, Protocol.EchoResult.mapKv, hm]

theorem sound_taggedReaders :
    taggedReaders.Sound (reading data limit) view id (·.mapKv toMap) where
  readString := refines_readString hdata
  readI64 := refines_readI64 hdata
  readI32 := refines_readI32 hdata
  readEchoResults := refines_countedBy_results (refines_readU32 hdata)
    (fun _ hv => plain_excess hv (by decide)) (refines_readEchoResult hdata)

end Methods

/-- The text is short if what the interpreter writes is. -/
def Exception.Short (limit : Nat) (e : Exception) : Prop :=
  ∀ explain : Bytes → String, (∀ object, (utf8 (explain object)).length ≤ 100) →
    (utf8 (e.text explain)).length ≤ 100 + limit

theorem short_codecError {code : Int} {message : String}
    (h : (utf8 message).length ≤ 100 + limit) : (Exception.codecError code message).Short limit :=
  fun _ _ => h

theorem Plain.short {e : Exception} (h : Plain limit e) : e.Short limit := by
  intro explain hexplain
  obtain ⟨message, rfl, hlen⟩ | ⟨object, rfl⟩ := h
  · exact hlen.trans (by omega)
  · exact (hexplain object).trans (Nat.le_add_right _ _)

/-- The text of a failed check is short. -/
theorem short_of_reports {e : Exception} {c : ErrorCode}
    (h : ReportsWithin headerErrors unknownType (Plain limit) limit e c) : e.Short limit := by
  cases c with
  | decode => exact Plain.short h
  | unknownMessageType | badMagic | badVersion =>
      obtain ⟨b, rfl⟩ := h
      refine short_codecError (le_trans ?_ (Nat.le_add_right 100 limit))
      rw [utf8_append, List.length_append, Hex.length_byte]
      decide
  | truncatedPayload =>
      obtain ⟨n, hn, rfl⟩ | ⟨n, hn, m, hm, rfl⟩ := h
      · have hdigits := length_toString_le n
        refine short_codecError ?_
        simp only [utf8_append, List.length_append,
          show (utf8 "frame too short: ").length = 17 from rfl,
          show (utf8 " bytes").length = 6 from rfl]
        omega
      · have hdeclared := length_toString_u32 hn
        have havailable := length_toString_le m
        refine short_codecError ?_
        simp only [utf8_append, List.length_append,
          show (utf8 "payload length mismatch: declared ").length = 34 from rfl,
          show (utf8 ", available ").length = 12 from rfl]
        omega

/-- `decode_message` returns what the octets carry, or raises an exception with the code of the
first check that they fail. -/
theorem decodeMessage_examine (data : Bytes) :
    match examine data with
    | .ok p => ∃ m, decodeMessage data = .ok m ∧ m.view view = p.mapKv toMap
    | .error c => ∃ e, decodeMessage data = .error e ∧ e.code = c.code ∧ e.Short data.length := by
  have hspec := decodeWith_eq_within headerErrors unknownType data
    fun _ hbody => sound_taggedReaders hbody
  cases h : examine data with
  | ok p =>
      rw [h] at hspec
      obtain ⟨m, hm, hview⟩ := hspec
      exact ⟨m, hm, by rw [hview, Message.mapTexts_id]; rfl⟩
  | error c =>
      rw [h] at hspec
      obtain ⟨e, he, hreports⟩ := hspec
      refine ⟨e, he, ?_, short_of_reports hreports⟩
      cases c with
      | decode => obtain ⟨_, rfl, -⟩ | ⟨_, rfl⟩ := hreports <;> rfl
      | unknownMessageType | badMagic | badVersion =>
          obtain ⟨_, rfl⟩ := hreports
          rfl
      | truncatedPayload => obtain ⟨_, -, rfl⟩ | ⟨_, -, _, -, rfl⟩ := hreports <;> rfl

end Read

section RoundTrips

theorem mapKv_listed (m : Message) : (m.view listed).mapKv toMap = m.view view := by
  cases m with
  | echoResponse s rs =>
      simp only [Tagged.view, Protocol.Message.mapKv, Protocol.Message.mapResults, listed, view,
        List.map_map, Function.comp_def, Protocol.EchoResult.mapKv]
      rfl
  | _ => rfl

/-- Encoding and decoding gives an equal message. -/
def RoundTrips (m : Message) : Prop :=
  ∃ b m', encode m = .ok b ∧ decodeMessage b = .ok m' ∧ m'.view view = m.view view

end RoundTrips

end HelloWebsocket.Python
