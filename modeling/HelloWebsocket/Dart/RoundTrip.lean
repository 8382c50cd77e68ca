import HelloWebsocket.Wire.Words
import HelloWebsocket.Protocol.Marks
import HelloWebsocket.Jvm.Reader
import HelloWebsocket.Dart.Codec

/-!
# Round trips of the Dart codec

`encode` writes the frame of the message that the fields stand for, and `decodeMessage`
returns what a frame carries with every string stripped of a leading byte order mark.
-/

namespace HelloWebsocket.Dart

open BigEndian Utf8 Parsing Writing Words Protocol
open Jvm (LinkedHashMap octetsOf)
open Positions (cursor)

section Writer

/-- The octets `toBytes()` returns; a list takes whatever is added. -/
def sink : Sink ByteWriter := ⟨ByteWriter.toBytes, fun _ => True, fun _ _ => trivial⟩

theorem writes_addAll (vs : List Int64) : Writes sink (addAll vs) (vs.map lowOctet) := by
  intro w _
  exact ⟨⟨w.buf ++ vs⟩, rfl, List.map_append⟩

theorem octets_word (v : Int64) :
    [(v >>> 24) &&& 0xFF, (v >>> 16) &&& 0xFF, (v >>> 8) &&& 0xFF, v &&& 0xFF].map lowOctet =
      beBytes 4 v.toBitVec.toNat :=
  low_octets_int64 v

theorem octets_length (n : Nat) : beBytes 4 (Int64.ofNat n).toBitVec.toNat = u32 n := by
  have hbits : (Int64.ofNat n).toBitVec.toNat = n % 2 ^ 64 := BitVec.toNat_ofNat n 64
  rw [hbits, u32, show 2 ^ 64 = 256 ^ 8 from rfl, beBytes_mod 4 n 8 (by decide)]

theorem toNat_and_mask (v : Int64) :
    (v &&& 0xFFFFFFFF).toBitVec.toNat = v.toBitVec.toNat % 2 ^ 32 := by
  rw [Int64.toBitVec_and, BitVec.toNat_and, show (0xFFFFFFFF : Int64).toBitVec.toNat = 2 ^ 32 - 1 from rfl,
    Nat.and_two_pow_sub_one_eq_mod]

theorem writes_writeU32 (v : Int64) : Writes sink (writeU32 v) (beBytes 4 v.toBitVec.toNat) := by
  rw [← octets_word]
  exact writes_addAll _

theorem writes_count (n : Nat) : Writes sink (writeU32 (Int64.ofNat n)) (u32 n) := by
  rw [← octets_length]
  exact writes_writeU32 _

theorem writes_writeU8 (v : Int64) : Writes sink (writeU8 v) (u8 v.toInt) := by
  have hoctet : u8 v.toInt = [v &&& 0xFF].map lowOctet := by
    have h := octet_int64 v 0 (n := 0) (by decide) (by omega)
    have hz : v >>> 0 = v := by
      apply Int64.toBitVec_inj.mp
      simp
    have hmod : UInt8.ofNat (twos 64 v.toInt) = UInt8.ofNat (twos 8 v.toInt) := by
      apply UInt8.toNat_inj.mp
      rw [UInt8.toNat_ofNat', UInt8.toNat_ofNat']
      simp only [twos]
      omega
    rw [hz, pow_zero, Nat.div_one, ← twos_int64, hmod] at h
    rw [List.map_singleton, lowOctet, h, u8]
    simp [beBytes]
  rw [hoctet]
  exact writes_addAll _

theorem writes_writeI32 (v : Int64) : Writes sink (writeI32 v) (i32 v.toInt) := by
  have hbits : twos 32 v.toInt = (v &&& 0xFFFFFFFF).toBitVec.toNat := by
    rw [toNat_and_mask, ← twos_int64]
    simp only [twos]
    omega
  rw [i32, hbits]
  exact writes_writeU32 _

theorem writes_writeI64 (v : Int64) : Writes sink (writeI64 v) (i64 v.toInt) := by
  have hlt := v.toBitVec.isLt
  have hhigh : ((v >>> 32) &&& 0xFFFFFFFF).toBitVec.toNat = v.toBitVec.toNat / 256 ^ 4 := by
    have es : (32 : Int64).toBitVec.smod 64 = 32#64 := by decide
    have hwindow := congrArg BitVec.toNat (window_sshiftRight v.toBitVec (k := 32) (m := 32) le_rfl)
    rw [toNat_window, BitVec.toNat_setWidth] at hwindow
    rw [toNat_and_mask, Int64.toBitVec_shiftRight, es, BitVec.sshiftRight']
    exact hwindow.trans (by omega)
  have hlow : beBytes 4 (v &&& 0xFFFFFFFF).toBitVec.toNat = beBytes 4 v.toBitVec.toNat := by
    rw [toNat_and_mask]
    exact beBytes_mod 4 _ 4 le_rfl
  rw [i64, twos_int64, beBytes_add 4 4, ← hhigh, ← hlow]
  exact writes_bind (writes_writeU32 _) (writes_writeU32 _)

theorem writes_writeString (s : String) : Writes sink (writeString s) (string (utf8 s)) := by
  have hoctets : ((utf8 s).map fun octet => octet.toUInt64.toInt64).map lowOctet = utf8 s := by
    rw [List.map_map]
    refine (List.map_congr_left fun b _ => ?_).trans (List.map_id _)
    apply UInt8.toBitVec_inj.mp
    change ((b.toBitVec.setWidth 64).signExtend 32).signExtend 8 = b.toBitVec
    rw [BitVec.signExtend_eq_setWidth_of_le _ (by omega),
      BitVec.signExtend_eq_setWidth_of_le _ (by omega), BitVec.setWidth_setWidth_of_le _ (by omega),
      BitVec.setWidth_setWidth_of_le _ (by omega), BitVec.setWidth_eq]
  have hwrite := writes_addAll ((utf8 s).map fun octet => octet.toUInt64.toInt64)
  rw [hoctets] at hwrite
  exact writes_bind (writes_count _) hwrite

theorem writes_writeKV (m : LinkedHashMap) :
    Writes sink (writeKV m) (kv (octetsOf m.entries)) := by
  have hentry (e : String × String) :
      Writes sink (writeString e.1 >>= fun _ => writeString e.2) (entry (utf8 e.1, utf8 e.2)) :=
    writes_bind (writes_writeString e.1) (writes_writeString e.2)
  rw [kv, octetsOf, List.length_map, List.flatMap_map]
  exact writes_bind (writes_count _) (writes_forM hentry m.entries)

/-- What a message says, with the entries of its maps in the order of iteration. -/
def listed : Reading String Int64 Int64 EchoResult Entries :=
  ⟨utf8, Int64.toInt, Int64.toInt, fun r => ⟨r.idx.toInt, r.type.toInt, octetsOf r.kv.entries⟩⟩

theorem sound_taggedWriters : taggedWriters.Sound sink listed where
  writeString := writes_writeString
  writeI64 := writes_writeI64
  writeI32 := writes_writeI32
  writeEchoResults rs := by
    have hresult (r : EchoResult) :
        Writes sink (do writeI64 r.idx; writeU8 r.type; writeKV r.kv)
          (echoResult (listed.result r)) := by
      rw [echoResult, List.append_assoc]
      exact writes_bind (writes_writeI64 r.idx)
        (writes_bind (writes_writeU8 r.type) (writes_writeKV r.kv))
    rw [List.flatMap_map]
    exact writes_bind (writes_count rs.length) (writes_forM hresult rs)

end Writer

section Reader

variable {data : Bytes}

/-- The decoder may throw anything. -/
abbrev reading (data : Bytes) : Cursor Thrown Positions.Reader UInt8 := cursor data fun _ => True

theorem refines_readOctets (n : Nat) (kind : String) :
    Refines (reading data) (fun b b' => b = b') (readOctets n kind) (takeN n) :=
  Positions.refines_next n fun _ _ => trivial

theorem toInt_octet64 (b : UInt8) : b.toUInt64.toInt64.toInt = b.toNat := by
  have h := toInt_of_uint32 b.toUInt32
  have hwide : b.toUInt32.toUInt64 = b.toUInt64 := by
    apply UInt64.toNat_inj.mp
    simp
  rwa [hwide, UInt8.toNat_toUInt32] at h

theorem refines_readU8 :
    Refines (reading data) (fun v n => v.toInt = n) readU8 parseU8 := by
  intro r input hr
  refine refinesAt_bind (refines_readOctets 1 "u8" r input hr) ?_
  rintro b _ s rest hp rfl hs
  obtain ⟨_, ⟨-, hlen⟩, -⟩ := (exact_takeN 1 _ _ _).mp hp
  obtain ⟨x, rfl⟩ := List.length_eq_one_iff.mp hlen
  refine refines_pure ?_ s rest hs
  rw [List.getD_cons_zero, toInt_octet64]
  simp [beNat]

theorem refines_readU32 :
    Refines (reading data) (fun (v : Int64) (n : Nat) => v.toInt = n) readU32 parseU32 := by
  intro r input hr
  refine refinesAt_bind (refines_readOctets 4 "u32" r input hr) ?_
  rintro b _ s rest hp rfl hs
  obtain ⟨_, ⟨-, hlen⟩, -⟩ := (exact_takeN 4 _ _ _).mp hp
  match b, hlen with
  | [b0, b1, b2, b3], _ =>
      refine refines_pure ?_ s rest hs
      exact toInt_or_octets_int64 b0 b1 b2 b3

theorem refines_readI32 : Refines (reading data) (fun v n => v.toInt = n) readI32 parseI32 := by
  rw [parseI32_eq]
  refine refines_map refines_readU32 fun v n hv => ?_
  have hl := Int.le_bmod (x := (n : Int)) (m := 2 ^ 32) (by decide)
  have hu := Int.bmod_lt (x := (n : Int)) (m := 2 ^ 32) (by decide)
  have hsize : Int64.size = 2 ^ 64 := by decide
  rw [toSigned32, hv, signed, Int64.toInt_ofInt, hsize]
  exact Int.bmod_eq_of_le (by omega) (by omega)

/-- Two halves that were read are joined to a signed number. -/
theorem toInt_join {hi lo : Int64} {nh nl : Nat} (hhi : hi.toInt = nh) (hlo : lo.toInt = nl)
    (hh : nh < 2 ^ 32) (hl : nl < 2 ^ 32) :
    ((hi <<< 32) ||| lo).toInt = signed 64 (nh * 2 ^ 32 + nl) := by
  have hword {v : Int64} {n : Nat} (hv : v.toInt = n) (hn : n < 2 ^ 32) :
      v = (UInt32.ofNat n).toUInt64.toInt64 := by
    apply Int64.toInt_inj.mp
    rw [toInt_of_uint32, UInt32.toNat_ofNat_of_lt' hn, hv]
  have h := toInt_or_halves (UInt32.ofNat nh) (UInt32.ofNat nl)
  rwa [← hword hhi hh, ← hword hlo hl, UInt32.toNat_ofNat_of_lt' hh,
    UInt32.toNat_ofNat_of_lt' hl] at h

theorem refines_readI64 : Refines (reading data) (fun v n => v.toInt = n) readI64 parseI64 := by
  intro r input hr
  refine Positions.refinesAt_ensure (fun _ _ => trivial) hr (fun hshort => ?_) fun _ => ?_
  · rw [parseI64, bind_apply, takeN_eq_none hshort, Option.bind_none]
  rw [parseI64_eq]
  refine refinesAt_bind (refines_readU32 r input hr) fun hi nh s rest hp hhi hs => ?_
  refine refinesAt_bind (refines_readU32 s rest hs) fun lo nl s' rest' hp' hlo hs' => ?_
  obtain ⟨_, ⟨hh, -⟩, -⟩ := (exact_parseU32 _ _ _).mp hp
  obtain ⟨_, ⟨hl, -⟩, -⟩ := (exact_parseU32 _ _ _).mp hp'
  refine refines_pure ?_ s' rest' hs'
  exact toInt_join hhi hlo hh hl

/-- A string comes back without its leading mark. -/
theorem refines_readString :
    Refines (reading data) (fun s b => utf8 s = unmark b) readString parseString := by
  refine refines_bind refines_readU32 fun ln n hln => ?_
  rw [hln, Int.toNat_natCast]
  exact Positions.refines_nextText decodeUnmarked? n _ _ (fun _ _ => trivial) (fun _ => trivial)
    (fun _ => exists_decodeUnmarked?) (fun _ => decodeUnmarked?_eq_none)

theorem refines_readEntry : Refines (reading data)
    (fun e b => (utf8 e.1, utf8 e.2) = (unmark b.1, unmark b.2)) readEntry parseEntry := by
  refine refines_bind refines_readString fun k k' hk => ?_
  refine refines_bind refines_readString fun v v' hv => refines_pure ?_
  rw [hk, hv]

theorem lt_mul_of_count {count : Int64} {n left k : Nat} (hcount : count.toInt = n)
    (h : count.toInt > (left / k : Nat)) (hk : 0 < k) : left < n * k := by
  have hlt : left / k < n := by omega
  rwa [Nat.div_lt_iff_lt_mul hk] at hlt

theorem refines_readKV :
    Refines (reading data) (fun m es => m.toMap = strippedMap es) readKV parseKv := by
  refine refines_bind refines_readU32 fun count n hn r input hr => ?_
  refine refinesAt_step (a := r.remaining) rfl ?_
  rw [Positions.remaining_of_stands hr]
  refine refinesAt_counted hr exact_parseEntry length_entry_ge
    (fun hc => ⟨lt_mul_of_count hn hc (by decide), trivial⟩) (fun _ => by rw [hn]; rfl)
    refines_readEntry fun as bs has => ?_
  exact Jvm.toMap_foldl_put_empty (List.forall₂_map_right_iff.mpr has)

/-- What a message says. -/
def view : Reading String Int64 Int64 EchoResult KvMap :=
  ⟨utf8, Int64.toInt, Int64.toInt, fun r => ⟨r.idx.toInt, r.type.toInt, r.kv.toMap⟩⟩

theorem refines_readEchoResult : Refines (reading data)
    (fun r b => view.result r = b.mapKv strippedMap) readEchoResult parseEchoResult := by
  refine refines_bind refines_readI64 fun i i' hi => ?_
  refine refines_bind refines_readU8 fun t t' ht => ?_
  refine refines_bind refines_readKV fun m es hm => refines_pure ?_
  simp only [view, Protocol.EchoResult.mapKv, hi, ht, hm]

theorem refines_readEchoResults : Refines (reading data)
    (fun rs bs => rs.map view.result = bs.map (·.mapKv strippedMap)) readEchoResults
      parseEchoResults := by
  refine refines_bind refines_readU32 fun count n hn r input hr => ?_
  refine refinesAt_step (a := r.remaining) rfl ?_
  rw [Positions.remaining_of_stands hr]
  refine refinesAt_counted hr exact_parseEchoResult length_echoResult_ge
    (fun hc => ⟨lt_mul_of_count hn hc (by decide), trivial⟩) (fun _ => by rw [hn]; rfl)
    refines_readEchoResult fun as bs has => ?_
  rw [foldl_push, List.nil_append]
  induction has with
  | nil => rfl
  | cons hab _ ih => rw [List.map_cons, List.map_cons, hab, ih]

theorem sound_taggedReaders (data : Bytes) :
    taggedReaders.Sound (reading data) view unmark (·.mapKv strippedMap) :=
  ⟨refines_readString, refines_readI64, refines_readI32, refines_readEchoResults⟩

end Reader

section Messages

theorem msgType?_eq_some_iff {type : Int64} {t : MsgType} :
    msgType? type = some t ↔ t.code.toUInt64.toInt64 = type := by
  constructor
  · intro h
    simpa using List.find?_some h
  · rintro rfl
    cases t <;> decide

/-- The fields that were filled in are the fields of the type. -/
theorem fields_fill (type : Int64) (fields : Fields) :
    (Message.fill type fields).fields fields.type = some fields := by
  cases fields <;> rfl

theorem type_of_fields {m : Message} {t : MsgType} {fields : Fields} (h : m.fields t = some fields) :
    fields.type = t := by
  cases t <;>
    simp only [Message.fields, Option.bind_eq_bind, Option.bind_eq_some_iff, Option.pure_def,
      Option.some.injEq] at h <;>
    grind [Tagged.type]

/-- The fields of the type that a message has. -/
def Message.content (m : Message) : Option Fields := (msgType? m.type).bind m.fields

/-- `encode` writes the frame of what the fields stand for. -/
theorem encode_eq {m : Message} {fields : Fields} (h : m.content = some fields) :
    m.encode = .ok (frame (fields.view listed)) := by
  obtain ⟨t, ht, hfields⟩ := Option.bind_eq_some_iff.mp h
  obtain ⟨w, hw, ho⟩ := writes_writeTagged sound_taggedWriters fields ⟨[]⟩ trivial
  have hbytes : w.toBytes = payload (fields.view listed) := ho
  have htype : (fields.view listed).type = t := by
    rw [Tagged.type_view, type_of_fields hfields]
  rw [Message.encode, ht]
  simp only [hfields, hw, encodeFrame, hbytes, octets_word, octets_length]
  rw [frame, envelope, htype]

theorem mapKv_listed (fields : Fields) : (fields.view listed).mapKv toMap = fields.view view := by
  cases fields with
  | echoResponse s rs =>
      simp only [Tagged.view, Protocol.Message.mapKv, Protocol.Message.mapResults, listed, view,
        List.map_map, Function.comp_def, Protocol.EchoResult.mapKv]
      rfl
  | _ => rfl

/-- `decodeMessage` returns what the octets carry, but for the marks. -/
theorem decodeMessage_eq (data : Bytes) :
    match examine data with
    | .ok p => ∃ fields : Fields,
        decodeMessage data = .ok (.fill p.type.code.toUInt64.toInt64 fields) ∧
        fields.view view = (p.mapTexts unmark).mapKv strippedMap
    | .error _ => ∃ e, decodeMessage data = .error e := by
  have hspec := decodeWith_eq headerErrors
    (fun type => .exception ("unknown message type: 0x" ++ Hex.signed type.toNat))
    sound_taggedReaders data
  cases h : examine data with
  | ok p =>
      rw [h] at hspec
      obtain ⟨fields, hfields, hview⟩ := hspec
      have htype : fields.type = p.type := by
        rw [← Tagged.type_view view, hview, Protocol.Message.type_mapResults,
          Protocol.Message.type_mapTexts]
      refine ⟨fields, ?_, hview⟩
      rw [decodeMessage, hfields, ← htype]
      rfl
  | error c =>
      rw [h] at hspec
      obtain ⟨e, he, -⟩ := hspec
      exact ⟨e, by rw [decodeMessage, he]; rfl⟩

/-- Encoding and decoding gives a message of the same type, with the same fields of that type. -/
def RoundTrips (m : Message) : Prop :=
  ∃ b m' fields fields', m.encode = .ok b ∧ decodeMessage b = .ok m' ∧ m'.type = m.type ∧
    m.content = some fields ∧ m'.content = some fields' ∧ fields'.view view = fields.view view

theorem encode_eq_ok {m : Message} {b : Bytes} (h : m.encode = .ok b) : m.content.isSome := by
  rw [Message.encode] at h
  rw [Message.content]
  cases ht : msgType? m.type with
  | none =>
      rw [ht] at h
      cases h
  | some t =>
      rw [ht] at h
      cases hf : m.fields t with
      | none =>
          simp only [hf] at h
          cases h
      | some fields => rw [Option.bind_some, hf, Option.isSome_some]

@[simp] theorem type_fill (type : Int64) (fields : Fields) :
    (Message.fill type fields).type = type := by
  cases fields <;> rfl

theorem content_fill (fields : Fields) :
    (Message.fill fields.type.code.toUInt64.toInt64 fields).content = some fields := by
  rw [Message.content, type_fill, msgType?_eq_some_iff.mpr rfl, Option.bind_some, fields_fill]

/-- A payload that is longer than its length field can say is rejected. -/
theorem decodeMessage_of_long {p : Protocol.Message Entries} (h : 2 ^ 32 ≤ (payload p).length) :
    ∃ e, decodeMessage (frame p) = .error e := by
  have hspec := decodeMessage_eq (frame p)
  cases hx : examine (frame p) with
  | error c =>
      rw [hx] at hspec
      exact hspec
  | ok q =>
      obtain ⟨-, flags, extra, hframe, hlen⟩ :=
        parseFrame_eq_some_iff.mp (examine_eq_ok_iff.mp hx)
      have hlength := congrArg List.length hframe
      rw [frame, length_envelope, length_envelope] at hlength
      omega

theorem roundTrips_iff_of_content {m : Message} {fields : Fields} (h : m.content = some fields) :
    RoundTrips m ↔ (payload (fields.view listed)).length < 2 ^ 32 ∧
      (fields.view listed).InRange ∧ ∀ b ∈ (fields.view listed).texts, ¬ Marked b := by
  set p := fields.view listed with hp
  have hencode := encode_eq h
  obtain ⟨t, ht, hfields⟩ := Option.bind_eq_some_iff.mp h
  have htype : m.type = fields.type.code.toUInt64.toInt64 := by
    rw [type_of_fields hfields, msgType?_eq_some_iff.mp ht]
  rcases Nat.lt_or_ge (payload p).length (2 ^ 32) with hlen | hlen
  · have hexamine : examine (frame p) = .ok p.wrap := by
      rw [examine_eq_ok_iff]
      exact parseFrame_frame (fun b hb => Tagged.wellFormed_of_mem_texts wellFormed_utf8
        (fun r => Jvm.wellFormed_octetsOf r.kv.entries) hb) hlen
    have hspec := decodeMessage_eq (frame p)
    rw [hexamine] at hspec
    obtain ⟨fields', hm', hview⟩ := hspec
    have hkind : fields'.type = fields.type := by
      rw [← Tagged.type_view view fields', hview, ← Tagged.type_view listed fields, ← hp,
        Protocol.Message.mapKv, Protocol.Message.type_mapResults, Protocol.Message.type_mapTexts,
        Message.wrap, Message.type_mapInts]
    have hcode : p.wrap.type = fields'.type := by
      rw [hkind, Message.wrap, Message.type_mapInts, hp, Tagged.type_view]
    rw [hcode] at hm'
    have hnodup : ∀ es ∈ p.maps, (es.map Prod.fst).Nodup := by
      intro es hes
      obtain ⟨r, rfl⟩ := Tagged.exists_result_of_mem_maps hes
      exact r.kv.nodup_octetsOf
    have hsame : fields'.view view = fields.view view ↔
        p.InRange ∧ ∀ b ∈ p.texts, ¬ Marked b := by
      rw [hview, ← mapKv_listed, ← hp, Protocol.Message.survives_iff,
        Protocol.Message.unmarked_iff hnodup]
    rw [← hsame]
    constructor
    · rintro ⟨b, m', g, g', hb, hd, -, hg, hg', hsurvives⟩
      rw [hencode] at hb
      cases hb
      rw [hm'] at hd
      cases hd
      rw [h] at hg
      rw [content_fill] at hg'
      cases hg
      cases hg'
      exact ⟨hlen, hsurvives⟩
    · rintro ⟨-, hsurvives⟩
      refine ⟨_, _, fields, fields', hencode, hm', ?_, h, content_fill fields', hsurvives⟩
      rw [type_fill, htype, hkind]
  · obtain ⟨e, he⟩ := decodeMessage_of_long hlen
    constructor
    · rintro ⟨b, m', -, -, hb, hd, -⟩
      rw [hencode] at hb
      cases hb
      rw [he] at hd
      cases hd
    · rintro ⟨hlt, -⟩
      omega

/-- Exactly the messages of a registered type come back whose fields are there and in range, fit
into a frame and have no string that begins with a byte order mark. -/
theorem roundTrips_iff (m : Message) :
    RoundTrips m ↔ ∃ fields, m.content = some fields ∧
      (payload (fields.view listed)).length < 2 ^ 32 ∧
      (fields.view listed).InRange ∧ ∀ b ∈ (fields.view listed).texts, ¬ Marked b := by
  constructor
  · intro h
    have hsome : m.content.isSome := by
      obtain ⟨b, -, -, -, hb, -⟩ := h
      exact encode_eq_ok hb
    obtain ⟨fields, hfields⟩ := Option.isSome_iff_exists.mp hsome
    exact ⟨fields, hfields, (roundTrips_iff_of_content hfields).mp h⟩
  · rintro ⟨fields, hfields, hrest⟩
    exact (roundTrips_iff_of_content hfields).mpr hrest

/-- A HELLO whose language begins with a byte order mark comes back without it. -/
theorem hello_loses_mark :
    ({ type := 0x01, clientLanguage := some "\uFEFFa" } : Message).encode =
      .ok (frame (.hello (utf8 "\uFEFFa"))) ∧
    decodeMessage (frame (.hello (utf8 "\uFEFFa"))) =
      .ok { type := 0x01, clientLanguage := some "a" } ∧
    ¬ RoundTrips { type := 0x01, clientLanguage := some "\uFEFFa" } := by
  have hcontent : ({ type := 0x01, clientLanguage := some "\uFEFFa" } : Message).content =
      some (.hello "\uFEFFa") := by decide
  refine ⟨encode_eq hcontent, by decide +kernel, ?_⟩
  rw [roundTrips_iff_of_content hcontent]
  rintro ⟨-, -, htexts⟩
  refine htexts _ (List.mem_singleton.mpr rfl) (marked_utf8_iff.mpr ⟨"a", ?_⟩)
  decide

end Messages

end HelloWebsocket.Dart
