import HelloWebsocket.Node.Maps
import HelloWebsocket.TypeScript.Codec

/-!
# Round trips of the Node.js and TypeScript codecs

Which strings, maps and messages come back as they were. A leading byte order mark is
lost by `TextDecoder`, and the property `__proto__` by the assignment `m[k] = v`.
-/

namespace HelloWebsocket.Node

open BigEndian Utf8 Parsing Writing Words Protocol
open Jvm (octetsOf)

section Strings

/-- Reading a written string gives it back and steps over its octets, wherever they stand. -/
def StringSurvives (write : String → WriterM Unit) (read : ReaderM String) (s : String) : Prop :=
  ∃ w, write s ⟨[]⟩ = .ok () w ∧ ∀ front rest,
    read ⟨front ++ (w.data ++ rest), front.length⟩ =
      .ok s ⟨front ++ (w.data ++ rest), front.length + (4 + (utf8 s).length)⟩

theorem parseString_string {b : Bytes} (h : IsText b) (rest : Bytes) :
    parseString (string b ++ rest) = some (b, rest) :=
  (exact_parseString _ _ _).mpr ⟨_, ⟨h, rfl⟩, rfl⟩

theorem stringSurvives_iff (s : String) : StringSurvives writeString readString s ↔
    (utf8 s).length < 2 ^ 32 ∧ ¬ ∃ t, s = "\uFEFF" ++ t := by
  obtain ⟨w, hw, ho⟩ := writes_writeString s ⟨[]⟩ trivial
  have hdata : w.data = string (utf8 s) := ho
  rw [← marked_utf8_iff]
  constructor
  · rintro ⟨w', hw', hread⟩
    rw [hw] at hw'
    cases hw'
    have hread := hread [] []
    rw [List.nil_append, List.append_nil, hdata] at hread
    obtain ⟨b, rest, hparse, hs, -⟩ :=
      Positions.ok_of_refines refines_readString (Positions.stands_zero _) hread
    -- What is read has at most as many octets as the length field says.
    have hshort : (utf8 s).length < 2 ^ 32 := by
      obtain ⟨_, ⟨⟨-, hlt⟩, -⟩, -⟩ := (exact_parseString _ _ _).mp hparse
      have hle := length_unmark_le b
      rw [← hs] at hle
      omega
    have hwhole := parseString_string ⟨wellFormed_utf8 s, hshort⟩ []
    rw [List.append_nil, hparse] at hwhole
    cases hwhole
    exact ⟨hshort, unmark_eq_self_iff.mp hs.symm⟩
  · rintro ⟨hlen, hmark⟩
    refine ⟨w, hw, fun front rest => ?_⟩
    rw [hdata]
    have hparse := parseString_string ⟨wellFormed_utf8 s, hlen⟩ rest
    obtain ⟨s', r, hread, hs, hr⟩ := (refinesAt_some hparse).mp
      (refines_readString _ _ (Positions.stands_append front (string (utf8 s) ++ rest)))
    rw [unmark_of_not_marked hmark] at hs
    rw [← List.append_assoc] at hr
    rw [hread, utf8_injective hs, Positions.eq_of_stands hr, List.append_assoc,
      List.length_append, length_string]

end Strings

section Messages

/-- What a message says, with the properties of its objects in the order of `Object.keys`. -/
def listed : Reading String Int Int ResultObject Entries :=
  ⟨utf8, id, id, fun r => ⟨r.idx, r.type, octetsOf r.kv.enumerate⟩⟩

theorem mapKv_listed (m : Message) : (m.view listed).mapKv toMap = m.view view := by
  cases m with
  | echoResponse s rs =>
      simp only [Tagged.view, Protocol.Message.mapKv, Protocol.Message.mapResults, listed, view,
        List.map_map, Function.comp_def, Protocol.EchoResult.mapKv, toMap_enumerate]
      rfl
  | _ => rfl

theorem wellFormed_of_mem_texts {m : Message} {b : Bytes} (h : b ∈ (m.view listed).texts) :
    WellFormed b :=
  Tagged.wellFormed_of_mem_texts wellFormed_utf8
    (fun r => Jvm.wellFormed_octetsOf r.kv.enumerate) h

/-- An encoder writes the frame of the message, or throws when the payload is too long. -/
theorem encodeWith_writeTagged {W : TaggedWriters WriterM String Int Int ResultObject}
    (hW : W.Sound sink listed) (m : Message) : encodeWith m.type (writeTagged W m) =
      if (payload (m.view listed)).length < 2 ^ 32 then .ok (frame (m.view listed))
      else .error .rangeError := by
  have hwrites := writes_writeTagged hW m
  split
  · next hlen => exact encodeWith_eq hwrites (m.type_view listed) hlen
  · next hlen =>
      obtain ⟨w, hw, ho⟩ := hwrites ⟨[]⟩ trivial
      have hdata : w.data = payload (m.view listed) := ho
      rw [encodeWith, hw]
      change encodeFrame _ w.data = _
      rw [encodeFrame, hdata, if_neg hlen]

/-- The message can be encoded, and decoding what was written gives its fields back. -/
def Survives (encode : Message → Except Error Bytes) (decode : Bytes → Except Failure Message)
    (m : Message) : Prop :=
  ∃ b m', encode m = .ok b ∧ decode b = .ok m' ∧ m'.view view = m.view view

/-- The messages without a string or property that the decoder changes. -/
structure Faithful (p : Protocol.Message Entries) : Prop where
  fits : (payload p).length < 2 ^ 32
  inRange : p.InRange
  unmarked : ∀ b ∈ p.texts, ¬ Marked b
  keys : ∀ es ∈ p.maps, ∀ e ∈ es, e.1 ≠ utf8 "__proto__"

/-- Leaving the strings and maps alone means that there is nothing to change. -/
theorem unchanged_iff (m : Message) :
    ((∀ b ∈ (m.view listed).strings, unmark b = b) ∧
      ∀ es ∈ (m.view listed).maps, objectMap es = toMap es) ↔
    (∀ b ∈ (m.view listed).texts, ¬ Marked b) ∧
      ∀ es ∈ (m.view listed).maps, ∀ e ∈ es, e.1 ≠ utf8 "__proto__" := by
  have hnodup : ∀ es ∈ (m.view listed).maps, (es.map Prod.fst).Nodup := by
    intro es hes
    obtain ⟨r, rfl⟩ := Tagged.exists_result_of_mem_maps hes
    exact nodup_enumerate r.kv
  have hmaps : (∀ es ∈ (m.view listed).maps, objectMap es = toMap es) ↔
      ∀ es ∈ (m.view listed).maps, ∀ e ∈ es,
        e.1 ≠ utf8 "__proto__" ∧ ¬ Marked e.1 ∧ ¬ Marked e.2 :=
    forall₂_congr fun es hes => objectMap_eq_iff.trans (assignable_iff_of_nodup (hnodup es hes))
  simp only [hmaps, unmark_eq_self_iff, Protocol.Message.mem_texts_iff]
  constructor
  · rintro ⟨hstrings, hentries⟩
    refine ⟨?_, fun es hes e he => (hentries es hes e he).1⟩
    rintro b (hb | ⟨es, hes, e, he, rfl | rfl⟩)
    · exact hstrings b hb
    · exact (hentries es hes e he).2.1
    · exact (hentries es hes e he).2.2
  · rintro ⟨htexts, hkeys⟩
    refine ⟨fun b hb => htexts b (Or.inl hb), fun es hes e he => ⟨hkeys es hes e he, ?_, ?_⟩⟩
    · exact htexts e.1 (Or.inr ⟨es, hes, e, he, Or.inl rfl⟩)
    · exact htexts e.2 (Or.inr ⟨es, hes, e, he, Or.inr rfl⟩)

/-- With an encoder that writes frames, exactly the faithful messages survive. -/
theorem survives_iff_of_encode {encode : Message → Except Error Bytes} {m : Message}
    (h : encode m = if (payload (m.view listed)).length < 2 ^ 32 then .ok (frame (m.view listed))
      else .error .rangeError) :
    Survives encode decodeMessage m ↔ Faithful (m.view listed) := by
  set p := m.view listed with hp
  by_cases hlen : (payload p).length < 2 ^ 32
  · rw [if_pos hlen] at h
    have hexamine : examine (frame p) = .ok p.wrap := by
      rw [examine_eq_ok_iff]
      exact parseFrame_frame (fun b hb => wellFormed_of_mem_texts hb) hlen
    obtain ⟨m', hm', hview⟩ := decodeMessage_of_ok hexamine
    have hsame : m'.view view = m.view view ↔ Faithful p := by
      rw [hview, ← mapKv_listed, ← hp, Protocol.Message.survives_iff, unchanged_iff]
      constructor
      · rintro ⟨hrange, htexts, hkeys⟩
        exact ⟨hlen, hrange, htexts, hkeys⟩
      · rintro ⟨-, hrange, htexts, hkeys⟩
        exact ⟨hrange, htexts, hkeys⟩
    rw [← hsame]
    constructor
    · rintro ⟨b, m'', hb, hm'', hsurvives⟩
      rw [h] at hb
      cases hb
      rw [hm'] at hm''
      cases hm''
      exact hsurvives
    · exact fun hsurvives => ⟨_, m', h, hm', hsurvives⟩
  · rw [if_neg hlen] at h
    constructor
    · rintro ⟨b, -, hb, -⟩
      rw [h] at hb
      cases hb
    · exact fun hfaithful => absurd hfaithful.fits hlen

end Messages

section Calls

/-- The writes of the `encode` functions, for the messages that the decoder returns. -/
def taggedWriters : TaggedWriters WriterM String Int Int ResultObject where
  writeString := writeString
  writeI64 := writeI64
  writeI32 := writeI32
  writeEchoResults rs := do
    writeU32 (rs.map ResultObject.toEchoResult).length
    (rs.map ResultObject.toEchoResult).forM fun r => do
      writeI64 r.idx
      writeU8 r.type
      writeKV r.kv

theorem run_call (m : Message) : (call m).run = encodeWith m.type (writeTagged taggedWriters m) := by
  cases m <;> rfl

theorem sound_taggedWriters : taggedWriters.Sound sink listed where
  writeString := writes_writeString
  writeI64 := writes_writeI64
  writeI32 := writes_writeI32
  writeEchoResults rs := by
    have hloop := writes_forM writes_result (rs.map ResultObject.toEchoResult)
    have hcount := writes_count (rs.map ResultObject.toEchoResult).length
    rw [List.flatMap_map] at hloop ⊢
    rw [← List.length_map ResultObject.toEchoResult]
    exact writes_bind hcount hloop

end Calls

section Entries

/-- The object has the bindings of the wire entries, the last one of a key winning, and writing it
emits each of them once. -/
def EntriesSurvive (write : PlainObject → WriterM Unit) (m : PlainObject) (es : Entries) : Prop :=
  m.toMap = toMap es ∧ ∃ out, ListedBy (toMap es) out ∧ Writes sink (write m) (kv out)

theorem entriesSurvive_iff {write : PlainObject → WriterM Unit} {m : PlainObject} {es : Entries}
    (hwrite : Writes sink (write m) (kv (octetsOf m.enumerate))) (hm : m.toMap = objectMap es) :
    EntriesSurvive write m es ↔ Assignable es := by
  rw [← objectMap_eq_iff, ← hm]
  refine ⟨And.left, fun heq => ⟨heq, octetsOf m.enumerate, ?_, hwrite⟩⟩
  rw [← heq, ← toMap_enumerate]
  exact listedBy_toMap (nodup_enumerate m)

/-- What `readKV` accepts is a count and that many entries, and it leaves an object of them. -/
theorem exists_entries_of_readKV {front input : Bytes} {m : PlainObject} {r : Positions.Reader}
    (h : readKV ⟨front ++ input, front.length⟩ = .ok m r) :
    ∃ es rest, IsKv es ∧ input = kv es ++ rest ∧ m.toMap = objectMap es := by
  obtain ⟨es, rest, hparse, hm, -⟩ :=
    Positions.ok_of_refines refines_readKV (Positions.stands_append front input) h
  obtain ⟨_, ⟨hes, rfl⟩, hinput⟩ := (exact_parseKv _ _ _).mp hparse
  exact ⟨es, rest, hes, hinput, hm⟩

end Entries

end HelloWebsocket.Node

namespace HelloWebsocket.TypeScript

open BigEndian Utf8 Parsing Writing Protocol
open Node (PlainObject ResultObject sink listed)

section Writer

theorem writes_writeI64 (v : Int) : Writes sink (writeI64 v) (i64 v) := by
  have hshift : v >>> (32 : Nat) = v / 2 ^ 32 := Int.shiftRight_eq_div_pow v 32
  have hhigh : twos 32 ((v >>> (32 : Nat)) % 2 ^ 32) = twos 64 v / 256 ^ 4 := by
    rw [hshift]
    simp only [twos]
    omega
  have hlow : beBytes 4 (twos 32 (v % 2 ^ 32)) = beBytes 4 (twos 64 v) := by
    rw [← beBytes_mod 4 (twos 64 v) 4 le_rfl]
    congr 1
    simp only [twos]
    omega
  rw [i64, beBytes_add 4 4, ← hhigh, ← hlow]
  exact writes_bind (Node.writes_writeU32 _) (Node.writes_writeU32 _)

theorem writes_writeKV (m : PlainObject) :
    Writes sink (writeKV m) (kv (Jvm.octetsOf m.enumerate)) :=
  Node.writes_writeKV m.enumerate

theorem sound_taggedWriters : taggedWriters.Sound sink listed where
  writeString := Node.writes_writeString
  writeI64 := writes_writeI64
  writeI32 := Node.writes_writeI32
  writeEchoResults rs := by
    have hresult (r : ResultObject) :
        Writes sink (do writeI64 r.idx; Node.writeU8 r.type; writeKV r.kv)
          (echoResult (listed.result r)) := by
      rw [echoResult, List.append_assoc]
      exact writes_bind (writes_writeI64 r.idx)
        (writes_bind (Node.writes_writeU8 r.type) (writes_writeKV r.kv))
    rw [List.flatMap_map]
    exact writes_bind (Node.writes_count rs.length) (writes_forM hresult rs)

end Writer

section Survivors

/-- Exactly the strings that fit their length field and do not begin with U+FEFF come back, and
exactly the messages of such strings, with numbers in range and without the key `__proto__`. -/
theorem codecs_preserve_iff (s : String) (m : Message) :
    (Node.StringSurvives Node.writeString Node.readString s ↔
      (utf8 s).length < 2 ^ 32 ∧ ¬ ∃ t, s = "\uFEFF" ++ t) ∧
    (Node.StringSurvives writeString readString s ↔
      (utf8 s).length < 2 ^ 32 ∧ ¬ ∃ t, s = "\uFEFF" ++ t) ∧
    (Node.Survives (fun m => (Node.call m).run) Node.decodeMessage m ↔
      Node.Faithful (m.view listed)) ∧
    (Node.Survives encodeMessage decodeMessage m ↔ Node.Faithful (m.view listed)) := by
  refine ⟨Node.stringSurvives_iff s, Node.stringSurvives_iff s, ?_, ?_⟩
  · apply Node.survives_iff_of_encode
    rw [Node.run_call]
    exact Node.encodeWith_writeTagged Node.sound_taggedWriters m
  · apply Node.survives_iff_of_encode
    exact Node.encodeWith_writeTagged sound_taggedWriters m

/-- A byte order mark and a letter are written as four octets and read back as the letter. -/
theorem mark_is_lost :
    (∃ w, Node.writeString "\uFEFFa" ⟨[]⟩ = .ok () w ∧
      w.data = [0, 0, 0, 4, 0xEF, 0xBB, 0xBF, 0x61]) ∧
    Node.readString ⟨[0, 0, 0, 4, 0xEF, 0xBB, 0xBF, 0x61], 0⟩ =
      .ok "a" ⟨[0, 0, 0, 4, 0xEF, 0xBB, 0xBF, 0x61], 8⟩ ∧
    ¬ Node.StringSurvives Node.writeString Node.readString "\uFEFFa" ∧
    ¬ Node.StringSurvives writeString readString "\uFEFFa" ∧
    decodeMessage (frame (.hello (utf8 "\uFEFFa"))) = .ok (.hello "a") := by
  have hlost : ¬ Node.StringSurvives Node.writeString Node.readString "\uFEFFa" := by
    rw [Node.stringSurvives_iff]
    exact fun h => h.2 ⟨"a", by decide⟩
  exact ⟨⟨_, rfl, by decide +kernel⟩, by rfl, hlost, hlost, by decide +kernel⟩

/-- Exactly the entries without the key `__proto__` and without a byte order mark in front of a key
or of a value that wins are kept by an object. -/
theorem objects_keep_iff (front input : Bytes) :
    (∀ m r, Node.readKV ⟨front ++ input, front.length⟩ = .ok m r →
      ∃ es rest, IsKv es ∧ input = kv es ++ rest ∧
        (Node.EntriesSurvive (fun m => Node.writeKV m.enumerate) m es ↔ Node.Assignable es)) ∧
    ∀ m r, readKV ⟨front ++ input, front.length⟩ = .ok m r →
      ∃ es rest, IsKv es ∧ input = kv es ++ rest ∧
        (Node.EntriesSurvive writeKV m es ↔ Node.Assignable es) := by
  constructor
  · intro m r h
    obtain ⟨es, rest, hes, hinput, hm⟩ := Node.exists_entries_of_readKV h
    exact ⟨es, rest, hes, hinput, Node.entriesSurvive_iff (Node.writes_writeKV m.enumerate) hm⟩
  · intro m r h
    obtain ⟨es, rest, hes, hinput, hm⟩ := Node.exists_entries_of_readKV h
    exact ⟨es, rest, hes, hinput, Node.entriesSurvive_iff (writes_writeKV m) hm⟩

/-- The entry `__proto__ = x` is accepted and leaves an object without properties. -/
theorem proto_is_lost :
    (∃ r, Node.readKV ⟨kv [(utf8 "__proto__", utf8 "x")], 0⟩ = .ok Jvm.LinkedHashMap.empty r ∧
      r.remaining = 0) ∧
    ¬ Node.EntriesSurvive (fun m => Node.writeKV m.enumerate) Jvm.LinkedHashMap.empty
      [(utf8 "__proto__", utf8 "x")] ∧
    ¬ Node.EntriesSurvive writeKV Jvm.LinkedHashMap.empty [(utf8 "__proto__", utf8 "x")] := by
  have hlost : Jvm.LinkedHashMap.empty.toMap ≠ toMap [(utf8 "__proto__", utf8 "x")] := by
    intro h
    have hget := congrArg (fun m : KvMap => m[utf8 "__proto__"]?) h
    simp only [Jvm.LinkedHashMap.toMap, getElem?_toMap] at hget
    exact absurd hget (by decide)
  exact ⟨⟨_, by rfl, by decide +kernel⟩, fun h => hlost h.1, fun h => hlost h.1⟩

end Survivors

end HelloWebsocket.TypeScript
