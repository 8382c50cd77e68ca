import Mathlib
import HelloWebsocket.Wire.Utf8
import HelloWebsocket.Wire.Parser
import HelloWebsocket.Wire.OrderedMap

/-!
# Messages of the binary protocol

The thirteen registered messages with the fields of `PROTOCOL.md` section 5,
the primitive encodings of section 3 and the envelope of section 2. The type
of a `kv` field is a parameter: the entries in the order they stand on the
wire, or the finite map they denote.

## Implementation notes

Integers are mathematical integers with explicit ranges, and a text is its
UTF-8 octet string. Records of the implementations are compared by what they
say here, so a signed and an unsigned machine type with the same bits but
different values are different.
-/

namespace HelloWebsocket.Protocol

open BigEndian Utf8 OrderedMaps

/-- The message type registry of section 4. -/
inductive MsgType
  | hello | bonjour | echoRequest | echoResponse | kissRequest | kissResponse | ping | pong
  | timeNotification | randomNumber | hashResponse | disconnect | error
  deriving DecidableEq, Repr

namespace MsgType

/-- The type byte of the envelope. -/
def code : MsgType → UInt8
  | hello => 0x01
  | bonjour => 0x02
  | echoRequest => 0x03
  | echoResponse => 0x04
  | kissRequest => 0x05
  | kissResponse => 0x06
  | ping => 0x07
  | pong => 0x08
  | timeNotification => 0x09
  | randomNumber => 0x0A
  | hashResponse => 0x0B
  | disconnect => 0x0C
  | error => 0x7F

def all : List MsgType :=
  [hello, bonjour, echoRequest, echoResponse, kissRequest, kissResponse, ping, pong,
    timeNotification, randomNumber, hashResponse, disconnect, error]

/-- The registered type of a type byte. -/
def ofCode? (b : UInt8) : Option MsgType := all.find? fun t => t.code == b

theorem ofCode?_code (t : MsgType) : ofCode? t.code = some t := by
  cases t <;> decide

theorem ofCode?_eq_some_iff {b : UInt8} {t : MsgType} : ofCode? b = some t ↔ t.code = b := by
  constructor
  · intro h
    simpa using List.find?_some h
  · rintro rfl
    exact ofCode?_code t

end MsgType

/-- Map entries in the order they stand on the wire, repetitions included. -/
abbrev Entries := List (Bytes × Bytes)

/-- A finite map from octet strings to octet strings, compared by its bindings. -/
abbrev KvMap := Std.ExtTreeMap Bytes Bytes compare

/-- One result of an echo response. -/
structure EchoResult (κ : Type) where
  idx : Int
  type : Int
  kv : κ
  deriving DecidableEq, Repr

/-- The messages, with the fields in the order of section 5. -/
inductive Message (κ : Type)
  | hello (clientLanguage : Bytes)
  | bonjour (serverLanguage : Bytes)
  | echoRequest (id : Int) (tag data : Bytes)
  | echoResponse (status : Int) (results : List (EchoResult κ))
  | kissRequest (osName osVersion osRelease osArchitecture : Bytes)
  | kissResponse (language encoding timeZone : Bytes)
  | ping (timestampMs : Int)
  | pong (timestampMs : Int)
  | timeNotification (timestampMs : Int) (iso8601 : Bytes)
  | randomNumber (id number : Int)
  | hashResponse (id : Int) (hashHex : Bytes)
  | disconnect (reason : Bytes)
  | error (code : Int) (message : Bytes)
  deriving DecidableEq, Repr

variable {κ κ' : Type}

/-- Replace the representation of a `kv` field. -/
def EchoResult.mapKv (f : κ → κ') (r : EchoResult κ) : EchoResult κ' :=
  ⟨r.idx, r.type, f r.kv⟩

namespace Message

def type : Message κ → MsgType
  | hello .. => .hello
  | bonjour .. => .bonjour
  | echoRequest .. => .echoRequest
  | echoResponse .. => .echoResponse
  | kissRequest .. => .kissRequest
  | kissResponse .. => .kissResponse
  | ping .. => .ping
  | pong .. => .pong
  | timeNotification .. => .timeNotification
  | randomNumber .. => .randomNumber
  | hashResponse .. => .hashResponse
  | disconnect .. => .disconnect
  | error .. => .error

/-- Replace every result. -/
def mapResults (f : EchoResult κ → EchoResult κ') : Message κ → Message κ'
  | hello l => hello l
  | bonjour l => bonjour l
  | echoRequest i t d => echoRequest i t d
  | echoResponse s rs => echoResponse s (rs.map f)
  | kissRequest n v r a => kissRequest n v r a
  | kissResponse l e z => kissResponse l e z
  | ping t => ping t
  | pong t => pong t
  | timeNotification t i => timeNotification t i
  | randomNumber i n => randomNumber i n
  | hashResponse i h => hashResponse i h
  | disconnect r => disconnect r
  | error c m => error c m

/-- Replace the representation of every `kv` field. -/
def mapKv (f : κ → κ') : Message κ → Message κ' := mapResults (EchoResult.mapKv f)

theorem mapResults_mapResults {κ'' : Type} (f : EchoResult κ → EchoResult κ')
    (g : EchoResult κ' → EchoResult κ'') (m : Message κ) :
    (m.mapResults f).mapResults g = m.mapResults fun r => g (f r) := by
  cases m with
  | echoResponse status results => simp [mapResults, Function.comp_def]
  | _ => rfl

@[simp] theorem type_mapResults (f : EchoResult κ → EchoResult κ') (m : Message κ) :
    (m.mapResults f).type = m.type := by
  cases m <;> rfl

end Message

section Encodings

def u8 (v : Int) : Bytes := beBytes 1 (twos 8 v)

def u32 (n : Nat) : Bytes := beBytes 4 n

def i32 (v : Int) : Bytes := beBytes 4 (twos 32 v)

def i64 (v : Int) : Bytes := beBytes 8 (twos 64 v)

/-- A byte length followed by the octets. -/
def string (s : Bytes) : Bytes := u32 s.length ++ s

def entry (e : Bytes × Bytes) : Bytes := string e.1 ++ string e.2

/-- An entry count followed by the entries. -/
def kv (es : Entries) : Bytes := u32 es.length ++ es.flatMap entry

def echoResult (r : EchoResult Entries) : Bytes := i64 r.idx ++ u8 r.type ++ kv r.kv

/-- The fields of a message, one after the other. -/
def payload : Message Entries → Bytes
  | .hello l => string l
  | .bonjour l => string l
  | .echoRequest i t d => i64 i ++ string t ++ string d
  | .echoResponse s rs => i32 s ++ u32 rs.length ++ rs.flatMap echoResult
  | .kissRequest n v r a => string n ++ string v ++ string r ++ string a
  | .kissResponse l e z => string l ++ string e ++ string z
  | .ping t => i64 t
  | .pong t => i64 t
  | .timeNotification t i => i64 t ++ string i
  | .randomNumber i n => i64 i ++ i64 n
  | .hashResponse i h => i64 i ++ string h
  | .disconnect r => string r
  | .error c m => i32 c ++ string m

/-- Magic, version, type, flags and payload length in front of a payload. -/
def envelope (type flags : UInt8) (body : Bytes) : Bytes :=
  [0x48, 0x01, type, flags] ++ u32 body.length ++ body

/-- The frame a sender writes: the flags byte is zero. -/
def frame (m : Message Entries) : Bytes := envelope m.type.code 0x00 (payload m)

/-- A length field shows the length modulo its range. -/
theorem u32_mod (n : Nat) : u32 (n % 2 ^ 32) = u32 n := beBytes_mod 4 n 4 le_rfl

@[simp] theorem length_u8 (v : Int) : (u8 v).length = 1 := length_beBytes _ _

@[simp] theorem length_u32 (n : Nat) : (u32 n).length = 4 := length_beBytes _ _

@[simp] theorem length_i32 (v : Int) : (i32 v).length = 4 := length_beBytes _ _

@[simp] theorem length_i64 (v : Int) : (i64 v).length = 8 := length_beBytes _ _

@[simp] theorem length_string (s : Bytes) : (string s).length = 4 + s.length := by
  simp [string]

/-- Two length fields make every entry at least eight octets long. -/
theorem length_entry_ge (e : Bytes × Bytes) : 8 ≤ (entry e).length := by
  simp [entry]
  omega

/-- Index, type and entry count make every result at least thirteen octets long. -/
theorem length_echoResult_ge (r : EchoResult Entries) : 13 ≤ (echoResult r).length := by
  simp [echoResult, kv]
  omega

theorem length_envelope (t f : UInt8) (body : Bytes) :
    (envelope t f body).length = 8 + body.length := by
  simp [envelope]
  omega

end Encodings

section WellFormedness

def IsU8 (v : Int) : Prop := 0 ≤ v ∧ v < 256

def IsI32 (v : Int) : Prop := -2 ^ 31 ≤ v ∧ v < 2 ^ 31

def IsI64 (v : Int) : Prop := -2 ^ 63 ≤ v ∧ v < 2 ^ 63

instance : DecidablePred IsU8 := fun v => inferInstanceAs (Decidable (0 ≤ v ∧ v < 256))

instance : DecidablePred IsI32 := fun v =>
  inferInstanceAs (Decidable (-2 ^ 31 ≤ v ∧ v < 2 ^ 31))

instance : DecidablePred IsI64 := fun v =>
  inferInstanceAs (Decidable (-2 ^ 63 ≤ v ∧ v < 2 ^ 63))

/-- A string field: well-formed UTF-8 whose length fits its length field. -/
def IsText (s : Bytes) : Prop := WellFormed s ∧ s.length < 2 ^ 32

instance : DecidablePred IsText := fun s =>
  inferInstanceAs (Decidable (WellFormed s ∧ s.length < 2 ^ 32))

/-- A `kv` field: texts, and an entry count that fits its count field. -/
def IsKv (es : Entries) : Prop := es.length < 2 ^ 32 ∧ ∀ e ∈ es, IsText e.1 ∧ IsText e.2

instance : DecidablePred IsKv := fun es =>
  inferInstanceAs (Decidable (es.length < 2 ^ 32 ∧ ∀ e ∈ es, IsText e.1 ∧ IsText e.2))

def EchoResult.Ok (r : EchoResult Entries) : Prop := IsI64 r.idx ∧ IsU8 r.type ∧ IsKv r.kv

instance : DecidablePred EchoResult.Ok := fun r =>
  inferInstanceAs (Decidable (IsI64 r.idx ∧ IsU8 r.type ∧ IsKv r.kv))

/-- Every field is in the range of its wire type. -/
def Message.Ok : Message Entries → Prop
  | .hello l => IsText l
  | .bonjour l => IsText l
  | .echoRequest i t d => IsI64 i ∧ IsText t ∧ IsText d
  | .echoResponse s rs => IsI32 s ∧ rs.length < 2 ^ 32 ∧ ∀ r ∈ rs, r.Ok
  | .kissRequest n v r a => IsText n ∧ IsText v ∧ IsText r ∧ IsText a
  | .kissResponse l e z => IsText l ∧ IsText e ∧ IsText z
  | .ping t => IsI64 t
  | .pong t => IsI64 t
  | .timeNotification t i => IsI64 t ∧ IsText i
  | .randomNumber i n => IsI64 i ∧ IsI64 n
  | .hashResponse i h => IsI64 i ∧ IsText h
  | .disconnect r => IsText r
  | .error c m => IsI32 c ∧ IsText m

/-- Every integer field is in the range of its wire type. -/
def Message.InRange : Message κ → Prop
  | .echoRequest i _ _ => IsI64 i
  | .echoResponse s rs => IsI32 s ∧ ∀ r ∈ rs, IsI64 r.idx ∧ IsU8 r.type
  | .ping t => IsI64 t
  | .pong t => IsI64 t
  | .timeNotification t _ => IsI64 t
  | .randomNumber i n => IsI64 i ∧ IsI64 n
  | .hashResponse i _ => IsI64 i
  | .error c _ => IsI32 c
  | _ => True

/-- The strings of a message, keys and values of its maps included. -/
def Message.texts : Message Entries → List Bytes
  | .hello l => [l]
  | .bonjour l => [l]
  | .echoRequest _ t d => [t, d]
  | .echoResponse _ rs => rs.flatMap fun r => r.kv.flatMap fun e => [e.1, e.2]
  | .kissRequest n v r a => [n, v, r, a]
  | .kissResponse l e z => [l, e, z]
  | .ping _ => []
  | .pong _ => []
  | .timeNotification _ i => [i]
  | .randomNumber _ _ => []
  | .hashResponse _ h => [h]
  | .disconnect r => [r]
  | .error _ m => [m]

private theorem length_le_flatMap {α : Type} (enc : α → Bytes) {as : List α} {a : α}
    (ha : a ∈ as) : (enc a).length ≤ (as.flatMap enc).length := by
  induction as with
  | nil => cases ha
  | cons x as ih =>
      rw [List.flatMap_cons, List.length_append]
      rcases List.mem_cons.mp ha with rfl | ha
      · omega
      · have := ih ha
        omega

private theorem isKv_of_texts {es : Entries} (ht : ∀ e ∈ es, WellFormed e.1 ∧ WellFormed e.2)
    (hl : (kv es).length < 2 ^ 32) : IsKv es := by
  rw [kv, List.length_append] at hl
  have hcount := Parsing.length_flatMap_ge length_entry_ge es
  refine ⟨by omega, fun e he => ?_⟩
  have hle := length_le_flatMap entry he
  have hsum : (entry e).length = 4 + e.1.length + (4 + e.2.length) := by simp [entry]
  exact ⟨⟨(ht e he).1, by omega⟩, ⟨(ht e he).2, by omega⟩⟩

/-- Well-formed strings in a payload that fits its length field make a well-formed message. -/
theorem Message.ok_of_texts {m : Message Entries} (hr : m.InRange)
    (ht : ∀ s ∈ m.texts, WellFormed s) (hl : (payload m).length < 2 ^ 32) : m.Ok := by
  cases m with
  | echoResponse s rs =>
      obtain ⟨hs, hrs⟩ := hr
      simp only [payload, List.length_append] at hl
      have hcount := Parsing.length_flatMap_ge length_echoResult_ge rs
      refine ⟨hs, by omega, fun r hmem => ⟨(hrs r hmem).1, (hrs r hmem).2, ?_⟩⟩
      have hle := length_le_flatMap echoResult hmem
      rw [echoResult, List.length_append] at hle
      refine isKv_of_texts (fun e he => ?_) (by omega)
      constructor
      · exact ht _ (List.mem_flatMap.mpr ⟨r, hmem, List.mem_flatMap.mpr ⟨e, he, by simp⟩⟩)
      · exact ht _ (List.mem_flatMap.mpr ⟨r, hmem, List.mem_flatMap.mpr ⟨e, he, by simp⟩⟩)
  | _ =>
      simp only [payload, List.length_append, length_string] at hl
      simp only [Message.texts, List.forall_mem_cons, List.not_mem_nil, false_implies,
        implies_true, and_true] at ht
      simp only [Message.InRange] at hr
      simp only [Message.Ok, IsText]
      grind

end WellFormedness

section FiniteMaps

/-- The finite map of an entry list, in which the last entry of a key wins. -/
def toMap (es : Entries) : KvMap := es.foldl (fun m e => m.insert e.1 e.2) ∅

private theorem getElem?_foldl_insert (es : Entries) (m : KvMap) (k : Bytes) :
    (es.foldl (fun m e => m.insert e.1 e.2) m)[k]? = (es.reverse.lookup k).or m[k]? := by
  induction es generalizing m with
  | nil => simp
  | cons e es ih =>
      obtain ⟨a, b⟩ := e
      rw [List.foldl_cons, ih, List.reverse_cons, List.lookup_append,
        Std.ExtTreeMap.getElem?_insert, Option.or_assoc]
      congr 1
      by_cases hk : a = k
      · subst hk
        simp
      · have hne : ¬ compare a k = .eq := fun h => hk (Std.LawfulEqOrd.eq_of_compare h)
        have hbeq : (k == a) = false := by simpa using fun h => hk h.symm
        simp [List.lookup_cons, hne, hbeq]

/-- A key is bound to the value of its last entry, and unbound without one. -/
theorem getElem?_toMap (es : Entries) (k : Bytes) : (toMap es)[k]? = es.reverse.lookup k := by
  rw [toMap, getElem?_foldl_insert]
  simp

/-- The entry lists of a finite map are the arrangements of its bindings. -/
def ListedBy (m : KvMap) (es : Entries) : Prop := es.Perm m.toList

theorem nodup_keys_of_listedBy {m : KvMap} {es : Entries} (h : ListedBy m es) :
    (es.map Prod.fst).Nodup := by
  rw [(h.map Prod.fst).nodup_iff]
  have hp := m.distinct_keys_toList
  rw [List.Nodup, List.pairwise_map]
  refine hp.imp fun {a b} hab heq => hab ?_
  rw [heq]
  exact Std.ReflCmp.compare_self

private theorem lookup_of_nodup {es : Entries} (hn : (es.map Prod.fst).Nodup) {k v : Bytes} :
    es.lookup k = some v ↔ (k, v) ∈ es := by
  induction es with
  | nil => simp
  | cons e es ih =>
      rw [List.map_cons, List.nodup_cons] at hn
      obtain ⟨a, b⟩ := e
      rw [List.lookup_cons, List.mem_cons]
      by_cases hk : k = a
      · subst hk
        have hnot : (k, v) ∉ es := fun hm => hn.1 (List.mem_map.mpr ⟨(k, v), hm, rfl⟩)
        simp [hnot, eq_comm]
      · have hbeq : (k == a) = false := by simpa using hk
        simp [hbeq, ih hn.2, hk]

/-- Any arrangement of a map's bindings denotes the map. -/
theorem getElem?_toMap_of_nodup {es : Entries} (hn : (es.map Prod.fst).Nodup) {k v : Bytes} :
    (toMap es)[k]? = some v ↔ (k, v) ∈ es := by
  have hr : (es.reverse.map Prod.fst).Nodup := by
    rw [List.map_reverse, List.nodup_reverse]
    exact hn
  rw [getElem?_toMap, lookup_of_nodup hr, List.mem_reverse]

theorem toMap_of_listedBy {m : KvMap} {es : Entries} (h : ListedBy m es) : toMap es = m := by
  apply Std.ExtTreeMap.ext_getElem?
  intro k
  apply Option.ext
  intro v
  rw [getElem?_toMap_of_nodup (nodup_keys_of_listedBy h), h.mem_iff]
  exact Std.ExtTreeMap.mem_toList_iff_getElem?_eq_some

/-- Entries with distinct keys are an arrangement of the map they denote. -/
theorem listedBy_toMap {es : Entries} (hn : (es.map Prod.fst).Nodup) : ListedBy (toMap es) es := by
  have hes : es.Nodup := hn.of_map _
  have hlist : (toMap es).toList.Nodup :=
    (nodup_keys_of_listedBy (List.Perm.refl (toMap es).toList)).of_map _
  rw [ListedBy, List.perm_ext_iff_of_nodup hes hlist]
  rintro ⟨k, v⟩
  rw [Std.ExtTreeMap.mem_toList_iff_getElem?_eq_some, getElem?_toMap_of_nodup hn]

/-- A key that is set is bound to the value, whether it was there before or not. -/
theorem toMap_setEntries {es : Entries} (hn : (es.map Prod.fst).Nodup) (key value : Bytes) :
    toMap (setEntries es key value) = (toMap es).insert key value := by
  apply Std.ExtTreeMap.ext_getElem?
  intro k
  apply Option.ext
  intro v
  rw [getElem?_toMap_of_nodup (nodup_setEntries hn key value), mem_setEntries,
    Std.ExtTreeMap.getElem?_insert, ← getElem?_toMap_of_nodup hn]
  by_cases hk : k = key
  · subst hk
    rw [if_pos rfl, if_pos Std.ReflCmp.compare_self, Option.some.injEq, eq_comm]
  · have hne : compare key k ≠ .eq := fun h => hk (Std.LawfulEqOrd.eq_of_compare h).symm
    rw [if_neg hk, if_neg hne]

/-- The encoding of a map has one length for all arrangements. -/
theorem length_kv_of_listedBy {m : KvMap} {es : Entries} (h : ListedBy m es) :
    (kv m.toList).length = (kv es).length := by
  rw [kv, kv, List.length_append, List.length_append, length_u32, length_u32,
    (h.flatMap_right entry).length_eq]

end FiniteMaps

end HelloWebsocket.Protocol
