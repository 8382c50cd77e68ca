import HelloWebsocket.Wire.Words
import HelloWebsocket.Protocol.RoundTrip
import HelloWebsocket.Node.Reader

/-!
# What the Node.js decoder returns

Every method of `ByteReader` refines the parser of its primitive, up to two changes:
a string loses a leading byte order mark, and an object loses the entries whose key
is `__proto__`.
-/

namespace HelloWebsocket.Node

open BigEndian Utf8 Parsing Words Protocol
open Positions (cursor)
open Jvm (octetsOf)

/-- The decoder throws nothing but an `Error`. -/
abbrev reading (data : Bytes) : Cursor Failure Positions.Reader UInt8 := cursor data fun _ => True

variable {data : Bytes}

section Numbers

theorem shl_octet (b : UInt8) :
    shl b.toNat 16 = (b.toNat : Int) * 65536 ∧ shl b.toNat 8 = (b.toNat : Int) * 256 := by
  have htable : ∀ i : Fin 256, shl (i.val : Nat) 16 = (i.val : Int) * 65536 ∧
      shl (i.val : Nat) 8 = (i.val : Int) * 256 := by
    decide +kernel
  exact htable ⟨b.toNat, b.toNat_lt⟩

theorem ensure_eq {n : Nat} (hn : n < 2 ^ 32) (field : String) :
    ensure n field = Positions.ensure n fun r =>
      ⟨field ++ " requires " ++ toString (n : Int) ++ " bytes, only " ++ toString r.remaining ++
        " remain"⟩ := by
  funext r
  have hsafe : IsSafeInteger n := ⟨by omega, by omega⟩
  have hiff : (¬ IsSafeInteger n ∨ (n : Int) < 0 ∨ (n : Int) > r.remaining) ↔ n > r.remaining := by
    simp only [hsafe, not_true_eq_false, false_or]
    omega
  by_cases hlong : n > r.remaining
  · have hfail := hiff.mpr hlong
    simp only [ensure, Positions.ensure, throwIf, bind, EStateM.bind, get, getThe, MonadStateOf.get,
      EStateM.get, if_pos hfail, if_pos hlong]
  · have hpass := mt hiff.mp hlong
    simp only [ensure, Positions.ensure, throwIf, bind, EStateM.bind, get, getThe, MonadStateOf.get,
      EStateM.get, if_neg hpass, if_neg hlong]

theorem readOctets_eq {n : Nat} (hn : n < 2 ^ 32) (field : String) :
    ∃ short, readOctets n field = Positions.next n short :=
  ⟨_, by rw [readOctets, ensure_eq hn, Positions.next]⟩

theorem refines_readOctets {n : Nat} (hn : n < 2 ^ 32) (field : String) :
    Refines (reading data) (fun b b' => b = b') (readOctets n field) (takeN n) := by
  obtain ⟨short, h⟩ := readOctets_eq hn field
  rw [h]
  exact Positions.refines_next n fun _ _ => trivial

theorem refines_readU8 : Refines (reading data) (fun v n => v = n) readU8 parseU8 := by
  intro r input hr
  refine refinesAt_bind (refines_readOctets (by decide) "u8" r input hr) ?_
  rintro b _ s rest hp rfl hs
  obtain ⟨_, ⟨-, hlen⟩, -⟩ := (exact_takeN 1 _ _ _).mp hp
  obtain ⟨x, rfl⟩ := List.length_eq_one_iff.mp hlen
  refine refines_pure ?_ s rest hs
  simp [beNat]

theorem refines_readU32 :
    Refines (reading data) (fun (v : Int) (n : Nat) => v = n) readU32 parseU32 := by
  intro r input hr
  refine refinesAt_bind (refines_readOctets (by decide) "u32" r input hr) ?_
  rintro b _ s rest hp rfl hs
  obtain ⟨_, ⟨-, hlen⟩, -⟩ := (exact_takeN 4 _ _ _).mp hp
  match b, hlen with
  | [b0, b1, b2, b3], _ =>
      refine refines_pure ?_ s rest hs
      simp only [List.getD_cons_zero, List.getD_cons_succ, (shl_octet b1).1, (shl_octet b2).2,
        beNat, List.foldl_cons, List.foldl_nil]
      push_cast
      ring

theorem refines_readI32 : Refines (reading data) (fun v n => v = n) readI32 parseI32 := by
  rw [parseI32_eq]
  refine refines_map refines_readU32 fun v n hv => ?_
  have hsize : Int32.size = 2 ^ 32 := by decide
  rw [hv, Int32.toInt_ofInt, hsize, signed]

theorem asInt64_eq (v : Nat) : asInt64 v = signed 64 v := rfl

theorem refines_readI64 : Refines (reading data) (fun v n => v = n) readI64 parseI64 := by
  rw [parseI64_eq]
  refine refines_bind refines_readU32 fun hi nh hhi => ?_
  intro r input hr
  refine refinesAt_bind (refines_readU32 r input hr) fun lo nl s rest hp hlo hs => ?_
  obtain ⟨_, ⟨hlt, -⟩, -⟩ := (exact_parseU32 _ _ _).mp hp
  refine refines_pure ?_ s rest hs
  have hor : nh <<< 32 ||| nl = nh * 2 ^ 32 + nl := by
    rw [Nat.shiftLeft_eq, or_eq_add 32 (Dvd.intro_left nh rfl) hlt]
  rw [hhi, hlo, Int.toNat_natCast, Int.toNat_natCast, hor]
  exact asInt64_eq _

end Numbers

section Strings

/-- A string comes back without its leading mark. -/
theorem refines_readString :
    Refines (reading data) (fun s b => utf8 s = unmark b) readString parseString := by
  intro r input hr
  refine refinesAt_bind (refines_readU32 r input hr) ?_
  rintro _ n s rest hp rfl hs
  obtain ⟨_, ⟨hlt, -⟩, -⟩ := (exact_parseU32 _ _ _).mp hp
  rw [ensure_eq hlt, Int.toNat_natCast]
  exact Positions.refines_nextText decodeUnmarked? n _
    (fun _ => ⟨"string payload is not valid UTF-8"⟩) (fun _ _ => trivial) (fun _ => trivial)
    (fun _ => exists_decodeUnmarked?) (fun _ => decodeUnmarked?_eq_none) s rest hs

theorem refines_readEntry : Refines (reading data)
    (fun e b => (utf8 e.1, utf8 e.2) = (unmark b.1, unmark b.2)) readEntry parseEntry := by
  refine refines_bind refines_readString fun k k' hk => ?_
  refine refines_bind refines_readString fun v v' hv => refines_pure ?_
  rw [hk, hv]

end Strings

section Objects

/-- The entries as they are assigned to an object: without the marks. -/
def unmarkEntries (es : Entries) : Entries := es.map fun e => (unmark e.1, unmark e.2)

/-- The finite map of the object that is filled with the entries. -/
def objectMap (es : Entries) : KvMap :=
  toMap ((unmarkEntries es).filter fun e => e.1 ≠ utf8 "__proto__")

theorem keys_assign {m : PlainObject} (h : "__proto__" ∉ m.entries.map Prod.fst)
    (key value : String) : "__proto__" ∉ (m.assign key value).entries.map Prod.fst := by
  rw [PlainObject.assign]
  split
  · exact h
  · next hkey =>
      change _ ∉ (Jvm.LinkedHashMap.putEntries m.entries key value).map Prod.fst
      rw [Jvm.LinkedHashMap.keys_putEntries]
      split
      · exact h
      · next hnew =>
          simp only [List.mem_append, List.mem_singleton, not_or]
          exact ⟨h, fun heq => hkey ⟨heq.symm, hnew⟩⟩

/-- Assignments to a new object are entries put into a map, but for the key `__proto__`. -/
theorem foldl_assign (es : List (String × String)) {m : PlainObject}
    (h : "__proto__" ∉ m.entries.map Prod.fst) :
    es.foldl (fun m e => m.assign e.1 e.2) m =
      (es.filter fun e => e.1 ≠ "__proto__").foldl (fun m e => m.put e.1 e.2) m := by
  induction es generalizing m with
  | nil => rfl
  | cons e es ih =>
      rw [List.foldl_cons, ih (keys_assign h e.1 e.2)]
      by_cases hkey : e.1 = "__proto__"
      · have hsame : m.assign e.1 e.2 = m := by
          rw [PlainObject.assign, if_pos ⟨hkey, hkey ▸ h⟩]
        rw [hsame, List.filter_cons_of_neg (by simpa using hkey)]
      · have hput : m.assign e.1 e.2 = m.put e.1 e.2 := by
          rw [PlainObject.assign, if_neg fun hand => hkey hand.1]
        rw [hput, List.filter_cons_of_pos (by simpa using hkey), List.foldl_cons]

private theorem octetsOf_filter (es : List (String × String)) :
    octetsOf (es.filter fun e => e.1 ≠ "__proto__") =
      (octetsOf es).filter fun e => e.1 ≠ utf8 "__proto__" := by
  rw [octetsOf, octetsOf, List.filter_map]
  congr 1
  apply List.filter_congr
  intro e _
  simp [utf8_injective.eq_iff]

/-- The object filled from entries that were read has the bindings of these entries. -/
theorem toMap_foldl_assign {as : List (String × String)} {bs : Entries}
    (h : List.Forall₂ (fun e b => (utf8 e.1, utf8 e.2) = (unmark b.1, unmark b.2)) as bs) :
    (as.foldl (fun (m : PlainObject) e => m.assign e.1 e.2) Jvm.LinkedHashMap.empty).toMap =
      objectMap bs := by
  have hoctets : octetsOf as = unmarkEntries bs := by
    induction h with
    | nil => rfl
    | cons hab _ ih =>
        rw [octetsOf, List.map_cons, hab, unmarkEntries, List.map_cons]
        exact congrArg _ ih
  rw [foldl_assign as (List.not_mem_nil), Jvm.LinkedHashMap.toMap_foldl_put, octetsOf_filter,
    hoctets]
  rfl

/-- The count guard rejects only what the loop would reject. -/
theorem lt_mul_of_count {count : Int} {n left k : Nat} (hcount : count = n)
    (h : count > (left / k : Nat)) (hk : 0 < k) : left < n * k := by
  have hlt : left / k < n := by omega
  rwa [Nat.div_lt_iff_lt_mul hk] at hlt

theorem refines_readKV : Refines (reading data) (fun m es => m.toMap = objectMap es) readKV parseKv := by
  refine refines_bind refines_readU32 fun count n hn r input hr => ?_
  refine refinesAt_step (a := r.remaining) rfl ?_
  rw [Positions.remaining_of_stands hr]
  refine refinesAt_counted hr exact_parseEntry length_entry_ge
    (fun hc => ⟨lt_mul_of_count hn hc (by decide), trivial⟩) (fun _ => by rw [hn]; rfl)
    refines_readEntry fun as bs has => toMap_foldl_assign has

/-- What an element of `results` stands for. -/
def ResultObject.view (r : ResultObject) : Protocol.EchoResult KvMap :=
  ⟨r.idx, r.type, r.kv.toMap⟩

theorem refines_readEchoResult :
    Refines (reading data) (fun r b => r.view = b.mapKv objectMap) readEchoResult parseEchoResult := by
  refine refines_bind refines_readI64 fun i i' hi => ?_
  refine refines_bind refines_readU8 fun t t' ht => ?_
  refine refines_bind refines_readKV fun m es hm => refines_pure ?_
  rw [ResultObject.view, Protocol.EchoResult.mapKv, hi, ht, hm]

theorem refines_readEchoResults :
    Refines (reading data) (fun rs bs => rs.map ResultObject.view = bs.map (·.mapKv objectMap))
      readEchoResults parseEchoResults := by
  refine refines_bind refines_readU32 fun count n hn r input hr => ?_
  refine refinesAt_step (a := r.remaining) rfl ?_
  rw [Positions.remaining_of_stands hr]
  refine refinesAt_counted hr exact_parseEchoResult length_echoResult_ge
    (fun hc => ⟨lt_mul_of_count hn hc (by decide), trivial⟩) (fun _ => by rw [hn]; rfl)
    refines_readEchoResult fun as bs has => ?_
  rw [foldl_push, List.nil_append]
  induction has with
  | nil => rfl
  | cons hab _ ih => rw [List.map_cons, List.map_cons, hab, ih]

end Objects

section Messages

/-- What the values of a message stand for. -/
def view : Reading String Int Int ResultObject KvMap := ⟨utf8, id, id, ResultObject.view⟩

theorem sound_taggedReaders (data : Bytes) :
    taggedReaders.Sound (reading data) view unmark (·.mapKv objectMap) :=
  ⟨refines_readString, refines_readI64, refines_readI32, refines_readEchoResults⟩

/-- `decodeMessage` returns what the octets carry, but for marks and `__proto__`. -/
theorem decodeMessage_of_ok {p : Protocol.Message Entries}
    (h : examine data = .ok p) :
    ∃ m, decodeMessage data = .ok m ∧ m.view view = (p.mapTexts unmark).mapKv objectMap := by
  have hspec := decodeWith_eq headerErrors
    (fun msgType => ⟨"unknown message type: 0x" ++ Hex.signed msgType.toNat⟩) sound_taggedReaders
    data
  rw [h] at hspec
  exact hspec

end Messages

end HelloWebsocket.Node
