import HelloWebsocket.Wire.Decimal
import HelloWebsocket.Wire.OrderedMap
import HelloWebsocket.Wire.Position
import HelloWebsocket.Wire.Writer
import HelloWebsocket.Protocol.Grammar
import HelloWebsocket.Protocol.Normal

/-!
# String maps of the PHP codec

`common/Codec.php`: the strings and maps of `ByteReader` and `ByteWriter`, and that
a map which is read and written again keeps its keys, although a PHP array stores
some of them as integers.

## Implementation notes

A PHP string is an octet string. An array is a map that keeps the order of its
keys. A string key which is the decimal form of a 64-bit integer is stored as that
integer, and every other string as it is. `unpack('N')` and `strlen` give integers
that are not negative, so that they are natural numbers here and the test
`$size < 0` has no case.
-/

namespace HelloWebsocket.Php

open BigEndian Utf8 Parsing Writing Positions Decimal OrderedMaps
open Protocol (Entries toMap IsKv ListedBy kv entry string u32 u32_mod parseU32 parseString parseEntry
  parseKv exact_parseKv exact_parseEntry length_entry_ge toMap_setEntries listedBy_toMap)

section Arrays

/-- The integer that a string spells, if it spells one. -/
def spelled : Bytes → Int
  | 0x2D :: ds => -(value ds : Int)
  | ds => value ds

/-- The integer whose decimal form the string is. -/
def integer? (s : Bytes) : Option Int64 :=
  if (-2 ^ 63 ≤ spelled s ∧ spelled s < 2 ^ 63) ∧ decimal (spelled s) = s then
    some (Int64.ofInt (spelled s))
  else none

/-- A key of an array. -/
inductive Key
  | int (v : Int64)
  | str (s : Bytes) (h : integer? s = none)
  deriving DecidableEq

/-- The key under which `$m[$s]` is stored. -/
def Key.ofString (s : Bytes) : Key :=
  match h : integer? s with
  | some v => .int v
  | none => .str s h

/-- `(string)$k` -/
def Key.toString : Key → Bytes
  | .int v => decimal v.toInt
  | .str s _ => s

/-- `array<string,string>` -/
abbrev PhpArray := OrderedMap Key Bytes

/-- `$m[$k] = $v` -/
def PhpArray.assign (m : PhpArray) (k v : Bytes) : PhpArray := OrderedMap.set m (.ofString k) v

end Arrays

section Writer

/-- `ByteWriter` -/
structure ByteWriter where
  buf : Bytes
  deriving DecidableEq

/-- A method of the writer; none of them throws. -/
abbrev WriterM := EStateM Empty ByteWriter

/-- `$this->buf .= $bs` -/
def concat (bs : Bytes) : WriterM Unit := modify fun w => ⟨w.buf ++ bs⟩

/-- `pack('N', $v)` -/
def packN (v : Nat) : Bytes := beBytes 4 v

def writeU32 (v : Nat) : WriterM Unit := concat (packN (v &&& 0xFFFFFFFF))

def writeString (s : Bytes) : WriterM Unit := do
  writeU32 s.length
  concat s

def writeKv (m : PhpArray) : WriterM Unit := do
  writeU32 m.entries.length
  m.entries.forM fun e => do
    writeString e.1.toString
    writeString e.2

end Writer

section Reader

/-- `InvalidArgumentException` with its message. -/
structure InvalidArgument where
  message : String

/-- A method of the reader. -/
abbrev ReaderM := EStateM InvalidArgument Positions.Reader

/-- What `requireBytes` throws. -/
def requires (size : Nat) (field : String) (r : Positions.Reader) : InvalidArgument :=
  ⟨field ++ " requires " ++ ToString.toString size ++ " bytes, only " ++
    ToString.toString r.remaining ++ " remain"⟩

def readU32 : ReaderM Nat := do
  let b ← Positions.next 4 (requires 4 "u32")
  pure (beNat b)

/-- `$ln > 0 && preg_match('//u', $s) !== 1`, turned round. -/
def validated? (s : Bytes) : Option Bytes :=
  if 0 < s.length ∧ ¬ WellFormed s then none else some s

def readString : ReaderM Bytes := do
  let ln ← readU32
  nextText validated? ln (requires ln "string") fun _ => ⟨"string payload is not valid UTF-8"⟩

/-- One turn of the loop of `readKv`. -/
def readEntry : ReaderM (Bytes × Bytes) := do
  let k ← readString
  let v ← readString
  pure (k, v)

def readKv : ReaderM PhpArray := do
  let count ← readU32
  let left ← remaining
  throwIf (count > left / 8)
    ⟨"kv count " ++ ToString.toString count ++ " exceeds remaining payload"⟩
  forCount readEntry (fun m e => PhpArray.assign m e.1 e.2) count OrderedMap.empty

end Reader

section Keys

theorem spelled_decimal (v : Int) : spelled (decimal v) = v := by
  rw [decimal]
  split
  · rw [spelled, value_digits]
    omega
  · obtain h | h := Nat.eq_zero_or_pos v.natAbs
    · obtain rfl : v = 0 := by omega
      rw [Int.natAbs_zero, digits]
      rfl
    · -- The first digit is not the sign.
      obtain ⟨d, ds, hds, -⟩ := head_digits h
      have hd := (mem_digits (hds ▸ List.mem_cons_self : d ∈ digits v.natAbs)).1
      have hsign : d ≠ 0x2D := by
        rintro rfl
        exact absurd hd (by decide)
      have hvalue := value_digits v.natAbs
      rw [hds] at hvalue ⊢
      rw [spelled]
      · rw [hvalue]
        omega
      · intro ds' heq
        exact hsign (List.cons.inj heq).1

theorem integer?_decimal (v : Int64) : integer? (decimal v.toInt) = some v := by
  rw [integer?, spelled_decimal, if_pos ⟨⟨v.le_toInt, v.toInt_lt⟩, rfl⟩, Int64.ofInt_toInt]

theorem decimal_of_integer? {s : Bytes} {v : Int64} (h : integer? s = some v) :
    decimal v.toInt = s := by
  rw [integer?] at h
  split at h
  · next hspelled =>
      obtain ⟨⟨hl, hu⟩, hs⟩ := hspelled
      rw [← Option.some.inj h, Int64.toInt_ofInt_of_le hl hu, hs]
  · cases h

/-- A key is written with the octets it was read with. -/
@[simp] theorem toString_ofString (s : Bytes) : (Key.ofString s).toString = s := by
  rw [Key.ofString]
  split
  · next v h => exact decimal_of_integer? h
  · rfl

theorem ofString_toString (k : Key) : Key.ofString k.toString = k := by
  rw [Key.ofString]
  cases k with
  | int v =>
      split
      · next w h =>
          rw [Key.toString, integer?_decimal] at h
          rw [Option.some.inj h]
      · next h =>
          rw [Key.toString, integer?_decimal] at h
          cases h
  | str s hs =>
      split
      · next w h =>
          rw [Key.toString, hs] at h
          cases h
      · rfl

/-- Different keys are written differently. -/
theorem toString_injective : Function.Injective Key.toString :=
  Function.LeftInverse.injective ofString_toString

/-- The strings of an array, in the order of `foreach`. -/
def PhpArray.strings (m : PhpArray) : Entries := m.entries.map (Prod.map Key.toString id)

theorem nodup_strings (m : PhpArray) : (m.strings.map Prod.fst).Nodup := by
  have hkeys : m.strings.map Prod.fst = (m.entries.map Prod.fst).map Key.toString := by
    rw [PhpArray.strings, List.map_map, List.map_map]
    rfl
  rw [hkeys]
  exact m.nodup.map toString_injective

theorem toMap_assign (m : PhpArray) (k v : Bytes) :
    toMap (m.assign k v).strings = (toMap m.strings).insert k v := by
  have hset : (m.assign k v).strings = setEntries m.strings k v := by
    have hmap := map_setEntries toString_injective id m.entries (.ofString k) v
    rwa [toString_ofString] at hmap
  rw [hset, toMap_setEntries (nodup_strings m)]

theorem toMap_foldl_assign (es : Entries) (m : PhpArray) :
    toMap (es.foldl (fun m e => m.assign e.1 e.2) m).strings =
      es.foldl (fun m e => m.insert e.1 e.2) (toMap m.strings) := by
  induction es generalizing m with
  | nil => rfl
  | cons e es ih => rw [List.foldl_cons, ih, toMap_assign, List.foldl_cons]

end Keys

section Written

/-- The buffer has no bound. -/
def sink : Sink ByteWriter := ⟨ByteWriter.buf, fun _ => True, fun _ _ => trivial⟩

theorem writes_concat (bs : Bytes) : Writes sink (concat bs) bs := fun w _ => ⟨⟨w.buf ++ bs⟩, rfl, rfl⟩

theorem writes_writeU32 (v : Nat) : Writes sink (writeU32 v) (u32 v) := by
  rw [← u32_mod, ← Nat.and_two_pow_sub_one_eq_mod]
  exact writes_concat _

theorem writes_writeString (s : Bytes) : Writes sink (writeString s) (string s) :=
  writes_bind (writes_writeU32 s.length) (writes_concat s)

theorem writes_writeKv (m : PhpArray) : Writes sink (writeKv m) (kv m.strings) := by
  have hentry (e : Key × Bytes) :
      Writes sink (writeString e.1.toString >>= fun _ => writeString e.2)
        (entry (e.1.toString, e.2)) :=
    writes_bind (writes_writeString _) (writes_writeString _)
  rw [kv, PhpArray.strings, List.length_map, List.flatMap_map]
  exact writes_bind (writes_writeU32 _) (writes_forM hentry m.entries)

end Written

section Read

variable {data : Bytes}

/-- The reader may throw anything. -/
abbrev reading (data : Bytes) : Cursor InvalidArgument Positions.Reader UInt8 :=
  cursor data fun _ => True

theorem refines_readU32 : Refines (reading data) (fun v n => v = n) readU32 parseU32 :=
  refines_map (Positions.refines_next 4 fun _ _ => trivial) fun _ _ h => congrArg beNat h

theorem validated?_eq {s : Bytes} (h : WellFormed s) : validated? s = some s :=
  if_neg fun hbad => hbad.2 h

theorem validated?_eq_none {s : Bytes} (h : ¬ WellFormed s) : validated? s = none := by
  refine if_pos ⟨?_, h⟩
  rw [List.length_pos_iff]
  rintro rfl
  exact h wellFormed_nil

theorem refines_readString : Refines (reading data) (fun s b => s = b) readString parseString := by
  refine refines_bind refines_readU32 fun ln n hln => ?_
  subst hln
  exact Positions.refines_nextText validated? ln _ _ (fun _ _ => trivial) (fun _ => trivial)
    (fun s hs => ⟨s, validated?_eq hs, rfl⟩) (fun _ => validated?_eq_none)

theorem refines_readEntry : Refines (reading data) (fun e b => e = b) readEntry parseEntry := by
  refine refines_bind refines_readString fun k k' hk => ?_
  refine refines_bind refines_readString fun v v' hv => refines_pure ?_
  rw [hk, hv]

/-- The array that is read stands for the finite map of the entries. -/
theorem refines_readKv :
    Refines (reading data) (fun m es => toMap m.strings = toMap es) readKv parseKv := by
  refine refines_bind refines_readU32 fun count n hn r input hr => ?_
  subst hn
  refine refinesAt_step (a := r.remaining) rfl ?_
  rw [Positions.remaining_of_stands hr]
  refine refinesAt_counted hr exact_parseEntry length_entry_ge
    (fun hc => ⟨(Nat.div_lt_iff_lt_mul (by decide)).mp hc, trivial⟩) (fun _ => rfl)
    refines_readEntry fun as bs has => ?_
  obtain rfl := List.forall₂_eq_eq_eq ▸ has
  exact toMap_foldl_assign as OrderedMap.empty

end Read

/-- A map that is read anywhere in the input and written again is the same finite map, in
which the last entry of a key has won, with one entry for each key. -/
theorem writeKv_readKv (front rest : Bytes) {es : Entries} (h : IsKv es) (w : ByteWriter) :
    ∃ (m : PhpArray) (out : Entries),
      readKv ⟨front ++ kv es ++ rest, front.length⟩ =
        .ok m ⟨front ++ kv es ++ rest, (front ++ kv es).length⟩ ∧
      writeKv m w = .ok () ⟨w.buf ++ kv out⟩ ∧ IsKv out ∧ ListedBy (toMap es) out := by
  have hparse : parseKv (kv es ++ rest) = some (es, rest) :=
    (exact_parseKv _ _ _).mpr ⟨kv es, ⟨h, rfl⟩, rfl⟩
  have hstands : (reading (front ++ (kv es ++ rest))).stands
      ⟨front ++ (kv es ++ rest), front.length⟩ (kv es ++ rest) := stands_append front _
  obtain ⟨m, r, hread, hmap, hr⟩ := (refinesAt_some hparse).mp (refines_readKv _ _ hstands)
  rw [← List.append_assoc] at hread hr
  have hlisted : ListedBy (toMap es) m.strings := hmap ▸ listedBy_toMap (nodup_strings m)
  obtain ⟨w', hwrite, hbuf⟩ := writes_writeKv m w trivial
  refine ⟨m, m.strings, ?_, ?_, ?_, hlisted⟩
  · rw [hread, eq_of_stands hr]
  · obtain rfl : w' = ⟨w.buf ++ kv m.strings⟩ := congrArg ByteWriter.mk hbuf
    exact hwrite
  · have hnormal := h.normal
    exact ⟨hlisted.length_eq ▸ hnormal.1, fun e he => hnormal.2 e (hlisted.mem_iff.mp he)⟩

/-- The keys `7`, `07` and again `7`: the second is no integer. -/
theorem writeKv_readKv_seven : IsKv [([55], [97]), ([48, 55], [98]), ([55], [99])] ∧
    ∃ (m : PhpArray) (out : Entries),
      readKv ⟨[] ++ kv [([55], [97]), ([48, 55], [98]), ([55], [99])] ++ [], 0⟩ =
        .ok m ⟨[] ++ kv [([55], [97]), ([48, 55], [98]), ([55], [99])] ++ [],
          ([] ++ kv [([55], [97]), ([48, 55], [98]), ([55], [99])]).length⟩ ∧
      writeKv m ⟨[]⟩ = .ok () ⟨[] ++ kv out⟩ ∧ IsKv out ∧
      ListedBy (toMap [([55], [97]), ([48, 55], [98]), ([55], [99])]) out := by
  have h : IsKv [([55], [97]), ([48, 55], [98]), ([55], [99])] := by decide
  exact ⟨h, writeKv_readKv [] [] h ⟨[]⟩⟩

end HelloWebsocket.Php
