import HelloWebsocket.Wire.Words
import HelloWebsocket.Protocol.Grammar
import HelloWebsocket.Jvm.Library

/-!
# Readers over a byte array

The Java and Kotlin `ByteReader` classes have the same two fields. Their shared
moves are defined here, with the facts that relate a position to the octets not
yet read.

## Implementation notes

The payload of a frame is at least eight octets shorter than the longest array,
so a position plus the width of a number does not overflow.
-/

namespace HelloWebsocket.Jvm

open BigEndian Utf8 Parsing Words
open Protocol (Entries parseU8 parseU32 toMap)

/-- `ByteReader` -/
structure ByteReader where
  data : JArray
  pos : Int32
  deriving DecidableEq

/-- A method of the reader. -/
abbrev ReaderM := EStateM Throwable ByteReader

/-- `remaining()` -/
def remaining : ReaderM Int32 := do
  let r ← get
  pure (r.data.length - r.pos)

/-- `data[pos + k] & 0xFF` -/
def octet (k : Int32) : ReaderM Int32 := do
  let r ← get
  let b ← ofExcept (r.data.index (r.pos + k))
  pure (b.toInt32 &&& 0xFF)

/-- `pos += n` -/
def advance (n : Int32) : ReaderM Unit := modify fun r => { r with pos := r.pos + n }

/-- The bounds check before `n` octets are read, with the exception it throws. -/
def require (n : Int32) (e : Throwable) : ReaderM Unit := do
  let r ← get
  throwIf (r.pos + n > r.data.length) e

/-- One octet, as both `readU8` methods read it. -/
def readOctet (e : Throwable) : ReaderM Int32 := do
  require 1 e
  let v ← octet 0
  advance 1
  pure v

/-- Four octets, as both `readU32` methods read them, joined to a number. -/
def readFour {α : Type} (e : Throwable) (join : Int32 → Int32 → Int32 → Int32 → α) :
    ReaderM α := do
  require 4 e
  let b0 ← octet 0
  let b1 ← octet 1
  let b2 ← octet 2
  let b3 ← octet 3
  advance 4
  pure (join b0 b1 b2 b3)

/-- The strict decoder on the next `n` octets, which leaves the reader at `pos`. -/
def decodeNext (n pos : Int32) (e : Throwable) : ReaderM String := do
  let r ← get
  match ← ofExcept (r.data.decode r.pos n) with
  | some s =>
      set { r with pos := pos }
      pure s
  | none => throw e

section Arrays

/-- Indexing shows the octet as a signed byte. -/
theorem index_eq {data : JArray} (xs : Bytes) {ys : Bytes} {b : UInt8} {i : Int32}
    (hdata : data.octets = xs ++ b :: ys) (hi : i.toInt = xs.length) :
    data.index i = .ok b.toInt8 := by
  have hin : 0 ≤ i ∧ i < data.length := by
    rw [Int32.le_iff_toInt_le, Int32.lt_iff_toInt_lt, JArray.toInt_length, hdata,
      Int32.toInt_zero, List.length_append, List.length_cons]
    omega
  rw [JArray.index, if_pos hin, hi, hdata, Int.toNat_natCast,
    List.getElem?_append_right le_rfl, Nat.sub_self]
  rfl

theorem copy_eq {data : JArray} (body : JArray) (xs : Bytes) {i n : Int32}
    (hdata : data.octets = xs ++ body.octets) (hi : i.toInt = xs.length)
    (hn : n.toInt = body.octets.length) : data.copy i n = .ok body := by
  have hpos : ¬ n < 0 := by
    rw [Int32.lt_iff_toInt_lt, Int32.toInt_zero]
    omega
  have hin : 0 ≤ i ∧ i.toInt + n.toInt ≤ data.length.toInt := by
    rw [Int32.le_iff_toInt_le, JArray.toInt_length, hdata, Int32.toInt_zero,
      List.length_append]
    omega
  rw [JArray.copy, if_neg hpos, if_pos hin]
  simp only [hdata, hi, hn, Int.toNat_natCast, List.drop_left, List.take_length]

theorem copyOfRange_eq {data : JArray} (body : JArray) (xs : Bytes) {i j : Int32}
    (hdata : data.octets = xs ++ body.octets) (hi : i.toInt = xs.length)
    (hj : j.toInt = xs.length + body.octets.length) : data.copyOfRange i j = .ok body := by
  have hlt := j.toInt_lt
  have hend : ¬ j > data.length := by
    rw [gt_iff_lt, Int32.lt_iff_toInt_lt, JArray.toInt_length, hdata, List.length_append]
    omega
  have hle : ¬ i > j := by
    rw [gt_iff_lt, Int32.lt_iff_toInt_lt]
    omega
  rw [JArray.copyOfRange, if_neg hend, if_neg hle]
  refine copy_eq body xs hdata hi ?_
  rw [toInt_sub_int32 (by omega) (by omega)]
  omega

end Arrays

section Cursor

/-- The reader stands after a front part of its data. -/
def cursor (thrown : Throwable → Prop) : Cursor Throwable ByteReader UInt8 where
  stands r input := r.data.octets.length + 8 < 2 ^ 31 ∧
    ∃ front, r.data.octets = front ++ input ∧ r.pos.toInt = front.length
  failed e _ := thrown e

variable {thrown : Throwable → Prop} {r : ByteReader} {input : Bytes}

theorem pos_of_stands (hr : (cursor thrown).stands r input) :
    0 ≤ r.pos.toInt ∧ r.pos.toInt + input.length = r.data.octets.length := by
  obtain ⟨-, front, hdata, hpos⟩ := hr
  rw [hdata, hpos, List.length_append]
  omega

theorem toInt_pos_add (hr : (cursor thrown).stands r input) {n : Int32} (h0 : 0 ≤ n.toInt)
    (hn : n.toInt ≤ 8) : (r.pos + n).toInt = r.pos.toInt + n.toInt := by
  have hpos := pos_of_stands hr
  have hroom := hr.1
  exact toInt_add_int32 (by omega) (by omega)

/-- The bounds check of both classes fails exactly when too few octets are left. -/
theorem beyond_iff (hr : (cursor thrown).stands r input) {n : Int32} (h0 : 0 ≤ n.toInt)
    (hn : n.toInt ≤ 8) : r.pos + n > r.data.length ↔ (input.length : Int) < n.toInt := by
  have hpos := pos_of_stands hr
  rw [gt_iff_lt, Int32.lt_iff_toInt_lt, JArray.toInt_length, toInt_pos_add hr h0 hn]
  omega

theorem remaining_eq (hr : (cursor thrown).stands r input) :
    ∃ left : Int32, remaining r = .ok left r ∧ left.toInt = input.length := by
  have hpos := pos_of_stands hr
  have hroom := hr.1
  have hlen := r.data.toInt_length
  refine ⟨_, rfl, ?_⟩
  rw [toInt_sub_int32 (by omega) (by omega), hlen]
  omega

/-- The count guard of both classes compares with the unread octets. -/
theorem lt_mul_of_guard {left : Int32} {n count : Nat} (k : Int32) (hleft : left.toInt = n)
    (hk : 0 < k.toInt) (h : (left / k).toInt < count) : n < count * k.toInt.toNat := by
  have hdiv : (left / k).toInt = n / k.toInt := by
    rw [Int32.toInt_div_of_ne_left, hleft, Int.tdiv_eq_ediv_of_nonneg (by omega)]
    intro hmin
    rw [hmin] at hleft
    have : Int32.minValue.toInt = -2 ^ 31 := rfl
    omega
  rw [hdiv] at h
  zify
  rw [Int.toNat_of_nonneg (by omega)]
  exact (Int.ediv_lt_iff_lt_mul hk).mp h

theorem octet_eq (xs : Bytes) {ys : Bytes} {b : UInt8} {k : Int32}
    (hr : (cursor thrown).stands r (xs ++ b :: ys)) (hk : k.toInt = xs.length)
    (hx : xs.length ≤ 8) : octet k r = .ok b.toUInt32.toInt32 r := by
  have hadd := toInt_pos_add hr (n := k) (by omega) (by omega)
  obtain ⟨-, front, hdata, hpos⟩ := hr
  have hindex : r.data.index (r.pos + k) = .ok b.toInt8 := by
    refine index_eq (front ++ xs) (by rw [hdata, List.append_assoc]) ?_
    rw [hadd, hpos, hk, List.length_append]
    omega
  rw [← and_mask_of_octet]
  change EStateM.bind (ofExcept (r.data.index (r.pos + k))) _ r = _
  rw [EStateM.bind, ofExcept_ok hindex]
  rfl

/-- Moving over octets that are there, however the new position is computed. -/
theorem stands_move (xs : Bytes) {ys : Bytes} {pos : Int32}
    (hr : (cursor thrown).stands r (xs ++ ys)) (hpos : pos.toInt = r.pos.toInt + xs.length) :
    (cursor thrown).stands { r with pos := pos } ys := by
  obtain ⟨hroom, front, hdata, hfront⟩ := hr
  refine ⟨hroom, front ++ xs, ?_, ?_⟩
  · rw [hdata, List.append_assoc]
  · change pos.toInt = _
    rw [hpos, hfront, List.length_append]
    omega

theorem stands_advance (xs : Bytes) {ys : Bytes} {n : Int32}
    (hr : (cursor thrown).stands r (xs ++ ys)) (hn : n.toInt = xs.length) (hx : xs.length ≤ 8) :
    (cursor thrown).stands { r with pos := r.pos + n } ys :=
  stands_move xs hr (by rw [toInt_pos_add hr (by omega) (by omega), hn])

/-- The strict decoder on the next octets. -/
theorem decode_eq (s : Bytes) {ys : Bytes} {n : Int32} (hr : (cursor thrown).stands r (s ++ ys))
    (hn : n.toInt = s.length) : r.data.decode r.pos n = .ok (decode? s) := by
  have hend := pos_of_stands hr
  obtain ⟨-, front, hdata, hpos⟩ := hr
  rw [List.length_append] at hend
  have hin : 0 ≤ r.pos ∧ 0 ≤ n ∧ r.pos.toInt + n.toInt ≤ r.data.length.toInt := by
    rw [Int32.le_iff_toInt_le, Int32.le_iff_toInt_le, JArray.toInt_length, Int32.toInt_zero]
    omega
  rw [JArray.decode, if_pos hin, hpos, hn, hdata, Int.toNat_natCast, Int.toNat_natCast,
    List.drop_left, List.take_left]

theorem refinesAt_require {α β : Type} {R : α → β → Prop} {p : Parser UInt8 β} {n : Int32}
    {e : Throwable} {f : Unit → ReaderM α} (hr : (cursor thrown).stands r input)
    (h0 : 0 ≤ n.toInt) (hn : n.toInt ≤ 8) (he : thrown e)
    (hshort : (input.length : Int) < n.toInt → p input = none)
    (hf : n.toInt ≤ input.length → RefinesAt (cursor thrown) R (f ()) p r input) :
    RefinesAt (cursor thrown) R (require n e >>= f) p r input := by
  have hbeyond := beyond_iff hr h0 hn
  rw [require, bind_assoc]
  refine refinesAt_step (a := r) rfl (refinesAt_throwIf (fun h => ?_) (fun h => ?_))
  · exact ⟨hshort (hbeyond.mp h), he⟩
  · exact hf (not_lt.mp (mt hbeyond.mpr h))

end Cursor

section Primitives

variable {thrown : Throwable → Prop} {e : Throwable}

theorem refines_readOctet (he : thrown e) :
    Refines (cursor thrown) (fun v n => ∃ b : UInt8, v = b.toUInt32.toInt32 ∧ n = (b.toNat : Int))
      (readOctet e) parseU8 := by
  intro r input hr
  have hone : (1 : Int32).toInt = 1 := rfl
  refine refinesAt_require hr (by decide) (by decide) he (fun hshort => ?_) (fun hlong => ?_)
  · rw [parseU8, bind_apply, takeN_eq_none (by omega), Option.bind_none]
  obtain ⟨b, rest, rfl⟩ := List.exists_cons_of_length_pos (l := input) (by omega)
  refine refinesAt_step (octet_eq [] hr rfl (by simp)) ?_
  refine refinesAt_step (a := ()) rfl ?_
  have hp : parseU8 (b :: rest) = some ((b.toNat : Int), rest) := by
    rw [parseU8, bind_apply, show takeN 1 (b :: rest) = some ([b], rest) from rfl]
    simp [beNat, pure_apply]
  exact (refinesAt_some hp).mpr ⟨_, _, rfl, ⟨b, rfl, rfl⟩, stands_advance [b] hr rfl (by simp)⟩

theorem refines_readFour {α : Type} {join : Int32 → Int32 → Int32 → Int32 → α}
    {R : α → Nat → Prop} (he : thrown e)
    (hjoin : ∀ b0 b1 b2 b3 : UInt8, R (join b0.toUInt32.toInt32 b1.toUInt32.toInt32
      b2.toUInt32.toInt32 b3.toUInt32.toInt32) (beNat [b0, b1, b2, b3])) :
    Refines (cursor thrown) R (readFour e join) parseU32 := by
  intro r input hr
  have hfour : (4 : Int32).toInt = 4 := rfl
  refine refinesAt_require hr (by decide) (by decide) he (fun hshort => ?_) (fun hlong => ?_)
  · rw [parseU32, bind_apply, takeN_eq_none (by omega), Option.bind_none]
  have hlong : 4 ≤ input.length := by omega
  obtain ⟨b0, _, rfl, h1⟩ := exists_cons_of_succ_le hlong
  obtain ⟨b1, _, rfl, h2⟩ := exists_cons_of_succ_le h1
  obtain ⟨b2, _, rfl, h3⟩ := exists_cons_of_succ_le h2
  obtain ⟨b3, rest, rfl, -⟩ := exists_cons_of_succ_le h3
  refine refinesAt_step (octet_eq [] hr rfl (by simp)) ?_
  refine refinesAt_step (octet_eq [b0] hr rfl (by simp)) ?_
  refine refinesAt_step (octet_eq [b0, b1] hr rfl (by simp)) ?_
  refine refinesAt_step (octet_eq [b0, b1, b2] hr rfl (by simp)) ?_
  refine refinesAt_step (a := ()) rfl ?_
  have hp : parseU32 (b0 :: b1 :: b2 :: b3 :: rest) = some (beNat [b0, b1, b2, b3], rest) := rfl
  exact (refinesAt_some hp).mpr ⟨_, _, rfl, hjoin b0 b1 b2 b3,
    stands_advance [b0, b1, b2, b3] hr rfl (by simp)⟩

/-- The octets of a string are there: they are decoded or the decoder objects. -/
theorem refinesAt_decodeNext {r : ByteReader} {s rest : Bytes} {n pos : Int32}
    (hr : (cursor thrown).stands r (s ++ rest)) (he : thrown e) (hn : n.toInt = s.length)
    (hpos : pos.toInt = r.pos.toInt + s.length) :
    RefinesAt (cursor thrown) (fun t b => utf8 t = b) (decodeNext n pos e)
      (satisfying (takeN s.length) WellFormed) r (s ++ rest) := by
  refine refinesAt_step (a := r) rfl (refinesAt_step (ofExcept_ok (decode_eq s hr hn)) ?_)
  cases hdecode : decode? s with
  | none =>
      have hp : satisfying (takeN s.length) WellFormed (s ++ rest) = none := by
        rw [satisfying_takeN_append, if_neg (decode?_eq_none_iff.mp hdecode)]
      exact (refinesAt_none hp).mpr ⟨_, _, rfl, he⟩
  | some t =>
      have ht := decode?_eq_some_iff.mp hdecode
      have hp : satisfying (takeN s.length) WellFormed (s ++ rest) = some (s, rest) := by
        rw [satisfying_takeN_append, if_pos (ht ▸ wellFormed_utf8 t)]
      exact (refinesAt_some hp).mpr ⟨t, _, rfl, ht, stands_move s hr hpos⟩

/-- The map both `readKV` methods build from entries that were read. -/
theorem toMap_foldl_put_empty {as : List (String × String)} {bs : Entries}
    (h : List.Forall₂ (fun e b => (utf8 e.1, utf8 e.2) = b) as bs) :
    (as.foldl (fun m e => m.put e.1 e.2) LinkedHashMap.empty).toMap = toMap bs := by
  have hoctets : octetsOf as = bs := by
    induction h with
    | nil => rfl
    | cons hab _ ih =>
        rw [← hab, ← ih]
        rfl
  rw [LinkedHashMap.toMap_foldl_put, hoctets]
  rfl

end Primitives

end HelloWebsocket.Jvm
