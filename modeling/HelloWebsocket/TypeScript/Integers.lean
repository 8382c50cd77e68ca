import HelloWebsocket.TypeScript.RoundTrip

/-!
# Integers of the Node.js and TypeScript codecs

Which integers come back as they were. Numbers in the range of their field do, and a
BigInt comes back as its residue in the signed 64-bit range. The sums in `readU32` stay
far below the integers at which Numbers begin to round.
-/

namespace HelloWebsocket.Node

open BigEndian Parsing Writing Protocol

section Integers

/-- Reading what was written gives the number and steps over it, wherever it stands. -/
def ReadsBack (write : WriterM Unit) (read : ReaderM Int) (v : Int) : Prop :=
  ∃ w, write ⟨[]⟩ = .ok () w ∧ ∀ front rest,
    read ⟨front ++ (w.data ++ rest), front.length⟩ =
      .ok v ⟨front ++ (w.data ++ rest), (front ++ w.data).length⟩

theorem readsBack_of_parse {α : Type} {write : WriterM Unit} {read : ReaderM Int} {v : Int}
    {octets : Bytes} {p : Parser UInt8 α} {R : Int → α → Prop} {a : α}
    (hwrite : Writes sink write octets) (hread : ∀ data, Refines (reading data) R read p)
    (hparse : ∀ rest, p (octets ++ rest) = some (a, rest)) (hv : ∀ u, R u a → u = v) :
    ReadsBack write read v := by
  obtain ⟨w, hw, ho⟩ := hwrite ⟨[]⟩ trivial
  have hdata : w.data = octets := ho
  refine ⟨w, hw, fun front rest => ?_⟩
  rw [hdata]
  obtain ⟨u, r, hrun, hu, hr⟩ := (refinesAt_some (hparse rest)).mp
    (hread _ _ _ (Positions.stands_append front (octets ++ rest)))
  rw [← List.append_assoc] at hr
  rw [hrun, hv u hu, Positions.eq_of_stands hr, List.append_assoc]

theorem readsBack_u32 {v : Int} (h : 0 ≤ v ∧ v < 2 ^ 32) : ReadsBack (writeU32 v) readU32 v := by
  obtain ⟨n, rfl⟩ := Int.eq_ofNat_of_zero_le h.1
  have hn : n < 2 ^ 32 := by omega
  refine readsBack_of_parse (writes_count n) (fun _ => refines_readU32) (a := n) (fun rest => ?_)
    fun u hu => hu
  exact (exact_parseU32 _ _ _).mpr ⟨_, ⟨hn, rfl⟩, rfl⟩

theorem readsBack_i32 {v : Int} (h : IsI32 v) : ReadsBack (writeI32 v) readI32 v := by
  refine readsBack_of_parse (writes_writeI32 v) (fun _ => refines_readI32) (fun rest => ?_)
    fun u hu => hu
  exact (exact_parseI32 _ _ _).mpr ⟨_, ⟨h, rfl⟩, rfl⟩

/-- The octets of an integer are those of its residue. -/
theorem i64_bmod (v : Int) : i64 (Int.bmod v (2 ^ 64)) = i64 v := by
  have hmod : Int.bmod v (2 ^ 64) % 2 ^ 64 = v % 2 ^ 64 := Int.bmod_emod
  rw [i64, i64, twos, twos, hmod]

theorem readsBack_i64 {write : WriterM Unit} {v : Int} (hwrite : Writes sink write (i64 v)) :
    ReadsBack write readI64 (Int.bmod v (2 ^ 64)) := by
  have hrange : IsI64 (Int.bmod v (2 ^ 64)) := by
    have hl := Int.le_bmod (x := v) (m := 2 ^ 64) (by decide)
    have hu := Int.bmod_lt (x := v) (m := 2 ^ 64) (by decide)
    constructor <;> omega
  rw [← i64_bmod] at hwrite
  refine readsBack_of_parse hwrite (fun _ => refines_readI64) (fun rest => ?_) fun u hu => hu
  exact (exact_parseI64 _ _ _).mpr ⟨_, ⟨hrange, rfl⟩, rfl⟩

/-- The product and the sums of `readU32` are safe integers. -/
theorem isSafeInteger_sums (b0 b1 b2 b3 : UInt8) :
    IsSafeInteger (b0.toNat * 0x1000000) ∧
    IsSafeInteger (b0.toNat * 0x1000000 + shl b1.toNat 16) ∧
    IsSafeInteger (b0.toNat * 0x1000000 + shl b1.toNat 16 + shl b2.toNat 8) ∧
    IsSafeInteger (b0.toNat * 0x1000000 + shl b1.toNat 16 + shl b2.toNat 8 + b3.toNat) := by
  have h0 := b0.toNat_lt
  have h1 := b1.toNat_lt
  have h2 := b2.toNat_lt
  have h3 := b3.toNat_lt
  rw [(shl_octet b1).1, (shl_octet b2).2]
  refine ⟨⟨?_, ?_⟩, ⟨?_, ?_⟩, ⟨?_, ?_⟩, ⟨?_, ?_⟩⟩ <;> omega

end Integers

end HelloWebsocket.Node

namespace HelloWebsocket.TypeScript

open BigEndian Protocol
open Node (ReadsBack)

/-- The two reductions of a BigInt give the same halves. -/
theorem writeI64_eq (v : Int) : writeI64 v = Node.writeI64 v := by
  have hlow : v % 2 ^ 32 = ((Node.asUint64 v &&& 0xFFFFFFFF : Nat) : Int) := by
    rw [show 0xFFFFFFFF = 2 ^ 32 - 1 from rfl, Nat.and_two_pow_sub_one_eq_mod, Node.asUint64]
    omega
  have hhigh : (v >>> (32 : Nat)) % (2 ^ 32 : Int) =
      ((Node.asUint64 v >>> 32 &&& 0xFFFFFFFF : Nat) : Int) := by
    rw [show 0xFFFFFFFF = 2 ^ 32 - 1 from rfl, Nat.and_two_pow_sub_one_eq_mod,
      Nat.shiftRight_eq_div_pow, Int.shiftRight_eq_div_pow, Node.asUint64]
    omega
  rw [writeI64, Node.writeI64, hlow, hhigh]

/-- Reading inverts writing, on the range of each field, in both implementations; a BigInt comes
back reduced to 64 bits. The writers write the same, and no sum of `readU32` is rounded. -/
theorem integers_read_back (v : Int) :
    (0 ≤ v ∧ v < 2 ^ 32 →
      ReadsBack (Node.writeU32 v) Node.readU32 v ∧ ReadsBack (writeU32 v) readU32 v) ∧
    (-2 ^ 31 ≤ v ∧ v < 2 ^ 31 →
      ReadsBack (Node.writeI32 v) Node.readI32 v ∧ ReadsBack (writeI32 v) readI32 v) ∧
    (ReadsBack (Node.writeI64 v) Node.readI64 (Int.bmod v (2 ^ 64)) ∧
      ReadsBack (writeI64 v) readI64 (Int.bmod v (2 ^ 64))) ∧
    (-2 ^ 63 ≤ v ∧ v < 2 ^ 63 → Int.bmod v (2 ^ 64) = v) ∧
    (writeU8 v = Node.writeU8 v ∧ writeU16 v = Node.writeU16 v ∧ writeU32 v = Node.writeU32 v ∧
      writeI32 v = Node.writeI32 v ∧ writeI64 v = Node.writeI64 v) ∧
    ∀ b0 b1 b2 b3 : UInt8,
      Node.IsSafeInteger (b0.toNat * 0x1000000) ∧
      Node.IsSafeInteger (b0.toNat * 0x1000000 + Node.shl b1.toNat 16) ∧
      Node.IsSafeInteger (b0.toNat * 0x1000000 + Node.shl b1.toNat 16 + Node.shl b2.toNat 8) ∧
      Node.IsSafeInteger
        (b0.toNat * 0x1000000 + Node.shl b1.toNat 16 + Node.shl b2.toNat 8 + b3.toNat) := by
  refine ⟨fun h => ⟨Node.readsBack_u32 h, Node.readsBack_u32 h⟩,
    fun h => ⟨Node.readsBack_i32 h, Node.readsBack_i32 h⟩,
    ⟨Node.readsBack_i64 (Node.writes_writeI64 v), Node.readsBack_i64 (writes_writeI64 v)⟩,
    fun h => ?_, ⟨rfl, rfl, rfl, rfl, writeI64_eq v⟩, Node.isSafeInteger_sums⟩
  exact Int.bmod_eq_of_le (by omega) (by omega)

end HelloWebsocket.TypeScript
