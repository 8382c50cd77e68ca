import HelloWebsocket.Node.Codec

/-!
# What the Node.js encoders write

Every method of `ByteWriter` appends the encoding of its argument, whatever
integer it is called with, so each `encode` function returns the frame of its
message unless the payload is too long for the length field.
-/

namespace HelloWebsocket.Node

open BigEndian Utf8 Words Writing Protocol

section Operators

theorem toNat_ofInt32 (v : Int) : (Int32.ofInt v).toBitVec.toNat = twos 32 v := by
  rw [Int32.toBitVec_ofInt, BitVec.toNat_ofInt]
  rfl

theorem toNat_ofIntU32 (v : Int) : (UInt32.ofInt v).toNat = twos 32 v :=
  UInt32.toNat_ofNat_of_lt' (twos_lt 32 v)

/-- An array element is stored as its low octet. -/
theorem ofInt_eq (v : Int) : UInt8.ofInt v = UInt8.ofNat (twos 8 v) := rfl

theorem ofInt_toInt (z : Int32) : UInt8.ofInt z.toInt = z.toInt8.toUInt8 := by
  apply UInt8.toNat_inj.mp
  change _ = z.toInt8.toBitVec.toNat
  rw [ofInt_eq, UInt8.toNat_ofNat_of_lt' (twos_lt 8 z.toInt), Int32.toBitVec_toInt8,
    BitVec.signExtend_eq_setWidth_of_le _ (by omega), BitVec.toNat_setWidth, ← twos_int32]
  simp only [twos]
  omega

theorem ofInt_bitAnd (v : Int) :
    UInt8.ofInt (bitAnd v 0xFF) = (Int32.ofInt v &&& 0xFF).toInt8.toUInt8 :=
  ofInt_toInt _

theorem ofInt_shr (v : Int) (k : Int32) : Int32.ofInt (shr v k) = Int32.ofInt v >>> k :=
  Int32.ofInt_toInt _

/-- The unsigned shift by 24 leaves the same octet as the signed one. -/
theorem octet_ushr (v : Int) : UInt8.ofInt (bitAnd (ushr v 24) 0xFF) =
    UInt8.ofNat (twos 32 v / 2 ^ 24) := by
  have hlt : twos 32 v < 2 ^ 32 := twos_lt 32 v
  have hval : ushr v 24 = ((twos 32 v / 2 ^ 24 : Nat) : Int) := by
    rw [ushr, UInt32.toNat_shiftRight, toNat_ofIntU32, Nat.shiftRight_eq_div_pow]
    rfl
  rw [ofInt_bitAnd, octet_int32_zero, toNat_ofInt32, hval]
  congr 1
  simp only [twos]
  omega

theorem octets_number (v : Int) :
    [bitAnd (ushr v 24) 0xFF, bitAnd (shr v 16) 0xFF, bitAnd (shr v 8) 0xFF,
      bitAnd v 0xFF].map UInt8.ofInt = beBytes 4 (twos 32 v) := by
  have h := octets_int32 (Int32.ofInt v)
  rw [octet_int32 (Int32.ofInt v) 24 (n := 24) (by decide) le_rfl, toNat_ofInt32] at h
  rw [← h, List.map_cons, octet_ushr]
  simp only [List.map_cons, List.map_nil, ofInt_bitAnd, ofInt_shr]

end Operators

section Writer

/-- The octets `data()` returns; an array takes whatever is pushed. -/
def sink : Sink ByteWriter := ⟨ByteWriter.data, fun _ => True, fun _ _ => trivial⟩

theorem writes_push (vs : List Int) : Writes sink (push vs) (vs.map UInt8.ofInt) := by
  intro w _
  refine ⟨⟨w.buf ++ vs⟩, rfl, ?_⟩
  exact List.map_append

theorem writes_writeU8 (v : Int) : Writes sink (writeU8 v) (u8 v) := by
  have hoctet : u8 v = [bitAnd v 0xFF].map UInt8.ofInt := by
    have hlow : UInt8.ofNat (twos 32 v) = UInt8.ofNat (twos 8 v) := by
      apply UInt8.toNat_inj.mp
      rw [UInt8.toNat_ofNat', UInt8.toNat_ofNat']
      simp only [twos]
      omega
    rw [List.map_singleton, ofInt_bitAnd, octet_int32_zero, toNat_ofInt32, hlow, u8]
    simp [beBytes]
  rw [hoctet]
  exact writes_push _

theorem writes_writeU32 (v : Int) : Writes sink (writeU32 v) (beBytes 4 (twos 32 v)) := by
  rw [← octets_number]
  exact writes_push _

theorem writes_count (n : Nat) : Writes sink (writeU32 n) (u32 n) := by
  have htwos : twos 32 (n : Int) = n % 2 ^ 32 := by
    simp only [twos]
    omega
  have h := writes_writeU32 (n : Int)
  rwa [htwos, ← u32, u32_mod] at h

theorem writes_writeI32 (v : Int) : Writes sink (writeI32 v) (i32 v) := by
  have hlt : twos 32 v < 2 ^ 32 := twos_lt 32 v
  have hval : ushr v 0 = (twos 32 v : Int) := by
    rw [ushr, UInt32.toNat_shiftRight, toNat_ofIntU32]
    rfl
  rw [writeI32, hval]
  have h := writes_count (twos 32 v)
  exact h

theorem writes_writeI64 (v : Int) : Writes sink (writeI64 v) (i64 v) := by
  have hn : asUint64 v = twos 64 v := rfl
  have hlt : twos 64 v < 2 ^ 64 := twos_lt 64 v
  have hhigh : twos 64 v >>> 32 &&& 0xFFFFFFFF = twos 64 v / 256 ^ 4 := by
    rw [show 0xFFFFFFFF = 2 ^ 32 - 1 from rfl, Nat.and_two_pow_sub_one_eq_mod,
      Nat.shiftRight_eq_div_pow]
    omega
  have hlow : twos 64 v &&& 0xFFFFFFFF = twos 64 v % 256 ^ 4 := by
    rw [show 0xFFFFFFFF = 2 ^ 32 - 1 from rfl, Nat.and_two_pow_sub_one_eq_mod]
    rfl
  rw [i64, beBytes_add 4 4, ← beBytes_mod 4 (twos 64 v) 4 le_rfl, ← hhigh, ← hlow]
  exact writes_bind (writes_count _) (writes_count _)

theorem writes_writeString (s : String) : Writes sink (writeString s) (string (utf8 s)) := by
  have hbyte (b : UInt8) : Writes sink (push [(b.toNat : Int)]) [b] := by
    have h := writes_push [(b.toNat : Int)]
    have hb : twos 8 (b.toNat : Int) = b.toNat := by
      have := b.toNat_lt
      simp only [twos]
      omega
    rwa [List.map_singleton, ofInt_eq, hb, UInt8.ofNat_toNat] at h
  have hloop := writes_forM hbyte (utf8 s)
  rw [List.flatMap_singleton'] at hloop
  exact writes_bind (writes_count _) hloop

theorem writes_writeKV (m : List (String × String)) :
    Writes sink (writeKV m) (kv (m.map fun e => (utf8 e.1, utf8 e.2))) := by
  have hentry (e : String × String) :
      Writes sink (writeString e.1 >>= fun _ => writeString e.2) (entry (utf8 e.1, utf8 e.2)) :=
    writes_bind (writes_writeString e.1) (writes_writeString e.2)
  rw [kv, List.length_map, List.flatMap_map]
  exact writes_bind (writes_count m.length) (writes_forM hentry m)

theorem writes_result (r : EchoResult) :
    Writes sink (do writeI64 r.idx; writeU8 r.type; writeKV r.kv) (echoResult r.view) := by
  rw [echoResult, List.append_assoc]
  exact writes_bind (writes_writeI64 r.idx)
    (writes_bind (writes_writeU8 r.type) (writes_writeKV r.kv))

end Writer

section Messages

/-- Writes of a payload become its frame when the length field can hold the length. -/
theorem encodeWith_eq {p : Protocol.Message Entries} {writes : WriterM Unit} {t : MsgType}
    (hw : Writes sink writes (payload p)) (ht : p.type = t)
    (hlen : (payload p).length < 2 ^ 32) : encodeWith t writes = .ok (frame p) := by
  obtain ⟨w, hw, ho⟩ := hw ⟨[]⟩ trivial
  have hdata : w.data = payload p := ho
  rw [encodeWith, hw]
  change encodeFrame t.code w.data = _
  rw [encodeFrame, hdata, if_pos hlen, ← ht]
  rfl

end Messages

end HelloWebsocket.Node
