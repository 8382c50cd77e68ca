import HelloWebsocket.Java.Codec

/-!
# What the Java encoder writes

Every method of `ByteWriter` appends the encoding of its argument as long as the
result fits in an array, so `encode` returns the frame of the message its record
stands for, unless the size of the frame overflows.
-/

namespace HelloWebsocket.Java

open BigEndian Utf8 Words Writing Protocol Jvm

section Writer

theorem writes_writeU8 (v : Int32) : Writes sink (writeU8 v) (u8 v.toInt) := by
  rw [u8, ← low_octet_int32]
  exact writes_write _

theorem writes_writeU32 (v : Int64) : Writes sink (writeU32 v) (beBytes 4 v.toBitVec.toNat) := by
  rw [← low_octets_int64]
  iterate 3 apply writes_write_bind
  exact writes_write _

theorem writes_count (n : Nat) : Writes sink (writeU32 (Int32.ofNat n).toInt64) (u32 n) := by
  have hbits : (Int32.ofNat n).toBitVec.toNat = n % 2 ^ 32 := BitVec.toNat_ofNat n 32
  have h := writes_writeU32 (Int32.ofNat n).toInt64
  rwa [← u32, ← u32_mod, toNat_toInt64_mod, hbits, u32_mod] at h

theorem writes_writeI32 (v : Int32) : Writes sink (writeI32 v) (i32 v.toInt) := by
  have hmask : (v.toInt64 &&& 0xFFFFFFFF).toBitVec.toNat = v.toBitVec.toNat := by
    have h : v.toInt64 &&& 0xFFFFFFFF = v.toUInt32.toUInt64.toInt64 := toInt64_and_mask v.toUInt32
    rw [h]
    exact UInt32.toNat_toUInt64 v.toUInt32
  have h := writes_writeU32 (v.toInt64 &&& 0xFFFFFFFF)
  rwa [hmask, ← twos_int32, ← i32] at h

theorem writes_writeI64 (v : Int64) : Writes sink (writeI64 v) (i64 v.toInt) := by
  rw [i64, twos_int64, beBytes_add 4 4, ← low_octets_int64, ← high_octets_int64]
  simp only [List.cons_append, List.nil_append]
  iterate 7 apply writes_write_bind
  exact writes_write _

theorem writes_writeString (s : String) : Writes sink (writeString s) (string (utf8 s)) := by
  refine writes_getBytes (by simp [string]) fun b hb => ?_
  rw [string, ← hb]
  exact writes_bind (writes_count _) (writes_append _)

theorem writes_writeKV (m : List (String × String)) : Writes sink (writeKV m) (kv (octetsOf m)) := by
  have hentry (e : String × String) :
      Writes sink (writeString e.1 >>= fun _ => writeString e.2) (entry (utf8 e.1, utf8 e.2)) :=
    writes_bind (writes_writeString e.1) (writes_writeString e.2)
  rw [kv, octetsOf, List.length_map, List.flatMap_map]
  exact writes_bind (writes_count m.length) (writes_forM hentry m)

theorem writes_writeEchoResults (rs : List (EchoResult (List (String × String)))) :
    Writes sink (writeEchoResults rs) (u32 (rs.map (EchoResult.view octetsOf)).length ++
      (rs.map (EchoResult.view octetsOf)).flatMap echoResult) := by
  rw [List.length_map, List.flatMap_map]
  refine writes_bind (writes_count rs.length) (writes_forM (fun r => ?_) rs)
  rw [echoResult, List.append_assoc]
  exact writes_bind (writes_writeI64 r.idx)
    (writes_bind (writes_writeU8 r.type) (writes_writeKV r.kv))

theorem sound_fieldWriters :
    fieldWriters.Sound sink text (fun rs => rs.map (List.map (EchoResult.view octetsOf))) where
  writeString := by
    rintro s b hs
    obtain ⟨t, rfl, rfl⟩ := Option.map_eq_some_iff.mp hs
    exact writes_writeString t
  writeI64 := writes_writeI64
  writeI32 := writes_writeI32
  writeEchoResults := by
    rintro rs b hrs
    obtain ⟨rs, rfl, rfl⟩ := Option.map_eq_some_iff.mp hrs
    exact writes_writeEchoResults rs

end Writer

section Messages

/-- The writer of `encode` holds the payload when the array of the frame is made. -/
theorem encode_eq_encodeFrame {m : Message (List (String × String))} {p : Protocol.Message Entries}
    (hp : m.view octetsOf = some p) (hsize : (payload p).length < 2 ^ 31) :
    m.encode = encodeFrame p.type.code.toInt8 ⟨payload p, hsize⟩ := by
  obtain ⟨w, hw, ho⟩ := encodeFields_eq sound_fieldWriters ⟨.empty⟩ rfl
    (.illegalArgument ("unknown message type: 0x" ++ Hex.byte m.type.toUInt8)) hp hsize
  have hbuf : w.buf = ⟨payload p, hsize⟩ := JArray.ext ho
  rw [Message.encode, hw, ← hbuf]
  rfl

/-- `encode` writes the frame of the message the record stands for when its size is an `int`. -/
theorem encode_eq {m : Message (List (String × String))} {p : Protocol.Message Entries}
    (hp : m.view octetsOf = some p) (hsize : (payload p).length + 8 < 2 ^ 31) :
    ∃ a, m.encode = .ok a ∧ a.octets = frame p := by
  rw [encode_eq_encodeFrame hp (by omega)]
  exact frameArray_eq p.type.code ⟨payload p, _⟩ hsize

end Messages

end HelloWebsocket.Java
