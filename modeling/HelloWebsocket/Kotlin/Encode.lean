import HelloWebsocket.Kotlin.Decode

/-!
# What the Kotlin encoder writes

Every method of `ByteWriter` appends the encoding of its argument as long as the
result fits in an array. A result type is written as its octet, so the sign of
the `Byte` does not show in the frame.
-/

namespace HelloWebsocket.Kotlin

open BigEndian Utf8 Words Writing Protocol Jvm

section Writer

theorem writes_writeU8 (v : Int32) : Writes sink (writeU8 v) (u8 v.toInt) := by
  rw [u8, ← low_octet_int32]
  exact writes_write _

theorem writes_writeU32 (v : Int32) : Writes sink (writeU32 v) (u32 v.toBitVec.toNat) := by
  rw [u32, ← octets_int32]
  iterate 3 apply writes_write_bind
  exact writes_write _

theorem writes_count (n : Nat) : Writes sink (writeU32 (Int32.ofNat n)) (u32 n) := by
  have hbits : (Int32.ofNat n).toBitVec.toNat = n % 2 ^ 32 := BitVec.toNat_ofNat n 32
  have h := writes_writeU32 (Int32.ofNat n)
  rwa [hbits, u32_mod] at h

theorem writes_writeI32 (v : Int32) : Writes sink (writeI32 v) (i32 v.toInt) := by
  rw [i32, twos_int32]
  exact writes_writeU32 v

theorem writes_writeI64 (v : Int64) : Writes sink (writeI64 v) (i64 v.toInt) := by
  rw [i64, ← beBytes_halves, ← toNat_toInt32, ← toNat_toInt32]
  exact writes_bind (writes_writeU32 _) (writes_writeU32 _)

theorem writes_writeString (s : String) : Writes sink (writeString s) (string (utf8 s)) := by
  refine writes_getBytes (by simp [string]) fun b hb => ?_
  rw [string, ← hb]
  exact writes_bind (writes_count _) (writes_append _)

theorem writes_writeKV (m : List (String × String)) : Writes sink (writeKV m) (kv (octetsOf m)) := by
  have hentry (e : String × String) :
      Writes sink (writeString e.1 >>= fun _ => writeString e.2) (entry (utf8 e.1, utf8 e.2)) :=
    writes_bind (writes_writeString e.1) (writes_writeString e.2)
  rw [kv, octetsOf, List.length_map, List.flatMap_map]
  exact writes_bind (writes_count m.length) (writes_forM hentry m)

theorem writes_writeEchoResults (rs : List (EchoResult (List (String × String)))) :
    Writes sink (writeEchoResults rs) (u32 (rs.map (EchoResult.view octetsOf)).length ++
      (rs.map (EchoResult.view octetsOf)).flatMap echoResult) := by
  rw [List.length_map, List.flatMap_map]
  refine writes_bind (writes_count rs.length) (writes_forM (fun r => ?_) rs)
  rw [echoResult, List.append_assoc]
  have htype := writes_writeU8 r.type.toInt32
  rw [Int8.toInt_toInt32] at htype
  exact writes_bind (writes_writeI64 r.idx) (writes_bind htype (writes_writeKV r.kv))

theorem sound_fieldWriters :
    fieldWriters.Sound sink text (fun rs => some (rs.map (EchoResult.view octetsOf))) where
  writeString := by
    rintro s _ ⟨⟩
    exact writes_writeString s
  writeI64 := writes_writeI64
  writeI32 := writes_writeI32
  writeEchoResults := by
    rintro rs _ ⟨⟩
    exact writes_writeEchoResults rs

end Writer

section Messages

/-- `encode` writes the frame of the message the record stands for when its size is an `Int`. -/
theorem encode_eq {m : Message (List (String × String))} {p : Protocol.Message Entries}
    (hp : m.view octetsOf = some p) (hsize : (payload p).length + 8 < 2 ^ 31) :
    ∃ a, m.encode = .ok a ∧ a.octets = frame p := by
  obtain ⟨w, hw, ho⟩ := encodeFields_eq sound_fieldWriters ⟨.empty⟩ rfl
    (.illegalArgument ("unknown message type: 0x" ++ Hex.signed m.type.toInt)) hp
    (by change _ < 2 ^ 31; omega)
  have hbuf : w.buf.octets = payload p := ho
  obtain ⟨a, ha, hoctets⟩ := frameArray_eq p.type.code w.buf (by rw [hbuf]; exact hsize)
  refine ⟨a, ?_, by rw [hoctets, hbuf]; rfl⟩
  rw [Message.encode, hw]
  exact ha

end Messages

end HelloWebsocket.Kotlin
