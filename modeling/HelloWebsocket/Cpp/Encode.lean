import HelloWebsocket.Wire.Words
import HelloWebsocket.Cpp.Codec

/-!
# What the C++ encoder writes

Every member function of `ByteWriter` appends the encoding of its argument, so
`Message::encode` returns the frame of the message its record stands for.

## Implementation notes

The equations hold for strings and lists of any length: a length field that is
too small for its value shows the value modulo `2 ^ 32` on both sides.
-/

namespace HelloWebsocket.Cpp

open BigEndian Words Writing Protocol

section Writer

/-- The buffer of a writer; a `std::vector` takes whatever is pushed. -/
def sink : Sink ByteWriter := ⟨ByteWriter.buf, fun _ => True, fun _ _ => trivial⟩

theorem writes_push (bs : Bytes) : Writes sink (push bs) bs :=
  fun w _ => ⟨⟨w.buf ++ bs⟩, rfl, rfl⟩

theorem u8_toNat (v : UInt8) : u8 v.toNat = [v] := by
  have hlt := v.toNat_lt
  have ht : twos 8 v.toNat = v.toNat := by
    simp only [twos]
    omega
  rw [u8, ht]
  simp [beBytes]

theorem writes_writeU8 (v : UInt8) : Writes sink (writeU8 v) (u8 v.toNat) := by
  rw [u8_toNat]
  exact writes_push [v]

theorem writes_writeU32 (v : UInt32) : Writes sink (writeU32 v) (u32 v.toNat) := by
  rw [u32, ← octets_u32]
  exact writes_push _

theorem writes_count (n : Nat) : Writes sink (writeU32 (UInt32.ofNat n)) (u32 n) := by
  have h := writes_writeU32 (UInt32.ofNat n)
  rwa [UInt32.toNat_ofNat', u32_mod] at h

theorem writes_writeI32 (v : Int32) : Writes sink (writeI32 v) (i32 v.toInt) := by
  rw [i32, twos_int32]
  exact writes_writeU32 v.toUInt32

theorem writes_writeI64 (v : Int64) : Writes sink (writeI64 v) (i64 v.toInt) := by
  rw [i64, ← beBytes_halves]
  exact writes_bind (writes_writeU32 _) (writes_writeU32 _)

theorem writes_writeString (s : Bytes) : Writes sink (writeString s) (string s) :=
  writes_bind (writes_count s.length) (writes_push s)

theorem writes_writeKV (m : Entries) : Writes sink (writeKV m) (kv m) := by
  have hentry (e : Bytes × Bytes) :
      Writes sink (writeString e.1 >>= fun _ => writeString e.2) (entry e) :=
    writes_bind (writes_writeString e.1) (writes_writeString e.2)
  exact writes_bind (writes_count m.length) (writes_forM hentry m)

theorem writes_writeEchoResults (rs : List (EchoResult Entries)) :
    Writes sink (writeEchoResults rs)
      (u32 (rs.map EchoResult.view).length ++ (rs.map EchoResult.view).flatMap echoResult) := by
  rw [List.length_map, List.flatMap_map]
  refine writes_bind (writes_count rs.length) (writes_forM (fun r => ?_) rs)
  rw [echoResult, List.append_assoc]
  exact writes_bind (writes_writeI64 r.idx)
    (writes_bind (writes_writeU8 r.type) (writes_writeKV r.kv))

theorem sound_fieldWriters :
    fieldWriters.Sound sink some (fun rs => some (rs.map EchoResult.view)) where
  writeString := by
    rintro s _ ⟨⟩
    exact writes_writeString s
  writeI64 := writes_writeI64
  writeI32 := writes_writeI32
  writeEchoResults := by
    rintro rs _ ⟨⟩
    exact writes_writeEchoResults rs

end Writer

section Messages

theorem encodeFrame_eq (type : UInt8) (body : Bytes) :
    encodeFrame type body = envelope type 0x00 body := by
  have hlen : u32 body.length = beBytes 4 (UInt32.ofNat body.length).toNat := by
    rw [UInt32.toNat_ofNat', ← u32_mod]
    rfl
  rw [envelope, hlen, ← octets_u32]
  rfl

/-- `encode` writes the frame of the message the record stands for. -/
theorem encode_eq {m : Message Entries} {p : Protocol.Message Entries} (hp : m.view = some p) :
    m.encode = .ok (frame p) := by
  obtain ⟨w, hw, ho⟩ := encodeFields_eq sound_fieldWriters ⟨[]⟩ rfl
    (.runtimeError "unknown message type") hp trivial
  have hbuf : w.buf = payload p := ho
  rw [Message.encode, hw, frame, ← encodeFrame_eq, ← hbuf]
  rfl

end Messages

end HelloWebsocket.Cpp
