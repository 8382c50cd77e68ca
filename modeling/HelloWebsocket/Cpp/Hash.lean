import HelloWebsocket.Ws.Handshake

/-!
# The C++ hash and Base64 functions

`SHA1`, `base64Encode` and `wsAcceptKey` of `ws.hpp`, and that they compute SHA-1 and
the encoding of RFC 4648.

## Implementation notes

The arrays `h` and `data` are a hash value and a list of 64 octets, of which those from
`datalen` on may have any value. `transform` is called when all of them have been
written, and its body is the same as in the other hand-written implementation. Loops that
write consecutive elements are one store.
-/

namespace HelloWebsocket.Cpp

open BigEndian Sha1 BlockHash

section Sha1

/-- `SHA1` -/
structure SHA1 where
  h : State
  bitlen : UInt64
  data : Bytes
  datalen : Nat

namespace SHA1

/-- A new object; the octets of `data` are indeterminate. -/
def new (data : Bytes) : SHA1 := ⟨initial, 0, data, 0⟩

/-- `transform` -/
def transform (s : SHA1) : SHA1 :=
  { s with h := compressBlock s.data s.h 0 }

/-- Octets written to consecutive elements from index `i` on. -/
def store (data : Bytes) : Nat → Bytes → Bytes
  | _, [] => data
  | i, b :: bs => store (data.set i b) (i + 1) bs

/-- `data[datalen++] = b` for each of the octets -/
def append (s : SHA1) (bs : Bytes) : SHA1 :=
  { s with data := store s.data s.datalen bs, datalen := s.datalen + bs.length }

/-- A turn of the loop of `update`. -/
def push (s : SHA1) (b : UInt8) : SHA1 :=
  let s := s.append [b]
  if s.datalen = 64 then
    let s := s.transform
    { s with bitlen := s.bitlen + 512, datalen := 0 }
  else s

/-- `update` -/
def update (s : SHA1) (msg : Bytes) : SHA1 := msg.foldl push s

/-- `while (datalen < n) data[datalen++] = 0` -/
def fill (s : SHA1) (n : Nat) : SHA1 := s.append (List.replicate (n - s.datalen) 0)

/-- The octets of `totalBits`, highest first. -/
def bitsOctets (totalBits : UInt64) : Bytes :=
  (List.range 8).map fun i => ((totalBits >>> UInt64.ofNat ((7 - i) * 8)) &&& 0xFF).toUInt8

/-- The part of `final` up to the last call of `transform`. -/
def finish (s : SHA1) : SHA1 :=
  let totalBits := s.bitlen + UInt64.ofNat s.datalen * 8
  let s := s.append [0x80]
  let s := if s.datalen > 56 then { (s.fill 64).transform with datalen := 0 } else s
  let s := s.fill 56
  let s := { s with data := store s.data 56 (bitsOctets totalBits) }
  s.transform

/-- `final` -/
def final (s : SHA1) : Bytes :=
  let h := s.finish.h
  [h.a, h.b, h.c, h.d, h.e].flatMap fun v : UInt32 =>
    [((v >>> 24) &&& 0xFF).toUInt8, ((v >>> 16) &&& 0xFF).toUInt8, ((v >>> 8) &&& 0xFF).toUInt8,
      (v &&& 0xFF).toUInt8]

end SHA1

end Sha1

/-- `transform` is the compression function. -/
theorem transform_eq (s : SHA1) (h : s.data.length = 64) :
    s.transform = { s with h := Sha1.compress s.h s.data } := by
  rw [SHA1.transform, compressBlock_eq s.h (by omega), List.drop_zero, List.take_of_length_le h.le]

section Streaming

open SHA1

@[simp] theorem length_store (data : Bytes) (i : Nat) (bs : Bytes) :
    (store data i bs).length = data.length := by
  induction bs generalizing data i with
  | nil => rfl
  | cons b bs ih => rw [store, ih, List.length_set]

/-- A store leaves what stands in front of it and puts the octets behind that. -/
theorem take_store {data : Bytes} {i : Nat} (bs : Bytes) (h : i + bs.length ≤ data.length) :
    (store data i bs).take (i + bs.length) = data.take i ++ bs := by
  induction bs generalizing data i with
  | nil => rw [store, List.length_nil, Nat.add_zero, List.append_nil]
  | cons b bs ih =>
      rw [List.length_cons] at h
      have hset : (data.set i b).take (i + 1) = data.take i ++ [b] := by
        rw [List.set_eq_take_append_cons_drop, if_pos (by omega)]
        have hlen : (data.take i).length = i := by
          rw [List.length_take]
          omega
        have hsplit : data.take i ++ b :: data.drop (i + 1) =
            (data.take i ++ [b]) ++ data.drop (i + 1) := by
          rw [List.append_assoc]
          rfl
        rw [hsplit]
        refine List.take_left' ?_
        rw [List.length_append, hlen]
        rfl
      have hrest := @ih (data.set i b) (i + 1) (by rw [List.length_set]; omega)
      rw [hset, List.append_assoc] at hrest
      rw [store, List.length_cons, Nat.add_comm bs.length, ← Nat.add_assoc]
      exact hrest

/-- The object has taken the octets of `m`. -/
structure SHA1.Holds (s : SHA1) (m : Bytes) : Prop where
  size : s.data.length = 64
  absorbed : Absorbed Sha1.compress initial s.h (s.data.take s.datalen) m
  room : s.datalen < 64
  bits : s.bitlen.toNat + 8 * s.datalen ≡ 8 * m.length [MOD 2 ^ 64]

theorem holds_new {data : Bytes} (h : data.length = 64) : (SHA1.new data).Holds [] where
  size := h
  absorbed := absorbed_nil
  room := Nat.succ_pos 63
  bits := rfl

/-- A turn of `update`. -/
theorem SHA1.Holds.push {s : SHA1} {m : Bytes} (h : s.Holds m) (b : UInt8) :
    (s.push b).Holds (m ++ [b]) := by
  have hroom := h.room
  have hcontent : (store s.data s.datalen [b]).take (s.datalen + 1) =
      s.data.take s.datalen ++ [b] := take_store [b] (by rw [h.size]; exact hroom)
  have hsize : (store s.data s.datalen [b]).length = 64 := by rw [length_store, h.size]
  have htail : (s.data.take s.datalen).length = s.datalen := by
    rw [List.length_take, h.size]
    omega
  have hbits : 8 * (m ++ [b]).length = 8 * m.length + 8 := by
    rw [List.length_append]
    rfl
  rw [SHA1.push, append]
  by_cases hfull : s.datalen + [b].length = 64
  · have hdata : store s.data s.datalen [b] = s.data.take s.datalen ++ [b] := by
      rw [← hcontent, List.take_of_length_le]
      rw [hsize]
      exact hfull.ge
    rw [if_pos hfull, transform_eq _ hsize]
    refine ⟨hsize, ?_, Nat.succ_pos 63, ?_⟩
    · have hpush := h.absorbed.push_block b (by rw [htail]; exact hfull)
      rwa [← hdata] at hpush
    · have hlen : s.datalen = 63 := by simpa using hfull
      have hsum : (s.bitlen + 512).toNat ≡ s.bitlen.toNat + 8 * s.datalen + 8 [MOD 2 ^ 64] := by
        rw [UInt64.toNat_add, hlen]
        exact Nat.mod_modEq _ _
      change (s.bitlen + 512).toNat + 8 * 0 ≡ _ [MOD 2 ^ 64]
      rw [hbits, Nat.mul_zero, Nat.add_zero]
      exact hsum.trans (h.bits.add_right 8)
  · rw [if_neg hfull]
    have hlt : s.datalen + 1 < 64 := by
      have hne : s.datalen + 1 ≠ 64 := hfull
      omega
    refine ⟨hsize, ?_, hlt, ?_⟩
    · have hpush := h.absorbed.push b (by rw [htail]; exact hlt)
      rwa [← hcontent] at hpush
    · change s.bitlen.toNat + 8 * (s.datalen + 1) ≡ _ [MOD 2 ^ 64]
      rw [hbits, Nat.mul_succ, ← Nat.add_assoc]
      exact h.bits.add_right 8

theorem SHA1.Holds.update {s : SHA1} {m : Bytes} (h : s.Holds m) (msg : Bytes) :
    (s.update msg).Holds (m ++ msg) := by
  induction msg generalizing s m with
  | nil =>
      rw [List.append_nil]
      exact h
  | cons b msg ih =>
      have hstep := ih (h.push b)
      rw [List.append_assoc] at hstep
      exact hstep

theorem take_fill {s : SHA1} {n : Nat} (hs : s.data.length = 64) (hle : s.datalen ≤ n) (hn : n ≤ 64) :
    (s.fill n).data.take n = s.data.take s.datalen ++ List.replicate (n - s.datalen) 0 := by
  have hstore := @take_store s.data s.datalen (List.replicate (n - s.datalen) 0)
    (by rw [List.length_replicate]; omega)
  rwa [List.length_replicate, Nat.add_sub_of_le hle] at hstore

/-- The octets that end the last block. -/
theorem bitsOctets_eq (totalBits : UInt64) : bitsOctets totalBits = beBytes 8 totalBits.toNat := by
  simp only [bitsOctets, Words.toUInt8_and_mask, Words.octet_u64, beBytes]
  rfl

/-- The last block is written and compressed. -/
theorem final_block {s : SHA1} {m : Bytes} {totalBits : UInt64} (hs : s.data.length = 64)
    (hlen : s.datalen ≤ 56) (hbits : bitsOctets totalBits = beBytes 8 (8 * m.length)) :
    ({ s.fill 56 with data := store (s.fill 56).data 56 (bitsOctets totalBits) } : SHA1).transform.h =
      Sha1.compress s.h (lastBlock m (s.data.take s.datalen)) := by
  have hsize : (store (s.fill 56).data 56 (bitsOctets totalBits)).length = 64 := by
    rw [length_store, fill, append, length_store, hs]
  have htail : (s.data.take s.datalen).length = s.datalen := by
    rw [List.length_take]
    omega
  have hdata : store (s.fill 56).data 56 (bitsOctets totalBits) =
      lastBlock m (s.data.take s.datalen) := by
    have hstore := @take_store (s.fill 56).data 56 (bitsOctets totalBits)
      (by rw [hbits, length_beBytes, fill, append, length_store, hs])
    rw [take_fill hs hlen (by decide), hbits, length_beBytes, List.take_of_length_le
      (by rw [length_store, fill, append, length_store, hs])] at hstore
    rw [hbits, hstore, lastBlock, htail]
  rw [transform_eq _ hsize, hdata]
  rfl

theorem SHA1.Holds.bitsOctets_eq {s : SHA1} {m : Bytes} (h : s.Holds m) :
    bitsOctets (s.bitlen + UInt64.ofNat s.datalen * 8) = beBytes 8 (8 * m.length) := by
  have htotal : (s.bitlen + UInt64.ofNat s.datalen * 8).toNat = 8 * m.length % 256 ^ 8 := by
    have hmod : (s.bitlen.toNat + 8 * s.datalen) % 2 ^ 64 = 8 * m.length % 2 ^ 64 := h.bits
    rw [UInt64.toNat_add, UInt64.toNat_mul, UInt64.toNat_ofNat_of_lt' (h.room.trans (by decide)),
      show (8 : UInt64).toNat = 8 from rfl, Nat.add_mod_mod, Nat.mul_comm s.datalen, hmod]
    norm_num
  rw [Cpp.bitsOctets_eq, htotal, beBytes_mod 8 _ 8 le_rfl]

/-- The hash value before `final` writes it out. -/
theorem SHA1.Holds.finish_eq {s : SHA1} {m : Bytes} (h : s.Holds m) :
    s.finish.h = hash Sha1.compress initial m := by
  have hroom := h.room
  have htail : (s.data.take s.datalen).length = s.datalen := by
    rw [List.length_take, h.size]
    omega
  have hsize : (s.append [0x80]).data.length = 64 := by rw [append, length_store, h.size]
  have hcontent : (s.append [0x80]).data.take (s.append [0x80]).datalen =
      s.data.take s.datalen ++ [0x80] := take_store [0x80] (by rw [h.size]; exact hroom)
  rw [finish]
  by_cases hlong : (s.append [0x80]).datalen > 56
  · have hge : 56 < s.datalen + 1 := hlong
    have hfull : ((s.append [0x80]).fill 64).data.length = 64 := by
      rw [fill, append, length_store, hsize]
    have hdata : ((s.append [0x80]).fill 64).data =
        s.data.take s.datalen ++ [0x80] ++ List.replicate (64 - (s.datalen + 1)) 0 := by
      have htake := take_fill (n := 64) hsize hroom le_rfl
      rwa [hcontent, List.take_of_length_le hfull.le] at htake
    have hlast := final_block (m := m) (s := { (s.append [0x80]).fill 64 with
      h := Sha1.compress ((s.append [0x80]).fill 64).h ((s.append [0x80]).fill 64).data
      datalen := 0 }) hfull (Nat.zero_le 56) h.bitsOctets_eq
    rw [if_pos hlong, transform_eq _ hfull, h.absorbed.hash_of_ge (by rw [htail]; exact hge), htail,
      ← hdata]
    exact hlast
  · rw [if_neg hlong, final_block (m := m) hsize (Nat.le_of_not_lt hlong) h.bitsOctets_eq, hcontent,
      h.absorbed.hash_of_lt (by rw [htail]; exact Nat.le_of_not_lt hlong)]
    rfl

/-- `final` returns the hash of the octets taken. -/
theorem SHA1.Holds.final_eq {s : SHA1} {m : Bytes} (h : s.Holds m) : s.final = sha1 m := by
  rw [SHA1.final, sha1, digest, h.finish_eq]
  exact List.flatMap_congr fun v _ => Words.octets_u32 v

end Streaming

section Accept

/-- `base64Encode` -/
def base64Encode (data : Bytes) : Bytes :=
  let table := Utf8.utf8 "ABCDEFGHIJKLMNOPQRSTUVWXYZabcdefghijklmnopqrstuvwxyz0123456789+/"
  (List.range ((data.length + 2) / 3)).flatMap fun j =>
    let i := 3 * j
    let n : UInt32 := (data.getD i 0).toUInt32 <<< 16
    let n := if i + 1 < data.length then n ||| ((data.getD (i + 1) 0).toUInt32 <<< 8) else n
    let n := if i + 2 < data.length then n ||| (data.getD (i + 2) 0).toUInt32 else n
    [table.getD ((n >>> 18) &&& 0x3F).toNat 0, table.getD ((n >>> 12) &&& 0x3F).toNat 0,
      if i + 1 < data.length then table.getD ((n >>> 6) &&& 0x3F).toNat 0 else 0x3D,
      if i + 2 < data.length then table.getD (n &&& 0x3F).toNat 0 else 0x3D]

/-- `wsAcceptKey`; the octets of the hash object's buffer are indeterminate. -/
def wsAcceptKey (buffer clientKey : Bytes) : Bytes :=
  let combined := clientKey ++ Utf8.utf8 "258EAFA5-E914-47DA-95CA-C5AB0DC85B11"
  base64Encode ((SHA1.new buffer).update combined).final

/-- `base64Encode` is the encoding of RFC 4648. -/
theorem base64Encode_eq (data : Bytes) : base64Encode data = Base64.encode data := by
  have htable : Utf8.utf8 "ABCDEFGHIJKLMNOPQRSTUVWXYZabcdefghijklmnopqrstuvwxyz0123456789+/" =
      Base64.alphabet := rfl
  have hout {i : Nat} (h : ¬ i < data.length) : data.getD i 0 = 0 := by
    rw [List.getD_eq_getElem?_getD, List.getElem?_eq_none (Nat.le_of_not_lt h)]
    rfl
  rw [base64Encode, ← Base64.flatMap_group]
  apply List.flatMap_congr
  intro j _
  have hn : (if 3 * j + 2 < data.length then
      (if 3 * j + 1 < data.length then
        (data.getD (3 * j) 0).toUInt32 <<< 16 ||| ((data.getD (3 * j + 1) 0).toUInt32 <<< 8)
        else (data.getD (3 * j) 0).toUInt32 <<< 16) ||| (data.getD (3 * j + 2) 0).toUInt32
      else if 3 * j + 1 < data.length then
        (data.getD (3 * j) 0).toUInt32 <<< 16 ||| ((data.getD (3 * j + 1) 0).toUInt32 <<< 8)
        else (data.getD (3 * j) 0).toUInt32 <<< 16) =
      ((data.getD (3 * j) 0).toUInt32 <<< 16) ||| ((data.getD (3 * j + 1) 0).toUInt32 <<< 8) |||
        (data.getD (3 * j + 2) 0).toUInt32 := by
    split
    · rw [if_pos (by omega)]
    · next htwo =>
        rw [hout htwo, Base64.or_zero]
        split
        · rfl
        · next hone => rw [hout hone, Base64.or_zero_shift]
  simp only [htable, hn, Base64.getD_alphabet_and, UInt32.toNat_shiftRight,
    Nat.shiftRight_eq_div_pow, Base64.toNat_or_three]
  rfl

/-- `wsAcceptKey` encodes the hash of the key and the fixed string. -/
theorem wsAcceptKey_eq {buffer : Bytes} (h : buffer.length = 64) (clientKey : Bytes) :
    wsAcceptKey buffer clientKey = Ws.acceptKey clientKey := by
  have hholds := (holds_new h).update (clientKey ++ Utf8.utf8 "258EAFA5-E914-47DA-95CA-C5AB0DC85B11")
  rw [List.nil_append] at hholds
  rw [wsAcceptKey, base64Encode_eq, hholds.final_eq, Ws.acceptKey]
  rfl

-- the key and the answer of the example in RFC 6455, section 1.3
example : wsAcceptKey (List.replicate 64 0) (Utf8.utf8 "dGhlIHNhbXBsZSBub25jZQ==") =
    Utf8.utf8 "s3pPLMBiTxaQ9kYGzzhZRbK+xOo=" := by decide +kernel

end Accept

end HelloWebsocket.Cpp
