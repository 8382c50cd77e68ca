import HelloWebsocket.Wire.Base64
import HelloWebsocket.Wire.Hex
import HelloWebsocket.Wire.Sha1
import HelloWebsocket.Wire.Sha256
import HelloWebsocket.Ws.Handshake

/-!
# The Swift hash functions

`SHA1.hash`, `base64Encode` and `computeWebSocketAccept` of `SHA1.swift`, `SHA256.hash` and
`hashNumber` of `Codec.swift`, and that they compute SHA-1, the encoding of RFC 4648 and
SHA-256.

## Implementation notes

The arithmetic of Swift traps on overflow where it is not written with `&`, so the length
in bits, and with it the functions, return no value for a message of `2^61` octets or
more. Both functions pad the message with the same statements. A string is its octets.
-/

namespace HelloWebsocket.Swift

open BigEndian BlockHash Utf8

section Padding

/-- `UInt64(msg.count) * 8` -/
def bitLen (count : Nat) : Option UInt64 :=
  if count * 8 < 2 ^ 64 then some (UInt64.ofNat count * 8) else none

/-- The array `msg` before the block loop. -/
def padded (data : Bytes) : Option Bytes :=
  (bitLen data.length).map fun bits : UInt64 =>
    fillZeros (data ++ [0x80]) ++
      [7, 6, 5, 4, 3, 2, 1, 0].map fun i : UInt64 => ((bits >>> (i * 8)) &&& 0xFF).toUInt8

/-- `stride(from: 0, to: count, by: 64)` -/
def blockStarts (count : Nat) : List Nat := (List.range ((count + 63) / 64)).map (64 * ·)

/-- The octets appended to `result` for a word. -/
def wordOctets (v : UInt32) : Bytes :=
  [((v >>> 24) &&& 0xFF).toUInt8, ((v >>> 16) &&& 0xFF).toUInt8, ((v >>> 8) &&& 0xFF).toUInt8,
    (v &&& 0xFF).toUInt8]

theorem padded_eq {data : Bytes} (h : data.length < 2 ^ 61) :
    padded data = some (data ++ padding data.length) := by
  rw [padded, bitLen, if_pos (by omega), Option.map_some]
  simp only [Words.toUInt8_and_mask]
  rw [Words.octets_u64, beBytes_bitLen, fillZeros_append]

/-- The padded message consists of whole blocks. -/
theorem blockStarts_padded (data : Bytes) :
    blockStarts (data ++ padding data.length).length =
      (List.range ((data ++ padding data.length).length / 64)).map (64 * ·) := by
  have hwhole : (data ++ padding data.length).length % 64 = 0 := by
    rw [← fillZeros_append, fillZeros_eq]
    simp only [List.length_append, List.length_replicate, length_beBytes, List.length_singleton]
    omega
  have hcount : ((data ++ padding data.length).length + 63) / 64 =
      (data ++ padding data.length).length / 64 := by omega
  rw [blockStarts, hcount]

end Padding

/-- `SHA1.hash` -/
def SHA1.hash (data : Bytes) : Option Bytes :=
  (padded data).map fun msg =>
    let h := (blockStarts msg.length).foldl (Sha1.compressBlock msg) Sha1.initial
    [h.a, h.b, h.c, h.d, h.e].flatMap wordOctets

theorem SHA1.hash_eq {data : Bytes} (h : data.length < 2 ^ 61) :
    SHA1.hash data = some (Sha1.sha1 data) := by
  have hloop : ((List.range ((data ++ padding data.length).length / 64)).map (64 * ·)).foldl
      (Sha1.compressBlock (data ++ padding data.length)) Sha1.initial =
        BlockHash.hash Sha1.compress Sha1.initial data :=
    foldl_padded rfl fun s off hoff => Sha1.compressBlock_eq s hoff
  rw [SHA1.hash, padded_eq h, Option.map_some, blockStarts_padded, hloop, Sha1.sha1, Sha1.digest]
  exact congrArg some (List.flatMap_congr fun v _ => Words.octets_u32 v)

/-- `SHA256.k` -/
def SHA256.k : List UInt32 :=
  [0x428a2f98, 0x71374491, 0xb5c0fbcf, 0xe9b5dba5, 0x3956c25b, 0x59f111f1, 0x923f82a4, 0xab1c5ed5,
    0xd807aa98, 0x12835b01, 0x243185be, 0x550c7dc3, 0x72be5d74, 0x80deb1fe, 0x9bdc06a7, 0xc19bf174,
    0xe49b69c1, 0xefbe4786, 0x0fc19dc6, 0x240ca1cc, 0x2de92c6f, 0x4a7484aa, 0x5cb0a9dc, 0x76f988da,
    0x983e5152, 0xa831c66d, 0xb00327c8, 0xbf597fc7, 0xc6e00bf3, 0xd5a79147, 0x06ca6351, 0x14292967,
    0x27b70a85, 0x2e1b2138, 0x4d2c6dfc, 0x53380d13, 0x650a7354, 0x766a0abb, 0x81c2c92e, 0x92722c85,
    0xa2bfe8a1, 0xa81a664b, 0xc24b8b70, 0xc76c51a3, 0xd192e819, 0xd6990624, 0xf40e3585, 0x106aa070,
    0x19a4c116, 0x1e376c08, 0x2748774c, 0x34b0bcb5, 0x391c0cb3, 0x4ed8aa4a, 0x5b9cca4f, 0x682e6ff3,
    0x748f82ee, 0x78a5636f, 0x84c87814, 0x8cc70208, 0x90befffa, 0xa4506ceb, 0xbef9a3f7, 0xc67178f2]

/-- `SHA256.hash` -/
def SHA256.hash (data : Bytes) : Option Bytes :=
  (padded data).map fun msg =>
    let h := (blockStarts msg.length).foldl (Sha256.compressBlock SHA256.k msg) Sha256.initial
    [h.a, h.b, h.c, h.d, h.e, h.f, h.g, h.h].flatMap wordOctets

theorem SHA256.hash_eq {data : Bytes} (h : data.length < 2 ^ 61) :
    SHA256.hash data = some (Sha256.sha256 data) := by
  have hk : SHA256.k = Sha256.constants := rfl
  have hloop : ((List.range ((data ++ padding data.length).length / 64)).map (64 * ·)).foldl
      (Sha256.compressBlock Sha256.constants (data ++ padding data.length)) Sha256.initial =
        BlockHash.hash Sha256.compress Sha256.initial data :=
    foldl_padded rfl fun s off hoff => Sha256.compressBlock_eq s hoff
  rw [SHA256.hash, padded_eq h, Option.map_some, blockStarts_padded, hk, hloop, Sha256.sha256,
    Sha256.digest]
  exact congrArg some (List.flatMap_congr fun v _ => Words.octets_u32 v)

/-- `hashNumber` -/
def hashNumber (num : Int64) : Option Bytes :=
  (SHA256.hash (utf8 (toString num.toInt))).map fun fullHash =>
    (fullHash.take 5).flatMap fun b => utf8 (Hex.byte b)

section Accept

/-- The loop of `base64Encode` over whole groups: the index and the text at its end. -/
def base64Loop (chars data : Bytes) (i : Nat) (result : Bytes) : Nat × Bytes :=
  if i + 2 < data.length then
    let n : UInt32 := ((data.getD i 0).toUInt32 <<< 16) ||| ((data.getD (i + 1) 0).toUInt32 <<< 8) |||
      (data.getD (i + 2) 0).toUInt32
    base64Loop chars data (i + 3) (result ++
      [chars.getD ((n >>> 18) &&& 0x3F).toNat 0, chars.getD ((n >>> 12) &&& 0x3F).toNat 0,
        chars.getD ((n >>> 6) &&& 0x3F).toNat 0, chars.getD (n &&& 0x3F).toNat 0])
  else (i, result)
  termination_by data.length - i

/-- What `base64Encode` appends after the loop. -/
def base64Tail (chars data : Bytes) (i : Nat) : Bytes :=
  if i < data.length then
    let remaining := data.length - i
    let n : UInt32 := (data.getD i 0).toUInt32 <<< 16
    let n := if remaining > 1 then n ||| ((data.getD (i + 1) 0).toUInt32 <<< 8) else n
    [chars.getD ((n >>> 18) &&& 0x3F).toNat 0, chars.getD ((n >>> 12) &&& 0x3F).toNat 0] ++
      if remaining > 1 then [chars.getD ((n >>> 6) &&& 0x3F).toNat 0, 0x3D] else [0x3D, 0x3D]
  else []

/-- `base64Encode` -/
def base64Encode (data : Bytes) : Bytes :=
  let chars := utf8 "ABCDEFGHIJKLMNOPQRSTUVWXYZabcdefghijklmnopqrstuvwxyz0123456789+/"
  let (i, result) := base64Loop chars data 0 []
  result ++ base64Tail chars data i

/-- `computeWebSocketAccept` -/
def computeWebSocketAccept (key : Bytes) : Option Bytes :=
  let magic := utf8 "258EAFA5-E914-47DA-95CA-C5AB0DC85B11"
  let combined := key ++ magic
  (SHA1.hash combined).map base64Encode

theorem drop_eq_getD_cons {data : Bytes} {i : Nat} (h : i < data.length) :
    data.drop i = data.getD i 0 :: data.drop (i + 1) := by
  rw [List.drop_eq_getElem_cons h, List.getD_eq_getElem?_getD, List.getElem?_eq_getElem h]
  rfl

/-- The loop leaves at most two octets, and what it has put out is the encoding of the others. -/
theorem base64Loop_spec (data : Bytes) (i : Nat) (result : Bytes) :
    let (j, out) := base64Loop Base64.alphabet data i result
    data.length ≤ j + 2 ∧
      out ++ Base64.encode (data.drop j) = result ++ Base64.encode (data.drop i) := by
  fun_induction base64Loop Base64.alphabet data i result with
  | case1 i result hmore n ih =>
      obtain ⟨hend, hout⟩ := ih
      refine ⟨hend, hout.trans ?_⟩
      have hdrop : data.drop i = data.getD i 0 :: data.getD (i + 1) 0 :: data.getD (i + 2) 0 ::
          data.drop (i + 3) := by
        rw [drop_eq_getD_cons (by omega), drop_eq_getD_cons (by omega), drop_eq_getD_cons (by omega)]
      rw [hdrop, Base64.encode, List.append_assoc]
      simp only [n, Base64.getD_alphabet_and, UInt32.toNat_shiftRight, Nat.shiftRight_eq_div_pow,
        Base64.toNat_or_three]
      rfl
  | case2 i result hend => exact ⟨by omega, rfl⟩

/-- The octets after the loop are padded. -/
theorem base64Tail_eq {data : Bytes} {i : Nat} (hend : data.length ≤ i + 2) :
    base64Tail Base64.alphabet data i = Base64.encode (data.drop i) := by
  by_cases hmore : i < data.length
  · rw [base64Tail, if_pos hmore, drop_eq_getD_cons hmore]
    by_cases htwo : data.length - i > 1
    · have hdrop : data.drop (i + 1) = [data.getD (i + 1) 0] := by
        rw [drop_eq_getD_cons (by omega), List.drop_eq_nil_of_le (by omega)]
      have hnumber := Base64.toNat_or_three (data.getD i 0) (data.getD (i + 1) 0) 0
      rw [Base64.or_zero] at hnumber
      rw [hdrop, Base64.encode]
      simp only [if_pos htwo, Base64.getD_alphabet_and, UInt32.toNat_shiftRight, Nat.shiftRight_eq_div_pow,
        hnumber]
      rfl
    · have hdrop : data.drop (i + 1) = [] := List.drop_eq_nil_of_le (by omega)
      have hnumber := Base64.toNat_or_three (data.getD i 0) 0 0
      rw [Base64.or_zero, Base64.or_zero_shift] at hnumber
      rw [hdrop, Base64.encode]
      simp only [if_neg htwo, Base64.getD_alphabet_and, UInt32.toNat_shiftRight, Nat.shiftRight_eq_div_pow,
        hnumber]
      rfl
  · rw [base64Tail, if_neg hmore, List.drop_eq_nil_of_le (Nat.le_of_not_lt hmore), Base64.encode]

/-- `base64Encode` is the encoding of RFC 4648. -/
theorem base64Encode_eq (data : Bytes) : base64Encode data = Base64.encode data := by
  obtain ⟨hend, hout⟩ := base64Loop_spec data 0 []
  rw [List.drop_zero, List.nil_append, ← base64Tail_eq hend] at hout
  exact hout

theorem computeWebSocketAccept_eq {key : Bytes} (h : key.length + 36 < 2 ^ 61) :
    computeWebSocketAccept key = some (Ws.acceptKey key) := by
  have hlen : (key ++ utf8 "258EAFA5-E914-47DA-95CA-C5AB0DC85B11").length < 2 ^ 61 := by
    rw [List.length_append, show (utf8 "258EAFA5-E914-47DA-95CA-C5AB0DC85B11").length = 36 from rfl]
    exact h
  rw [computeWebSocketAccept, SHA1.hash_eq hlen, Option.map_some, base64Encode_eq, Ws.acceptKey]
  rfl

end Accept

end HelloWebsocket.Swift
