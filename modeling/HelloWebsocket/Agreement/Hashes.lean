import HelloWebsocket.Cpp.Hash
import HelloWebsocket.Cpp.Utility
import HelloWebsocket.Swift.Hash
import HelloWebsocket.Wire.Decimal

/-!
# The hash functions of C++ and Swift agree

Both languages bring their own SHA-1 for the handshake and their own SHA-256 for
`hashNumber`. The C++ SHA-1 takes its message in pieces, all the others take it as a
whole; each computes the hash of the standard. The two base 64 encoders treat the last
octets differently, one inside its loop and one after it, with the same result.
-/

namespace HelloWebsocket.Agreement

open Utf8

section Streaming

open Cpp

/-- The object between the calls of `update`. -/
theorem holds_updates {buffer : Bytes} (h : buffer.length = 64) (pieces : List Bytes) :
    (pieces.foldl SHA1.update (SHA1.new buffer)).Holds pieces.flatten := by
  induction pieces using List.reverseRecOn with
  | nil => exact holds_new h
  | append_singleton pieces piece ih =>
      rw [List.foldl_append, List.flatten_append, List.flatten_singleton]
      exact ih.update piece

/-- The bits are counted exactly as long as 64 bits suffice for their number. -/
theorem bits_of_holds {s : Cpp.SHA1} {m : Bytes} (h : s.Holds m) (hlen : m.length < 2 ^ 61) :
    s.bitlen.toNat + 8 * s.datalen = 8 * m.length := by
  have htail : m.length % 64 = s.datalen := by
    rw [h.absorbed.length_mod, List.length_take, h.size]
    exact Nat.min_eq_left h.room.le
  have hbits : (s.bitlen.toNat + 8 * s.datalen) % 2 ^ 64 = 8 * m.length % 2 ^ 64 := h.bits
  have hword := s.bitlen.toNat_lt
  omega

/-- A message in pieces has the hash of the whole, which is SHA-1, and between two calls the
buffer has room and the bits taken are counted. -/
theorem streaming_sha1_eq {buffer : Bytes} (hbuffer : buffer.length = 64) {m : Bytes}
    (hlen : m.length < 2 ^ 61) {pieces : List Bytes} (hpieces : pieces.flatten = m) :
    (pieces.foldl SHA1.update (SHA1.new buffer)).final = Sha1.sha1 m ∧
      Swift.SHA1.hash m = some (Sha1.sha1 m) ∧
      ∀ before after, before ++ after = pieces →
        let s := before.foldl SHA1.update (SHA1.new buffer)
        s.datalen < 64 ∧ s.bitlen.toNat + 8 * s.datalen = 8 * before.flatten.length := by
  subst hpieces
  refine ⟨(holds_updates hbuffer pieces).final_eq, Swift.SHA1.hash_eq hlen, ?_⟩
  intro before after hsplit
  have hholds := holds_updates hbuffer before
  refine ⟨hholds.room, bits_of_holds hholds ?_⟩
  rw [← hsplit, List.flatten_append, List.length_append] at hlen
  omega

theorem streaming_sha1_abc :
    ([[0x61], [], [0x62, 0x63]].foldl SHA1.update (SHA1.new (List.replicate 64 0))).final =
        Sha1.sha1 [0x61, 0x62, 0x63] ∧
      Swift.SHA1.hash [0x61, 0x62, 0x63] = some (Sha1.sha1 [0x61, 0x62, 0x63]) :=
  have h := @streaming_sha1_eq (List.replicate 64 0) List.length_replicate [0x61, 0x62, 0x63]
    (by decide) [[0x61], [], [0x62, 0x63]] rfl
  ⟨h.1, h.2.1⟩

end Streaming

section Texts

/-- Both encoders write one text, whose length is determined and from which the decoder of RFC 4648
finds the octets again. -/
theorem base64Encode_agree (data : Bytes) :
    Cpp.base64Encode data = Swift.base64Encode data ∧
      (Cpp.base64Encode data).length = 4 * ((data.length + 2) / 3) ∧
      Base64.decode (Cpp.base64Encode data) = some data ∧
      ∀ other, Cpp.base64Encode other = Cpp.base64Encode data → other = data := by
  refine ⟨?_, ?_, ?_, ?_⟩
  · rw [Cpp.base64Encode_eq, Swift.base64Encode_eq]
  · rw [Cpp.base64Encode_eq, Base64.length_encode]
  · rw [Cpp.base64Encode_eq, Base64.decode_encode]
  · intro other h
    rw [Cpp.base64Encode_eq, Cpp.base64Encode_eq] at h
    exact Base64.encode_injective h

end Texts

section Numbers

/-- Lowercase hexadecimal digits. -/
def IsHex (bs : Bytes) : Prop := ∀ b ∈ bs, b ∈ utf8 "0123456789abcdef"

/-- A digit is one octet of the alphabet. -/
theorem utf8_hexDigit (n : Fin 16) : ∃ o ∈ utf8 "0123456789abcdef",
    String.utf8EncodeChar (Hex.digit n) = [o] := by
  have htable : ∀ n : Fin 16, String.utf8EncodeChar (Hex.digit n) =
      [(utf8 "0123456789abcdef").getD n 0] := by decide
  have hlt : n.val < (utf8 "0123456789abcdef").length := n.isLt
  refine ⟨_, ?_, htable n⟩
  rw [List.getD_eq_getElem?_getD, List.getElem?_eq_getElem hlt]
  exact List.getElem_mem hlt

theorem utf8_hexByte (b : UInt8) : (utf8 (Hex.byte b)).length = 2 ∧ IsHex (utf8 (Hex.byte b)) := by
  have hb := b.toNat_lt
  obtain ⟨high, hhigh, hhigh'⟩ := utf8_hexDigit ⟨b.toNat / 16, by omega⟩
  obtain ⟨low, hlow, hlow'⟩ := utf8_hexDigit ⟨b.toNat % 16, Nat.mod_lt _ (by decide)⟩
  have heq : utf8 (Hex.byte b) = [high, low] := by
    rw [Hex.byte, utf8_ofList, List.flatMap_cons, List.flatMap_singleton, hhigh', hlow']
    rfl
  rw [heq]
  refine ⟨rfl, ?_⟩
  intro o ho
  obtain rfl | rfl := List.mem_pair.mp ho
  · exact hhigh
  · exact hlow

theorem hex_flatMap (bs : Bytes) :
    (bs.flatMap fun b => utf8 (Hex.byte b)).length = 2 * bs.length ∧
      IsHex (bs.flatMap fun b => utf8 (Hex.byte b)) := by
  constructor
  · rw [List.length_flatMap, List.map_congr_left fun b _ => (utf8_hexByte b).1, List.map_const',
      List.sum_replicate, smul_eq_mul, Nat.mul_comm]
  · intro o ho
    obtain ⟨b, -, ho⟩ := List.mem_flatMap.mp ho
    exact (utf8_hexByte b).2 o ho

/-- Both SHA-256 functions are that of the standard, and `hashNumber` is the first five octets
of the hash of the number's decimal digits, in both languages. -/
theorem hashNumber_eq (num : Int64) {data : Bytes} (hlen : data.length < 2 ^ 61) :
    (∃ text ds hex, Decimal.Spells text num.toInt ds ∧ Cpp.hashNumber num = hex ∧
      Swift.hashNumber num = some hex ∧ hex.length = 10 ∧ IsHex hex ∧
        hex = ((Sha256.sha256 text).take 5).flatMap fun b => utf8 (Hex.byte b)) ∧
      Cpp.sha256 data = Sha256.sha256 data ∧ Swift.SHA256.hash data = some (Sha256.sha256 data) := by
  have hshort : (Decimal.decimal num.toInt).length ≤ 20 := by
    have hlow := num.le_toInt
    have hhigh := num.toInt_lt
    exact Decimal.length_decimal_le (k := 18) (by omega)
  have hhex := hex_flatMap ((Sha256.sha256 (Decimal.decimal num.toInt)).take 5)
  refine ⟨⟨_, _, _, Decimal.spells_decimal _, ?_, ?_, ?_, hhex.2, rfl⟩, Cpp.sha256_eq data, Swift.SHA256.hash_eq hlen⟩
  · rw [Cpp.hashNumber, Cpp.sha256_eq, Decimal.utf8_toString_int]
  · rw [Swift.hashNumber, Decimal.utf8_toString_int, Swift.SHA256.hash_eq (by omega)]
    rfl
  · rw [hhex.1, List.length_take, Sha256.length_sha256]
    rfl

theorem hashNumber_min :
    (∃ text ds, Decimal.Spells text (-9223372036854775808) ds ∧
      Swift.hashNumber (-9223372036854775808) = some (Cpp.hashNumber (-9223372036854775808))) ∧
      Swift.SHA256.hash [] = some (Cpp.sha256 []) := by
  obtain ⟨⟨text, ds, hex, hspells, hcpp, hswift, -⟩, hempty, hempty'⟩ :=
    @hashNumber_eq (-9223372036854775808) [] (by decide)
  exact ⟨⟨text, ds, hspells, hcpp.symm ▸ hswift⟩, hempty.symm ▸ hempty'⟩

end Numbers

end HelloWebsocket.Agreement
