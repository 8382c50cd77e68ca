import HelloWebsocket.Wire.Utf8
import HelloWebsocket.Wire.Words

/-!
# Base 64

The encoding of RFC 4648, section 4: three octets are a number of 24 bits, which is
spelled with four symbols of an alphabet of 64, and the last one or two octets are
padded. The decoder takes the padding at the end only, and refuses spellings whose
unused bits are set.

## Implementation notes

Programs go through the data by index, three octets at a time, and test at each place
whether an octet is there. They join the octets in a word of 32 bits and look the symbols
up by masks and shifts.
-/

namespace HelloWebsocket.Base64

open BigEndian Utf8

def alphabet : Bytes := utf8 "ABCDEFGHIJKLMNOPQRSTUVWXYZabcdefghijklmnopqrstuvwxyz0123456789+/"

/-- The symbol of the six low bits. -/
def symbol (n : Nat) : UInt8 := alphabet.getD (n % 64) 0

/-- The character `=`. -/
def pad : UInt8 := 0x3D

def encode : Bytes → Bytes
  | [] => []
  | [a] =>
      let n := beNat [a, 0, 0]
      [symbol (n / 2 ^ 18), symbol (n / 2 ^ 12), pad, pad]
  | [a, b] =>
      let n := beNat [a, b, 0]
      [symbol (n / 2 ^ 18), symbol (n / 2 ^ 12), symbol (n / 2 ^ 6), pad]
  | a :: b :: c :: rest =>
      let n := beNat [a, b, c]
      [symbol (n / 2 ^ 18), symbol (n / 2 ^ 12), symbol (n / 2 ^ 6), symbol n] ++ encode rest

theorem encode_ne_nil {m : Bytes} (h : m ≠ []) : encode m ≠ [] := by
  match m with
  | [] => exact absurd rfl h
  | [a] => exact List.cons_ne_nil _ _
  | [a, b] => exact List.cons_ne_nil _ _
  | a :: b :: c :: rest => exact List.cons_ne_nil _ _

theorem length_encode (m : Bytes) : (encode m).length = 4 * ((m.length + 2) / 3) := by
  fun_induction encode m with
  | case1 => rfl
  | case2 a n => simp
  | case3 a b n => simp
  | case4 a b c rest n ih =>
      simp only [List.length_append, List.length_cons, List.length_nil, ih]
      omega

section Symbols

private theorem alphabet_graphic : ∀ b ∈ alphabet, 0x21 ≤ b ∧ b ≤ 0x7E := by decide +kernel

theorem symbol_graphic (n : Nat) : 0x21 ≤ symbol n ∧ symbol n ≤ 0x7E := by
  have hlen : alphabet.length = 64 := by decide +kernel
  have hlt : n % 64 < alphabet.length := by omega
  rw [symbol, List.getD_eq_getElem?_getD, List.getElem?_eq_getElem hlt]
  exact alphabet_graphic _ (List.getElem_mem hlt)

/-- An encoding has only visible characters. -/
theorem encode_graphic (m : Bytes) : ∀ b ∈ encode m, 0x21 ≤ b ∧ b ≤ 0x7E := by
  have hpad : 0x21 ≤ pad ∧ pad ≤ 0x7E := by decide
  fun_induction encode m with
  | case1 => exact fun b hb => absurd hb List.not_mem_nil
  | case2 a n => simp [symbol_graphic, hpad]
  | case3 a b n => simp [symbol_graphic, hpad]
  | case4 a b c rest n ih =>
      intro x hx
      simp only [List.mem_append, List.mem_cons, List.not_mem_nil, or_false] at hx
      rcases hx with (rfl | rfl | rfl | rfl) | hx
      · exact symbol_graphic _
      · exact symbol_graphic _
      · exact symbol_graphic _
      · exact symbol_graphic _
      · exact ih x hx

end Symbols

section Decoding

/-- The place of a symbol in the alphabet. -/
def value (c : UInt8) : Option Nat :=
  let i := alphabet.idxOf c
  if i < 64 then some i else none

/-- The number that four symbols spell. -/
def quantum (x y z w : Nat) : Nat := ((x * 64 + y) * 64 + z) * 64 + w

def decode : Bytes → Option Bytes
  | [] => some []
  | a :: b :: c :: d :: rest => do
      let x ← value a
      let y ← value b
      if d = pad then
        if rest ≠ [] then none
        else if c = pad then
          let n := quantum x y 0 0
          if n % 2 ^ 16 = 0 then some ((beBytes 3 n).take 1) else none
        else do
          let z ← value c
          let n := quantum x y z 0
          if n % 2 ^ 8 = 0 then some ((beBytes 3 n).take 2) else none
      else do
        let z ← value c
        let w ← value d
        let out ← decode rest
        some (beBytes 3 (quantum x y z w) ++ out)
  | _ => none

theorem value_symbol (n : Nat) : value (symbol n) = some (n % 64) := by
  have htable : ∀ i : Fin 64, value (symbol i) = some i.val := by decide +kernel
  have hsymbol : symbol n = symbol (n % 64) := by rw [symbol, symbol, Nat.mod_mod]
  rw [hsymbol]
  exact htable ⟨n % 64, Nat.mod_lt n (by omega)⟩

theorem symbol_ne_pad (n : Nat) : symbol n ≠ pad := by
  intro h
  have hpad : value pad = none := by decide +kernel
  rw [← h, value_symbol] at hpad
  cases hpad

/-- Four digits of base 64 spell a number of 24 bits. -/
theorem quantum_digits {n : Nat} (h : n < 2 ^ 24) :
    quantum (n / 2 ^ 18 % 64) (n / 2 ^ 12 % 64) (n / 2 ^ 6 % 64) (n % 64) = n := by
  rw [quantum]
  omega

theorem beNat_three (a b c : UInt8) :
    beNat [a, b, c] = a.toNat * 2 ^ 16 + b.toNat * 2 ^ 8 + c.toNat := by
  simp only [beNat_cons, beNat_nil, List.length_cons, List.length_nil]
  omega

theorem beNat_three_lt (a b c : UInt8) : beNat [a, b, c] < 2 ^ 24 := by
  have hlt := beNat_lt [a, b, c]
  simpa using hlt

theorem beBytes_three (a b c : UInt8) : beBytes 3 (beNat [a, b, c]) = [a, b, c] :=
  beBytes_beNat [a, b, c]

/-- The decoder finds the octets again. -/
theorem decode_encode (m : Bytes) : decode (encode m) = some m := by
  fun_induction encode m with
  | case1 => rfl
  | case2 a n =>
      -- the two symbols that are left out are those of zero
      have hlow : n / 2 ^ 6 % 64 = 0 ∧ n % 64 = 0 ∧ n % 2 ^ 16 = 0 := by
        rw [show n = _ from beNat_three a 0 0]
        simp only [UInt8.toNat_zero]
        omega
      have hn : quantum (n / 2 ^ 18 % 64) (n / 2 ^ 12 % 64) (n / 2 ^ 6 % 64) (n % 64) = n :=
        quantum_digits (beNat_three_lt a 0 0)
      have hbytes : beBytes 3 n = [a, 0, 0] := beBytes_three a 0 0
      rw [hlow.1, hlow.2.1] at hn
      simp only [decode, value_symbol, Option.bind_eq_bind, Option.bind_some, if_true, ne_eq,
        not_true_eq_false, if_false, hn, hlow.2.2, hbytes]
      rfl
  | case3 a b n =>
      have hlow : n % 64 = 0 ∧ n % 2 ^ 8 = 0 := by
        rw [show n = _ from beNat_three a b 0]
        simp only [UInt8.toNat_zero]
        omega
      have hn : quantum (n / 2 ^ 18 % 64) (n / 2 ^ 12 % 64) (n / 2 ^ 6 % 64) (n % 64) = n :=
        quantum_digits (beNat_three_lt a b 0)
      have hbytes : beBytes 3 n = [a, b, 0] := beBytes_three a b 0
      rw [hlow.1] at hn
      simp only [decode, value_symbol, Option.bind_eq_bind, Option.bind_some, if_true, ne_eq,
        not_true_eq_false, if_false, symbol_ne_pad, hn, hlow.2, hbytes]
      rfl
  | case4 a b c rest n ih =>
      have hn : quantum (n / 2 ^ 18 % 64) (n / 2 ^ 12 % 64) (n / 2 ^ 6 % 64) (n % 64) = n :=
        quantum_digits (beNat_three_lt a b c)
      have hbytes : beBytes 3 n = [a, b, c] := beBytes_three a b c
      simp only [List.cons_append, List.nil_append, decode, value_symbol, Option.bind_eq_bind,
        Option.bind_some, if_false, symbol_ne_pad, hn, ih, hbytes]

theorem encode_injective : Function.Injective encode := by
  intro m m' h
  have hdecode := decode_encode m
  rw [h, decode_encode] at hdecode
  exact (Option.some.inj hdecode).symm

end Decoding

section Words

/-- The symbol that a program looks up for the six low bits of a word. -/
theorem getD_alphabet_and (n : UInt32) :
    alphabet.getD (n &&& 0x3F).toNat 0 = symbol n.toNat := by
  have hmask : (0x3F : UInt32).toNat = 2 ^ 6 - 1 := rfl
  rw [symbol, UInt32.toNat_and, hmask, Nat.and_two_pow_sub_one_eq_mod]

/-- Three octets joined by shifts and disjunctions. -/
theorem toNat_or_three (a b c : UInt8) :
    ((a.toUInt32 <<< 16) ||| (b.toUInt32 <<< 8) ||| c.toUInt32).toNat = beNat [a, b, c] := by
  have h := Words.toNat_or_octets_u32 0 a b c
  have hzero : ((0 : UInt8).toUInt32 <<< 24) ||| (a.toUInt32 <<< 16) = a.toUInt32 <<< 16 := by
    apply UInt32.toBitVec_inj.mp
    simp
  rw [hzero, beNat_cons] at h
  rw [h]
  simp

/-- An octet that is not there counts as zero. -/
theorem or_zero (x : UInt32) : x ||| (0 : UInt8).toUInt32 = x := by
  apply UInt32.toBitVec_inj.mp
  simp

theorem or_zero_shift (x : UInt32) : x ||| ((0 : UInt8).toUInt32 <<< 8) = x := by
  apply UInt32.toBitVec_inj.mp
  simp

end Words

section Groups

/-- The symbols of the octets from index `i` on, as a program with tests finds them. -/
def group (data : Bytes) (i : Nat) : Bytes :=
  let n := beNat [data.getD i 0, data.getD (i + 1) 0, data.getD (i + 2) 0]
  [symbol (n / 2 ^ 18), symbol (n / 2 ^ 12),
    if i + 1 < data.length then symbol (n / 2 ^ 6) else pad,
    if i + 2 < data.length then symbol n else pad]

private theorem group_add_three (a b c : UInt8) (rest : Bytes) (i : Nat) :
    group (a :: b :: c :: rest) (i + 3) = group rest i := by
  have hlt (j : Nat) : i + 3 + j < (a :: b :: c :: rest).length ↔ i + j < rest.length := by
    simp only [List.length_cons]
    omega
  have hget (j : Nat) : (a :: b :: c :: rest).getD (i + 3 + j) 0 = rest.getD (i + j) 0 := by
    rw [show i + 3 + j = i + j + 3 by omega]
    rfl
  have hzero : (a :: b :: c :: rest).getD (i + 3) 0 = rest.getD i 0 := rfl
  simp only [group, hlt, hget, hzero]

/-- The groups of all indices that are multiples of three. -/
theorem flatMap_group (data : Bytes) :
    (List.range ((data.length + 2) / 3)).flatMap (fun j => group data (3 * j)) = encode data := by
  fun_induction encode data with
  | case1 => rfl
  | case2 a n => simp [List.range_succ, group, n]
  | case3 a b n => simp [List.range_succ, group, n]
  | case4 a b c rest n ih =>
      have hcount : ((a :: b :: c :: rest).length + 2) / 3 = (rest.length + 2) / 3 + 1 := by
        simp only [List.length_cons]
        omega
      have hfirst : group (a :: b :: c :: rest) 0 =
          [symbol (n / 2 ^ 18), symbol (n / 2 ^ 12), symbol (n / 2 ^ 6), symbol n] := by
        simp [group, n]
      rw [hcount, List.range_succ_eq_map, List.flatMap_cons, List.flatMap_map, ← ih, Nat.mul_zero,
        hfirst]
      congr 1
      apply List.flatMap_congr
      intro j _
      rw [Nat.mul_succ, group_add_three]

end Groups

end HelloWebsocket.Base64
