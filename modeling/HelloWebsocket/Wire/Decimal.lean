import HelloWebsocket.Wire.Utf8

/-!
# Decimal numbers in ASCII

The digits of a number, written without leading zeros and with a sign in front of a
negative number, and that the text of a number consists of them.
-/

namespace HelloWebsocket.Decimal

open Utf8

/-- The digits of a natural number, highest first. -/
def digits (n : Nat) : Bytes :=
  if n < 10 then [UInt8.ofNat (48 + n)] else digits (n / 10) ++ [UInt8.ofNat (48 + n % 10)]

/-- The number in digits, with a sign if it is negative. -/
def decimal (v : Int) : Bytes := if v < 0 then 0x2D :: digits v.natAbs else digits v.natAbs

/-- The digits with zeros in front, up to a width. -/
def padded (width n : Nat) : Bytes := List.replicate (width - (digits n).length) 0x30 ++ digits n

/-- The number that digits spell. -/
def value (ds : Bytes) : Nat := ds.foldl (fun n d => 10 * n + (d.toNat - 48)) 0

/-- The text is the number in digits: with a sign if it is negative, without leading zeros. -/
structure Spells (text : Bytes) (v : Int) (ds : Bytes) : Prop where
  sign : text = if v < 0 then 0x2D :: ds else ds
  digit : ∀ d ∈ ds, 48 ≤ d.toNat ∧ d.toNat ≤ 57
  lead : ds = [48] ∨ ∃ d rest, ds = d :: rest ∧ d.toNat ≠ 48
  value : value ds = v.natAbs

theorem toNat_digit {n : Nat} (h : n < 10) : (UInt8.ofNat (48 + n)).toNat = 48 + n := by
  rw [UInt8.toNat_ofNat']
  omega

theorem mem_digits {n : Nat} {d : UInt8} (h : d ∈ digits n) : 48 ≤ d.toNat ∧ d.toNat ≤ 57 := by
  fun_induction digits n with
  | case1 n hn =>
      rw [List.mem_singleton.mp h, toNat_digit hn]
      omega
  | case2 n hn ih =>
      obtain h | h := List.mem_append.mp h
      · exact ih h
      · rw [List.mem_singleton.mp h, toNat_digit (Nat.mod_lt n (by decide))]
        omega

theorem length_digits_le {n k : Nat} (h : n < 10 ^ (k + 1)) : (digits n).length ≤ k + 1 := by
  fun_induction digits n generalizing k with
  | case1 n hn => exact Nat.le_add_left 1 k
  | case2 n hn ih =>
      cases k with
      | zero => exact absurd h hn
      | succ k =>
          have hdiv : n / 10 < 10 ^ (k + 1) := Nat.div_lt_of_lt_mul (by rwa [← Nat.pow_succ'])
          rw [List.length_append]
          exact Nat.succ_le_succ (ih hdiv)

/-- Only the number zero begins with a zero. -/
theorem head_digits {n : Nat} (h : 0 < n) : ∃ d ds, digits n = d :: ds ∧ d.toNat ≠ 48 := by
  fun_induction digits n with
  | case1 n hn =>
      refine ⟨_, [], rfl, ?_⟩
      rw [toNat_digit hn]
      omega
  | case2 n hn ih =>
      obtain ⟨d, ds, hds, hd⟩ := ih (by omega)
      exact ⟨d, ds ++ [UInt8.ofNat (48 + n % 10)], by rw [hds, List.cons_append], hd⟩

/-- The digits spell the number. -/
theorem value_digits (n : Nat) : value (digits n) = n := by
  fun_induction digits n with
  | case1 n hn =>
      rw [value, List.foldl_cons, List.foldl_nil, toNat_digit hn]
      omega
  | case2 n hn ih =>
      rw [value] at ih
      rw [value, List.foldl_append, ih, List.foldl_cons, List.foldl_nil,
        toNat_digit (Nat.mod_lt n (by decide))]
      omega

theorem spells_decimal (v : Int) : Spells (decimal v) v (digits v.natAbs) where
  sign := rfl
  digit _ := mem_digits
  lead := by
    obtain h | h := Nat.eq_zero_or_pos v.natAbs
    · left
      rw [h, digits, if_pos (by decide)]
      rfl
    · exact Or.inr (head_digits h)
  value := value_digits v.natAbs

theorem length_padded {width n : Nat} (h : n < 10 ^ (width + 1)) :
    (padded (width + 1) n).length = width + 1 := by
  have hle := length_digits_le h
  rw [padded, List.length_append, List.length_replicate]
  omega

/-- The zeros in front do not count. -/
theorem value_padded (width n : Nat) : value (padded width n) = n := by
  have hzeros (k : Nat) : (List.replicate k (0x30 : UInt8)).foldl
      (fun n d => 10 * n + (d.toNat - 48)) 0 = 0 := by
    induction k with
    | zero => rfl
    | succ k ih =>
        rw [List.replicate_succ, List.foldl_cons]
        exact ih
  have hvalue := value_digits n
  rw [value] at hvalue
  rw [padded, value, List.foldl_append, hzeros, hvalue]

theorem padded_injective (width : Nat) : Function.Injective (padded width) := by
  intro m n h
  rw [← value_padded width m, h, value_padded]

/-- The last digit stands by itself. -/
theorem padded_succ (width n : Nat) :
    padded (width + 2) n = padded (width + 1) (n / 10) ++ [UInt8.ofNat (48 + n % 10)] := by
  by_cases hn : n < 10
  · have hzero : n / 10 = 0 := Nat.div_eq_of_lt hn
    have hone : digits 0 = [0x30] := by
      rw [digits, if_pos (by decide)]
      rfl
    have hself : digits n = [UInt8.ofNat (48 + n % 10)] := by
      rw [digits, if_pos hn, Nat.mod_eq_of_lt hn]
    rw [padded, padded, hzero, hone, hself, List.length_singleton, List.length_singleton,
      Nat.add_sub_cancel, show width + 2 - 1 = width + 1 by omega, List.replicate_succ']
  · have hlast : digits n = digits (n / 10) ++ [UInt8.ofNat (48 + n % 10)] := by
      rw [digits, if_neg hn]
    have hzeros : width + 2 - ((digits (n / 10)).length + 1) =
        width + 1 - (digits (n / 10)).length := by omega
    rw [padded, padded, hlast, List.length_append, List.length_singleton, hzeros,
      List.append_assoc]

theorem encode_digitChar {n : Nat} (h : n < 10) :
    String.utf8EncodeChar n.digitChar = [UInt8.ofNat (48 + n)] := by
  have hval : n.digitChar.val.toNat = 48 + n := Nat.toNat_digitChar_of_lt_ten h
  rw [String.utf8EncodeChar, if_pos (by omega), hval]

/-- The text of a natural number. -/
theorem utf8_toString_nat (n : Nat) : utf8 (toString n) = digits n := by
  rw [Nat.toString_eq_ofList_toDigits, utf8_ofList]
  fun_induction digits n with
  | case1 n hn =>
      rw [Nat.toDigits_of_lt_base hn, List.flatMap_singleton, encode_digitChar hn]
  | case2 n hn ih =>
      rw [Nat.toDigits_of_base_le (by decide) (Nat.le_of_not_lt hn), List.flatMap_append, ih,
        List.flatMap_singleton, encode_digitChar (Nat.mod_lt n (by decide))]

/-- The text of an integer. -/
theorem utf8_toString_int (v : Int) : utf8 (toString v) = decimal v := by
  have hnat (n : Nat) : utf8 n.repr = digits n := utf8_toString_nat n
  rw [Int.toString_eq_repr, Int.repr_eq_if, decimal]
  by_cases h : v < 0
  · have habs : (-v).toNat = v.natAbs := by omega
    rw [if_neg (by omega), if_pos h, utf8_append, hnat, habs]
    rfl
  · have habs : v.toNat = v.natAbs := by omega
    rw [if_pos (by omega), if_neg h, hnat, habs]

theorem length_decimal_le {v : Int} {k : Nat} (h : v.natAbs < 10 ^ (k + 1)) :
    (decimal v).length ≤ k + 2 := by
  have hdigits := length_digits_le h
  rw [decimal]
  split
  · rw [List.length_cons]
    omega
  · omega

theorem length_utf8_toString_le {v : Int} {k : Nat} (h : v.natAbs < 10 ^ (k + 1)) :
    (utf8 (toString v)).length ≤ k + 2 := by
  rw [utf8_toString_int]
  exact length_decimal_le h

end HelloWebsocket.Decimal
