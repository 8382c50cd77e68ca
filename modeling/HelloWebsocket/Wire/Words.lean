import HelloWebsocket.Wire.BigEndian

/-!
# Machine words and their octets

Codecs take words apart with shifts and masks and put them together with
shifts and disjunctions. The lemmas here translate both directions into
big-endian numerals, for unsigned and for two's complement words.
-/

namespace HelloWebsocket.Words

open BigEndian

/-- Disjunction adds numbers whose bits do not overlap. -/
theorem or_eq_add {a b : Nat} (k : Nat) (ha : 2 ^ k ∣ a) (hb : b < 2 ^ k) : a ||| b = a + b := by
  obtain ⟨c, rfl⟩ := ha
  rw [Nat.mul_comm, ← Nat.shiftLeft_eq, Nat.shiftLeft_add_eq_or_of_lt hb]

section Windows

variable {w m k : Nat}

theorem toNat_window (v : BitVec w) (m k : Nat) :
    ((v >>> k).setWidth m).toNat = v.toNat / 2 ^ k % 2 ^ m := by
  rw [BitVec.toNat_setWidth, BitVec.toNat_ushiftRight, Nat.shiftRight_eq_div_pow]

/-- Inside the word, an arithmetic shift shows the same bits as a logical one. -/
theorem window_sshiftRight (v : BitVec w) (h : k + m ≤ w) :
    (v.sshiftRight k).setWidth m = (v >>> k).setWidth m := by
  apply BitVec.eq_of_getLsbD_eq
  intro i hi
  have hw : ¬ w ≤ i := by omega
  have hk : k + i < w := by omega
  simp only [BitVec.getLsbD_setWidth, BitVec.getLsbD_sshiftRight, BitVec.getLsbD_ushiftRight,
    hw, hk, decide_false, Bool.not_false, Bool.true_and, if_true]

theorem setWidth_and_mask (v : BitVec w) (h : m ≤ w) :
    (v &&& BitVec.ofNat w (2 ^ m - 1)).setWidth m = v.setWidth m := by
  apply BitVec.eq_of_toNat_eq
  have hlt : 2 ^ m - 1 < 2 ^ w := by
    have := Nat.pow_le_pow_right (n := 2) (by omega) h
    have := Nat.two_pow_pos m
    omega
  rw [BitVec.toNat_setWidth, BitVec.toNat_setWidth, BitVec.toNat_and, BitVec.toNat_ofNat,
    Nat.mod_eq_of_lt hlt, Nat.and_two_pow_sub_one_eq_mod, Nat.mod_mod]

/-- Masking off the sign extension leaves the zero extension. -/
theorem signExtend_and_mask (v : BitVec m) (w : Nat) :
    v.signExtend w &&& BitVec.ofNat w (2 ^ m - 1) = v.setWidth w := by
  apply BitVec.eq_of_getLsbD_eq
  intro i hi
  simp only [BitVec.getLsbD_and, BitVec.getLsbD_signExtend, BitVec.getLsbD_setWidth,
    BitVec.getLsbD_ofNat, Nat.testBit_two_pow_sub_one]
  by_cases him : i < m
  · simp [him, hi]
  · simp [him, BitVec.getLsbD_of_ge v i (by omega)]

/-- The octet at a bit position, taken by an arithmetic shift and a mask. -/
theorem octet_sshiftRight {w n : Nat} (v : BitVec w) (h : n + 8 ≤ w) :
    ((v.sshiftRight n &&& BitVec.ofNat w (2 ^ 8 - 1)).setWidth 8).toNat =
      (UInt8.ofNat (v.toNat / 2 ^ n)).toNat := by
  rw [setWidth_and_mask _ (by omega), window_sshiftRight _ h, toNat_window, UInt8.toNat_ofNat']

end Windows

section Signed

theorem toInt_int32 (x : Int32) : x.toInt = signed 32 x.toBitVec.toNat :=
  BitVec.toInt_eq_toNat_bmod _

theorem toInt_int64 (x : Int64) : x.toInt = signed 64 x.toBitVec.toNat :=
  BitVec.toInt_eq_toNat_bmod _

theorem twos_int32 (x : Int32) : twos 32 x.toInt = x.toBitVec.toNat := by
  rw [toInt_int32, twos_signed x.toBitVec.isLt]

theorem twos_int64 (x : Int64) : twos 64 x.toInt = x.toBitVec.toNat := by
  rw [toInt_int64, twos_signed x.toBitVec.isLt]

theorem toNat_toInt64_mod (v : Int32) : v.toInt64.toBitVec.toNat % 2 ^ 32 = v.toBitVec.toNat := by
  rw [← twos_int64, ← twos_int32, Int32.toInt_toInt64]
  simp only [twos]
  omega

/-- A signed word whose bits spell a number is negative or that number. -/
theorem toInt_cases (v : Int32) : v.toInt < 0 ∧ 2 ^ 31 ≤ v.toBitVec.toNat ∨
    v.toInt = v.toBitVec.toNat ∧ v.toBitVec.toNat < 2 ^ 31 := by
  have hlt := v.toBitVec.isLt
  rw [toInt_int32, signed, Int.bmod_def]
  split <;> omega

/-- Addition that stays in range does not wrap. -/
theorem toInt_add_int64 {a b : Int64} (hl : -2 ^ 63 ≤ a.toInt + b.toInt)
    (hu : a.toInt + b.toInt < 2 ^ 63) : (a + b).toInt = a.toInt + b.toInt := by
  rw [Int64.toInt_add]
  exact Int.bmod_eq_of_le (by omega) (by omega)

theorem toInt_sub_int64 {a b : Int64} (hl : -2 ^ 63 ≤ a.toInt - b.toInt)
    (hu : a.toInt - b.toInt < 2 ^ 63) : (a - b).toInt = a.toInt - b.toInt := by
  rw [Int64.toInt_sub]
  exact Int.bmod_eq_of_le (by omega) (by omega)

theorem toInt_add_int32 {a b : Int32} (hl : -2 ^ 31 ≤ a.toInt + b.toInt)
    (hu : a.toInt + b.toInt < 2 ^ 31) : (a + b).toInt = a.toInt + b.toInt := by
  rw [Int32.toInt_add]
  exact Int.bmod_eq_of_le (by omega) (by omega)

theorem toInt_sub_int32 {a b : Int32} (hl : -2 ^ 31 ≤ a.toInt - b.toInt)
    (hu : a.toInt - b.toInt < 2 ^ 31) : (a - b).toInt = a.toInt - b.toInt := by
  rw [Int32.toInt_sub]
  exact Int.bmod_eq_of_le (by omega) (by omega)

/-- Widening an unsigned word into a wider signed one keeps its value. -/
theorem toInt_of_uint32 (v : UInt32) : v.toUInt64.toInt64.toInt = v.toNat := by
  have hlt := v.toNat_lt
  have hbits : v.toUInt64.toInt64.toBitVec.toNat = v.toNat := UInt32.toNat_toUInt64 v
  rw [toInt_int64, hbits, signed]
  exact Int.bmod_eq_of_le (by omega) (by omega)

/-- Narrowing keeps a value that fits. -/
theorem toInt_toInt32 {v : Int64} (hl : -2 ^ 31 ≤ v.toInt) (hu : v.toInt < 2 ^ 31) :
    v.toInt32.toInt = v.toInt := by
  rw [Int64.toInt_toInt32]
  exact Int.bmod_eq_of_le (by omega) (by omega)

/-- Reinterpreting a non-negative signed word as unsigned keeps its value. -/
theorem toNat_of_nonneg {x : Int64} (h : 0 ≤ x.toInt) : (x.toUInt64.toNat : Int) = x.toInt := by
  have hlt := x.toBitVec.isLt
  have hbits : x.toUInt64.toNat = x.toBitVec.toNat := rfl
  have htwos := twos_int64 x
  rw [hbits, ← htwos, twos, Int.toNat_of_nonneg (Int.emod_nonneg _ (by positivity))]
  have := x.toInt_lt
  exact Int.emod_eq_of_lt h (by omega)

end Signed

section Assembly

/-- Four octets joined by shifts and disjunctions spell their numeral. -/
theorem or_octets (b0 b1 b2 b3 : UInt8) :
    b0.toNat <<< 24 ||| b1.toNat <<< 16 ||| b2.toNat <<< 8 ||| b3.toNat =
      beNat [b0, b1, b2, b3] := by
  have h1 := b1.toNat_lt
  have h2 := b2.toNat_lt
  have h3 := b3.toNat_lt
  have e1 : b0.toNat * 2 ^ 24 ||| b1.toNat * 2 ^ 16 = b0.toNat * 2 ^ 24 + b1.toNat * 2 ^ 16 :=
    or_eq_add 24 (by omega) (by omega)
  have e2 : b0.toNat * 2 ^ 24 + b1.toNat * 2 ^ 16 ||| b2.toNat * 2 ^ 8 =
      b0.toNat * 2 ^ 24 + b1.toNat * 2 ^ 16 + b2.toNat * 2 ^ 8 :=
    or_eq_add 16 (by omega) (by omega)
  simp only [Nat.shiftLeft_eq]
  rw [e1, e2, or_eq_add 8 (by omega) (by omega)]
  simp only [beNat, List.foldl_cons, List.foldl_nil]
  omega

theorem or_octets_bitVec {w : Nat} (hw : 32 ≤ w) (b0 b1 b2 b3 : UInt8) :
    ((b0.toBitVec.setWidth w <<< 24) ||| (b1.toBitVec.setWidth w <<< 16) |||
      (b2.toBitVec.setWidth w <<< 8) ||| b3.toBitVec.setWidth w).toNat =
      beNat [b0, b1, b2, b3] := by
  have hpow : 2 ^ 32 ≤ 2 ^ w := Nat.pow_le_pow_right (by omega) hw
  have hs (b : UInt8) (k : Nat) (hk : k ≤ 24) :
      (b.toBitVec.setWidth w <<< k).toNat = b.toNat <<< k := by
    have hb : b.toBitVec.toNat < 2 ^ 8 := b.toBitVec.isLt
    have hp : 2 ^ k ≤ 2 ^ 24 := Nat.pow_le_pow_right (by omega) hk
    have hprod : b.toBitVec.toNat * 2 ^ k < 2 ^ w := by nlinarith
    rw [BitVec.toNat_shiftLeft, BitVec.toNat_setWidth,
      Nat.mod_eq_of_lt (show b.toBitVec.toNat < 2 ^ w by omega), Nat.shiftLeft_eq,
      Nat.mod_eq_of_lt hprod, Nat.shiftLeft_eq]
    rfl
  have h0 : (b3.toBitVec.setWidth w).toNat = b3.toNat := by
    have h := hs b3 0 (by omega)
    rwa [BitVec.shiftLeft_zero, Nat.shiftLeft_zero] at h
  rw [← or_octets]
  simp only [BitVec.toNat_or]
  rw [hs b0 24 (by omega), hs b1 16 (by omega), hs b2 8 (by omega), h0]

theorem toNat_or_octets_u32 (b0 b1 b2 b3 : UInt8) :
    ((b0.toUInt32 <<< 24) ||| (b1.toUInt32 <<< 16) ||| (b2.toUInt32 <<< 8) ||| b3.toUInt32).toNat =
      beNat [b0, b1, b2, b3] :=
  or_octets_bitVec le_rfl b0 b1 b2 b3

theorem toInt_or_octets_int64 (b0 b1 b2 b3 : UInt8) :
    ((b0.toUInt64.toInt64 <<< 24) ||| (b1.toUInt64.toInt64 <<< 16) |||
      (b2.toUInt64.toInt64 <<< 8) ||| b3.toUInt64.toInt64).toInt = beNat [b0, b1, b2, b3] := by
  have hlt : beNat [b0, b1, b2, b3] < 256 ^ 4 := beNat_lt _
  have e24 : (24 : Int64).toBitVec.smod 64 = 24#64 := by decide
  have e16 : (16 : Int64).toBitVec.smod 64 = 16#64 := by decide
  have e8 : (8 : Int64).toBitVec.smod 64 = 8#64 := by decide
  have h := or_octets_bitVec (w := 64) (by omega) b0 b1 b2 b3
  rw [toInt_int64]
  simp only [Int64.toBitVec_or, Int64.toBitVec_shiftLeft, e24, e16, e8, BitVec.shiftLeft_eq']
  change signed 64 (BitVec.toNat ((b0.toBitVec.setWidth 64 <<< 24) ||| (b1.toBitVec.setWidth 64 <<< 16) |||
      (b2.toBitVec.setWidth 64 <<< 8) ||| b3.toBitVec.setWidth 64)) = _
  rw [h, signed]
  exact Int.bmod_eq_of_le (by omega) (by omega)

/-- A byte read as signed and masked is the octet. -/
theorem and_mask_of_octet (b : UInt8) : b.toInt8.toInt32 &&& 0xFF = b.toUInt32.toInt32 := by
  apply Int32.toBitVec_inj.mp
  exact signExtend_and_mask b.toBitVec 32

theorem toInt8_eq_iff (a b : UInt8) : a.toInt8 = b.toInt8 ↔ a = b := by
  rw [← Int8.toBitVec_inj, ← UInt8.toBitVec_inj]
  rfl

theorem toInt_octet (b : UInt8) : b.toUInt32.toInt32.toInt = b.toNat := by
  have hb := b.toNat_lt
  have hbits : b.toUInt32.toInt32.toBitVec.toNat = b.toNat := UInt8.toNat_toUInt32 b
  rw [toInt_int32, hbits, signed]
  exact Int.bmod_eq_of_le (by omega) (by omega)

/-- An octet that is narrowed to a signed byte. -/
theorem toInt_toInt8_octet (b : UInt8) :
    b.toUInt32.toInt32.toInt8.toInt = signed 8 (twos 8 (b.toNat : Int)) := by
  have hb := b.toNat_lt
  have htwos : twos 8 (b.toNat : Int) = b.toNat := by
    simp only [twos]
    omega
  rw [Int32.toInt_toInt8, toInt_octet, htwos, signed]

theorem toInt64_and_mask (v : UInt32) : v.toInt32.toInt64 &&& 0xFFFFFFFF = v.toUInt64.toInt64 := by
  apply Int64.toBitVec_inj.mp
  exact signExtend_and_mask v.toBitVec 64

theorem toInt64_of_octet (b : UInt8) : b.toUInt32.toInt32.toInt64 = b.toUInt64.toInt64 := by
  apply Int64.toBitVec_inj.mp
  change (b.toBitVec.setWidth 32).signExtend 64 = b.toBitVec.setWidth 64
  have hlt : b.toBitVec.toNat < 2 ^ 8 := b.toBitVec.isLt
  have hmsb : (b.toBitVec.setWidth 32).msb = false := by
    rw [BitVec.msb_eq_decide, BitVec.toNat_setWidth, Nat.mod_eq_of_lt (by omega)]
    exact decide_eq_false (by omega)
  rw [BitVec.signExtend_eq_setWidth_of_msb_false hmsb]
  apply BitVec.eq_of_toNat_eq
  simp only [BitVec.toNat_setWidth]
  omega

/-- One octet appended to a signed word. -/
theorem toNat_shift_or (v : Int64) (b : UInt8) :
    ((v <<< 8) ||| b.toUInt64.toInt64).toBitVec.toNat =
      (v.toBitVec.toNat * 256 + b.toNat) % 2 ^ 64 := by
  have hb := b.toNat_lt
  have hv := v.toBitVec.isLt
  have es : (8 : Int64).toBitVec.smod 64 = 8#64 := by decide
  have eb : b.toUInt64.toInt64.toBitVec.toNat = b.toNat := UInt8.toNat_toUInt64 b
  rw [Int64.toBitVec_or, Int64.toBitVec_shiftLeft, es, BitVec.toNat_or, BitVec.shiftLeft_eq',
    BitVec.toNat_shiftLeft, eb, show (8#64).toNat = 8 from rfl, Nat.shiftLeft_eq,
    or_eq_add 8 (by omega) (by omega)]
  omega

/-- A word that takes one octet after another spells the numeral of the octets. -/
theorem toNat_foldl_octets {W : Type} {k : Nat} (toNat : W → Nat) {push : W → UInt8 → W}
    (hlt : ∀ v, toNat v < 2 ^ k)
    (hpush : ∀ v b, toNat (push v b) = (toNat v * 256 + b.toNat) % 2 ^ k) (xs : Bytes) (v : W) :
    toNat (xs.foldl push v) = (toNat v * 256 ^ xs.length + beNat xs) % 2 ^ k := by
  induction xs generalizing v with
  | nil =>
      simp only [List.foldl_nil, List.length_nil, pow_zero, Nat.mul_one, beNat_nil, Nat.add_zero]
      exact (Nat.mod_eq_of_lt (hlt v)).symm
  | cons b xs ih =>
      have hstep : toNat v * 256 ^ (b :: xs).length + beNat (b :: xs) =
          (toNat v * 256 + b.toNat) * 256 ^ xs.length + beNat xs := by
        rw [beNat_cons, List.length_cons, pow_succ]
        ring
      rw [List.foldl_cons, ih, hpush, hstep, Nat.add_mod, Nat.mod_mul_mod, ← Nat.add_mod]

/-- A signed word filled octet by octet. -/
theorem toNat_foldl_shift_or (xs : Bytes) (v : Int64) :
    (xs.foldl (fun (v : Int64) b => (v <<< 8) ||| b.toUInt64.toInt64) v).toBitVec.toNat =
      (v.toBitVec.toNat * 256 ^ xs.length + beNat xs) % 2 ^ 64 :=
  toNat_foldl_octets (fun v : Int64 => v.toBitVec.toNat) (fun v => v.toBitVec.isLt)
    toNat_shift_or xs v

/-- One octet appended to an unsigned word. -/
theorem toNat_shift_or_u64 (v : UInt64) (b : UInt8) :
    ((v <<< 8) ||| b.toUInt64).toNat = (v.toNat * 256 + b.toNat) % 2 ^ 64 := by
  have hb := b.toNat_lt
  have hv := v.toNat_lt
  rw [UInt64.toNat_or, UInt64.toNat_shiftLeft, UInt8.toNat_toUInt64,
    show (8 : UInt64).toNat % 64 = 8 from rfl, Nat.shiftLeft_eq, or_eq_add 8 (by omega) (by omega)]
  omega

/-- An unsigned word filled octet by octet. -/
theorem toNat_foldl_shift_or_u64 (xs : Bytes) (h : xs.length ≤ 8) :
    (xs.foldl (fun (v : UInt64) b => (v <<< 8) ||| b.toUInt64) 0).toNat = beNat xs := by
  have hfold := toNat_foldl_octets UInt64.toNat UInt64.toNat_lt toNat_shift_or_u64 xs 0
  have hlt : beNat xs < 2 ^ 64 :=
    calc beNat xs < 256 ^ xs.length := beNat_lt xs
      _ ≤ 256 ^ 8 := Nat.pow_le_pow_right (by omega) h
      _ = 2 ^ 64 := by norm_num
  rw [hfold, show UInt64.toNat 0 = 0 from rfl, Nat.zero_mul, Nat.zero_add, Nat.mod_eq_of_lt hlt]

/-- Two halves of a signed word joined by a shift and a disjunction. -/
theorem toInt_or_halves (hi lo : UInt32) :
    ((hi.toUInt64.toInt64 <<< 32) ||| lo.toUInt64.toInt64).toInt =
      signed 64 (hi.toNat * 2 ^ 32 + lo.toNat) := by
  have hh := hi.toNat_lt
  have hl := lo.toNat_lt
  have es : (32 : Int64).toBitVec.smod 64 = 32#64 := by decide
  rw [toInt_int64, Int64.toBitVec_or, Int64.toBitVec_shiftLeft, es, BitVec.toNat_or,
    BitVec.shiftLeft_eq', BitVec.toNat_shiftLeft, UInt64.toBitVec_toInt64,
    UInt64.toBitVec_toInt64]
  have ehi : hi.toUInt64.toBitVec.toNat = hi.toNat := UInt32.toNat_toUInt64 hi
  have elo : lo.toUInt64.toBitVec.toNat = lo.toNat := UInt32.toNat_toUInt64 lo
  have e32 : (32#64).toNat = 32 := rfl
  rw [ehi, elo, e32, Nat.shiftLeft_eq, Nat.mod_eq_of_lt (by omega),
    or_eq_add 32 (by omega) (by omega)]

end Assembly

section Flags

private theorem flags_table : ∀ i : Fin 256,
    (UInt8.ofNat i.val &&& 0x80 ≠ 0 ↔ 128 ≤ i.val) ∧
    (UInt8.ofNat i.val &&& 0x70 ≠ 0 ↔ i.val / 16 % 8 ≠ 0) := by
  decide +kernel

private theorem ofNat_fin_toNat (b : UInt8) : UInt8.ofNat (⟨b.toNat, b.toNat_lt⟩ : Fin 256).val = b :=
  UInt8.ofNat_toNat

/-- The top bit of an octet. -/
theorem and_top_ne_zero_iff (b : UInt8) : b &&& 0x80 ≠ 0 ↔ 128 ≤ b.toNat := by
  have h := (flags_table ⟨b.toNat, b.toNat_lt⟩).1
  rwa [ofNat_fin_toNat] at h

/-- The three bits below the top one. -/
theorem and_middle_ne_zero_iff (b : UInt8) : b &&& 0x70 ≠ 0 ↔ b.toNat / 16 % 8 ≠ 0 := by
  have h := (flags_table ⟨b.toNat, b.toNat_lt⟩).2
  rwa [ofNat_fin_toNat] at h

theorem toNat_and_nibble (b : UInt8) : (b &&& 0x0F).toNat = b.toNat % 16 := by
  rw [UInt8.toNat_and, show (0x0F : UInt8).toNat = 2 ^ 4 - 1 from rfl,
    Nat.and_two_pow_sub_one_eq_mod]

theorem toNat_and_seven (b : UInt8) : (b &&& 0x7F).toNat = b.toNat % 128 := by
  rw [UInt8.toNat_and, show (0x7F : UInt8).toNat = 2 ^ 7 - 1 from rfl,
    Nat.and_two_pow_sub_one_eq_mod]

end Flags

section Octets

/-- An octet of a word of 64 bits, taken by a shift. -/
theorem octet_u64 (v k : UInt64) :
    (v >>> k).toUInt8 = UInt8.ofNat (v.toNat / 2 ^ (k.toNat % 64)) := by
  apply UInt8.toNat_inj.mp
  rw [UInt64.toNat_toUInt8, UInt8.toNat_ofNat', UInt64.toNat_shiftRight, Nat.shiftRight_eq_div_pow]

/-- The mask that keeps an octet does nothing before a conversion to octets. -/
theorem toUInt8_and_mask (v : UInt64) : (v &&& 0xFF).toUInt8 = v.toUInt8 := by
  apply UInt8.toNat_inj.mp
  have hmask : (0xFF : UInt64).toNat = 2 ^ 8 - 1 := rfl
  rw [UInt64.toNat_toUInt8, UInt64.toNat_and, hmask, Nat.and_two_pow_sub_one_eq_mod, Nat.mod_mod,
    UInt64.toNat_toUInt8]

/-- The eight octets of a word, taken by shifts. -/
theorem octets_u64 (v : UInt64) :
    ([7, 6, 5, 4, 3, 2, 1, 0].map fun i : UInt64 => (v >>> (i * 8)).toUInt8) = beBytes 8 v.toNat := by
  simp only [octet_u64, beBytes, List.map_cons, List.map_nil]
  rfl

/-- The four octets of a word, taken by shifts and masks. -/
theorem octets_u32 (v : UInt32) :
    [((v >>> 24) &&& 0xFF).toUInt8, ((v >>> 16) &&& 0xFF).toUInt8,
      ((v >>> 8) &&& 0xFF).toUInt8, (v &&& 0xFF).toUInt8] = beBytes 4 v.toNat := by
  have hb (x : UInt32) : (x &&& 0xFF).toUInt8 = UInt8.ofNat x.toNat := by
    apply UInt8.toNat_inj.mp
    have hm : (0xFF : UInt32).toNat = 2 ^ 8 - 1 := rfl
    rw [UInt32.toNat_toUInt8, UInt32.toNat_and, hm, Nat.and_two_pow_sub_one_eq_mod, Nat.mod_mod,
      UInt8.toNat_ofNat']
  have hs (k : UInt32) : (v >>> k).toNat = v.toNat / 2 ^ (k.toNat % 32) := by
    rw [UInt32.toNat_shiftRight, Nat.shiftRight_eq_div_pow]
  simp only [hb, hs, beBytes, pow_zero, Nat.div_one]
  rfl

theorem toNat_high_half (v : Int64) :
    (v >>> 32).toUInt64.toUInt32.toNat = v.toBitVec.toNat / 2 ^ 32 := by
  have es : (32 : Int64).toBitVec.smod 64 = 32#64 := by decide
  have hlt := v.toBitVec.isLt
  have hw : (v >>> 32).toUInt64.toUInt32.toBitVec = (v.toBitVec.sshiftRight 32).setWidth 32 := by
    change (v >>> 32).toBitVec.setWidth 32 = _
    rw [Int64.toBitVec_shiftRight, es]
    rfl
  change (v >>> 32).toUInt64.toUInt32.toBitVec.toNat = _
  rw [hw, window_sshiftRight _ (by omega), toNat_window]
  exact Nat.mod_eq_of_lt (by omega)

theorem toNat_low_half (v : Int64) :
    (v &&& 0xFFFFFFFF).toUInt64.toUInt32.toNat = v.toBitVec.toNat % 2 ^ 32 := by
  change ((v.toBitVec &&& BitVec.ofNat 64 (2 ^ 32 - 1)).setWidth 32).toNat = _
  rw [setWidth_and_mask _ (by omega), BitVec.toNat_setWidth]

/-- Signed and unsigned narrowing keep the same bits. -/
theorem toNat_toInt32 (v : Int64) : v.toInt32.toBitVec.toNat = v.toUInt64.toUInt32.toNat := by
  rw [Int64.toBitVec_toInt32, BitVec.signExtend_eq_setWidth_of_le _ (by omega)]
  rfl

/-- The two halves of a signed word spell its two's complement numeral. -/
theorem beBytes_halves (v : Int64) :
    beBytes 4 (v >>> 32).toUInt64.toUInt32.toNat ++
      beBytes 4 (v &&& 0xFFFFFFFF).toUInt64.toUInt32.toNat = beBytes 8 (twos 64 v.toInt) := by
  rw [toNat_high_half, toNat_low_half, twos_int64, beBytes_add 4 4,
    show 2 ^ 32 = 256 ^ 4 from rfl, beBytes_mod 4 _ 4 le_rfl]

theorem octet_int32 (v k : Int32) {n : Nat} (hk : k.toBitVec.smod 32 = BitVec.ofNat 32 n)
    (hn : n ≤ 24) :
    ((v >>> k) &&& 0xFF).toInt8.toUInt8 = UInt8.ofNat (v.toBitVec.toNat / 2 ^ n) := by
  apply UInt8.toNat_inj.mp
  have hn' : (BitVec.ofNat 32 n).toNat = n := by
    rw [BitVec.toNat_ofNat]
    omega
  change ((v >>> k &&& 0xFF).toInt8.toBitVec).toNat = _
  rw [Int32.toBitVec_toInt8, BitVec.signExtend_eq_setWidth_of_le _ (by omega), Int32.toBitVec_and,
    Int32.toBitVec_shiftRight, hk, BitVec.sshiftRight', hn']
  exact octet_sshiftRight v.toBitVec (by omega)

theorem octet_int64 (v k : Int64) {n : Nat} (hk : k.toBitVec.smod 64 = BitVec.ofNat 64 n)
    (hn : n ≤ 56) :
    ((v >>> k) &&& 0xFF).toInt32.toInt8.toUInt8 = UInt8.ofNat (v.toBitVec.toNat / 2 ^ n) := by
  apply UInt8.toNat_inj.mp
  have hn' : (BitVec.ofNat 64 n).toNat = n := by
    rw [BitVec.toNat_ofNat]
    omega
  change ((v >>> k &&& 0xFF).toInt32.toInt8.toBitVec).toNat = _
  rw [Int32.toBitVec_toInt8, Int64.toBitVec_toInt32, BitVec.signExtend_eq_setWidth_of_le _ (by omega),
    BitVec.signExtend_eq_setWidth_of_le _ (by omega), BitVec.setWidth_setWidth_of_le _ (by omega),
    Int64.toBitVec_and, Int64.toBitVec_shiftRight, hk, BitVec.sshiftRight', hn']
  exact octet_sshiftRight v.toBitVec (by omega)

theorem octet_int32_zero (v : Int32) :
    (v &&& 0xFF).toInt8.toUInt8 = UInt8.ofNat v.toBitVec.toNat := by
  have h := octet_int32 v 0 (n := 0) (by decide) (by omega)
  have hz : v >>> 0 = v := by
    apply Int32.toBitVec_inj.mp
    simp
  rwa [hz, pow_zero, Nat.div_one] at h

/-- The low octet of a signed word. -/
theorem low_octet_int32 (v : Int32) :
    [(v &&& 0xFF).toInt8.toUInt8] = beBytes 1 (twos 8 v.toInt) := by
  have hmod : UInt8.ofNat (twos 32 v.toInt) = UInt8.ofNat (twos 8 v.toInt) := by
    apply UInt8.toNat_inj.mp
    rw [UInt8.toNat_ofNat', UInt8.toNat_ofNat']
    simp only [twos]
    omega
  rw [octet_int32_zero, ← twos_int32, hmod]
  simp [beBytes]

/-- The four octets of a signed word, taken by arithmetic shifts and masks. -/
theorem octets_int32 (v : Int32) :
    [((v >>> 24) &&& 0xFF).toInt8.toUInt8, ((v >>> 16) &&& 0xFF).toInt8.toUInt8,
      ((v >>> 8) &&& 0xFF).toInt8.toUInt8, (v &&& 0xFF).toInt8.toUInt8] =
      beBytes 4 v.toBitVec.toNat := by
  rw [octet_int32 v 24 (n := 24) (by decide) le_rfl, octet_int32 v 16 (n := 16) (by decide) (by omega),
    octet_int32 v 8 (n := 8) (by decide) (by omega), octet_int32_zero]
  simp only [beBytes, pow_zero, Nat.div_one]
  rfl

theorem low_octets_int64 (v : Int64) :
    [((v >>> 24) &&& 0xFF).toInt32.toInt8.toUInt8, ((v >>> 16) &&& 0xFF).toInt32.toInt8.toUInt8,
      ((v >>> 8) &&& 0xFF).toInt32.toInt8.toUInt8, (v &&& 0xFF).toInt32.toInt8.toUInt8] =
      beBytes 4 v.toBitVec.toNat := by
  have h0 := octet_int64 v 0 (n := 0) (by decide) (by omega)
  have hz : v >>> 0 = v := by
    apply Int64.toBitVec_inj.mp
    simp
  rw [hz] at h0
  rw [octet_int64 v 24 (n := 24) (by decide) (by omega),
    octet_int64 v 16 (n := 16) (by decide) (by omega),
    octet_int64 v 8 (n := 8) (by decide) (by omega), h0]
  rfl

theorem high_octets_int64 (v : Int64) :
    [((v >>> 56) &&& 0xFF).toInt32.toInt8.toUInt8, ((v >>> 48) &&& 0xFF).toInt32.toInt8.toUInt8,
      ((v >>> 40) &&& 0xFF).toInt32.toInt8.toUInt8, ((v >>> 32) &&& 0xFF).toInt32.toInt8.toUInt8] =
      beBytes 4 (v.toBitVec.toNat / 256 ^ 4) := by
  rw [octet_int64 v 56 (n := 56) (by decide) le_rfl,
    octet_int64 v 48 (n := 48) (by decide) (by omega),
    octet_int64 v 40 (n := 40) (by decide) (by omega),
    octet_int64 v 32 (n := 32) (by decide) (by omega)]
  simp only [beBytes, Nat.div_div_eq_div_mul]
  rfl

end Octets

end HelloWebsocket.Words
