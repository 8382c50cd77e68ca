import Mathlib.Tactic

/-!
# Big-endian numerals over octet strings

A fixed-width numeral is the list of its octets, most significant first.
Writing reduces the number modulo the width, reading never fails, and the two
are inverse on exactly the octet strings of that width. Signed numbers use
two's complement, so a written signed number is the numeral of its residue.
-/

namespace HelloWebsocket

/-- An octet string. -/
abbrev Bytes := List UInt8

namespace BigEndian

/-- The `w` low octets of `n`, most significant first. -/
def beBytes : Nat → Nat → Bytes
  | 0, _ => []
  | w + 1, n => UInt8.ofNat (n / 256 ^ w) :: beBytes w n

/-- The number an octet string spells, most significant octet first. -/
def beNat (bs : Bytes) : Nat := bs.foldl (fun acc b => acc * 256 + b.toNat) 0

@[simp] theorem length_beBytes (w n : Nat) : (beBytes w n).length = w := by
  induction w with
  | zero => rfl
  | succ w ih => simp [beBytes, ih]

@[simp] theorem beNat_nil : beNat [] = 0 := rfl

private theorem foldl_beNat (bs : Bytes) (acc : Nat) :
    bs.foldl (fun acc b => acc * 256 + b.toNat) acc = acc * 256 ^ bs.length + beNat bs := by
  induction bs generalizing acc with
  | nil => simp
  | cons b bs ih =>
      simp only [List.foldl_cons, beNat, List.length_cons]
      rw [ih, ih (0 * 256 + b.toNat)]
      ring

theorem beNat_cons (b : UInt8) (bs : Bytes) :
    beNat (b :: bs) = b.toNat * 256 ^ bs.length + beNat bs := by
  rw [beNat, List.foldl_cons, foldl_beNat]
  simp

theorem beNat_append (xs ys : Bytes) :
    beNat (xs ++ ys) = beNat xs * 256 ^ ys.length + beNat ys := by
  rw [beNat, List.foldl_append, foldl_beNat]
  rfl

theorem beNat_lt (bs : Bytes) : beNat bs < 256 ^ bs.length := by
  induction bs with
  | nil => simp
  | cons b bs ih =>
      rw [beNat_cons, List.length_cons, pow_succ]
      have hb : b.toNat + 1 ≤ 256 := by have := b.toNat_lt; omega
      have hm := Nat.mul_le_mul_right (256 ^ bs.length) hb
      rw [Nat.add_mul, one_mul] at hm
      omega

theorem exists_cons_of_succ_le {α : Type} {n : Nat} {xs : List α} (h : n + 1 ≤ xs.length) :
    ∃ x ys, xs = x :: ys ∧ n ≤ ys.length := by
  cases xs with
  | nil => simp at h
  | cons x ys => exact ⟨x, ys, rfl, Nat.le_of_succ_le_succ h⟩

/-- Reading a written numeral gives the number modulo the width. -/
theorem beNat_beBytes (w n : Nat) : beNat (beBytes w n) = n % 256 ^ w := by
  induction w with
  | zero => simp [beBytes, Nat.mod_one]
  | succ w ih =>
      rw [beBytes, beNat_cons, ih, length_beBytes, UInt8.toNat_ofNat']
      have hs : n % 256 ^ (w + 1) = n % 256 ^ w + 256 ^ w * (n / 256 ^ w % 256) := by
        rw [pow_succ, Nat.mod_mul]
      rw [hs, Nat.mul_comm (256 ^ w), Nat.add_comm]

theorem beBytes_mod (w n k : Nat) (hk : w ≤ k) : beBytes w (n % 256 ^ k) = beBytes w n := by
  induction w with
  | zero => rfl
  | succ w ih =>
      have hsplit : 256 ^ k = 256 ^ w * 256 ^ (k - w) := by
        rw [← pow_add]
        congr 1
        omega
      have hdvd : 256 ∣ 256 ^ (k - w) := dvd_pow_self 256 (by omega)
      have hdigit : UInt8.ofNat (n % 256 ^ k / 256 ^ w) = UInt8.ofNat (n / 256 ^ w) := by
        apply UInt8.toNat_inj.mp
        rw [UInt8.toNat_ofNat', UInt8.toNat_ofNat', hsplit, Nat.mod_mul_right_div_self]
        exact Nat.mod_mod_of_dvd _ hdvd
      rw [beBytes, beBytes, hdigit, ih (by omega)]

/-- A numeral is the numeral of its high part followed by that of its low part. -/
theorem beBytes_add (a b n : Nat) : beBytes (a + b) n = beBytes a (n / 256 ^ b) ++ beBytes b n := by
  induction a with
  | zero => simp [beBytes]
  | succ a ih =>
      rw [Nat.succ_add_eq_add_succ, Nat.add_succ, beBytes, ih, beBytes, List.cons_append,
        Nat.div_div_eq_div_mul, ← pow_add, Nat.add_comm a b]

/-- Writing the number an octet string spells gives that string back. -/
theorem beBytes_beNat (bs : Bytes) : beBytes bs.length (beNat bs) = bs := by
  induction bs with
  | nil => rfl
  | cons b bs ih =>
      have hlt := beNat_lt bs
      have hhead : beNat (b :: bs) / 256 ^ bs.length = b.toNat := by
        rw [beNat_cons, Nat.add_comm, Nat.add_mul_div_right _ _ (by positivity),
          Nat.div_eq_of_lt hlt, Nat.zero_add]
      have htail : beNat (b :: bs) % 256 ^ bs.length = beNat bs := by
        rw [beNat_cons, Nat.add_comm, Nat.add_mul_mod_self_right, Nat.mod_eq_of_lt hlt]
      rw [List.length_cons, beBytes, hhead, ← beBytes_mod bs.length _ bs.length le_rfl,
        htail, ih]
      simp

theorem beBytes_injOn {w m n : Nat} (hm : m < 256 ^ w) (hn : n < 256 ^ w)
    (h : beBytes w m = beBytes w n) : m = n := by
  have he := congrArg beNat h
  rwa [beNat_beBytes, beNat_beBytes, Nat.mod_eq_of_lt hm, Nat.mod_eq_of_lt hn] at he

/-- The residue of a signed number, as two's complement on `w` bits. -/
def twos (w : Nat) (v : Int) : Nat := (v % 2 ^ w).toNat

/-- The signed number a residue on `w` bits stands for. -/
def signed (w : Nat) (n : Nat) : Int := Int.bmod n (2 ^ w)

theorem twos_lt (w : Nat) (v : Int) : twos w v < 2 ^ w := by
  have hpos : (0 : Int) < 2 ^ w := by positivity
  have hnn := Int.emod_nonneg v hpos.ne'
  have hlt := Int.emod_lt_of_pos v hpos
  zify
  rw [twos, Int.toNat_of_nonneg hnn]
  exact hlt

theorem signed_twos (w : Nat) (v : Int) : signed w (twos w v) = Int.bmod v (2 ^ w) := by
  have hpos : (0 : Int) < 2 ^ w := by positivity
  rw [signed, twos, Int.toNat_of_nonneg (Int.emod_nonneg v hpos.ne')]
  have hcast : ((2 : Int) ^ w) = ((2 ^ w : Nat) : Int) := by push_cast; rfl
  rw [hcast, Int.emod_bmod]

/-- A signed number in range is what its residue stands for. -/
theorem signed_twos_of_range {w : Nat} {v : Int} (hw : 0 < w)
    (hl : -2 ^ (w - 1) ≤ v) (hu : v < 2 ^ (w - 1)) : signed w (twos w v) = v := by
  obtain ⟨k, rfl⟩ : ∃ k, w = k + 1 := ⟨w - 1, by omega⟩
  rw [signed_twos]
  have hpow : ((2 ^ (k + 1) : Nat) : Int) = 2 * 2 ^ k := by push_cast; ring
  simp only [Nat.add_sub_cancel] at hl hu
  apply Int.bmod_eq_of_le <;> rw [hpow] <;> omega

theorem twos_signed {w n : Nat} (hn : n < 2 ^ w) : twos w (signed w n) = n := by
  have hcast : ((2 : Int) ^ w) = ((2 ^ w : Nat) : Int) := by push_cast; rfl
  rw [twos, signed, hcast, Int.bmod_emod, ← Int.natCast_emod, Nat.mod_eq_of_lt hn,
    Int.toNat_natCast]

end BigEndian

end HelloWebsocket
