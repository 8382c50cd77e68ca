import HelloWebsocket.Wire.Words

/-!
# Hashing block by block

A hash of the family of SHA-1 and SHA-256: the message is padded to whole blocks of
64 octets, the last of which ends in the length of the message in bits, and a
compression function is folded over the blocks. A program that takes the message
octet by octet keeps the value so far and the octets of an incomplete block. One that has
the whole message pads it and goes through the blocks by their offsets.
-/

namespace HelloWebsocket.BlockHash

open BigEndian

/-- The whole blocks at the front of an octet string. -/
def blocks (m : Bytes) : List Bytes :=
  if m.length < 64 then [] else m.take 64 :: blocks (m.drop 64)
termination_by m.length
decreasing_by simp only [List.length_drop]; omega

/-- What is appended to a message of `n` octets. -/
def padding (n : Nat) : Bytes :=
  0x80 :: (List.replicate ((119 - n % 64) % 64) 0 ++ beBytes 8 (8 * n))

variable {H : Type} (compress : H → Bytes → H) (initial : H)

/-- The value after the last block of the padded message. -/
def hash (m : Bytes) : H := (blocks (m ++ padding m.length)).foldl compress initial

section Blocks

variable {a b : Bytes}

theorem blocks_of_short (h : a.length < 64) : blocks a = [] := by
  rw [blocks, if_pos h]

theorem blocks_block (h : a.length = 64) : blocks (a ++ b) = a :: blocks b := by
  rw [blocks, if_neg (by rw [List.length_append]; omega), ← h, List.take_left, List.drop_left]

theorem blocks_append (k : Nat) (h : a.length = 64 * k) : blocks (a ++ b) = blocks a ++ blocks b := by
  induction k generalizing a with
  | zero =>
      rw [List.length_eq_zero_iff.mp h, blocks_of_short (a := []) (by decide)]
      rfl
  | succ k ih =>
      have hfront : (a.take 64).length = 64 := by
        rw [List.length_take]
        omega
      have hrest : (a.drop 64).length = 64 * k := by
        rw [List.length_drop]
        omega
      rw [← List.take_append_drop 64 a, List.append_assoc, blocks_block hfront,
        blocks_block hfront, ih hrest, List.cons_append]

end Blocks

section Absorbing

/-- The value `h` and the incomplete block `t` after the octets of `m`. -/
def Absorbed (h : H) (t m : Bytes) : Prop :=
  ∃ (w : Bytes) (k : Nat), w.length = 64 * k ∧ m = w ++ t ∧ t.length < 64 ∧
    h = (blocks w).foldl compress initial

variable {compress initial} {h : H} {t m : Bytes}

theorem absorbed_nil : Absorbed compress initial initial [] [] := by
  refine ⟨[], 0, rfl, rfl, by decide, ?_⟩
  rw [blocks_of_short (by decide)]
  rfl

theorem Absorbed.length_mod (ha : Absorbed compress initial h t m) : m.length % 64 = t.length := by
  obtain ⟨w, k, hw, rfl, ht, -⟩ := ha
  rw [List.length_append]
  omega

/-- An octet that does not complete a block. -/
theorem Absorbed.push (ha : Absorbed compress initial h t m) (b : UInt8) (hlt : t.length + 1 < 64) :
    Absorbed compress initial h (t ++ [b]) (m ++ [b]) := by
  obtain ⟨w, k, hw, rfl, -, hh⟩ := ha
  refine ⟨w, k, hw, List.append_assoc w t [b], ?_, hh⟩
  rw [List.length_append]
  exact hlt

/-- An octet that completes a block. -/
theorem Absorbed.push_block (ha : Absorbed compress initial h t m) (b : UInt8)
    (heq : t.length + 1 = 64) : Absorbed compress initial (compress h (t ++ [b])) [] (m ++ [b]) := by
  obtain ⟨w, k, hw, rfl, -, rfl⟩ := ha
  have hblock : (t ++ [b]).length = 64 := by
    rw [List.length_append]
    exact heq
  have hone : blocks (t ++ [b]) = [t ++ [b]] := by
    have happend := blocks_block (b := []) hblock
    rwa [List.append_nil, blocks_of_short (a := []) (by decide)] at happend
  refine ⟨w ++ (t ++ [b]), k + 1, ?_, ?_, by decide, ?_⟩
  · rw [List.length_append, hblock, hw]
    omega
  · rw [List.append_nil, List.append_assoc]
  · rw [blocks_append k hw, hone, List.foldl_append]
    rfl

/-- The hash is the value of the incomplete block with the padding. -/
theorem Absorbed.hash_eq (ha : Absorbed compress initial h t m) :
    hash compress initial m = (blocks (t ++ padding m.length)).foldl compress h := by
  obtain ⟨w, k, hw, rfl, -, rfl⟩ := ha
  rw [hash, List.append_assoc, blocks_append k hw, List.foldl_append]

variable (m) in
/-- The last block of an incomplete block with room for the length. -/
def lastBlock (t : Bytes) : Bytes :=
  t ++ List.replicate (56 - t.length) 0 ++ beBytes 8 (8 * m.length)

theorem Absorbed.hash_of_lt (ha : Absorbed compress initial h t m) (hlt : t.length + 1 ≤ 56) :
    hash compress initial m = compress h (lastBlock m (t ++ [0x80])) := by
  have hmod := ha.length_mod
  have hzeros : (119 - m.length % 64) % 64 = 56 - (t ++ [(0x80 : UInt8)]).length := by
    rw [hmod, List.length_append, List.length_singleton]
    omega
  have hsplit : t ++ padding m.length = lastBlock m (t ++ [0x80]) ++ [] := by
    rw [padding, hzeros, lastBlock, List.append_nil]
    simp only [List.append_assoc, List.cons_append, List.nil_append]
  have hlen : (lastBlock m (t ++ [0x80])).length = 64 := by
    simp only [lastBlock, List.length_append, List.length_replicate, length_beBytes,
      List.length_singleton]
    omega
  rw [ha.hash_eq, hsplit, blocks_block hlen, blocks_of_short (by decide)]
  rfl

/-- Without room for the length, one more block is needed. -/
theorem Absorbed.hash_of_ge (ha : Absorbed compress initial h t m) (hge : 56 < t.length + 1) :
    hash compress initial m =
      compress (compress h (t ++ [0x80] ++ List.replicate (64 - (t.length + 1)) 0))
        (lastBlock m []) := by
  have hlt : t.length < 64 := by
    obtain ⟨-, -, -, -, hlt, -⟩ := ha
    exact hlt
  have hmod := ha.length_mod
  have hzeros : (119 - m.length % 64) % 64 = (64 - (t.length + 1)) + 56 := by
    rw [hmod]
    omega
  have hsplit : t ++ padding m.length =
      (t ++ [0x80] ++ List.replicate (64 - (t.length + 1)) 0) ++ (lastBlock m [] ++ []) := by
    rw [padding, hzeros, List.replicate_add, lastBlock]
    simp only [List.append_assoc, List.cons_append, List.nil_append, List.append_nil,
      List.length_nil, Nat.sub_zero]
  have hfirst : (t ++ [(0x80 : UInt8)] ++ List.replicate (64 - (t.length + 1)) 0).length = 64 := by
    simp only [List.length_append, List.length_replicate, List.length_singleton]
    omega
  have hlast : (lastBlock m []).length = 64 := by
    simp only [lastBlock, List.length_append, List.length_replicate, length_beBytes,
      List.length_nil]
  rw [ha.hash_eq, hsplit, blocks_block hfirst, blocks_block hlast, blocks_of_short (by decide)]
  rfl

end Absorbing

section Whole

/-- Zeros until eight octets are missing to whole blocks. -/
def fillZeros (m : Bytes) : Bytes := if m.length % 64 = 56 then m else fillZeros (m ++ [0])
termination_by (120 - m.length % 64) % 64
decreasing_by
  rw [List.length_append, List.length_singleton]
  omega

theorem fillZeros_eq (m : Bytes) :
    fillZeros m = m ++ List.replicate ((120 - m.length % 64) % 64) 0 := by
  fun_induction fillZeros m with
  | case1 m h =>
      rw [h]
      exact (List.append_nil m).symm
  | case2 m h ih =>
      rw [ih, List.append_assoc, List.length_append, List.length_singleton, List.singleton_append,
        ← List.replicate_succ]
      congr 2
      omega

/-- The padded message, as a program with a loop for the zeros makes it. -/
theorem fillZeros_append (m : Bytes) :
    fillZeros (m ++ [0x80]) ++ beBytes 8 (8 * m.length) = m ++ padding m.length := by
  have hzeros : (120 - (m ++ [(0x80 : UInt8)]).length % 64) % 64 = (119 - m.length % 64) % 64 := by
    rw [List.length_append, List.length_singleton]
    omega
  rw [fillZeros_eq, hzeros, padding]
  simp only [List.append_assoc, List.cons_append, List.nil_append]

/-- The length in bits, computed with words of 64 bits. -/
theorem beBytes_bitLen (n : Nat) : beBytes 8 (UInt64.ofNat n * 8).toNat = beBytes 8 (8 * n) := by
  have hmod : (UInt64.ofNat n * 8).toNat = 8 * n % 256 ^ 8 := by
    rw [UInt64.toNat_mul, UInt64.toNat_ofNat', show (8 : UInt64).toNat = 8 from rfl, Nat.mod_mul_mod,
      Nat.mul_comm]
    norm_num
  rw [hmod, beBytes_mod 8 _ 8 le_rfl]

variable {compress : H → Bytes → H} {initial : H}

/-- Going through the blocks of a message by their offsets. -/
theorem foldl_offsets (msg : Bytes) (h : H) :
    ((List.range (msg.length / 64)).map (64 * ·)).foldl
      (fun h off => compress h ((msg.drop off).take 64)) h = (blocks msg).foldl compress h := by
  fun_induction blocks msg generalizing h with
  | case1 msg hlt =>
      rw [Nat.div_eq_of_lt hlt]
      rfl
  | case2 msg hge ih =>
      have hcount : msg.length / 64 = (msg.drop 64).length / 64 + 1 := by
        rw [List.length_drop]
        omega
      have hshift : (fun j => 64 * j) ∘ Nat.succ = fun j => 64 + 64 * j := by
        funext j
        rw [Function.comp_apply, Nat.mul_succ, Nat.add_comm]
      rw [hcount, List.range_succ_eq_map, List.map_cons, List.map_map, hshift, List.foldl_cons,
        List.foldl_cons, ← ih, Nat.mul_zero, List.drop_zero, List.foldl_map, List.foldl_map]
      simp only [List.drop_drop]

/-- A loop over the blocks of the padded message computes the hash value. -/
theorem foldl_padded {m msg : Bytes} {step : H → Nat → H} (hmsg : msg = m ++ padding m.length)
    (hstep : ∀ h off, off + 64 ≤ msg.length → step h off = compress h ((msg.drop off).take 64)) :
    ((List.range (msg.length / 64)).map (64 * ·)).foldl step initial = hash compress initial m := by
  have hloop : ((List.range (msg.length / 64)).map (64 * ·)).foldl step initial =
      ((List.range (msg.length / 64)).map (64 * ·)).foldl
        (fun h off => compress h ((msg.drop off).take 64)) initial := by
    apply List.foldl_ext
    intro h off hoff
    obtain ⟨j, hj, rfl⟩ := List.mem_map.mp hoff
    rw [List.mem_range] at hj
    exact hstep h _ (by omega)
  rw [hloop, foldl_offsets, hash, hmsg]

end Whole

section Words

/-- Word `t` of a block. -/
def word (block : Bytes) (t : Nat) : UInt32 := UInt32.ofNat (beNat ((block.drop (4 * t)).take 4))

/-- The word that begins at octet `k`, joined by shifts. -/
def wordAt (msg : Bytes) (k : Nat) : UInt32 :=
  ((msg.getD k 0).toUInt32 <<< 24) ||| ((msg.getD (k + 1) 0).toUInt32 <<< 16) |||
    ((msg.getD (k + 2) 0).toUInt32 <<< 8) ||| (msg.getD (k + 3) 0).toUInt32

theorem wordAt_eq {msg : Bytes} {k : Nat} (h : k + 4 ≤ msg.length) :
    wordAt msg k = UInt32.ofNat (beNat ((msg.drop k).take 4)) := by
  have hfour : (msg.drop k).take 4 =
      [msg.getD k 0, msg.getD (k + 1) 0, msg.getD (k + 2) 0, msg.getD (k + 3) 0] := by
    have hget (i : Nat) (hi : k + i < msg.length) :
        msg.getD (k + i) 0 = msg.get ⟨k + i, hi⟩ := by
      rw [List.getD_eq_getElem?_getD, List.getElem?_eq_getElem hi]
      rfl
    apply List.ext_getElem
    · simp only [List.length_take, List.length_drop, List.length_cons, List.length_nil]
      omega
    · intro i hi _
      have hlt : i < 4 := by
        rw [List.length_take] at hi
        omega
      rw [List.getElem_take, List.getElem_drop]
      match i, hlt with
      | 0, _ => exact (hget 0 (by omega)).symm
      | 1, _ => exact (hget 1 (by omega)).symm
      | 2, _ => exact (hget 2 (by omega)).symm
      | 3, _ => exact (hget 3 (by omega)).symm
  have hlt (b0 b1 b2 b3 : UInt8) : beNat [b0, b1, b2, b3] < 2 ^ 32 :=
    (beNat_lt [b0, b1, b2, b3]).trans_eq (by norm_num)
  apply UInt32.toNat_inj.mp
  rw [wordAt, hfour, Words.toNat_or_octets_u32, UInt32.toNat_ofNat_of_lt' (hlt _ _ _ _)]

/-- A word of the block at an offset. -/
theorem wordAt_block {msg : Bytes} {off t : Nat} (hoff : off + 64 ≤ msg.length) (ht : t < 16) :
    wordAt msg (off + t * 4) = word ((msg.drop off).take 64) t := by
  rw [wordAt_eq (by omega), word, List.drop_take, List.take_take, List.drop_drop,
    Nat.min_eq_left (by omega), Nat.mul_comm]

/-- An array that is filled up to index `n` with the words of a schedule. -/
def Filled (w : Nat → UInt32) (n : Nat) (ws : List UInt32) : Prop := ws = (List.range n).map w

variable {w : Nat → UInt32} {n : Nat} {ws : List UInt32}

theorem Filled.getD (h : Filled w n ws) {i : Nat} (hi : i < n) : ws.getD i 0 = w i := by
  rw [h, List.getD_eq_getElem?_getD, List.getElem?_map, List.getElem?_range hi]
  rfl

theorem Filled.push (h : Filled w n ws) : Filled w (n + 1) (ws ++ [w n]) := by
  rw [Filled, List.range_succ, List.map_append, ← h]
  rfl

/-- A loop that computes each word from those before it fills the array. -/
theorem Filled.extend {next : List UInt32 → Nat → UInt32} {k : Nat}
    (hnext : ∀ n ws, k ≤ n → Filled w n ws → next ws n = w n) (h : Filled w k ws) (m : Nat) :
    Filled w (k + m) ((List.range' k m).foldl (fun ws i => ws ++ [next ws i]) ws) := by
  induction m with
  | zero => exact h
  | succ m ih =>
      rw [List.range'_1_concat, List.foldl_append, List.foldl_cons, List.foldl_nil,
        hnext _ _ (by omega) ih]
      exact ih.push

/-- The words of the block at an offset are the first words of its schedule. -/
theorem filled_words {msg : Bytes} {off : Nat} (hoff : off + 64 ≤ msg.length)
    (hw : ∀ t, t < 16 → w t = word ((msg.drop off).take 64) t) :
    Filled w 16 ((List.range 16).map fun i => wordAt msg (off + i * 4)) := by
  rw [Filled]
  apply List.map_congr_left
  intro i hi
  rw [List.mem_range] at hi
  rw [wordAt_block hoff hi, hw i hi]

end Words

end HelloWebsocket.BlockHash
