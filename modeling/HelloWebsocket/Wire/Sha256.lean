import HelloWebsocket.Wire.BlockHash

/-!
# SHA-256

The secure hash algorithm of FIPS 180-4, sections 4.1.2, 4.2.2, 5 and 6.2, on octet
strings.

## Implementation notes

The hand-written implementations compute the message schedule in an array. Their block
loop is the same, so it is here, with the table of constants as a parameter.
-/

namespace HelloWebsocket.Sha256

open BigEndian BlockHash

/-- The words `a` to `h`, or a hash value. -/
structure State where
  a : UInt32
  b : UInt32
  c : UInt32
  d : UInt32
  e : UInt32
  f : UInt32
  g : UInt32
  h : UInt32
  deriving DecidableEq

/-- The initial hash value. -/
def initial : State :=
  ⟨0x6a09e667, 0xbb67ae85, 0x3c6ef372, 0xa54ff53a, 0x510e527f, 0x9b05688c, 0x1f83d9ab, 0x5be0cd19⟩

/-- The constants of the rounds. -/
def constants : List UInt32 :=
  [0x428a2f98, 0x71374491, 0xb5c0fbcf, 0xe9b5dba5, 0x3956c25b, 0x59f111f1, 0x923f82a4, 0xab1c5ed5,
    0xd807aa98, 0x12835b01, 0x243185be, 0x550c7dc3, 0x72be5d74, 0x80deb1fe, 0x9bdc06a7, 0xc19bf174,
    0xe49b69c1, 0xefbe4786, 0x0fc19dc6, 0x240ca1cc, 0x2de92c6f, 0x4a7484aa, 0x5cb0a9dc, 0x76f988da,
    0x983e5152, 0xa831c66d, 0xb00327c8, 0xbf597fc7, 0xc6e00bf3, 0xd5a79147, 0x06ca6351, 0x14292967,
    0x27b70a85, 0x2e1b2138, 0x4d2c6dfc, 0x53380d13, 0x650a7354, 0x766a0abb, 0x81c2c92e, 0x92722c85,
    0xa2bfe8a1, 0xa81a664b, 0xc24b8b70, 0xc76c51a3, 0xd192e819, 0xd6990624, 0xf40e3585, 0x106aa070,
    0x19a4c116, 0x1e376c08, 0x2748774c, 0x34b0bcb5, 0x391c0cb3, 0x4ed8aa4a, 0x5b9cca4f, 0x682e6ff3,
    0x748f82ee, 0x78a5636f, 0x84c87814, 0x8cc70208, 0x90befffa, 0xa4506ceb, 0xbef9a3f7, 0xc67178f2]

-- they are the first 32 bits of the fractional parts of the cube roots of the first primes
example : ∀ pk ∈ ((List.range 312).filter Nat.Prime).zip constants, ∃ c ≤ 6,
    (c * 2 ^ 32 + pk.2.toNat) ^ 3 ≤ pk.1 * 2 ^ 96 ∧
      pk.1 * 2 ^ 96 < (c * 2 ^ 32 + pk.2.toNat + 1) ^ 3 := by decide +kernel

def rotr (x n : UInt32) : UInt32 := (x >>> n) ||| (x <<< (32 - n))

section Functions

def ch (x y z : UInt32) : UInt32 := (x &&& y) ^^^ (~~~x &&& z)

def maj (x y z : UInt32) : UInt32 := (x &&& y) ^^^ (x &&& z) ^^^ (y &&& z)

def bigSigma0 (x : UInt32) : UInt32 := rotr x 2 ^^^ rotr x 13 ^^^ rotr x 22

def bigSigma1 (x : UInt32) : UInt32 := rotr x 6 ^^^ rotr x 11 ^^^ rotr x 25

def sigma0 (x : UInt32) : UInt32 := rotr x 7 ^^^ rotr x 18 ^^^ (x >>> 3)

def sigma1 (x : UInt32) : UInt32 := rotr x 17 ^^^ rotr x 19 ^^^ (x >>> 10)

end Functions

section Schedule

/-- Word `t` of the message schedule of a block with the words `m`. -/
def w (m : Nat → UInt32) (t : Nat) : UInt32 :=
  if t < 16 then m t
  else sigma1 (w m (t - 2)) + w m (t - 7) + sigma0 (w m (t - 15)) + w m (t - 16)
termination_by t
decreasing_by all_goals omega

/-- The next word, computed from the array. -/
def nextWord (ws : List UInt32) (i : Nat) : UInt32 :=
  let w15 := ws.getD (i - 15) 0
  let w2 := ws.getD (i - 2) 0
  let s0 := rotr w15 7 ^^^ rotr w15 18 ^^^ (w15 >>> 3)
  let s1 := rotr w2 17 ^^^ rotr w2 19 ^^^ (w2 >>> 10)
  ws.getD (i - 16) 0 + s0 + ws.getD (i - 7) 0 + s1

/-- The programs add in another order than the standard. -/
theorem nextWord_eq {m : Nat → UInt32} {n : Nat} {ws : List UInt32} (hn : 16 ≤ n)
    (h : Filled (w m) n ws) : nextWord ws n = w m n := by
  rw [nextWord, h.getD (by omega), h.getD (by omega), h.getD (by omega), h.getD (by omega),
    w.eq_def m n, if_neg (by omega)]
  change w m (n - 16) + sigma0 (w m (n - 15)) + w m (n - 7) + sigma1 (w m (n - 2)) = _
  ac_rfl

end Schedule

section Compression

/-- Round `t`. -/
def oneRound (m : Nat → UInt32) (s : State) (t : Nat) : State :=
  let t1 := s.h + bigSigma1 s.e + ch s.e s.f s.g + constants.getD t 0 + w m t
  let t2 := bigSigma0 s.a + maj s.a s.b s.c
  ⟨t1 + t2, s.a, s.b, s.c, s.d + t1, s.e, s.f, s.g⟩

def add (s s' : State) : State :=
  ⟨s.a + s'.a, s.b + s'.b, s.c + s'.c, s.d + s'.d, s.e + s'.e, s.f + s'.f, s.g + s'.g, s.h + s'.h⟩

/-- The hash value after one more block. -/
@[irreducible] def compress (h : State) (block : Bytes) : State :=
  add h ((List.range 64).foldl (oneRound (word block)) h)

/-- The octets of a hash value. -/
def digest (h : State) : Bytes :=
  [h.a, h.b, h.c, h.d, h.e, h.f, h.g, h.h].flatMap fun v => beBytes 4 v.toNat

end Compression

/-- SHA-256 -/
def sha256 (m : Bytes) : Bytes := digest (hash compress initial m)

@[simp] theorem length_sha256 (m : Bytes) : (sha256 m).length = 32 := rfl

section Programs

/-- The array `w` of the block at an offset. -/
def schedule (msg : Bytes) (off : Nat) : List UInt32 :=
  (List.range' 16 48).foldl (fun w i => w ++ [nextWord w i])
    ((List.range 16).map fun i => wordAt msg (off + i * 4))

/-- A turn of the round loop. -/
def turn (k w : List UInt32) (s : State) (i : Nat) : State :=
  let s1 := rotr s.e 6 ^^^ rotr s.e 11 ^^^ rotr s.e 25
  let ch := (s.e &&& s.f) ^^^ (~~~s.e &&& s.g)
  let t1 := s.h + s1 + ch + k.getD i 0 + w.getD i 0
  let s0 := rotr s.a 2 ^^^ rotr s.a 13 ^^^ rotr s.a 22
  let maj := (s.a &&& s.b) ^^^ (s.a &&& s.c) ^^^ (s.b &&& s.c)
  let t2 := s0 + maj
  ⟨t1 + t2, s.a, s.b, s.c, s.d + t1, s.e, s.f, s.g⟩

/-- The work of a program on the block at an offset. -/
def compressBlock (k : List UInt32) (msg : Bytes) (h : State) (off : Nat) : State :=
  add h ((List.range 64).foldl (turn k (schedule msg off)) h)

variable {msg : Bytes} {off : Nat}

theorem filled_schedule (h : off + 64 ≤ msg.length) :
    Filled (w (word ((msg.drop off).take 64))) 64 (schedule msg off) := by
  have hfirst : Filled (w (word ((msg.drop off).take 64))) 16
      ((List.range 16).map fun i => wordAt msg (off + i * 4)) := by
    apply filled_words h
    intro t ht
    rw [w.eq_def, if_pos ht]
  exact hfirst.extend (fun _ _ => nextWord_eq) 48

/-- Programs compress a block as the standard says. -/
theorem compressBlock_eq (s : State) (h : off + 64 ≤ msg.length) :
    compressBlock constants msg s off = compress s ((msg.drop off).take 64) := by
  have hloop : (List.range 64).foldl (turn constants (schedule msg off)) s =
      (List.range 64).foldl (oneRound (word ((msg.drop off).take 64))) s := by
    apply List.foldl_ext
    intro t i hi
    rw [turn, (filled_schedule h).getD (List.mem_range.mp hi)]
    rfl
  rw [compressBlock, hloop, compress]

end Programs

end HelloWebsocket.Sha256
