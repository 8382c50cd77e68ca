import HelloWebsocket.Wire.BlockHash

/-!
# SHA-1

The secure hash algorithm of FIPS 180-4, sections 4.1.1, 4.2.1, 5 and 6.1, on octet
strings. Programs compute the message schedule in an array and write the functions
`Ch` and `Maj` with disjunctions; both give what the standard says.

## Implementation notes

The hand-written implementations have the same block loop line by line, and differ only
in where the block stands, so that loop is here.
-/

namespace HelloWebsocket.Sha1

open BigEndian BlockHash

/-- The words `a` to `e`, or a hash value. -/
structure State where
  a : UInt32
  b : UInt32
  c : UInt32
  d : UInt32
  e : UInt32
  deriving DecidableEq

/-- The initial hash value. -/
def initial : State := ⟨0x67452301, 0xEFCDAB89, 0x98BADCFE, 0x10325476, 0xC3D2E1F0⟩

def rotl (x n : UInt32) : UInt32 := (x <<< n) ||| (x >>> (32 - n))

section Functions

def ch (x y z : UInt32) : UInt32 := (x &&& y) ^^^ (~~~x &&& z)

def parity (x y z : UInt32) : UInt32 := x ^^^ y ^^^ z

def maj (x y z : UInt32) : UInt32 := (x &&& y) ^^^ (x &&& z) ^^^ (y &&& z)

/-- The function of round `t`. -/
def f (t : Nat) : UInt32 → UInt32 → UInt32 → UInt32 :=
  if t < 20 then ch else if t < 40 then parity else if t < 60 then maj else parity

/-- The constant of round `t`. -/
def k (t : Nat) : UInt32 :=
  if t < 20 then 0x5A827999 else if t < 40 then 0x6ED9EBA1
  else if t < 60 then 0x8F1BBCDC else 0xCA62C1D6

theorem ch_eq_or (x y z : UInt32) : (x &&& y) ||| (~~~x &&& z) = ch x y z := by
  apply UInt32.toBitVec_inj.mp
  apply BitVec.eq_of_getLsbD_eq
  intro i hi
  simp only [ch, UInt32.toBitVec_or, UInt32.toBitVec_and, UInt32.toBitVec_not,
    UInt32.toBitVec_xor, BitVec.getLsbD_or, BitVec.getLsbD_and, BitVec.getLsbD_not,
    BitVec.getLsbD_xor]
  cases x.toBitVec.getLsbD i <;> simp

theorem maj_eq_or (x y z : UInt32) : (x &&& y) ||| (x &&& z) ||| (y &&& z) = maj x y z := by
  apply UInt32.toBitVec_inj.mp
  apply BitVec.eq_of_getLsbD_eq
  intro i hi
  simp only [maj, UInt32.toBitVec_or, UInt32.toBitVec_and, UInt32.toBitVec_xor,
    BitVec.getLsbD_or, BitVec.getLsbD_and, BitVec.getLsbD_xor]
  cases x.toBitVec.getLsbD i <;> cases y.toBitVec.getLsbD i <;> cases z.toBitVec.getLsbD i <;> rfl

end Functions

section Schedule

/-- Word `t` of the message schedule of a block with the words `m`. -/
def w (m : Nat → UInt32) (t : Nat) : UInt32 :=
  if t < 16 then m t
  else rotl (w m (t - 3) ^^^ w m (t - 8) ^^^ w m (t - 14) ^^^ w m (t - 16)) 1
termination_by t
decreasing_by all_goals omega

/-- The next word, computed from the array. -/
def nextWord (ws : List UInt32) (i : Nat) : UInt32 :=
  rotl (ws.getD (i - 3) 0 ^^^ ws.getD (i - 8) 0 ^^^ ws.getD (i - 14) 0 ^^^ ws.getD (i - 16) 0) 1

theorem nextWord_eq {m : Nat → UInt32} {n : Nat} {ws : List UInt32} (hn : 16 ≤ n)
    (h : Filled (w m) n ws) : nextWord ws n = w m n := by
  rw [nextWord, h.getD (by omega), h.getD (by omega), h.getD (by omega), h.getD (by omega),
    w.eq_def m n, if_neg (by omega)]

end Schedule

section Compression

/-- Round `t`. -/
def oneRound (m : Nat → UInt32) (s : State) (t : Nat) : State :=
  ⟨rotl s.a 5 + f t s.b s.c s.d + s.e + k t + w m t, s.a, rotl s.b 30, s.c, s.d⟩

def add (s s' : State) : State := ⟨s.a + s'.a, s.b + s'.b, s.c + s'.c, s.d + s'.d, s.e + s'.e⟩

/-- The hash value after one more block. -/
@[irreducible] def compress (h : State) (block : Bytes) : State :=
  add h ((List.range 80).foldl (oneRound (word block)) h)

/-- The octets of a hash value. -/
def digest (h : State) : Bytes := [h.a, h.b, h.c, h.d, h.e].flatMap fun v => beBytes 4 v.toNat

end Compression

/-- SHA-1 -/
def sha1 (m : Bytes) : Bytes := digest (hash compress initial m)

@[simp] theorem length_sha1 (m : Bytes) : (sha1 m).length = 20 := rfl

section Programs

/-- The array `w` of the block at an offset. -/
def schedule (msg : Bytes) (off : Nat) : List UInt32 :=
  (List.range' 16 64).foldl (fun w i => w ++ [nextWord w i])
    ((List.range 16).map fun i => wordAt msg (off + i * 4))

/-- The function value and the constant of a round, by its number. -/
def select (i : Nat) (b c d : UInt32) : UInt32 × UInt32 :=
  if i < 20 then ((b &&& c) ||| (~~~b &&& d), 0x5A827999)
  else if i < 40 then (b ^^^ c ^^^ d, 0x6ED9EBA1)
  else if i < 60 then ((b &&& c) ||| (b &&& d) ||| (c &&& d), 0x8F1BBCDC)
  else (b ^^^ c ^^^ d, 0xCA62C1D6)

/-- A turn of the round loop. -/
def turn (w : List UInt32) (s : State) (i : Nat) : State :=
  let (f, k) := select i s.b s.c s.d
  let temp := rotl s.a 5 + f + s.e + k + w.getD i 0
  ⟨temp, s.a, rotl s.b 30, s.c, s.d⟩

/-- The work of a program on the block at an offset. -/
def compressBlock (msg : Bytes) (h : State) (off : Nat) : State :=
  add h ((List.range 80).foldl (turn (schedule msg off)) h)

theorem turn_eq {m : Nat → UInt32} {ws : List UInt32} (hw : Filled (w m) 80 ws) (s : State) {i : Nat}
    (hi : i < 80) : turn ws s i = oneRound m s i := by
  have hselect : select i s.b s.c s.d = (f i s.b s.c s.d, k i) := by
    rw [select, f, k]
    split
    · rw [ch_eq_or]
    split
    · rfl
    split
    · rw [maj_eq_or]
    · rfl
  rw [turn, hselect, hw.getD hi, oneRound]

variable {msg : Bytes} {off : Nat}

theorem filled_schedule (h : off + 64 ≤ msg.length) :
    Filled (w (word ((msg.drop off).take 64))) 80 (schedule msg off) := by
  have hfirst : Filled (w (word ((msg.drop off).take 64))) 16
      ((List.range 16).map fun i => wordAt msg (off + i * 4)) := by
    apply filled_words h
    intro t ht
    rw [w.eq_def, if_pos ht]
  exact hfirst.extend (fun _ _ => nextWord_eq) 64

/-- Programs compress a block as the standard says. -/
theorem compressBlock_eq (s : State) (h : off + 64 ≤ msg.length) :
    compressBlock msg s off = compress s ((msg.drop off).take 64) := by
  have hloop : (List.range 80).foldl (turn (schedule msg off)) s =
      (List.range 80).foldl (oneRound (word ((msg.drop off).take 64))) s := by
    apply List.foldl_ext
    intro t i hi
    exact turn_eq (filled_schedule h) t (List.mem_range.mp hi)
  rw [compressBlock, hloop, compress]

end Programs

end HelloWebsocket.Sha1
