import HelloWebsocket.Wire.Hex
import HelloWebsocket.Wire.Sha256
import HelloWebsocket.Wire.Utf8

/-!
# The utilities of the C++ codec

`detail::sha256`, `hashNumber` and `nowISO` of `codec.hpp`, and that `sha256` computes
SHA-256.

## Implementation notes

The arrays of `sha256` are lists that are read at an index. The block loop runs over
the whole blocks of the padded message, which has no other octets. `nowISO` takes the
reading of the clock in milliseconds; `std::chrono` rounds it to seconds towards zero
and `gmtime_r` counts days from the epoch downwards. The clock shows years of four
digits only.
-/

namespace HelloWebsocket.Cpp

open Utf8

section Sha256

/-- `rotr` -/
def rotr (x n : UInt32) : UInt32 := (x >>> n) ||| (x <<< (32 - n))

/-- `K` -/
def roundConstants : List UInt32 :=
  [0x428a2f98, 0x71374491, 0xb5c0fbcf, 0xe9b5dba5, 0x3956c25b, 0x59f111f1, 0x923f82a4, 0xab1c5ed5,
    0xd807aa98, 0x12835b01, 0x243185be, 0x550c7dc3, 0x72be5d74, 0x80deb1fe, 0x9bdc06a7, 0xc19bf174,
    0xe49b69c1, 0xefbe4786, 0x0fc19dc6, 0x240ca1cc, 0x2de92c6f, 0x4a7484aa, 0x5cb0a9dc, 0x76f988da,
    0x983e5152, 0xa831c66d, 0xb00327c8, 0xbf597fc7, 0xc6e00bf3, 0xd5a79147, 0x06ca6351, 0x14292967,
    0x27b70a85, 0x2e1b2138, 0x4d2c6dfc, 0x53380d13, 0x650a7354, 0x766a0abb, 0x81c2c92e, 0x92722c85,
    0xa2bfe8a1, 0xa81a664b, 0xc24b8b70, 0xc76c51a3, 0xd192e819, 0xd6990624, 0xf40e3585, 0x106aa070,
    0x19a4c116, 0x1e376c08, 0x2748774c, 0x34b0bcb5, 0x391c0cb3, 0x4ed8aa4a, 0x5b9cca4f, 0x682e6ff3,
    0x748f82ee, 0x78a5636f, 0x84c87814, 0x8cc70208, 0x90befffa, 0xa4506ceb, 0xbef9a3f7, 0xc67178f2]

/-- The variables `a` to `h_` of the round loop, and the array `h` between the blocks. -/
structure HashState where
  a : UInt32
  b : UInt32
  c : UInt32
  d : UInt32
  e : UInt32
  f : UInt32
  g : UInt32
  h : UInt32

def HashState.init : HashState :=
  ⟨0x6a09e667, 0xbb67ae85, 0x3c6ef372, 0xa54ff53a, 0x510e527f, 0x9b05688c, 0x1f83d9ab, 0x5be0cd19⟩

/-- `while (msg.size() % 64 != 56) msg.push_back(0);` -/
def padZeros (msg : Bytes) : Bytes :=
  if msg.length % 64 = 56 then msg else padZeros (msg ++ [0])
  termination_by (120 - msg.length % 64) % 64
  decreasing_by
    rw [List.length_append, List.length_singleton]
    omega

/-- The padded message. -/
def pad (data : Bytes) : Bytes :=
  let bitLen := UInt64.ofNat data.length * 8
  padZeros (data ++ [0x80]) ++
    [7, 6, 5, 4, 3, 2, 1, 0].map fun i : UInt64 => (bitLen >>> (i * 8)).toUInt8

/-- The word `w[i]` for `i < 16`, from its first octet on. -/
def wordAt (msg : Bytes) (k : Nat) : UInt32 :=
  ((msg.getD k 0).toUInt32 <<< 24) ||| ((msg.getD (k + 1) 0).toUInt32 <<< 16) |||
    ((msg.getD (k + 2) 0).toUInt32 <<< 8) ||| (msg.getD (k + 3) 0).toUInt32

/-- The word `w[i]` for `16 ≤ i`, from those before it. -/
def nextWord (w : List UInt32) (i : Nat) : UInt32 :=
  let w15 := w.getD (i - 15) 0
  let w2 := w.getD (i - 2) 0
  let s0 := rotr w15 7 ^^^ rotr w15 18 ^^^ (w15 >>> 3)
  let s1 := rotr w2 17 ^^^ rotr w2 19 ^^^ (w2 >>> 10)
  w.getD (i - 16) 0 + s0 + w.getD (i - 7) 0 + s1

/-- The array `w` of the block at an offset. -/
def schedule (msg : Bytes) (off : Nat) : List UInt32 :=
  (List.range' 16 48).foldl (fun w i => w ++ [nextWord w i])
    ((List.range 16).map fun i => wordAt msg (off + i * 4))

/-- One pass of the round loop. -/
def round (x : HashState) (k w : UInt32) : HashState :=
  let S1 := rotr x.e 6 ^^^ rotr x.e 11 ^^^ rotr x.e 25
  let ch := (x.e &&& x.f) ^^^ (~~~x.e &&& x.g)
  let temp1 := x.h + S1 + ch + k + w
  let S0 := rotr x.a 2 ^^^ rotr x.a 13 ^^^ rotr x.a 22
  let maj := (x.a &&& x.b) ^^^ (x.a &&& x.c) ^^^ (x.b &&& x.c)
  let temp2 := S0 + maj
  ⟨temp1 + temp2, x.a, x.b, x.c, x.d + temp1, x.e, x.f, x.g⟩

/-- One pass of the block loop. -/
def compress (msg : Bytes) (h : HashState) (off : Nat) : HashState :=
  let x := (roundConstants.zip (schedule msg off)).foldl (fun x kw => round x kw.1 kw.2) h
  ⟨h.a + x.a, h.b + x.b, h.c + x.c, h.d + x.d, h.e + x.e, h.f + x.f, h.g + x.g, h.h + x.h⟩

def wordOctets (v : UInt32) : Bytes :=
  [((v >>> 24) &&& 0xFF).toUInt8, ((v >>> 16) &&& 0xFF).toUInt8, ((v >>> 8) &&& 0xFF).toUInt8,
    (v &&& 0xFF).toUInt8]

/-- `detail::sha256` -/
def sha256 (data : Bytes) : Bytes :=
  let msg := pad data
  let h := ((List.range (msg.length / 64)).map (64 * ·)).foldl (compress msg) .init
  [h.a, h.b, h.c, h.d, h.e, h.f, h.g, h.h].flatMap wordOctets

theorem length_padZeros (msg : Bytes) : (padZeros msg).length % 64 = 56 := by
  fun_induction padZeros msg with
  | case1 msg h => exact h
  | case2 msg h ih => exact ih

/-- The padded message consists of whole blocks. -/
theorem length_pad (data : Bytes) : (pad data).length % 64 = 0 := by
  have h := length_padZeros (data ++ [0x80])
  rw [pad, List.length_append, List.length_map]
  simp only [List.length_cons, List.length_nil]
  omega

theorem length_sha256 (data : Bytes) : (sha256 data).length = 32 := rfl

/-- The variables as words of the standard. -/
def HashState.toState (x : HashState) : Sha256.State := ⟨x.a, x.b, x.c, x.d, x.e, x.f, x.g, x.h⟩

theorem pad_eq (data : Bytes) : pad data = data ++ BlockHash.padding data.length := by
  have hzeros (msg : Bytes) : padZeros msg = BlockHash.fillZeros msg := by
    fun_induction padZeros msg with
    | case1 msg h => rw [BlockHash.fillZeros, if_pos h]
    | case2 msg h ih => rw [ih, BlockHash.fillZeros.eq_def msg, if_neg h]
  rw [pad, hzeros, Words.octets_u64, BlockHash.beBytes_bitLen, BlockHash.fillZeros_append]

/-- The constants and the words are read together, by the number of the round. -/
theorem zip_schedule {msg : Bytes} {off : Nat} (h : off + 64 ≤ msg.length) :
    roundConstants.zip (schedule msg off) = (List.range 64).map fun i =>
      (Sha256.constants.getD i 0, (Sha256.schedule msg off).getD i 0) := by
  have hlength : (schedule msg off).length = 64 := by
    have hfilled : schedule msg off = _ := Sha256.filled_schedule h
    rw [hfilled, List.length_map, List.length_range]
  apply List.ext_getElem
  · rw [List.length_zip, hlength, List.length_map, List.length_range]
    rfl
  · intro i hi hi'
    rw [List.length_map, List.length_range] at hi'
    have hget (l : List UInt32) (hl : i < l.length) : l.getD i 0 = l[i] := by
      rw [List.getD_eq_getElem?_getD, List.getElem?_eq_getElem hl]
      rfl
    have hschedule : i < (Sha256.schedule msg off).length := hlength.symm ▸ hi'
    rw [List.getElem_zip, List.getElem_map, List.getElem_range, hget Sha256.constants hi',
      hget _ hschedule]
    rfl

theorem toState_compress {msg : Bytes} {off : Nat} (h : off + 64 ≤ msg.length) (x : HashState) :
    (compress msg x off).toState = Sha256.compressBlock Sha256.constants msg x.toState off := by
  have hloop : ((List.range 64).foldl (fun x i => round x (Sha256.constants.getD i 0)
      ((Sha256.schedule msg off).getD i 0)) x).toState =
        (List.range 64).foldl (Sha256.turn Sha256.constants (Sha256.schedule msg off)) x.toState :=
    (List.foldl_hom HashState.toState fun _ _ => rfl).symm
  rw [Sha256.compressBlock, ← hloop, compress, zip_schedule h, List.foldl_map]
  generalize (List.range 64).foldl _ x = y
  rfl

/-- `sha256` is SHA-256. -/
theorem sha256_eq (data : Bytes) : sha256 data = Sha256.sha256 data := by
  have hloop (offs : List Nat) (hoffs : ∀ off ∈ offs, off + 64 ≤ (pad data).length) (x : HashState) :
      (offs.foldl (compress (pad data)) x).toState =
        offs.foldl (Sha256.compressBlock Sha256.constants (pad data)) x.toState := by
    induction offs generalizing x with
    | nil => rfl
    | cons off offs ih =>
        rw [List.foldl_cons, List.foldl_cons, ih fun o ho => hoffs o (List.mem_cons_of_mem off ho),
          toState_compress (hoffs off List.mem_cons_self)]
  have hhash : (((List.range ((pad data).length / 64)).map (64 * ·)).foldl
      (compress (pad data)) .init).toState =
        BlockHash.hash Sha256.compress Sha256.initial data := by
    rw [hloop]
    · exact BlockHash.foldl_padded (pad_eq data) fun s off hoff => Sha256.compressBlock_eq s hoff
    · intro off hoff
      obtain ⟨j, hj, rfl⟩ := List.mem_map.mp hoff
      rw [List.mem_range] at hj
      omega
  rw [Sha256.sha256, ← hhash, sha256, Sha256.digest]
  exact List.flatMap_congr fun v _ => Words.octets_u32 v

/-- `hashNumber` -/
def hashNumber (num : Int64) : Bytes :=
  ((sha256 (utf8 (toString num.toInt))).take 5).flatMap fun b => utf8 (Hex.byte b)

example : hashNumber 42 = utf8 "73475cb40a" := by decide +kernel

end Sha256

section Calendar

/-- The date of a number of days since the epoch, as `gmtime_r` computes it. -/
def civil (days : Int) : Int × Nat × Nat :=
  let z := days + 719468
  let era := z / 146097
  let doe := (z % 146097).toNat
  let yoe := (doe - doe / 1460 + doe / 36524 - doe / 146096) / 365
  let doy := doe - (365 * yoe + yoe / 4 - yoe / 100)
  let mp := (5 * doy + 2) / 153
  let month := if mp < 10 then mp + 3 else mp - 9
  (yoe + era * 400 + (if month ≤ 2 then 1 else 0), month, doy - (153 * mp + 2) / 5 + 1)

/-- The last decimal digits of a number. -/
def digits (count n : Nat) : Bytes :=
  (List.range count).map fun i => UInt8.ofNat (48 + n / 10 ^ (count - 1 - i) % 10)

/-- `nowISO` -/
def nowISO (now : Int64) : Bytes :=
  let t := now.toInt.tdiv 1000
  let (year, month, day) := civil (t / 86400)
  let s := (t % 86400).toNat
  digits 4 year.toNat ++ utf8 "-" ++ digits 2 month ++ utf8 "-" ++ digits 2 day ++ utf8 "T" ++
    digits 2 (s / 3600) ++ utf8 ":" ++ digits 2 (s / 60 % 60) ++ utf8 ":" ++ digits 2 (s % 60) ++
    utf8 "Z"

theorem length_nowISO (now : Int64) : (nowISO now).length = 20 := by
  simp only [nowISO, List.length_append, digits, List.length_map, List.length_range]
  rfl

example : nowISO 951827696789 = utf8 "2000-02-29T12:34:56Z" := by decide

end Calendar

end HelloWebsocket.Cpp
