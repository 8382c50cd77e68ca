import HelloWebsocket.Wire.Words
import HelloWebsocket.Ws.Socket

/-!
# Hand-written frame readers

The reading of one frame in the shape both hand-written implementations give it: bit
masks on the header, the length in a 64-bit word, one refusal for everything that is
too large. Whatever the primitive that receives octets and the errors are, a reader
of this shape reads what `readFrame` reads.
-/

namespace HelloWebsocket.Ws

open BigEndian Parsing Streams Simulation Words

variable {ε α : Type}

/-- The errors for the violations a frame can show. -/
structure Faults (ε : Type) where
  rsv : ε
  direction : ε
  length : ε
  limits : ε

def lengthBy (recv : Nat → EStateM ε Socket Bytes) (F : Faults ε) (len : UInt64) :
    EStateM ε Socket UInt64 :=
  if len = 126 then do
    let ext ← recv 2
    pure ((ext.getD 0 0).toUInt64 <<< 8 ||| (ext.getD 1 0).toUInt64)
  else if len = 127 then do
    let ext ← recv 8
    throwIf (ext.getD 0 0 &&& 0x80 ≠ 0) F.length
    pure (ext.foldl (fun n b => n <<< 8 ||| b.toUInt64) 0)
  else pure len

def keyBy (recv : Nat → EStateM ε Socket Bytes) (noKey : Bytes) (masked : Bool) :
    EStateM ε Socket Bytes :=
  if masked then recv 4 else pure noKey

def payloadBy (recv : Nat → EStateM ε Socket Bytes) (len : UInt64) : EStateM ε Socket Bytes :=
  if 0 < len then recv len.toNat else pure []

/-- One frame, handed on as its FIN bit, opcode and payload. -/
def frameBy (recv : Nat → EStateM ε Socket Bytes) (F : Faults ε)
    (refuses : Bool → UInt8 → UInt64 → Prop) [∀ fin opcode len, Decidable (refuses fin opcode len)]
    (noKey : Bytes) (expectMasked : Bool) (make : Bool → UInt8 → Bytes → α) :
    EStateM ε Socket α := do
  let hdr ← recv 2
  let fin := decide (hdr.getD 0 0 &&& 0x80 ≠ 0)
  throwIf (hdr.getD 0 0 &&& 0x70 ≠ 0) F.rsv
  let opcode := hdr.getD 0 0 &&& 0x0F
  let masked := decide (hdr.getD 1 0 &&& 0x80 ≠ 0)
  throwIf (masked ≠ expectMasked) F.direction
  let len ← lengthBy recv F (hdr.getD 1 0 &&& 0x7F).toUInt64
  throwIf (refuses fin opcode len) F.limits
  let key ← keyBy recv noKey masked
  let payload ← payloadBy recv len
  pure (make fin opcode (if masked then mask key payload else payload))

section Heads

/-- The length of the payload in the second octet and after it, as the writers compute it. -/
def lengthOctets (maskBit : UInt8) (len : Nat) : Bytes :=
  if len < 126 then [maskBit ||| UInt8.ofNat len]
  else if len ≤ 65535 then
    [maskBit ||| 126, UInt8.ofNat ((len >>> 8) &&& 0xFF), UInt8.ofNat (len &&& 0xFF)]
  else (maskBit ||| 127) ::
    [7, 6, 5, 4, 3, 2, 1, 0].map fun i => UInt8.ofNat ((len >>> (i * 8)) &&& 0xFF)

/-- The first octet of a final frame, as the writers put it together. -/
theorem or_firstOctet (opcode : Fin 16) (payload : Bytes) :
    0x80 ||| UInt8.ofNat opcode.val = firstOctet ⟨true, opcode, payload⟩ := by
  have hop := opcode.isLt
  apply UInt8.toNat_inj.mp
  rw [toNat_firstOctet, UInt8.toNat_or, UInt8.toNat_ofNat_of_lt' (by change _ < 256; omega),
    if_pos rfl]
  exact or_eq_add 7 (by decide) (by omega)

/-- The second octet of a frame, as the writers put it together. -/
theorem or_secondOctet (masked : Bool) {n : Nat} (h : n < 128) :
    (if masked then 0x80 else 0x00) ||| UInt8.ofNat n = secondOctet masked n := by
  apply UInt8.toNat_inj.mp
  rw [toNat_secondOctet masked h, UInt8.toNat_or,
    UInt8.toNat_ofNat_of_lt' (by change n < 256; omega)]
  cases masked with
  | false => exact (Nat.zero_or n).trans (Nat.zero_add n).symm
  | true => exact or_eq_add 7 (by decide) h

/-- The form the writers choose for a length. -/
def LengthForm.of (len : Nat) : LengthForm :=
  if len < 126 then .short else if len ≤ 65535 then .medium else .long

theorem LengthForm.of_fits {len : Nat} (h : len < 2 ^ 63) : (LengthForm.of len).Fits len := by
  rw [LengthForm.of]
  split
  · change len ≤ 125
    omega
  split
  · change len < 2 ^ 16
    omega
  · exact h

theorem ofNat_shift_mask (n i : Nat) :
    UInt8.ofNat ((n >>> (i * 8)) &&& 0xFF) = UInt8.ofNat (n / 256 ^ i) := by
  apply UInt8.toNat_inj.mp
  rw [UInt8.toNat_ofNat', UInt8.toNat_ofNat', show 0xFF = 2 ^ 8 - 1 from rfl,
    Nat.and_two_pow_sub_one_eq_mod, Nat.mod_mod, Nat.shiftRight_eq_div_pow, Nat.mul_comm, pow_mul]
  rfl

theorem lengthOctets_eq (masked : Bool) (len : Nat) :
    lengthOctets (if masked then 0x80 else 0x00) len =
      secondOctet masked ((LengthForm.of len).field len) :: (LengthForm.of len).extension len := by
  rw [lengthOctets, LengthForm.of]
  split
  · rw [or_secondOctet masked (by omega)]
    rfl
  split
  · have h126 := or_secondOctet masked (n := 126) (by omega)
    have hhigh := ofNat_shift_mask len 1
    have hlow := ofNat_shift_mask len 0
    rw [Nat.one_mul] at hhigh
    rw [Nat.zero_mul, Nat.shiftRight_zero] at hlow
    rw [hhigh, hlow]
    exact congrArg (· :: _) h126
  · have h127 := or_secondOctet masked (n := 127) (by omega)
    simp only [List.map_cons, List.map_nil, ofNat_shift_mask]
    exact congrArg (· :: _) h127

theorem opcode_eq_iff (f : Frame) (k : Fin 16) :
    UInt8.ofNat f.opcode.val = UInt8.ofNat k.val ↔ f.opcode = k := by
  have hf := f.opcode.isLt
  have hk := k.isLt
  constructor
  · intro h
    have htoNat := congrArg UInt8.toNat h
    rw [UInt8.toNat_ofNat_of_lt' (by change _ < 256; omega),
      UInt8.toNat_ofNat_of_lt' (by change _ < 256; omega)] at htoNat
    exact Fin.ext htoNat
  · intro h
    rw [h]

end Heads

section Consumption

variable {recv : Nat → EStateM ε Socket Bytes} {F : Faults ε}

theorem consumes_lengthBy (hrecv : ∀ n, Consumes n (recv n)) (len : UInt64) :
    Consumes 0 (lengthBy recv F len) := by
  apply consumes_ite
  · apply consumes_bind (hrecv 2).zero
    intro ext
    exact consumes_pure _
  apply consumes_ite
  · apply consumes_bind (hrecv 8).zero
    intro ext
    exact consumes_throwIf (consumes_pure _)
  · exact consumes_pure _

theorem consumes_keyBy (hrecv : ∀ n, Consumes n (recv n)) (noKey : Bytes) (masked : Bool) :
    Consumes 0 (keyBy recv noKey masked) :=
  consumes_ite (hrecv 4).zero (consumes_pure _)

theorem consumes_payloadBy (hrecv : ∀ n, Consumes n (recv n)) (len : UInt64) :
    Consumes 0 (payloadBy recv len) :=
  consumes_ite (hrecv _).zero (consumes_pure _)

/-- A frame takes at least the two octets of its header. -/
theorem consumes_frameBy {refuses : Bool → UInt8 → UInt64 → Prop}
    [∀ fin opcode len, Decidable (refuses fin opcode len)] {noKey : Bytes} {expectMasked : Bool}
    {make : Bool → UInt8 → Bytes → α} (hrecv : ∀ n, Consumes n (recv n)) :
    Consumes 2 (frameBy recv F refuses noKey expectMasked make) := by
  rw [frameBy]
  apply consumes_bind (hrecv 2)
  intro hdr
  apply consumes_throwIf
  apply consumes_throwIf
  apply consumes_bind (consumes_lengthBy hrecv _)
  intro len
  apply consumes_throwIf
  apply consumes_bind (consumes_keyBy hrecv _ _)
  intro key
  apply consumes_bind (consumes_payloadBy hrecv _)
  intro payload
  exact consumes_pure _

end Consumption

section Simulation

variable {V : View ε Stop Socket Link} {recv : Nat → EStateM ε Socket Bytes} {F : Faults ε}

theorem top_bit_iff {ext : Bytes} (h : ext.length = 8) :
    ext.getD 0 0 &&& 0x80 ≠ 0 ↔ 2 ^ 63 ≤ beNat ext := by
  rw [and_top_ne_zero_iff]
  match ext, h with
  | b :: rest, h =>
      have hrest := beNat_lt rest
      have hlen : rest.length = 7 := Nat.succ.inj h
      rw [hlen] at hrest
      rw [beNat_cons, hlen]
      change 128 ≤ b.toNat ↔ _
      omega

theorem toNat_two_octets {ext : Bytes} (h : ext.length = 2) :
    ((ext.getD 0 0).toUInt64 <<< 8 ||| (ext.getD 1 0).toUInt64).toNat = beNat ext := by
  obtain ⟨b0, b1, rfl⟩ := List.length_eq_two.mp h
  have h0 := b0.toNat_lt
  have h1 := b1.toNat_lt
  change (b0.toUInt64 <<< 8 ||| b1.toUInt64).toNat = _
  rw [toNat_shift_or_u64, UInt8.toNat_toUInt64]
  simp only [beNat_cons, beNat_nil, List.length_cons, List.length_nil]
  omega

theorem onStream_take_length {n : Nat} (l : Link) (b : Bytes) (l' : Link)
    (h : onStream (take n) l = .ok b l') : b.length = n :=
  (takeOr_eq_ok_iff.mp (onStream_eq_ok h).1).1

/-- The length in a word is the length. -/
theorem lengthBy_simulates (hrecv : ∀ n, Simulates V Eq (recv n) (onStream (take n)))
    (hlength : V.throws F.length (.fault .violation)) {len : UInt64} {field : Nat}
    (hlen : len.toNat = field) :
    Simulates V (fun a n => a.toNat = n) (lengthBy recv F len) (onStream (readLength field)) := by
  have h126 : len = 126 ↔ field = 126 := by
    rw [← UInt64.toNat_inj, hlen]
    rfl
  have h127 : len = 127 ↔ field = 127 := by
    rw [← UInt64.toNat_inj, hlen]
    rfl
  rw [lengthBy, readLength, apply_ite onStream, apply_ite onStream]
  refine simulates_ite h126 (fun _ => ?_) fun _ => simulates_ite h127 (fun _ => ?_) fun _ => ?_
  · rw [onStream_bind]
    refine simulates_bind ((hrecv 2).and_post onStream_take_length) ?_
    rintro ext _ ⟨rfl, hext⟩
    exact simulates_pure (toNat_two_octets hext)
  · rw [onStream_bind]
    refine simulates_bind ((hrecv 8).and_post onStream_take_length) ?_
    rintro ext _ ⟨rfl, hext⟩
    rw [onStream_bind, onStream_throwIf]
    refine simulates_throwIf (top_bit_iff hext) hlength fun _ => ?_
    exact simulates_pure (toNat_foldl_shift_or_u64 ext (le_of_eq hext))
  · exact simulates_pure hlen

/-- With the key read or without one, the payload is unmasked alike. -/
theorem keyBy_simulates (hrecv : ∀ n, Simulates V Eq (recv n) (onStream (take n))) (noKey : Bytes)
    (masked : Bool) :
    Simulates V (fun key key' => ∀ p, (if masked then mask key p else p) = mask key' p)
      (keyBy recv noKey masked) (onStream (readKey masked)) := by
  cases masked with
  | true =>
      refine (hrecv 4).mono ?_
      rintro key _ rfl p
      rfl
  | false => exact simulates_pure fun p => (mask_zero p).symm

theorem payloadBy_simulates (hrecv : ∀ n, Simulates V Eq (recv n) (onStream (take n)))
    (len : UInt64) : Simulates V Eq (payloadBy recv len) (onStream (take len.toNat)) := by
  rw [payloadBy]
  split
  · exact hrecv _
  · next hzero =>
      have hlen : len.toNat = 0 := by
        rw [UInt64.lt_iff_toNat_lt] at hzero
        exact Nat.eq_zero_of_not_pos hzero
      rw [hlen]
      intro s l hshows
      have htake : take 0 l.stream = .ok [] l.stream := takeOr_append Fault.endOfStream [] l.stream
      rw [onStream_of_ok htake]
      exact ⟨rfl, hshows⟩

/-- The size check in machine arithmetic. -/
theorem oversized_iff {held : Nat} (hheld : held ≤ limit) {opcode : UInt8} (hop : opcode.toNat < 16)
    (fin : Bool) (len : UInt64) :
    ((0x08 ≤ opcode ∧ (fin = false ∨ 125 < len)) ∨ 1024 * 1024 < len ∨
      1024 * 1024 < UInt64.ofNat held + len) ↔
      ¬ Admissible held fin (Fin.ofNat 16 opcode.toNat) len.toNat := by
  have hlimit : limit = 1048576 := rfl
  have hcontrol : (0x08 ≤ opcode) ↔ 8 ≤ Fin.ofNat 16 opcode.toNat := by
    rw [UInt8.le_iff_toNat_le, Fin.le_def, Fin.val_ofNat, Nat.mod_eq_of_lt hop]
    rfl
  have hlong : 125 < len ↔ 125 < len.toNat := UInt64.lt_iff_toNat_lt
  have hmax : 1024 * 1024 < len ↔ 1048576 < len.toNat := UInt64.lt_iff_toNat_lt
  have hsum : 1024 * 1024 < UInt64.ofNat held + len ↔ 1048576 < (held + len.toNat) % 2 ^ 64 := by
    rw [UInt64.lt_iff_toNat_lt, UInt64.toNat_add, UInt64.toNat_ofNat_of_lt' (by change _ < 2 ^ 64; omega)]
    rfl
  have hlt := len.toNat_lt
  rw [hcontrol, hlong, hmax, hsum, Admissible, hlimit]
  generalize (8 ≤ Fin.ofNat 16 opcode.toNat) = control
  by_cases hc : control
  · cases fin <;> simp [hc]
    omega
  · simp [hc]
    omega

/-- A reader of the common shape reads the frames that `readFrame` reads. -/
theorem frameBy_simulates {refuses : Bool → UInt8 → UInt64 → Prop}
    [∀ fin opcode len, Decidable (refuses fin opcode len)] {noKey : Bytes} {expectMasked : Bool}
    {make : Bool → UInt8 → Bytes → α} {held : Nat}
    (hrecv : ∀ n, Simulates V Eq (recv n) (onStream (take n)))
    (hfaults : ∀ e, e = F.rsv ∨ e = F.direction ∨ e = F.length ∨ e = F.limits →
      V.throws e (.fault .violation))
    (hrefuses : ∀ fin opcode len, opcode.toNat < 16 → (refuses fin opcode len ↔
      ¬ Admissible held fin (Fin.ofNat 16 opcode.toNat) len.toNat)) :
    Simulates V (fun a f => a = make f.fin (UInt8.ofNat f.opcode.val) f.payload)
      (frameBy recv F refuses noKey expectMasked make) (onStream (readFrame expectMasked held)) := by
  rw [frameBy, readFrame, onStream_bind]
  refine simulates_bind (hrecv 2) ?_
  rintro hdr _ rfl
  simp only [readBody, onStream_bind, onStream_throwIf]
  refine simulates_throwIf (and_middle_ne_zero_iff _) (hfaults _ (.inl rfl)) fun _ => ?_
  refine simulates_throwIf ?_ (hfaults _ (.inr (.inl rfl))) fun hdirection => ?_
  · rw [decide_eq_decide.mpr (and_top_ne_zero_iff _)]
  have hnibble := toNat_and_nibble (hdr.getD 0 0)
  have hlt : (hdr.getD 0 0 &&& 0x0F).toNat < 16 := by
    rw [hnibble]
    exact Nat.mod_lt _ (by omega)
  have hopcode : Fin.ofNat 16 (hdr.getD 0 0).toNat = Fin.ofNat 16 (hdr.getD 0 0 &&& 0x0F).toNat := by
    apply Fin.ext
    rw [hnibble]
    exact (Nat.mod_mod _ _).symm
  rw [decide_eq_decide.mpr (and_top_ne_zero_iff _), hopcode, not_not.mp hdirection]
  refine simulates_bind (lengthBy_simulates hrecv (hfaults _ (.inr (.inr (.inl rfl)))) ?_) ?_
  · rw [UInt8.toNat_toUInt64]
    exact toNat_and_seven _
  rintro len _ rfl
  refine simulates_throwIf (hrefuses _ _ _ hlt) (hfaults _ (.inr (.inr (.inr rfl)))) fun _ => ?_
  refine simulates_bind (keyBy_simulates hrecv noKey expectMasked) fun key key' hkey => ?_
  refine simulates_bind (payloadBy_simulates hrecv len) ?_
  rintro payload _ rfl
  apply simulates_pure
  have hback : UInt8.ofNat (Fin.ofNat 16 (hdr.getD 0 0 &&& 0x0F).toNat).val =
      hdr.getD 0 0 &&& 0x0F := by
    rw [Fin.val_ofNat, Nat.mod_eq_of_lt hlt]
    exact UInt8.ofNat_toNat
  rw [hback, hkey payload]

end Simulation

end HelloWebsocket.Ws
