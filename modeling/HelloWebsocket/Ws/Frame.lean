import HelloWebsocket.Wire.BigEndian
import HelloWebsocket.Wire.Stream

/-!
# WebSocket frames

Frames as octet strings, in every length form and with or without a masking key,
and a reader of one frame from a stream. The reader refuses what the protocol of
this repository refuses: reserved bits, the wrong masking direction, control
frames that are fragmented or long, and data beyond the size of a message.

## Implementation notes

The reader takes the number of octets of the message that are already held. The
same bound counts for control frames, as in the implementations.
-/

namespace HelloWebsocket.Ws

open BigEndian Parsing Streams

/-- The largest message, 1 MiB. -/
def limit : Nat := 1024 * 1024

instance opcodes : NeZero 16 := ⟨by decide⟩

/-- A frame without its masking. -/
structure Frame where
  fin : Bool
  opcode : Fin 16
  payload : Bytes
  deriving DecidableEq

/-- A masking key. -/
structure Key where
  octets : Bytes
  size : octets.length = 4
  deriving DecidableEq

/-- The key that leaves a payload as it is. -/
def Key.zero : Key := ⟨[0, 0, 0, 0], rfl⟩

section Masking

/-- Each octet combined with the octet of the key at its position modulo four. -/
def mask (key payload : Bytes) : Bytes := payload.mapIdx fun i b => b ^^^ key.getD (i % 4) 0

@[simp] theorem length_mask (key payload : Bytes) : (mask key payload).length = payload.length :=
  List.length_mapIdx

theorem mask_mask (key payload : Bytes) : mask key (mask key payload) = payload := by
  apply List.ext_getElem?
  intro i
  rw [mask, mask, List.getElem?_mapIdx, List.getElem?_mapIdx]
  cases payload[i]? with
  | none => rfl
  | some b =>
      rw [Option.map_some, Option.map_some, UInt8.xor_assoc, UInt8.xor_self, UInt8.xor_zero]

theorem mask_zero (payload : Bytes) : mask [0, 0, 0, 0] payload = payload := by
  have hzero : ∀ i, ([0, 0, 0, 0] : Bytes).getD (i % 4) 0 = 0 := by
    intro i
    have hlt : i % 4 < 4 := Nat.mod_lt i (by omega)
    interval_cases i % 4 <;> rfl
  apply List.ext_getElem?
  intro i
  rw [mask, List.getElem?_mapIdx, hzero]
  cases payload[i]? with
  | none => rfl
  | some b => simp

end Masking

section Encoding

/-- How a payload length is written. -/
inductive LengthForm
  | short | medium | long
  deriving DecidableEq

namespace LengthForm

/-- The lengths a form can hold. -/
def Fits (n : Nat) : LengthForm → Prop
  | short => n ≤ 125
  | medium => n < 2 ^ 16
  | long => n < 2 ^ 63

instance (n : Nat) (form : LengthForm) : Decidable (form.Fits n) :=
  match form with
  | short => inferInstanceAs (Decidable (_ ≤ _))
  | medium => inferInstanceAs (Decidable (_ < _))
  | long => inferInstanceAs (Decidable (_ < _))

/-- The seven-bit field of the second octet. -/
def field (n : Nat) : LengthForm → Nat
  | short => n
  | medium => 126
  | long => 127

/-- The octets after the second one. -/
def extension (n : Nat) : LengthForm → Bytes
  | short => []
  | medium => beBytes 2 n
  | long => beBytes 8 n

theorem field_lt {n : Nat} {form : LengthForm} (h : form.Fits n) : form.field n < 128 := by
  cases form <;> simp only [Fits, field] at * <;> omega

end LengthForm

/-- The FIN bit and the opcode. -/
def firstOctet (f : Frame) : UInt8 := UInt8.ofNat ((if f.fin then 128 else 0) + f.opcode.val)

/-- The MASK bit and the length field. -/
def secondOctet (masked : Bool) (field : Nat) : UInt8 :=
  UInt8.ofNat ((if masked then 128 else 0) + field)

/-- The key, when there is one, and the payload as it stands on the wire. -/
def body (key : Option Key) (payload : Bytes) : Bytes :=
  match key with
  | some key => key.octets ++ mask key.octets payload
  | none => payload

def frameOctets (form : LengthForm) (key : Option Key) (f : Frame) : Bytes :=
  firstOctet f :: secondOctet key.isSome (form.field f.payload.length) ::
    (form.extension f.payload.length ++ body key f.payload)

/-- The octets are the frame, in some length form and with some key if it is to be masked. -/
def Encodes (masked : Bool) (f : Frame) (b : Bytes) : Prop :=
  ∃ (form : LengthForm) (key : Option Key), form.Fits f.payload.length ∧ key.isSome = masked ∧
    b = frameOctets form key f

end Encoding

section Reading

/-- Why no frame could be read. -/
inductive Fault
  | endOfStream | violation
  deriving DecidableEq, Repr

abbrev StreamM := EStateM Fault Bytes

/-- The next `n` octets. -/
def take (n : Nat) : StreamM Bytes := takeOr .endOfStream n

/-- The payload length that the field of the second octet announces. -/
def readLength (field : Nat) : StreamM Nat :=
  if field = 126 then do
    let ext ← take 2
    pure (beNat ext)
  else if field = 127 then do
    let ext ← take 8
    throwIf (2 ^ 63 ≤ beNat ext) .violation
    pure (beNat ext)
  else pure field

/-- The key of a masked frame, and the key that changes nothing for any other. -/
def readKey (masked : Bool) : StreamM Bytes := if masked then take 4 else pure [0, 0, 0, 0]

/-- What a frame has to satisfy after `held` octets of a message. -/
def Admissible (held : Nat) (fin : Bool) (opcode : Fin 16) (len : Nat) : Prop :=
  (8 ≤ opcode → fin = true ∧ len ≤ 125) ∧ held + len ≤ limit

instance (held : Nat) (fin : Bool) (opcode : Fin 16) (len : Nat) :
    Decidable (Admissible held fin opcode len) :=
  inferInstanceAs (Decidable (_ ∧ _))

/-- The part of a frame after its first two octets. -/
def readBody (masked : Bool) (held : Nat) (fin : Bool) (opcode : Fin 16) (field : Nat) :
    StreamM Frame := do
  let len ← readLength field
  throwIf (¬ Admissible held fin opcode len) .violation
  let key ← readKey masked
  let payload ← take len
  pure ⟨fin, opcode, mask key payload⟩

/-- One frame of a message of which `held` octets have been read. -/
def readFrame (masked : Bool) (held : Nat) : StreamM Frame := do
  let hdr ← take 2
  let h0 := (hdr.getD 0 0).toNat
  let h1 := (hdr.getD 1 0).toNat
  throwIf (h0 / 16 % 8 ≠ 0) .violation
  throwIf (decide (128 ≤ h1) ≠ masked) .violation
  readBody masked held (decide (128 ≤ h0)) (Fin.ofNat 16 h0) (h1 % 128)

/-- The frame reader on a stream of at least two octets. -/
theorem readFrame_cons (masked : Bool) (held : Nat) (b0 b1 : UInt8) (rest : Bytes) :
    readFrame masked held (b0 :: b1 :: rest) =
      if b0.toNat / 16 % 8 ≠ 0 ∨ decide (128 ≤ b1.toNat) ≠ masked then .error .violation rest
      else readBody masked held (decide (128 ≤ b0.toNat)) (Fin.ofNat 16 b0.toNat)
        (b1.toNat % 128) rest := by
  have htake : take 2 (b0 :: b1 :: rest) = .ok [b0, b1] rest :=
    takeOr_append Fault.endOfStream [b0, b1] rest
  refine (bind_of_ok htake).trans ?_
  change ((throwIf (b0.toNat / 16 % 8 ≠ 0) Fault.violation : StreamM Unit) >>= fun _ =>
    (throwIf (decide (128 ≤ b1.toNat) ≠ masked) Fault.violation : StreamM Unit) >>= fun _ =>
      readBody masked held (decide (128 ≤ b0.toNat)) (Fin.ofNat 16 b0.toNat)
        (b1.toNat % 128)) rest = _
  rw [throwIf_bind_apply, throwIf_bind_apply, ite_or]

theorem toNat_firstOctet (f : Frame) :
    (firstOctet f).toNat = (if f.fin then 128 else 0) + f.opcode.val := by
  have hop := f.opcode.isLt
  exact UInt8.toNat_ofNat_of_lt' (by split <;> (change _ < 256; omega))

theorem toNat_secondOctet (masked : Bool) {field : Nat} (h : field < 128) :
    (secondOctet masked field).toNat = (if masked then 128 else 0) + field :=
  UInt8.toNat_ofNat_of_lt' (by split <;> (change _ < 256; omega))

/-- The length is read back from each form that can hold it. -/
theorem readLength_extension {form : LengthForm} {n : Nat} (h : form.Fits n) (rest : Bytes) :
    readLength (form.field n) (form.extension n ++ rest) = .ok n rest := by
  cases form with
  | short =>
      have hn : n ≤ 125 := h
      rw [readLength, if_neg (by change ¬ n = 126; omega), if_neg (by change ¬ n = 127; omega)]
      rfl
  | medium =>
      have hn : n < 2 ^ 16 := h
      have htake := takeOr_append Fault.endOfStream (beBytes 2 n) rest
      rw [length_beBytes] at htake
      change readLength 126 (beBytes 2 n ++ rest) = _
      rw [readLength, if_pos rfl]
      refine (bind_of_ok htake).trans ?_
      rw [beNat_beBytes, Nat.mod_eq_of_lt (by omega)]
      rfl
  | long =>
      have hn : n < 2 ^ 63 := h
      have hnat : beNat (beBytes 8 n) = n := by
        rw [beNat_beBytes]
        exact Nat.mod_eq_of_lt (by omega)
      have htake := takeOr_append Fault.endOfStream (beBytes 8 n) rest
      rw [length_beBytes] at htake
      change readLength 127 (beBytes 8 n ++ rest) = _
      rw [readLength, if_neg (by omega), if_pos rfl]
      refine (bind_of_ok htake).trans ?_
      rw [throwIf_bind_apply, hnat, if_neg (by omega)]
      rfl

/-- The key of the body, or the one that changes nothing. -/
def keyOctets : Option Key → Bytes
  | some key => key.octets
  | none => [0, 0, 0, 0]

/-- The octets of the key in the body. -/
def keyPart : Option Key → Bytes
  | some key => key.octets
  | none => []

theorem body_eq (key : Option Key) (payload : Bytes) :
    body key payload = keyPart key ++ mask (keyOctets key) payload := by
  cases key with
  | none => exact (mask_zero payload).symm
  | some key => rfl

theorem readKey_body (key : Option Key) (payload rest : Bytes) :
    ∃ wire, readKey key.isSome (body key payload ++ rest) = .ok (keyOctets key) (wire ++ rest) ∧
      wire.length = payload.length ∧ mask (keyOctets key) wire = payload := by
  cases key with
  | none => exact ⟨payload, rfl, rfl, mask_zero payload⟩
  | some key =>
      refine ⟨mask key.octets payload, ?_, length_mask _ _, mask_mask _ _⟩
      have htake := takeOr_append Fault.endOfStream key.octets (mask key.octets payload ++ rest)
      rwa [key.size, ← List.append_assoc] at htake

section RoundTrip

variable {form : LengthForm} {key : Option Key} {f : Frame}

theorem readBody_octets (hfits : form.Fits f.payload.length) (held : Nat) (rest : Bytes) :
    if Admissible held f.fin f.opcode f.payload.length then
      readBody key.isSome held f.fin f.opcode (form.field f.payload.length)
        (form.extension f.payload.length ++ body key f.payload ++ rest) = .ok f rest
    else ∃ left, readBody key.isSome held f.fin f.opcode (form.field f.payload.length)
      (form.extension f.payload.length ++ body key f.payload ++ rest) = .error .violation left := by
  have hlength := readLength_extension hfits (body key f.payload ++ rest)
  rw [← List.append_assoc] at hlength
  obtain ⟨wire, hkey, hwire, hmask⟩ := readKey_body key f.payload rest
  have htake := takeOr_append Fault.endOfStream wire rest
  rw [hwire] at htake
  have hread : readBody key.isSome held f.fin f.opcode (form.field f.payload.length)
      (form.extension f.payload.length ++ body key f.payload ++ rest) =
      if ¬ Admissible held f.fin f.opcode f.payload.length then
        .error .violation (body key f.payload ++ rest)
      else .ok f rest := by
    refine (bind_of_ok hlength).trans ?_
    rw [throwIf_bind_apply]
    refine if_congr Iff.rfl rfl ?_
    refine (bind_of_ok hkey).trans ((bind_of_ok htake).trans ?_)
    rw [hmask]
    rfl
  rw [hread]
  split
  · rfl
  · exact ⟨_, rfl⟩

theorem frameOctets_append (rest : Bytes) : frameOctets form key f ++ rest =
    firstOctet f :: secondOctet key.isSome (form.field f.payload.length) ::
      (form.extension f.payload.length ++ body key f.payload ++ rest) :=
  rfl

/-- Reading the octets of a frame: it is returned if it is admissible. -/
theorem readFrame_frameOctets (hfits : form.Fits f.payload.length) (held : Nat) (rest : Bytes) :
    if Admissible held f.fin f.opcode f.payload.length then
      readFrame key.isSome held (frameOctets form key f ++ rest) = .ok f rest
    else ∃ left, readFrame key.isSome held (frameOctets form key f ++ rest) =
      .error .violation left := by
  have hfield := form.field_lt hfits
  have hop := f.opcode.isLt
  have hfirst := toNat_firstOctet f
  have hsecond := toNat_secondOctet key.isSome hfield
  have hpass : ¬ ((firstOctet f).toNat / 16 % 8 ≠ 0 ∨
      decide (128 ≤ (secondOctet key.isSome (form.field f.payload.length)).toNat) ≠
        key.isSome) := by
    rw [hfirst, hsecond]
    cases f.fin <;> cases key.isSome <;> simp <;> omega
  have hfin : decide (128 ≤ (firstOctet f).toNat) = f.fin := by
    rw [hfirst]
    cases f.fin <;> simp
    omega
  have hopcode : Fin.ofNat 16 (firstOctet f).toNat = f.opcode := by
    apply Fin.ext
    rw [hfirst]
    change (_ + _) % 16 = _
    split <;> omega
  have hlen : (secondOctet key.isSome (form.field f.payload.length)).toNat % 128 =
      form.field f.payload.length := by
    rw [hsecond]
    split <;> omega
  rw [frameOctets_append, readFrame_cons, if_neg hpass, hfin, hopcode, hlen]
  exact readBody_octets hfits held rest

theorem readFrame_of_encodes {masked : Bool} {b : Bytes} (h : Encodes masked f b) (held : Nat)
    (rest : Bytes) :
    if Admissible held f.fin f.opcode f.payload.length then
      readFrame masked held (b ++ rest) = .ok f rest
    else ∃ left, readFrame masked held (b ++ rest) = .error .violation left := by
  obtain ⟨form, key, hfits, rfl, rfl⟩ := h
  exact readFrame_frameOctets hfits held rest

/-- The wrong masking direction is refused after the first two octets. -/
theorem readFrame_wrong_mask (key : Option Key) (hfits : form.Fits f.payload.length) (held : Nat)
    (rest : Bytes) :
    ∃ left, readFrame (!key.isSome) held (frameOctets form key f ++ rest) =
      .error .violation left := by
  have hsecond := toNat_secondOctet key.isSome (form.field_lt hfits)
  have hfield := form.field_lt hfits
  refine ⟨form.extension f.payload.length ++ body key f.payload ++ rest, ?_⟩
  rw [frameOctets_append, readFrame_cons, if_pos]
  right
  rw [hsecond]
  cases key.isSome <;> simp
  omega

theorem readLength_sound {field n : Nat} {input rest : Bytes} (hfield : field < 128)
    (h : readLength field input = .ok n rest) :
    ∃ form : LengthForm, form.Fits n ∧ form.field n = field ∧
      input = form.extension n ++ rest := by
  rw [readLength] at h
  split at h
  · next hmedium =>
      obtain ⟨ext, s, htake, hpure⟩ := bind_eq_ok_iff.mp h
      obtain ⟨hlen, rfl⟩ := takeOr_eq_ok_iff.mp htake
      cases hpure
      have hlt := beNat_lt ext
      have hext := beBytes_beNat ext
      rw [hlen] at hlt hext
      exact ⟨.medium, by change _ < 2 ^ 16; omega, hmedium.symm, congrArg (· ++ rest) hext.symm⟩
  split at h
  · next hlong =>
      obtain ⟨ext, s, htake, hcheck⟩ := bind_eq_ok_iff.mp h
      obtain ⟨hlen, rfl⟩ := takeOr_eq_ok_iff.mp htake
      obtain ⟨htop, hpure⟩ := throwIf_bind_eq_ok_iff.mp hcheck
      cases hpure
      have hext := beBytes_beNat ext
      rw [hlen] at hext
      exact ⟨.long, by change _ < 2 ^ 63; omega, hlong.symm, congrArg (· ++ rest) hext.symm⟩
  · cases h
    exact ⟨.short, by change _ ≤ 125; omega, rfl, rfl⟩

theorem readKey_sound {masked : Bool} {input octets rest : Bytes}
    (h : readKey masked input = .ok octets rest) :
    ∃ key : Option Key, key.isSome = masked ∧ keyOctets key = octets ∧
      input = keyPart key ++ rest := by
  cases masked with
  | false =>
      cases h
      exact ⟨none, rfl, rfl, rfl⟩
  | true =>
      obtain ⟨hlen, rfl⟩ := takeOr_eq_ok_iff.mp h
      exact ⟨some ⟨octets, hlen⟩, rfl, rfl, rfl⟩

theorem eq_firstOctet {b : UInt8} (hrsv : b.toNat / 16 % 8 = 0) (payload : Bytes) :
    b = firstOctet ⟨decide (128 ≤ b.toNat), Fin.ofNat 16 b.toNat, payload⟩ := by
  have hb := b.toNat_lt
  apply UInt8.toNat_inj.mp
  rw [toNat_firstOctet]
  change _ = (if decide (128 ≤ b.toNat) = true then 128 else 0) + b.toNat % 16
  simp only [decide_eq_true_eq]
  split <;> omega

theorem eq_secondOctet (b : UInt8) :
    b = secondOctet (decide (128 ≤ b.toNat)) (b.toNat % 128) := by
  have hb := b.toNat_lt
  apply UInt8.toNat_inj.mp
  rw [toNat_secondOctet _ (Nat.mod_lt _ (by omega))]
  simp only [decide_eq_true_eq]
  split <;> omega

/-- Whatever the reader returns stood at the front of the stream, and it is admissible. -/
theorem readFrame_sound {masked : Bool} {held : Nat} {input rest : Bytes}
    (h : readFrame masked held input = .ok f rest) :
    Admissible held f.fin f.opcode f.payload.length ∧
      ∃ b, Encodes masked f b ∧ input = b ++ rest := by
  obtain ⟨hdr, tail, htake, -⟩ := bind_eq_ok_iff.mp h
  obtain ⟨hlen, rfl⟩ := takeOr_eq_ok_iff.mp htake
  obtain ⟨b0, b1, rfl⟩ := List.length_eq_two.mp hlen
  rw [show [b0, b1] ++ tail = b0 :: b1 :: tail from rfl, readFrame_cons] at h
  split at h
  · cases h
  next hpass =>
  obtain ⟨n, s₁, hlength, h₁⟩ := bind_eq_ok_iff.mp h
  obtain ⟨hok, h₂⟩ := throwIf_bind_eq_ok_iff.mp h₁
  obtain ⟨key, s₂, hkey, h₃⟩ := bind_eq_ok_iff.mp h₂
  obtain ⟨wire, s₃, hwire, h₄⟩ := bind_eq_ok_iff.mp h₃
  obtain ⟨hn, rfl⟩ := takeOr_eq_ok_iff.mp hwire
  cases h₄
  obtain ⟨hrsv, hmask⟩ := not_or.mp hpass
  obtain ⟨form, hfits, hfield, rfl⟩ := readLength_sound (Nat.mod_lt _ (by omega)) hlength
  obtain ⟨k, hk, rfl, rfl⟩ := readKey_sound hkey
  subst hn
  have hsize : (mask (keyOctets k) wire).length = wire.length := length_mask _ _
  refine ⟨by rw [hsize]; exact not_not.mp hok, _, ⟨form, k, by rw [hsize]; exact hfits, hk, rfl⟩, ?_⟩
  rw [frameOctets_append, ← eq_firstOctet (not_not.mp hrsv), hsize, hfield, body_eq, mask_mask, hk,
    ← not_not.mp hmask, ← eq_secondOctet]
  simp only [List.append_assoc, List.cons_append, List.nil_append]

end RoundTrip

end Reading

end HelloWebsocket.Ws
