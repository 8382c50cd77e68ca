import HelloWebsocket.Wire.Transition
import HelloWebsocket.Cpp.Decode

/-!
# Memory safety of the C++ decoder

The members of `ByteReader` are called in any order, also after a call that threw. The
position never leaves the buffer, no call reads outside it, and the loops over entries
and results are not begun more often than the octets allow.

## Implementation notes

A read outside the buffer is a failure of its own, so that it does not happen is part of
what a call returns. The loop over the results stands in `decodeMessage` and is treated
as one more member.
-/

namespace HelloWebsocket.Cpp

open Parsing Protocol Transitions

section Members

/-- The members of `ByteReader`, and the result loop. -/
inductive Op
  | readU8
  | readU16
  | readU32
  | readI32
  | readI64
  | readString
  | readKV
  | readEchoResults

/-- The call of a member, whose value is dropped. -/
def memberCall (w : Nat) : Op → ReaderM Unit
  | .readU8 => readU8 w >>= fun _ => pure ()
  | .readU16 => readU16 w >>= fun _ => pure ()
  | .readU32 => readU32 w >>= fun _ => pure ()
  | .readI32 => readI32 w >>= fun _ => pure ()
  | .readI64 => readI64 w >>= fun _ => pure ()
  | .readString => readString w >>= fun _ => pure ()
  | .readKV => readKV w >>= fun _ => pure ()
  | .readEchoResults => readEchoResults w >>= fun _ => pure ()

/-- The reader after a call, which may have thrown. -/
def callStep (w : Nat) (r : ByteReader) (op : Op) : Option ByteReader :=
  some (stateOf (memberCall w op r))

/-- The entries that `readKV` begins to read. -/
def kvTurns (w : Nat) (r : ByteReader) : Nat :=
  match readU32 w r with
  | .ok count r' =>
      if count.toNat > subSize w r'.len r'.pos / 8 then 0 else turns (readEntry w) count.toNat r'
  | .error _ _ => 0

/-- The results that the result loop begins to read. -/
def resultTurns (w : Nat) (r : ByteReader) : Nat :=
  match readU32 w r with
  | .ok count r' =>
      if count.toNat > subSize w r'.len r'.pos / 13 then 0
      else turns (readEchoResult w) count.toNat r'
  | .error _ _ => 0

end Members

section Frames

variable {w : Nat} {data : Bytes}

/-- The reader is about this buffer. -/
def About (data : Bytes) (r : ByteReader) : Prop := r.data = data ∧ r.len = data.length

theorem keeps_ofBuffer {α : Type} {I : ByteReader → Prop} (read : ByteReader → Except Failure α) :
    Keeps I (ofBuffer read) := by
  refine keeps_bind keeps_get fun r => ?_
  cases read r with
  | ok a => exact keeps_pure a
  | error e => exact fun _ hs => hs

theorem keeps_check (n : Nat) : Keeps (About data) (check w n) :=
  keeps_bind keeps_get fun _ => keeps_throwIf

theorem keeps_advance (n : Nat) : Keeps (About data) (advance w n) := keeps_modify fun _ h => h

theorem keeps_readU8 : Keeps (About data) (readU8 w) := by
  refine keeps_bind (keeps_check 1) fun _ => keeps_bind (keeps_ofBuffer _) fun _ => ?_
  exact keeps_bind (keeps_advance 1) fun _ => keeps_pure _

theorem keeps_readU16 : Keeps (About data) (readU16 w) := by
  refine keeps_bind (keeps_check 2) fun _ => keeps_bind (keeps_ofBuffer _) fun _ => ?_
  refine keeps_bind (keeps_ofBuffer _) fun _ => ?_
  exact keeps_bind (keeps_advance 2) fun _ => keeps_pure _

theorem keeps_readU32 : Keeps (About data) (readU32 w) := by
  refine keeps_bind (keeps_check 4) fun _ => keeps_bind (keeps_ofBuffer _) fun _ => ?_
  refine keeps_bind (keeps_ofBuffer _) fun _ => keeps_bind (keeps_ofBuffer _) fun _ => ?_
  refine keeps_bind (keeps_ofBuffer _) fun _ => ?_
  exact keeps_bind (keeps_advance 4) fun _ => keeps_pure _

theorem keeps_readI64 : Keeps (About data) (readI64 w) :=
  keeps_bind keeps_readU32 fun _ => keeps_bind keeps_readU32 fun _ => keeps_pure _

theorem keeps_readString : Keeps (About data) (readString w) := by
  refine keeps_bind keeps_readU32 fun ln => keeps_bind keeps_get fun _ => ?_
  refine keeps_bind keeps_throwIf fun _ => keeps_bind (keeps_ofBuffer _) fun _ => ?_
  refine keeps_bind keeps_throwIf fun _ => keeps_bind (keeps_ofBuffer _) fun _ => ?_
  exact keeps_bind (keeps_advance _) fun _ => keeps_pure _

theorem keeps_remaining : Keeps (About data) (remaining w) :=
  keeps_bind keeps_get fun _ => keeps_pure _

theorem keeps_readKV : Keeps (About data) (readKV w) := by
  have hentry : Keeps (About data) (readEntry w) :=
    keeps_bind keeps_readString fun _ => keeps_bind keeps_readString fun _ => keeps_pure _
  refine keeps_bind keeps_readU32 fun count => keeps_bind keeps_remaining fun _ => ?_
  exact keeps_bind keeps_throwIf fun _ => keeps_forCount _ hentry _ _

theorem keeps_readEchoResults : Keeps (About data) (readEchoResults w) := by
  have hresult : Keeps (About data) (readEchoResult w) :=
    keeps_bind keeps_readI64 fun _ => keeps_bind keeps_readU8 fun _ =>
      keeps_bind keeps_readKV fun _ => keeps_pure _
  refine keeps_bind keeps_readU32 fun count => keeps_bind keeps_remaining fun _ => ?_
  exact keeps_bind keeps_throwIf fun _ => keeps_forCount _ hresult _ _

theorem keeps_memberCall (op : Op) : Keeps (About data) (memberCall w op) := by
  cases op with
  | readU8 => exact keeps_bind keeps_readU8 fun _ => keeps_pure _
  | readU16 => exact keeps_bind keeps_readU16 fun _ => keeps_pure _
  | readU32 => exact keeps_bind keeps_readU32 fun _ => keeps_pure _
  | readI32 =>
      exact keeps_bind (keeps_bind keeps_readU32 fun _ => keeps_pure _) fun _ => keeps_pure _
  | readI64 => exact keeps_bind keeps_readI64 fun _ => keeps_pure _
  | readString => exact keeps_bind keeps_readString fun _ => keeps_pure _
  | readKV => exact keeps_bind keeps_readKV fun _ => keeps_pure _
  | readEchoResults => exact keeps_bind keeps_readEchoResults fun _ => keeps_pure _

end Frames

section Safety

variable {w : Nat} {data : Bytes} {r : ByteReader}

/-- The reader is about this buffer and its position is inside. -/
def Inside (data : Bytes) (r : ByteReader) : Prop := About data r ∧ r.pos ≤ r.len

theorem Inside.stands (hr : Inside data r) (hw : data.length + 2 ^ 32 ≤ 2 ^ w) :
    (cursor w).stands r (r.data.drop r.pos) := by
  obtain ⟨⟨hdata, hlen⟩, hpos⟩ := hr
  exact ⟨⟨by rw [hlen, hdata], by rw [hlen]; exact hw⟩, hpos, rfl⟩

theorem refines_readU16 :
    Refines (cursor w) (fun _ _ => True) (readU16 w) (takeN 2) := by
  intro r input hr
  refine refinesAt_check hr (by omega) takeN_eq_none fun hlong => ?_
  obtain ⟨b0, b1, rest, rfl⟩ : ∃ b0 b1 rest, input = b0 :: b1 :: rest := by
    match input, hlong with
    | b0 :: b1 :: rest, _ => exact ⟨b0, b1, rest, rfl⟩
  refine refinesAt_step (peek_eq [] hr (by simp)) ?_
  refine refinesAt_step (peek_eq [b0] hr (by simp)) ?_
  refine refinesAt_step (a := ()) rfl ?_
  have hp : takeN 2 (b0 :: b1 :: rest) = some ([b0, b1], rest) := rfl
  exact (refinesAt_some hp).mpr ⟨_, _, rfl, trivial, stands_advance [b0, b1] hr (by simp)⟩

/-- A member that refines a parser ends inside the buffer, with a value or with an exception. -/
theorem inside_of_refines {α β : Type} {R : α → β → Prop} {m : ReaderM α} {p : Parser UInt8 β}
    (hm : Refines (cursor w) R m p) (hkeeps : Keeps (About data) m) (hr : Inside data r)
    (hw : data.length + 2 ^ 32 ≤ 2 ^ w) :
    Inside data (stateOf (m r)) ∧ ∀ s, m r ≠ .error .outOfBounds s := by
  have habout := hkeeps r hr.1
  have hread := hm r _ (hr.stands hw)
  cases hp : p (r.data.drop r.pos) with
  | none =>
      obtain ⟨e, s, he, ⟨what, rfl⟩, -, hpos⟩ := (refinesAt_none hp).mp hread
      rw [he] at habout ⊢
      exact ⟨⟨habout, hpos⟩, nofun⟩
  | some out =>
      obtain ⟨a, s, ha, -, -, hpos, -⟩ := (refinesAt_some hp).mp hread
      rw [ha] at habout ⊢
      exact ⟨⟨habout, hpos⟩, nofun⟩

/-- A call of any member. -/
theorem Inside.memberCall (hr : Inside data r) (hw : data.length + 2 ^ 32 ≤ 2 ^ w) (op : Op) :
    Inside data (stateOf (memberCall w op r)) ∧ ∀ s, memberCall w op r ≠ .error .outOfBounds s := by
  have hdrop {α β : Type} {R : α → β → Prop} {m : ReaderM α} {p : Parser UInt8 β}
      (hm : Refines (cursor w) R m p) :
      Refines (cursor w) (fun _ _ => True) (m >>= fun _ => pure ()) (p >>= fun _ => pure ()) :=
    refines_map hm fun _ _ _ => trivial
  refine inside_of_refines (R := fun _ _ => True) (p := match op with
    | .readU8 => parseU8 >>= fun _ => pure ()
    | .readU16 => takeN 2 >>= fun _ => pure ()
    | .readU32 => parseU32 >>= fun _ => pure ()
    | .readI32 => parseI32 >>= fun _ => pure ()
    | .readI64 => parseI64 >>= fun _ => pure ()
    | .readString => parseString >>= fun _ => pure ()
    | .readKV => parseKv >>= fun _ => pure ()
    | .readEchoResults => parseEchoResults >>= fun _ => pure ()) ?_ (keeps_memberCall op) hr hw
  cases op with
  | readU8 => exact hdrop refines_readU8
  | readU16 => exact hdrop refines_readU16
  | readU32 => exact hdrop refines_readU32
  | readI32 => exact hdrop refines_readI32
  | readI64 => exact hdrop refines_readI64
  | readString => exact hdrop refines_readString
  | readKV => exact hdrop refines_readKV
  | readEchoResults => exact hdrop refines_readEchoResults

/-- After any calls. -/
theorem inside_of_reaches (hw : data.length + 2 ^ 32 ≤ 2 ^ w)
    (h : Reaches (callStep w) ⟨data, data.length, 0⟩ r) : Inside data r := by
  refine h.invariant (fun s op s' hs hstep => ?_) ⟨⟨rfl, rfl⟩, Nat.zero_le _⟩
  cases hstep
  exact (hs.memberCall hw op).1

/-- The loops are not begun more often than the octets behind the count allow. -/
theorem kvTurns_le (hr : Inside data r) (hw : data.length + 2 ^ 32 ≤ 2 ^ w) :
    kvTurns w r ≤ (r.len - (r.pos + 4)) / 8 ∧ resultTurns w r ≤ (r.len - (r.pos + 4)) / 13 := by
  have hread := refines_readU32 r _ (hr.stands hw)
  cases hp : parseU32 (r.data.drop r.pos) with
  | none =>
      obtain ⟨e, s, he, -⟩ := (refinesAt_none hp).mp hread
      simp only [kvTurns, resultTurns, he]
      exact ⟨Nat.zero_le _, Nat.zero_le _⟩
  | some out =>
      obtain ⟨n, rest⟩ := out
      obtain ⟨count, s, hs, -, hstands⟩ := (refinesAt_some hp).mp hread
      have hleft : subSize w s.len s.pos = rest.length := by
        have heq := remaining_eq hstands
        exact (EStateM.Result.ok.inj heq).1
      have hrest : rest.length = r.len - (r.pos + 4) := by
        obtain ⟨bs, ⟨-, hbs⟩, happ⟩ := (exact_parseU32 _ _ _).mp hp
        have hlen := congrArg List.length happ
        rw [List.length_drop, List.length_append, hbs, length_u32, hr.1.1, ← hr.1.2] at hlen
        omega
      simp only [kvTurns, resultTurns, hs, hleft, hrest]
      constructor
      · split
        · exact Nat.zero_le _
        · next hguard => exact (turns_le _ _ _).trans (Nat.le_of_not_lt hguard)
      · split
        · exact Nat.zero_le _
        · next hguard => exact (turns_le _ _ _).trans (Nat.le_of_not_lt hguard)

theorem remaining_of_inside (hr : Inside data r) (hw : data.length + 2 ^ 32 ≤ 2 ^ w) :
    remaining w r = .ok (r.len - r.pos) r := by
  have hleft := remaining_eq (hr.stands hw)
  rwa [List.length_drop, hr.1.1, ← hr.1.2] at hleft

theorem decodeFrame_ne_outOfBounds (data : Bytes) : decodeFrame data ≠ .error .outOfBounds := by
  obtain ⟨type, flags, body, -, -, frame, hframe, -⟩ | ⟨-, e, herr, what, rfl⟩ := decodeFrame_eq data
  · rw [hframe]
    exact nofun
  · rw [herr]
    exact nofun

theorem decodeMessage_ne_outOfBounds (hw : 33 ≤ w) (data : Bytes) :
    decodeMessage w data ≠ .error .outOfBounds := by
  have hspec := decodeMessage_eq hw data
  cases hp : parseFrame data with
  | none =>
      rw [hp] at hspec
      obtain ⟨what, herr⟩ := hspec
      rw [herr]
      exact nofun
  | some p =>
      rw [hp] at hspec
      obtain ⟨m, hm, -⟩ := hspec
      rw [hm]
      exact nofun

/-- No function of the decoder reads outside the buffer it is given. Whatever members of the
reader are called one after the other, its position stays inside, the difference that says how
much is left does not wrap, and the loops are bounded by it. -/
theorem decoder_in_bounds (data : Bytes) (hlen : data.length ≤ 2 ^ 63) :
    decodeFrame data ≠ .error .outOfBounds ∧ decodeMessage 64 data ≠ .error .outOfBounds ∧
      (∀ n ≤ data.length, isValidUtf8 data n ≠ .error .outOfBounds) ∧
      ∀ r, Reaches (callStep 64) ⟨data, data.length, 0⟩ r →
        r.pos ≤ r.len ∧ r.len = data.length ∧ remaining 64 r = .ok (r.len - r.pos) r ∧
        (∀ op s, memberCall 64 op r ≠ .error .outOfBounds s) ∧
        kvTurns 64 r ≤ (r.len - (r.pos + 4)) / 8 ∧
        resultTurns 64 r ≤ (r.len - (r.pos + 4)) / 13 := by
  have hw : data.length + 2 ^ 32 ≤ 2 ^ 64 := by omega
  refine ⟨decodeFrame_ne_outOfBounds data, decodeMessage_ne_outOfBounds (by omega) data, ?_, ?_⟩
  · intro n hn
    rw [isValidUtf8_eq hn]
    exact nofun
  · intro r hreach
    have hr := inside_of_reaches hw hreach
    exact ⟨hr.2, hr.1.2, remaining_of_inside hr hw, fun op => (hr.memberCall hw op).2,
      kvTurns_le hr hw⟩

-- the declared length of the string is as large as it can be
theorem decoder_in_bounds_long :
    decodeMessage 64 [0x48, 0x01, 0x01, 0x00, 0, 0, 0, 4, 0xFF, 0xFF, 0xFF, 0xFF] ≠
      .error .outOfBounds :=
  (decoder_in_bounds [0x48, 0x01, 0x01, 0x00, 0, 0, 0, 4, 0xFF, 0xFF, 0xFF, 0xFF]
    (by decide)).2.1

end Safety

end HelloWebsocket.Cpp
