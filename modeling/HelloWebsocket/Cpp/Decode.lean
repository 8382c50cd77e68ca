import HelloWebsocket.Wire.Words
import HelloWebsocket.Protocol.Grammar
import HelloWebsocket.Cpp.Codec

/-!
# What the C++ decoder accepts

Every member function of `ByteReader` refines the parser of its primitive, so
`decodeMessage` returns normally exactly on the frames of the grammar and says
what the grammar says. A rejection is always an exception with a text: no read
leaves the buffer.
-/

namespace HelloWebsocket.Cpp

open BigEndian Utf8 Parsing Words Protocol

section Cursor

variable {w : Nat}

/-- The reader stands inside its buffer, and positions have room for a 32-bit length. -/
def cursor (w : Nat) : Cursor Failure ByteReader UInt8 where
  stands r input := (r.len = r.data.length ∧ r.len + 2 ^ 32 ≤ 2 ^ w) ∧ r.pos ≤ r.len ∧
    r.data.drop r.pos = input
  failed e r := (∃ what, e = .runtimeError what) ∧ r.len = r.data.length ∧ r.pos ≤ r.len

theorem failed_of_stands {r : ByteReader} {input : Bytes} (hr : (cursor w).stands r input)
    (what : String) : (cursor w).failed (.runtimeError what) r :=
  ⟨⟨what, rfl⟩, hr.1.1, hr.2.1⟩

theorem length_of_stands {r : ByteReader} {input : Bytes} (hr : (cursor w).stands r input) :
    r.pos + input.length = r.len := by
  obtain ⟨⟨hlen, -⟩, hpos, rfl⟩ := hr
  rw [List.length_drop]
  omega

theorem addSize_of_stands {r : ByteReader} {input : Bytes} {n : Nat}
    (hr : (cursor w).stands r input) (hn : n < 2 ^ 32) : addSize w r.pos n = r.pos + n := by
  obtain ⟨⟨-, hroom⟩, hpos, -⟩ := hr
  exact Nat.mod_eq_of_lt (by omega)

theorem ofBuffer_ok {α : Type} {read : ByteReader → Except Failure α} {r : ByteReader} {a : α}
    (h : read r = .ok a) : ofBuffer read r = .ok a r := by
  simp only [ofBuffer, bind, EStateM.bind, get, getThe, MonadStateOf.get, EStateM.get, h]
  rfl

/-- The bounds check fails exactly when too few octets are left. -/
theorem refinesAt_check {α β : Type} {R : α → β → Prop} {p : Parser UInt8 β} {r : ByteReader}
    {input : Bytes} {n : Nat} {f : Unit → ReaderM α} (hr : (cursor w).stands r input)
    (hn : n < 2 ^ 32) (hshort : input.length < n → p input = none)
    (hf : n ≤ input.length → RefinesAt (cursor w) R (f ()) p r input) :
    RefinesAt (cursor w) R (check w n >>= f) p r input := by
  have hlen := length_of_stands hr
  have hiff : addSize w r.pos n > r.len ↔ input.length < n := by
    rw [addSize_of_stands hr hn]
    omega
  rw [check, bind_assoc]
  refine refinesAt_step (a := r) rfl (refinesAt_throwIf (fun h => ?_) (fun h => ?_))
  · exact ⟨hshort (hiff.mp h), failed_of_stands hr _⟩
  · exact hf (not_lt.mp (mt hiff.mpr h))

theorem peek_eq {r : ByteReader} {ys : Bytes} {b : UInt8} (xs : Bytes)
    (hr : (cursor w).stands r (xs ++ b :: ys)) (hx : xs.length < 2 ^ 32) :
    peek w xs.length r = .ok b r := by
  refine ofBuffer_ok (byteAt_of_drop (t := ys) ?_)
  rw [addSize_of_stands hr hx, ← List.drop_drop, hr.2.2, List.drop_left]

/-- Moving over octets that are there keeps the reader inside its buffer. -/
theorem stands_advance {r : ByteReader} (xs : Bytes) {ys : Bytes} (hr : (cursor w).stands r (xs ++ ys))
    (hx : xs.length < 2 ^ 32) :
    (cursor w).stands { r with pos := addSize w r.pos xs.length } ys := by
  have hlen := length_of_stands hr
  rw [List.length_append] at hlen
  rw [addSize_of_stands hr hx]
  refine ⟨hr.1, ?_, ?_⟩
  · change r.pos + xs.length ≤ r.len
    omega
  · change r.data.drop (r.pos + xs.length) = ys
    rw [← List.drop_drop, hr.2.2, List.drop_left]

theorem remaining_eq {r : ByteReader} {input : Bytes} (hr : (cursor w).stands r input) :
    remaining w r = .ok input.length r := by
  have hlen := length_of_stands hr
  obtain ⟨⟨-, hroom⟩, hpos, -⟩ := hr
  have hsub : subSize w r.len r.pos = input.length := by
    rw [subSize, show r.len + 2 ^ w - r.pos = input.length + 2 ^ w by omega, Nat.add_mod_right]
    exact Nat.mod_eq_of_lt (by omega)
  change EStateM.Result.ok (subSize w r.len r.pos) r = _
  rw [hsub]

end Cursor

section Primitives

variable {w : Nat}

theorem refines_readU8 : Refines (cursor w) (fun v n => (v.toNat : Int) = n) (readU8 w) parseU8 := by
  intro r input hr
  refine refinesAt_check hr (by omega) (fun hshort => ?_) (fun hlong => ?_)
  · rw [parseU8, bind_apply, takeN_eq_none hshort, Option.bind_none]
  obtain ⟨b, rest, rfl⟩ := List.exists_cons_of_length_pos hlong
  refine refinesAt_step (peek_eq [] hr (by simp)) ?_
  refine refinesAt_step (a := ()) rfl ?_
  have hp : parseU8 (b :: rest) = some ((b.toNat : Int), rest) := by
    rw [parseU8, bind_apply, show takeN 1 (b :: rest) = some ([b], rest) from rfl]
    simp [beNat, pure_apply]
  exact (refinesAt_some hp).mpr ⟨b, _, rfl, rfl, stands_advance [b] hr (by simp)⟩

theorem refines_readU32 : Refines (cursor w) (fun v n => v.toNat = n) (readU32 w) parseU32 := by
  intro r input hr
  refine refinesAt_check hr (by omega) (fun hshort => ?_) (fun hlong => ?_)
  · rw [parseU32, bind_apply, takeN_eq_none hshort, Option.bind_none]
  obtain ⟨b0, _, rfl, h1⟩ := exists_cons_of_succ_le hlong
  obtain ⟨b1, _, rfl, h2⟩ := exists_cons_of_succ_le h1
  obtain ⟨b2, _, rfl, h3⟩ := exists_cons_of_succ_le h2
  obtain ⟨b3, rest, rfl, -⟩ := exists_cons_of_succ_le h3
  refine refinesAt_step (peek_eq [] hr (by simp)) ?_
  refine refinesAt_step (peek_eq [b0] hr (by simp)) ?_
  refine refinesAt_step (peek_eq [b0, b1] hr (by simp)) ?_
  refine refinesAt_step (peek_eq [b0, b1, b2] hr (by simp)) ?_
  refine refinesAt_step (a := ()) rfl ?_
  have hp : parseU32 (b0 :: b1 :: b2 :: b3 :: rest) = some (beNat [b0, b1, b2, b3], rest) := rfl
  exact (refinesAt_some hp).mpr ⟨_, _, rfl, toNat_or_octets_u32 b0 b1 b2 b3,
    stands_advance [b0, b1, b2, b3] hr (by simp)⟩

theorem refines_readI32 : Refines (cursor w) (fun v n => v.toInt = n) (readI32 w) parseI32 := by
  rw [parseI32_eq]
  refine refines_map refines_readU32 fun v n hv => ?_
  rw [← hv, toInt_int32]
  rfl

theorem refines_readI64 : Refines (cursor w) (fun v n => v.toInt = n) (readI64 w) parseI64 := by
  rw [parseI64_eq]
  refine refines_bind refines_readU32 fun hi nh hhi => ?_
  refine refines_bind refines_readU32 fun lo nl hlo => refines_pure ?_
  rw [← hhi, ← hlo, toInt_or_halves]

theorem refines_readString : Refines (cursor w) Eq (readString w) parseString := by
  refine refines_bind refines_readU32 fun ln n hln r input hr => ?_
  subst hln
  have hlt := ln.toNat_lt
  have hlen := length_of_stands hr
  have hadd := addSize_of_stands hr hlt
  refine refinesAt_step (a := r) rfl ?_
  refine refinesAt_throwIf (fun hover => ⟨?_, failed_of_stands hr _⟩) (fun hfit => ?_)
  · exact satisfying_takeN_eq_none _ (by omega)
  obtain ⟨s, rest, hs, rfl⟩ := exists_append_of_le (n := ln.toNat) input (by omega)
  rw [← hs] at hlt ⊢
  have hvalid : isValidUtf8 (r.data.drop r.pos) s.length = .ok (decide (WellFormed s)) := by
    rw [hr.2.2, isValidUtf8_eq (by simp), List.take_left]
  refine refinesAt_step (ofBuffer_ok hvalid) ?_
  refine refinesAt_throwIf (fun hbad => ⟨?_, failed_of_stands hr _⟩) (fun hgood => ?_)
  · rw [satisfying_takeN_append, if_neg (by simpa using hbad)]
  have hrange : range r.data r.pos s.length = .ok s := by
    rw [range, hr.2.2, List.take_left, if_pos]
    rw [List.length_append] at hlen
    have := hr.1.1
    omega
  refine refinesAt_step (ofBuffer_ok hrange) ?_
  refine refinesAt_step (a := ()) rfl ?_
  have hp : satisfying (takeN s.length) WellFormed (s ++ rest) = some (s, rest) := by
    rw [satisfying_takeN_append, if_pos (by simpa using hgood)]
  exact (refinesAt_some hp).mpr ⟨s, _, rfl, rfl, stands_advance s hr hlt⟩

theorem refines_readEntry : Refines (cursor w) Eq (readEntry w) parseEntry := by
  refine refines_bind refines_readString fun k k' hk => ?_
  refine refines_bind refines_readString fun v v' hv => refines_pure ?_
  rw [hk, hv]

theorem refines_readKV : Refines (cursor w) (fun m es => m = toMap es) (readKV w) parseKv := by
  refine refines_bind refines_readU32 fun count n hn r input hr => ?_
  subst hn
  refine refinesAt_step (remaining_eq hr) ?_
  refine refinesAt_counted hr exact_parseEntry length_entry_ge
    (fun hc => ⟨by omega, failed_of_stands hr _⟩) (fun _ => rfl) refines_readEntry ?_
  intro as bs has
  rw [List.forall₂_eq_eq_eq] at has
  rw [has]
  rfl

theorem refines_readEchoResult :
    Refines (cursor w) (fun r b => r.view = b.mapKv toMap) (readEchoResult w)
      parseEchoResult := by
  refine refines_bind refines_readI64 fun i i' hi => ?_
  refine refines_bind refines_readU8 fun t t' ht => ?_
  refine refines_bind refines_readKV fun m es hm => refines_pure ?_
  rw [EchoResult.view, Protocol.EchoResult.mapKv, hi, ht, hm]

end Primitives

section Messages

variable {w : Nat}

theorem refines_readEchoResults :
    Refines (cursor w)
      (fun rs bs => some (rs.map EchoResult.view) = some (bs.map (·.mapKv toMap)))
      (readEchoResults w) parseEchoResults := by
  refine refines_bind refines_readU32 fun count n hn r input hr => ?_
  subst hn
  refine refinesAt_step (remaining_eq hr) ?_
  refine refinesAt_counted hr exact_parseEchoResult length_echoResult_ge
    (fun hc => ⟨by omega, failed_of_stands hr _⟩) (fun _ => rfl) refines_readEchoResult ?_
  intro as bs has
  rw [foldl_push, List.nil_append, Option.some.injEq]
  induction has with
  | nil => rfl
  | cons hab _ ih => rw [List.map_cons, List.map_cons, hab, ih]

theorem sound_fieldReaders :
    (fieldReaders w).Sound (cursor w) some (fun rs => some (rs.map EchoResult.view))
      (·.mapKv toMap) where
  readString := refines_readString.mono fun _ _ h => congrArg some h
  readI64 := refines_readI64
  readI32 := refines_readI32
  readEchoResults := refines_readEchoResults

/-- The header check on data of at least eight octets. -/
theorem decodeFrame_cons (b0 b1 b2 b3 b4 b5 b6 b7 : UInt8) (body : Bytes) :
    decodeFrame (b0 :: b1 :: b2 :: b3 :: b4 :: b5 :: b6 :: b7 :: body) =
      if b0 ≠ 0x48 then .error (.runtimeError "bad magic")
      else if b1 ≠ 0x01 then .error (.runtimeError "bad version")
      else if beNat [b4, b5, b6, b7] ≠ body.length then
        .error (.runtimeError "payload length mismatch")
      else .ok ⟨b2, body⟩ := by
  have hlen : (b0 :: b1 :: b2 :: b3 :: b4 :: b5 :: b6 :: b7 :: body).length = body.length + 8 := rfl
  have hword := toNat_or_octets_u32 b4 b5 b6 b7
  rw [decodeFrame, hlen, throwIf_bind_except, if_neg (by omega)]
  change (throwIf (m := Except Failure) (b0 ≠ 0x48) _ >>= fun _ =>
    throwIf (m := Except Failure) (b1 ≠ 0x01) _ >>= fun _ => _) = _
  rw [throwIf_bind_except]
  refine if_congr Iff.rfl rfl ?_
  rw [throwIf_bind_except]
  refine if_congr Iff.rfl rfl ?_
  change (throwIf (m := Except Failure) (UInt32.toNat _ ≠ body.length + 8 - 8) _ >>= fun _ =>
    range _ 8 (UInt32.toNat _) >>= fun payload => _) = _
  rw [throwIf_bind_except, hword, Nat.add_sub_cancel]
  by_cases hn : beNat [b4, b5, b6, b7] = body.length
  · rw [if_neg (not_not.mpr hn), if_neg (not_not.mpr hn), range, if_pos (by rw [hlen]; omega), hn]
    change (Except.ok _ : Except Failure Frame) = _
    simp
  · rw [if_pos hn, if_pos hn]

/-- The header check accepts exactly the envelopes, whatever their type and flags. -/
theorem decodeFrame_eq (data : Bytes) :
    (∃ type flags body, data = envelope type flags body ∧ body.length < 2 ^ 32 ∧
      ∃ frame, decodeFrame data = .ok frame ∧ frame = ⟨type, body⟩) ∨
    (parseFrame data = none ∧
      ∃ e, decodeFrame data = .error e ∧ ∃ what, e = .runtimeError what) := by
  refine header_cases data (fun hshort => ?_) ?_
  · exact ⟨_, by rw [decodeFrame, throwIf_bind_except, if_pos hshort], _, rfl⟩
  · rintro b0 b1 type flags b4 b5 b6 b7 body rfl
    rw [decodeFrame_cons]
    split_ifs <;> simp_all

/-- `decodeMessage` returns what the frame grammar says and throws on everything else. -/
theorem decodeMessage_eq (hw : 33 ≤ w) (data : Bytes) :
    match parseFrame data with
    | some p => ∃ m, decodeMessage w data = .ok m ∧ m.view = some (p.mapKv toMap)
    | none => ∃ what, decodeMessage w data = .error (.runtimeError what) := by
  obtain ⟨type, flags, body, rfl, hlen, _, hframe, rfl⟩ | ⟨hnone, _, herr, what, rfl⟩ :=
    decodeFrame_eq data
  · have hroom : 2 ^ 33 ≤ 2 ^ w := Nat.pow_le_pow_right (by omega) hw
    have hstands : (cursor w).stands ⟨body, body.length, 0⟩ body :=
      ⟨⟨rfl, by change body.length + 2 ^ 32 ≤ 2 ^ w; omega⟩, Nat.zero_le _, rfl⟩
    have hdecode : decodeMessage w (envelope type flags body) =
        decodeFields (fieldReaders w) ⟨body, body.length, 0⟩
          (.runtimeError "unknown message type") { Message.zero with type := type }
          (MsgType.ofCode? type) := by
      rw [decodeMessage, hframe]
      rfl
    have hfields := decodeFields_eq sound_fieldReaders hstands
      (.runtimeError "unknown message type") { Message.zero with type := type }
      (MsgType.ofCode? type)
    rw [← parseFrame_envelope type flags hlen] at hfields
    cases hp : parseFrame (envelope type flags body) with
    | none =>
        rw [hp] at hfields
        obtain ⟨e, he, hcause⟩ := hfields
        obtain rfl | ⟨s, ⟨what, rfl⟩, -⟩ := hcause
        · exact ⟨_, hdecode.trans he⟩
        · exact ⟨what, hdecode.trans he⟩
    | some p =>
        rw [hp] at hfields
        obtain ⟨m, hm, htype, hview⟩ := hfields
        refine ⟨m, hdecode.trans hm, ?_⟩
        rw [Message.view, htype]
        exact hview
  · rw [hnone]
    exact ⟨what, by rw [decodeMessage, herr]; rfl⟩

end Messages

end HelloWebsocket.Cpp
