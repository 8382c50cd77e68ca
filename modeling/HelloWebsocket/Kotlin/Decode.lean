import HelloWebsocket.Kotlin.Codec

/-!
# What the Kotlin decoder accepts

Every method of `ByteReader` refines the parser of its primitive, so
`decodeMessage` accepts exactly the frames of the grammar, and a rejection is
always an `IllegalStateException`. The type of an echo result comes out as the
signed reading of its octet.
-/

namespace HelloWebsocket.Kotlin

open BigEndian Utf8 Parsing Words Protocol Jvm

/-- The exceptions a caller of the decoder has to expect. -/
def Thrown (e : Throwable) : Prop := ∃ message, e = .illegalState message

/-- The result with its type octet read as a signed `Byte`. -/
def signedType {κ : Type} (r : Protocol.EchoResult κ) : Protocol.EchoResult κ :=
  { r with type := signed 8 (twos 8 r.type) }

section Primitives

theorem refines_readU32 :
    Refines (cursor Thrown) (fun v n => v.toBitVec.toNat = n) readU32 parseU32 := by
  refine refines_readFour ⟨_, rfl⟩ fun b0 b1 b2 b3 => ?_
  exact toNat_or_octets_u32 b0 b1 b2 b3

theorem refines_readI32 :
    Refines (cursor Thrown) (fun v n => v.toInt = n) readI32 parseI32 := by
  rw [parseI32_eq, ← bind_pure readI32]
  refine refines_map refines_readU32 fun v n hv => ?_
  rw [toInt_int32, hv]

theorem refines_readI64 :
    Refines (cursor Thrown) (fun v n => v.toInt = n) readI64 parseI64 := by
  rw [parseI64_eq]
  refine refines_bind refines_readU32 fun hi nh hhi => ?_
  refine refines_bind refines_readU32 fun lo nl hlo => refines_pure ?_
  have h := toInt_or_halves hi.toUInt32 lo.toUInt32
  rw [← toInt64_and_mask, ← toInt64_and_mask] at h
  rw [← hhi, ← hlo]
  exact h

theorem refines_readString :
    Refines (cursor Thrown) (fun s b => utf8 s = b) readString parseString := by
  refine refines_bind refines_readU32 fun len n hlen r input hr => ?_
  subst hlen
  have hpos := pos_of_stands hr
  have hroom := hr.1
  have hcases := toInt_cases len
  obtain ⟨left, hleft, hinput⟩ := remaining_eq hr
  have hguard : len < 0 ∨ len > left ↔ input.length < len.toBitVec.toNat := by
    rw [gt_iff_lt, Int32.lt_iff_toInt_lt, Int32.lt_iff_toInt_lt, hinput, Int32.toInt_zero]
    omega
  refine refinesAt_step hleft ?_
  refine refinesAt_throwIf (fun hover => ⟨?_, _, rfl⟩) (fun hfit => ?_)
  · exact satisfying_takeN_eq_none _ (hguard.mp hover)
  have hle : len.toBitVec.toNat ≤ input.length := not_lt.mp (mt hguard.mpr hfit)
  obtain ⟨s, rest, hs, rfl⟩ := exists_append_of_le (n := len.toBitVec.toNat) input hle
  rw [List.length_append] at hpos
  have hn : len.toInt = s.length := by omega
  refine refinesAt_step (a := r) rfl ?_
  rw [← hs]
  refine refinesAt_decodeNext hr ⟨_, rfl⟩ hn ?_
  rw [toInt_add_int32 (by omega) (by omega), hn]

theorem refines_readEntry : Refines (cursor Thrown)
    (fun e b => (utf8 e.1, utf8 e.2) = b) readEntry parseEntry := by
  refine refines_bind refines_readString fun k k' hk => ?_
  refine refines_bind refines_readString fun v v' hv => refines_pure ?_
  rw [hk, hv]

/-- The count guard rejects a negative count, which is a large one, and one that is too large
for the unread octets. -/
theorem lt_mul_of_count {count left : Int32} {n : Nat} (k : Int32) (hleft : left.toInt = n)
    (hn : n < 2 ^ 31) (hk : 0 < k.toInt) (h : count < 0 ∨ count > left / k) :
    n < count.toBitVec.toNat * k.toInt.toNat := by
  have hcases := toInt_cases count
  rw [gt_iff_lt, Int32.lt_iff_toInt_lt, Int32.lt_iff_toInt_lt, Int32.toInt_zero] at h
  rcases hcases with ⟨-, hbig⟩ | ⟨hcount, -⟩
  · have hone : 1 ≤ k.toInt.toNat := by omega
    calc n < 2 ^ 31 * 1 := by omega
      _ ≤ count.toBitVec.toNat * k.toInt.toNat := Nat.mul_le_mul hbig hone
  · exact lt_mul_of_guard k hleft hk (by omega)

theorem toNat_of_accepted {count bound : Int32} (h : ¬ (count < 0 ∨ count > bound)) :
    count.toInt.toNat = count.toBitVec.toNat := by
  have hcases := toInt_cases count
  rw [Int32.lt_iff_toInt_lt, Int32.toInt_zero] at h
  omega

theorem refines_readKV :
    Refines (cursor Thrown) (fun m es => m.toMap = toMap es) readKV parseKv := by
  refine refines_bind refines_readU32 fun count n hn r input hr => ?_
  subst hn
  have hpos := pos_of_stands hr
  have hroom := hr.1
  obtain ⟨left, hleft, hinput⟩ := remaining_eq hr
  refine refinesAt_step hleft ?_
  refine refinesAt_counted hr exact_parseEntry length_entry_ge (fun hc => ⟨?_, _, rfl⟩)
    toNat_of_accepted refines_readEntry ?_
  · exact lt_mul_of_count 8 hinput (by omega) (by decide) hc
  · intro as bs has
    exact toMap_foldl_put_empty has

theorem refines_readEchoResult :
    Refines (cursor Thrown)
      (fun r b => r.view LinkedHashMap.toMap = signedType (b.mapKv toMap)) readEchoResult
      parseEchoResult := by
  refine refines_bind refines_readI64 fun i i' hi => ?_
  refine refines_bind (refines_readOctet ⟨_, rfl⟩) fun t t' ht => ?_
  refine refines_bind refines_readKV fun m es hm => refines_pure ?_
  obtain ⟨b, rfl, rfl⟩ := ht
  rw [EchoResult.view, Protocol.EchoResult.mapKv, signedType, hi, hm, toInt_toInt8_octet]

theorem refines_readEchoResults :
    Refines (cursor Thrown) (fun rs bs => some (rs.map (EchoResult.view LinkedHashMap.toMap)) =
      some (bs.map fun b => signedType (b.mapKv toMap))) readEchoResults parseEchoResults := by
  refine refines_bind refines_readU32 fun count n hn r input hr => ?_
  subst hn
  have hpos := pos_of_stands hr
  have hroom := hr.1
  obtain ⟨left, hleft, hinput⟩ := remaining_eq hr
  refine refinesAt_step hleft ?_
  refine refinesAt_counted hr exact_parseEchoResult length_echoResult_ge (fun hc => ⟨?_, _, rfl⟩)
    toNat_of_accepted refines_readEchoResult ?_
  · exact lt_mul_of_count 13 hinput (by omega) (by decide) hc
  · intro as bs has
    rw [foldl_push, List.nil_append, Option.some.injEq]
    induction has with
    | nil => rfl
    | cons hab _ ih => rw [List.map_cons, List.map_cons, hab, ih]

theorem sound_fieldReaders :
    fieldReaders.Sound (cursor Thrown) text
      (fun rs => some (rs.map (EchoResult.view LinkedHashMap.toMap)))
      (fun r => signedType (r.mapKv toMap)) where
  readString := refines_readString.mono fun _ _ h => congrArg some h
  readI64 := refines_readI64
  readI32 := refines_readI32
  readEchoResults := refines_readEchoResults

end Primitives

section Messages

/-- The frame has the given type byte and payload. -/
def Frame.Shows (frame : Frame) (type : UInt8) (body : Bytes) : Prop :=
  frame.msgType = type.toInt8 ∧ frame.payload.octets = body

/-- The header check on data of at least eight octets. -/
theorem decodeFrame_cons {data : JArray} {b0 b1 type flags b4 b5 b6 b7 : UInt8} {body : Bytes}
    (hdata : data.octets = b0 :: b1 :: type :: flags :: b4 :: b5 :: b6 :: b7 :: body) :
    if b0 = 0x48 ∧ b1 = 0x01 ∧ beNat [b4, b5, b6, b7] = body.length then
      ∃ frame, decodeFrame data = .ok frame ∧ frame.Shows type body
    else ∃ e, decodeFrame data = .error e ∧ Thrown e := by
  have hsize : data.octets.length = body.length + 8 := by rw [hdata]; rfl
  have hlen := data.toInt_length
  have hfits := data.fits
  have height : (8 : Int32).toInt = 8 := rfl
  have hlong : ¬ data.length < 8 := by
    rw [Int32.lt_iff_toInt_lt, hlen]
    omega
  have havailable : (data.length - 8).toInt = body.length := by
    rw [toInt_sub_int32 (by omega) (by omega), hlen, hsize]
    omega
  have hword := toNat_or_octets_u32 b4 b5 b6 b7
  set word : UInt32 := (b4.toUInt32 <<< 24) ||| (b5.toUInt32 <<< 16) ||| (b6.toUInt32 <<< 8) |||
    b7.toUInt32 with hdef
  have hjoin : ((b4.toInt8.toInt32 &&& 0xFF) <<< 24) ||| ((b5.toInt8.toInt32 &&& 0xFF) <<< 16) |||
      ((b6.toInt8.toInt32 &&& 0xFF) <<< 8) ||| (b7.toInt8.toInt32 &&& 0xFF) = word.toInt32 := by
    simp only [and_mask_of_octet]
    rfl
  have hcases := toInt_cases word.toInt32
  have hbits : word.toInt32.toBitVec.toNat = beNat [b4, b5, b6, b7] := hword
  rw [hbits] at hcases
  simp only [decodeFrame, throwIf_bind_except, ok_bind, if_neg hlong,
    index_eq (i := 0) [] hdata rfl, index_eq (i := 1) [b0] hdata rfl,
    index_eq (i := 2) [b0, b1] hdata rfl, index_eq (i := 4) [b0, b1, type, flags] hdata rfl,
    index_eq (i := 5) [b0, b1, type, flags, b4] hdata rfl,
    index_eq (i := 6) [b0, b1, type, flags, b4, b5] hdata rfl,
    index_eq (i := 7) [b0, b1, type, flags, b4, b5, b6] hdata rfl, hjoin]
  refine checks_cases (not_congr (toInt8_eq_iff b0 0x48)) (not_congr (toInt8_eq_iff b1 0x01))
    ?_ ⟨⟨_, rfl⟩, ⟨_, rfl⟩, ⟨_, rfl⟩⟩ (fun hdeclared => ?_)
    (a := ⟨type.toInt8, ⟨body, by omega⟩⟩) ⟨rfl, rfl⟩
  · rw [Int32.lt_iff_toInt_lt, ne_eq, ← Int32.toInt_inj, havailable, Int32.toInt_zero]
    omega
  · have hn : word.toInt32.toInt = body.length := by omega
    have hend : (8 + word.toInt32).toInt = 8 + body.length := by
      rw [toInt_add_int32 (by omega) (by omega), hn, height]
    rw [copyOfRange_eq ⟨body, by omega⟩ [b0, b1, type, flags, b4, b5, b6, b7] hdata rfl]
    · rfl
    · rw [hend]
      simp

/-- The header check accepts exactly the envelopes, whatever their type and flags. -/
theorem decodeFrame_eq (data : JArray) :
    (∃ type flags body, data.octets = envelope type flags body ∧ body.length < 2 ^ 32 ∧
      ∃ frame, decodeFrame data = .ok frame ∧ frame.Shows type body) ∨
    (parseFrame data.octets = none ∧ ∃ e, decodeFrame data = .error e ∧ Thrown e) := by
  refine header_cases data.octets (fun hshort => ?_) ?_
  · have hlen : data.length < 8 := by
      rw [Int32.lt_iff_toInt_lt, data.toInt_length, show (8 : Int32).toInt = 8 from rfl]
      exact_mod_cast hshort
    exact ⟨_, by rw [decodeFrame, throwIf_bind_except, if_pos hlen], _, rfl⟩
  · intro b0 b1 type flags b4 b5 b6 b7 body hdata
    exact decodeFrame_cons hdata

/-- `decodeMessage` returns what the frame grammar says, up to the sign of result types, and
throws on everything else. -/
theorem decodeMessage_eq (data : JArray) :
    match parseFrame data.octets with
    | some p => ∃ m, decodeMessage data = .ok m ∧
        m.view LinkedHashMap.toMap = some ((p.mapKv toMap).mapResults signedType)
    | none => ∃ e, decodeMessage data = .error e ∧ Thrown e := by
  obtain ⟨type, flags, body, hdata, hlen, ⟨msgType, payload⟩, hframe, rfl, rfl⟩ |
    ⟨hnone, e, herr, hthrown⟩ := decodeFrame_eq data
  · have hroom : payload.octets.length + 8 < 2 ^ 31 := by
      have hfits := data.fits
      rwa [hdata, length_envelope, Nat.add_comm] at hfits
    have hstands : (cursor Thrown).stands ⟨payload, 0⟩ payload.octets := ⟨hroom, [], rfl, rfl⟩
    set unknown : Throwable :=
      .illegalState ("unknown message type: 0x" ++ Hex.signed type.toInt8.toInt)
    have hdecode : decodeMessage data = decodeFields fieldReaders ⟨payload, 0⟩ unknown
        (Message.new type.toInt8) (MsgType.ofCode? type) := by
      rw [decodeMessage, hframe]
      rfl
    have hfields := decodeFields_eq sound_fieldReaders hstands unknown
      (Message.new type.toInt8) (MsgType.ofCode? type)
    rw [hdata, parseFrame_envelope type flags hlen]
    cases hp : (MsgType.ofCode? type).bind fun t => (parsePayload t payload.octets).map Prod.fst with
    | none =>
        rw [hp] at hfields
        obtain ⟨e, he, rfl | ⟨s, hs⟩⟩ := hfields
        · exact ⟨unknown, hdecode.trans he, _, rfl⟩
        · exact ⟨e, hdecode.trans he, hs⟩
    | some p =>
        rw [hp] at hfields
        obtain ⟨m, hm, htype, hview⟩ := hfields
        refine ⟨m, hdecode.trans hm, ?_⟩
        rw [Message.view, htype, Protocol.Message.mapKv, Protocol.Message.mapResults_mapResults]
        exact hview
  · rw [hnone]
    exact ⟨e, by rw [decodeMessage, herr]; rfl, hthrown⟩

end Messages

end HelloWebsocket.Kotlin
