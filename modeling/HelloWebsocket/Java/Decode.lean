import HelloWebsocket.Java.Codec

/-!
# What the Java decoder accepts

Every method of `ByteReader` refines the parser of its primitive, so
`decodeMessage` accepts exactly the frames of the grammar. A rejection is always
a `DecodeException`.
-/

namespace HelloWebsocket.Java

open BigEndian Utf8 Parsing Words Protocol Jvm

/-- The exceptions a caller of the decoder has to expect. -/
def Thrown (e : Throwable) : Prop := ∃ message, e = .decodeException message

section Primitives

theorem refines_readU8 : Refines (cursor Thrown) (fun v n => v.toInt = n) readU8 parseU8 := by
  refine (refines_readOctet ⟨_, rfl⟩).mono ?_
  rintro _ _ ⟨b, rfl, rfl⟩
  exact toInt_octet b

theorem refines_readU32 :
    Refines (cursor Thrown) (fun (v : Int64) (n : Nat) => v.toInt = n ∧ n < 2 ^ 32) readU32
      parseU32 := by
  refine refines_readFour ⟨_, rfl⟩ fun b0 b1 b2 b3 => ?_
  have hlt : beNat [b0, b1, b2, b3] < 256 ^ 4 := beNat_lt _
  refine ⟨?_, by omega⟩
  simp only [toInt64_of_octet, toInt_or_octets_int64]

theorem refines_readI32 :
    Refines (cursor Thrown) (fun v n => v.toInt = n) readI32 parseI32 := by
  rw [parseI32_eq]
  refine refines_map refines_readU32 fun v n hv => ?_
  rw [Int64.toInt_toInt32, hv.1]
  rfl

/-- The loop of `readI64` over the next octets. -/
theorem foldlM_shiftIn {r : ByteReader} (xs : Bytes) (front : Bytes) {rest : Bytes} (v : Int64)
    (hr : (cursor Thrown).stands r (front ++ (xs ++ rest))) (hlen : (front ++ xs).length ≤ 8) :
    (List.range' front.length xs.length).foldlM shiftIn v r =
      .ok (xs.foldl (fun (v : Int64) b => (v <<< 8) ||| b.toUInt64.toInt64) v) r := by
  induction xs generalizing front v with
  | nil => rfl
  | cons b xs ih =>
      rw [List.length_append, List.length_cons] at hlen
      have hoctet := octet_eq (k := Int32.ofNat front.length) front hr
        (Int32.toInt_ofNat_of_lt (by omega)) (by omega)
      have hstep : shiftIn v front.length r = .ok ((v <<< 8) ||| b.toUInt64.toInt64) r := by
        rw [← toInt64_of_octet]
        change EStateM.bind (octet _) _ r = _
        rw [EStateM.bind, hoctet]
        rfl
      have htail := ih (front ++ [b]) ((v <<< 8) ||| b.toUInt64.toInt64)
        (by rw [List.append_assoc]; exact hr) (by simp; omega)
      rw [List.length_cons, List.range'_succ, List.foldlM_cons, List.foldl_cons]
      change EStateM.bind (shiftIn v front.length) _ r = _
      rw [EStateM.bind, hstep]
      rwa [List.length_append] at htail

theorem refines_readI64 :
    Refines (cursor Thrown) (fun v n => v.toInt = n) readI64 parseI64 := by
  intro r input hr
  have height : (8 : Int32).toInt = 8 := rfl
  refine refinesAt_require hr (by decide) (by decide) ⟨_, rfl⟩ (fun hshort => ?_) (fun hlong => ?_)
  · rw [parseI64, bind_apply, takeN_eq_none (by omega), Option.bind_none]
  obtain ⟨xs, rest, hxs, rfl⟩ := exists_append_of_le (n := 8) input (by omega)
  have hloop := foldlM_shiftIn xs [] 0 hr (by simp [hxs])
  rw [hxs] at hloop
  refine refinesAt_step hloop ?_
  refine refinesAt_step (a := ()) rfl ?_
  have hp : parseI64 (xs ++ rest) = some (signed 64 (beNat xs), rest) := by
    rw [parseI64, bind_apply, ← hxs, takeN_append]
    rfl
  refine (refinesAt_some hp).mpr ⟨_, _, rfl, ?_,
    stands_advance xs hr (by rw [hxs]; rfl) (by omega)⟩
  have hlt := beNat_lt xs
  rw [hxs] at hlt
  rw [toInt_int64, toNat_foldl_shift_or]
  have hzero : (0 : Int64).toBitVec.toNat = 0 := rfl
  rw [hzero, Nat.zero_mul, Nat.zero_add, Nat.mod_eq_of_lt (by omega)]

theorem refines_readString :
    Refines (cursor Thrown) (fun s b => utf8 s = b) readString parseString := by
  refine refines_bind refines_readU32 fun ln n hln r input hr => ?_
  obtain ⟨hn, hlt⟩ := hln
  have hpos := pos_of_stands hr
  have hroom := hr.1
  have hsum : (r.pos.toInt64 + ln).toInt = r.pos.toInt + n := by
    rw [toInt_add_int64 (by rw [Int32.toInt_toInt64]; omega) (by rw [Int32.toInt_toInt64]; omega),
      Int32.toInt_toInt64, hn]
  have hguard : r.pos.toInt64 + ln > r.data.length.toInt64 ↔ input.length < n := by
    rw [gt_iff_lt, Int64.lt_iff_toInt_lt, hsum, Int32.toInt_toInt64, JArray.toInt_length]
    omega
  refine refinesAt_step (a := r) rfl ?_
  refine refinesAt_throwIf (fun hover => ⟨?_, _, rfl⟩) (fun hfit => ?_)
  · exact satisfying_takeN_eq_none _ (hguard.mp hover)
  have hle : n ≤ input.length := not_lt.mp (mt hguard.mpr hfit)
  obtain ⟨s, rest, rfl, rfl⟩ := exists_append_of_le (n := n) input hle
  have hnarrow : ln.toInt32.toInt = s.length := by
    rw [toInt_toInt32 (by omega) (by omega), hn]
  rw [List.length_append] at hpos
  refine refinesAt_decodeNext hr ⟨_, rfl⟩ hnarrow ?_
  rw [toInt_toInt32 (by omega) (by omega), hsum]

theorem refines_readEntry : Refines (cursor Thrown)
    (fun e b => (utf8 e.1, utf8 e.2) = b) readEntry parseEntry := by
  refine refines_bind refines_readString fun k k' hk => ?_
  refine refines_bind refines_readString fun v v' hv => refines_pure ?_
  rw [hk, hv]

theorem refines_readKV :
    Refines (cursor Thrown) (fun m es => m.toMap = toMap es) readKV parseKv := by
  refine refines_bind refines_readU32 fun count n hn r input hr => ?_
  obtain ⟨left, hleft, hinput⟩ := remaining_eq hr
  refine refinesAt_step hleft ?_
  refine refinesAt_counted hr exact_parseEntry length_entry_ge (fun hc => ⟨?_, _, rfl⟩)
    (fun _ => by rw [hn.1, Int.toNat_natCast]) refines_readEntry ?_
  · rw [gt_iff_lt, Int64.lt_iff_toInt_lt, Int32.toInt_toInt64, hn.1] at hc
    exact lt_mul_of_guard 8 hinput (by decide) hc
  · intro as bs has
    exact toMap_foldl_put_empty has

theorem refines_readEchoResult :
    Refines (cursor Thrown) (fun r b => r.view LinkedHashMap.toMap = b.mapKv toMap) readEchoResult
      parseEchoResult := by
  refine refines_bind refines_readI64 fun i i' hi => ?_
  refine refines_bind refines_readU8 fun t t' ht => ?_
  refine refines_bind refines_readKV fun m es hm => refines_pure ?_
  rw [EchoResult.view, Protocol.EchoResult.mapKv, hi, ht, hm]

theorem refines_readEchoResults :
    Refines (cursor Thrown) (fun rs bs => rs.map (EchoResult.view LinkedHashMap.toMap) =
      bs.map (·.mapKv toMap)) readEchoResults parseEchoResults := by
  refine refines_bind refines_readU32 fun count n hn r input hr => ?_
  obtain ⟨left, hleft, hinput⟩ := remaining_eq hr
  refine refinesAt_step hleft ?_
  refine refinesAt_counted hr exact_parseEchoResult length_echoResult_ge (fun hc => ⟨?_, _, rfl⟩)
    (fun _ => by rw [hn.1, Int.toNat_natCast]) refines_readEchoResult ?_
  · rw [gt_iff_lt, Int64.lt_iff_toInt_lt, Int32.toInt_toInt64, hn.1] at hc
    exact lt_mul_of_guard 13 hinput (by decide) hc
  · intro as bs has
    rw [foldl_push, List.nil_append]
    induction has with
    | nil => rfl
    | cons hab _ ih => rw [List.map_cons, List.map_cons, hab, ih]

theorem sound_fieldReaders :
    fieldReaders.Sound (cursor Thrown) text
      (fun rs => rs.map (List.map (EchoResult.view LinkedHashMap.toMap))) (·.mapKv toMap) where
  readString := refines_functor_map refines_readString fun _ _ h => congrArg some h
  readI64 := refines_readI64
  readI32 := refines_readI32
  readEchoResults := refines_functor_map refines_readEchoResults fun _ _ h => congrArg some h

end Primitives

section Messages

/-- The frame has the given type byte and payload. -/
def Frame.Shows (frame : Frame) (type : UInt8) (body : Bytes) : Prop :=
  frame.msgType = type.toInt8 ∧ frame.payload.octets = body

/-- The header check on data of at least eight octets. -/
theorem decodeFrame_cons {data : JArray} {b0 b1 type flags b4 b5 b6 b7 : UInt8} {body : Bytes}
    (hdata : data.octets = b0 :: b1 :: type :: flags :: b4 :: b5 :: b6 :: b7 :: body) :
    if b0 = 0x48 ∧ b1 = 0x01 ∧ beNat [b4, b5, b6, b7] = body.length then
      ∃ frame, decodeFrame data = .ok frame ∧ frame.Shows type body
    else ∃ e, decodeFrame data = .error e ∧ Thrown e := by
  have hsize : data.octets.length = body.length + 8 := by rw [hdata]; rfl
  have hlen := data.toInt_length
  have hfits := data.fits
  have height : (8 : Int32).toInt = 8 := rfl
  have hlong : ¬ data.length < 8 := by
    rw [Int32.lt_iff_toInt_lt, hlen]
    omega
  have havailable : (data.length - 8).toInt64.toInt = body.length := by
    rw [Int32.toInt_toInt64, toInt_sub_int32 (by omega) (by omega), hlen, hsize]
    omega
  have hword := toInt_or_octets_int64 b4 b5 b6 b7
  simp only [← toInt64_of_octet, ← and_mask_of_octet] at hword
  have hlt : beNat [b4, b5, b6, b7] < 256 ^ 4 := beNat_lt _
  simp only [decodeFrame, throwIf_bind_except, ok_bind, if_neg hlong,
    index_eq (i := 0) [] hdata rfl, index_eq (i := 1) [b0] hdata rfl,
    index_eq (i := 2) [b0, b1] hdata rfl, index_eq (i := 4) [b0, b1, type, flags] hdata rfl,
    index_eq (i := 5) [b0, b1, type, flags, b4] hdata rfl,
    index_eq (i := 6) [b0, b1, type, flags, b4, b5] hdata rfl,
    index_eq (i := 7) [b0, b1, type, flags, b4, b5, b6] hdata rfl]
  refine checks_cases (not_congr (toInt8_eq_iff b0 0x48)) (not_congr (toInt8_eq_iff b1 0x01))
    (not_congr ?_) ⟨⟨_, rfl⟩, ⟨_, rfl⟩, ⟨_, rfl⟩⟩ (fun hdeclared => ?_)
    (a := ⟨type.toInt8, ⟨body, by omega⟩⟩) ⟨rfl, rfl⟩
  · rw [← Int64.toInt_inj, hword, havailable, Nat.cast_inj]
  · have hn := toInt_toInt32 (by rw [hword]; omega) (by rw [hword]; omega)
    rw [hword, hdeclared] at hn
    rw [copy_eq ⟨body, by omega⟩ [b0, b1, type, flags, b4, b5, b6, b7] hdata rfl hn]
    rfl

/-- The header check accepts exactly the envelopes, whatever their type and flags. -/
theorem decodeFrame_eq (data : JArray) :
    (∃ type flags body, data.octets = envelope type flags body ∧ body.length < 2 ^ 32 ∧
      ∃ frame, decodeFrame data = .ok frame ∧ frame.Shows type body) ∨
    (parseFrame data.octets = none ∧ ∃ e, decodeFrame data = .error e ∧ Thrown e) := by
  refine header_cases data.octets (fun hshort => ?_) ?_
  · have hlen : data.length < 8 := by
      rw [Int32.lt_iff_toInt_lt, data.toInt_length, show (8 : Int32).toInt = 8 from rfl]
      exact_mod_cast hshort
    exact ⟨_, by rw [decodeFrame, throwIf_bind_except, if_pos hlen], _, rfl⟩
  · intro b0 b1 type flags b4 b5 b6 b7 body hdata
    exact decodeFrame_cons hdata

/-- `decodeMessage` returns what the frame grammar says and throws on everything else. -/
theorem decodeMessage_eq (data : JArray) :
    match parseFrame data.octets with
    | some p => ∃ m, decodeMessage data = .ok m ∧
        m.view LinkedHashMap.toMap = some (p.mapKv toMap)
    | none => ∃ e, decodeMessage data = .error e ∧ Thrown e := by
  obtain ⟨type, flags, body, hdata, hlen, ⟨msgType, payload⟩, hframe, rfl, rfl⟩ |
    ⟨hnone, e, herr, hthrown⟩ := decodeFrame_eq data
  · have hroom : payload.octets.length + 8 < 2 ^ 31 := by
      have hfits := data.fits
      rwa [hdata, length_envelope, Nat.add_comm] at hfits
    have hstands : (cursor Thrown).stands ⟨payload, 0⟩ payload.octets := ⟨hroom, [], rfl, rfl⟩
    set unknown : Throwable := .decodeException ("unknown message type: 0x" ++ Hex.byte type)
    have hdecode : decodeMessage data = decodeFields fieldReaders ⟨payload, 0⟩ unknown
        { Message.new with type := type.toInt8 } (MsgType.ofCode? type) := by
      rw [decodeMessage, hframe]
      rfl
    have hfields := decodeFields_eq sound_fieldReaders hstands unknown
      { Message.new with type := type.toInt8 } (MsgType.ofCode? type)
    rw [hdata, parseFrame_envelope type flags hlen]
    cases hp : (MsgType.ofCode? type).bind fun t => (parsePayload t payload.octets).map Prod.fst with
    | none =>
        rw [hp] at hfields
        obtain ⟨e, he, rfl | ⟨s, hs⟩⟩ := hfields
        · exact ⟨unknown, hdecode.trans he, _, rfl⟩
        · exact ⟨e, hdecode.trans he, hs⟩
    | some p =>
        rw [hp] at hfields
        obtain ⟨m, hm, htype, hview⟩ := hfields
        refine ⟨m, hdecode.trans hm, ?_⟩
        rw [Message.view, htype]
        exact hview
  · rw [hnone]
    exact ⟨e, by rw [decodeMessage, herr]; rfl, hthrown⟩

end Messages

end HelloWebsocket.Java
