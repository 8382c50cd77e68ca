import HelloWebsocket.Wire.Words
import HelloWebsocket.Go.Codec

/-!
# What the Go decoder accepts

Every method of `Reader` refines the parser of its primitive, so
`DecodeMessage` accepts exactly the frames of the grammar. A rejection is an
error value: no index or slice panics.
-/

namespace HelloWebsocket.Go

open BigEndian Utf8 Parsing Words Protocol

section Cursor

/-- The reader stands after a front part of its data, and positions have room for a 32-bit
length. -/
def cursor : Cursor Error Reader UInt8 where
  stands r input := r.data.length + 2 ^ 32 ≤ 2 ^ 63 ∧
    ∃ front, r.data = front ++ input ∧ r.pos.toInt = front.length
  failed e _ := e ≠ .panic

variable {r : Reader} {input : Bytes}

theorem toInt_len (data : Bytes) (h : data.length < 2 ^ 63) : (len data).toInt = data.length :=
  Int64.toInt_ofNat_of_lt h

theorem pos_of_stands (hr : cursor.stands r input) :
    0 ≤ r.pos.toInt ∧ r.pos.toInt + input.length = r.data.length := by
  obtain ⟨-, front, hdata, hpos⟩ := hr
  rw [hdata, hpos, List.length_append]
  omega

theorem failed_errorf (message : String) : cursor.failed (.errorf message) r := by
  intro h
  cases h

theorem toInt_pos_add (hr : cursor.stands r input) {n : Int64} (h0 : 0 ≤ n.toInt)
    (hn : n.toInt < 2 ^ 32) : (r.pos + n).toInt = r.pos.toInt + n.toInt := by
  have hpos := pos_of_stands hr
  have hroom := hr.1
  exact toInt_add_int64 (by omega) (by omega)

/-- The bounds check fails exactly when too few octets are left. -/
theorem beyond_iff (hr : cursor.stands r input) {n : Int64} (h0 : 0 ≤ n.toInt)
    (hn : n.toInt < 2 ^ 32) : r.pos + n > len r.data ↔ (input.length : Int) < n.toInt := by
  have hpos := pos_of_stands hr
  have hroom := hr.1
  rw [gt_iff_lt, Int64.lt_iff_toInt_lt, toInt_len r.data (by omega), toInt_pos_add hr h0 hn]
  omega

theorem refinesAt_ensure {α β : Type} {R : α → β → Prop} {p : Parser UInt8 β} {n : Int64}
    {kind : String} {f : Unit → ReaderM α} (hr : cursor.stands r input) (h0 : 0 ≤ n.toInt)
    (hn : n.toInt < 2 ^ 32) (hshort : (input.length : Int) < n.toInt → p input = none)
    (hf : n.toInt ≤ input.length → RefinesAt cursor R (f ()) p r input) :
    RefinesAt cursor R (ensure n kind >>= f) p r input := by
  have hbeyond := beyond_iff hr h0 hn
  rw [ensure, bind_assoc]
  refine refinesAt_step (a := r) rfl (refinesAt_throwIf (fun h => ?_) (fun h => ?_))
  · exact ⟨hshort (hbeyond.mp h), failed_errorf _⟩
  · exact hf (not_lt.mp (mt hbeyond.mpr h))

/-- Indexing at the position gives the next unread octet. -/
theorem index_of_stands {b : UInt8} {rest : Bytes} (hr : cursor.stands r (b :: rest)) :
    index r.data r.pos = .ok b := by
  have hend := pos_of_stands hr
  obtain ⟨hroom, front, hdata, hpos⟩ := hr
  have hin : 0 ≤ r.pos ∧ r.pos < len r.data := by
    rw [Int64.le_iff_toInt_le, Int64.lt_iff_toInt_lt, toInt_len r.data (by omega), Int64.toInt_zero]
    rw [List.length_cons] at hend
    omega
  rw [index, if_pos hin, hpos, Int.toNat_natCast, hdata]
  simp

/-- Slicing from the position on gives the unread octets. -/
theorem slice_of_stands (hr : cursor.stands r input) :
    slice r.data r.pos (len r.data) = .ok input := by
  have hroom := hr.1
  have hend := pos_of_stands hr
  obtain ⟨-, front, hdata, hpos⟩ := hr
  have hlen := toInt_len r.data (by omega)
  have hok : 0 ≤ r.pos ∧ r.pos ≤ len r.data ∧ len r.data ≤ len r.data := by
    simp only [Int64.le_iff_toInt_le, hlen, Int64.toInt_zero]
    omega
  rw [slice, if_pos hok, hlen, hpos, Int.toNat_natCast, hdata, List.drop_left]
  rw [show ((front ++ input).length - front.length : Int).toNat = input.length by
    rw [List.length_append]
    omega, List.take_length]

theorem slice_take_of_stands {xs ys : Bytes} (hr : cursor.stands r (xs ++ ys)) {n : Int64}
    (hn : n.toInt = xs.length) (hlt : xs.length < 2 ^ 32) :
    slice r.data r.pos (r.pos + n) = .ok xs := by
  have hroom := hr.1
  have hend := pos_of_stands hr
  have hadd := toInt_pos_add hr (n := n) (by omega) (by omega)
  obtain ⟨-, front, hdata, hpos⟩ := hr
  have hlen := toInt_len r.data (by omega)
  rw [List.length_append] at hend
  have hok : 0 ≤ r.pos ∧ r.pos ≤ r.pos + n ∧ r.pos + n ≤ len r.data := by
    simp only [Int64.le_iff_toInt_le, hlen, hadd, Int64.toInt_zero]
    omega
  rw [slice, if_pos hok, hadd, hpos, hn, Int.toNat_natCast, hdata, List.drop_left]
  rw [show (front.length + xs.length - front.length : Int).toNat = xs.length by omega,
    List.take_left]

theorem stands_advance (xs : Bytes) {ys : Bytes} (hr : cursor.stands r (xs ++ ys)) {n : Int64}
    (hn : n.toInt = xs.length) (hlt : xs.length < 2 ^ 32) :
    cursor.stands { r with pos := r.pos + n } ys := by
  obtain ⟨hroom, front, hdata, hpos⟩ := hr
  refine ⟨hroom, front ++ xs, ?_, ?_⟩
  · rw [hdata, List.append_assoc]
  · change (r.pos + n).toInt = _
    rw [toInt_pos_add ⟨hroom, front, hdata, hpos⟩ (by omega) (by omega), hpos, hn,
      List.length_append]
    omega

end Cursor

section Primitives

theorem refines_readU8 : Refines cursor (fun v n => (v.toNat : Int) = n) readU8 parseU8 := by
  intro r input hr
  have hone : (1 : Int64).toInt = 1 := rfl
  refine refinesAt_ensure hr (by decide) (by decide) (fun hshort => ?_) (fun hlong => ?_)
  · rw [parseU8, bind_apply, takeN_eq_none (by omega), Option.bind_none]
  obtain ⟨b, rest, rfl⟩ := List.exists_cons_of_length_pos (l := input) (by omega)
  refine refinesAt_step (a := r) rfl ?_
  refine refinesAt_step (ofExcept_ok (index_of_stands hr)) ?_
  refine refinesAt_step (a := ()) rfl ?_
  have hp : parseU8 (b :: rest) = some ((b.toNat : Int), rest) := by
    rw [parseU8, bind_apply, show takeN 1 (b :: rest) = some ([b], rest) from rfl]
    simp [beNat, pure_apply]
  exact (refinesAt_some hp).mpr ⟨b, _, rfl, rfl, stands_advance [b] hr rfl (by simp)⟩

theorem refines_readU32 : Refines cursor (fun v n => v.toNat = n) readU32 parseU32 := by
  intro r input hr
  have hfour : (4 : Int64).toInt = 4 := rfl
  refine refinesAt_ensure hr (by decide) (by decide) (fun hshort => ?_) (fun hlong => ?_)
  · rw [parseU32, bind_apply, takeN_eq_none (by omega), Option.bind_none]
  obtain ⟨xs, ys, hxs, rfl⟩ := exists_append_of_le (n := 4) input (by omega)
  refine refinesAt_step (a := r) rfl ?_
  refine refinesAt_step (ofExcept_ok (slice_of_stands hr)) ?_
  have hword : bigEndianUint32 (xs ++ ys) = .ok (UInt32.ofNat (beNat xs)) := by
    rw [bigEndianUint32, if_pos (by rw [List.length_append]; omega), ← hxs, List.take_left]
  refine refinesAt_step (ofExcept_ok hword) ?_
  refine refinesAt_step (a := ()) rfl ?_
  have hp : parseU32 (xs ++ ys) = some (beNat xs, ys) := by
    rw [parseU32, bind_apply, ← hxs, takeN_append]
    rfl
  refine (refinesAt_some hp).mpr ⟨_, _, rfl, ?_, stands_advance xs hr ?_ (by omega)⟩
  · have hlt := beNat_lt xs
    rw [hxs] at hlt
    rw [UInt32.toNat_ofNat']
    exact Nat.mod_eq_of_lt hlt
  · rw [hxs]
    rfl

theorem refines_readI32 : Refines cursor (fun v n => v.toInt = n) readI32 parseI32 := by
  rw [parseI32_eq]
  refine refines_map refines_readU32 fun v n hv => ?_
  rw [← hv, toInt_int32]
  rfl

theorem refines_readI64 : Refines cursor (fun v n => v.toInt = n) readI64 parseI64 := by
  intro r input hr
  have height : (8 : Int64).toInt = 8 := rfl
  refine refinesAt_ensure hr (by decide) (by decide) (fun hshort => ?_) (fun hlong => ?_)
  · rw [parseI64, bind_apply, takeN_eq_none (by omega), Option.bind_none]
  obtain ⟨xs, ys, hxs, rfl⟩ := exists_append_of_le (n := 8) input (by omega)
  refine refinesAt_step (a := r) rfl ?_
  refine refinesAt_step (ofExcept_ok (slice_of_stands hr)) ?_
  have hword : bigEndianUint64 (xs ++ ys) = .ok (UInt64.ofNat (beNat xs)) := by
    rw [bigEndianUint64, if_pos (by rw [List.length_append]; omega), ← hxs, List.take_left]
  refine refinesAt_step (ofExcept_ok hword) ?_
  refine refinesAt_step (a := ()) rfl ?_
  have hp : parseI64 (xs ++ ys) = some (signed 64 (beNat xs), ys) := by
    rw [parseI64, bind_apply, ← hxs, takeN_append]
    rfl
  refine (refinesAt_some hp).mpr ⟨_, _, rfl, ?_, stands_advance xs hr ?_ (by omega)⟩
  · have hlt := beNat_lt xs
    rw [hxs] at hlt
    have hbits : (UInt64.ofNat (beNat xs)).toInt64.toBitVec.toNat = beNat xs := by
      change (UInt64.ofNat (beNat xs)).toNat = _
      rw [UInt64.toNat_ofNat']
      exact Nat.mod_eq_of_lt hlt
    rw [toInt_int64, hbits]
  · rw [hxs]
    rfl

theorem refines_readString : Refines cursor Eq readString parseString := by
  refine refines_bind refines_readU32 fun ln n hln r input hr => ?_
  subst hln
  have hlt := ln.toNat_lt
  have hn := toInt_of_uint32 ln
  have hbeyond := beyond_iff hr (n := ln.toUInt64.toInt64) (by omega) (by omega)
  refine refinesAt_step (a := r) rfl ?_
  refine refinesAt_throwIf (fun hover => ⟨?_, failed_errorf _⟩) (fun hfit => ?_)
  · have := hbeyond.mp hover
    exact satisfying_takeN_eq_none _ (by omega)
  have hle := not_lt.mp (mt hbeyond.mpr hfit)
  obtain ⟨s, rest, hs, rfl⟩ := exists_append_of_le (n := ln.toNat) input (by omega)
  rw [← hs] at hlt hn ⊢
  refine refinesAt_step (ofExcept_ok (slice_take_of_stands hr hn hlt)) ?_
  refine refinesAt_throwIf (fun hbad => ⟨?_, failed_errorf _⟩) (fun hgood => ?_)
  · rw [satisfying_takeN_append, if_neg hbad]
  refine refinesAt_step (a := ()) rfl ?_
  have hp : satisfying (takeN s.length) WellFormed (s ++ rest) = some (s, rest) := by
    rw [satisfying_takeN_append, if_pos (not_not.mp hgood)]
  exact (refinesAt_some hp).mpr ⟨s, _, rfl, rfl, stands_advance s hr hn hlt⟩

theorem refines_readEntry : Refines cursor Eq readEntry parseEntry := by
  refine refines_bind refines_readString fun k k' hk => ?_
  refine refines_bind refines_readString fun v v' hv => refines_pure ?_
  rw [hk, hv]

/-- The count guard compares with the unread octets. -/
theorem lt_mul_of_guard {r : Reader} {input : Bytes} {count : UInt32} (k : Int64)
    (hr : cursor.stands r input) (hk : 0 < k.toInt)
    (h : count.toUInt64 > ((len r.data - r.pos) / k).toUInt64) :
    input.length < count.toNat * k.toInt.toNat := by
  have hend := pos_of_stands hr
  have hroom := hr.1
  have hleft : (len r.data - r.pos).toInt = input.length := by
    have hlen := toInt_len r.data (by omega)
    rw [toInt_sub_int64 (by omega) (by omega), hlen]
    omega
  have hdiv : ((len r.data - r.pos) / k).toInt = input.length / k.toInt := by
    rw [Int64.toInt_div_of_ne_left, hleft, Int.tdiv_eq_ediv_of_nonneg (by omega)]
    intro hmin
    rw [hmin] at hleft
    have : Int64.minValue.toInt = -2 ^ 63 := rfl
    omega
  have hquot : (((len r.data - r.pos) / k).toUInt64.toNat : Int) = input.length / k.toInt := by
    rw [toNat_of_nonneg, hdiv]
    rw [hdiv]
    exact Int.ediv_nonneg (by omega) (by omega)
  rw [gt_iff_lt, UInt64.lt_iff_toNat_lt, UInt32.toNat_toUInt64] at h
  zify at h
  rw [hquot] at h
  zify
  rw [Int.toNat_of_nonneg (by omega)]
  exact (Int.ediv_lt_iff_lt_mul hk).mp h

theorem refines_readKV : Refines cursor (fun m es => m = toMap es) readKV parseKv := by
  refine refines_bind refines_readU32 fun count n hn r input hr => ?_
  subst hn
  refine refinesAt_step (a := len r.data - r.pos) rfl ?_
  refine refinesAt_counted hr exact_parseEntry length_entry_ge
    (fun hc => ⟨lt_mul_of_guard 8 hr (by decide) hc, failed_errorf _⟩)
    (fun _ => rfl) refines_readEntry ?_
  intro as bs has
  rw [List.forall₂_eq_eq_eq] at has
  rw [has]
  rfl

theorem refines_readEchoResult :
    Refines cursor (fun r b => r.view = b.mapKv toMap) readEchoResult parseEchoResult := by
  refine refines_bind refines_readI64 fun i i' hi => ?_
  refine refines_bind refines_readU8 fun t t' ht => ?_
  refine refines_bind refines_readKV fun m es hm => refines_pure ?_
  rw [EchoResult.view, Protocol.EchoResult.mapKv, hi, ht, hm]

theorem refines_readEchoResults :
    Refines cursor (fun rs bs => rs.map EchoResult.view = bs.map (·.mapKv toMap))
      readEchoResults parseEchoResults := by
  refine refines_bind refines_readU32 fun count n hn r input hr => ?_
  subst hn
  refine refinesAt_step (a := len r.data - r.pos) rfl ?_
  refine refinesAt_counted hr exact_parseEchoResult length_echoResult_ge
    (fun hc => ⟨lt_mul_of_guard 13 hr (by decide) hc, failed_errorf _⟩)
    (fun _ => rfl) refines_readEchoResult ?_
  intro as bs has
  rw [foldl_push, List.nil_append]
  induction has with
  | nil => rfl
  | cons hab _ ih => rw [List.map_cons, List.map_cons, hab, ih]

end Primitives

section Messages

/-- Each `Decode` function reads the payload grammar of its message. -/
theorem refines_readFields (msg : Message) (t : MsgType) :
    Refines cursor (fun m p => m.type = msg.type ∧ m.fields t = some (p.mapKv toMap))
      (readFields msg t) (parsePayload t) := by
  cases t <;> simp only [readFields, decodeHello, decodeBonjour, decodeEchoRequest,
    decodeEchoResponse, decodeKissRequest, decodeKissResponse, decodePing, decodePong,
    decodeTimeNotification, decodeRandomNumber, decodeHashResponse, decodeDisconnect,
    decodeErrorMsg, bind_assoc, pure_bind]
  case hello | bonjour | disconnect =>
    refine refines_map refines_readString fun s s' hs => ⟨rfl, ?_⟩
    subst hs
    rfl
  case echoRequest =>
    refine refines_bind refines_readI64 fun i i' hi => ?_
    refine refines_bind refines_readString fun t t' ht => ?_
    refine refines_map refines_readString fun d d' hd => ⟨rfl, ?_⟩
    subst hi ht hd
    rfl
  case echoResponse =>
    refine refines_bind refines_readI32 fun s s' hs => ?_
    refine refines_map refines_readEchoResults fun rs rs' hrs => ⟨rfl, ?_⟩
    subst hs
    rw [Message.fields, Option.map_some, hrs]
    rfl
  case kissRequest =>
    refine refines_bind refines_readString fun n n' hn => ?_
    refine refines_bind refines_readString fun v v' hv => ?_
    refine refines_bind refines_readString fun r r' hr => ?_
    refine refines_map refines_readString fun a a' ha => ⟨rfl, ?_⟩
    subst hn hv hr ha
    rfl
  case kissResponse =>
    refine refines_bind refines_readString fun l l' hl => ?_
    refine refines_bind refines_readString fun e e' he => ?_
    refine refines_map refines_readString fun z z' hz => ⟨rfl, ?_⟩
    subst hl he hz
    rfl
  case ping | pong =>
    refine refines_map refines_readI64 fun t t' ht => ⟨rfl, ?_⟩
    subst ht
    rfl
  case timeNotification | hashResponse =>
    refine refines_bind refines_readI64 fun t t' ht => ?_
    refine refines_map refines_readString fun s s' hs => ⟨rfl, ?_⟩
    subst ht hs
    rfl
  case randomNumber =>
    refine refines_bind refines_readI64 fun i i' hi => ?_
    refine refines_map refines_readI64 fun n n' hn => ⟨rfl, ?_⟩
    subst hi hn
    rfl
  case error =>
    refine refines_bind refines_readI32 fun c c' hc => ?_
    refine refines_map refines_readString fun s s' hs => ⟨rfl, ?_⟩
    subst hc hs
    rfl

/-- The error for a frame whose declared length is not the one of its payload. -/
def mismatch (declared : Nat) (data : Bytes) : Error :=
  .codecError 0x03 ("payload length mismatch: declared " ++ toString (UInt32.ofNat declared) ++
    ", available " ++ toString (len data - 8))

/-- The checks of the header on data of at least eight octets. -/
theorem decodeFrame_long (b0 b1 b2 b3 b4 b5 b6 b7 : UInt8) (body : Bytes)
    (hbody : body.length < 2 ^ 62) :
    decodeFrame (b0 :: b1 :: b2 :: b3 :: b4 :: b5 :: b6 :: b7 :: body) =
      if b0 ≠ 0x48 then .error (.codecError 0x04 ("bad magic: 0x" ++ Hex.byte b0))
      else if b1 ≠ 0x01 then .error (.codecError 0x05 ("bad version: 0x" ++ Hex.byte b1))
      else if beNat [b4, b5, b6, b7] ≠ body.length then
        .error (mismatch (beNat [b4, b5, b6, b7])
          (b0 :: b1 :: b2 :: b3 :: b4 :: b5 :: b6 :: b7 :: body))
      else .ok (b2, body) := by
  set data := b0 :: b1 :: b2 :: b3 :: b4 :: b5 :: b6 :: b7 :: body with hdata
  have hsize : data.length = body.length + 8 := by simp [hdata]
  have hlen := toInt_len data (by omega)
  have hstands (front input : Bytes) (i : Int64) (he : data = front ++ input)
      (hi : i.toInt = front.length) : cursor.stands ⟨data, i⟩ input :=
    ⟨by change data.length + _ ≤ _; omega, front, he, hi⟩
  have h0 : index data 0 = .ok b0 := index_of_stands (hstands [] data 0 rfl rfl)
  have h1 : index data 1 = .ok b1 := index_of_stands (hstands [b0] _ 1 rfl rfl)
  have h2 : index data 2 = .ok b2 := index_of_stands (hstands [b0, b1] _ 2 rfl rfl)
  have h4 : slice data 4 (len data) = .ok (b4 :: b5 :: b6 :: b7 :: body) :=
    slice_of_stands (hstands [b0, b1, b2, b3] _ 4 rfl rfl)
  have hn : bigEndianUint32 (b4 :: b5 :: b6 :: b7 :: body) =
      .ok (UInt32.ofNat (beNat [b4, b5, b6, b7])) := by
    rw [bigEndianUint32, if_pos (by simp)]
    rfl
  have hlt : beNat [b4, b5, b6, b7] < 256 ^ 4 := beNat_lt _
  have hnat : (UInt32.ofNat (beNat [b4, b5, b6, b7])).toNat = beNat [b4, b5, b6, b7] :=
    UInt32.toNat_ofNat_of_lt' (by omega)
  generalize beNat [b4, b5, b6, b7] = declared at *
  have height : (8 : Int64).toInt = 8 := rfl
  have havailable : (UInt32.ofNat declared).toUInt64.toInt64 = len data - 8 ↔
      declared = body.length := by
    rw [← Int64.toInt_inj, toInt_of_uint32, hnat, toInt_sub_int64 (by omega) (by omega), hlen]
    omega
  have hlong : ¬ len data < 8 := by
    rw [Int64.lt_iff_toInt_lt, hlen]
    omega
  have hat := hstands [b0, b1, b2, b3, b4, b5, b6, b7] (body ++ []) 8 (by simp [hdata]) rfl
  simp only [decodeFrame, throwIf_bind_except, h0, h1, h2, h4, hn, ok_bind, if_neg hlong, ne_eq,
    havailable]
  refine if_congr Iff.rfl rfl (if_congr Iff.rfl rfl ?_)
  by_cases hdeclared : declared = body.length
  · have hslice : slice data 8 (8 + (UInt32.ofNat declared).toUInt64.toInt64) = .ok body :=
      slice_take_of_stands hat (by rw [toInt_of_uint32, hnat, hdeclared]) (by omega)
    rw [if_neg (not_not.mpr hdeclared), if_neg (not_not.mpr hdeclared), hslice]
    rfl
  · rw [if_pos hdeclared, if_pos hdeclared]
    rfl

/-- The header check on data of at least eight octets. -/
theorem decodeFrame_cons (b0 b1 b2 b3 b4 b5 b6 b7 : UInt8) (body : Bytes)
    (hbody : body.length < 2 ^ 62) :
    if b0 = 0x48 ∧ b1 = 0x01 ∧ beNat [b4, b5, b6, b7] = body.length then
      ∃ frame, decodeFrame (b0 :: b1 :: b2 :: b3 :: b4 :: b5 :: b6 :: b7 :: body) = .ok frame ∧
        frame = (b2, body)
    else ∃ e, decodeFrame (b0 :: b1 :: b2 :: b3 :: b4 :: b5 :: b6 :: b7 :: body) = .error e ∧
      e ≠ .panic := by
  rw [decodeFrame_long b0 b1 b2 b3 b4 b5 b6 b7 body hbody]
  exact checks_cases Iff.rfl Iff.rfl Iff.rfl ⟨nofun, nofun, nofun⟩ (fun _ => rfl) rfl

/-- Data of fewer than eight octets have no header. -/
theorem decodeFrame_short {data : Bytes} (h : data.length < 8) : decodeFrame data =
    .error (.codecError 0x03 ("frame too short: " ++ toString (len data) ++ " bytes")) := by
  have hlen : len data < 8 := by
    rw [Int64.lt_iff_toInt_lt, toInt_len data (by omega), show (8 : Int64).toInt = 8 from rfl]
    exact_mod_cast h
  rw [decodeFrame, throwIf_bind_except, if_pos hlen]

/-- The header check accepts exactly the envelopes, whatever their type and flags. -/
theorem decodeFrame_eq (data : Bytes) (hdata : data.length < 2 ^ 62) :
    (∃ type flags body, data = envelope type flags body ∧ body.length < 2 ^ 32 ∧
      ∃ frame, decodeFrame data = .ok frame ∧ frame = (type, body)) ∨
    (parseFrame data = none ∧ ∃ e, decodeFrame data = .error e ∧ e ≠ .panic) := by
  refine header_cases data (fun hshort => ⟨_, decodeFrame_short hshort, nofun⟩) ?_
  · rintro b0 b1 type flags b4 b5 b6 b7 body rfl
    exact decodeFrame_cons b0 b1 type flags b4 b5 b6 b7 body (by simp at hdata; omega)

/-- `DecodeMessage` returns what the frame grammar says and an error on everything else. -/
theorem decodeMessage_eq (data : Bytes) (hdata : data.length < 2 ^ 62) :
    match parseFrame data with
    | some p => ∃ m, decodeMessage data = .ok m ∧ m.view = some (p.mapKv toMap)
    | none => ∃ e, decodeMessage data = .error e ∧ e ≠ .panic := by
  obtain ⟨type, flags, body, rfl, hlen, _, hframe, rfl⟩ | ⟨hnone, e, herr, hne⟩ :=
    decodeFrame_eq data hdata
  · rw [parseFrame_envelope type flags hlen]
    cases ht : MsgType.ofCode? type with
    | none =>
        refine ⟨_, by rw [decodeMessage, hframe]; simp only [bind, Except.bind, ht]; rfl, by simp⟩
    | some t =>
        have hstands : cursor.stands ⟨body, 0⟩ body := ⟨by change body.length + _ ≤ _; omega, [], rfl, rfl⟩
        have hread := refines_readFields { type := type } t ⟨body, 0⟩ body hstands
        rw [Option.bind_some]
        cases hp : parsePayload t body with
        | none =>
            obtain ⟨e, s, he, hfail⟩ := (refinesAt_none hp).mp hread
            refine ⟨e, ?_, hfail⟩
            rw [decodeMessage, hframe]
            simp only [bind, Except.bind, ht, he]
        | some out =>
            obtain ⟨m, s, hm, ⟨htype, hfields⟩, -⟩ := (refinesAt_some hp).mp hread
            refine ⟨m, ?_, ?_⟩
            · rw [decodeMessage, hframe]
              simp only [bind, Except.bind, ht, hm]
            · rw [Message.view, htype, ht]
              exact hfields
  · rw [hnone]
    exact ⟨e, by rw [decodeMessage, herr]; rfl, hne⟩

end Messages

end HelloWebsocket.Go
