import HelloWebsocket.Protocol.Normal
import HelloWebsocket.Cpp.Encode
import HelloWebsocket.Cpp.Decode

/-!
# Round trip and accepted language of the C++ codec

A message survives encoding and decoding, whatever the order in which its maps
are written. The decoder accepts the frames of the grammar and, in addition,
frames whose payload goes on after the last field. What it accepts, written again, is the
frame of the message in normal form.
-/

namespace HelloWebsocket.Cpp

open Utf8 Protocol

section RoundTrip

/-- The second record lists every map of the first one, each in some order, and agrees with it
on everything else. -/
def Message.Enumerates (m : Message KvMap) (o : Message Entries) : Prop :=
  o.mapKv (fun _ => ()) = m.mapKv (fun _ => ()) ∧
    List.Forall₂ (fun r e => ListedBy r.kv e.kv) m.echoResults o.echoResults

theorem inRange_of_view {κ : Type} {m : Message κ} {p : Protocol.Message κ}
    (h : m.view = some p) : p.InRange := by
  have h64 (x : Int64) : IsI64 x.toInt := ⟨x.le_toInt, x.toInt_lt⟩
  have h32 (x : Int32) : IsI32 x.toInt := ⟨x.le_toInt, x.toInt_lt⟩
  have h8 (x : UInt8) : IsU8 x.toNat := ⟨by omega, by have := x.toNat_lt; omega⟩
  obtain ⟨t, -, ht⟩ := Option.bind_eq_some_iff.mp h
  cases t <;> cases ht
  case echoResponse =>
    refine ⟨h32 _, fun r hr => ?_⟩
    obtain ⟨r', -, rfl⟩ := List.mem_map.mp hr
    exact ⟨h64 _, h8 _⟩
  case randomNumber => exact ⟨h64 _, h64 _⟩
  case echoRequest | ping | pong | timeNotification | hashResponse => exact h64 _
  case error => exact h32 _
  all_goals trivial

theorem view_mapKv {κ κ' : Type} (f : κ → κ') (m : Message κ) :
    (m.mapKv f).view = m.view.map (·.mapKv f) := by
  have htype : (m.mapKv f).type = m.type := rfl
  rw [Message.view, Message.view, htype, Option.map_bind]
  congr 1
  funext t
  cases t with
  | echoResponse =>
      simp only [Record.fields, Message.mapKv, Protocol.Message.mapKv, Option.bind_eq_bind,
        Option.bind_some, Option.pure_def, Function.comp_apply, Option.map_some, List.map_map,
        Protocol.Message.mapResults]
      rfl
  | _ => rfl

theorem type_of_view {κ : Type} {m : Message κ} {p : Protocol.Message κ} (h : m.view = some p) :
    m.type = p.type.code := by
  obtain ⟨t, ht, hp⟩ := Option.bind_eq_some_iff.mp h
  rw [Record.type_of_fields hp, MsgType.ofCode?_eq_some_iff.mp ht]

private theorem results_of_enumerates {rs : List (EchoResult KvMap)}
    {es : List (EchoResult Entries)}
    (hsame : es.map (fun e => (⟨e.idx, e.type, ()⟩ : EchoResult Unit)) =
      rs.map (fun r => ⟨r.idx, r.type, ()⟩))
    (hlist : List.Forall₂ (fun r e => ListedBy r.kv e.kv) rs es) :
    es.map (fun e => (⟨e.idx, e.type, toMap e.kv⟩ : EchoResult KvMap)) = rs := by
  induction hlist with
  | nil => rfl
  | cons hkv _ ih =>
      simp only [List.map_cons, List.cons.injEq, EchoResult.mk.injEq, and_true] at hsame
      obtain ⟨⟨hidx, htype⟩, hrest⟩ := hsame
      rw [List.map_cons, ih hrest, hidx, htype, toMap_of_listedBy hkv]

/-- What an enumeration lists denotes the message it enumerates. -/
theorem mapKv_of_enumerates {m : Message KvMap} {o : Message Entries} (h : m.Enumerates o) :
    o.mapKv toMap = m := by
  obtain ⟨hsame, hlist⟩ := h
  have hresults : o.echoResults.map (fun e => (⟨e.idx, e.type, toMap e.kv⟩ : EchoResult KvMap)) =
      m.echoResults := results_of_enumerates (congrArg Record.echoResults hsame) hlist
  simp only [Message.mapKv, Record.mk.injEq] at hsame
  cases m
  simp only [Message.mapKv, Record.mk.injEq]
  simp_all only [and_self]

private theorem exists_listedBy_of_mem {rs : List (EchoResult KvMap)} {es : List (EchoResult Entries)}
    (hlist : List.Forall₂ (fun r e => ListedBy r.kv e.kv) rs es) {e : EchoResult Entries}
    (he : e ∈ es) : ∃ m : KvMap, ListedBy m e.kv := by
  induction hlist with
  | nil => cases he
  | cons hkv _ ih =>
      rcases List.mem_cons.mp he with rfl | he
      · exact ⟨_, hkv⟩
      · exact ih he

theorem mem_texts_of_enumerates {m : Message KvMap} {o : Message Entries}
    {p : Protocol.Message Entries} (h : m.Enumerates o) (hp : o.view = some p) {s : Bytes}
    (hs : s ∈ p.texts) : s ∈ ((p.mapKv toMap).mapKv (·.toList)).texts := by
  obtain ⟨t, -, ht⟩ := Option.bind_eq_some_iff.mp hp
  cases t <;> cases ht
  case echoResponse =>
    simp only [Protocol.Message.mapKv, Protocol.Message.mapResults, Protocol.Message.texts,
      List.mem_flatMap, List.mem_map] at hs ⊢
    obtain ⟨r, ⟨e, he, rfl⟩, x, hx, hsx⟩ := hs
    obtain ⟨r, hkv⟩ := exists_listedBy_of_mem h.2 he
    refine ⟨_, ⟨_, ⟨e.view, ⟨e, he, rfl⟩, rfl⟩, rfl⟩, x, ?_, hsx⟩
    change x ∈ (toMap e.kv).toList
    rw [toMap_of_listedBy hkv]
    exact hkv.mem_iff.mp hx
  all_goals exact hs

/-- Decoding an encoded message gives the message back, for every order of its map entries. -/
theorem decodeMessage_encode (m : Message KvMap) (o : Message Entries)
    (p : Protocol.Message KvMap) (hview : m.view = some p) (horder : m.Enumerates o)
    (htext : ∀ s ∈ (p.mapKv (·.toList)).texts, WellFormed s) :
    ∃ b, o.encode = .ok b ∧ (b.length < 8 + 2 ^ 32 →
      ∃ m', decodeMessage 64 b = .ok m' ∧ m'.type = m.type ∧ m'.view = some p) := by
  rw [← mapKv_of_enumerates horder, view_mapKv, Option.map_eq_some_iff] at hview
  obtain ⟨q, hq, rfl⟩ := hview
  refine ⟨frame q, encode_eq hq, fun hlen => ?_⟩
  rw [frame, length_envelope] at hlen
  have hok : q.Ok := Protocol.Message.ok_of_texts (inRange_of_view hq)
    (fun s hs => htext s (mem_texts_of_enumerates horder hq hs)) (by omega)
  have hframe : IsFrameOf q (frame q) := by
    refine ⟨hok, 0x00, [], ?_, ?_⟩
    · rw [List.append_nil, frame]
    · rw [List.append_nil]
      omega
  have hspec := decodeMessage_eq (w := 64) (by omega) (frame q)
  rw [parseFrame_eq_some_iff.mpr hframe] at hspec
  obtain ⟨m', hm', hview⟩ := hspec
  refine ⟨m', hm', ?_, hview⟩
  have htype : m.type = o.type := congrArg Record.type (mapKv_of_enumerates horder).symm
  rw [type_of_view hview, htype, type_of_view hq]
  exact congrArg MsgType.code (Protocol.Message.type_mapResults _ q)

/-- A result whose two entries are written against the order of their keys. -/
theorem decodeMessage_encode_unordered :
    ∃ b, Message.encode { (Message.zero : Message Entries) with type := 0x04, echoStatus := -1, echoResults :=
        [⟨-1, 0xFF, [([98], [49]), ([97], [])]⟩] } = .ok b ∧ (b.length < 8 + 2 ^ 32 →
      ∃ m', decodeMessage 64 b = .ok m' ∧ m'.type = 0x04 ∧
        m'.view = some (.echoResponse (-1) [⟨-1, 255, toMap [([97], []), ([98], [49])]⟩])) :=
  decodeMessage_encode
    { (Message.zero : Message KvMap) with type := 0x04, echoStatus := -1, echoResults :=
        [⟨-1, 0xFF, toMap [([97], []), ([98], [49])]⟩] }
    { (Message.zero : Message Entries) with type := 0x04, echoStatus := -1, echoResults :=
        [⟨-1, 0xFF, [([98], [49]), ([97], [])]⟩] }
    (.echoResponse (-1) [⟨-1, 255, toMap [([97], []), ([98], [49])]⟩]) (by rfl)
    ⟨rfl, .cons (by unfold ListedBy; decide) .nil⟩ (by decide +kernel)

end RoundTrip

section AcceptedLanguage

/-- A frame of a message is read as that message. -/
theorem decodeMessage_of_frame {b : Bytes} {p : Protocol.Message Entries} (h : IsFrameOf p b) :
    ∃ m, decodeMessage 64 b = .ok m ∧ m.view = some (p.mapKv toMap) := by
  have hspec := decodeMessage_eq (w := 64) (by omega) b
  rwa [parseFrame_eq_some_iff.mpr h] at hspec

/-- What is read without an exception is a frame of a message. -/
theorem frame_of_decodeMessage {b : Bytes} {m : Message KvMap} (h : decodeMessage 64 b = .ok m) :
    ∃ p : Protocol.Message Entries, IsFrameOf p b ∧ m.view = some (p.mapKv toMap) := by
  have hspec := decodeMessage_eq (w := 64) (by omega) b
  cases hp : parseFrame b with
  | none =>
      rw [hp] at hspec
      obtain ⟨what, herr⟩ := hspec
      rw [herr] at h
      cases h
  | some p =>
      rw [hp] at hspec
      obtain ⟨m', hm', hview⟩ := hspec
      obtain rfl : m = m' := Except.ok.inj (h.symm.trans hm')
      exact ⟨p, parseFrame_eq_some_iff.mp hp, hview⟩

/-- `decodeMessage` returns normally exactly on the frames of a message: magic, version, a
registered type, any flags, and a payload length that counts the fields and any surplus. -/
theorem decodeMessage_accepts_iff (b : Bytes) :
    (∃ m, decodeMessage 64 b = .ok m) ↔ ∃ p : Protocol.Message Entries, IsFrameOf p b := by
  constructor
  · rintro ⟨m, hm⟩
    obtain ⟨p, hp, -⟩ := frame_of_decodeMessage hm
    exact ⟨p, hp⟩
  · rintro ⟨p, hp⟩
    obtain ⟨m, hm, -⟩ := decodeMessage_of_frame hp
    exact ⟨m, hm⟩

/-- A ping whose payload has a ninth octet is accepted, although no ping has such a payload. -/
theorem decodeMessage_accepts_surplus :
    (∃ m, decodeMessage 64
      [0x48, 0x01, 0x07, 0x00, 0, 0, 0, 9, 0, 0, 0, 0, 0, 0, 0, 5, 0xFF] = .ok m) ∧
    ¬ ∃ (p : Protocol.Message Entries) (flags : UInt8), p.Ok ∧
      [0x48, 0x01, 0x07, 0x00, 0, 0, 0, 9, 0, 0, 0, 0, 0, 0, 0, 5, 0xFF] =
        envelope p.type.code flags (payload p) := by
  constructor
  · exact ⟨{ Message.zero with type := 0x07, timestampMs := 5 }, by rfl⟩
  · rintro ⟨p, flags, -, he⟩
    have hcode : p.type.code = 0x07 := (List.cons.inj (List.cons.inj (List.cons.inj he).2).2).1.symm
    have hlen := congrArg List.length he
    rw [length_envelope] at hlen
    have hping : p.type = .ping := by
      have h := MsgType.ofCode?_code p.type
      rw [hcode] at h
      exact (Option.some.inj h).symm
    cases p with
    | ping t =>
        rw [payload, length_i64] at hlen
        simp at hlen
    | _ => cases hping

end AcceptedLanguage

section Normalisation

theorem EchoResult.view_injective {κ : Type} :
    Function.Injective (EchoResult.view : EchoResult κ → Protocol.EchoResult κ) := by
  rintro ⟨idx, type, kv⟩ ⟨idx', type', kv'⟩ h
  simp only [EchoResult.view, Protocol.EchoResult.mk.injEq, Int64.toInt_inj, Nat.cast_inj,
    UInt8.toNat_inj] at h
  obtain ⟨rfl, rfl, rfl⟩ := h
  rfl

/-- A decoded record has initial values outside the fields of its type. -/
theorem only_of_decodeMessage {w : Nat} {b : Bytes} {m : Message KvMap}
    (h : decodeMessage w b = .ok m) :
    ∃ t, MsgType.ofCode? m.type = some t ∧ m.only [] [] t = m := by
  rw [decodeMessage] at h
  cases hframe : decodeFrame b with
  | error e =>
      rw [hframe] at h
      cases h
  | ok frame =>
      rw [hframe, Parsing.ok_bind] at h
      cases ht : MsgType.ofCode? frame.msgType with
      | none =>
          rw [ht] at h
          cases h
      | some t =>
          rw [ht, decodeFields] at h
          split at h
          · next m' s' hread =>
              cases h
              obtain ⟨htype, honly⟩ := Record.only_of_readFields hread
              exact ⟨t, by rw [htype, ht], honly⟩
          · cases h

/-- A decoded record is determined by the message it stands for. -/
theorem eq_of_view {w : Nat} {b b' : Bytes} {m m' : Message KvMap} (h : decodeMessage w b = .ok m)
    (h' : decodeMessage w b' = .ok m') {p : Protocol.Message KvMap} (hview : m.view = some p)
    (hview' : m'.view = some p) : m = m' := by
  have htype : m.type = m'.type := by rw [type_of_view hview, type_of_view hview']
  obtain ⟨t, ht, honly⟩ := only_of_decodeMessage h
  obtain ⟨t', ht', honly'⟩ := only_of_decodeMessage h'
  obtain rfl : t = t' := by
    rw [htype, ht'] at ht
    exact (Option.some.inj ht).symm
  rw [Message.view, ht, Option.bind_some] at hview
  rw [Message.view, ht', Option.bind_some] at hview'
  rw [← honly, ← honly']
  exact Record.only_eq_of_fields (List.map_injective_iff.mpr EchoResult.view_injective) htype hview
    hview'

/-- Writing again what was read gives the normal form of the frame: it is read as the same
message, it is not longer, and it does not change any more. -/
theorem encode_normalises {b : Bytes} {m : Message KvMap} (h : decodeMessage 64 b = .ok m) :
    ∃ e, (m.mapKv (·.toList)).encode = .ok e ∧ decodeMessage 64 e = .ok m ∧ e.length ≤ b.length ∧
      ∀ m', decodeMessage 64 e = .ok m' → (m'.mapKv (·.toList)).encode = .ok e := by
  obtain ⟨p, hp, hview⟩ := frame_of_decodeMessage h
  obtain ⟨hframe, hle⟩ := hp.normal
  have hentries : (m.mapKv (·.toList)).view = some p.normal := by
    rw [view_mapKv, hview]
    rfl
  have hdecode : decodeMessage 64 (frame p.normal) = .ok m := by
    obtain ⟨m', hm', hview'⟩ := decodeMessage_of_frame hframe
    rw [p.normal_mapKv] at hview'
    rw [hm', eq_of_view hm' h hview' hview]
  refine ⟨frame p.normal, encode_eq hentries, hdecode, hle, ?_⟩
  intro m' hm'
  obtain rfl : m = m' := Except.ok.inj (hdecode.symm.trans hm')
  exact encode_eq hentries

/-- A frame with flags, surplus octets and a result in which a key occurs twice. -/
def repeatedKey : Bytes :=
  [0x48, 0x01, 0x04, 0xFF, 0, 0, 0, 52] ++ [0, 0, 0, 0] ++ [0, 0, 0, 1] ++
    [0, 0, 0, 0, 0, 0, 0, 1] ++ [0] ++ [0, 0, 0, 3] ++ [0, 0, 0, 1, 98, 0, 0, 0, 1, 49] ++
    [0, 0, 0, 1, 97, 0, 0, 0, 0] ++ [0, 0, 0, 1, 98, 0, 0, 0, 1, 50] ++ [7, 7]

theorem encode_normalises_repeated :
    ∃ m e, decodeMessage 64 repeatedKey = .ok m ∧ Message.encode (Message.mapKv (·.toList) m) = .ok e ∧
      decodeMessage 64 e = .ok m ∧ e.length ≤ repeatedKey.length := by
  have hframe : IsFrameOf (.echoResponse 0 [⟨1, 0, [([98], [49]), ([97], []), ([98], [50])]⟩])
      repeatedKey :=
    ⟨⟨by decide, by decide, by decide +kernel⟩, 0xFF, [7, 7], by decide, by decide⟩
  obtain ⟨m, hdecode, -⟩ := decodeMessage_of_frame hframe
  obtain ⟨e, hencode, hagain, hle, -⟩ := encode_normalises hdecode
  exact ⟨_, e, hdecode, hencode, hagain, hle⟩

end Normalisation

end HelloWebsocket.Cpp
