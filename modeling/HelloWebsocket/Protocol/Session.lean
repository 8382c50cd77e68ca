import HelloWebsocket.Wire.Reactor
import HelloWebsocket.Protocol.Grammar

/-!
# The server side of a session

What a server is to do with each message it receives: the checks of a received octet
string in the order of `PROTOCOL.md` section 7 with their error codes, and the
answers of section 5 as a machine whose only memory is the language of the client.

## Implementation notes

The servers differ in their language, in the texts of their errors and in the code
for octets that are not a frame. These are the parameters of the machine. The clock
is an input, because the index of an echo result is the time of the answer.
-/

namespace HelloWebsocket.Protocol

open BigEndian Utf8 Reactors

section Errors

/-- The errors of section 7 that a received octet string can cause. -/
inductive ErrorCode
  | decode | unknownMessageType | truncatedPayload | badMagic | badVersion
  deriving DecidableEq, Repr

def ErrorCode.code : ErrorCode → Int
  | decode => 0x01
  | unknownMessageType => 0x02
  | truncatedPayload => 0x03
  | badMagic => 0x04
  | badVersion => 0x05

/-- The message that octets carry, or the error of the first check they fail. -/
def examine : Bytes → Except ErrorCode (Message Entries)
  | b0 :: b1 :: type :: _ :: b4 :: b5 :: b6 :: b7 :: body =>
      if b0 ≠ 0x48 then .error .badMagic
      else if b1 ≠ 0x01 then .error .badVersion
      else if beNat [b4, b5, b6, b7] ≠ body.length then .error .truncatedPayload
      else match MsgType.ofCode? type with
        | none => .error .unknownMessageType
        | some t => match parsePayload t body with
            | some (m, _) => .ok m
            | none => .error .decode
  | _ => .error .truncatedPayload

theorem examine_of_short {b : Bytes} (h : b.length < 8) : examine b = .error .truncatedPayload := by
  unfold examine
  split
  · simp only [List.length_cons] at h
    omega
  · rfl

theorem examine_envelope (type flags : UInt8) {body : Bytes} (hlen : body.length < 2 ^ 32) :
    examine (envelope type flags body) = match MsgType.ofCode? type with
      | none => .error .unknownMessageType
      | some t => match parsePayload t body with
          | some (m, _) => .ok m
          | none => .error .decode := by
  obtain ⟨b4, b5, b6, b7, he, hn⟩ := envelope_eq type flags body
  rw [Nat.mod_eq_of_lt hlen] at hn
  rw [he, examine, if_neg (by decide), if_neg (by decide), if_neg (not_not.mpr hn)]

/-- What holds of data that fail a check of the header, by the first check that they fail, and of
every envelope, holds of all data. -/
theorem examine_cases {Q : Bytes → Except ErrorCode (Message Entries) → Prop}
    (short : ∀ data, data.length < 8 → Q data (.error .truncatedPayload))
    (magic : ∀ b0 b1 type flags b4 b5 b6 b7 body, b0 ≠ 0x48 →
      Q (b0 :: b1 :: type :: flags :: b4 :: b5 :: b6 :: b7 :: body) (.error .badMagic))
    (version : ∀ b1 type flags b4 b5 b6 b7 body, b1 ≠ 0x01 →
      Q (0x48 :: b1 :: type :: flags :: b4 :: b5 :: b6 :: b7 :: body) (.error .badVersion))
    (length : ∀ type flags b4 b5 b6 b7 body, beNat [b4, b5, b6, b7] ≠ body.length →
      Q (0x48 :: 0x01 :: type :: flags :: b4 :: b5 :: b6 :: b7 :: body) (.error .truncatedPayload))
    (whole : ∀ type flags b4 b5 b6 b7 body,
      beNat [b4, b5, b6, b7] = body.length → body.length < 2 ^ 32 →
      Q (0x48 :: 0x01 :: type :: flags :: b4 :: b5 :: b6 :: b7 :: body)
        (match MsgType.ofCode? type with
          | none => .error .unknownMessageType
          | some t => match parsePayload t body with
              | some (m, _) => .ok m
              | none => .error .decode))
    (data : Bytes) : Q data (examine data) := by
  rcases Nat.lt_or_ge data.length 8 with hlt | hge
  · rw [examine_of_short hlt]
    exact short data hlt
  · match data, hge with
    | b0 :: b1 :: type :: flags :: b4 :: b5 :: b6 :: b7 :: body, _ =>
        rw [examine]
        by_cases h0 : b0 = 0x48
        · subst h0
          rw [if_neg (not_not.mpr rfl)]
          by_cases h1 : b1 = 0x01
          · subst h1
            rw [if_neg (not_not.mpr rfl)]
            by_cases hn : beNat [b4, b5, b6, b7] = body.length
            · rw [if_neg (not_not.mpr hn)]
              exact whole type flags b4 b5 b6 b7 body hn (eq_envelope type flags hn).2
            · rw [if_pos hn]
              exact length type flags b4 b5 b6 b7 body hn
          · rw [if_pos h1]
            exact version b1 type flags b4 b5 b6 b7 body h1
        · rw [if_pos h0]
          exact magic b0 b1 type flags b4 b5 b6 b7 body h0

/-- The checks accept what the grammar accepts. -/
theorem examine_eq_ok_iff {b : Bytes} {m : Message Entries} :
    examine b = .ok m ↔ parseFrame b = some m := by
  rcases Nat.lt_or_ge b.length 8 with hlt | hge
  · rw [examine_of_short hlt, parseFrame_eq_none_of_short hlt]
    exact ⟨nofun, nofun⟩
  · match b, hge with
    | b0 :: b1 :: type :: flags :: b4 :: b5 :: b6 :: b7 :: body, _ =>
        rw [parseFrame_cons]
        by_cases hok : b0 = 0x48 ∧ b1 = 0x01 ∧ beNat [b4, b5, b6, b7] = body.length
        · rw [if_pos hok]
          obtain ⟨rfl, rfl, hn⟩ := hok
          obtain ⟨he, hlt⟩ := eq_envelope type flags hn
          rw [he, examine_envelope type flags hlt]
          cases MsgType.ofCode? type with
          | none => exact ⟨nofun, nofun⟩
          | some t => cases hp : parsePayload t body <;> simp [hp]
        · rw [if_neg hok, examine]
          split_ifs with h0 h1 hn
          · exact ⟨nofun, nofun⟩
          · exact ⟨nofun, nofun⟩
          · exact ⟨nofun, nofun⟩
          · exact absurd ⟨not_not.mp h0, not_not.mp h1, not_not.mp hn⟩ hok

/-- A message that is accepted has its fields in the ranges of their wire types. -/
theorem ok_of_examine {b : Bytes} {m : Message Entries} (h : examine b = .ok m) : m.Ok :=
  (parseFrame_eq_some_iff.mp (examine_eq_ok_iff.mp h)).1

/-- The frame of a message is found to be that message. -/
theorem examine_frame {m : Message Entries} (hok : m.Ok) (hlen : (payload m).length < 2 ^ 32) :
    examine (frame m) = .ok m := by
  refine examine_eq_ok_iff.mpr (parseFrame_eq_some_iff.mpr ⟨hok, 0x00, [], ?_, ?_⟩)
  · rw [frame, List.append_nil]
  · rwa [List.append_nil]

/-- An unregistered type is found in an otherwise valid envelope only. -/
theorem examine_eq_unknown_iff {b : Bytes} : examine b = .error .unknownMessageType ↔
    ∃ type flags body, b = envelope type flags body ∧ body.length < 2 ^ 32 ∧
      MsgType.ofCode? type = none := by
  constructor
  · intro h
    rcases Nat.lt_or_ge b.length 8 with hlt | hge
    · rw [examine_of_short hlt] at h
      cases h
    · match b, hge with
      | b0 :: b1 :: type :: flags :: b4 :: b5 :: b6 :: b7 :: body, _ =>
          rw [examine] at h
          split_ifs at h with h0 h1 hn
          · cases h
          · cases h
          · cases h
          obtain rfl := not_not.mp h0
          obtain rfl := not_not.mp h1
          obtain ⟨he, hlt⟩ := eq_envelope type flags (not_not.mp hn)
          refine ⟨type, flags, body, he, hlt, ?_⟩
          cases htype : MsgType.ofCode? type with
          | none => rfl
          | some t =>
              rw [htype] at h
              cases hp : parsePayload t body <;> simp [hp] at h
  · rintro ⟨type, flags, body, rfl, hlt, htype⟩
    rw [examine_envelope type flags hlt, htype]

end Errors

section Serving

/-- What is particular to a server. -/
structure Host where
  language : Bytes
  hash : Int → Bytes
  /-- The error code for octets that are not a frame. -/
  code : ErrorCode → Int
  /-- The text of the error for octets that cannot be decoded. -/
  wording : ErrorCode → Bytes → Bytes
  /-- The text of the error for a message that no client sends. -/
  unexpected : MsgType → Bytes

/-- The decimal digits of a number, with a sign if it is negative. -/
def decimal (n : Int) : Bytes := utf8 (toString n)

/-- The result of an echo request. -/
def echoed (now id : Int) (tag data language : Bytes) : EchoResult KvMap :=
  ⟨now, 0, toMap [(utf8 "id", decimal id), (utf8 "data", data), (utf8 "meta", tag),
    (utf8 "lang", language)]⟩

/-- The size of the frame of an echo response: its strings and 75 octets. -/
theorem length_frame_echoed (now id : Int) (tag data language : Bytes) :
    (frame ((Message.echoResponse 200 [echoed now id tag data language]).mapKv (·.toList))).length =
      75 + (decimal id).length + data.length + tag.length + language.length := by
  have hkeys : (([(utf8 "id", decimal id), (utf8 "data", data), (utf8 "meta", tag),
      (utf8 "lang", language)] : Entries).map Prod.fst).Nodup :=
    show [utf8 "id", utf8 "data", utf8 "meta", utf8 "lang"].Nodup by decide
  have hkv := length_kv_of_listedBy (listedBy_toMap hkeys)
  have hlist : (kv [(utf8 "id", decimal id), (utf8 "data", data), (utf8 "meta", tag),
      (utf8 "lang", language)]).length =
      50 + (decimal id).length + data.length + tag.length + language.length := by
    simp only [kv, List.flatMap_cons, List.flatMap_nil, entry, List.length_append, length_string,
      length_u32, List.length_nil]
    rw [show (utf8 "id").length = 2 from rfl, show (utf8 "data").length = 4 from rfl,
      show (utf8 "meta").length = 4 from rfl, show (utf8 "lang").length = 4 from rfl]
    omega
  rw [frame, length_envelope]
  simp only [Message.mapKv, Message.mapResults, List.map_cons, List.map_nil, payload,
    List.length_append, length_i32, length_u32, List.flatMap_cons, List.flatMap_nil, echoResult,
    length_i64, length_u8, EchoResult.mapKv, echoed, List.length_nil]
  rw [hkv, hlist]
  omega

/-- The server: its memory is the language of the client, its inputs come with the time. -/
def serve (H : Host) : Reactor Bytes (Bytes × Int) (Message KvMap) := fun language input =>
  match examine input.1 with
  | .ok (.hello l) => ⟨l, [.bonjour H.language], false⟩
  | .ok (.echoRequest id tag data) =>
      ⟨language, [.echoResponse 200 [echoed input.2 id tag data language]], false⟩
  | .ok (.randomNumber id number) => ⟨language, [.hashResponse id (H.hash number)], false⟩
  | .ok (.pong _) => ⟨language, [], false⟩
  | .ok (.kissResponse _ _ _) => ⟨language, [], false⟩
  | .ok (.error _ _) => ⟨language, [], false⟩
  | .ok (.disconnect _) => ⟨language, [], true⟩
  | .ok m => ⟨language, [.error 2 (H.unexpected m.type)], false⟩
  | .error .unknownMessageType =>
      ⟨language, [.error 2 (H.wording .unknownMessageType input.1)], false⟩
  | .error e => ⟨language, [.error (H.code e) (H.wording e input.1)], true⟩

/-- At most one message answers a message. -/
theorem length_out_serve_le (H : Host) (language : Bytes) (input : Bytes × Int) :
    (serve H language input).out.length ≤ 1 := by
  rw [serve]
  split <;> simp

end Serving

section Recovery

variable {σ ι ο : Type} {R : Reactor σ ι ο} {isOpen : σ → Prop} {data : ι → Bytes}
  {error : Int → Bytes → ο} {closing : ο}

/-- The recovery rules of section 7 in a session that is open: an unregistered type is answered
and changes nothing, any other failure is answered, and then the connection is closed. -/
structure Recovers (R : Reactor σ ι ο) (isOpen : σ → Prop) (data : ι → Bytes)
    (error : Int → Bytes → ο) (closing : ο) : Prop where
  unknown : ∀ s i, isOpen s → examine (data i) = .error .unknownMessageType →
    ∃ text, R s i = ⟨s, [error 2 text], false⟩
  fatal : ∀ s i e, isOpen s → examine (data i) = .error e → e ≠ .unknownMessageType →
    ∃ text s', R s i = ⟨s', [error e.code text, closing], true⟩

/-- What a failing message adds to a run: one error of its code, and either nothing else or the
end of the run. -/
theorem Recovers.outputs (hR : Recovers R isOpen data error closing) {s : σ} {is js : List ι}
    {i : ι} {e : ErrorCode} (hgoing : stopped R s is = false) (hopen : isOpen (final R s is))
    (he : examine (data i) = .error e) : ∃ text,
      if e = .unknownMessageType then
        outputs R s (is ++ i :: js) =
            outputs R s is ++ [error e.code text] ++ outputs R (final R s is) js ∧
          final R s (is ++ [i]) = final R s is ∧ stopped R s (is ++ [i]) = false
      else
        outputs R s (is ++ i :: js) = outputs R s is ++ [error e.code text, closing] ∧
          stopped R s (is ++ [i]) = true := by
  by_cases hunknown : e = .unknownMessageType
  · subst hunknown
    obtain ⟨text, hreaction⟩ := hR.unknown _ i hopen he
    refine ⟨text, ?_⟩
    rw [if_pos rfl, outputs_append hgoing, Reactors.outputs, final_concat hgoing,
      stopped_concat hgoing, hreaction, List.append_assoc]
    exact ⟨rfl, rfl, rfl⟩
  · obtain ⟨text, s', hreaction⟩ := hR.fatal _ i e hopen he hunknown
    refine ⟨text, ?_⟩
    rw [if_neg hunknown, outputs_append hgoing, Reactors.outputs, stopped_concat hgoing, hreaction]
    exact ⟨rfl, rfl⟩

end Recovery

end HelloWebsocket.Protocol
