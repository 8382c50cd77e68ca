import HelloWebsocket.Protocol.Service
import HelloWebsocket.Python.Codec

/-!
# The Python server

The receive loop of `handle_client` of `ws_server.py`, as a machine that answers the
binary messages of the connection.

## Implementation notes

The calls of `log` are left out, and text messages, which the loop skips. A message
comes with the reading of the clock while it is handled, and `max_size` bounds it.
`send_msg` sends nothing on a closed connection. An exception of `encode` leaves the
loop. The interpreter words a `UnicodeDecodeError` in a short text.
-/

namespace HelloWebsocket.Python

open BigEndian Utf8 Protocol Reactors

section Session

/-- `hash_number` -/
def hashNumber (num : Int) : String :=
  String.ofList ((Hex.digits (Sha256.sha256 (utf8 (toString num)))).take 10)

/-- The variables of `handle_client`, and whether the connection is closed. -/
structure Session where
  clientLanguage : String
  lastPongTs : Int
  closed : Bool
  deriving DecidableEq

/-- The session after the opening handshake. -/
def Session.start (now : Int) : Session := ⟨"unknown", now, false⟩

/-- A binary message under `max_size=2**20`, and what is read from outside while it is handled:
the clock, and the text of a `UnicodeDecodeError`. -/
structure Input where
  data : Bytes
  now : Int
  explain : Bytes → String
  length_le : data.length ≤ 2 ^ 20
  isI64_now : IsI64 now
  length_explain_le : ∀ object, (utf8 (explain object)).length ≤ 100

namespace Session

/-- `send_msg` -/
def sendMsg (s : Session) (data : Bytes) : List Outgoing := if s.closed then [] else [.message data]

/-- `websocket.close(code=1002, reason="invalid protocol frame")` -/
def closing (s : Session) : List Outgoing :=
  if s.closed then [] else [.close 1002 (utf8 "invalid protocol frame")]

def close (s : Session) : Session := { s with closed := true }

/-- `await send_msg(msg.encode())`, then the next turn of the loop. -/
def respond (s : Session) (msg : Message) : Reaction Session Outgoing :=
  match encode msg with
  | .ok data => ⟨s, s.sendMsg data, false⟩
  | .error _ => ⟨s, [], true⟩

end Session

theorem nodup_keys : ["id", "idx", "data", "meta"].Nodup := by decide

/-- The result of an `ECHO_REQUEST`. -/
def echoed (s : Session) (now id : Int) (data : String) : EchoResult where
  idx := now
  type := 0
  kv := ⟨[("id", toString id), ("idx", data), ("data", data), ("meta", s.clientLanguage)], nodup_keys⟩

/-- The branches of the loop for a message that is decoded. -/
def handle (s : Session) (now : Int) : Message → Reaction Session Outgoing
  | .hello l => Session.respond { s with clientLanguage := l } (.bonjour "PYTHON")
  | .echoRequest id _ data => s.respond (.echoResponse 200 [echoed s now id data])
  | .kissResponse .. => ⟨s, [], false⟩
  | .pong _ => ⟨{ s with lastPongTs := now }, [], false⟩
  | .randomNumber id number => s.respond (.hashResponse id (hashNumber number))
  | .disconnect _ => ⟨s, [], true⟩
  | .error .. => ⟨s, [], false⟩
  | msg => s.respond (.error 0x02 ("unknown type 0x" ++ Hex.byte msg.type.code))

/-- One turn of the loop. -/
def receive : Reactor Session Input Outgoing := fun s i =>
  match decodeMessage i.data with
  | .error e =>
      let reaction := s.respond (.error e.code (e.text i.explain))
      if reaction.stop then reaction
      else if e.code = 0x02 then reaction
      else ⟨s.close, reaction.out ++ s.closing, true⟩
  | .ok msg => handle s i.now msg

end Session

section Replies

/-- What is particular to the Python server. -/
def profile : Profile where
  language := utf8 "PYTHON"
  kv := mirroredKv
  unexpected t := some (utf8 ("unknown type 0x" ++ Hex.byte t.code))
  code := ErrorCode.code
  fatal e := e ≠ .unknownMessageType

/-- A message whose frame can be read can be written. -/
theorem encodable_of_ok {m : Message} (h : (m.view listed).Ok) : Encodable m := by
  have hfits {s : String} (hs : IsText (utf8 s)) : Fits s := hs.2
  cases m with
  | echoResponse status rs =>
      obtain ⟨hstatus, hcount, hrs⟩ := h
      rw [List.length_map] at hcount
      refine ⟨hstatus, hcount, fun r hr => ?_⟩
      obtain ⟨hidx, -, hlen, htexts⟩ := hrs _ (List.mem_map_of_mem hr)
      refine ⟨hidx, by rwa [← List.length_map], fun e he => ?_⟩
      obtain ⟨hkey, hvalue⟩ := htexts _ (List.mem_map_of_mem he)
      exact ⟨hkey.2, hvalue.2⟩
  | _ =>
      simp only [Tagged.view, listed, Protocol.Message.Ok, id] at h
      simp only [Encodable, Tagged.Each]
      grind

variable {s : Session}

/-- A message that can be read is sent on an open connection. -/
theorem respond_eq (hopen : s.closed = false) {m : Message} (hrange : (m.view listed).InRange)
    (hlen : (payload (m.view listed)).length < 2 ^ 32) :
    Says (frame (m.view listed)) (m.view view) ∧
      s.respond m = ⟨s, [.message (frame (m.view listed))], false⟩ := by
  have htexts : ∀ t ∈ (m.view listed).texts, WellFormed t := fun t ht =>
    Tagged.wellFormed_of_mem_texts wellFormed_utf8 (fun r => Jvm.wellFormed_octetsOf r.kv.entries) ht
  have hcarries := says_frame hrange htexts hlen
  rw [mapKv_listed] at hcarries
  refine ⟨hcarries, ?_⟩
  rw [Session.respond, encode_eq (encodable_of_ok (Protocol.Message.ok_of_texts hrange htexts hlen)) hlen]
  simp only [Session.sendMsg, hopen]
  rfl

theorem length_payload_error_lt (code : Int) {text : String} (h : (utf8 text).length ≤ 2 ^ 21) :
    (payload ((Tagged.error code text : Message).view listed)).length < 2 ^ 32 := by
  simp only [Tagged.view, listed, payload, List.length_append, length_i32, length_string]
  omega

theorem utf8_hashNumber (num : Int) : utf8 (hashNumber num) = shortHash num :=
  utf8_take_digits_sha256 num

/-- The session stands in a state of the machine. -/
structure Stands (s : Session) (language : Bytes) : Prop where
  isOpen : s.closed = false
  remembers : utf8 s.clientLanguage = language
  short : Short language

variable {language : Bytes} {now : Int} {m : Message} {p : Protocol.Message Entries}

theorem shows_respond (hs : Stands s language) (hrange : (m.view listed).InRange)
    (hlen : (payload (m.view listed)).length < 2 ^ 32) :
    ∃ out, s.respond m = ⟨s, out, false⟩ ∧ List.Forall₂ Shows out [.message (m.view view)] := by
  obtain ⟨hcarries, hrespond⟩ := respond_eq hs.isOpen hrange hlen
  exact ⟨_, hrespond, .cons (.message hcarries) .nil⟩

theorem view_echoed (s : Session) (now id : Int) (data : String) :
    view.result (echoed s now id data) =
      ⟨now, 0, mirroredKv (decimal id) [] (utf8 data) (utf8 s.clientLanguage)⟩ :=
  rfl

theorem length_payload_hash_lt (id number : Int) :
    (payload ((Tagged.hashResponse id (hashNumber number) : Message).view listed)).length < 2 ^ 32 := by
  have hlen : (utf8 (hashNumber number)).length = 10 := by
    rw [utf8_hashNumber, length_shortHash]
  simp only [Tagged.view, listed, payload, List.length_append, length_i64, length_string, hlen]
  decide

theorem length_payload_echo_lt (now : Int) {id : Int} {data : String} (hid : Short (decimal id))
    (hdata : Short (utf8 data)) (hlanguage : Short (utf8 s.clientLanguage)) :
    (payload ((Tagged.echoResponse 200 [echoed s now id data] : Message).view listed)).length <
      2 ^ 32 := by
  have hentries := length_entries_le
    (short_mirroredEntries hid hdata hlanguage)
  change (i32 200 ++ u32 1 ++ ((i64 now ++ u8 0 ++ kv (mirroredEntries (decimal id) (utf8 data)
    (utf8 s.clientLanguage))) ++ [])).length < 2 ^ 32
  have hfour : (mirroredEntries (decimal id) (utf8 data) (utf8 s.clientLanguage)).length = 4 := rfl
  rw [hfour] at hentries
  simp only [List.length_append, length_i32, length_u32, length_i64, length_u8, kv, List.length_nil]
  omega

theorem handle_unexpected {t : MsgType} (hs : Stands s language)
    (hhandle : handle s now m = s.respond (.error 0x02 ("unknown type 0x" ++ Hex.byte t.code)))
    (hreply : reply profile language now p = (profile.unexpected t).map (.error 2)) :
    ∃ s' out, handle s now m = ⟨s', out, false⟩ ∧ Stands s' language ∧
      List.Forall₂ Shows out ((reply profile language now p).toList.map .message) := by
  have hlen : (utf8 ("unknown type 0x" ++ Hex.byte t.code)).length ≤ 2 ^ 21 := by
    rw [utf8_append, List.length_append, Hex.length_byte]
    decide
  obtain ⟨out, hrespond, hout⟩ := shows_respond
    (m := .error 0x02 ("unknown type 0x" ++ Hex.byte t.code)) hs (show IsI32 2 by decide)
      (length_payload_error_lt 2 hlen)
  rw [hhandle, hreply]
  exact ⟨s, out, hrespond, hs, hout⟩

/-- What is done with a message that is decoded, other than a `DISCONNECT`. -/
theorem handle_of_view (hs : Stands s language) (hnow : IsI64 now) (hok : p.Ok)
    (hshort : ∀ t ∈ p.strings, Short t) (hp : ∀ reason, p ≠ .disconnect reason)
    (hview : m.view view = p.mapKv toMap) :
    ∃ s' out, handle s now m = ⟨s', out, false⟩ ∧ Stands s' (remembered language p) ∧
      List.Forall₂ Shows out ((reply profile language now p).toList.map .message) := by
  cases m with
  | hello l =>
      cases p <;> cases hview
      have hs' : Stands { s with clientLanguage := l } (utf8 l) :=
        ⟨hs.isOpen, rfl, hshort _ List.mem_cons_self⟩
      obtain ⟨out, hrespond, hout⟩ := shows_respond (m := .bonjour "PYTHON") hs' trivial (by decide)
      exact ⟨_, out, hrespond, hs', hout⟩
  | echoRequest id tag data =>
      cases p <;> cases hview
      have hrange : ((Tagged.echoResponse 200 [echoed s now id data] : Message).view listed).InRange := by
        refine ⟨by decide, fun r hr => ?_⟩
        rw [List.mem_singleton.mp hr]
        exact ⟨hnow, show IsU8 0 by decide⟩
      have hdata : Short (utf8 data) := hshort _ (List.mem_cons_of_mem _ List.mem_cons_self)
      obtain ⟨out, hrespond, hout⟩ := shows_respond hs hrange
        (length_payload_echo_lt now (short_decimal hok.1) hdata (hs.remembers ▸ hs.short))
      have hsaid : (Tagged.echoResponse 200 [echoed s now id data] : Message).view view =
          .echoResponse 200 [⟨now, 0, mirroredKv (decimal id) (utf8 tag) (utf8 data) language⟩] := by
        rw [← hs.remembers]
        rfl
      rw [hsaid] at hout
      exact ⟨s, out, hrespond, hs, hout⟩
  | randomNumber id number =>
      cases p <;> cases hview
      obtain ⟨out, hrespond, hout⟩ := shows_respond (m := .hashResponse id (hashNumber number)) hs
        hok.1 (length_payload_hash_lt id number)
      have hsaid : (Tagged.hashResponse id (hashNumber number) : Message).view view =
          .hashResponse id (shortHash number) :=
        congrArg (Protocol.Message.hashResponse id) (utf8_hashNumber number)
      rw [hsaid] at hout
      exact ⟨s, out, hrespond, hs, hout⟩
  | kissResponse | error =>
      cases p <;> cases hview
      exact ⟨s, [], rfl, hs, .nil⟩
  | pong =>
      cases p <;> cases hview
      exact ⟨_, [], rfl, ⟨hs.isOpen, hs.remembers, hs.short⟩, .nil⟩
  | disconnect reason =>
      cases p <;> cases hview
      exact absurd rfl (hp _)
  | bonjour | echoResponse | kissRequest | ping | timeNotification | hashResponse =>
      have htype := congrArg Protocol.Message.type hview
      cases p <;> cases htype
      exact handle_unexpected hs rfl rfl

end Replies

section Turns

variable {s : Session} {language : Bytes} {i : Input}

theorem receive_of_ok (hs : Stands s language) {p : Protocol.Message Entries}
    (h : examine i.data = .ok p) (hp : ∀ reason, p ≠ .disconnect reason) :
    ∃ s' out, receive s i = ⟨s', out, false⟩ ∧ Stands s' (remembered language p) ∧
      List.Forall₂ Shows out ((reply profile language i.now p).toList.map .message) := by
  have hspec := decodeMessage_examine i.data
  rw [h] at hspec
  obtain ⟨m, hm, hview⟩ := hspec
  have hhandle := handle_of_view hs i.isI64_now (ok_of_examine h)
    (fun _ ht => short_of_examine i.length_le h ht) hp hview
  rwa [receive, hm]

/-- A message that is not decoded is answered with the error of the first check it fails. -/
theorem receive_of_error (hopen : s.closed = false) {e : ErrorCode} (h : examine i.data = .error e) :
    ∃ text, Says (frame (.error e.code text)) (.error e.code text) ∧ receive s i =
      if e = .unknownMessageType then ⟨s, [.message (frame (.error e.code text))], false⟩
      else ⟨s.close, [.message (frame (.error e.code text)),
        .close 1002 (utf8 "invalid protocol frame")], true⟩ := by
  have hspec := decodeMessage_examine i.data
  rw [h] at hspec
  obtain ⟨exc, hexc, hcode, hshort⟩ := hspec
  have hlen : (utf8 (exc.text i.explain)).length ≤ 2 ^ 21 := by
    have hle := hshort i.explain i.length_explain_le
    have hdata := i.length_le
    omega
  have hrange : IsI32 e.code := by cases e <;> decide
  obtain ⟨hcarries, hrespond⟩ := respond_eq (m := .error e.code (exc.text i.explain)) hopen hrange
    (length_payload_error_lt e.code hlen)
  refine ⟨utf8 (exc.text i.explain), hcarries, ?_⟩
  have hunknown : e.code = 0x02 ↔ e = .unknownMessageType := by cases e <;> decide
  rw [receive, hexc]
  simp only [hcode, hrespond, Session.closing, hopen]
  rw [if_neg Bool.false_ne_true]
  exact if_congr hunknown rfl rfl

theorem next_respond (s : Session) (m : Message) : (s.respond m).next = s := by
  rw [Session.respond]
  split <;> rfl

theorem closed_handle (s : Session) (now : Int) (m : Message) :
    (handle s now m).next.closed = s.closed := by
  cases m <;> simp only [handle, next_respond]

/-- The connection is open while the loop runs. -/
theorem isOpen_of_going {now : Int} {is : List Input}
    (h : stopped receive (.start now) is = false) : (final receive (.start now) is).closed = false := by
  have hturn (s : Session) (i : Input) (hstop : (receive s i).stop = false) :
      (receive s i).next.closed = s.closed := by
    rw [receive] at hstop ⊢
    split at hstop
    · dsimp only at hstop
      split at hstop
      next hraised => rw [hraised] at hstop; cases hstop
      split at hstop
      next hgoing hunknown =>
        dsimp only
        rw [if_neg hgoing, if_pos hunknown, next_respond]
      · cases hstop
    · exact closed_handle s i.now _
  exact final_of_going (P := fun s => s.closed = false)
    (fun s i hstop hopen => (hturn s i hstop).trans hopen) rfl h

/-- The server follows the recovery rules. -/
theorem recovers_receive : Recovers receive (fun s => s.closed = false) Input.data
    (fun code text => .message (frame (.error code text)))
    (.close 1002 (utf8 "invalid protocol frame")) where
  unknown s i hopen he := by
    obtain ⟨text, -, hreceive⟩ := receive_of_error hopen he
    exact ⟨text, by rw [hreceive, if_pos rfl]; rfl⟩
  fatal s i e hopen he hne := by
    obtain ⟨text, -, hreceive⟩ := receive_of_error hopen he
    exact ⟨text, s.close, by rw [hreceive, if_neg hne]⟩

end Turns

end HelloWebsocket.Python
