import HelloWebsocket.Wire.Calendar
import HelloWebsocket.Wire.Sha256
import HelloWebsocket.Go.Encode
import HelloWebsocket.Go.Errors

/-!
# The Go server

The receive loop of `handleWebSocket` of `main.go` with `handleMessage`, as a machine
that answers the messages of `ReadMessage`, and the loop of `timeTask`.

## Implementation notes

The calls of `Log` and the fields of a session that only they read are left out. A
message comes with the reading of the clock and the order of map keys while it is
handled, and the read limit of the connection bounds it. `ReadMessage` may return
messages that were buffered before the connection was closed; `Send` then sends
nothing. The clock counts nanoseconds in 64 bits, and `Format` writes the time of its
second in the four-digit years of that range.
-/

namespace HelloWebsocket.Go

open Utf8 Protocol Reactors Calendar

section Utility

/-- What `time.Now()` returns, in nanoseconds since 1970. -/
structure Instant where
  ns : Int
  inRange : |ns| ≤ 9223372036854775807

/-- `NowMs` -/
def nowMs (t : Instant) : Int64 := Int64.ofInt (t.ns / 1000000)

/-- `NowISO` -/
def nowISO (t : Instant) : Bytes := (Moment.atSecond (t.ns / 1000000000)).text

/-- `HashNumber` -/
def hashNumber (num : Int64) : Bytes :=
  ((Sha256.sha256 (utf8 (toString num))).take 5).flatMap fun b => utf8 (Hex.byte b)

theorem toInt_nowMs (t : Instant) : (nowMs t).toInt = t.ns / 1000000 := by
  have h := t.inRange
  rw [abs_le] at h
  exact Int64.toInt_ofInt_of_le (by omega) (by omega)

theorem length_hashNumber (num : Int64) : (hashNumber num).length = 10 := by
  rw [hashNumber, List.length_flatMap, List.map_congr_left (g := fun _ => 2) fun b _ => Hex.length_byte b,
    List.map_const', List.sum_replicate, List.length_take, Sha256.length_sha256]
  rfl

end Utility

section Session

/-- `Session` -/
structure Session where
  clientLanguage : Bytes
  lastPongTs : Int64
  closed : Bool
  deriving DecidableEq

/-- The session after the upgrade. -/
def Session.start (now : Instant) : Session := ⟨[], nowMs now, false⟩

/-- What is sent on the connection. -/
inductive Sent
  | message (data : Bytes)
  | close (status : Nat) (reason : Bytes)
  deriving DecidableEq

/-- A message that `ReadMessage` returns under `SetReadLimit(1 << 20)`, and what is read from
outside while it is handled. -/
structure Input where
  data : Bytes
  now : Instant
  order : Iteration
  length_le : data.length ≤ 2 ^ 20

namespace Session

/-- `Send` -/
def send (s : Session) (data : Bytes) : List Sent := if s.closed then [] else [.message data]

/-- `WriteControl` with the status `CloseProtocolError` -/
def writeClose (s : Session) : List Sent :=
  if s.closed then [] else [.close 1002 (utf8 "invalid protocol frame")]

/-- `Close` -/
def close (s : Session) : Session := { s with closed := true }

end Session

/-- The result of an `ECHO_REQUEST`. -/
def echoResult (s : Session) (now : Instant) (req : EchoRequest) : EchoResult where
  idx := nowMs now
  type := 0
  kv := toMap [(utf8 "id", utf8 (toString req.id)), (utf8 "idx", req.data),
    (utf8 "data", req.data), (utf8 "meta", s.clientLanguage)]

/-- `handleMessage`; there is no result if a pointer is `nil`. -/
def handleMessage (s : Session) (now : Instant) (order : Iteration) (msg : Message) :
    Option (Session × List Sent) :=
  match MsgType.ofCode? msg.type with
  | some .hello => do
      let hello ← msg.hello
      pure ({ s with clientLanguage := hello.clientLanguage },
        s.send (Bonjour.encode ⟨utf8 "GO"⟩))
  | some .echoRequest => do
      let req ← msg.echoReq
      pure (s, s.send (EchoResponse.encode order ⟨200, [echoResult s now req]⟩))
  | some .kissResponse => do
      let _ ← msg.kissResp
      pure (s, [])
  | some .pong => do
      let _ ← msg.pong
      pure ({ s with lastPongTs := nowMs now }, [])
  | some .randomNumber => do
      let rn ← msg.random
      pure (s, s.send (HashResponse.encode ⟨rn.id, hashNumber rn.number⟩))
  | some .disconnect => do
      let _ ← msg.disconnect
      pure (s.close, [])
  | some .error => do
      let _ ← msg.error
      pure (s, [])
  | _ => pure (s, s.send (ErrorMsg.encode ⟨0x02, utf8 ("unknown type 0x" ++ Hex.byte msg.type)⟩))

/-- The body of the receive loop after `ReadMessage`. Leaving the loop closes the session, and so
does a panic. -/
def receive : Reactor Session Input Sent := fun s i =>
  match decodeMessage i.data with
  | .error err =>
      let errMsg : ErrorMsg := ⟨err.code, utf8 err.text⟩
      if err.code = 0x02 then ⟨s, s.send errMsg.encode, false⟩
      else ⟨s.close, s.send errMsg.encode ++ s.writeClose, true⟩
  | .ok msg =>
      match handleMessage s i.now i.order msg with
      | some (s', out) => ⟨s', out, false⟩
      | none => ⟨s.close, [], true⟩

end Session

section Effects

/-- The size of the frame of an echo response: its strings and 74 octets. -/
theorem length_encode_echoResponse (order : Iteration) (s : Session) (now : Instant)
    (req : EchoRequest) : (EchoResponse.encode order ⟨200, [echoResult s now req]⟩).length =
      74 + (utf8 (toString req.id)).length + 2 * req.data.length + s.clientLanguage.length := by
  have hkeys : (([(utf8 "id", utf8 (toString req.id)), (utf8 "idx", req.data),
      (utf8 "data", req.data), (utf8 "meta", s.clientLanguage)] : Entries).map Prod.fst).Nodup :=
    show [utf8 "id", utf8 "idx", utf8 "data", utf8 "meta"].Nodup by decide
  have hentries := length_kv_of_listedBy (listedBy_entries order (echoResult s now req).kv)
  have hlisted := length_kv_of_listedBy (listedBy_toMap hkeys)
  have hlist : (kv [(utf8 "id", utf8 (toString req.id)), (utf8 "idx", req.data),
      (utf8 "data", req.data), (utf8 "meta", s.clientLanguage)]).length =
      49 + (utf8 (toString req.id)).length + 2 * req.data.length + s.clientLanguage.length := by
    simp only [kv, List.flatMap_cons, List.flatMap_nil, entry, List.length_append, length_string,
      length_u32, List.length_nil]
    rw [show (utf8 "id").length = 2 from rfl, show (utf8 "idx").length = 3 from rfl,
      show (utf8 "data").length = 4 from rfl, show (utf8 "meta").length = 4 from rfl]
    omega
  have hkv : (kv (order.entries (echoResult s now req).kv)).length =
      49 + (utf8 (toString req.id)).length + 2 * req.data.length + s.clientLanguage.length := by
    rw [← hentries, ← hlist, ← hlisted]
    rfl
  rw [EchoResponse.encode_eq, frame, length_envelope]
  simp only [payload, List.map_cons, List.map_nil, List.flatMap_cons, List.flatMap_nil,
    Protocol.echoResult, List.length_append, length_i32, length_u32, length_i64, length_u8,
    List.length_nil, EchoResult.view, Protocol.EchoResult.mapKv, hkv]
  omega

/-- What the session does with a message that has been decoded, and the answer. -/
def effect (s : Session) (now : Instant) (order : Iteration) :
    Protocol.Message KvMap → Session × Option Bytes
  | .hello l => ({ s with clientLanguage := l }, some (frame (.bonjour (utf8 "GO"))))
  | .echoRequest id tag data => (s, some (EchoResponse.encode order
      ⟨200, [echoResult s now ⟨Int64.ofInt id, tag, data⟩]⟩))
  | .kissResponse .. => (s, none)
  | .pong _ => ({ s with lastPongTs := nowMs now }, none)
  | .randomNumber id number => (s, some (frame (.hashResponse id (hashNumber (Int64.ofInt number)))))
  | .disconnect _ => (s.close, none)
  | .error .. => (s, none)
  | m => (s, some (frame (.error 2 (utf8 ("unknown type 0x" ++ Hex.byte m.type.code)))))

theorem handleMessage_eq (s : Session) (now : Instant) (order : Iteration) {m : Message}
    {p : Protocol.Message KvMap} (hview : m.view = some p) :
    handleMessage s now order m =
      some ((effect s now order p).1, (effect s now order p).2.toList.flatMap s.send) := by
  obtain ⟨t, ht, hfields⟩ := Option.bind_eq_some_iff.mp hview
  have hcode := MsgType.ofCode?_eq_some_iff.mp ht
  rw [handleMessage, ht]
  cases t with
  | hello =>
      obtain ⟨x, hx, rfl⟩ := Option.map_eq_some_iff.mp hfields
      simp [hx, effect, Bonjour.encode_eq]
  | echoRequest =>
      obtain ⟨x, hx, rfl⟩ := Option.map_eq_some_iff.mp hfields
      simp [hx, effect]
  | randomNumber =>
      obtain ⟨x, hx, rfl⟩ := Option.map_eq_some_iff.mp hfields
      simp [hx, effect, HashResponse.encode_eq]
  | kissResponse | pong | disconnect | error =>
      obtain ⟨x, hx, rfl⟩ := Option.map_eq_some_iff.mp hfields
      simp [hx, effect]
  | bonjour | echoResponse | kissRequest | ping | timeNotification | hashResponse =>
      obtain ⟨x, hx, rfl⟩ := Option.map_eq_some_iff.mp hfields
      simp [effect, ErrorMsg.encode_eq, ← hcode, Protocol.Message.type]

variable (s : Session) (i : Input)

/-- A message that is decoded is handled. -/
theorem receive_of_ok {p : Protocol.Message Entries} (h : examine i.data = .ok p) :
    receive s i = ⟨(effect s i.now i.order (p.mapKv toMap)).1,
      (effect s i.now i.order (p.mapKv toMap)).2.toList.flatMap s.send, false⟩ := by
  have hspec := decodeMessage_examine i.data (i.length_le.trans_lt (by decide))
  rw [h] at hspec
  obtain ⟨m, hm, hview⟩ := hspec
  rw [receive, hm]
  dsimp only
  rw [handleMessage_eq s i.now i.order hview]

/-- A message that is not decoded is answered with the error of the first check it fails. -/
theorem receive_of_error_text {e : ErrorCode} (h : examine i.data = .error e) :
    ∃ text : String, (utf8 text).length ≤ 80 ∧ receive s i =
      if e = .unknownMessageType then ⟨s, s.send (frame (.error e.code (utf8 text))), false⟩
      else ⟨s.close, s.send (frame (.error e.code (utf8 text))) ++ s.writeClose, true⟩ := by
  have hspec := decodeMessage_examine i.data (i.length_le.trans_lt (by decide))
  rw [h] at hspec
  obtain ⟨err, herr, hcode, hshort, -⟩ := hspec
  refine ⟨err.text, hshort, ?_⟩
  have hunknown : err.code = 0x02 ↔ e = .unknownMessageType := by
    rw [← Int32.toInt_inj, hcode]
    cases e <;> decide
  rw [receive, herr]
  dsimp only
  rw [ErrorMsg.encode_eq, hcode]
  exact if_congr hunknown rfl rfl

theorem receive_of_error {e : ErrorCode} (h : examine i.data = .error e) :
    ∃ text : Bytes, text.length ≤ 80 ∧ receive s i =
      if e = .unknownMessageType then ⟨s, s.send (frame (.error e.code text)), false⟩
      else ⟨s.close, s.send (frame (.error e.code text)) ++ s.writeClose, true⟩ := by
  obtain ⟨text, hshort, hreceive⟩ := receive_of_error_text s i h
  exact ⟨utf8 text, hshort, hreceive⟩

/-- The server follows the recovery rules. -/
theorem recovers_receive : Recovers receive (fun s => s.closed = false) Input.data
    (fun code text => .message (frame (.error code text)))
    (.close 1002 (utf8 "invalid protocol frame")) where
  unknown s i hopen he := by
    obtain ⟨text, -, hreceive⟩ := receive_of_error s i he
    refine ⟨text, ?_⟩
    rw [hreceive, if_pos rfl, Session.send, hopen]
    rfl
  fatal s i e hopen he hne := by
    obtain ⟨text, -, hreceive⟩ := receive_of_error s i he
    refine ⟨text, s.close, ?_⟩
    rw [hreceive, if_neg hne, Session.send, Session.writeClose, hopen]
    rfl

end Effects

section Tasks

/-- What a turn of the loop of `timeTask` finds: whether the session is done or closed, and two
readings of the clock. -/
structure Tick where
  done : Bool
  closed : Bool
  first : Instant
  second : Instant

/-- The message of `timeTask`. -/
def timeNotification (t : Tick) : TimeNotification := ⟨nowMs t.first, nowISO t.second⟩

/-- What `timeTask` sends. -/
def timeTask : List Tick → List Bytes
  | [] => []
  | t :: ts =>
      if t.done then []
      else if t.closed then timeTask ts
      else (timeNotification t).encode :: timeTask ts

theorem mem_timeTask {ts : List Tick} {data : Bytes} (h : data ∈ timeTask ts) :
    ∃ t ∈ ts, data = (timeNotification t).encode ∧
      data = frame (.timeNotification (t.first.ns / 1000000) (nowISO t.second)) := by
  induction ts with
  | nil => cases h
  | cons t ts ih =>
      rw [timeTask] at h
      split at h
      · cases h
      split at h
      · obtain ⟨u, hu, hdata⟩ := ih h
        exact ⟨u, List.mem_cons_of_mem t hu, hdata⟩
      · rcases List.mem_cons.mp h with rfl | h
        · refine ⟨t, List.mem_cons_self, rfl, ?_⟩
          rw [TimeNotification.encode_eq, ← toInt_nowMs]
          rfl
        · obtain ⟨u, hu, hdata⟩ := ih h
          exact ⟨u, List.mem_cons_of_mem t hu, hdata⟩

end Tasks

end HelloWebsocket.Go
