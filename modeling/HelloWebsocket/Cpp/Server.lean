import HelloWebsocket.Cpp.RoundTrip
import HelloWebsocket.Cpp.Threads
import HelloWebsocket.Cpp.Errors
import HelloWebsocket.Cpp.Utility

/-!
# The C++ server

`handleClient` of `ws_server.cpp` as a program for the threads of a session, and the
step of its receive loop as an implementation of the protocol's server.

## Implementation notes

The calls of `log` and the variable `sessionId`, which only they read, are left out.
`size_t` has 64 bits and the operating system is Linux. The time thread reads the clock
twice; the second reading is the number that the step of the thread draws.
-/

namespace HelloWebsocket.Cpp.Server

open Utf8 Protocol Threads Reactors

section Program

/-- The threads that send. -/
inductive Background
  | ping | time | kiss
  deriving DecidableEq

instance : Fintype Background := ⟨{.ping, .time, .kiss}, fun b => by cases b <;> decide⟩

/-- The variables of `handleClient` that the receive loop assigns. -/
structure Vars where
  clientLanguage : Bytes
  lastPongTs : Int64
  deriving DecidableEq

/-- `m.encode()`, for a message of a registered type. -/
def encoded (m : Message KvMap) : Bytes :=
  match (m.mapKv (·.toList)).encode with
  | .ok data => data
  | .error _ => []

/-- `Message m{}; m.type = t;` -/
def blank (t : MsgType) : Message KvMap := { Message.zero with type := t.code }

def errorMessage (code : Int32) (text : String) : Message KvMap :=
  { blank .error with errorCode := code, errorMessage := utf8 text }

/-- The `catch` around `decodeMessage`. -/
def handleFailure (v : Vars) (what : String) : Effect Vars :=
  let unknown := isUnknown what
  ⟨v, some (encoded (errorMessage (if unknown then 2 else 1) what)), !unknown⟩

/-- The result of an `ECHO_REQUEST`. -/
def echoResult (v : Vars) (now : Int64) (msg : Message KvMap) : EchoResult KvMap where
  idx := now
  type := 0
  kv := ((((∅ : KvMap).insert (utf8 "id") (utf8 (toString msg.echoId.toInt))).insert
    (utf8 "data") msg.echoData).insert (utf8 "meta") msg.echoMeta).insert
    (utf8 "lang") v.clientLanguage

/-- The `switch` of the receive loop. -/
def handleMessage (v : Vars) (now : Int64) (msg : Message KvMap) : Effect Vars :=
  match MsgType.ofCode? msg.type with
  | some .hello => ⟨{ v with clientLanguage := msg.clientLanguage },
      some (encoded { blank .bonjour with serverLanguage := utf8 "CPP" }), false⟩
  | some .echoRequest => ⟨v, some (encoded
      { blank .echoResponse with echoStatus := 200, echoResults := [echoResult v now msg] }), false⟩
  | some .kissResponse => ⟨v, none, false⟩
  | some .pong => ⟨{ v with lastPongTs := now }, none, false⟩
  | some .randomNumber => ⟨v, some (encoded { blank .hashResponse with
      randomId := msg.randomId
      hashHex := hashNumber msg.randomNumber }), false⟩
  | some .disconnect => ⟨v, none, true⟩
  | some .error => ⟨v, none, false⟩
  | _ => ⟨v, some (encoded
      (errorMessage 2 ("unknown type 0x" ++ Hex.signed msg.type.toNat))), false⟩

/-- The body of the receive loop after `wsRecvFrame`. -/
def handle (v : Vars) (now : Int64) (data : Bytes) : Effect Vars :=
  match decodeMessage 64 data with
  | .ok msg => handleMessage v now msg
  | .error (.runtimeError what) => handleFailure v what
  -- The decoder reads inside its buffer only.
  | .error .outOfBounds => ⟨v, none, true⟩

/-- The message of a thread. -/
def message (now number : Int64) : Background → Message KvMap
  | .ping => { blank .ping with timestampMs := now }
  | .time => { blank .timeNotification with timestampMs := now, iso8601 := nowISO number }
  | .kiss => { blank .kissRequest with
      osName := utf8 "Linux"
      osVersion := utf8 "unknown"
      osRelease := utf8 "unknown"
      osArch := utf8 "x86_64" }

/-- `SESSION_TIMEOUT_MS` -/
def sessionTimeoutMs : Int64 := 60000

/-- `handleClient` -/
def server : Program Background Vars Unit where
  masked := false
  prologue := [.spawn]
  epilogue := [.clear, .close, .join]
  initial now := ⟨utf8 "unknown", now⟩
  handle := handle
  counter _ := ()
  advance _ _ := ()
  build b _ now number := encoded (message now number b)
  watches := true
  expired v now := decide (now - v.lastPongTs > sessionTimeoutMs)

end Program

section Session

/-- What the C++ server fills in: the text of a decoding error is that of the exception. -/
def host : Host where
  language := utf8 "CPP"
  hash n := hashNumber (Int64.ofInt n)
  code _ := 1
  wording _ data := match decodeMessage 64 data with
    | .error (.runtimeError what) => utf8 what
    | _ => []
  unexpected t := utf8 ("unknown type 0x" ++ Hex.signed t.code.toNat)

/-- The octets of a message whose maps are written in the order of their keys. -/
def octets (m : Protocol.Message KvMap) : Bytes := frame (m.mapKv (·.toList))

theorem encoded_eq {m : Message KvMap} {p : Protocol.Message KvMap} (hp : m.view = some p) :
    encoded m = octets p := by
  have hview : (m.mapKv (·.toList)).view = some (p.mapKv (·.toList)) := by
    rw [view_mapKv, hp]
    rfl
  rw [encoded, encode_eq hview]
  rfl

theorem encoded_errorMessage (code : Int32) (text : String) :
    encoded (errorMessage code text) = octets (.error code.toInt (utf8 text)) :=
  encoded_eq rfl

theorem encoded_echoResponse (v : Vars) (now : Int64) (msg : Message KvMap) :
    encoded { blank .echoResponse with echoStatus := 200, echoResults := [echoResult v now msg] } =
      octets (.echoResponse 200
        [echoed now.toInt msg.echoId.toInt msg.echoMeta msg.echoData v.clientLanguage]) :=
  encoded_eq rfl

theorem encoded_hashResponse (id : Int64) (hash : Bytes) :
    encoded { blank .hashResponse with randomId := id, hashHex := hash } =
      octets (.hashResponse id.toInt hash) :=
  encoded_eq rfl

/-- The timestamp of a `PONG`. -/
def pong? (data : Bytes) : Option Int :=
  match examine data with
  | .ok (.pong t) => some t
  | _ => none

/-- The variable `lastPongTs` after a message: every `PONG` sets it. -/
def pongTime (v : Vars) (now : Int64) (data : Bytes) : Int64 :=
  if (pong? data).isSome then now else v.lastPongTs

/-- The effect of a message as the protocol's server has it. -/
def specified (v : Vars) (now : Int64) (data : Bytes) : Effect Vars :=
  let r := serve host v.clientLanguage (data, now.toInt)
  ⟨⟨r.next, pongTime v now data⟩, (r.out.map octets).head?, r.stop⟩

theorem handleFailure_eq (v : Vars) (now : Int64) {data : Bytes} {e : ErrorCode} {what : String}
    (hexamine : examine data = .error e) (hdecode : decodeMessage 64 data = .error (.runtimeError what))
    (hwhat : what ∈ textsOf e data) : handleFailure v what = specified v now data := by
  have hwording : host.wording e data = utf8 what := by
    rw [host]
    simp only [hdecode]
  have hunknown := isUnknown_iff hwhat
  rw [handleFailure, specified, pongTime, pong?, serve]
  simp only [hexamine]
  cases e with
  | unknownMessageType =>
      rw [hunknown.mpr rfl, encoded_errorMessage, hwording]
      rfl
  | _ =>
      have hother : isUnknown what = false := by
        rw [← Bool.not_eq_true, hunknown]
        decide
      rw [hother, encoded_errorMessage]
      simp only [hwording]
      rfl

theorem handleMessage_eq (v : Vars) (now : Int64) {data : Bytes} {p : Protocol.Message Entries}
    {m : Message KvMap} (hexamine : examine data = .ok p) (hview : m.view = some (p.mapKv toMap)) :
    handleMessage v now m = specified v now data := by
  have htype : m.type = p.type.code := by
    rw [type_of_view hview]
    exact congrArg MsgType.code (Message.type_mapResults _ p)
  obtain ⟨t, ht, hfields⟩ := Option.bind_eq_some_iff.mp hview
  rw [htype, MsgType.ofCode?_code] at ht
  cases ht
  rw [handleMessage, htype, MsgType.ofCode?_code, specified, pongTime, pong?, serve]
  simp only [hexamine]
  cases p with
  | hello l =>
      cases hfields
      dsimp only [Message.type]
      rw [encoded_eq (p := .bonjour (utf8 "CPP")) rfl]
      rfl
  | echoRequest id tag data =>
      cases hfields
      rw [encoded_echoResponse]
      rfl
  | randomNumber id number =>
      cases hfields
      rw [encoded_hashResponse]
      simp only [host, Int64.ofInt_toInt]
      rfl
  | pong | kissResponse | error | disconnect => rfl
  | _ =>
      rw [encoded_errorMessage]
      rfl

/-- Every message has the effect that the protocol's server specifies. -/
theorem handle_eq (v : Vars) (now : Int64) (data : Bytes) :
    handle v now data = specified v now data := by
  have hspec := decodeMessage_examine (w := 64) (by decide) data
  cases hexamine : examine data with
  | ok p =>
      rw [hexamine] at hspec
      obtain ⟨m, hm, hview⟩ := hspec
      rw [handle, hm]
      exact handleMessage_eq v now hexamine hview
  | error e =>
      rw [hexamine] at hspec
      obtain ⟨what, hdecode, hwhat⟩ := hspec
      rw [handle, hdecode]
      exact handleFailure_eq v now hexamine hdecode hwhat

end Session

end HelloWebsocket.Cpp.Server
