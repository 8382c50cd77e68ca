import HelloWebsocket.Cpp.Contents
import HelloWebsocket.Cpp.Server

/-!
# The C++ client

`tryConnect` of `ws_client.cpp` after the handshake, as a program for the threads of a
session.

## Implementation notes

The calls of `log` and the results they print are left out. A message that cannot be
decoded is skipped, and so is a message of a type that the client does not answer. The
number of a `RANDOM_NUMBER` is the one that the step of the thread draws.
-/

namespace HelloWebsocket.Cpp.Client

open Utf8 Protocol Threads Server

section Program

/-- The thread that sends. -/
inductive Background
  | random
  deriving DecidableEq

instance : Fintype Background := ⟨{.random}, fun b => by cases b; decide⟩

/-- The `switch` of the receive loop. -/
def handleMessage (msg : Message KvMap) : Effect Unit :=
  match MsgType.ofCode? msg.type with
  | some .ping => ⟨(), some (encoded { blank .pong with timestampMs := msg.timestampMs }), false⟩
  | some .kissRequest => ⟨(), some (encoded { blank .kissResponse with
      kissLanguage := utf8 "en_US"
      kissEncoding := utf8 "UTF-8"
      kissTimeZone := utf8 "UTC" }), false⟩
  | some .disconnect => ⟨(), none, true⟩
  | _ => ⟨(), none, false⟩

/-- The body of the receive loop after `wsRecvFrame`. -/
def handle (data : Bytes) : Effect Unit :=
  match decodeMessage 64 data with
  | .ok msg => handleMessage msg
  | .error _ => ⟨(), none, false⟩

/-- `HELLO` -/
def greeting : Bytes := encoded { blank .hello with clientLanguage := utf8 "CPP" }

/-- `DISCONNECT` -/
def farewell : Bytes := encoded { blank .disconnect with disconnectReason := utf8 "client shutdown" }

/-- `tryConnect` -/
def client : Program Background Unit Int64 where
  masked := true
  prologue := [.send greeting, .spawn]
  epilogue := [.clear, .join, .send farewell, .control ⟨true, 8, []⟩, .close]
  initial _ := ()
  handle _ _ := handle
  counter _ := 1
  advance _ id := id + 1
  build _ id _ number := encoded { blank .randomNumber with randomId := id, randomNumber := number }
  watches := false
  expired _ _ := false

end Program

section Messages

/-- What the client answers to a message. -/
def answer (m : Protocol.Message Entries) : Option (Protocol.Message KvMap) :=
  match m with
  | .ping t => some (.pong t)
  | .kissRequest .. => some (.kissResponse (utf8 "en_US") (utf8 "UTF-8") (utf8 "UTC"))
  | _ => none

/-- The message ends the session. -/
def parts (m : Protocol.Message Entries) : Bool :=
  match m with
  | .disconnect _ => true
  | _ => false

theorem handle_of_error {data : Bytes} {e : ErrorCode} (h : examine data = .error e) :
    handle data = ⟨(), none, false⟩ := by
  have hspec := decodeMessage_examine (w := 64) (by decide) data
  rw [h] at hspec
  obtain ⟨what, hdecode, -⟩ := hspec
  rw [handle, hdecode]

/-- Every message has the effect of what it says. -/
theorem handle_of_ok {data : Bytes} {m : Protocol.Message Entries} (h : examine data = .ok m) :
    handle data = ⟨(), (answer m).map octets, parts m⟩ := by
  have hspec := decodeMessage_examine (w := 64) (by decide) data
  rw [h] at hspec
  obtain ⟨msg, hdecode, hview⟩ := hspec
  have htype : msg.type = m.type.code := by
    rw [type_of_view hview]
    exact congrArg MsgType.code (Message.type_mapResults _ m)
  obtain ⟨t, ht, hfields⟩ := Option.bind_eq_some_iff.mp hview
  rw [htype, MsgType.ofCode?_code] at ht
  cases ht
  rw [handle, hdecode]
  dsimp only
  rw [handleMessage, htype, MsgType.ofCode?_code]
  cases m with
  | ping t =>
      cases hfields
      dsimp only [Protocol.Message.type]
      rw [encoded_eq (p := .pong msg.timestampMs.toInt) rfl]
      rfl
  | kissRequest n v r a =>
      dsimp only [Protocol.Message.type]
      rw [encoded_eq (p := .kissResponse (utf8 "en_US") (utf8 "UTF-8") (utf8 "UTC")) rfl]
      rfl
  | _ => rfl

theorem greeting_eq : greeting = octets (.hello (utf8 "CPP")) := encoded_eq rfl

theorem farewell_eq : farewell = octets (.disconnect (utf8 "client shutdown")) := encoded_eq rfl

theorem build_eq (b : Background) (id now number : Int64) :
    client.build b id now number = octets (.randomNumber id.toInt number.toInt) := by
  change encoded { blank .randomNumber with randomId := id, randomNumber := number } = _
  exact encoded_eq rfl

end Messages

end HelloWebsocket.Cpp.Client
