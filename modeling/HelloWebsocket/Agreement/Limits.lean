import HelloWebsocket.Cpp.Bounds
import HelloWebsocket.Go.Server

/-!
# Replies and the limit on messages

A message has at most 1 MiB. Of the replies of the Go and the C++ server only the echo
of a request grows with what the client has sent: the Go server writes the data of the
request twice, the C++ server once beside the tag, and both add the language of the
last `HELLO` and the framing of a map with four entries. So a request within the limit
can have a reply beyond it.
-/

namespace HelloWebsocket.Go

open Utf8 Protocol Ws

/-- The echo of the Go server to a request stays within the limit. -/
def Session.EchoFits (s : Session) (data : Bytes) : Prop :=
  ∀ id tag text, examine data = .ok (.echoRequest id tag text) →
    74 + (decimal id).length + 2 * text.length + s.clientLanguage.length ≤ limit

theorem mem_send {s : Session} {data r : Bytes} :
    Sent.message r ∈ s.send data ↔ s.closed = false ∧ r = data := by
  rw [Session.send]
  cases s.closed <;> simp

theorem not_mem_writeClose (s : Session) (r : Bytes) : Sent.message r ∉ s.writeClose := by
  rw [Session.writeClose]
  split <;> simp

theorem length_frame_error (code : Int) (text : Bytes) :
    (frame (.error code text : Protocol.Message Entries)).length = 16 + text.length := by
  simp only [frame, length_envelope, payload, List.length_append, length_i32, length_string]
  omega

/-- What an open session answers to a message that is decoded, other than an echo, is short. -/
theorem length_effect_le {s : Session} {now : Instant} {order : Iteration}
    {p : Protocol.Message KvMap} {r : Bytes} (hp : ∀ id tag text, p ≠ .echoRequest id tag text)
    (hr : (effect s now order p).2 = some r) : r.length ≤ limit := by
  cases p with
  | echoRequest id tag text => exact absurd rfl (hp id tag text)
  | hello l =>
      cases hr
      decide
  | randomNumber id number =>
      cases hr
      have hhash := length_hashNumber (Int64.ofInt number)
      simp only [frame, length_envelope, payload, List.length_append, length_i64, length_string,
        hhash, limit]
      decide
  | kissResponse | pong | disconnect | error => cases hr
  | bonjour | echoResponse | kissRequest | ping | timeNotification | hashResponse =>
      cases hr
      rw [length_frame_error, utf8_append, List.length_append, Hex.length_byte]
      decide

/-- The replies of the Go server fit exactly if the session is closed or the echo fits. -/
theorem receive_fits_iff (s : Session) (i : Input) :
    (∀ r, Sent.message r ∈ (receive s i).out → r.length ≤ limit) ↔
      (s.closed = false → s.EchoFits i.data) := by
  cases hexamine : examine i.data with
  | error e =>
      obtain ⟨text, htext, hreceive⟩ := receive_of_error s i hexamine
      refine iff_of_true (fun r hr => ?_) fun _ id tag data hbad => ?_
      · have hsent : Sent.message r ∈ s.send (frame (.error e.code text)) := by
          rw [hreceive] at hr
          split at hr
          · exact hr
          · exact (List.mem_append.mp hr).resolve_right (not_mem_writeClose s r)
        rw [(mem_send.mp hsent).2, length_frame_error, limit]
        omega
      · rw [hexamine] at hbad
        cases hbad
  | ok p =>
      have hout : (receive s i).out =
          (effect s i.now i.order (p.mapKv toMap)).2.toList.flatMap s.send := by
        rw [receive_of_ok s i hexamine]
      have hmem : ∀ r, Sent.message r ∈ (receive s i).out ↔
          s.closed = false ∧ (effect s i.now i.order (p.mapKv toMap)).2 = some r := by
        intro r
        rw [hout]
        cases (effect s i.now i.order (p.mapKv toMap)).2 with
        | none => simp
        | some data => simp [mem_send, eq_comm (a := data)]
      by_cases hecho : ∃ id tag text, p = .echoRequest id tag text
      · obtain ⟨id, tag, text, rfl⟩ := hecho
        have hlen := length_encode_echoResponse i.order s i.now ⟨Int64.ofInt id, tag, text⟩
        have hid : utf8 (toString (Int64.ofInt id)) = decimal id := by
          obtain ⟨⟨hlow, hhigh⟩, -⟩ := ok_of_examine hexamine
          change utf8 (toString (Int64.ofInt id).toInt) = _
          rw [Int64.toInt_ofInt_of_le (by omega) (by omega)]
          rfl
        rw [hid] at hlen
        constructor
        · intro hall hopen id' tag' text' heq
          rw [hexamine] at heq
          cases heq
          rw [← hlen]
          exact hall _ ((hmem _).mpr ⟨hopen, rfl⟩)
        · intro hfits r hr
          obtain ⟨hopen, hr⟩ := (hmem r).mp hr
          cases hr
          rw [hlen]
          exact hfits hopen id tag text hexamine
      · refine iff_of_true (fun r hr => ?_) fun _ id tag text heq => ?_
        · refine length_effect_le (fun id tag text heq => hecho ?_) ((hmem r).mp hr).2
          cases p <;> cases heq
          exact ⟨_, _, _, rfl⟩
        · rw [hexamine] at heq
          cases heq
          exact absurd ⟨_, _, _, rfl⟩ hecho

end HelloWebsocket.Go

namespace HelloWebsocket.Cpp.Server

open Protocol Threads Ws

/-- The echo of the C++ server to a request stays within the limit. -/
def Vars.EchoFits (v : Vars) (data : Bytes) : Prop :=
  ∀ id tag text, examine data = .ok (.echoRequest id tag text) →
    75 + (decimal id).length + text.length + tag.length + v.clientLanguage.length ≤ limit

/-- The replies of the C++ server to a message within the limit fit exactly if the echo fits. -/
theorem answer_fits_iff (v : Vars) (now : Clock) {data : Bytes} (hdata : data.length ≤ limit) :
    (∀ r ∈ (server.reactor v (data, now)).out, r.length ≤ limit) ↔ v.EchoFits data := by
  have hmem : ∀ r, r ∈ (server.reactor v (data, now)).out ↔
      (handle v now.nowMs data).reply = some r := fun r => Option.mem_toList
  constructor
  · intro hall id tag text hexamine
    have hreply : (handle v now.nowMs data).reply =
        some (octets (.echoResponse 200 [echoed now.nowMs.toInt id tag text v.clientLanguage])) := by
      rw [handle_eq, specified, serve]
      simp only [hexamine]
      rfl
    have hle := hall _ ((hmem _).mpr hreply)
    rwa [octets, length_frame_echoed] at hle
  · intro hfits r hr
    obtain ⟨p, hp, rfl⟩ := reply_eq_some ((hmem r).mp hr)
    rcases length_answer hdata hp with ⟨id, tag, text, hexamine, hlen⟩ | hlen
    · rw [hlen]
      exact hfits id tag text hexamine
    · exact hlen.trans (by decide)

end HelloWebsocket.Cpp.Server

namespace HelloWebsocket.Agreement

open Utf8 Protocol Reactors Ws Go Cpp.Server

/-- After any messages, the replies of the two servers to a message within the limit are within it
exactly if their echoes of it are. -/
theorem replies_fit_iff (start : Instant) (is : List Input) (c : Cpp.Threads.Clock)
    (js : List (Bytes × Cpp.Threads.Clock)) (i : Input) (now : Cpp.Threads.Clock) :
    ((∀ r, Sent.message r ∈ (receive (final receive (.start start) is) i).out → r.length ≤ limit) ↔
        ((final receive (.start start) is).closed = false →
          (final receive (.start start) is).EchoFits i.data)) ∧
      ((∀ r ∈ (server.reactor (final server.reactor (server.initial c.nowMs) js)
          (i.data, now)).out, r.length ≤ limit) ↔
        (final server.reactor (server.initial c.nowMs) js).EchoFits i.data) :=
  ⟨receive_fits_iff _ i, answer_fits_iff _ now i.length_le⟩

/-- A request of 1 MiB: its data are all letters `a`. -/
def fullRequest : Bytes := frame (.echoRequest 0 [] (List.replicate (limit - 24) 0x61))

theorem length_fullRequest : fullRequest.length = limit := by
  simp only [fullRequest, frame, length_envelope, payload, List.length_append, length_i64,
    length_string, List.length_replicate, limit, List.length_nil]

theorem examine_fullRequest : examine fullRequest =
    .ok (.echoRequest 0 [] (List.replicate (limit - 24) 0x61)) := by
  apply examine_frame
  · refine ⟨by decide, by decide, wellFormed_of_ascii fun x hx => ?_, ?_⟩
    · rw [List.eq_of_mem_replicate hx]
      decide
    · rw [List.length_replicate]
      decide
  · have hlen := length_fullRequest
    have hlimit : limit < 2 ^ 32 := by decide
    rw [fullRequest, frame, length_envelope] at hlen
    omega

/-- To a request within the limit both servers reply beyond it, in a session that has just begun. -/
theorem replies_exceed_limit : fullRequest.length = limit ∧
    (∃ r, Sent.message r ∈ (receive (.start ⟨0, by decide⟩)
      ⟨fullRequest, ⟨0, by decide⟩, .ascending, length_fullRequest.le⟩).out ∧ limit < r.length) ∧
    ∃ r ∈ (server.reactor (server.initial 0) (fullRequest, ⟨0, 0, by decide⟩)).out,
      limit < r.length := by
  refine ⟨length_fullRequest, ?_, ?_⟩
  · have hwide : ¬ Session.EchoFits (.start ⟨0, by decide⟩) fullRequest := by
      intro hfits
      have hle := hfits 0 [] _ examine_fullRequest
      rw [List.length_replicate, limit] at hle
      omega
    have hnot := mt (receive_fits_iff (.start ⟨0, by decide⟩)
      ⟨fullRequest, ⟨0, by decide⟩, .ascending, length_fullRequest.le⟩).mp fun hfits => hwide (hfits rfl)
    push Not at hnot
    exact hnot
  · have hwide : ¬ (server.initial 0).EchoFits fullRequest := by
      intro hfits
      have hle := hfits 0 [] _ examine_fullRequest
      rw [List.length_replicate, limit] at hle
      omega
    have hnot := mt (answer_fits_iff (server.initial 0) ⟨0, 0, by decide⟩ length_fullRequest.le).mp hwide
    push Not at hnot
    exact hnot

end HelloWebsocket.Agreement
