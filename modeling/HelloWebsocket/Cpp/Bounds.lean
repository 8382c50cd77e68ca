import HelloWebsocket.Wire.Decimal
import HelloWebsocket.Cpp.Contents
import HelloWebsocket.Cpp.Server

/-!
# The size of what the C++ server sends

A string of a received message is shorter than `2 ^ 32` octets, so the answers are of
a size that the length field of a WebSocket frame can hold.
-/

namespace HelloWebsocket.Cpp.Server

open Utf8 Protocol Threads Ws

section Texts

theorem length_hashNumber (num : Int64) : (hashNumber num).length = 10 := by
  rw [hashNumber, List.length_flatMap, List.map_congr_left (g := fun _ => 2) fun b _ => Hex.length_byte b,
    List.map_const', List.sum_replicate, List.length_take, length_sha256]
  rfl

/-- The text of an exception is short. -/
theorem length_textsOf_le {e : ErrorCode} {data : Bytes} {what : String} (hdata : data.length ≤ limit)
    (h : what ∈ textsOf e data) : (utf8 what).length ≤ 100 := by
  cases e with
  | truncatedPayload =>
      rcases List.mem_cons.mp h with rfl | h
      · have hdigits := Decimal.length_digits_le (n := data.length) (k := 19) (by
          rw [limit] at hdata
          omega)
        have htext : (utf8 "frame too short: ").length = 17 := rfl
        rw [utf8_append, Decimal.utf8_toString_nat, List.length_append]
        omega
      · rw [List.mem_singleton.mp h]
        decide
  | badMagic | badVersion | unknownMessageType =>
      rw [List.mem_singleton.mp h]
      decide
  | decode =>
      have hall : ∀ what ∈ payloadTexts, (utf8 what).length ≤ 100 := by decide
      exact hall what h

theorem length_wording_le {e : ErrorCode} {data : Bytes} (hdata : data.length ≤ limit)
    (h : examine data = .error e) : (host.wording e data).length ≤ 100 := by
  have hspec := decodeMessage_examine (w := 64) (by decide) data
  rw [h] at hspec
  obtain ⟨what, hdecode, hwhat⟩ := hspec
  simp only [host, hdecode]
  exact length_textsOf_le hdata hwhat

theorem length_unexpected_le (t : MsgType) : (host.unexpected t).length ≤ 100 := by
  cases t <;> decide

end Texts

section Answers

theorem length_octets_error (code : Int) (text : Bytes) :
    (octets (.error code text)).length = 16 + text.length := by
  simp only [octets, frame, length_envelope, Protocol.Message.mapKv, Protocol.Message.mapResults,
    payload, List.length_append, length_i32, length_string]
  omega

theorem length_octets_bonjour (language : Bytes) :
    (octets (.bonjour language)).length = 12 + language.length := by
  simp only [octets, frame, length_envelope, Protocol.Message.mapKv, Protocol.Message.mapResults,
    payload, length_string]
  omega

theorem length_octets_hashResponse (id : Int) (hash : Bytes) :
    (octets (.hashResponse id hash)).length = 20 + hash.length := by
  simp only [octets, frame, length_envelope, Protocol.Message.mapKv, Protocol.Message.mapResults,
    payload, List.length_append, length_i64, length_string]
  omega

/-- An answer is the echo of a request or short. -/
theorem length_answer {language data : Bytes} {now : Int} {p : Protocol.Message KvMap}
    (hdata : data.length ≤ limit) (hp : p ∈ (serve host language (data, now)).out) :
    (∃ id tag text, examine data = .ok (.echoRequest id tag text) ∧
        (octets p).length = 75 + (decimal id).length + text.length + tag.length + language.length) ∨
      (octets p).length ≤ 200 := by
  cases hexamine : examine data with
  | error e =>
      refine .inr ?_
      have hwording := length_wording_le hdata hexamine
      rw [serve] at hp
      simp only [hexamine] at hp
      cases e <;>
      · rw [List.mem_singleton.mp hp, length_octets_error]
        omega
  | ok m =>
      rw [serve] at hp
      simp only [hexamine] at hp
      cases m with
      | echoRequest id tag text =>
          refine .inl ⟨id, tag, text, rfl, ?_⟩
          rw [List.mem_singleton.mp hp, octets, length_frame_echoed]
      | hello l =>
          refine .inr ?_
          rw [List.mem_singleton.mp hp, length_octets_bonjour, show host.language.length = 3 from rfl]
          omega
      | randomNumber id number =>
          refine .inr ?_
          rw [List.mem_singleton.mp hp, length_octets_hashResponse]
          have hhash : (host.hash number).length = 10 := length_hashNumber _
          omega
      | pong | kissResponse | error | disconnect => cases hp
      | _ =>
          refine .inr ?_
          rw [List.mem_singleton.mp hp, length_octets_error]
          exact (Nat.add_le_add_left (length_unexpected_le _) 16).trans (by decide)

theorem reply_eq_some {v : Vars} {now : Int64} {data r : Bytes} (h : (handle v now data).reply = some r) :
    ∃ p ∈ (serve host v.clientLanguage (data, now.toInt)).out, r = octets p := by
  rw [handle_eq] at h
  have hmem := List.mem_of_mem_head? (Option.mem_def.mpr h)
  obtain ⟨p, hp, rfl⟩ := List.mem_map.mp hmem
  exact ⟨p, hp, rfl⟩

end Answers

section Frames

/-- What the remembered language has to satisfy for the answers to fit into frames. -/
def Remembered (v : Vars) : Prop := v.clientLanguage.length < 2 ^ 32

theorem remembered_handle {v : Vars} (now : Int64) (data : Bytes) (h : Remembered v) :
    Remembered (handle v now data).vars := by
  rw [handle_eq, specified, Remembered, serve]
  cases hexamine : examine data with
  | error e => cases e <;> exact h
  | ok m =>
      have hok := ok_of_examine hexamine
      cases m with
      | hello l => exact hok.2
      | _ => exact h

/-- Every frame that the server sends is one that a length field can describe. -/
theorem server_gives :
    server.Gives Remembered fun _ f => f.payload.length < 2 ^ 63 where
  initial _ := (by decide : (utf8 "unknown").length < 2 ^ 32)
  vars v now data hv _ := remembered_handle now data hv
  reply v now data r hv hdata hr := by
    obtain ⟨p, hp, rfl⟩ := reply_eq_some hr
    change (octets p).length < 2 ^ 63
    rcases length_answer hdata hp with ⟨id, tag, text, hexamine, hlen⟩ | hlen
    · obtain ⟨⟨hlow, hhigh⟩, ⟨-, htag⟩, ⟨-, htext⟩⟩ := ok_of_examine hexamine
      have hdecimal : (decimal id).length ≤ 21 := Decimal.length_utf8_toString_le (k := 19) (by omega)
      have hlanguage : v.clientLanguage.length < 2 ^ 32 := hv
      omega
    · omega
  beat b w now number := by
    change (encoded (message now number b)).length < 2 ^ 63
    cases b with
    | ping =>
        rw [encoded_eq (p := .ping now.toInt) rfl]
        simp only [octets, frame, length_envelope, Protocol.Message.mapKv,
          Protocol.Message.mapResults, payload, length_i64]
        decide
    | time =>
        rw [encoded_eq (p := .timeNotification now.toInt (nowISO number)) rfl]
        have hiso := length_nowISO number
        simp only [octets, frame, length_envelope, Protocol.Message.mapKv,
          Protocol.Message.mapResults, payload, List.length_append, length_i64, length_string]
        omega
    | kiss =>
        rw [encoded_eq (p := .kissRequest (utf8 "Linux") (utf8 "unknown") (utf8 "unknown")
          (utf8 "x86_64")) rfl]
        decide
  opening data h := by simp [server] at h
  closing data h := by simp [server] at h
  control f h := by simp [server] at h
  answer _ payload _ h := by
    change payload.length < 2 ^ 63
    omega

end Frames

end HelloWebsocket.Cpp.Server
