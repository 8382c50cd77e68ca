import HelloWebsocket.Wire.Decimal
import HelloWebsocket.Wire.Sha256
import HelloWebsocket.Wire.Hex
import HelloWebsocket.Protocol.RoundTrip

/-!
# What a server says in a session

What a server replies to a message that it has decoded, what it remembers of it, and
how it reports a message that it cannot decode. The servers differ in their name, in
the map of an echo, in what they do with a message that no client sends, and in the
codes and the end that follow a failed check. A frame says a message if the checks find
it there, in whatever order the entries of a map are written.

## Implementation notes

The machine leaves the texts of errors open and keeps their codes. The clock is an
input, as in the machine of `Protocol/Session`, which is the case of one map and of
texts that are fixed.
-/

namespace HelloWebsocket.Protocol

open BigEndian Utf8 Reactors

section Machine

/-- What is particular to a server. -/
structure Profile where
  language : Bytes
  /-- The map of an echo: the digits of the id, the tag and the data of the request, and the
  language of the client. -/
  kv : Bytes → Bytes → Bytes → Bytes → KvMap
  /-- The text of the error for a message that no client sends, if there is one. -/
  unexpected : MsgType → Option Bytes
  /-- The code of the error for a failed check. -/
  code : ErrorCode → Int
  /-- Whether the connection is closed after a failed check. -/
  fatal : ErrorCode → Bool

/-- The entries of an echo that shows the data twice and the language of the client. -/
def mirroredEntries (id data language : Bytes) : Entries :=
  [(utf8 "id", id), (utf8 "idx", data), (utf8 "data", data), (utf8 "meta", language)]

def mirroredKv (id _tag data language : Bytes) : KvMap := toMap (mirroredEntries id data language)

/-- The ten digits that answer a number. -/
def shortHash (number : Int) : Bytes :=
  ((Sha256.sha256 (decimal number)).take 5).flatMap fun b => utf8 (Hex.byte b)

/-- The reply to a message, in a session that remembers a language. -/
def reply (H : Profile) (language : Bytes) (now : Int) : Message Entries → Option (Message KvMap)
  | .hello _ => some (.bonjour H.language)
  | .echoRequest id tag data =>
      some (.echoResponse 200 [⟨now, 0, H.kv (decimal id) tag data language⟩])
  | .randomNumber id number => some (.hashResponse id (shortHash number))
  | .kissResponse .. => none
  | .pong _ => none
  | .disconnect _ => none
  | .error .. => none
  | m => (H.unexpected m.type).map (.error 2)

/-- The language that a session remembers after a message. -/
def remembered (language : Bytes) : Message Entries → Bytes
  | .hello l => l
  | _ => language

/-- What a server says, but for the texts of failed checks. -/
inductive Said
  | message (p : Message KvMap)
  | error (code : Int)
  | closing

variable {σ ι ο : Type} {H : Profile} {R : Reactor σ ι ο} {S : σ → Bytes → Prop} {data : ι → Bytes}
  {now : ι → Int} {shows : ο → Said → Prop}

end Machine

section Frames

/-- What is sent on a connection. -/
inductive Outgoing
  | message (data : Bytes)
  | close (status : Nat) (reason : Bytes)
  deriving DecidableEq

/-- The octets are a frame that carries the message. -/
def Says (b : Bytes) (p : Message KvMap) : Prop := ∃ q, examine b = .ok q ∧ q.mapKv toMap = p

/-- What is sent is what the server says. -/
inductive Shows : Outgoing → Said → Prop
  | message {b : Bytes} {p : Message KvMap} (h : Says b p) : Shows (.message b) (.message p)
  | error {b : Bytes} {code : Int} {text : Bytes} (h : Says b (.error code text)) :
      Shows (.message b) (.error code)
  | closing {reason : Bytes} : Shows (.close 1002 reason) .closing

/-- A frame carries one message. -/
theorem Says.unique {b : Bytes} {p p' : Message KvMap} (h : Says b p) (h' : Says b p') : p = p' := by
  obtain ⟨q, hq, rfl⟩ := h
  obtain ⟨q', hq', rfl⟩ := h'
  rw [hq] at hq'
  cases hq'
  rfl

theorem says_frame {q : Message Entries} (hrange : q.InRange) (htexts : ∀ s ∈ q.texts, WellFormed s)
    (hlen : (payload q).length < 2 ^ 32) : Says (frame q) (q.mapKv toMap) :=
  ⟨q, examine_frame (Message.ok_of_texts hrange htexts hlen) hlen, rfl⟩

/-- A text as a message of at most 1 MiB can hold it. -/
def Short (s : Bytes) : Prop := WellFormed s ∧ s.length ≤ 2 ^ 20

theorem length_le_payload {m : Message Entries} {s : Bytes} (hs : s ∈ m.strings) :
    s.length ≤ (payload m).length := by
  cases m <;> simp only [Message.strings, List.mem_cons, List.not_mem_nil, or_false] at hs
  all_goals
    simp only [payload, List.length_append, length_string]
  all_goals grind

/-- The strings of a message of at most 1 MiB are short. -/
theorem short_of_examine {data : Bytes} (hdata : data.length ≤ 2 ^ 20) {p : Message Entries}
    (h : examine data = .ok p) {s : Bytes} (hs : s ∈ p.strings) : Short s := by
  obtain ⟨hok, flags, rest, rfl, -⟩ := parseFrame_eq_some_iff.mp (examine_eq_ok_iff.mp h)
  rw [length_envelope, List.length_append] at hdata
  have hle := length_le_payload hs
  refine ⟨?_, by omega⟩
  cases p <;> simp only [Message.strings, List.mem_cons, List.not_mem_nil, or_false] at hs <;>
    simp only [Message.Ok, IsText] at hok <;> grind

section Echoes

variable {es es' : Entries} (hkeys : (es.map Prod.fst).Nodup) (hes' : ListedBy (toMap es) es')
  (hshort : ∀ e ∈ es, Short e.1 ∧ Short e.2)

include hshort in
theorem length_entries_le : (es.flatMap entry).length ≤ es.length * 2 ^ 22 := by
  induction es with
  | nil => exact Nat.zero_le _
  | cons e es ih =>
      have hrest := ih fun e he => hshort e (List.mem_cons_of_mem _ he)
      obtain ⟨⟨-, hkey⟩, -, hvalue⟩ := hshort e List.mem_cons_self
      rw [List.flatMap_cons, List.length_append, List.length_cons, entry, List.length_append,
        length_string, length_string]
      omega

end Echoes

theorem short_utf8 {s : String} (h : (utf8 s).length ≤ 2 ^ 20) : Short (utf8 s) :=
  ⟨wellFormed_utf8 s, h⟩

theorem short_decimal {v : Int} (h : IsI64 v) : Short (decimal v) := by
  have hdigits : (utf8 (toString v)).length ≤ 20 :=
    Decimal.length_utf8_toString_le (k := 18) (by rw [IsI64] at h; omega)
  exact short_utf8 (hdigits.trans (by decide))

theorem short_mirroredEntries {id data language : Bytes} (hid : Short id) (hdata : Short data)
    (hlanguage : Short language) :
    ∀ e ∈ mirroredEntries id data language, Short e.1 ∧ Short e.2 := by
  have hkey : ∀ k ∈ ["id", "idx", "data", "meta"], Short (utf8 k) := by
    intro k hk
    have hall : ∀ k ∈ ["id", "idx", "data", "meta"], (utf8 k).length ≤ 2 ^ 20 := by decide
    exact short_utf8 (hall k hk)
  simp only [List.forall_mem_cons, List.not_mem_nil, false_implies, implies_true, and_true] at hkey
  simp only [mirroredEntries, List.forall_mem_cons, List.not_mem_nil, false_implies, implies_true,
    and_true]
  exact ⟨⟨hkey.1, hid⟩, ⟨hkey.2.1, hdata⟩, ⟨hkey.2.2.1, hdata⟩, ⟨hkey.2.2.2, hlanguage⟩⟩

/-- The first ten digits of the whole hash. -/
theorem utf8_take_digits_sha256 (number : Int) :
    utf8 (String.ofList ((Hex.digits (Sha256.sha256 (decimal number))).take 10)) = shortHash number :=
  Hex.utf8_take_digits _ 5

theorem length_shortHash (number : Int) : (shortHash number).length = 10 := by
  rw [shortHash, List.length_flatMap, List.map_congr_left (g := fun _ => 2) fun b _ => Hex.length_byte b,
    List.map_const', List.sum_replicate, List.length_take, Sha256.length_sha256]
  rfl

end Frames

end HelloWebsocket.Protocol
