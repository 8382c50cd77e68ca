import HelloWebsocket.Cpp.Hash
import HelloWebsocket.Cpp.WebSocket

/-!
# The C++ opening handshake

`extractHeader`, `recvHttpHeaders`, `generateWSKey`, `WSServer::accept` and
`WSClient::connect` of `ws.hpp`, from the point where the connection is open.

## Implementation notes

Both functions return when they close the socket after a failure; this is the value
`none` or `false`. `tolower` and `iscntrl` are those of the C locale. The octets of the
random key, the reading of the clock and the environment variable are arguments, and so
is the indeterminate buffer of a hash object.
-/

namespace HelloWebsocket.Cpp

open Parsing Streams Loops Ws Utf8 Lines

section Headers

/-- `extractHeader` -/
def extractHeader (httpText key : Bytes) : Bytes :=
  let lowerKey := (crlf ++ (key ++ [0x3A])).map lower
  let lowerText := httpText.map lower
  match find lowerText lowerKey 0 with
  | none => []
  | some pos =>
      let pos := pos + lowerKey.length
      let pos := pos + ((lowerText.drop pos).takeWhile isBlank).length
      let last := (find lowerText crlf pos).getD lowerText.length
      (httpText.drop pos).take (last - pos)

/-- The end that is found for a value is the end of its line. -/
theorem take_find_crlf (text : Bytes) (pos : Nat) :
    (text.drop pos).take ((find (text.map lower) crlf pos).getD (text.map lower).length - pos) =
      firstLine (text.drop pos) := by
  by_cases hle : pos ≤ text.length
  · have hseek := seek_crlf (text.drop pos)
    have hend : (find (text.map lower) crlf pos).getD (text.map lower).length - pos =
        (firstLine (text.drop pos)).length := by
      rw [find, if_pos (by rwa [List.length_map]), ← List.map_drop, ← hseek]
      cases seek crlf ((text.drop pos).map lower) with
      | none => rw [Option.map_none, Option.getD_none, Option.getD_none, List.length_map,
          List.length_drop]
      | some i =>
          rw [Option.map_some, Option.getD_some, Option.getD_some]
          omega
    rw [hend, take_firstLine]
  · rw [List.drop_eq_nil_of_le (by omega), List.take_nil]
    rfl

/-- `extractHeader` returns the value of the first field with the name. -/
theorem extractHeader_eq {key : Bytes} (hkey : 13 ∉ key) (text : Bytes) :
    extractHeader text key = (field? key text).getD [] := by
  set k := (key ++ [0x3A]).map lower with hk
  have hcr : 13 ∉ k := by
    rw [hk, List.mem_map]
    rintro ⟨b, hb, hlower⟩
    rw [lower_eq_iff (by decide)] at hlower
    rw [hlower, List.mem_append, List.mem_singleton] at hb
    exact hb.elim hkey (by decide)
  have hsearch : (crlf ++ (key ++ [0x3A])).map lower = crlf ++ k := by
    rw [List.map_append]
    rfl
  have hname := seek_name hcr text
  have hfield : field? key text = ((lines text).tail.find? fun l => k.isPrefixOf (l.map lower)).map
      fun l => (l.drop k.length).dropWhile isBlank := by
    rw [field?, hk, List.length_map, List.length_append]
    rfl
  rw [extractHeader, hsearch, find, if_pos (Nat.zero_le _), List.drop_zero, hfield]
  cases hseek : seek (crlf ++ k) (text.map lower) with
  | none =>
      rw [hseek, Option.map_none, eq_comm, Option.map_eq_none_iff] at hname
      rw [hname]
      rfl
  | some i =>
      rw [hseek, Option.map_some, eq_comm, Option.map_eq_some_iff] at hname
      obtain ⟨l, hl, hvalue⟩ := hname
      have hblanks (s : Bytes) :
          s.drop ((s.map lower).takeWhile isBlank).length = s.dropWhile isBlank := by
        have hsame : ((s.map lower).takeWhile isBlank).length = (s.takeWhile isBlank).length := by
          rw [List.takeWhile_map, List.length_map]
          congr 2
          funext b
          exact isBlank_lower b
        have hleft : (s.takeWhile isBlank ++ s.dropWhile isBlank).drop
            (s.takeWhile isBlank).length = s.dropWhile isBlank := List.drop_left
        rw [hsame]
        rwa [List.takeWhile_append_dropWhile] at hleft
      simp only [Option.map_some, Nat.zero_add, take_find_crlf]
      rw [← List.drop_drop, ← List.map_drop, hblanks, firstLine_dropWhile, hl, Option.map_some,
        Option.getD_some, hvalue]

/-- A turn of the loop of `recvHttpHeaders`. -/
def recvOctet {ε : Type} (buf : Bytes) : EStateM ε Socket (Bytes ⊕ Bytes) := do
  match ← Socket.recv 1 with
  | .data octets =>
      let buf := buf ++ octets
      if 4 ≤ buf.length ∧ buf.drop (buf.length - 4) = blankLine then pure (.inr buf)
      else if 8192 < buf.length then pure (.inr [])
      else pure (.inl buf)
  | .closed => pure (.inr [])
  | .failed _ => pure (.inr [])

section Receiving

variable {ε : Type} {s : Socket}

theorem recvOctet_eq (buf : Bytes) (s : Socket) :
    recvOctet (ε := ε) buf s =
      match s.inbox.next 1 with
      | some (octets, rest) =>
          .ok (if 4 ≤ (buf ++ octets).length ∧
              (buf ++ octets).drop ((buf ++ octets).length - 4) = blankLine then
            .inr (buf ++ octets) else if 8192 < (buf ++ octets).length then .inr []
            else .inl (buf ++ octets)) { s with inbox := rest }
      | none => .ok (.inr []) s := by
  change EStateM.bind (Socket.recv 1) _ s = _
  rw [EStateM.bind, Socket.recv]
  cases s.inbox.next 1 with
  | none => cases s.ending <;> rfl
  | some q =>
      dsimp only
      split
      · rfl
      · split <;> rfl

/-- The loop of `recvHttpHeaders`. -/
def receivingHeaders : Body ε Socket Bytes Bytes where
  measure _ s := s.unread.length
  run := recvOctet
  shrinks := by
    intro buf s buf' s' h
    rw [recvOctet_eq] at h
    cases hnext : s.inbox.next 1 with
    | none =>
        rw [hnext] at h
        cases h
    | some q =>
        rw [hnext] at h
        obtain ⟨hpos, -, hunread⟩ := Chunks.next_eq_some Nat.one_pos hnext
        injection h with _ hs
        rw [Socket.unread, Socket.unread, hunread, List.length_append, ← hs]
        change q.2.unread.length < _
        omega

/-- `recvHttpHeaders` -/
def recvHttpHeaders : EStateM ε Socket Bytes := iterate receivingHeaders []

theorem ends_test (buf : Bytes) :
    (4 ≤ buf.length ∧ buf.drop (buf.length - 4) = blankLine) ↔ blankLine <:+ buf := by
  rw [List.suffix_iff_eq_drop, show blankLine.length = 4 from rfl, eq_comm]
  refine ⟨And.right, fun h => ⟨?_, h⟩⟩
  have hlen := congrArg List.length h
  rw [List.length_drop, show blankLine.length = 4 from rfl] at hlen
  omega

/-- A message that comes in is read to its end, and nothing after it. -/
theorem recvHttpHeaders_of_ends {m rest : Bytes} (hm : Ends m) (hlen : m.length ≤ 8193)
    (hs : s.unread = m ++ rest) :
    ∃ inbox, recvHttpHeaders (ε := ε) s = .ok m { s with inbox := inbox } ∧
      inbox.unread = rest := by
  have hloop (more buf : Bytes) (s : Socket) (hm' : buf ++ more = m) (hmore : more ≠ [])
      (hs : s.unread = more ++ rest) :
      ∃ inbox, iterate (receivingHeaders (ε := ε)) buf s = .ok m { s with inbox := inbox } ∧
        inbox.unread = rest := by
    -- the induction is on what is left of the message
    induction more generalizing buf s with
    | nil => exact absurd rfl hmore
    | cons b more ih =>
        obtain ⟨inbox, hnext, hinbox⟩ := Chunks.next_one hs
        have hturn := recvOctet_eq (ε := ε) buf s
        rw [hnext] at hturn
        simp only [ends_test] at hturn
        have hbuf : buf ++ [b] ++ more = m := by
          rw [List.append_assoc]
          exact hm'
        by_cases hend : blankLine <:+ buf ++ [b]
        · have hwhole := hm.2 _ ⟨more, hbuf⟩ hend
          have hlast : more = [] := by
            rw [hwhole] at hbuf
            exact List.append_right_eq_self.mp hbuf
          rw [if_pos hend, hwhole] at hturn
          refine ⟨inbox, iterate_of_done (B := receivingHeaders) hturn, ?_⟩
          rw [hinbox, hlast]
          rfl
        · have hmore' : more ≠ [] := by
            rintro rfl
            rw [List.append_nil] at hbuf
            exact hend (hbuf ▸ hm.1)
          have hshort : ¬ 8192 < (buf ++ [b]).length := by
            have hpos := List.length_pos_iff.mpr hmore'
            have htotal := congrArg List.length hbuf
            rw [List.length_append] at htotal
            omega
          rw [if_neg hend, if_neg hshort] at hturn
          rw [iterate_of_continue (B := receivingHeaders) hturn]
          exact ih _ _ hbuf hmore' hinbox
  have hne : m ≠ [] := by
    rintro rfl
    exact absurd hm.1.length_le (by decide)
  exact hloop m [] s rfl hne hs

/-- What is returned, if anything, is the message at the front of the stream. -/
theorem recvHttpHeaders_sound {buf : Bytes} {s' : Socket}
    (h : recvHttpHeaders (ε := ε) s = .ok buf s') (hne : buf ≠ []) :
    Ends buf ∧ s.unread = buf ++ s'.unread ∧ s' = { s with inbox := s'.inbox } := by
  have hspec := iterate_invariant (B := receivingHeaders (ε := ε))
    (P := fun buf t => s.unread = buf ++ t.unread ∧ t = { s with inbox := t.inbox } ∧
      ∀ p, p <+: buf → ¬ blankLine <:+ p)
    (Q := fun result => ∀ buf s', result = .ok buf s' → buf ≠ [] →
      Ends buf ∧ s.unread = buf ++ s'.unread ∧ s' = { s with inbox := s'.inbox })
    ?_ [] s ⟨rfl, rfl, ?_⟩
  · exact hspec buf s' h hne
  · rintro buf t ⟨hunread, ht, hfree⟩
    change Turn _ _ (recvOctet buf t)
    rw [recvOctet_eq]
    cases hnext : t.inbox.next 1 with
    | none =>
        rintro _ _ ⟨⟩ hnil
        exact absurd rfl hnil
    | some q =>
        obtain ⟨hpos, hone, hq⟩ := Chunks.next_eq_some Nat.one_pos hnext
        obtain ⟨b, hb⟩ := List.length_eq_one_iff.mp (Nat.le_antisymm hone hpos)
        have hstream : s.unread = buf ++ q.1 ++ q.2.unread := by
          rw [hunread, Socket.unread, hq, List.append_assoc]
        have hfront (p : Bytes) (hp : p <+: buf ++ q.1) : p = buf ++ q.1 ∨ p <+: buf := by
          rw [hb] at hp ⊢
          exact List.prefix_concat_iff.mp hp
        simp only [ends_test]
        split
        · next hend =>
            rintro _ _ ⟨⟩ -
            refine ⟨⟨hend, fun p hp hblank => ?_⟩, hstream, by rw [ht]⟩
            exact (hfront p hp).resolve_right fun hbefore => hfree p hbefore hblank
        · next hend =>
            split
            · rintro _ _ ⟨⟩ hnil
              exact absurd rfl hnil
            · refine ⟨hstream, by rw [ht], fun p hp => ?_⟩
              rcases hfront p hp with rfl | hbefore
              · exact hend
              · exact hfree p hbefore
  · intro p hp hblank
    rw [List.prefix_nil.mp hp] at hblank
    exact absurd hblank.length_le (by decide)

end Receiving

end Headers

section Parties

variable {ε : Type}

/-- `getenv("WS_PATH")`, with its default. -/
def wsPath (WS_PATH : Option Bytes) : Bytes := WS_PATH.getD (utf8 "/ws")

/-- `iscntrl` -/
def iscntrl (c : UInt8) : Bool := c < 0x20 ∨ c = 0x7F

/-- The response that `accept` sends. -/
def upgradeResponse (acceptKey : Bytes) : Bytes :=
  utf8 "HTTP/1.1 101 Switching Protocols\r\nUpgrade: websocket\r\nConnection: Upgrade\r\nSec-WebSocket-Accept: " ++
    acceptKey ++ utf8 "\r\n\r\n"

/-- `WSServer::accept` on the client's socket: the id of the user. -/
def accept (buffer : Bytes) (WS_PATH : Option Bytes) (nowMs : Int64) :
    EStateM ε Socket (Option Bytes) := do
  let httpText ← recvHttpHeaders
  if httpText = [] then return none
  let expectedPath := wsPath WS_PATH
  if ¬ (utf8 "GET " ++ expectedPath ++ utf8 " HTTP/1.1\r\n").isPrefixOf httpText ∨
      extractHeader httpText (utf8 "Upgrade") ≠ utf8 "websocket" then return none
  let wsKey := extractHeader httpText (utf8 "Sec-WebSocket-Key")
  if wsKey = [] then return none
  let userId := extractHeader httpText (utf8 "userId")
  let userId := userId.filter fun c => ¬ iscntrl c
  let userId := if userId.length > 128 then userId.take 128 else userId
  let userId := if userId = [] then utf8 ("cpp-" ++ toString nowMs.toInt) else userId
  let acceptKey := wsAcceptKey buffer wsKey
  if ← sendAll (upgradeResponse acceptKey) then return some userId else return none

/-- `generateWSKey`, from the octets that are drawn. -/
def generateWSKey (buf : Bytes) : Bytes := base64Encode buf

/-- The request that `connect` sends. -/
def upgradeRequest (path host : Bytes) (port : UInt16) (wsKey userId : Bytes) : Bytes :=
  utf8 "GET " ++ path ++ utf8 " HTTP/1.1\r\n" ++
    utf8 "Host: " ++ host ++ utf8 ":" ++ utf8 (toString port.toNat) ++ utf8 "\r\n" ++
    utf8 "Upgrade: websocket\r\nConnection: Upgrade\r\n" ++
    utf8 "Sec-WebSocket-Key: " ++ wsKey ++ utf8 "\r\n" ++
    utf8 "Sec-WebSocket-Version: 13\r\n" ++
    utf8 "userId: " ++ userId ++ utf8 "\r\n" ++ utf8 "\r\n"

/-- `WSClient::connect` on a connected socket. -/
def connect (buffer : Bytes) (WS_PATH : Option Bytes) (host : Bytes) (port : UInt16)
    (userId random : Bytes) : EStateM ε Socket Bool := do
  let wsKey := generateWSKey random
  let path := wsPath WS_PATH
  if ¬ (← sendAll (upgradeRequest path host port wsKey userId)) then return false
  let response ← recvHttpHeaders
  if response = [] then return false
  if ¬ (utf8 "HTTP/1.1 101 ").isPrefixOf response ∨
      extractHeader response (utf8 "Sec-WebSocket-Accept") ≠ wsAcceptKey buffer wsKey then
    return false
  return true

end Parties

end HelloWebsocket.Cpp
