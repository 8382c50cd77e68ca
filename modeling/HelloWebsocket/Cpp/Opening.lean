import HelloWebsocket.Wire.Decimal
import HelloWebsocket.Cpp.Handshake

/-!
# Agreement of the C++ opening handshake

The server accepts the request that the client writes, the client accepts the response
that the server writes, and neither reads past the empty line. A client never accepts a
response without the hash of its key.
-/

namespace HelloWebsocket.Cpp

open Parsing Streams Loops Ws Utf8 Lines

section Texts

/-- Printable characters of ASCII. -/
def Printable (s : Bytes) : Prop := ∀ b ∈ s, 0x20 ≤ b ∧ b ≤ 0x7E

variable {s t : Bytes}

-- decided on the octets of the string, never by going through all values of an octet
theorem Printable.of_all (h : s.all (fun b => decide (0x20 ≤ b) && decide (b ≤ 0x7E)) = true) :
    Printable s := by
  intro b hb
  have htest := List.all_eq_true.mp h b hb
  rw [Bool.and_eq_true, decide_eq_true_eq, decide_eq_true_eq] at htest
  exact htest

theorem Printable.append (hs : Printable s) (ht : Printable t) : Printable (s ++ t) := by
  intro b hb
  rcases List.mem_append.mp hb with hb | hb
  · exact hs b hb
  · exact ht b hb

theorem Printable.not_mem_cr (hs : Printable s) : 13 ∉ s :=
  fun h => absurd (hs 13 h).1 (by decide)

theorem Printable.filter_iscntrl (hs : Printable s) : (s.filter fun c => ¬ iscntrl c) = s := by
  rw [List.filter_eq_self]
  intro b hb
  obtain ⟨hlow, hhigh⟩ := hs b hb
  rw [UInt8.le_iff_toNat_le, show (0x20 : UInt8).toNat = 32 from rfl] at hlow
  rw [UInt8.le_iff_toNat_le, show (0x7E : UInt8).toNat = 126 from rfl] at hhigh
  have hnot : ¬ (b < 0x20 ∨ b = 0x7F) := by
    rw [UInt8.lt_iff_toNat_lt, ← UInt8.toNat_inj, show (0x20 : UInt8).toNat = 32 from rfl,
      show (0x7F : UInt8).toNat = 127 from rfl]
    omega
  simp [iscntrl, hnot]

theorem Printable.of_graphic (hs : ∀ b ∈ s, 0x21 ≤ b ∧ b ≤ 0x7E) : Printable s := by
  intro b hb
  obtain ⟨hlow, hhigh⟩ := hs b hb
  rw [UInt8.le_iff_toNat_le, show (0x21 : UInt8).toNat = 33 from rfl] at hlow
  refine ⟨?_, hhigh⟩
  rw [UInt8.le_iff_toNat_le, show (0x20 : UInt8).toNat = 32 from rfl]
  omega

/-- A value of visible characters keeps its front when blanks are dropped. -/
theorem dropWhile_graphic (hs : ∀ b ∈ s, 0x21 ≤ b ∧ b ≤ 0x7E) : s.dropWhile isBlank = s := by
  cases s with
  | nil => rfl
  | cons b s =>
      have hb := (hs b List.mem_cons_self).1
      rw [UInt8.le_iff_toNat_le, show (0x21 : UInt8).toNat = 33 from rfl] at hb
      have hblank : isBlank b = false := by
        rw [isBlank, decide_eq_false_iff_not, ← UInt8.toNat_inj, ← UInt8.toNat_inj,
          show (0x20 : UInt8).toNat = 32 from rfl, show (0x09 : UInt8).toNat = 9 from rfl]
        omega
      rw [List.dropWhile_cons_of_neg (by rw [hblank]; decide)]

theorem printable_decimal (n : Nat) : Printable (utf8 (toString n)) := by
  rw [Decimal.utf8_toString_nat]
  intro b hb
  obtain ⟨hlow, hhigh⟩ := Decimal.mem_digits hb
  rw [UInt8.le_iff_toNat_le, UInt8.le_iff_toNat_le, show (0x20 : UInt8).toNat = 32 from rfl,
    show (0x7E : UInt8).toNat = 126 from rfl]
  omega

end Texts

/-- What a client is given when it connects. -/
structure Attempt where
  host : Bytes
  port : UInt16
  userId : Bytes
  WS_PATH : Option Bytes
  /-- The octets of the key that are drawn. -/
  random : Bytes
  host_printable : Printable host
  userId_printable : Printable userId
  path_printable : ∀ path ∈ WS_PATH, Printable path
  random_length : random.length = 16

namespace Attempt

variable (a : Attempt)

def path : Bytes := wsPath a.WS_PATH

def key : Bytes := generateWSKey a.random

def request : Bytes := upgradeRequest a.path a.host a.port a.key a.userId

def response : Bytes := upgradeResponse (Ws.acceptKey a.key)

/-- The id that the server is to find: without blanks in front, and cut. -/
def announcedId : Bytes := (a.userId.dropWhile isBlank).take 128

section Lines

theorem printable_path : Printable a.path := by
  rw [path, wsPath]
  cases hpath : a.WS_PATH with
  | none => exact (Printable.of_all (by decide) : Printable (utf8 "/ws"))
  | some p => exact a.path_printable p hpath

theorem graphic_key : ∀ b ∈ a.key, 0x21 ≤ b ∧ b ≤ 0x7E := by
  rw [key, generateWSKey, base64Encode_eq]
  exact Base64.encode_graphic a.random

theorem key_ne_nil : a.key ≠ [] := by
  rw [key, generateWSKey, base64Encode_eq]
  refine Base64.encode_ne_nil fun h => ?_
  have hlen := a.random_length
  rw [h] at hlen
  cases hlen

def hostLine : Bytes := utf8 "Host: " ++ (a.host ++ (utf8 ":" ++ utf8 (toString a.port.toNat)))

/-- The lines of the request after the start line. -/
def fieldLines : List Bytes :=
  [a.hostLine, utf8 "Upgrade: websocket", utf8 "Connection: Upgrade", utf8 "Sec-WebSocket-Key: " ++ a.key,
    utf8 "Sec-WebSocket-Version: 13", utf8 "userId: " ++ a.userId]

def startLine : Bytes := utf8 "GET " ++ (a.path ++ utf8 " HTTP/1.1")

theorem request_eq : a.request = headerText (a.startLine :: a.fieldLines) := by
  have hstart : utf8 " HTTP/1.1\r\n" = utf8 " HTTP/1.1" ++ crlf := by decide
  have hend : utf8 "\r\n" = crlf := by decide
  have hfields : utf8 "Upgrade: websocket\r\nConnection: Upgrade\r\n" =
      utf8 "Upgrade: websocket" ++ (crlf ++ (utf8 "Connection: Upgrade" ++ crlf)) := by decide
  have hversion : utf8 "Sec-WebSocket-Version: 13\r\n" =
      utf8 "Sec-WebSocket-Version: 13" ++ crlf := by decide
  rw [request, upgradeRequest, hstart, hend, hfields, hversion, headerText, startLine, fieldLines,
    hostLine]
  simp only [List.flatMap_cons, List.flatMap_nil, List.append_assoc, List.append_nil]

theorem request_lines_ok : ∀ l ∈ a.startLine :: a.fieldLines, l ≠ [] ∧ 13 ∉ l := by
  have hstart : Printable a.startLine :=
    (Printable.of_all (by decide)).append (a.printable_path.append (Printable.of_all (by decide)))
  have hhost : Printable a.hostLine :=
    (Printable.of_all (by decide)).append
      (a.host_printable.append ((Printable.of_all (by decide)).append (printable_decimal _)))
  have hkey : Printable (utf8 "Sec-WebSocket-Key: " ++ a.key) :=
    (Printable.of_all (by decide)).append (.of_graphic a.graphic_key)
  have huser : Printable (utf8 "userId: " ++ a.userId) :=
    (Printable.of_all (by decide)).append a.userId_printable
  intro l hl
  simp only [fieldLines, List.mem_cons, List.not_mem_nil, or_false] at hl
  rcases hl with rfl | rfl | rfl | rfl | rfl | rfl | rfl
  · exact ⟨List.cons_ne_nil _ _, hstart.not_mem_cr⟩
  · exact ⟨List.cons_ne_nil _ _, hhost.not_mem_cr⟩
  · exact ⟨by decide, by decide⟩
  · exact ⟨by decide, by decide⟩
  · exact ⟨List.cons_ne_nil _ _, hkey.not_mem_cr⟩
  · exact ⟨by decide, by decide⟩
  · exact ⟨List.cons_ne_nil _ _, huser.not_mem_cr⟩

theorem ends_request : Ends a.request := by
  rw [request_eq]
  exact ends_headerText (List.cons_ne_nil _ _) a.request_lines_ok

theorem tail_lines_request : (lines a.request).tail = a.fieldLines ++ [[], []] := by
  rw [request_eq, lines_headerText fun l hl => (a.request_lines_ok l hl).2]
  rfl

theorem field_upgrade : field? (utf8 "Upgrade") a.request = some (utf8 "websocket") := by
  have hhost : named (utf8 "Upgrade") a.hostLine = false :=
    named_of_ne (utf8 "pgrade") _ (show lower 0x55 ≠ lower 0x48 by decide)
  have hfound : named (utf8 "Upgrade") (utf8 "Upgrade: websocket") = true := by decide
  rw [field?, tail_lines_request, fieldLines]
  simp only [List.cons_append, List.find?_cons, hhost, hfound]
  decide

theorem field_key : field? (utf8 "Sec-WebSocket-Key") a.request = some a.key := by
  have hhost : named (utf8 "Sec-WebSocket-Key") a.hostLine = false :=
    named_of_ne (utf8 "ec-WebSocket-Key") _ (show lower 0x53 ≠ lower 0x48 by decide)
  have hupgrade : named (utf8 "Sec-WebSocket-Key") (utf8 "Upgrade: websocket") = false := by decide
  have hconnection : named (utf8 "Sec-WebSocket-Key") (utf8 "Connection: Upgrade") = false := by
    decide
  have hfound : named (utf8 "Sec-WebSocket-Key") (utf8 "Sec-WebSocket-Key: " ++ a.key) = true :=
    named_self (utf8 "Sec-WebSocket-Key") (0x20 :: a.key)
  have hvalue : (0x20 :: a.key).dropWhile isBlank = a.key := by
    rw [List.dropWhile_cons_of_pos (by decide), dropWhile_graphic a.graphic_key]
  rw [field?, tail_lines_request, fieldLines]
  simp only [List.cons_append, List.find?_cons, hhost, hupgrade, hconnection, hfound]
  exact congrArg some hvalue

theorem field_userId : field? (utf8 "userId") a.request = some (a.userId.dropWhile isBlank) := by
  have hhost : named (utf8 "userId") a.hostLine = false :=
    named_of_ne (utf8 "serId") _ (show lower 0x75 ≠ lower 0x48 by decide)
  have hupgrade : named (utf8 "userId") (utf8 "Upgrade: websocket") = false := by decide
  have hconnection : named (utf8 "userId") (utf8 "Connection: Upgrade") = false := by decide
  have hkey : named (utf8 "userId") (utf8 "Sec-WebSocket-Key: " ++ a.key) = false :=
    named_of_ne (utf8 "serId") _ (show lower 0x75 ≠ lower 0x53 by decide)
  have hversion : named (utf8 "userId") (utf8 "Sec-WebSocket-Version: 13") = false := by decide
  have hfound : named (utf8 "userId") (utf8 "userId: " ++ a.userId) = true :=
    named_self (utf8 "userId") (0x20 :: a.userId)
  rw [field?, tail_lines_request, fieldLines]
  simp only [List.cons_append, List.find?_cons, hhost, hupgrade, hconnection, hkey, hversion, hfound]
  change some ((0x20 :: a.userId).dropWhile isBlank) = _
  rw [List.dropWhile_cons_of_pos (by decide)]

/-- The lines of the response. -/
def responseLines : List Bytes :=
  [utf8 "HTTP/1.1 101 Switching Protocols", utf8 "Upgrade: websocket", utf8 "Connection: Upgrade",
    utf8 "Sec-WebSocket-Accept: " ++ Ws.acceptKey a.key]

theorem response_eq : a.response = headerText a.responseLines := by
  have hfront : utf8 "HTTP/1.1 101 Switching Protocols\r\nUpgrade: websocket\r\nConnection: Upgrade\r\nSec-WebSocket-Accept: " =
      utf8 "HTTP/1.1 101 Switching Protocols" ++ (crlf ++ (utf8 "Upgrade: websocket" ++ (crlf ++
        (utf8 "Connection: Upgrade" ++ (crlf ++ utf8 "Sec-WebSocket-Accept: "))))) := by decide
  have hend : utf8 "\r\n\r\n" = crlf ++ crlf := by decide
  rw [response, upgradeResponse, hfront, hend, headerText, responseLines]
  simp only [List.flatMap_cons, List.flatMap_nil, List.append_assoc, List.append_nil]

theorem graphic_accept : ∀ b ∈ Ws.acceptKey a.key, 0x21 ≤ b ∧ b ≤ 0x7E :=
  Base64.encode_graphic _

theorem response_lines_ok : ∀ l ∈ a.responseLines, l ≠ [] ∧ 13 ∉ l := by
  have haccept : Printable (utf8 "Sec-WebSocket-Accept: " ++ Ws.acceptKey a.key) :=
    (Printable.of_all (by decide)).append (.of_graphic a.graphic_accept)
  intro l hl
  simp only [responseLines, List.mem_cons, List.not_mem_nil, or_false] at hl
  rcases hl with rfl | rfl | rfl | rfl
  · exact ⟨by decide, by decide⟩
  · exact ⟨by decide, by decide⟩
  · exact ⟨by decide, by decide⟩
  · exact ⟨List.cons_ne_nil _ _, haccept.not_mem_cr⟩

theorem ends_response : Ends a.response := by
  rw [response_eq]
  exact ends_headerText (List.cons_ne_nil _ _) a.response_lines_ok

theorem length_response : a.response.length = 129 := by
  have haccept : (Ws.acceptKey a.key).length = 28 := by
    rw [Ws.acceptKey, Base64.length_encode, Sha1.length_sha1]
  rw [response, upgradeResponse, List.length_append, List.length_append, haccept]
  decide

theorem field_accept :
    field? (utf8 "Sec-WebSocket-Accept") a.response = some (Ws.acceptKey a.key) := by
  have hupgrade : named (utf8 "Sec-WebSocket-Accept") (utf8 "Upgrade: websocket") = false := by
    decide
  have hconnection : named (utf8 "Sec-WebSocket-Accept") (utf8 "Connection: Upgrade") = false := by
    decide
  have hfound : named (utf8 "Sec-WebSocket-Accept")
      (utf8 "Sec-WebSocket-Accept: " ++ Ws.acceptKey a.key) = true :=
    named_self (utf8 "Sec-WebSocket-Accept") (0x20 :: Ws.acceptKey a.key)
  have hvalue : (0x20 :: Ws.acceptKey a.key).dropWhile isBlank = Ws.acceptKey a.key := by
    rw [List.dropWhile_cons_of_pos (by decide), dropWhile_graphic a.graphic_accept]
  rw [field?, response_eq, lines_headerText fun l hl => (a.response_lines_ok l hl).2, responseLines]
  simp only [List.cons_append, List.tail_cons, List.find?_cons, hupgrade, hconnection, hfound]
  exact congrArg some hvalue

end Lines

end Attempt

section Agreement

variable {ε : Type} {buffer : Bytes}

/-- The server takes the request and answers it. -/
theorem accept_request (hbuffer : buffer.length = 64) (a : Attempt) (hsize : a.request.length ≤ 8192)
    (nowMs : Int64) {s : Socket} {more : Bytes} (hs : s.unread = a.request ++ more)
    (hsend : s.refusals s.sends.length = none) :
    ∃ inbox, accept (ε := ε) buffer a.WS_PATH nowMs s =
        .ok (some (if a.announcedId = [] then utf8 ("cpp-" ++ toString nowMs.toInt)
          else a.announcedId))
          { s with inbox := inbox, sends := s.sends ++ [a.response] } ∧
      inbox.unread = more := by
  obtain ⟨inbox, hrecv, hmore⟩ := recvHttpHeaders_of_ends (ε := ε) a.ends_request (by omega) hs
  have hne : a.request ≠ [] := fun h => by
    have hends := a.ends_request
    rw [h] at hends
    exact absurd hends.1.length_le (by decide)
  have hstart : (utf8 "GET " ++ wsPath a.WS_PATH ++ utf8 " HTTP/1.1\r\n").isPrefixOf a.request =
      true := by
    rw [List.isPrefixOf_iff_prefix, Attempt.request, upgradeRequest]
    simp only [List.append_assoc]
    exact ((List.prefix_append_right_inj _).mpr ((List.prefix_append_right_inj _).mpr
      (List.prefix_append _ _)))
  have hupgrade : extractHeader a.request (utf8 "Upgrade") = utf8 "websocket" := by
    rw [extractHeader_eq (by decide), a.field_upgrade, Option.getD_some]
  have hkey : extractHeader a.request (utf8 "Sec-WebSocket-Key") = a.key := by
    rw [extractHeader_eq (by decide), a.field_key, Option.getD_some]
  have huser : (extractHeader a.request (utf8 "userId")).filter (fun c => ¬ iscntrl c) =
      a.userId.dropWhile isBlank := by
    rw [extractHeader_eq (by decide), a.field_userId, Option.getD_some]
    exact Printable.filter_iscntrl fun b hb =>
      a.userId_printable b ((List.dropWhile_suffix _).subset hb)
  have hcut : (if (a.userId.dropWhile isBlank).length > 128 then
      (a.userId.dropWhile isBlank).take 128 else a.userId.dropWhile isBlank) = a.announcedId := by
    rw [Attempt.announcedId]
    split
    · rfl
    · next hle => rw [List.take_of_length_le (by omega)]
  have hresponse : upgradeResponse (wsAcceptKey buffer a.key) = a.response := by
    rw [wsAcceptKey_eq hbuffer, Attempt.response]
  have hpos : 0 < a.response.length := by
    rw [a.length_response]
    decide
  refine ⟨inbox, ?_, hmore⟩
  rw [accept]
  refine (bind_of_ok hrecv).trans ?_
  rw [if_neg hne, if_neg (by rw [hstart, hupgrade]; simp), hkey, if_neg a.key_ne_nil, huser, hcut,
    hresponse]
  refine (bind_of_ok (sendAll_eq hpos _)).trans ?_
  change (if (s.refusals s.sends.length).isNone = true then _ else _ : EStateM ε Socket _) _ = _
  rw [hsend]
  rfl

/-- The client takes the response of the server. -/
theorem connect_response (hbuffer : buffer.length = 64) (a : Attempt) {s : Socket} {more : Bytes}
    (hs : s.unread = a.response ++ more) (hsend : s.refusals s.sends.length = none) :
    ∃ inbox, connect (ε := ε) buffer a.WS_PATH a.host a.port a.userId a.random s =
        .ok true { s with inbox := inbox, sends := s.sends ++ [a.request] } ∧
      inbox.unread = more := by
  have hlen := a.length_response
  obtain ⟨inbox, hrecv, hmore⟩ := recvHttpHeaders_of_ends (ε := ε)
    (s := { s with sends := s.sends ++ [a.request] }) a.ends_response (by omega) hs
  have hne : a.response ≠ [] := List.length_pos_iff.mp (by omega)
  have hstart : (utf8 "HTTP/1.1 101 ").isPrefixOf a.response = true := by
    rw [List.isPrefixOf_iff_prefix, a.response_eq, headerText, Attempt.responseLines]
    exact ⟨_, rfl⟩
  have haccept : extractHeader a.response (utf8 "Sec-WebSocket-Accept") =
      wsAcceptKey buffer a.key := by
    rw [extractHeader_eq (by decide), a.field_accept, Option.getD_some, wsAcceptKey_eq hbuffer]
  have hpos : 0 < a.request.length := by
    have hle := a.ends_request.1.length_le
    rw [show blankLine.length = 4 from rfl] at hle
    omega
  refine ⟨inbox, ?_, hmore⟩
  rw [connect]
  refine (bind_of_ok (sendAll_eq hpos s)).trans ?_
  rw [hsend]
  refine (bind_of_ok hrecv).trans ?_
  rw [if_neg hne, if_neg (by rw [hstart, haccept]; simp [Attempt.key])]
  rfl

/-- A client that goes on has seen the hash of its key. -/
theorem connect_sound (hbuffer : buffer.length = 64) {WS_PATH : Option Bytes} {host : Bytes}
    {port : UInt16} {userId random : Bytes} {s s' : Socket}
    (h : connect (ε := ε) buffer WS_PATH host port userId random s = .ok true s') :
    ∃ response, Ends response ∧ s.unread = response ++ s'.unread ∧
      utf8 "HTTP/1.1 101 " <+: response ∧
      field? (utf8 "Sec-WebSocket-Accept") response =
        some (Ws.acceptKey (generateWSKey random)) := by
  rw [connect] at h
  obtain ⟨sent, s₁, hsent, h⟩ := bind_eq_ok_iff.mp h
  have hunread : s₁.unread = s.unread := by
    have hpos : 0 < (upgradeRequest (wsPath WS_PATH) host port (generateWSKey random) userId).length :=
      Nat.succ_pos _
    rw [sendAll_eq hpos] at hsent
    cases hsent
    rfl
  split at h
  · cases h
  obtain ⟨response, s₂, hrecv, h⟩ := bind_eq_ok_iff.mp h
  split at h
  · cases h
  · next hne =>
      split at h
      · cases h
      · next hok =>
          cases h
          rw [not_or, not_not, not_not, List.isPrefixOf_iff_prefix, extractHeader_eq (by decide),
            wsAcceptKey_eq hbuffer] at hok
          obtain ⟨hends, hstream, -⟩ := recvHttpHeaders_sound hrecv hne
          refine ⟨response, hends, hunread ▸ hstream, hok.1, ?_⟩
          cases hfield : field? (utf8 "Sec-WebSocket-Accept") response with
          | some value => rw [← hok.2, hfield, Option.getD_some]
          | none =>
              have hempty : Ws.acceptKey (generateWSKey random) = [] := by
                rw [← hok.2, hfield, Option.getD_none]
              refine absurd hempty (Base64.encode_ne_nil fun hnil => ?_)
              have hlen := congrArg List.length hnil
              rw [Sha1.length_sha1] at hlen
              cases hlen

/-- However the octets arrive, both sides accept each other's part of the handshake, the server finds
the id of the user, and what follows the empty lines is left unread. -/
theorem handshake_agrees (buffer : Bytes) (hbuffer : buffer.length = 64) (a : Attempt)
    (hsize : a.request.length ≤ 8192) (nowMs : Int64) :
    (∀ (s : Socket) (more : Bytes), s.unread = a.request ++ more →
      s.refusals s.sends.length = none →
      ∃ id s', accept (ε := Empty) buffer a.WS_PATH nowMs s = .ok (some id) s' ∧
        s'.unread = more ∧ s'.sends = s.sends ++ [a.response] ∧ id ≠ [] ∧
        (a.announcedId ≠ [] → id = a.announcedId)) ∧
    (∀ (s : Socket) (more : Bytes), s.unread = a.response ++ more →
      s.refusals s.sends.length = none →
      ∃ s', connect (ε := Empty) buffer a.WS_PATH a.host a.port a.userId a.random s = .ok true s' ∧
        s'.unread = more ∧ s'.sends = s.sends ++ [a.request]) ∧
    ∀ s s', connect (ε := Empty) buffer a.WS_PATH a.host a.port a.userId a.random s = .ok true s' →
      ∃ response, Ends response ∧ s.unread = response ++ s'.unread ∧
        utf8 "HTTP/1.1 101 " <+: response ∧
        field? (utf8 "Sec-WebSocket-Accept") response =
          some (Base64.encode (Sha1.sha1 (a.key ++
            utf8 "258EAFA5-E914-47DA-95CA-C5AB0DC85B11"))) := by
  refine ⟨fun s more hs hsend => ?_, fun s more hs hsend => ?_, fun s s' h => connect_sound hbuffer h⟩
  · obtain ⟨inbox, haccept, hmore⟩ := accept_request (ε := Empty) hbuffer a hsize nowMs hs hsend
    refine ⟨_, _, haccept, hmore, rfl, ?_, fun hid => if_neg hid⟩
    split
    · have hfront : utf8 ("cpp-" ++ toString nowMs.toInt) = utf8 "cpp-" ++ utf8 (toString nowMs.toInt) := by
        simp [utf8, String.toByteArray_append]
      rw [hfront]
      exact List.cons_ne_nil _ _
    · next hid => exact hid
  · obtain ⟨inbox, hconnect, hmore⟩ := connect_response (ε := Empty) hbuffer a hs hsend
    exact ⟨_, hconnect, hmore, rfl⟩

/-- A client of a local server. -/
def localAttempt : Attempt where
  host := utf8 "127.0.0.1"
  port := 9898
  userId := utf8 "  user-1"
  WS_PATH := none
  random := List.replicate 16 0
  host_printable := Printable.of_all (by decide)
  userId_printable := Printable.of_all (by decide)
  path_printable := by
    intro path h
    cases h
  random_length := rfl

theorem handshake_agrees_local :
    (List.replicate 64 (0 : UInt8)).length = 64 ∧ localAttempt.request.length ≤ 8192 ∧
    ∃ id s', accept (ε := Empty) (List.replicate 64 0) none 0 (.delivering localAttempt.request) =
        .ok (some id) s' ∧ s'.unread = [] ∧ id = utf8 "user-1" := by
  have hsize : localAttempt.request.length ≤ 8192 := by decide +kernel
  refine ⟨rfl, hsize, ?_⟩
  obtain ⟨hserver, -, -⟩ := handshake_agrees (List.replicate 64 0) rfl localAttempt hsize 0
  obtain ⟨id, s', haccept, hunread, -, -, hid⟩ := hserver (.delivering localAttempt.request) []
    (by rw [Socket.unread_delivering, List.append_nil]) rfl
  have hannounced : localAttempt.announcedId = utf8 "user-1" := by decide +kernel
  refine ⟨id, s', haccept, hunread, ?_⟩
  rw [hid (by rw [hannounced]; decide), hannounced]

end Agreement

end HelloWebsocket.Cpp
