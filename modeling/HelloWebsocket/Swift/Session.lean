import HelloWebsocket.Wire.Outlet
import HelloWebsocket.Swift.WebSocket

/-!
# Sending on a Swift session

`Session.send` of the server's `main.swift` over `sendBytes` of `TCPSocket.swift`,
with a kernel that may take a part of what it is offered.

## Implementation notes

`sendBytes` makes one call and returns its count, which `Session.send` discards. The
lock is held during a call of `send`, so the calls of all threads form one sequence.
A frame that is not masked needs no key.
-/

namespace HelloWebsocket.Swift

open Outlets Ws

/-- The parts of `TCPSocket` and `Session` that `send` uses. -/
structure Session where
  socket : Outlet UInt8 Int32
  active : Bool

namespace Session

/-- A session on a new connection. -/
def start (kernel : Kernel Int32) : Session := ⟨.fresh kernel, true⟩

/-- The frame that `send` encodes. -/
def wsFrame (data : Bytes) : Bytes := wsEncodeBinaryFrame data false .zero

/-- `Session.send`; the number that `sendBytes` returns is not looked at. -/
def send (s : Session) (data : Bytes) : Session :=
  if s.active then
    match s.socket.send (wsFrame data) with
    | (.ok _, socket) => { s with socket := socket }
    | (.error _, socket) => ⟨socket, false⟩
  else s

/-- A sequence of calls of `send`. -/
def sendAll (s : Session) (messages : List Bytes) : Session := messages.foldl send s

end Session

open Session

theorem wsFrame_ne_nil (data : Bytes) : wsFrame data ≠ [] := List.cons_ne_nil _ _

/-- The state after a sequence of calls: a failed call has ended the session, or every frame has
been offered to the kernel once. -/
theorem sendAll_spec (kernel : Kernel Int32) (messages : List Bytes) :
    (((start kernel).sendAll messages).active = false ∧ Fails kernel (messages.map wsFrame)) ∨
      (((start kernel).sendAll messages).active = true ∧ ¬ Fails kernel (messages.map wsFrame) ∧
        Offered kernel (messages.map wsFrame) ((start kernel).sendAll messages).socket) := by
  induction messages using List.reverseRecOn with
  | nil =>
      refine Or.inr ⟨rfl, ?_, offered_fresh kernel⟩
      rintro ⟨i, hi, -⟩
      exact absurd hi (Nat.not_lt_zero i)
  | append_singleton messages data ih =>
      rw [sendAll, List.foldl_append, List.foldl_cons, List.foldl_nil, List.map_append,
        List.map_singleton]
      rcases ih with ⟨hactive, hfails⟩ | ⟨hactive, hfails, hoffered⟩
      · refine Or.inl ⟨?_, fails_concat.mpr (Or.inl hfails)⟩
        rw [sendAll] at hactive
        rw [send, hactive]
        exact hactive
      · rw [sendAll] at hactive hoffered
        rw [send, hactive, if_pos rfl, Outlet.send, hoffered.kernel_eq, hoffered.calls]
        cases hcall : kernel.send (messages.map wsFrame).length (wsFrame data).length with
        | error e => exact Or.inl ⟨rfl, fails_concat.mpr (Or.inr ⟨e, hcall⟩)⟩
        | ok taken =>
            refine Or.inr ⟨rfl, ?_, ?_⟩
            · rw [fails_concat, hcall]
              rintro (hbefore | ⟨e, he⟩)
              · exact hfails hbefore
              · cases he
            · have hsend := hoffered.send (wsFrame_ne_nil data) hcall
              rwa [hoffered.calls, hoffered.kernel_eq] at hsend

/-- While the session is active, the octets on the wire are the frames of the messages exactly when
no call of `send` has taken less than it was offered. -/
theorem session_sends_frames_iff (kernel : Kernel Int32) (messages : List Bytes) :
    (((start kernel).sendAll messages).active = true →
      ((start kernel).sendAll messages).socket.wire = (messages.map wsFrame).flatten) ↔
    Whole kernel (messages.map wsFrame) ∨ Fails kernel (messages.map wsFrame) := by
  rcases sendAll_spec kernel messages with ⟨hactive, hfails⟩ | ⟨hactive, hfails, hoffered⟩
  · refine ⟨fun _ => Or.inr hfails, fun _ htrue => ?_⟩
    rw [hactive] at htrue
    cases htrue
  · rw [← hoffered.wire_eq_iff]
    constructor
    · exact fun hwire => Or.inl (hwire hactive)
    · rintro (hwire | hfail)
      · exact fun _ => hwire
      · exact absurd hfail hfails

/-- A kernel that takes one octet at a time. -/
def reluctant : Kernel Int32 where
  send _ _ := .ok 1
  bounds := by
    rintro _ offered _ hpos ⟨⟩
    exact ⟨Nat.le_refl 1, hpos⟩

/-- Two messages leave the first octet of each frame on the wire, and the session stays active. -/
theorem first_octets_only :
    ((start reluctant).sendAll [[1, 2, 3], [4]]).active = true ∧
    ((start reluctant).sendAll [[1, 2, 3], [4]]).socket.wire = [0x82, 0x82] ∧
    ([[1, 2, 3], [4]].map wsFrame).flatten = [0x82, 3, 1, 2, 3, 0x82, 1, 4] := by
  decide

end HelloWebsocket.Swift
