import HelloWebsocket.Ws.Delivery
import HelloWebsocket.Cpp.Messages
import HelloWebsocket.Swift.Receive

/-!
# The two WebSocket implementations

What the C++ and Swift writers put on the wire, the C++ and Swift readers take off it
again, and on every stream the two readers do the same.

## Implementation notes

The Swift reader throws `connectionClosed` for a close frame and for the end of the
stream. After a close frame the last buffer it has offered to the socket is a close
frame of its own.
-/

namespace HelloWebsocket.Agreement

open Ws Streams Loops Simulation

section RoundTrip

/-- The writers of binary frames. -/
inductive Writer
  | wsSendBinary
  | wsSendBinaryMasked
  | wsEncodeBinaryFrame (masked : Bool)

def Writer.masked : Writer → Bool
  | wsSendBinary => false
  | wsSendBinaryMasked => true
  | wsEncodeBinaryFrame masked => masked

/-- The octets are written for the data, with the key if the frame is masked. -/
def Writer.Writes (data : Bytes) (key : Key) (b : Bytes) : Writer → Prop
  | wsSendBinary => ∃ s s' sent, (Cpp.wsSendBinary data : EStateM Unit Socket Bool) s = .ok sent s' ∧
      s'.sends = s.sends ++ [b]
  | wsSendBinaryMasked => ∃ s s' sent, s.keys s.sends.length = key ∧
      (Cpp.wsSendBinaryMasked data : EStateM Unit Socket Bool) s = .ok sent s' ∧
      s'.sends = s.sends ++ [b]
  | wsEncodeBinaryFrame masked => b = Swift.wsEncodeBinaryFrame data masked key

/-- Every writer writes one final binary frame. -/
theorem Writer.writes_iff (w : Writer) (data : Bytes) (key : Key) (b : Bytes) :
    w.Writes data key b ↔
      b = frameOctets (.of data.length) (if w.masked then some key else none) ⟨true, 2, data⟩ := by
  cases w with
  | wsSendBinary =>
      constructor
      · rintro ⟨s, s', sent, hrun, hsends⟩
        rw [Cpp.wsSendBinary_eq] at hrun
        cases hrun
        exact (List.singleton_inj.mp (List.append_cancel_left hsends)).symm
      · rintro rfl
        exact ⟨.delivering [], _, _, Cpp.wsSendBinary_eq data _, rfl⟩
  | wsSendBinaryMasked =>
      constructor
      · rintro ⟨s, s', sent, rfl, hrun, hsends⟩
        rw [Cpp.wsSendBinaryMasked_eq] at hrun
        cases hrun
        exact (List.singleton_inj.mp (List.append_cancel_left hsends)).symm
      · rintro rfl
        exact ⟨{ Socket.delivering [] with keys := fun _ => key }, _, _, rfl,
          Cpp.wsSendBinaryMasked_eq data _, rfl⟩
  | wsEncodeBinaryFrame masked =>
      rw [Writes, Swift.wsEncodeBinaryFrame_eq]
      rfl

/-- What the writer has written is one frame of the message. -/
theorem Writer.Writes.encodes {w : Writer} {data b : Bytes} {key : Key} (h : w.Writes data key b)
    (hlen : data.length ≤ limit) : Encodes w.masked ⟨true, 2, data⟩ b := by
  have hfits : (LengthForm.of data.length).Fits data.length :=
    LengthForm.of_fits (lt_of_le_of_lt hlen (by decide))
  refine ⟨_, _, hfits, ?_, (w.writes_iff data key b).mp h⟩
  cases w.masked <;> rfl

/-- Each reader takes back what each writer has written, and refuses it in the other direction. -/
theorem frame_round_trip (w : Writer) (data : Bytes) (hlen : data.length ≤ limit) (key : Key) :
    (∃ b, w.Writes data key b) ∧ ∀ b rest, w.Writes data key b →
      ∀ s : Socket, s.unread = b ++ rest →
        ((Cpp.wsRecvFrame w.masked s).1.IsMessage data ∧
          (Cpp.wsRecvFrame w.masked s).2.unread = rest ∧
          (Cpp.wsRecvFrame w.masked s).2.sends = s.sends) ∧
        (∃ s', Swift.wsReadFrame w.masked s = .ok data s' ∧ s'.unread = rest ∧
          s'.sends = s.sends) ∧
        (Cpp.wsRecvFrame (!w.masked) s).1.isValid = false ∧
        ∃ e s', Swift.wsReadFrame (!w.masked) s = .error e s' := by
  refine ⟨⟨_, (w.writes_iff data key _).mpr rfl⟩, ?_⟩
  intro b rest hwrites s hstream
  have hb := hwrites.encodes hlen
  have hread : readMessage w.masked s.link = .ok data { s.link with stream := rest } :=
    readMessage_of_single hb rfl rfl hlen hstream
  obtain ⟨l, hwrong⟩ := readMessage_of_wrong_mask (l := s.link) hb hstream
  refine ⟨?_, ?_, (Cpp.wsRecvFrame_of_stop hwrong).1, ?_⟩
  · obtain ⟨hmessage, hshows⟩ := Cpp.wsRecvFrame_of_message hread
    refine ⟨hmessage, hshows.stream, ?_⟩
    rw [hshows.socket]
    exact List.append_nil _
  · have hagrees := Swift.wsReadFrame_agrees w.masked s
    rw [hread] at hagrees
    obtain ⟨p, s', hrun, rfl, hshows⟩ := hagrees.of_ok
    refine ⟨s', hrun, hshows.stream, ?_⟩
    rw [hshows.socket]
    exact List.append_nil _
  · have hagrees := Swift.wsReadFrame_agrees (!w.masked) s
    rw [hwrong] at hagrees
    obtain ⟨e, s', hrun, -, -⟩ := hagrees.of_error
    exact ⟨e, s', hrun⟩

/-- Three octets, written by C++ with a mask. -/
theorem frame_round_trip_masked : ∃ b s', Writer.Writes [1, 2, 3] ⟨[9, 8, 7, 6], rfl⟩ b
    .wsSendBinaryMasked ∧ Swift.wsReadFrame true (.delivering (b ++ [0x81])) = .ok [1, 2, 3] s' := by
  obtain ⟨⟨b, hb⟩, hround⟩ :=
    frame_round_trip .wsSendBinaryMasked [1, 2, 3] (by decide) ⟨[9, 8, 7, 6], rfl⟩
  obtain ⟨-, ⟨s', hread, -⟩, -⟩ := hround b [0x81] hb _ (Socket.unread_delivering _)
  exact ⟨b, s', hb, hread⟩

end RoundTrip

section Equivalence

/-- The socket after a call, whatever its outcome. -/
def finalSocket {ε α : Type} : EStateM.Result ε Socket α → Socket
  | .ok _ s => s
  | .error _ s => s

/-- The last buffer offered to the socket is a close frame. -/
def AnswersClose (s s' : Socket) : Prop :=
  ∃ earlier last, s'.sends = s.sends ++ (earlier ++ [last]) ∧ last.head? = some 0x88

theorem answersClose_of_closing {masked : Bool} {s s' : Socket} {fs : List Frame} {p : Bytes}
    (h : s'.sends = s.sends ++ render masked s (fs ++ [⟨true, 8, p⟩])) : AnswersClose s s' := by
  rw [render_concat] at h
  exact ⟨_, _, h, rfl⟩

/-- Pongs are not close frames. -/
theorem not_answersClose_of_pongs {masked : Bool} {s s' : Socket} {fs : List Frame}
    (h : s'.sends = s.sends ++ render masked s (pongs fs)) : ¬ AnswersClose s s' := by
  rintro ⟨earlier, last, hsends, hlast⟩
  have hrender : render masked s (pongs fs) = earlier ++ [last] :=
    List.append_cancel_left (h.symm.trans hsends)
  have hmem : last ∈ render masked s (pongs fs) := by
    rw [hrender]
    exact List.mem_append_right _ List.mem_cons_self
  obtain ⟨i, hi, rfl⟩ := List.mem_mapIdx.mp hmem
  obtain ⟨g, -, hg⟩ := List.mem_map.mp (List.getElem_mem hi)
  rw [← hg] at hlast
  have hoctet : (0x8A : UInt8) = 0x88 := Option.some.inj hlast
  exact absurd hoctet (by decide)

variable (expectMasked : Bool) {c s : Socket}

/-- The readers end in the same way: with a message, after a close frame or with a failure. -/
theorem readers_cases (hlink : c.link = s.link) :
    (∃ p s', (Cpp.wsRecvFrame expectMasked c).1.IsMessage p ∧
      Swift.wsReadFrame expectMasked s = .ok p s') ∨
    (∃ s', (Cpp.wsRecvFrame expectMasked c).1.isValid = true ∧
      (Cpp.wsRecvFrame expectMasked c).1.isClose = true ∧
      Swift.wsReadFrame expectMasked s = .error (.thrown .connectionClosed) s' ∧
      AnswersClose s s') ∨
    (∃ e s', (Cpp.wsRecvFrame expectMasked c).1.isValid = false ∧
      Swift.wsReadFrame expectMasked s = .error (.thrown e) s' ∧ ¬ AnswersClose s s') := by
  have hcpp := Cpp.wsRecvFrame_matches expectMasked c
  have hswift := Swift.wsReadFrame_agrees expectMasked s
  have hanswered := readMessage_answered expectMasked s.link
  rw [hlink] at hcpp
  cases hread : readMessage expectMasked s.link with
  | ok p l =>
      rw [hread] at hcpp hswift
      obtain ⟨_, s', hrun, rfl, -⟩ := hswift.of_ok
      exact .inl ⟨_, s', hcpp.1, hrun⟩
  | error stop l =>
      rw [hread] at hcpp hswift hanswered
      obtain ⟨failure, s', hrun, hstops, hshows⟩ := hswift.of_error
      have hsends : s'.sends = s.sends ++ render (!expectMasked) s l.replies := by
        rw [hshows.socket]
      cases stop with
      | closed p =>
          obtain ⟨fs, hfs⟩ := hanswered
          rw [hfs] at hsends
          rw [hstops.closed] at hrun
          exact .inr (.inl ⟨s', hcpp.1.1, hcpp.1.2.1, hrun, answersClose_of_closing hsends⟩)
      | fault reason =>
          obtain ⟨fs, hfs⟩ := hanswered
          rw [hfs] at hsends
          obtain ⟨e, rfl⟩ := hstops.thrown
          exact .inr (.inr ⟨e, s', hcpp.1, hrun, not_answersClose_of_pongs hsends⟩)
      | replyFailed =>
          obtain ⟨fs, hfs⟩ := hanswered
          rw [hfs] at hsends
          obtain ⟨e, rfl⟩ := hstops.thrown
          exact .inr (.inr ⟨e, s', hcpp.1, hrun, not_answersClose_of_pongs hsends⟩)

/-- The readers leave the same rest of the stream and have tried the same replies. -/
theorem readers_same_effects (hlink : c.link = s.link) :
    (Cpp.wsRecvFrame expectMasked c).2.unread =
        (finalSocket (Swift.wsReadFrame expectMasked s)).unread ∧
      ∃ replies, (Cpp.wsRecvFrame expectMasked c).2.sends =
          c.sends ++ render (!expectMasked) c replies ∧
        (finalSocket (Swift.wsReadFrame expectMasked s)).sends =
          s.sends ++ render (!expectMasked) s replies := by
  have hcpp := Cpp.wsRecvFrame_matches expectMasked c
  have hswift := Swift.wsReadFrame_agrees expectMasked s
  rw [hlink] at hcpp
  have hboth : ∃ l, Shows (!expectMasked) c (Cpp.wsRecvFrame expectMasked c).2 l ∧
      Shows (!expectMasked) s (finalSocket (Swift.wsReadFrame expectMasked s)) l := by
    cases hread : readMessage expectMasked s.link with
    | ok p l =>
        rw [hread] at hcpp hswift
        obtain ⟨_, s', hrun, -, hshows⟩ := hswift.of_ok
        rw [hrun]
        exact ⟨l, hcpp.2, hshows⟩
    | error stop l =>
        rw [hread] at hcpp hswift
        obtain ⟨_, s', hrun, -, hshows⟩ := hswift.of_error
        rw [hrun]
        exact ⟨l, hcpp.2, hshows⟩
  obtain ⟨l, hc, hs⟩ := hboth
  refine ⟨hc.stream.trans hs.stream.symm, l.replies, ?_, ?_⟩
  · rw [hc.socket]
  · rw [hs.socket]

/-- On the same stream and with the same successes and failures of sends, the C++ and the Swift
reader do the same. -/
theorem readers_agree (expectMasked : Bool) (c s : Socket) (hstream : c.unread = s.unread)
    (hsends : ∀ n, (c.refusals (c.sends.length + n)).isNone =
      (s.refusals (s.sends.length + n)).isNone) :
    (∀ p, (Cpp.wsRecvFrame expectMasked c).1.IsMessage p ↔
      ∃ s', Swift.wsReadFrame expectMasked s = .ok p s') ∧
    ((Cpp.wsRecvFrame expectMasked c).1.isValid = true ∧
        (Cpp.wsRecvFrame expectMasked c).1.isClose = true ↔
      ∃ s', Swift.wsReadFrame expectMasked s = .error (.thrown .connectionClosed) s' ∧
        AnswersClose s s') ∧
    ((Cpp.wsRecvFrame expectMasked c).1.isValid = false ↔
      ∃ e s', Swift.wsReadFrame expectMasked s = .error (.thrown e) s' ∧
        (e ≠ .connectionClosed ∨ ¬ AnswersClose s s')) ∧
    (Cpp.wsRecvFrame expectMasked c).2.unread =
      (finalSocket (Swift.wsReadFrame expectMasked s)).unread ∧
    ∃ replies, (Cpp.wsRecvFrame expectMasked c).2.sends =
        c.sends ++ render (!expectMasked) c replies ∧
      (finalSocket (Swift.wsReadFrame expectMasked s)).sends =
        s.sends ++ render (!expectMasked) s replies := by
  have hlink : c.link = s.link := by
    rw [Socket.link, Socket.link, hstream, funext hsends]
  rw [← and_assoc, ← and_assoc]
  refine ⟨?_, readers_same_effects expectMasked hlink⟩
  rcases readers_cases expectMasked hlink with
    ⟨p, s', hmessage, hrun⟩ | ⟨s', hvalid, hclose, hrun, hanswer⟩ | ⟨e, s', hvalid, hrun, hanswer⟩
  · obtain ⟨hvalid, hopen, hop, hpayload⟩ := hmessage
    simp [Cpp.WSFrame.IsMessage, hvalid, hopen, hop, hpayload, hrun]
  · simp [Cpp.WSFrame.IsMessage, hvalid, hclose, hrun, hanswer]
  · simp [Cpp.WSFrame.IsMessage, hvalid, hrun, hanswer]

/-- A close frame on a connection that ends in an orderly way and on one that breaks. -/
theorem readers_agree_close :
    (Cpp.wsRecvFrame false (.delivering [0x88, 0x00, 0x82])).2.unread =
      (finalSocket (Swift.wsReadFrame false { Socket.delivering [0x88, 0x00, 0x82] with
        ending := some 104 })).unread :=
  (readers_agree false (.delivering [0x88, 0x00, 0x82])
    { Socket.delivering [0x88, 0x00, 0x82] with ending := some 104 } rfl fun _ => rfl).2.2.2.1

end Equivalence

section Delivery

theorem respects_wsSendControl {ε : Type} (opcode : UInt8) (payload : Bytes) (masked : Bool) :
    Respects SameStream (Cpp.wsSendControl opcode payload masked : EStateM ε Socket Bool) := by
  have hsend (buf : Bytes) : Respects SameStream (Cpp.sendAll buf : EStateM ε Socket Bool) := by
    refine respects_iterate (fun buf => respects_ite ?_ (respects_pure _)) buf
    refine respects_bind (respects_send buf) ?_
    rintro (code | n) <;> exact respects_pure _
  apply respects_ite (respects_pure _)
  exact respects_ite (respects_bind respects_newKey fun _ => hsend _) (hsend _)

theorem uniform_wsRecvFrame (expectMasked : Bool) : Uniform (Cpp.wsRecvFrame expectMasked) := by
  have hrecv (message : Cpp.WSFrame) (n : Nat) :
      Respects SameStream (Cpp.orReturn message (Cpp.recvAll n)) :=
    respects_adaptExcept (respects_receive Cpp.recvSome n)
  have hhandle (st : Cpp.Assembling) (fin : Bool) (frame : Cpp.WSFrame) :
      Respects SameStream (Cpp.handleFrame expectMasked st fin frame) := by
    apply respects_ite
    · exact respects_bind (respects_wsSendControl _ _ _) fun _ => respects_throw _
    apply respects_ite
    · exact respects_bind (respects_wsSendControl _ _ _) fun _ =>
        respects_throwIf (respects_pure _)
    apply respects_ite (respects_pure _)
    apply respects_ite
    · exact respects_ite (respects_pure _) (respects_pure _)
    apply respects_ite
    · exact respects_ite (respects_pure _) (respects_pure _)
    · exact respects_throw _
  have hloop : Respects SameStream (iterate (Cpp.receiving expectMasked) ⟨{}, false⟩) := by
    refine respects_iterate (fun st => respects_bind ?_ fun _ => hhandle _ _ _) _
    rw [Cpp.recvFrame_eq]
    exact respects_frameBy (hrecv st.message)
  intro c d hcd
  have hagrees := hloop c d hcd
  rw [Cpp.wsRecvFrame, Cpp.wsRecvFrame]
  cases h : iterate (Cpp.receiving expectMasked) ⟨{}, false⟩ c with
  | ok message c' =>
      rw [h] at hagrees
      obtain ⟨_, d', hd, rfl, hsame⟩ := hagrees.ok
      rw [hd]
      exact ⟨rfl, hsame⟩
  | error message c' =>
      rw [h] at hagrees
      obtain ⟨_, d', hd, rfl, hsame⟩ := hagrees.error
      rw [hd]
      exact ⟨rfl, hsame⟩

/-- A call of `wsReadFrame`: what it returns or throws, and the socket after it. -/
def wsReadFrameCall (expectMasked : Bool) (s : Socket) : Except Swift.Failure Bytes × Socket :=
  match Swift.wsReadFrame expectMasked s with
  | .ok payload s' => (.ok payload, s')
  | .error failure s' => (.error failure, s')

theorem uniform_wsReadFrame (expectMasked : Bool) : Uniform (wsReadFrameCall expectMasked) := by
  have hencode (opcode : UInt8) (payload : Bytes) (masked : Bool) :
      Respects SameStream (Swift.wsEncodeControlFrame opcode payload masked) := by
    apply respects_ite (respects_throw _)
    exact respects_ite (respects_bind respects_newKey fun _ => respects_pure _) (respects_pure _)
  have hsend (data : Bytes) : Respects SameStream (Swift.sendBytes data) := by
    refine respects_bind (respects_send data) ?_
    rintro (code | sent)
    · exact respects_throw _
    · exact respects_pure _
  have hswitch (st : Swift.Progress) (fin : Bool) (opcode : UInt8) (payload : Bytes) :
      Respects SameStream (Swift.switchOpcode expectMasked st fin opcode payload) := by
    apply respects_ite
    · exact respects_bind (hencode _ _ _) fun close =>
        respects_bind (respects_send close) fun _ => respects_throw _
    apply respects_ite
    · exact respects_bind (hencode _ _ _) fun answer =>
        respects_bind (hsend answer) fun _ => respects_pure _
    apply respects_ite (respects_pure _)
    apply respects_ite
    · exact respects_ite (respects_pure _) (respects_pure _)
    apply respects_ite
    · exact respects_ite (respects_pure _) (respects_pure _)
    · exact respects_throw _
  have hloop : Respects SameStream (Swift.wsReadFrame expectMasked) := by
    refine respects_iterate (fun st => respects_bind ?_ fun _ => hswitch _ _ _ _) _
    rw [Swift.readFrameParts_eq]
    exact respects_frameBy (respects_receive Swift.recvChunk)
  intro c d hcd
  have hagrees := hloop c d hcd
  rw [wsReadFrameCall, wsReadFrameCall]
  cases h : Swift.wsReadFrame expectMasked c with
  | ok payload c' =>
      rw [h] at hagrees
      obtain ⟨_, d', hd, rfl, hsame⟩ := hagrees.ok
      rw [hd]
      exact ⟨rfl, hsame⟩
  | error failure c' =>
      rw [h] at hagrees
      obtain ⟨_, d', hd, rfl, hsame⟩ := hagrees.error
      rw [hd]
      exact ⟨rfl, hsame⟩

/-- However a stream is cut into chunks, repeated calls of each reader have the same results, on
a connection that ends and on one that stays open. -/
theorem delivery_irrelevant (expectMasked : Bool) (s : Socket) :
    (∀ x y : Chunks UInt8, x.unread = y.unread → ∀ n,
      (calls (Cpp.wsRecvFrame expectMasked) n { s with inbox := x }).1 =
        (calls (Cpp.wsRecvFrame expectMasked) n { s with inbox := y }).1 ∧
      (calls (wsReadFrameCall expectMasked) n { s with inbox := x }).1 =
        (calls (wsReadFrameCall expectMasked) n { s with inbox := y }).1) ∧
    ∀ x y : Arrivals, x.Within y → y.Within x →
      (∀ results, ReturnsOn (Cpp.wsRecvFrame expectMasked) s x results ↔
        ReturnsOn (Cpp.wsRecvFrame expectMasked) s y results) ∧
      ∀ results, ReturnsOn (wsReadFrameCall expectMasked) s x results ↔
        ReturnsOn (wsReadFrameCall expectMasked) s y results := by
  have hcpp := uniform_wsRecvFrame expectMasked
  have hswift := uniform_wsReadFrame expectMasked
  constructor
  · intro x y h n
    have hsame : SameStream { s with inbox := x } { s with inbox := y } := ⟨rfl, h⟩
    exact ⟨(uniform_calls hcpp n _ _ hsame).1, (uniform_calls hswift n _ _ hsame).1⟩
  · intro x y hxy hyx
    exact ⟨fun _ => ⟨.of_within hcpp hxy, .of_within hcpp hyx⟩,
      fun _ => ⟨.of_within hswift hxy, .of_within hswift hyx⟩⟩

/-- Once a frame with a message has come in, octet by octet, the call returns the message. -/
theorem returns_of_frame {expectMasked : Bool} {p b : Bytes} (hb : Encodes expectMasked ⟨true, 2, p⟩ b)
    (hlen : p.length ≤ limit) (s : Socket) :
    ReturnsOn (Cpp.wsRecvFrame expectMasked) s ⟨fun _ => .singles b, fun _ => List.prefix_refl _⟩
      [⟨some 2, p, false, true⟩] := by
  refine ⟨0, [], fun more ending => ?_⟩
  have hstream : (s.after (.singles b) more ending).link.stream = b ++ more.unread := by
    change (Chunks.append _ _).unread = _
    rw [Chunks.unread_append, Chunks.unread_singles]
  have hread := readMessage_of_single hb rfl rfl hlen hstream
  obtain ⟨hmessage, hshows⟩ := Cpp.wsRecvFrame_of_message hread
  refine ⟨?_, hshows.stream⟩
  change [(Cpp.wsRecvFrame expectMasked (s.after (.singles b) more ending)).1] = _
  have hframe (w : Cpp.WSFrame) (h : w.IsMessage p) : w = ⟨some 2, p, false, true⟩ := by
    obtain ⟨hvalid, hopen, hop, hpayload⟩ := h
    rw [← hvalid, ← hopen, ← hop, ← hpayload]
  rw [hframe _ hmessage]

/-- An empty message that comes in one piece. -/
theorem delivery_irrelevant_one_piece :
    ReturnsOn (Cpp.wsRecvFrame false) (.delivering [])
      ⟨fun _ => ⟨[[0x82, 0x00]], by decide⟩, fun _ => List.prefix_refl _⟩
      [⟨some 2, [], false, true⟩] := by
  have hframe : Encodes false ⟨true, 2, []⟩ [0x82, 0x00] := ⟨.short, none, by decide, rfl, rfl⟩
  refine (((delivery_irrelevant false (.delivering [])).2 _ _ ?_ ?_).1 _).mp
    (returns_of_frame hframe (by decide) (.delivering []))
  · exact fun _ => ⟨0, List.prefix_refl _⟩
  · exact fun _ => ⟨0, List.prefix_refl _⟩

end Delivery

end HelloWebsocket.Agreement
