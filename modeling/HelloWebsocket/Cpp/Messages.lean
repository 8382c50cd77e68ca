import HelloWebsocket.Cpp.Receive

/-!
# The messages `wsRecvFrame` accepts

When replies can be sent, `wsRecvFrame` returns a message exactly when the stream
begins with the frames of one. The size check counts control frames too. A ping in
the middle of a message near the limit is therefore refused, although its payload
never becomes part of the message.
-/

namespace HelloWebsocket.Cpp

open Ws

section Results

variable {expectMasked : Bool} {s : Socket}

theorem wsRecvFrame_of_message {p : Bytes} {l : Link}
    (h : readMessage expectMasked s.link = .ok p l) :
    (wsRecvFrame expectMasked s).1.IsMessage p ∧
      Shows (!expectMasked) s (wsRecvFrame expectMasked s).2 l := by
  have hmatches := wsRecvFrame_matches expectMasked s
  rwa [h] at hmatches

theorem wsRecvFrame_of_stop {e : Stop} {l : Link} (h : readMessage expectMasked s.link = .error e l) :
    (wsRecvFrame expectMasked s).1.Stops e ∧
      Shows (!expectMasked) s (wsRecvFrame expectMasked s).2 l := by
  have hmatches := wsRecvFrame_matches expectMasked s
  rwa [h] at hmatches

theorem WSFrame.not_isMessage_of_stops {w : WSFrame} {e : Stop} (h : w.Stops e) (p : Bytes) :
    ¬ w.IsMessage p := by
  rintro ⟨hvalid, hopen, -⟩
  cases e with
  | closed q => exact Bool.false_ne_true (hopen.symm.trans h.2.1)
  | fault reason => exact Bool.false_ne_true (Eq.trans (Eq.symm h) hvalid)
  | replyFailed => exact Bool.false_ne_true (Eq.trans (Eq.symm h) hvalid)

/-- A message returned is one that the message reader returns. -/
theorem readMessage_of_isMessage {p : Bytes} (h : (wsRecvFrame expectMasked s).1.IsMessage p) :
    ∃ l, readMessage expectMasked s.link = .ok p l := by
  cases hread : readMessage expectMasked s.link with
  | ok q l =>
      obtain ⟨hq, -⟩ := wsRecvFrame_of_message hread
      rw [← h.2.2.2, hq.2.2.2]
      exact ⟨l, rfl⟩
  | error e l =>
      obtain ⟨hstops, -⟩ := wsRecvFrame_of_stop hread
      exact absurd h (WSFrame.not_isMessage_of_stops hstops p)

theorem link_accepts (hsend : ∀ n, s.refusals n = none) (n : Nat) : s.link.accepts n = true := by
  change (s.refusals (s.sends.length + n)).isNone = true
  rw [hsend]
  rfl

/-- The result on a stream that begins with the frames of a message. -/
theorem wsRecvFrame_of_frames (hsend : ∀ n, s.refusals n = none) {fs : List Ws.Frame} {b rest : Bytes}
    (hfs : Ws.IsMessage fs) (hsized : Sized 0 fs) (hb : EncodesAll expectMasked fs b)
    (hstream : s.unread = b ++ rest) :
    (wsRecvFrame expectMasked s).1.IsMessage (dataOf fs) ∧
      (wsRecvFrame expectMasked s).2.unread = rest ∧
      (wsRecvFrame expectMasked s).2.sends =
        s.sends ++ render (!expectMasked) s (pongs fs) := by
  have hadvances := advances_none_iff.mpr ⟨hfs, hsized, rfl⟩
  have hread : readMessage expectMasked s.link = .ok (dataOf fs) { s.link with
      stream := rest
      replies := pongs fs } :=
    (readMessage_eq_ok_iff (link_accepts hsend)).mpr ⟨fs, b, hadvances, hb, hstream, rfl⟩
  obtain ⟨hmessage, hshows⟩ := wsRecvFrame_of_message hread
  refine ⟨hmessage, hshows.stream, ?_⟩
  rw [hshows.socket]

end Results

/-- `wsRecvFrame` accepts the grammar of binary messages. -/
theorem wsRecvFrame_message_iff (expectMasked : Bool) (s : Socket)
    (hsend : ∀ n, s.refusals n = none) :
    (∀ p, (wsRecvFrame expectMasked s).1.IsMessage p ↔
      ∃ fs b rest, Ws.IsMessage fs ∧ Sized 0 fs ∧ EncodesAll expectMasked fs b ∧
        s.unread = b ++ rest ∧ p = dataOf fs) ∧
    (∀ fs b rest, Ws.IsMessage fs → Sized 0 fs → EncodesAll expectMasked fs b →
      s.unread = b ++ rest →
      (wsRecvFrame expectMasked s).2.unread = rest ∧
        (wsRecvFrame expectMasked s).2.sends =
          s.sends ++ render (!expectMasked) s (pongs fs)) ∧
    (∀ fragmented pre f b c rest, IsBeginning fragmented pre → EncodesAll expectMasked pre b →
      Encodes expectMasked f c → (f.opcode ≠ 8 ∧ f.opcode ≠ 9 ∧ f.opcode ≠ 10) →
      f.opcode ≠ (if fragmented then 0 else 2) → s.unread = b ++ (c ++ rest) →
      (wsRecvFrame expectMasked s).1.isValid = false) := by
  refine ⟨fun p => ⟨fun hp => ?_, ?_⟩, ?_, ?_⟩
  · obtain ⟨l, hread⟩ := readMessage_of_isMessage hp
    obtain ⟨fs, b, hfs, hb, hstream, -⟩ := (readMessage_eq_ok_iff (link_accepts hsend)).mp hread
    obtain ⟨hmessage, hsized, rfl⟩ := advances_none_iff.mp hfs
    exact ⟨fs, b, l.stream, hmessage, hsized, hb, hstream, rfl⟩
  · rintro ⟨fs, b, rest, hfs, hsized, hb, hstream, rfl⟩
    exact (wsRecvFrame_of_frames hsend hfs hsized hb hstream).1
  · intro fs b rest hfs hsized hb hstream
    exact (wsRecvFrame_of_frames hsend hfs hsized hb hstream).2
  · rintro fragmented pre f b c rest hpre hb hc ⟨hclose, hping, hpong⟩ hdata hstream
    obtain ⟨a, rfl, hleads⟩ := hpre.leads
    have hnext := next_of_refused ⟨hping, hpong⟩ hdata
    have hstop : ∃ l, readMessage expectMasked s.link = .error (.fault .violation) l := by
      rcases iterate_of_leads (l := s.link) hleads hb hstream (link_accepts hsend) with h | h
      · exact h
      · obtain ⟨l, hl⟩ := iterate_of_refused (l := { s.link with
          stream := c ++ rest
          replies := [] ++ pongs pre }) hc hclose hnext rfl
        exact ⟨l, h.trans hl⟩
    obtain ⟨l, hread⟩ := hstop
    exact (wsRecvFrame_of_stop hread).1

/-- A ping, then a message of one octet. -/
theorem wsRecvFrame_message_ping : (wsRecvFrame false
    (Socket.delivering [0x89, 0x00, 0x82, 0x01, 0x07])).1.IsMessage [0x07] := by
  refine ((wsRecvFrame_message_iff false _ fun _ => rfl).1 _).mpr
    ⟨[⟨true, 9, []⟩, ⟨true, 2, [0x07]⟩], [0x89, 0x00, 0x82, 0x01, 0x07], [], ?_, ?_, ?_,
      Socket.unread_delivering _, rfl⟩
  · refine ⟨[⟨true, 9, []⟩], ⟨true, 2, [0x07]⟩, [], rfl, ?_, rfl, .inl ⟨rfl, rfl⟩⟩
    intro f hf
    rw [List.mem_singleton.mp hf]
    exact ⟨.inl rfl, rfl, by decide⟩
  · exact ⟨by decide, by decide, trivial⟩
  · exact ⟨[0x89, 0x00], [0x82, 0x01, 0x07], ⟨.short, none, by decide, rfl, rfl⟩,
      encodesAll_singleton ⟨.short, none, by decide, rfl, rfl⟩, rfl⟩

section Insertion

variable {expectMasked : Bool} {s : Socket} {pre post : List Ws.Frame} {g : Ws.Frame} {b c d rest : Bytes}

/-- A control frame that does not fit ends the reading. -/
theorem wsRecvFrame_of_oversized_control (hsend : ∀ n, s.refusals n = none) (hg : g.IsControl)
    (hpost : post ≠ []) {p : Bytes} (hmessage : Advances none (pre ++ post) (.inr p))
    (hb : EncodesAll expectMasked pre b) (hc : Encodes expectMasked g c)
    (hstream : s.unread = b ++ (c ++ rest))
    (hbig : ¬ (dataOf pre).length + g.payload.length ≤ limit) :
    (wsRecvFrame expectMasked s).1.isValid = false := by
  obtain ⟨a, hpre, -⟩ := hmessage.split hpost
  have hrefused : ¬ a.Admits g := by
    rw [admits_control_iff hg.1, hpre.held_of_none]
    intro hok
    exact hbig hok.2
  have hread := iterate_of_advances (l := s.link) hpre hb hstream (link_accepts hsend)
  obtain ⟨l, hturn⟩ := turn_of_not_admits (l := { s.link with
    stream := c ++ rest
    replies := [] ++ pongs pre }) hc hrefused rfl
  have hstop := hread.trans (Loops.iterate_of_error (B := reading expectMasked) hturn)
  exact (wsRecvFrame_of_stop hstop).1

/-- A control frame put between the frames of a message changes nothing but the replies exactly
when its payload fits on top of the data before it. -/
theorem wsRecvFrame_insert_iff (expectMasked : Bool) (s t : Socket)
    (hs : ∀ n, s.refusals n = none) (ht : ∀ n, t.refusals n = none) (pre post : List Ws.Frame)
    (g : Ws.Frame) (b c d rest : Bytes) (hpost : post ≠ []) (hmessage : Ws.IsMessage (pre ++ post))
    (hsized : Sized 0 (pre ++ post)) (hg : g.IsControl) (hb : EncodesAll expectMasked pre b)
    (hc : Encodes expectMasked g c) (hd : EncodesAll expectMasked post d)
    (hs_stream : s.unread = b ++ (d ++ rest)) (ht_stream : t.unread = b ++ (c ++ (d ++ rest))) :
    (wsRecvFrame expectMasked s).1.IsMessage (dataOf (pre ++ post)) ∧
    (((wsRecvFrame expectMasked t).1.IsMessage (dataOf (pre ++ post)) ∧
        (wsRecvFrame expectMasked t).2.unread = rest ∧
        (wsRecvFrame expectMasked t).2.sends = t.sends ++
          render (!expectMasked) t (pongs pre ++ pongs [g] ++ pongs post)) ↔
      (dataOf pre).length + g.payload.length ≤ limit) := by
  have hadvances := advances_none_iff.mpr ⟨hmessage, hsized, rfl⟩
  have hplain : s.unread = b ++ d ++ rest := by rw [hs_stream, List.append_assoc]
  refine ⟨(wsRecvFrame_of_frames hs hmessage hsized (encodesAll_append hb hd) hplain).1, ?_, ?_⟩
  · rintro ⟨hvalid, -, -⟩
    by_contra hbig
    have hinvalid := wsRecvFrame_of_oversized_control ht hg hpost hadvances hb hc ht_stream hbig
    exact Bool.false_ne_true (hinvalid.symm.trans hvalid.1)
  · intro hfits
    obtain ⟨hmessage', hsized', hdata⟩ :=
      advances_none_iff.mp ((advances_insert_iff hg hpost hadvances).mpr hfits)
    have hall : EncodesAll expectMasked (pre ++ g :: post) (b ++ (c ++ d)) :=
      encodesAll_append hb ⟨c, d, hc, hd, rfl⟩
    have hstream : t.unread = b ++ (c ++ d) ++ rest := by
      rw [ht_stream, List.append_assoc, List.append_assoc]
    have hresult := wsRecvFrame_of_frames ht hmessage' hsized' hall hstream
    rw [← hdata, ← List.singleton_append, pongs_append, pongs_append, ← List.append_assoc] at hresult
    exact hresult

/-- A pong with one octet between a fragment of one octet and an empty last one. -/
theorem wsRecvFrame_insert_pong : (wsRecvFrame false
    (Socket.delivering [0x02, 0x01, 0x07, 0x8A, 0x01, 0x05, 0x80, 0x00])).1.IsMessage [0x07] :=
  ((wsRecvFrame_insert_iff false (.delivering [0x02, 0x01, 0x07, 0x80, 0x00]) (.delivering _)
    (fun _ => rfl) (fun _ => rfl) [⟨false, 2, [0x07]⟩] [⟨true, 0, []⟩] ⟨true, 10, [0x05]⟩
    [0x02, 0x01, 0x07] [0x8A, 0x01, 0x05] [0x80, 0x00] [] (by decide)
    ⟨[], ⟨false, 2, [0x07]⟩, [⟨true, 0, []⟩], rfl, nofun, rfl,
      .inr ⟨rfl, [], ⟨true, 0, []⟩, rfl, nofun, rfl, rfl⟩⟩
    ⟨by decide, by decide, trivial⟩ ⟨.inr rfl, rfl, by decide⟩
    (encodesAll_singleton ⟨.short, none, by decide, rfl, rfl⟩) ⟨.short, none, by decide, rfl, rfl⟩
    (encodesAll_singleton ⟨.short, none, by decide, rfl, rfl⟩) (Socket.unread_delivering _)
    (Socket.unread_delivering _)).2.mpr (by decide)).1

/-- A first fragment as large as a message may be. -/
def fullFragment : Ws.Frame := ⟨false, 2, List.replicate limit 0⟩

/-- The same message is accepted without a ping before its empty last fragment and refused with
one of a single octet. -/
theorem wsRecvFrame_refuses_ping :
    (wsRecvFrame false (.delivering (frameOctets .long none fullFragment ++ [0x80, 0x00]))).1.isValid
        = true ∧
      (wsRecvFrame false (.delivering
        (frameOctets .long none fullFragment ++ ([0x89, 0x01, 0x05] ++ [0x80, 0x00])))).1.isValid
        = false := by
  have hlength : fullFragment.payload.length = limit := List.length_replicate
  have hfits : LengthForm.Fits fullFragment.payload.length .long := by
    rw [hlength]
    decide
  have hdata : fullFragment.data = fullFragment.payload := Ws.Frame.data_of_opcode (.inl rfl)
  have hfirst : EncodesAll false [fullFragment] (frameOctets .long none fullFragment) :=
    encodesAll_singleton ⟨.long, none, hfits, rfl, rfl⟩
  have hlast : EncodesAll false [⟨true, 0, []⟩] [0x80, 0x00] :=
    encodesAll_singleton ⟨.short, none, by decide, rfl, rfl⟩
  have hmessage : Ws.IsMessage [fullFragment, ⟨true, 0, []⟩] :=
    ⟨[], fullFragment, [⟨true, 0, []⟩], rfl, nofun, rfl,
      .inr ⟨rfl, [], ⟨true, 0, []⟩, rfl, nofun, rfl, rfl⟩⟩
  have hsized : Sized 0 [fullFragment, ⟨true, 0, []⟩] := by
    refine ⟨?_, ?_, trivial⟩
    · rw [hlength, Nat.zero_add]
    · rw [hdata, hlength, Nat.zero_add]
      exact Nat.le_refl _
  have hadvances : Advances none ([fullFragment] ++ [⟨true, 0, []⟩]) _ :=
    advances_none_iff.mpr ⟨hmessage, hsized, rfl⟩
  constructor
  · have hstream : (Socket.delivering (frameOctets .long none fullFragment ++ [0x80, 0x00])).unread =
        frameOctets .long none fullFragment ++ [0x80, 0x00] ++ [] := by
      rw [Socket.unread_delivering, List.append_nil]
    exact (wsRecvFrame_of_frames (fun _ => rfl) hmessage hsized (encodesAll_append hfirst hlast)
      hstream).1.1
  · have hping : Encodes false ⟨true, 9, [0x05]⟩ [0x89, 0x01, 0x05] :=
      ⟨.short, none, by decide, rfl, rfl⟩
    refine wsRecvFrame_of_oversized_control (fun _ => rfl) ⟨.inl rfl, rfl, by decide⟩ (by decide)
      hadvances hfirst hping (Socket.unread_delivering _) ?_
    rw [dataOf_cons, dataOf_nil, List.append_nil, hdata, hlength]
    decide

end Insertion

end HelloWebsocket.Cpp
