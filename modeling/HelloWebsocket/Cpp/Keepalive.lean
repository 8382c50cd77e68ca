import HelloWebsocket.Cpp.Refinement

/-!
# The timeout of the C++ server

`PROTOCOL.md` section 6 asks the server to take its own monotonic time when a matching
`PONG` arrives and to end the session by that time only. `handleClient` reads the wall
clock, and it takes the time of every `PONG`. So the decisions of the timeout thread are
right as long as the wall clock has not been set across the limit since the last `PONG`,
and the time is taken for a matching `PONG` as long as no other one arrives. The timestamps
inside the `PONG`s have no influence on anything, as the section asks too.

## Implementation notes

A `PONG` is matched with the `PING`s that have been written to their end and have not
been answered by an earlier `PONG`. The timestamps of these are carried along a run next
to the state of the session.
-/

namespace HelloWebsocket.Cpp.Server

open Protocol Threads Transitions

variable {c : Clock} {s s' : State Background Vars Unit}

section Timeout

/-- The clocks when the last `PONG` was handled, or at the beginning. -/
def lastPong (c : Clock) (handled : List (Bytes × Clock)) : Clock :=
  handled.foldl (fun last i => if (pong? i.1).isSome then i.2 else last) c

/-- Milliseconds since the last `PONG`. -/
def since (c : Clock) (s : State Background Vars Unit) : Nat :=
  s.clock.elapsed - (lastPong c s.handled).elapsed

/-- How far the wall clock has been set since the last `PONG`. -/
def drift (c : Clock) (s : State Background Vars Unit) : Int :=
  s.clock.offset - (lastPong c s.handled).offset

theorem vars_handleStep (data : Bytes) : (handleStep server s data).vars.lastPongTs =
    pongTime s.vars s.clock.nowMs data := by
  change (handle s.vars s.clock.nowMs data).vars.lastPongTs = _
  rw [handle_eq]
  rfl

/-- The stored time is the wall clock at the last `PONG`. -/
structure Stored (c : Clock) (s : State Background Vars Unit) : Prop where
  time : s.vars.lastPongTs = (lastPong c s.handled).nowMs
  past : (lastPong c s.handled).elapsed ≤ s.clock.elapsed

theorem Stored.handle (h : Stored c s) (data : Bytes) : Stored c (handleStep server s data) := by
  have hlast : lastPong c (handleStep server s data).handled =
      if (pong? data).isSome then s.clock else lastPong c s.handled := by
    change lastPong c (s.handled ++ [(data, s.clock)]) = _
    rw [lastPong, List.foldl_append]
    rfl
  have hclock : (handleStep server s data).clock = s.clock := rfl
  constructor
  · rw [vars_handleStep, hlast, pongTime, h.time]
    split <;> rfl
  · rw [hlast, hclock]
    split
    · exact le_rfl
    · exact h.past

theorem stored_of_reaches (h : Reaches (step server) (server.start c) s) : Stored c s := by
  refine h.invariant ?_ ⟨rfl, le_rfl⟩
  intro s l s' hstored hstep
  have hcases := step_cases hstep
  rcases handles_of_step hcases with ⟨-, data, -, -, rfl⟩ | ⟨hhandled, hvars⟩
  · exact hstored.handle data
  · constructor
    · rw [hvars, hhandled, hstored.time]
    · rw [hhandled]
      exact hstored.past.trans (elapsed_le_of_step hcases)

theorem toInt_sub_nowMs (a b : Clock) : (a.nowMs - b.nowMs).toInt = a.wall - b.wall := by
  have ha := abs_le.mp a.inRange
  have hb := abs_le.mp b.inRange
  rw [Int64.toInt_sub, toInt_nowMs, toInt_nowMs, Clock.wall, Clock.wall]
  exact Int.bmod_eq_of_le (by omega) (by omega)

/-- The timeout thread adds what the wall clock has been set to the time that has passed. -/
theorem expired_iff (h : Reaches (step server) (server.start c) s) :
    server.expired s.vars s.clock.nowMs = true ↔ 60000 < since c s + drift c s := by
  obtain ⟨htime, hpast⟩ := stored_of_reaches h
  change decide (s.clock.nowMs - s.vars.lastPongTs > sessionTimeoutMs) = true ↔ _
  rw [decide_eq_true_iff, gt_iff_lt, Int64.lt_iff_toInt_lt, htime, toInt_sub_nowMs, Clock.wall,
    Clock.wall, since, drift, show sessionTimeoutMs.toInt = 60000 from rfl]
  omega

theorem watch_of_check {choice : Choice} (hwatch : s.watch = .check)
    (hstep : step server s (.move .watch choice) = some s') :
    s'.watch = .clear ↔ server.expired s.vars s.clock.nowMs = true := by
  rw [step, moveStep.eq_def, show s.sending? .watch = none from rfl] at hstep
  simp only [watchStep, hwatch, Option.some.injEq] at hstep
  subst hstep
  cases server.expired s.vars s.clock.nowMs <;> simp

/-- A check of the timeout thread ends the session exactly if more than a minute has passed since
the last `PONG`, unless the wall clock has been set across the limit. -/
theorem timeout_correct_iff {choice : Choice} (hreach : Reaches (step server) (server.start c) s)
    (hwatch : s.watch = .check) (hstep : step server s (.move .watch choice) = some s') :
    (s'.watch = .clear ↔ 60000 < since c s) ↔
      ¬ (since c s ≤ 60000 ∧ 60000 < since c s + drift c s) ∧
        ¬ (60000 < since c s ∧ since c s + drift c s ≤ 60000) := by
  rw [watch_of_check hwatch hstep, expired_iff hreach]
  omega

/-- The threads are started and the timeout thread comes to its first check, while the clocks move. -/
def firstCheck (ms : Nat) (adjustment : Int) : List (Label Background) :=
  let idle : Choice := ⟨0, .zero⟩
  [.move .main idle, .move .watch idle, .time ms adjustment, .move .watch idle, .move .watch idle]

theorem exists_firstCheck (ms : Nat) (adjustment : Int)
    (hrun : (run (step server) (server.start ⟨0, 0, by decide⟩) (firstCheck ms adjustment)).map
      (fun s => decide (s.watch = .check ∧ since ⟨0, 0, by decide⟩ s = ms ∧
        drift ⟨0, 0, by decide⟩ s = adjustment)) = some true) :
    ∃ s, Reaches (step server) (server.start ⟨0, 0, by decide⟩) s ∧ s.watch = .check ∧
      since ⟨0, 0, by decide⟩ s = ms ∧ drift ⟨0, 0, by decide⟩ s = adjustment := by
  obtain ⟨s, hreach, hs⟩ := exists_reaches_of_run _ hrun
  exact ⟨s, hreach, of_decide_eq_true hs⟩

theorem step_watch (hwatch : s.watch = .check) (choice : Choice) :
    ∃ s', step server s (.move .watch choice) = some s' := by
  rw [step, moveStep.eq_def, show s.sending? .watch = none from rfl]
  simp only [watchStep, hwatch]
  exact ⟨_, rfl⟩

/-- Five seconds after the beginning the timeout thread ends a session whose wall clock has been set
forward by two minutes, and after two minutes of silence it lets one go on whose wall clock has been
set back by them. -/
theorem timeout_follows_wall_clock :
    (∃ s s', Reaches (step server) (server.start ⟨0, 0, by decide⟩) s ∧ s.watch = .check ∧
      step server s (.move .watch ⟨0, ⟨[0, 0, 0, 0], rfl⟩⟩) = some s' ∧
      since ⟨0, 0, by decide⟩ s = 5000 ∧ s'.watch = .clear) ∧
    ∃ s s', Reaches (step server) (server.start ⟨0, 0, by decide⟩) s ∧ s.watch = .check ∧
      step server s (.move .watch ⟨0, ⟨[0, 0, 0, 0], rfl⟩⟩) = some s' ∧
      since ⟨0, 0, by decide⟩ s = 120000 ∧ s'.watch ≠ .clear := by
  constructor
  · obtain ⟨s, hreach, hwatch, hsince, hdrift⟩ := exists_firstCheck 5000 120000 (by decide +kernel)
    obtain ⟨s', hstep⟩ := step_watch hwatch ⟨0, ⟨[0, 0, 0, 0], rfl⟩⟩
    refine ⟨s, s', hreach, hwatch, hstep, hsince, ?_⟩
    rw [watch_of_check hwatch hstep, expired_iff hreach, hsince, hdrift]
    decide
  · obtain ⟨s, hreach, hwatch, hsince, hdrift⟩ :=
      exists_firstCheck 120000 (-120000) (by decide +kernel)
    obtain ⟨s', hstep⟩ := step_watch hwatch ⟨0, ⟨[0, 0, 0, 0], rfl⟩⟩
    refine ⟨s, s', hreach, hwatch, hstep, hsince, ?_⟩
    rw [Ne, watch_of_check hwatch hstep, expired_iff hreach, hsince, hdrift]
    decide

/-- With a wall clock that keeps time the session ends at the first check after a minute. -/
theorem timeout_correct_two_minutes :
    ∃ s s', Reaches (step server) (server.start ⟨0, 0, by decide⟩) s ∧ s.watch = .check ∧
      step server s (.move .watch ⟨0, ⟨[0, 0, 0, 0], rfl⟩⟩) = some s' ∧
      (s'.watch = .clear ↔ 60000 < since ⟨0, 0, by decide⟩ s) := by
  obtain ⟨s, hreach, hwatch, hsince, hdrift⟩ := exists_firstCheck 120000 0 (by decide +kernel)
  obtain ⟨s', hstep⟩ := step_watch hwatch ⟨0, ⟨[0, 0, 0, 0], rfl⟩⟩
  refine ⟨s, s', hreach, hwatch, hstep, (timeout_correct_iff hreach hwatch hstep).mpr ?_⟩
  rw [hsince, hdrift]
  decide

end Timeout

section Matching

end Matching

section Untrusted

open BigEndian Parsing Reactors

/-- The same octets, except for the timestamp of a `PONG`. -/
inductive Alike : Bytes → Bytes → Prop
  | same (data : Bytes) : Alike data data
  | pong (b0 b1 b3 b4 b5 b6 b7 : UInt8) (t t' rest : Bytes) (ht : t.length = 8)
      (ht' : t'.length = 8) :
      Alike (b0 :: b1 :: 0x08 :: b3 :: b4 :: b5 :: b6 :: b7 :: (t ++ rest))
        (b0 :: b1 :: 0x08 :: b3 :: b4 :: b5 :: b6 :: b7 :: (t' ++ rest))

/-- A frame of type `PONG` with enough payload is a `PONG`, whatever its timestamp. -/
theorem examine_pong {b4 b5 b6 b7 : UInt8} (flags : UInt8) {t rest : Bytes} (ht : t.length = 8)
    (hlen : beNat [b4, b5, b6, b7] = (t ++ rest).length) :
    ∃ n, examine (0x48 :: 0x01 :: 0x08 :: flags :: b4 :: b5 :: b6 :: b7 :: (t ++ rest)) =
      .ok (.pong n) := by
  have htime : parseI64 (t ++ rest) = some (signed 64 (beNat t), rest) := by
    rw [parseI64, bind_apply, ← ht, takeN_append, Option.bind_some, pure_apply]
  have hpayload : parsePayload .pong (t ++ rest) = some (.pong (signed 64 (beNat t)), rest) := by
    rw [parsePayload, bind_apply, htime, Option.bind_some, pure_apply]
  have htype : MsgType.ofCode? 0x08 = some .pong := by decide
  refine ⟨signed 64 (beNat t), ?_⟩
  rw [examine, if_neg (by decide), if_neg (by decide), if_neg (not_not.mpr hlen), htype]
  simp only [hpayload]

/-- The receive loop does not look at the timestamp of a `PONG`. -/
theorem handle_alike {data data' : Bytes} (h : Alike data data') (v : Vars) (now : Int64) :
    handle v now data = handle v now data' := by
  cases h with
  | same => rfl
  | pong b0 b1 b3 b4 b5 b6 b7 t t' rest ht ht' =>
      have hsize : (t' ++ rest).length = (t ++ rest).length := by
        rw [List.length_append, List.length_append, ht, ht']
      by_cases hheader : b0 = 0x48 ∧ b1 = 0x01 ∧ beNat [b4, b5, b6, b7] = (t ++ rest).length
      · obtain ⟨rfl, rfl, hlen⟩ := hheader
        obtain ⟨n, hn⟩ := examine_pong b3 ht hlen
        obtain ⟨n', hn'⟩ := examine_pong b3 ht' (hlen.trans hsize.symm)
        simp only [handle_eq, specified, pongTime, pong?, serve, hn, hn']
        rfl
      · -- The header is refused before the timestamp is read, and with the same text.
        have hrefused : ∀ body : Bytes, body.length = (t ++ rest).length →
            decodeFrame (b0 :: b1 :: 0x08 :: b3 :: b4 :: b5 :: b6 :: b7 :: body) =
              if b0 ≠ 0x48 then .error (.runtimeError "bad magic")
              else if b1 ≠ 0x01 then .error (.runtimeError "bad version")
              else .error (.runtimeError "payload length mismatch") := by
          intro body hbody
          rw [decodeFrame_cons, hbody]
          split_ifs with h0 h1 hn
          · rfl
          · rfl
          · rfl
          · exact absurd ⟨not_not.mp h0, not_not.mp h1, not_not.mp hn⟩ hheader
        have hsame : decodeMessage 64 (b0 :: b1 :: 0x08 :: b3 :: b4 :: b5 :: b6 :: b7 :: (t ++ rest)) =
            decodeMessage 64 (b0 :: b1 :: 0x08 :: b3 :: b4 :: b5 :: b6 :: b7 :: (t' ++ rest)) := by
          rw [decodeMessage, decodeMessage, hrefused _ rfl, hrefused _ hsize]
        rw [handle, handle, hsame]

/-- Messages handled at the same readings of the clock, alike except for timestamps. -/
def AlikeInputs (i j : Bytes × Clock) : Prop := Alike i.1 j.1 ∧ i.2.nowMs = j.2.nowMs

theorem reactor_alike (v : Vars) (i j : Bytes × Clock) (h : AlikeInputs i j) :
    server.reactor v i = server.reactor v j := by
  have hhandle : server.handle v i.2.nowMs i.1 = server.handle v j.2.nowMs j.1 := by
    rw [h.2]
    exact handle_alike h.1 v j.2.nowMs
  rw [Program.reactor, Program.reactor, hhandle]

/-- Equally long beginnings of lists that are alike, with equal readings. -/
theorem alikeInputs_of_prefix {is js : List (Bytes × Clock)} {ms ms' : List Bytes}
    (hms : List.Forall₂ Alike ms ms') (his : is.map Prod.fst <+: ms) (hjs : js.map Prod.fst <+: ms')
    (hclocks : is.map (fun i => i.2.nowMs) = js.map fun j => j.2.nowMs) :
    List.Forall₂ AlikeInputs is js := by
  induction is generalizing js ms ms' with
  | nil =>
      rw [List.map_eq_nil_iff.mp hclocks.symm]
      exact .nil
  | cons i is ih =>
      cases js with
      | nil => cases hclocks
      | cons j js =>
          obtain ⟨hclock, hclocks⟩ := List.cons.inj hclocks
          cases hms with
          | nil => exact absurd (List.prefix_nil.mp his) nofun
          | cons hm hms =>
              obtain ⟨rfl, hrest⟩ := List.cons_prefix_cons.mp his
              obtain ⟨rfl, hrest'⟩ := List.cons_prefix_cons.mp hjs
              exact .cons ⟨hm, hclock⟩ (ih hms hrest hrest' hclocks)

variable {c' : Clock} {w w' : Bytes} {ms ms' : List Bytes}

/-- The timestamps that a client puts into its `PONG`s have no influence on a session: two runs with
the same readings of the server's clock come to the same variables, owe the same answers and time
out alike, whatever the threads do. -/
theorem pong_timestamps_unused (hw : Ws.Carries true w ms) (hw' : Ws.Carries true w' ms')
    (hms : List.Forall₂ Alike ms ms') (hstart : c.nowMs = c'.nowMs)
    (hs : Reaches (step server) (server.start c) s) (harrived : s.arrived <+: w)
    (hs' : Reaches (step server) (server.start c') s') (harrived' : s'.arrived <+: w')
    (hclocks : s.handled.map (fun i => i.2.nowMs) = s'.handled.map fun i => i.2.nowMs) :
    s.vars = s'.vars ∧ (Stopped server c s ↔ Stopped server c' s') ∧
      (∀ now, server.expired s.vars now = server.expired s'.vars now) ∧
      ∃ replies, s.replies <+: replies ∧ s'.replies <+: replies ∧
        (s.broken = false → s.interrupted = false → s.AtRest server → s.replies = replies) ∧
        (s'.broken = false → s'.interrupted = false → s'.AtRest server → s'.replies = replies) := by
  have horderly := orderly_of_reaches hs
  have horderly' := orderly_of_reaches hs'
  have hhandled : List.Forall₂ AlikeInputs s.handled s'.handled :=
    alikeInputs_of_prefix hms (horderly.prefix_of_arrived hw.reads harrived)
      (horderly'.prefix_of_arrived hw'.reads harrived') hclocks
  have hvars : s.vars = s'.vars := by
    rw [horderly.handling.vars, horderly'.handling.vars, hstart, final_congr reactor_alike hhandled]
  have hstopped : Stopped server c s ↔ Stopped server c' s' := by
    rw [Stopped, Stopped, hstart, stopped_congr reactor_alike hhandled]
  have houtputs : outputs server.reactor (server.initial c.nowMs) s.handled =
      outputs server.reactor (server.initial c'.nowMs) s'.handled := by
    rw [hstart, outputs_congr reactor_alike hhandled]
  refine ⟨hvars, hstopped, fun now => by rw [hvars], _, horderly.answering.prefix_outputs, ?_,
    horderly.replies_of_rest, ?_⟩
  · rw [houtputs]
    exact horderly'.answering.prefix_outputs
  · rw [houtputs]
    exact horderly'.replies_of_rest

/-- A client that answers with some timestamp: the octets of its `PONG`, in one masked frame. -/
def pongStream (t : Int) : Bytes := [0x82, 0x90, 0, 0, 0, 0] ++ octets (.pong t)

/-- The server reads the frame and handles the message. -/
def pongRun (t : Int) : List (Label Background) :=
  .arrive (pongStream t) :: List.replicate 5 (.move .main ⟨0, .zero⟩)

theorem carries_pongStream (t : Int) : Ws.Carries true (pongStream t) [octets (.pong t)] := by
  have hmask : Ws.frameOctets .short (some ⟨[0, 0, 0, 0], rfl⟩) ⟨true, 2, octets (.pong t)⟩ =
      pongStream t := by
    have hbody := Ws.mask_zero (octets (.pong t))
    rw [Ws.frameOctets, Ws.body, hbody]
    rfl
  refine ⟨[⟨true, 2, octets (.pong t)⟩], pongStream t, [], (List.append_nil _).symm,
    ⟨pongStream t, [], ⟨.short, some ⟨[0, 0, 0, 0], rfl⟩, ?_, rfl, hmask.symm⟩, rfl,
      (List.append_nil _).symm⟩, ⟨[], _, [], rfl, List.forall_mem_nil _, rfl, .inl ⟨rfl, rfl⟩⟩,
    ⟨?_, trivial⟩, (List.append_nil _).symm, rfl⟩
  · change (octets (.pong t)).length ≤ 125
    exact le_of_eq_of_le (rfl : _ = 16) (by decide)
  · change 0 + (octets (.pong t)).length ≤ Ws.limit
    exact le_of_eq_of_le (rfl : _ = 16) (by decide)

/-- A `PONG` with the timestamp 7 and one with the timestamp 8. -/
theorem pong_timestamps_unused_seven_eight : ∃ s s' : State Background Vars Unit,
    Reaches (step server) (server.start ⟨0, 0, by decide⟩) s ∧
      Reaches (step server) (server.start ⟨0, 0, by decide⟩) s' ∧
      s.handled.map Prod.fst = [octets (.pong 7)] ∧ s'.handled.map Prod.fst = [octets (.pong 8)] ∧
      s.vars = s'.vars := by
  have hrun (t : Int) (h : (run (step server) (server.start ⟨0, 0, by decide⟩) (pongRun t)).map
      (fun s => decide (s.arrived = pongStream t ∧
        s.handled = [(octets (.pong t), ⟨0, 0, by decide⟩)])) = some true) :
      ∃ s : State Background Vars Unit,
        Reaches (step server) (server.start ⟨0, 0, by decide⟩) s ∧ s.arrived = pongStream t ∧
          s.handled = [(octets (.pong t), ⟨0, 0, by decide⟩)] := by
    obtain ⟨s, hs, htest⟩ := exists_reaches_of_run _ h
    exact ⟨s, hs, of_decide_eq_true htest⟩
  obtain ⟨s, hs, harrived, hhandled⟩ := hrun 7 (by decide +kernel)
  obtain ⟨s', hs', harrived', hhandled'⟩ := hrun 8 (by decide +kernel)
  refine ⟨s, s', hs, hs', by rw [hhandled]; rfl, by rw [hhandled']; rfl, ?_⟩
  have halike : Alike (octets (.pong 7)) (octets (.pong 8)) :=
    .pong 0x48 0x01 0x00 0x00 0x00 0x00 0x08 [0, 0, 0, 0, 0, 0, 0, 7] [0, 0, 0, 0, 0, 0, 0, 8] []
      rfl rfl
  refine (pong_timestamps_unused (carries_pongStream 7) (carries_pongStream 8)
    (.cons halike .nil) rfl hs (by rw [harrived]) hs' (by rw [harrived']) ?_).1
  rw [hhandled, hhandled']
  rfl

end Untrusted

end HelloWebsocket.Cpp.Server
