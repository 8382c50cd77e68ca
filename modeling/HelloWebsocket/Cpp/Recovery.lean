import HelloWebsocket.Cpp.Refinement

/-!
# Decoding errors in the C++ server

`PROTOCOL.md` section 7 has a code for each check that a message can fail, and asks for
a close frame with status 1002 after every failure but an unregistered type. The `catch`
block of `handleClient` knows two codes, and the way out of the receive loop sends no
close frame. So the section is met for an unregistered type, and for nothing else.
-/

namespace HelloWebsocket.Cpp

namespace Threads

open Ws Transitions

section Winding

variable {β V W : Type} {P : Program β V W} {s s' : State β V W} {c : Clock}

/-- The main thread reads no more, and it is in no call that sends a control frame. -/
structure Winding (s : State β V W) : Prop where
  calls : ∀ x k k', s.main = .sending x k k' → x.origin ≠ .control
  place : s.main.point = .stopping ∨ (s.active = false ∧ s.main.point = .loop) ∨
    ∃ rest, s.main.point = .epilogue rest ∧ ∀ f, Closing.control f ∉ rest

theorem Aside.winding (haside : Aside s s') (h : Winding s) : Winding s' where
  calls := by
    rw [haside.main]
    exact h.calls
  place := by
    rw [haside.main]
    rcases h.place with hstopping | ⟨hactive, hloop⟩ | hover
    · exact .inl hstopping
    · refine .inr (.inl ⟨?_, hloop⟩)
      rcases haside.active with ⟨hsame, -⟩ | ⟨hfalse, -⟩
      · rw [hsame, hactive]
      · exact hfalse
    · exact .inr (.inr hover)

/-- Inside a call, or after it, the main thread goes on to the same place. -/
theorem Winding.of_point (h : Winding s) (hactive : s'.active = s.active)
    (hpoint : s'.main.point = s.main.point)
    (hcalls : ∀ x k k', s'.main = .sending x k k' →
      ∃ y, s.main = .sending y k k' ∧ x.origin = y.origin) : Winding s' where
  calls x k k' hmain := by
    obtain ⟨y, hy, horigin⟩ := hcalls x k k' hmain
    rw [horigin]
    exact h.calls y k k' hy
  place := by
    rw [hpoint, hactive]
    exact h.place

/-- A message that stops the session sets it winding up. -/
theorem winding_handleStep {data : Bytes}
    (hstop : (P.handle s.vars s.clock.nowMs data).stop = true) : Winding (handleStep P s data) := by
  refine ⟨fun x k k' hcall => ?_, .inl ?_⟩
  · rw [handleStep] at hcall
    cases hreply : (P.handle s.vars s.clock.nowMs data).reply with
    | none =>
        rw [hreply] at hcall
        cases hcall
    | some reply =>
        rw [hreply] at hcall
        cases hcall
        intro hbad
        cases hbad
  · rw [point_handleStep, if_pos hstop]

variable [Fintype β]

theorem Winding.close {key : Key} {call : Closing} {rest : List Closing}
    (hrest : ∀ f, Closing.control f ∉ call :: rest)
    (hcall : closeStep P s key (.epilogue rest) call = some s') : Winding s' := by
  have hplace : ∃ rest', s'.main.point = .epilogue rest' ∧ ∀ f, Closing.control f ∉ rest' :=
    ⟨rest, (closeStep_fields hcall).1, fun f hf => hrest f (List.mem_cons_of_mem _ hf)⟩
  refine ⟨?_, .inr (.inr hplace)⟩
  cases call with
  | clear | close =>
      cases hcall
      exact calls_of_standing rfl
  | join =>
      obtain ⟨-, hcall⟩ := Option.ite_none_right_eq_some.mp hcall
      cases hcall
      exact calls_of_standing rfl
  | send data =>
      cases hcall
      rintro x k k' hmain
      cases hmain
      intro hbad
      cases hbad
  | control f => exact absurd List.mem_cons_self (hrest f)

theorem Winding.point {p : Point} {key : Key} (hP : ∀ f, Closing.control f ∉ P.epilogue)
    (h : Winding s) (hmain : s.main = .standing p) (hstep : PointStep P s key p s') :
    Winding s' := by
  have hplace := h.place
  rw [hmain] at hplace
  cases hstep with
  | stop => exact ⟨calls_of_standing rfl, .inr (.inl ⟨rfl, rfl⟩)⟩
  | loop =>
      obtain hbad | ⟨hactive, -⟩ | ⟨rest, hbad, -⟩ := hplace
      · cases hbad
      · rw [hactive]
        exact ⟨calls_of_standing rfl, .inr (.inr ⟨P.epilogue, rfl, hP⟩)⟩
      · cases hbad
  | @epilogue call rest _ hcall =>
      obtain hbad | ⟨-, hbad⟩ | ⟨rest', heq, hrest⟩ := hplace
      · cases hbad
      · cases hbad
      · cases heq
        exact .close hrest hcall
  | begin | prologue | frame | exhausted | refused | handle =>
      obtain hbad | ⟨-, hbad⟩ | ⟨rest, hbad, -⟩ := hplace <;> cases hbad

variable [DecidableEq β]

theorem MainStep.winding (hstep : MainStep P s s') (hP : ∀ f, Closing.control f ∉ P.epilogue)
    (hplaced : Placed s) (h : Winding s) : Winding s' := by
  cases hstep with
  | @acquire x k k' hmain | @test x k k' _ hmain | @refuse x k k' _ hmain =>
      refine h.of_point rfl (by rw [hmain]; rfl) ?_
      intro y j j' hy
      cases hy
      exact ⟨x, hmain, rfl⟩
  | @write x k k' rest n hmain =>
      have hmain' := (wrote_main n rest hmain).1
      refine h.of_point ?_ (by rw [hmain', hmain]; rfl) ?_
      · rw [wrote]
        split <;> rfl
      · intro y j j' hy
        rw [hmain'] at hy
        cases hy
        exact ⟨x, hmain, rfl⟩
  | @release x k k' result mutex hmain =>
      have hsame : k' = k := by
        cases hplaced.calling x k k' hmain with
        | reply => rfl
        | script => rfl
        | control => exact absurd rfl (h.calls _ _ _ hmain)
      subst hsame
      refine h.of_point rfl ?_ (calls_of_standing rfl)
      rw [hmain, ite_self]
      rfl
  | point hmain hpoint => exact h.point hP hmain hpoint

/-- A session that is winding up sends binary messages only. -/
theorem Winding.sent (hP : ∀ f, Closing.control f ∉ P.epilogue)
    (hreach : Reaches (step P) (P.start c) s) (h : Winding s) (hframed : Framed s)
    (hrest : Reaches (step P) s s') :
    ∃ added, s'.sent = s.sent ++ added ∧ ∀ y ∈ added, y.2.opcode = 2 := by
  have hall : Orderly P c s' ∧ Framed s' ∧ Winding s' ∧
      ∃ added, s'.sent = s.sent ++ added ∧ ∀ y ∈ added, y.2.opcode = 2 := by
    refine hrest.invariant (I := fun s' => Orderly P c s' ∧ Framed s' ∧ Winding s' ∧
      ∃ added, s'.sent = s.sent ++ added ∧ ∀ y ∈ added, y.2.opcode = 2) ?_
      ⟨orderly_of_reaches hreach, hframed, h, [], (List.append_nil _).symm, nofun⟩
    rintro s₁ l s₂ ⟨horderly, hframed, hwinding, added, hsent, hadded⟩ hstep
    have hcases := step_cases hstep
    refine ⟨horderly.step hstep, hframed.step hcases, ?_, ?_⟩
    · rcases step_main_or_aside horderly.exclusive hcases with hmain | haside
      · exact hmain.winding hP horderly.placed hwinding
      · exact haside.winding hwinding
    · rcases sends_of_step hcases with hsame | ⟨t, x, -, hx, -, hmore⟩
      · exact ⟨added, hsame.trans hsent, hadded⟩
      · refine ⟨added ++ [(x.origin, x.frame)], by rw [hmore, hsent, List.append_assoc], ?_⟩
        intro y hy
        rcases List.mem_append.mp hy with hy | hy
        · exact hadded y hy
        · have horigin : x.origin ≠ .control := by
            cases t with
            | main =>
                obtain ⟨k, k', hmain⟩ := sending?_main_iff.mp hx
                exact hwinding.calls x k k' hmain
            | beat b =>
                intro hbad
                have hthread := (horderly.exclusive _ x hx).1
                rw [hbad] at hthread
                cases hthread
            | watch => cases hx
          obtain ⟨data, hframe⟩ := hframed t x hx horigin
          rw [List.mem_singleton.mp hy, hframe]
  exact hall.2.2.2

theorem framed_of_reaches (h : Reaches (step P) (P.start c) s) : Framed s :=
  h.invariant (fun _ _ _ hframed hstep => hframed.step (step_cases hstep)) (framed_start c)

end Winding

end Threads

namespace Server

open Utf8 Protocol Threads Transitions

section Recovery

variable {c : Clock} {s s' : State Background Vars Unit} {data : Bytes} {e : ErrorCode}

/-- A close frame with status 1002 is among the frames written after the first `n`. -/
def Refused (n : Nat) (s : State Background Vars Unit) : Prop :=
  ∃ y ∈ s.sent.drop n, y.2.opcode = 8 ∧ y.2.payload.take 2 = [0x03, 0xEA]

/-- What section 7 asks for when a message fails a check: the answer has the code of the check,
and unless the type is unregistered a close frame with status 1002 may be sent afterwards. -/
def Recovers (s : State Background Vars Unit) (data : Bytes) (e : ErrorCode) : Prop :=
  (∃ text, (server.handle s.vars s.clock.nowMs data).reply = some (octets (.error e.code text))) ∧
    (e ≠ .unknownMessageType →
      ∃ s', Reaches (step server) (handleStep server s data) s' ∧ Refused s.sent.length s')

/-- The effect of a message that fails a check. -/
theorem handle_of_examine (v : Vars) (now : Int64) (he : examine data = .error e) :
    (server.handle v now data).reply =
        some (octets (.error (if e = .unknownMessageType then 2 else 1) (host.wording e data))) ∧
      (server.handle v now data).stop = decide (e ≠ .unknownMessageType) := by
  change (handle v now data).reply = _ ∧ (handle v now data).stop = _
  rw [handle_eq, specified, serve]
  simp only [he]
  cases e <;> exact ⟨rfl, rfl⟩

/-- After a failed check of an otherwise known type no close frame is sent. -/
theorem not_refused (hreach : Reaches (step server) (server.start c) s)
    (hmain : s.main = .standing (.handling data)) (he : examine data = .error e)
    (hknown : e ≠ .unknownMessageType)
    (hrest : Reaches (step server) (handleStep server s data) s') :
    ¬ Refused s.sent.length s' := by
  have hstep : step server s (.move .main ⟨0, ⟨[0, 0, 0, 0], rfl⟩⟩) =
      some (handleStep server s data) := step_of_point hmain _
  have hnext := hreach.tail hstep
  have hstop : (server.handle s.vars s.clock.nowMs data).stop = true := by
    rw [(handle_of_examine _ _ he).2]
    exact decide_eq_true hknown
  obtain ⟨added, hsent, hadded⟩ := (winding_handleStep hstop).sent
    (fun f hf => by simp [server] at hf) hnext (framed_of_reaches hnext) hrest
  rintro ⟨y, hy, hclose, -⟩
  rw [hsent, show (handleStep server s data).sent = s.sent from rfl, List.drop_left] at hy
  rw [hadded y hy] at hclose
  cases hclose

/-- A message on which `decodeMessage` throws fails a check, and the server does what section 7
asks for exactly when that check is the one of the type. -/
theorem recovers_iff {x : Failure} (hreach : Reaches (step server) (server.start c) s)
    (hmain : s.main = .standing (.handling data)) (hthrow : decodeMessage 64 data = .error x) :
    ∃ e, examine data = .error e ∧ (Recovers s data e ↔ e = .unknownMessageType) := by
  have hspec := decodeMessage_examine (w := 64) (by decide) data
  cases hexamine : examine data with
  | ok p =>
      rw [hexamine] at hspec
      obtain ⟨m, hm, -⟩ := hspec
      cases hm.symm.trans hthrow
  | error e =>
      refine ⟨e, rfl, ?_⟩
      constructor
      · rintro ⟨-, hclose⟩
        by_contra hknown
        obtain ⟨s', hrest, hrefused⟩ := hclose hknown
        exact not_refused hreach hmain hexamine hknown hrest hrefused
      · rintro rfl
        refine ⟨⟨_, (handle_of_examine _ _ hexamine).1⟩, fun hbad => absurd rfl hbad⟩

/-- An empty message arrives and is about to be handled. -/
theorem exists_handling_empty : ∃ s : State Background Vars Unit,
    Reaches (step server) (server.start ⟨0, 0, by decide⟩) s ∧
      s.main = .standing (.handling []) := by
  let idle : Choice := ⟨0, ⟨[0, 0, 0, 0], rfl⟩⟩
  have hrun : ∃ s : State Background Vars Unit,
      Reaches (step server) (server.start ⟨0, 0, by decide⟩) s ∧
        decide (s.main.handling? = some []) = true :=
    exists_reaches_of_run [.arrive [0x82, 0x80, 0, 0, 0, 0], .move .main idle, .move .main idle,
      .move .main idle, .move .main idle] (by decide +kernel)
  obtain ⟨s, hreach, hs⟩ := hrun
  exact ⟨s, hreach, Main.handling?_eq_some_iff.mp (of_decide_eq_true hs)⟩

/-- An empty message fails the check of the length, whose code is 3. It is answered with code 1, and
no close frame follows. -/
theorem handleClient_misreports_empty : ∃ s : State Background Vars Unit,
    Reaches (step server) (server.start ⟨0, 0, by decide⟩) s ∧
      s.main = .standing (.handling []) ∧ examine [] = .error .truncatedPayload ∧
      (server.handle s.vars s.clock.nowMs []).reply =
        some (octets (.error 1 (utf8 "frame too short: 0"))) ∧
      ∀ s', Reaches (step server) (handleStep server s []) s' → ¬ Refused s.sent.length s' := by
  obtain ⟨s, hreach, hmain⟩ := exists_handling_empty
  refine ⟨s, hreach, hmain, rfl, ?_, fun s' => not_refused hreach hmain rfl nofun⟩
  exact (handle_of_examine _ _ (e := .truncatedPayload) rfl).1

theorem recovers_iff_empty : ∃ s : State Background Vars Unit,
    Reaches (step server) (server.start ⟨0, 0, by decide⟩) s ∧
      s.main = .standing (.handling []) ∧
      ∃ e, examine [] = .error e ∧ (Recovers s [] e ↔ e = .unknownMessageType) := by
  obtain ⟨s, hreach, hmain⟩ := exists_handling_empty
  exact ⟨s, hreach, hmain, recovers_iff hreach hmain (x := .runtimeError "frame too short: 0") rfl⟩

end Recovery

end Server

end HelloWebsocket.Cpp
