import HelloWebsocket.Cpp.Client

/-!
# The departure of the C++ client

After its receive loop `tryConnect` clears `active`, joins the other thread and calls
`sendFrame` for a `DISCONNECT`. `sendFrame` writes nothing once `active` is cleared, so
the message is built and never sent. Only the Close frame, which `wsSendControl`
writes without looking at `active`, leaves the client.
-/

namespace HelloWebsocket.Cpp.Threads

open Ws Transitions

variable {β V W : Type} {P : Program β V W} {s s' : State β V W} {c : Clock}

section Late

/-- A call after the receive loop has been made. -/
def Point.Late (P : Program β V W) (p : Point) : Prop :=
  ∃ rest, p = .epilogue rest ∧ rest.length < P.epilogue.length

/-- A call may lead behind the first call after the receive loop. -/
def Main.Late (P : Program β V W) : Main β → Prop
  | .standing p => p.Late P
  | .sending _ k k' => k.Late P ∨ k'.Late P

theorem not_late_epilogue : ¬ (Point.epilogue P.epilogue).Late P := by
  rintro ⟨rest, heq, hlt⟩
  cases heq
  exact absurd hlt (Nat.lt_irrefl _)

/-- Only a call after the receive loop leads behind one. -/
theorem late_of_pointStep [Fintype β] {key : Key} {p : Point} (h : PointStep P s key p s')
    (hlate : s'.main.Late P) : ∃ call rest, p = .epilogue (call :: rest) := by
  have hno : ∀ q : Point, q = .loop ∨ q = .stopping ∨ (∃ a, q = .reading a) ∨
      (∃ data, q = .handling data) ∨ (∃ rest, q = .prologue rest) → ¬ q.Late P := by
    rintro q hq ⟨rest, rfl, -⟩
    rcases hq with h | h | ⟨_, h⟩ | ⟨_, h⟩ | ⟨_, h⟩ <;> cases h
  cases h with
  | epilogue => exact ⟨_, _, rfl⟩
  | begin | stop => exact absurd hlate (hno _ (.inl rfl))
  | exhausted | refused => exact absurd hlate not_late_epilogue
  | loop =>
      change Point.Late P (if s.active then .reading none else .epilogue P.epilogue) at hlate
      split at hlate
      · exact absurd hlate (hno _ (.inr (.inr (.inl ⟨_, rfl⟩))))
      · exact absurd hlate not_late_epilogue
  | @prologue call rest =>
      have hrest := hno (.prologue rest) (.inr (.inr (.inr (.inr ⟨_, rfl⟩))))
      cases call with
      | spawn => exact absurd hlate hrest
      | send data => exact absurd hlate (not_or.mpr ⟨hrest, hrest⟩)
  | @handle data =>
      have hafter : ∀ stop : Bool, ¬ (if stop then Point.stopping else .loop).Late P := by
        intro stop
        cases stop with
        | true => exact hno _ (.inr (.inl rfl))
        | false => exact hno _ (.inl rfl)
      rw [handleStep] at hlate
      cases hreply : (P.handle s.vars s.clock.nowMs data).reply with
      | none =>
          rw [hreply] at hlate
          exact absurd hlate (hafter _)
      | some r =>
          rw [hreply] at hlate
          exact absurd hlate (not_or.mpr ⟨hafter _, hafter _⟩)
  | @frame a f b rest =>
      cases hnext : a.next f with
      | none =>
          obtain ⟨m, hm, -, ⟨x, -, rfl⟩ | rfl⟩ := frameStep_of_refused (P := P)
            (s := { s with inbox := rest }) key hnext b
          · rw [hm] at hlate
            exact absurd hlate (not_or.mpr ⟨not_late_epilogue, not_late_epilogue⟩)
          · rw [hm] at hlate
            exact absurd hlate not_late_epilogue
      | some y =>
          obtain ⟨m, hm, -, ⟨x, a', -, -, rfl⟩ | rfl⟩ := frameStep_of_next (P := P)
            (s := { s with inbox := rest }) key hnext b
          · rw [hm] at hlate
            exact absurd hlate (not_or.mpr
              ⟨hno _ (.inr (.inr (.inl ⟨_, rfl⟩))), not_late_epilogue⟩)
          · rw [hm] at hlate
            cases y with
            | inl a' => exact absurd hlate (hno _ (.inr (.inr (.inl ⟨_, rfl⟩))))
            | inr data => exact absurd hlate (hno _ (.inr (.inr (.inr (.inl ⟨_, rfl⟩)))))

end Late

section Muted

/-- A frame that a call before the receive loop sends. -/
def Opens (P : Program β V W) (f : Ws.Frame) : Prop :=
  ∃ data, .send data ∈ P.prologue ∧ f = ⟨true, 2, data⟩

/-- Behind the first call after the receive loop `active` is cleared, and nothing is written for a
call of the script. -/
structure Muted (P : Program β V W) (s : State β V W) : Prop where
  scripted : s.main.Scripted P
  inactive : s.main.Late P → s.active = false
  script : ∀ x k k', s.main = .sending x k k' → x.origin = .script →
    Opens P x.frame ∨ (k.Late P ∧ ∀ rest, x.phase ≠ .write rest)
  sent : ∀ y ∈ s.sent, y.1 = .script → Opens P y.2

theorem muted_start (c : Clock) : Muted P (P.start c) where
  scripted := List.suffix_refl _
  inactive := by
    rintro ⟨rest, h, -⟩
    cases h
  script := calls_of_standing rfl
  sent y hy := by cases hy

theorem Muted.point [Fintype β] {p : Point} {key : Key} {first : List Closing} (h : Muted P s)
    (hP : P.epilogue = .clear :: first) (hmain : s.main = .standing p)
    (hstep : PointStep P s key p s') (hactive : s.active = false → s'.active = false) :
    (s'.main.Late P → s'.active = false) ∧ ∀ x k k', s'.main = .sending x k k' → x.origin = .script →
      Opens P x.frame ∨ (k.Late P ∧ ∀ rest, x.phase ≠ .write rest) := by
  have hscript := h.scripted
  have hinactive := h.inactive
  rw [hmain] at hscript hinactive
  constructor
  · intro hlate
    obtain ⟨call, rest, rfl⟩ := late_of_pointStep hstep hlate
    rcases Nat.lt_or_ge (call :: rest).length P.epilogue.length with hlt | hge
    · exact hactive (hinactive ⟨_, rfl, hlt⟩)
    · -- Nothing has been called yet, so this is the call that clears `active`.
      have hall : call :: rest = P.epilogue :=
        List.IsSuffix.eq_of_length_le hscript hge
      rw [hP] at hall
      cases hall
      cases hstep with
      | epilogue hcall =>
          cases hcall
          rfl
  · intro x k k' hcall horigin
    have hx : s'.sending? .main = some x := sending?_main_iff.mpr ⟨k, k', hcall⟩
    cases begins_of_pointStep hstep hx with
    | reply => cases horigin
    | control => cases horigin
    | answer => cases horigin
    | opening => exact .inl ⟨_, hscript.subset List.mem_cons_self, rfl⟩
    | @closing data rest =>
        refine .inr ⟨⟨rest, ?_, ?_⟩, nofun⟩
        · cases hstep with
          | epilogue hclose =>
              cases hclose
              cases hcall
              rfl
        · exact Nat.lt_of_succ_le hscript.length_le

variable [DecidableEq β] [Fintype β] {l : Label β}

theorem Muted.step {first : List Closing} (h : Muted P s) (hP : P.epilogue = .clear :: first)
    (hex : Exclusive s) (hstep : Step P s l s') : Muted P s' := by
  have hactive := inactive_of_step hstep
  have hsent : ∀ y ∈ s'.sent, y.1 = .script → Opens P y.2 := by
    rcases sends_of_step hstep with hsame | ⟨t, x, rest, hx, hphase, hmore⟩
    · rw [hsame]
      exact h.sent
    · intro y hy horigin
      rw [hmore] at hy
      rcases List.mem_append.mp hy with hy | hy
      · exact h.sent y hy horigin
      · rw [List.mem_singleton.mp hy] at horigin ⊢
        have hthread := (hex t x hx).1
        rw [show x.origin = .script from horigin] at hthread
        cases hthread
        obtain ⟨k, k', hmain⟩ := sending?_main_iff.mp hx
        exact (h.script x k k' hmain horigin).resolve_right fun hlate => hlate.2 rest hphase
  rcases step_main_or_aside hex hstep with hmain | haside
  · refine ⟨hmain.scripted h.scripted, ?_, ?_, hsent⟩
    · cases hmain with
      | acquire hmain _ | test hmain _ | refuse hmain _ =>
          exact fun hlate => hactive (h.inactive (by rw [hmain]; exact hlate))
      | @release x k k' result mutex hmain _ =>
          refine fun hlate => hactive (h.inactive ?_)
          rw [hmain]
          cases result with
          | true => exact .inl hlate
          | false => exact .inr hlate
      | @write x k k' rest n hmain _ _ =>
          rw [(wrote_main n rest hmain).1]
          exact fun hlate => hactive (h.inactive (by rw [hmain]; exact hlate))
      | point hmain hpoint => exact (h.point hP hmain hpoint hactive).1
    · cases hmain with
      | @acquire x k k' hmain _ =>
          intro y j j' hcall horigin
          cases hcall
          exact (h.script x k k' hmain horigin).imp_right fun hlate => ⟨hlate.1, nofun⟩
      | @test x k k' key hmain _ =>
          intro y j j' hcall horigin
          cases hcall
          refine (h.script x k k' hmain horigin).imp_right fun hlate => ⟨hlate.1, ?_⟩
          have hfalse := h.inactive (by rw [hmain]; exact .inl hlate.1)
          rw [hfalse]
          exact nofun
      | release => exact calls_of_standing rfl
      | @write x k k' rest n hmain hphase _ =>
          intro y j j' hcall horigin
          rw [(wrote_main n rest hmain).1] at hcall
          cases hcall
          exact .inl ((h.script x k k' hmain horigin).resolve_right
            fun hlate => hlate.2 rest hphase)
      | @refuse x k k' rest hmain _ =>
          intro y j j' hcall horigin
          cases hcall
          exact (h.script x k k' hmain horigin).imp_right fun hlate => ⟨hlate.1, nofun⟩
      | point hmain hpoint => exact (h.point hP hmain hpoint hactive).2
  · refine ⟨?_, fun hlate => hactive (h.inactive ?_), ?_, hsent⟩
    · rw [haside.main]
      exact h.scripted
    · rwa [← haside.main]
    · rw [haside.main]
      exact h.script

theorem muted_of_reaches {first : List Closing} (hP : P.epilogue = .clear :: first)
    (h : Reaches (Threads.step P) (P.start c) s) : Muted P s := by
  have hboth : Orderly P c s ∧ Muted P s := by
    refine h.invariant (I := fun s => Orderly P c s ∧ Muted P s) ?_
      ⟨orderly_start c, muted_start c⟩
    rintro s l s' ⟨horderly, hmuted⟩ hstep
    exact ⟨horderly.step hstep, hmuted.step hP horderly.exclusive (step_cases hstep)⟩
  exact hboth.2

end Muted

/-- The number of calls after the receive loop that are left, if the main thread is there. -/
def Main.left? : Main β → Option Nat
  | .standing (.epilogue rest) => some rest.length
  | _ => none

end HelloWebsocket.Cpp.Threads

namespace HelloWebsocket.Cpp.Client

open Utf8 Protocol Threads Server Transitions

/-- The frame carries a `DISCONNECT`. -/
def Departs (f : Ws.Frame) : Prop := f.opcode = 2 ∧ ∃ reason, examine f.payload = .ok (.disconnect reason)

/-- One `DISCONNECT` is sent, after every other data frame and before a Close frame. -/
def Announced (s : State Background Unit Int64) : Prop :=
  ∃ before f after, s.sent.map Prod.snd = before ++ f :: after ∧ Departs f ∧
    (∀ g ∈ before, ¬ Departs g) ∧ (∀ g ∈ after, g.opcode ≠ 2) ∧ ∃ g ∈ after, g.opcode = 8

theorem examine_octets {p : Protocol.Message KvMap} (hok : (p.mapKv (·.toList)).Ok)
    (hlen : (payload (p.mapKv (·.toList))).length < 2 ^ 32) :
    examine (octets p) = .ok (p.mapKv (·.toList)) :=
  examine_frame hok hlen

theorem isI64_toInt (n : Int64) : IsI64 n.toInt := ⟨n.le_toInt, n.toInt_lt⟩

theorem not_departs {p : Protocol.Message KvMap} (hok : (p.mapKv (·.toList)).Ok)
    (hlen : (payload (p.mapKv (·.toList))).length < 2 ^ 32)
    (hp : ∀ reason, p.mapKv (·.toList) ≠ .disconnect reason) :
    ¬ Departs ⟨true, 2, octets p⟩ := by
  rintro ⟨-, reason, h⟩
  rw [examine_octets hok hlen] at h
  exact hp reason (Except.ok.inj h)

/-- Outside of its script the client sends no `DISCONNECT`. -/
theorem client_gives : client.Gives (fun _ => True) fun o f => o = .script ∨ ¬ Departs f where
  initial _ := trivial
  vars _ _ _ _ _ := trivial
  reply v now data r _ _ hr := by
    change (handle data).reply = some r at hr
    right
    cases hexamine : examine data with
    | error e =>
        rw [handle_of_error hexamine] at hr
        cases hr
    | ok m =>
        rw [handle_of_ok hexamine] at hr
        have hok := ok_of_examine hexamine
        cases m with
        | ping t =>
            cases hr
            refine not_departs (p := .pong t) hok ?_ nofun
            exact (length_i64 t).trans_lt (by decide)
        | kissRequest n v r a =>
            cases hr
            exact not_departs (show IsText _ ∧ IsText _ ∧ IsText _ by decide) (by decide) nofun
        | _ => cases hr
  beat b w now number := by
    right
    rw [build_eq]
    refine not_departs (p := .randomNumber w.toInt number.toInt)
      ⟨isI64_toInt w, isI64_toInt number⟩ ?_ nofun
    change (i64 w.toInt ++ i64 number.toInt).length < 2 ^ 32
    rw [List.length_append, length_i64, length_i64]
    decide
  opening _ _ := .inl rfl
  closing _ _ := .inl rfl
  control f h := by
    right
    rintro ⟨hop, -⟩
    simp only [client, List.mem_cons, List.not_mem_nil, reduceCtorEq, or_false, false_or,
      Closing.control.injEq] at h
    rw [h] at hop
    cases hop
  answer opcode payload h _ := by
    right
    rintro ⟨hop, -⟩
    change opcode = 2 at hop
    rw [hop] at h
    exact absurd h (by decide)

/-- No `DISCONNECT` ever leaves the client. -/
theorem not_departs_of_reaches {c : Clock} {s : State Background Unit Int64}
    (h : Reaches (step client) (client.start c) s) : ∀ y ∈ s.sent, ¬ Departs y.2 := by
  intro y hy
  rcases (given_of_reaches client_gives h).sent y hy with hscript | hnot
  · obtain ⟨data, hdata, hframe⟩ := (muted_of_reaches rfl h).sent y hy hscript
    have hgreeting : data = greeting := by
      simpa [client] using hdata
    rw [hframe, hgreeting, greeting_eq]
    exact not_departs (show IsText _ by decide) (by decide) nofun
  · exact hnot

theorem not_announced {c : Clock} {s : State Background Unit Int64}
    (h : Reaches (step client) (client.start c) s) : ¬ Announced s := by
  rintro ⟨before, f, after, hsent, hdeparts, -⟩
  have hmem : f ∈ s.sent.map Prod.snd := by
    rw [hsent]
    exact List.mem_append_right _ List.mem_cons_self
  obtain ⟨y, hy, rfl⟩ := List.mem_map.mp hmem
  exact not_departs_of_reaches h y hy hdeparts

/-- The receive loop has ended with a writable socket in the first state, and `tryConnect` has
returned in the second. -/
def Leaves (s s' : State Background Unit Int64) : Prop :=
  s.main.left? = some client.epilogue.length ∧ s.broken = false ∧ s'.main.left? = some 0

instance (s s' : State Background Unit Int64) : Decidable (Leaves s s') :=
  inferInstanceAs (Decidable (_ ∧ _))

/-- A departure is announced as it should be exactly if there is none with a writable socket: no
`DISCONNECT` is sent on any run. -/
theorem announces_iff_not_leaves (c : Clock) (s s' : State Background Unit Int64)
    (h : Reaches (step client) (client.start c) s) (h' : Reaches (step client) s s') :
    (∀ y ∈ s'.sent, ¬ Departs y.2) ∧ ((Leaves s s' → Announced s') ↔ ¬ Leaves s s') := by
  have hnot := not_announced (h.trans h')
  refine ⟨not_departs_of_reaches (h.trans h'), ?_, ?_⟩
  · intro himp hleaves
    exact hnot (himp hleaves)
  · intro hstay hleaves
    exact absurd hleaves hstay

/-- A client that the server asks to leave, from its first call to its last. -/
def leaving : List (Label Background) × List (Label Background) :=
  let idle : Choice := ⟨0, .zero⟩
  let main : Label Background := .move .main idle
  let random : Label Background := .move (.beat .random) idle
  let goodbye : Bytes := octets (.disconnect [])
  ([main, main, main, .write .main 21, main, main, main, main,
      .arrive (0x82 :: 12 :: goodbye), main, main, main, main],
    [main, random, main, main, main, main, main, main, .write .main 6, main, main])

theorem leaving_runs : ∃ s s', Reaches (step client) (client.start ⟨0, 0, by decide⟩) s ∧
    Reaches (step client) s s' ∧ Leaves s s' := by
  have hruns : ∃ s s', Reaches (step client) (client.start ⟨0, 0, by decide⟩) s ∧
      decide (s.main.left? = some client.epilogue.length ∧ s.broken = false) = true ∧
      Reaches (step client) s s' ∧ decide (s'.main.left? = some 0) = true :=
    exists_reaches_of_runs leaving.1 leaving.2 (by decide +kernel) (by decide +kernel)
  obtain ⟨s, s', hs, hleft, hs', hdone⟩ := hruns
  obtain ⟨hleft, hbroken⟩ := of_decide_eq_true hleft
  exact ⟨s, s', hs, hs', hleft, hbroken, of_decide_eq_true hdone⟩

/-- The server's `DISCONNECT` ends the loop of a client that can write, and the client is gone
without one of its own. -/
theorem departs_unannounced : ∃ s s', Reaches (step client) (client.start ⟨0, 0, by decide⟩) s ∧
    Reaches (step client) s s' ∧ Leaves s s' ∧ ¬ Announced s' := by
  obtain ⟨s, s', hs, hs', hleaves⟩ := leaving_runs
  exact ⟨s, s', hs, hs', hleaves, not_announced (hs.trans hs')⟩

theorem announces_iff_leaving : ∃ s s', Reaches (step client) (client.start ⟨0, 0, by decide⟩) s ∧
    Reaches (step client) s s' ∧ Leaves s s' ∧
    ((∀ y ∈ s'.sent, ¬ Departs y.2) ∧ ((Leaves s s' → Announced s') ↔ ¬ Leaves s s')) := by
  obtain ⟨s, s', hs, hs', hleaves⟩ := leaving_runs
  exact ⟨s, s', hs, hs', hleaves, announces_iff_not_leaves ⟨0, 0, by decide⟩ s s' hs hs'⟩

end HelloWebsocket.Cpp.Client
