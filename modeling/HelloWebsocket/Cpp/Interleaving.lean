import HelloWebsocket.Wire.Interleaving
import HelloWebsocket.Cpp.Progress
import HelloWebsocket.Cpp.Bounds

/-!
# Frames on a connection of the C++ server

The frames of `sendFrame` are written one after another. The answers to control frames
are written without the mutex, and `sendAll` may be interrupted between two calls of
`send`. So the octets of two frames mix exactly when a thread writes while another one
has begun its frame, and one of the two is the main thread in `wsSendControl`.

## Implementation notes

The connection is the log of what each call of `send` put on it. Nothing is written
after a refused call, and what is written to a closed descriptor is not on it.
-/

namespace HelloWebsocket.Cpp.Threads

open Ws Interleaving Transitions

variable {β V W : Type} {P : Program β V W} {s s' : State β V W} {t t' : Thread β}

section Frames

/-- The octets of some frame of the session. -/
def Framing (P : Program β V W) (b : Bytes) : Prop := ∃ f, Encodes P.masked f b

theorem prefixFree_framing : PrefixFree (Framing P) := by
  rintro u v ⟨f, hf⟩ ⟨g, hg⟩ ⟨rest, h⟩
  exact (encodes_unique hf hg (h.trans (List.append_nil v).symm)).1

theorem encodes_octets (P : Program β V W) (key : Key) {f : Ws.Frame}
    (h : f.payload.length < 2 ^ 63) : Encodes P.masked f (P.octets key f) := by
  refine ⟨_, if P.masked then some key else none, LengthForm.of_fits h, ?_, rfl⟩
  cases P.masked <;> rfl

/-- The octets are whole frames, one after another, and the beginning of one more. -/
def WholeFrames (masked : Bool) (b : Bytes) : Prop :=
  ∃ fs c p f d, b = c ++ p ∧ EncodesAll masked fs c ∧ Encodes masked f d ∧ p <+: d

theorem encodesAll_flatten {masked : Bool} {words : List Bytes}
    (h : ∀ u ∈ words, ∃ f, Encodes masked f u) : ∃ fs, EncodesAll masked fs words.flatten := by
  induction words with
  | nil => exact ⟨[], rfl⟩
  | cons u words ih =>
      obtain ⟨f, hf⟩ := h u List.mem_cons_self
      obtain ⟨fs, hfs⟩ := ih fun w hw => h w (List.mem_cons_of_mem u hw)
      exact ⟨f :: fs, u, words.flatten, hf, hfs, rfl⟩

/-- A tidy log puts whole frames on the connection. -/
theorem wholeFrames_of_tidy (h : Tidy (Framing P) s.written) : WholeFrames P.masked s.wire := by
  obtain ⟨words, p, htext, hwords, hp⟩ := h.words
  obtain ⟨fs, hfs⟩ := encodesAll_flatten hwords
  rcases hp with rfl | ⟨word, ⟨f, hf⟩, hpre⟩
  · have hempty := encodes_octets P ⟨[0, 0, 0, 0], rfl⟩ (f := ⟨true, 2, []⟩) (by decide)
    exact ⟨fs, _, [], _, _, htext, hfs, hempty, List.nil_prefix⟩
  · exact ⟨fs, _, p, f, word, htext, hfs, hf, hpre⟩

end Frames

section Parts

/-- If a thread is inside `sendAll`, this part of its frame has been written. -/
def Wrote (P : Program β V W) (s : State β V W) (t : Thread β) (part : Log (Thread β) UInt8) : Prop :=
  ∀ x rest, s.sending? t = some x → x.phase = .write rest →
    ∃ key, text part ++ rest = P.octets key x.frame

/-- On an open connection, every frame is whole except for that of one thread. -/
structure Parted (P : Program β V W) (s : State β V W) (whole part : Log (Thread β) UInt8)
    (t : Thread β) : Prop where
  written : s.written = whole ++ part
  blocks : Blocks (Framing P) whole
  uniform : By t part
  call : part ≠ [] → ∃ x rest, s.sending? t = some x ∧ x.phase = .write rest
  own : Wrote P s t part
  others : ∀ t', t' ≠ t → Wrote P s t' []

/-- The frames on the connection are not mixed. -/
structure Even (P : Program β V W) (s : State β V W) : Prop where
  tidy : Tidy (Framing P) s.written
  pieces : Pieces s.written
  parts : s.closed = false → s.broken = false → ∃ whole part t, Parted P s whole part t

theorem even_start (c : Clock) : Even P (P.start c) where
  tidy := ⟨[], [], rfl, .nil, .inl rfl⟩
  pieces := nofun
  parts _ _ := by
    have hnone : ∀ t, Wrote P (P.start c) t [] := by
      intro t x rest hx
      cases t <;> cases hx
    exact ⟨[], [], .main, rfl, .nil, nofun, fun h => absurd rfl h, hnone _, fun t' _ => hnone t'⟩

/-- The call of a thread is the same, or it begins to write its frame at the earliest now. -/
def Untouched (P : Program β V W) (s s' : State β V W) (t : Thread β) : Prop :=
  s'.sending? t = s.sending? t ∨
    ((∀ x rest, s.sending? t = some x → x.phase ≠ .write rest) ∧ Wrote P s' t [])

theorem Untouched.wrote {part : Log (Thread β) UInt8} (h : Untouched P s s' t)
    (hcall : part ≠ [] → ∃ x rest, s.sending? t = some x ∧ x.phase = .write rest)
    (hw : Wrote P s t part) : Wrote P s' t part := by
  rcases h with hsame | ⟨hnot, hfresh⟩
  · intro x rest hx hphase
    exact hw x rest (hsame ▸ hx) hphase
  · by_cases hpart : part = []
    · subst hpart
      exact hfresh
    · obtain ⟨x, rest, hx, hphase⟩ := hcall hpart
      exact absurd hphase (hnot x rest hx)

/-- A step that writes nothing. -/
theorem Even.keep (h : Even P s) (hwritten : s'.written = s.written)
    (hclosed : s'.closed = false → s.closed = false)
    (hbroken : s'.broken = false → s.broken = false)
    (hcalls : s'.broken = false → ∀ t, Untouched P s s' t) : Even P s' := by
  refine ⟨hwritten ▸ h.tidy, hwritten ▸ h.pieces, fun hc hb => ?_⟩
  obtain ⟨whole, part, t, hparted⟩ := h.parts (hclosed hc) (hbroken hb)
  refine ⟨whole, part, t, hwritten.trans hparted.written, hparted.blocks, hparted.uniform, ?_, ?_, ?_⟩
  · intro hpart
    obtain ⟨x, rest, hx, hphase⟩ := hparted.call hpart
    rcases hcalls hb t with hsame | ⟨hnot, -⟩
    · exact ⟨x, rest, hsame ▸ hx, hphase⟩
    · exact absurd hphase (hnot x rest hx)
  · exact (hcalls hb t).wrote hparted.call hparted.own
  · intro t' ht'
    exact (hcalls hb t').wrote (fun hbad => absurd rfl hbad) (hparted.others t' ht')

end Parts

section Clashes

/-- A thread has written a part of its frame and has not come to its end. -/
def Begun (P : Program β V W) (s : State β V W) (t : Thread β) : Prop :=
  ∃ x rest, s.sending? t = some x ∧ x.phase = .write rest ∧
    ∀ key, rest ≠ P.octets key x.frame

/-- A thread writes while another one has begun its frame, and one of the two is the main thread
that answers a control frame. -/
def Clash [DecidableEq β] [Fintype β] (P : Program β V W) (s : State β V W) : Label β → Prop
  | .write t n => s.closed = false ∧ (∃ s', step P s (.write t n) = some s') ∧
      ∃ t', t' ≠ t ∧ Begun P s t' ∧ (t = .main ∨ t' = .main) ∧
        ∃ x, s.sending? .main = some x ∧ x.origin = .control
  | _ => False

/-- Two threads inside `sendAll` at once: one of them answers a control frame. -/
theorem Exclusive.control_of_two {x y : Sending β} {rest rest' : Bytes} (h : Exclusive s)
    (hne : t' ≠ t) (hx : s.sending? t = some x) (hphase : x.phase = .write rest)
    (hy : s.sending? t' = some y) (hphase' : y.phase = .write rest') :
    (t = .main ∨ t' = .main) ∧ ∃ z, s.sending? .main = some z ∧ z.origin = .control := by
  obtain ⟨hthread, ⟨hcontrol, -⟩ | ⟨-, hlock⟩⟩ := h t x hx
  · rw [hcontrol] at hthread
    cases hthread
    exact ⟨.inl rfl, x, hx, hcontrol⟩
  obtain ⟨hthread', ⟨hcontrol, -⟩ | ⟨-, hlock'⟩⟩ := h t' y hy
  · rw [hcontrol] at hthread'
    cases hthread'
    exact ⟨.inr rfl, y, hy, hcontrol⟩
  · have hheld := hlock.resolve_left (by rw [hphase]; exact nofun)
    have hheld' := hlock'.resolve_left (by rw [hphase']; exact nofun)
    rw [hheld] at hheld'
    exact absurd (Option.some.inj hheld').symm hne

/-- The thread whose frame is not whole has begun it. -/
theorem Parted.begun {whole part : Log (Thread β) UInt8} (h : Parted P s whole part t)
    (hpieces : Pieces s.written) (hpart : part ≠ []) : Begun P s t := by
  obtain ⟨x, rest, hx, hphase⟩ := h.call hpart
  refine ⟨x, rest, hx, hphase, fun key hfull => ?_⟩
  obtain ⟨key', hsplit⟩ := h.own x rest hx hphase
  have hlen : (P.octets key' x.frame).length = (P.octets key x.frame).length := by
    simp only [Program.octets, frameOctets, List.length_cons, List.length_append]
    exact congrArg (_ + · + 1 + 1) (length_body (by cases P.masked <;> rfl) rfl)
  have hnil : text part = [] := by
    have hsum := congrArg List.length hsplit
    rw [List.length_append, hlen, ← hfull] at hsum
    exact List.length_eq_zero_iff.mp (by omega)
  rw [h.written] at hpieces
  exact hpart (eq_nil_of_text (pieces_append.mp hpieces).2 hnil)

theorem Parted.eq_of_begun [DecidableEq β] {whole part : Log (Thread β) UInt8} (h : Parted P s whole part t)
    (hbegun : Begun P s t') : t' = t ∧ part ≠ [] := by
  obtain ⟨x, rest, hx, hphase, hnot⟩ := hbegun
  by_cases ht : t' = t
  · refine ⟨ht, ?_⟩
    subst ht
    rintro rfl
    obtain ⟨key, hfull⟩ := h.own x rest hx hphase
    exact hnot key hfull
  · obtain ⟨key, hfull⟩ := h.others t' ht x rest hx hphase
    exact absurd hfull (hnot key)

end Clashes

section Steps

theorem untouched_of_pointStep [Fintype β] {p : Point} {key : Key} (hlock : Locking s)
    (hmain : s.main = .standing p) (hstep : PointStep P s key p s') (t : Thread β) :
    Untouched P s s' t := by
  have hnone : s.sending? .main = none := by rw [State.sending?, hmain]; rfl
  obtain ⟨-, -, hopens⟩ := calls_of_pointStep hstep
  cases t with
  | watch => exact .inl rfl
  | main =>
      refine .inr ⟨fun x rest hx => (by cases hnone.symm.trans hx), fun x rest hx hphase => ?_⟩
      obtain ⟨data, rfl | rfl⟩ | ⟨-, hwrite⟩ := hopens x hx
      · cases hphase
      · cases hphase
      · rw [hwrite] at hphase
        exact ⟨key, (Phase.write.inj hphase).symm⟩
  | beat b =>
      rcases beats_of_pointStep hstep with hbeats | ⟨rest, rfl⟩
      · exact .inl (congrArg Beat.call? (congrFun hbeats b))
      · -- The threads are started: none of them has been in a call.
        have hpoint : s.main.point = .prologue (.spawn :: rest) := by rw [hmain]; rfl
        obtain ⟨-, hunborn⟩ := (hlock.unborn _ hpoint).resolve_left fun hbad => by cases hbad
        cases hstep
        refine .inl ?_
        change none = (s.beats b).call?
        rw [hunborn b]
        rfl

variable [DecidableEq β]

theorem untouched_of_beatStep {b : β} {number : Int64} (hidle : s.sending? (.beat b) = none)
    (hstep : beatStep P s b number (s.beats b) = some s') (t : Thread β) : Untouched P s s' t := by
  have hset : ∀ (s₁ : State β V W) (y : Beat β), (∀ t, s₁.sending? t = s.sending? t) →
      (∀ x, y.call? = some x → x.phase = .acquire) → Untouched P s (s₁.withBeat b y) t := by
    intro s₁ y hcalls hy
    by_cases ht : t = .beat b
    · subst ht
      refine .inr ⟨fun x rest hx => (nomatch hidle.symm.trans hx), fun x rest hx hphase => ?_⟩
      rw [sending?_withBeat, if_pos rfl] at hx
      cases hphase.symm.trans (hy x hx)
    · exact .inl (by rw [sending?_withBeat, if_neg ht, hcalls])
  cases hy : s.beats b with
  | loop | recheck =>
      rw [hy] at hstep
      cases hstep
      refine hset s _ (fun _ => rfl) fun x hx => ?_
      split at hx <;> cases hx
  | asleep =>
      rw [hy] at hstep
      cases hstep
      exact hset s _ (fun _ => rfl) nofun
  | build =>
      rw [hy] at hstep
      cases hstep
      refine hset s _ (fun _ => rfl) fun x hx => ?_
      cases hx
      rfl
  | clear =>
      rw [hy] at hstep
      cases hstep
      exact hset s.interrupt _ (fun t => by cases t <;> rfl) nofun
  | unborn | sending | done =>
      rw [hy] at hstep
      cases hstep

theorem wrote_moveSending {t₁ : Thread β} {phase : Phase} {part : Log (Thread β) UInt8}
    (hne : t ≠ t₁) (h : Wrote P s t part) : Wrote P (s.moveSending t₁ phase) t part := by
  intro x rest hx
  rw [sending?_moveSending, if_neg hne] at hx
  exact h x rest hx

/-- A thread whose frame is the only one begun writes on. -/
theorem even_wrote {whole part : Log (Thread β) UInt8} {n : Nat} {x : Sending β} {rest : Bytes}
    (h : Even P s) (hparted : Parted P s whole part t)
    (hbound : x.frame.payload.length < 2 ^ 63) (hx : s.sending? t = some x)
    (hphase : x.phase = .write rest) (hpos : 0 < n) (hle : n ≤ rest.length)
    (hclosed : s.closed = false) : Even P (wrote s t n x rest) := by
  obtain ⟨key, hsplit⟩ := hparted.own x rest hx hphase
  have hcode : Framing P (P.octets key x.frame) := ⟨x.frame, encodes_octets P key hbound⟩
  have htext : text (part ++ [(t, rest.take n)]) ++ rest.drop n = P.octets key x.frame := by
    rw [text_append, text_singleton, List.append_assoc, List.take_append_drop, hsplit]
  have hby : By t (part ++ [(t, rest.take n)]) :=
    by_append.mpr ⟨hparted.uniform, by
      intro y hy
      rw [List.mem_singleton.mp hy]⟩
  have hwritten : (wrote s t n x rest).written = whole ++ (part ++ [(t, rest.take n)]) := by
    rw [wrote_of_open hclosed, ← List.append_assoc, ← hparted.written]
    rfl
  have hpiece : rest.take n ≠ [] := by
    intro hnil
    have hlen := congrArg List.length hnil
    rw [List.length_take, List.length_nil] at hlen
    omega
  have hothers : ∀ t', t' ≠ t → Wrote P (wrote s t n x rest) t' [] := by
    intro t' ht'
    rw [wrote_of_open hclosed]
    refine wrote_moveSending ht' fun y r hy => hparted.others t' ht' y r ?_
    rw [← hy]
    cases t' <;> rfl
  have hcall : (wrote s t n x rest).sending? t = some { x with
      phase := if n = rest.length then .release true else .write (rest.drop n) } := by
    obtain ⟨s₁, hs₁, -, hcalls⟩ := wrote_eq (s := s) t n x rest
    rw [hs₁, sending?_moveSending, if_pos rfl, hcalls, hx]
    rfl
  refine ⟨?_, ?_, fun _ _ => ?_⟩
  · rw [hwritten]
    exact ⟨whole, _, rfl, hparted.blocks, .inr ⟨t, _, hby, hcode, _, htext⟩⟩
  · rw [hwritten, ← List.append_assoc, ← hparted.written, pieces_append]
    refine ⟨h.pieces, ?_⟩
    intro y hy
    rw [List.mem_singleton.mp hy]
    exact hpiece
  · by_cases hn : n = rest.length
    · -- The frame is written to its end.
      rw [if_pos hn] at hcall
      rw [hn, List.drop_length, List.append_nil] at htext
      refine ⟨whole ++ (part ++ [(t, rest.take n)]), [], t, ?_, ?_, nofun, fun hbad => absurd rfl hbad,
        ?_, hothers⟩
      · rw [hwritten, List.append_nil]
      · refine hparted.blocks.concat hby ?_
        rw [hn, htext]
        exact hcode
      · intro y r hy hr
        cases hcall.symm.trans hy
        cases hr
    · rw [if_neg hn] at hcall
      refine ⟨whole, part ++ [(t, rest.take n)], t, hwritten, hparted.blocks, hby,
        fun _ => ⟨_, _, hcall, rfl⟩, ?_, hothers⟩
      intro y r hy hr
      cases hcall.symm.trans hy
      cases hr
      exact ⟨key, htext⟩

theorem Even.not_tidy {whole part : Log (Thread β) UInt8} {n : Nat} {x : Sending β} {rest : Bytes}
    (h : Even P s) (hparted : Parted P s whole part t') (hpart : part ≠ []) (hne : t ≠ t')
    (hbound : ∀ y, s.sending? t' = some y → y.frame.payload.length < 2 ^ 63)
    (hleft : ∀ y, s.sending? t' = some y → y.phase ≠ .write [])
    (hpos : 0 < n) (hle : n ≤ rest.length) (hclosed : s.closed = false) :
    ¬ Tidy (Framing P) (wrote s t n x rest).written := by
  obtain ⟨y, rest', hy, hphase⟩ := hparted.call hpart
  obtain ⟨key, hsplit⟩ := hparted.own y rest' hy hphase
  have hrest' : rest' ≠ [] := by
    rintro rfl
    exact hleft y hy hphase
  have hpiece : rest.take n ≠ [] := by
    intro hnil
    have hlen := congrArg List.length hnil
    rw [List.length_take, List.length_nil] at hlen
    omega
  have hwritten : (wrote s t n x rest).written = whole ++ (part ++ [(t, rest.take n)]) := by
    rw [wrote_of_open hclosed, ← List.append_assoc, ← hparted.written]
    rfl
  rw [hwritten]
  refine not_tidy_of_intrusion prefixFree_framing hparted.blocks ?_ hpart hparted.uniform
    ⟨y.frame, encodes_octets P key (hbound y hy)⟩ ⟨rest', hsplit⟩ ?_ hne
  · rw [← List.append_assoc, ← hparted.written, pieces_append]
    refine ⟨h.pieces, ?_⟩
    intro z hz
    rw [List.mem_singleton.mp hz]
    exact hpiece
  · intro hfull
    rw [← hsplit, List.self_eq_append_right] at hfull
    exact hrest' hfull

theorem untouched_moveSending {s₁ : State β V W} {x : Sending β} {phase : Phase}
    (hcalls : ∀ t, s₁.sending? t = s.sending? t) (hx : s.sending? t = some x)
    (hold : ∀ rest, x.phase ≠ .write rest)
    (hnew : ∀ rest, phase = .write rest → ∃ key, rest = P.octets key x.frame) (t' : Thread β) :
    Untouched P s (s₁.moveSending t phase) t' := by
  by_cases ht : t' = t
  · subst ht
    refine .inr ⟨fun y rest hy => ?_, fun y rest hy hphase => ?_⟩
    · cases hx.symm.trans hy
      exact hold rest
    · rw [sending?_moveSending, if_pos rfl, hcalls, hx] at hy
      cases hy
      exact hnew rest hphase
  · exact .inl (by rw [sending?_moveSending, if_neg ht, hcalls])

variable [Fintype β] {l : Label β}

/-- Every step but one of `sendAll` leaves the connection as it is. -/
theorem Even.aside (h : Even P s) (hlock : Locking s) (hstep : Step P s l s')
    (hl : ∀ t n, l ≠ .write t n) : Even P s' := by
  cases hstep with
  | arrive | hangUp | time => exact h.keep rfl id id fun _ t => .inl (by cases t <;> rfl)
  | @acquire t choice x hx hphase hfree =>
      exact h.keep rfl id id fun _ => untouched_moveSending (fun t => by cases t <;> rfl) hx
        (by rw [hphase]; exact nofun) nofun
  | @test t choice x hx hphase =>
      refine h.keep rfl id id fun _ => untouched_moveSending (fun _ => rfl) hx
        (by rw [hphase]; exact nofun) fun rest hrest => ?_
      split at hrest
      · exact ⟨choice.key, (Phase.write.inj hrest).symm⟩
      · cases hrest
  | @release t choice x result hx hphase =>
      refine h.keep rfl id id fun _ t' => ?_
      have hcalls : ∀ t', State.sending? { s with
          mutex := if x.origin = .control then s.mutex else none } t' = s.sending? t' := by
        intro t'
        cases t' <;> rfl
      by_cases ht : t' = t
      · subst ht
        refine .inr ⟨fun y rest hy => ?_, fun y rest hy => ?_⟩
        · cases hx.symm.trans hy
          rw [hphase]
          exact nofun
        · rw [sending?_returned ((hcalls t').trans hx), if_pos rfl] at hy
          cases hy
      · exact .inl (by rw [sending?_returned ((hcalls t).trans hx), if_neg ht, hcalls])
  | @write t n => exact absurd rfl (hl t n)
  | refuse => exact h.keep rfl id nofun nofun
  | @point choice p _ hmain hpoint =>
      have hcalls := untouched_of_pointStep hlock hmain hpoint
      cases hpoint with
      | begin | loop | exhausted | refused | stop | handle => exact h.keep rfl id id fun _ => hcalls
      | @prologue call rest => cases call <;> exact h.keep rfl id id fun _ => hcalls
      | @epilogue call rest _ hcall =>
          cases call with
          | clear | send | control =>
              cases hcall
              exact h.keep rfl id id fun _ => hcalls
          | close =>
              cases hcall
              exact h.keep rfl nofun id fun _ => hcalls
          | join =>
              obtain ⟨-, hcall⟩ := Option.ite_none_right_eq_some.mp hcall
              cases hcall
              exact h.keep rfl id id fun _ => hcalls
      | @frame a f b rest =>
          obtain ⟨m, consumed, hm⟩ := frameStep_eq (P := P) (s := { s with inbox := rest })
            choice.key a b f
          rw [hm] at hcalls ⊢
          exact h.keep rfl id id fun _ => hcalls
  | @beat b choice _ hidle hbeat =>
      have hcalls := untouched_of_beatStep hidle hbeat
      cases hy : s.beats b <;> rw [hy] at hbeat <;> cases hbeat <;>
        exact h.keep rfl id id fun _ => hcalls
  | watch hwatch =>
      obtain ⟨-, hmain, hbeats⟩ := watchStep_fields hwatch
      have hcalls : ∀ t, Untouched P s s' t := by
        intro t
        cases t with
        | main => exact .inl (congrArg Main.call? hmain)
        | beat b => exact .inl (congrArg Beat.call? (congrFun hbeats b))
        | watch => exact .inl rfl
      rw [watchStep] at hwatch
      split at hwatch <;> cases hwatch <;> exact h.keep rfl id id fun _ => hcalls

end Steps

section Runs

variable [DecidableEq β] [Fintype β] {l : Label β}

/-- What is needed of a state to tell which steps mix frames. -/
structure Sound (P : Program β V W) (s : State β V W) : Prop where
  exclusive : Exclusive s
  locking : Locking s
  bounded : ∀ t x, s.sending? t = some x → x.frame.payload.length < 2 ^ 63

/-- A step mixes frames exactly if it clashes with a frame that has been begun. -/
theorem tidy_step_iff (h : Even P s) (hsound : Sound P s) (hstep : step P s l = some s') :
    (Tidy (Framing P) s'.written ↔ ¬ Clash P s l) ∧ (¬ Clash P s l → Even P s') := by
  have hcases := step_cases hstep
  by_cases hl : ∀ t n, l ≠ .write t n
  · have heven := h.aside hsound.locking hcases hl
    have hnot : ¬ Clash P s l := by
      cases l with
      | write t n => exact absurd rfl (hl t n)
      | _ => exact id
    exact ⟨iff_of_true heven.tidy hnot, fun _ => heven⟩
  · push Not at hl
    obtain ⟨t, n, rfl⟩ := hl
    cases hcases with
    | @write _ _ x rest hx hphase hpos hle hbroken hshut =>
        cases hclosed : s.closed with
        | true =>
            have heven : Even P (wrote s t n x rest) := by
              rw [wrote_of_closed hclosed]
              refine ⟨h.tidy, h.pieces, fun hbad => ?_⟩
              cases hclosed.symm.trans hbad
            have hnot : ¬ Clash P s (.write t n) := fun hclash => by
              cases hclosed.symm.trans hclash.1
            exact ⟨iff_of_true heven.tidy hnot, fun _ => heven⟩
        | false =>
            obtain ⟨whole, part, t₀, hparted⟩ := h.parts hclosed hbroken
            by_cases hown : part = [] ∨ t = t₀
            · have hparted' : Parted P s whole part t := by
                rcases hown with rfl | rfl
                · have hall : ∀ t', Wrote P s t' [] := by
                    intro t'
                    by_cases ht' : t' = t₀
                    · exact ht' ▸ hparted.own
                    · exact hparted.others t' ht'
                  exact ⟨hparted.written, hparted.blocks, nofun, fun hbad => absurd rfl hbad, hall t,
                    fun t' _ => hall t'⟩
                · exact hparted
              have heven := even_wrote h hparted' (hsound.bounded t x hx) hx hphase hpos hle hclosed
              have hnot : ¬ Clash P s (.write t n) := by
                rintro ⟨-, -, t', ht', hbegun, -⟩
                exact ht' (hparted'.eq_of_begun hbegun).1
              exact ⟨iff_of_true heven.tidy hnot, fun _ => heven⟩
            · obtain ⟨hpart, hne⟩ := not_or.mp hown
              obtain ⟨y, rest', hy, hphase'⟩ := hparted.call hpart
              have hclash : Clash P s (.write t n) :=
                ⟨hclosed, ⟨_, hstep⟩, t₀, Ne.symm hne, hparted.begun h.pieces hpart,
                  hsound.exclusive.control_of_two (Ne.symm hne) hx hphase hy hphase'⟩
              have hbad := h.not_tidy (n := n) (x := x) hparted hpart hne (hsound.bounded t₀)
                (hsound.locking.left t₀) hpos hle hclosed
              exact ⟨iff_of_false hbad (not_not.mpr hclash), fun hnot => absurd hclash hnot⟩

theorem tidy_iff_of_step (h : Even P s) (hsound : Sound P s) (l : Label β) :
    (∀ s', step P s l = some s' → Tidy (Framing P) s'.written) ↔ ¬ Clash P s l := by
  constructor
  · intro htidy hclash
    cases l with
    | write t n =>
        obtain ⟨s', hs'⟩ := hclash.2.1
        exact (tidy_step_iff h hsound hs').1.mp (htidy s' hs') hclash
    | _ => exact hclash
  · intro hnot s' hs'
    exact (tidy_step_iff h hsound hs').1.mpr hnot

/-- Along a run the frames stay apart exactly as long as no step clashes. -/
theorem along_tidy_iff {I : State β V W → Prop} (hI : ∀ s l s', I s → step P s l = some s' → I s')
    (hsound : ∀ s, I s → Sound P s) (hs : I s) (h : Even P s) (ls : List (Label β)) :
    Along (step P) (fun s l => ∀ s', step P s l = some s' → Tidy (Framing P) s'.written) s ls ↔
      Along (step P) (fun s l => ¬ Clash P s l) s ls := by
  refine along_congr_of (I := fun s => I s ∧ Even P s) ?_ ?_ ⟨hs, h⟩
  · rintro s l ⟨hs, heven⟩
    exact tidy_iff_of_step heven (hsound s hs) l
  · rintro s l s' ⟨hs, heven⟩ htidy hstep
    have hnot := (tidy_iff_of_step heven (hsound s hs) l).mp htidy
    exact ⟨hI s l s' hs hstep, (tidy_step_iff heven (hsound s hs) hstep).2 hnot⟩

end Runs

end HelloWebsocket.Cpp.Threads

namespace HelloWebsocket.Cpp.Server

open Ws Threads Transitions Interleaving

section Connection

/-- A run of the server keeps its frames apart exactly if no thread writes while another one has
begun its frame, one of the two being the main thread inside `wsSendControl`. Then whole frames
are on the connection after every step, and at most the beginning of one more. -/
theorem frames_apart_iff (c : Clock) (ls : List (Label Background)) :
    (Along (step server) (fun s l => ∀ s', step server s l = some s' →
          Tidy (Framing server) s'.written) (server.start c) ls ↔
        Along (step server) (fun s l => ¬ Clash server s l) (server.start c) ls) ∧
      (Along (step server) (fun s l => ¬ Clash server s l) (server.start c) ls →
        Along (step server) (fun s l => ∀ s', step server s l = some s' →
          WholeFrames false s'.wire) (server.start c) ls) := by
  have hsound : ∀ s, Reaches (step server) (server.start c) s → Sound server s := by
    intro s hs
    exact ⟨(orderly_of_reaches hs).exclusive, locking_of_reaches rfl hs,
      (given_of_reaches server_gives hs).calls⟩
  have hiff := along_tidy_iff (fun s l s' hs hstep => hs.tail hstep) hsound
    (Reaches.refl (server.start c)) (even_start c) ls
  refine ⟨hiff, fun hnot => (hiff.mpr hnot).mono fun s l htidy s' hs' => ?_⟩
  exact wholeFrames_of_tidy (P := server) (htidy s' hs')

/-- The second octet of a frame of the server has no MASK bit. -/
theorem second_of_encodes {f : Ws.Frame} {b : Bytes} (h : Encodes false f b) :
    ∃ x y rest, b = x :: y :: rest ∧ y.toNat < 128 := by
  obtain ⟨form, key, hfits, hkey, rfl⟩ := h
  refine ⟨_, _, _, rfl, ?_⟩
  have hfield := form.field_lt hfits
  rw [toNat_secondOctet _ hfield, hkey]
  simpa using hfield

theorem not_wholeFrames : ¬ WholeFrames false [0x82, 0x8A] := by
  rintro ⟨fs, c, p, f, d, h, hfs, hd, hp⟩
  cases fs with
  | nil =>
      cases hfs
      obtain ⟨x, y, rest, rfl, hy⟩ := second_of_encodes hd
      obtain ⟨more, hmore⟩ := hp
      rw [← show [0x82, 0x8A] = p from h] at hmore
      cases hmore
      exact absurd hy (by decide)
  | cons g fs =>
      obtain ⟨b₁, b₂, hg, -, rfl⟩ := hfs
      obtain ⟨x, y, rest, rfl, hy⟩ := second_of_encodes hg
      rw [List.append_assoc] at h
      obtain ⟨rfl, -⟩ := List.cons.inj (List.cons.inj h).2
      exact absurd hy (by decide)

/-- The ping thread has written one octet of its frame when the main thread answers a ping of the
client: the two octets on the connection begin no frame. -/
theorem frames_mixed : ∃ s, Reaches (step server) (server.start ⟨0, 0, by decide⟩) s ∧
    ¬ WholeFrames false s.wire := by
  let idle : Choice := ⟨0, ⟨[0, 0, 0, 0], rfl⟩⟩
  let ping : Label Background := .move (.beat .ping) idle
  let main : Label Background := .move .main idle
  have hrun : ∃ s, Reaches (step server) (server.start ⟨0, 0, by decide⟩) s ∧
      decide (s.wire = [0x82, 0x8A]) = true :=
    exists_reaches_of_run [main, main, main, ping, ping, ping, ping, ping, ping,
      .write (.beat .ping) 1, .arrive [0x89, 0x80, 0, 0, 0, 0], main, .write .main 1]
      (by decide +kernel)
  obtain ⟨s, hs, hwire⟩ := hrun
  refine ⟨s, hs, ?_⟩
  rw [of_decide_eq_true hwire]
  exact not_wholeFrames

end Connection

end HelloWebsocket.Cpp.Server
