import HelloWebsocket.Ws.Message

/-!
# Sockets

A connected socket as a program sees it. The stream arrives in chunks and ends in an
orderly way or with an error code. Each send takes its whole buffer or fails, as an
oracle decides, and every buffer offered is recorded. A program over a socket stands
for one over a `Link` when the stream and the replies are the same.

## Implementation notes

Masking keys are drawn from a second oracle. Both oracles are indexed by the number
of sends before. Replies have at most 125 octets of payload, so their frames are
written in the short form.
-/

namespace HelloWebsocket.Ws

open Parsing Streams Loops Simulation

/-- What one call of `recv` gives. -/
inductive Received
  | data (octets : Bytes)
  | closed
  | failed (code : Int32)

structure Socket where
  inbox : Chunks UInt8
  /-- The code with which `recv` fails at the end of the stream, if it does. -/
  ending : Option Int32
  /-- The code with which a send fails, if it does. -/
  refusals : Nat → Option Int32
  keys : Nat → Key
  sends : List Bytes

namespace Socket

variable {ε : Type}

/-- The octets still to be received. -/
def unread (s : Socket) : Bytes := s.inbox.unread

/-- A fresh socket on which the octets arrive one by one and every send succeeds. -/
def delivering (octets : Bytes) : Socket where
  inbox := .singles octets
  ending := none
  refusals _ := none
  keys _ := .zero
  sends := []

theorem unread_delivering (octets : Bytes) : (delivering octets).unread = octets :=
  Chunks.unread_singles octets

/-- At most `n` octets of what has arrived. -/
def recv (n : Nat) : EStateM ε Socket Received := fun s =>
  match s.inbox.next n with
  | some (octets, rest) => .ok (.data octets) { s with inbox := rest }
  | none => .ok (match s.ending with
      | none => .closed
      | some code => .failed code) s

/-- The number of octets sent, or the code of the failure. -/
def send (buf : Bytes) : EStateM ε Socket (Except Int32 Nat) := fun s =>
  .ok (match s.refusals s.sends.length with
    | none => .ok buf.length
    | some code => .error code) { s with sends := s.sends ++ [buf] }

def newKey : EStateM ε Socket Key := fun s => .ok (s.keys s.sends.length) s

end Socket

section Receiving

variable {ε : Type}

/-- One read of a language's own making over `recv`. -/
structure Reader (ε : Type) where
  get : Nat → EStateM ε Socket Bytes
  onEnd : Option Int32 → ε
  get_eq : ∀ n s, 0 < n → get n s = match s.inbox.next n with
    | some (octets, rest) => .ok octets { s with inbox := rest }
    | none => .error (onEnd s.ending) s

/-- One more read, unless `len` octets are there. -/
def Reader.fill (r : Reader ε) (len : Nat) (buf : Bytes) : EStateM ε Socket (Bytes ⊕ Bytes) :=
  if buf.length < len then do
    let octets ← r.get (len - buf.length)
    pure (.inl (buf ++ octets))
  else pure (.inr buf)

/-- Reads until `len` octets are there. -/
def Reader.filling (r : Reader ε) (len : Nat) : Body ε Socket Bytes Bytes where
  measure _ s := s.unread.length
  run := r.fill len
  shrinks := by
    intro buf s buf' s' h
    rw [Reader.fill] at h
    split at h
    · next hlt =>
        obtain ⟨octets, s₁, hget, hpure⟩ := bind_eq_ok_iff.mp h
        cases hpure
        rw [r.get_eq _ _ (by omega)] at hget
        cases hnext : s.inbox.next (len - buf.length) with
        | none =>
            rw [hnext] at hget
            cases hget
        | some q =>
            rw [hnext] at hget
            cases hget
            obtain ⟨hpos, -, hunread⟩ := Chunks.next_eq_some (by omega) hnext
            rw [Socket.unread, Socket.unread, hunread, List.length_append]
            change q.2.unread.length < _
            omega
    · cases h

def Reader.receive (r : Reader ε) (len : Nat) : EStateM ε Socket Bytes :=
  iterate (r.filling len) []

/-- The octets received are the next ones of the stream, or the stream ends before them. -/
theorem Reader.receive_spec (r : Reader ε) (len : Nat) (s : Socket) :
    match r.receive len s with
    | .ok buf s' => buf.length = len ∧ s.unread = buf ++ s'.unread ∧
        s' = { s with inbox := s'.inbox }
    | .error e s' => e = r.onEnd s.ending ∧ s.unread.length < len ∧ s'.unread = [] ∧
        s' = { s with inbox := s'.inbox } := by
  -- what has been read and what is left are the whole stream
  refine iterate_invariant (B := r.filling len)
    (P := fun buf t => buf.length ≤ len ∧ s.unread = buf ++ t.unread ∧
      t = { s with inbox := t.inbox })
    (Q := fun result => match result with
      | .ok buf s' => buf.length = len ∧ s.unread = buf ++ s'.unread ∧
          s' = { s with inbox := s'.inbox }
      | .error e s' => e = r.onEnd s.ending ∧ s.unread.length < len ∧ s'.unread = [] ∧
          s' = { s with inbox := s'.inbox }) ?_ [] s ⟨Nat.zero_le _, rfl, rfl⟩
  rintro buf t ⟨hlen, hunread, ht⟩
  change Turn _ _ (r.fill len buf t)
  by_cases hlt : buf.length < len
  · rw [Reader.fill, if_pos hlt]
    cases hnext : t.inbox.next (len - buf.length) with
    | none =>
        have hget := r.get_eq (len - buf.length) t (by omega)
        have hend : t.unread = [] := Chunks.next_eq_none hnext
        rw [hnext] at hget
        rw [bind_of_error hget]
        refine ⟨by rw [ht], ?_, hend, ht⟩
        rw [hunread, hend, List.append_nil]
        exact hlt
    | some q =>
        have hget := r.get_eq (len - buf.length) t (by omega)
        rw [hnext] at hget
        rw [bind_of_ok hget]
        obtain ⟨-, hle, hq⟩ := Chunks.next_eq_some (by omega) hnext
        refine ⟨by rw [List.length_append]; omega, ?_, by rw [ht]⟩
        rw [hunread, Socket.unread, hq, List.append_assoc]
        rfl
  · rw [Reader.fill, if_neg hlt]
    exact ⟨by omega, hunread, ht⟩

/-- Whatever the program returns, it has received `k` octets for it at least. -/
def Consumes {α : Type} (k : Nat) (m : EStateM ε Socket α) : Prop :=
  ∀ s a s', m s = .ok a s' → s'.unread.length + k ≤ s.unread.length

section Consumption

variable {α β : Type} {k : Nat}

theorem consumes_pure (a : α) : Consumes 0 (pure a : EStateM ε Socket α) := by
  intro s b s' h
  cases h
  exact Nat.le_refl _

theorem consumes_throw (e : ε) : Consumes k (throw e : EStateM ε Socket α) := by
  intro s a s' h
  cases h

theorem consumes_bind {m : EStateM ε Socket α} {f : α → EStateM ε Socket β} (hm : Consumes k m)
    (hf : ∀ a, Consumes 0 (f a)) : Consumes k (m >>= f) := by
  intro s b s'' h
  obtain ⟨a, s', hs, hs'⟩ := bind_eq_ok_iff.mp h
  have h₁ := hm s a s' hs
  have h₂ := hf a s' b s'' hs'
  omega

theorem consumes_throwIf {c : Prop} [Decidable c] {e : ε} {f : Unit → EStateM ε Socket β}
    (hf : Consumes k (f ())) : Consumes k (throwIf c e >>= f) := by
  intro s b s' h
  exact hf s b s' (throwIf_bind_eq_ok_iff.mp h).2

theorem consumes_ite {c : Prop} [Decidable c] {m n : EStateM ε Socket α} (hm : Consumes k m)
    (hn : Consumes k n) : Consumes k (if c then m else n) := by
  split
  · exact hm
  · exact hn

theorem consumes_adaptExcept {ε' : Type} {g : ε → ε'} {m : EStateM ε Socket α}
    (hm : Consumes k m) : Consumes k (m.adaptExcept g) := by
  intro s a s' h
  rw [EStateM.adaptExcept] at h
  cases hs : m s with
  | ok b t =>
      rw [hs] at h
      cases h
      exact hm s _ _ hs
  | error e t =>
      rw [hs] at h
      cases h

theorem Consumes.zero {m : EStateM ε Socket α} (hm : Consumes k m) : Consumes 0 m := by
  intro s a s' hs
  have hle := hm s a s' hs
  omega

theorem Reader.consumes_receive (r : Reader ε) (len : Nat) : Consumes len (r.receive len) := by
  intro s a s' h
  have hspec := r.receive_spec len s
  rw [h] at hspec
  obtain ⟨hlen, hunread, -⟩ := hspec
  rw [hunread, List.length_append]
  omega

theorem consumes_send (buf : Bytes) :
    Consumes 0 (Socket.send buf : EStateM ε Socket (Except Int32 Nat)) := by
  intro s a s' h
  cases h
  exact Nat.le_refl _

theorem consumes_newKey : Consumes 0 (Socket.newKey : EStateM ε Socket Key) := by
  intro s a s' h
  cases h
  exact Nat.le_refl _

end Consumption

end Receiving

section Replies

/-- The key with which the next frame is masked, if it is. -/
def Socket.nextKey (masked : Bool) (s : Socket) : Option Key :=
  if masked then some (s.keys s.sends.length) else none

/-- Frames in the short form, as they are sent one after another from a socket on. -/
def render (masked : Bool) (base : Socket) (fs : List Frame) : List Bytes :=
  fs.mapIdx fun i f =>
    frameOctets .short (if masked then some (base.keys (base.sends.length + i)) else none) f

@[simp] theorem length_render (masked : Bool) (base : Socket) (fs : List Frame) :
    (render masked base fs).length = fs.length :=
  List.length_mapIdx

theorem render_concat (masked : Bool) (base : Socket) (fs : List Frame) (f : Frame) :
    render masked base (fs ++ [f]) = render masked base fs ++
      [frameOctets .short
        (if masked then some (base.keys (base.sends.length + fs.length)) else none) f] :=
  List.mapIdx_concat

/-- The link behind a socket, before any reply. -/
def Socket.link (s : Socket) : Link where
  stream := s.unread
  accepts n := (s.refusals (s.sends.length + n)).isNone
  replies := []

/-- A socket that has gone from `base` to where the link stands. -/
structure Shows (masked : Bool) (base s : Socket) (l : Link) : Prop where
  stream : s.unread = l.stream
  accepts : l.accepts = base.link.accepts
  socket : s = { base with
    inbox := s.inbox
    sends := base.sends ++ render masked base l.replies }

namespace Shows

variable {masked : Bool} {base s : Socket} {l : Link}

theorem start (masked : Bool) (s : Socket) : Shows masked s s s.link where
  stream := rfl
  accepts := rfl
  socket := by
    change s = { s with sends := s.sends ++ [] }
    rw [List.append_nil]

theorem read (h : Shows masked base s l) (inbox : Chunks UInt8) :
    Shows masked base { s with inbox := inbox } { l with stream := inbox.unread } where
  stream := rfl
  accepts := h.accepts
  socket := by
    rw [h.socket]

theorem length_sends (h : Shows masked base s l) :
    s.sends.length = base.sends.length + l.replies.length := by
  rw [h.socket, List.length_append, length_render]

theorem nextKey (h : Shows masked base s l) : s.nextKey masked =
    if masked then some (base.keys (base.sends.length + l.replies.length)) else none := by
  rw [Socket.nextKey, h.length_sends, h.socket]

theorem refusal (h : Shows masked base s l) :
    (s.refusals s.sends.length).isNone = l.accepts l.replies.length := by
  rw [h.accepts, h.length_sends, h.socket]
  rfl

/-- A reply is recorded on both sides. -/
theorem sent (h : Shows masked base s l) (f : Frame) :
    Shows masked base { s with sends := s.sends ++ [frameOctets .short (s.nextKey masked) f] }
      { l with replies := l.replies ++ [f] } where
  stream := h.stream
  accepts := h.accepts
  socket := by
    rw [h.nextKey, render_concat, ← List.append_assoc]
    generalize frameOctets LengthForm.short _ f = octets
    exact congrArg (fun t : Socket => { t with sends := t.sends ++ [octets] }) h.socket

end Shows

/-- The view of a socket as a link, with the errors of a language. -/
def replyView {ε : Type} (masked : Bool) (base : Socket) (throws : ε → Stop → Prop) :
    View ε Stop Socket Link :=
  ⟨Shows masked base, throws⟩

/-- Receiving is taking from the stream. -/
theorem Reader.receive_simulates {ε : Type} {masked : Bool} {base : Socket}
    {throws : ε → Stop → Prop} (r : Reader ε)
    (hend : ∀ code, throws (r.onEnd code) (.fault .endOfStream)) (len : Nat) :
    Simulates (replyView masked base throws) Eq (r.receive len) (onStream (take len)) := by
  intro s l hshows
  have hspec := r.receive_spec len s
  cases hreceive : r.receive len s with
  | ok buf s' =>
      rw [hreceive] at hspec
      obtain ⟨hlen, hunread, hs'⟩ := hspec
      have htake : take len l.stream = .ok buf s'.unread :=
        takeOr_eq_ok_iff.mpr ⟨hlen, hshows.stream.symm.trans hunread⟩
      rw [onStream_of_ok htake]
      exact ⟨rfl, hs' ▸ hshows.read s'.inbox⟩
  | error e s' =>
      rw [hreceive] at hspec
      obtain ⟨rfl, hlt, hempty, hs'⟩ := hspec
      have htake : take len l.stream = .error .endOfStream [] :=
        takeOr_eq_error (by rw [← hshows.stream]; exact hlt)
      rw [onStream_of_error htake]
      refine ⟨hend _, ?_⟩
      have hread := hshows.read s'.inbox
      rw [← hs'] at hread
      rwa [show s'.inbox.unread = [] from hempty] at hread

end Replies

end HelloWebsocket.Ws
