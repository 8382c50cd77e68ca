import HelloWebsocket.Wire.Loop
import HelloWebsocket.Ws.Frame

/-!
# WebSocket messages

The reading of one binary message from a connection: frames are read until the
message is complete, control frames may stand between its fragments, and each ping
is answered on the way. The frames that make up a message are described twice, by a
transition for every frame and by their order, and the reader returns a message
exactly when the stream begins with such frames.

## Implementation notes

Whether a reply can be sent is an oracle of the connection, indexed by the number
of replies before it. The replies are recorded when they are tried.
-/

namespace HelloWebsocket.Ws

open Parsing Streams Loops

section Connection

/-- Why the reading of a message ends without one. -/
inductive Stop
  | fault (reason : Fault)
  | replyFailed
  | closed (payload : Bytes)
  deriving DecidableEq, Repr

/-- A connection as the reader of a message sees it. -/
structure Link where
  stream : Bytes
  accepts : Nat → Bool
  replies : List Frame

abbrev LinkM := EStateM Stop Link

variable {α β : Type}

/-- A program over the stream, run on the connection. -/
def onStream (m : StreamM α) : LinkM α := fun l =>
  match m l.stream with
  | .ok a rest => .ok a { l with stream := rest }
  | .error e rest => .error (.fault e) { l with stream := rest }

def reply (f : Frame) : LinkM Bool := fun l =>
  .ok (l.accepts l.replies.length) { l with replies := l.replies ++ [f] }

theorem onStream_eq_ok {m : StreamM α} {l l' : Link} {a : α} (h : onStream m l = .ok a l') :
    m l.stream = .ok a l'.stream ∧ l'.accepts = l.accepts ∧ l'.replies = l.replies := by
  rw [onStream] at h
  split at h
  · next hm =>
      cases h
      exact ⟨hm, rfl, rfl⟩
  · cases h

theorem onStream_eq_error {m : StreamM α} {l l' : Link} {e : Stop}
    (h : onStream m l = .error e l') :
    ∃ reason, e = .fault reason ∧ l'.replies = l.replies := by
  rw [onStream] at h
  split at h
  · cases h
  · cases h
    exact ⟨_, rfl, rfl⟩

theorem onStream_of_ok {m : StreamM α} {l : Link} {a : α} {rest : Bytes}
    (h : m l.stream = .ok a rest) : onStream m l = .ok a { l with stream := rest } := by
  rw [onStream, h]

theorem onStream_of_error {m : StreamM α} {l : Link} {e : Fault} {rest : Bytes}
    (h : m l.stream = .error e rest) : onStream m l = .error (.fault e) { l with stream := rest } := by
  rw [onStream, h]

theorem onStream_bind (m : StreamM α) (f : α → StreamM β) :
    onStream (m >>= f) = onStream m >>= fun a => onStream (f a) := by
  funext l
  change _ = EStateM.bind (onStream m) (fun a => onStream (f a)) l
  rw [EStateM.bind]
  cases h : m l.stream with
  | ok a rest =>
      rw [onStream_of_ok h, onStream, bind_of_ok h]
      rfl
  | error e rest =>
      rw [onStream_of_error h, onStream_of_error (bind_of_error h)]

theorem onStream_throwIf {c : Prop} [Decidable c] (e : Fault) :
    onStream (throwIf c e) = throwIf c (.fault e) := by
  rw [throwIf, throwIf]
  split <;> rfl

end Connection

section Assembly

/-- The data of a message so far, and nothing before its first frame. -/
abbrev Assembly := Option Bytes

namespace Assembly

/-- The number of octets of the message that have been read. -/
def held (a : Assembly) : Nat := (a.getD []).length

/-- What a data frame makes of the message: more of it or all of it. -/
def place (f : Frame) : Assembly → Option (Assembly ⊕ Bytes)
  | none =>
      if f.opcode = 2 then some (if f.fin then .inr f.payload else .inl (some f.payload)) else none
  | some p =>
      if f.opcode = 0 then
        some (if f.fin then .inr (p ++ f.payload) else .inl (some (p ++ f.payload)))
      else none

theorem opcode_of_place {a : Assembly} {f : Frame} {x : Assembly ⊕ Bytes}
    (h : a.place f = some x) : f.opcode = 2 ∨ f.opcode = 0 := by
  cases a with
  | none =>
      rw [place] at h
      split at h
      · next hop => exact .inl hop
      · cases h
  | some p =>
      rw [place] at h
      split at h
      · next hop => exact .inr hop
      · cases h

/-- What a frame makes of the message; pings and pongs leave it alone. -/
def next (a : Assembly) (f : Frame) : Option (Assembly ⊕ Bytes) :=
  if f.opcode = 9 ∨ f.opcode = 10 then some (.inl a) else a.place f

/-- The frame may be read at this point of the message. -/
abbrev Admits (a : Assembly) (f : Frame) : Prop :=
  Admissible a.held f.fin f.opcode f.payload.length

end Assembly

/-- The answer to a ping. -/
def pong (f : Frame) : Frame := ⟨true, 10, f.payload⟩

/-- The answer to a close frame. -/
def closing (f : Frame) : Frame := ⟨true, 8, f.payload⟩

/-- The answers to the pings among some frames. -/
def pongs (fs : List Frame) : List Frame := (fs.filter fun f => f.opcode = 9).map pong

@[simp] theorem pongs_nil : pongs [] = [] := rfl

@[simp] theorem pongs_append (fs gs : List Frame) : pongs (fs ++ gs) = pongs fs ++ pongs gs := by
  rw [pongs, List.filter_append, List.map_append]
  rfl

theorem opcode_of_mem_pongs {f : Frame} {fs : List Frame} (h : f ∈ pongs fs) : f.opcode = 10 := by
  obtain ⟨g, -, rfl⟩ := List.mem_map.mp h
  rfl

/-- What the reader does with a frame. -/
def handle (a : Assembly) (f : Frame) : LinkM (Assembly ⊕ Bytes) :=
  if f.opcode = 8 then do
    let _ ← reply (closing f)
    throw (.closed f.payload)
  else if f.opcode = 9 then do
    let sent ← reply (pong f)
    throwIf (sent = false) .replyFailed
    pure (.inl a)
  else if f.opcode = 10 then pure (.inl a)
  else match a.place f with
    | some next => pure next
    | none => throw (.fault .violation)

/-- A frame that the message goes on with is answered if it is a ping. -/
theorem handle_eq_ok {a : Assembly} {f : Frame} {l l' : Link} {x : Assembly ⊕ Bytes}
    (h : handle a f l = .ok x l') :
    a.next f = some x ∧ l' = { l with replies := l.replies ++ pongs [f] } := by
  rw [handle] at h
  split at h
  · cases h
  split at h
  · next hping =>
      obtain ⟨sent, l₁, hreply, hrest⟩ := bind_eq_ok_iff.mp h
      obtain ⟨-, hpure⟩ := throwIf_bind_eq_ok_iff.mp hrest
      cases hreply
      cases hpure
      exact ⟨by rw [Assembly.next, if_pos (.inl hping)], by simp [pongs, hping]⟩
  split at h
  · next hping hpong =>
      cases h
      exact ⟨by rw [Assembly.next, if_pos (.inr hpong)], by simp [pongs, hping]⟩
  next hping hpong =>
  cases hplace : a.place f with
  | none =>
      rw [hplace] at h
      cases h
  | some y =>
      rw [hplace] at h
      cases h
      exact ⟨by rw [Assembly.next, if_neg (not_or.mpr ⟨hping, hpong⟩), hplace],
        by simp [pongs, hping]⟩

/-- A frame that ends the reading leaves the close answer behind only if it is a close frame. -/
theorem handle_eq_error {a : Assembly} {f : Frame} {l l' : Link} {e : Stop}
    (h : handle a f l = .error e l') :
    (e = .closed f.payload ∧ l'.replies = l.replies ++ [closing f]) ∨
      ((∀ p, e ≠ .closed p) ∧ ∃ gs, l'.replies = l.replies ++ pongs gs) := by
  rw [handle] at h
  split at h
  · cases h
    exact .inl ⟨rfl, rfl⟩
  right
  split at h
  · next hping =>
      have hreply : reply (pong f) l =
          .ok (l.accepts l.replies.length) { l with replies := l.replies ++ [pong f] } := rfl
      rw [bind_of_ok hreply, throwIf_bind_apply] at h
      split at h
      · cases h
        exact ⟨fun p hp => (by cases hp), [f], by simp [pongs, hping]⟩
      · cases h
  split at h
  · cases h
  cases hplace : a.place f with
  | none =>
      rw [hplace] at h
      cases h
      exact ⟨fun p hp => (by cases hp), [], by simp⟩
  | some y =>
      rw [hplace] at h
      cases h

theorem handle_of_next {a : Assembly} {f : Frame} {l : Link} {x : Assembly ⊕ Bytes}
    (h : a.next f = some x) (haccepts : l.accepts l.replies.length = true) :
    handle a f l = .ok x { l with replies := l.replies ++ pongs [f] } := by
  rw [Assembly.next] at h
  split at h
  · next hcontrol =>
      cases h
      rcases hcontrol with hping | hpong
      · rw [handle, if_neg (by rw [hping]; decide), if_pos hping]
        refine (bind_of_ok rfl).trans ?_
        rw [throwIf_bind_apply, haccepts, if_neg (by decide)]
        simp [pongs, hping]
        rfl
      · rw [handle, if_neg (by rw [hpong]; decide), if_neg (by rw [hpong]; decide), if_pos hpong]
        simp [pongs, hpong]
        rfl
  · next hcontrol =>
      obtain ⟨hping, hpong⟩ := not_or.mp hcontrol
      have hclose : f.opcode ≠ 8 := by
        rcases Assembly.opcode_of_place h with hop | hop <;> (rw [hop]; decide)
      rw [handle, if_neg hclose, if_neg hping, if_neg hpong, h]
      simp [pongs, hping]
      rfl

end Assembly

section Runs

/-- The octets are the frames one after another. -/
def EncodesAll (masked : Bool) : List Frame → Bytes → Prop
  | [], b => b = []
  | f :: fs, b => ∃ b₁ b₂, Encodes masked f b₁ ∧ EncodesAll masked fs b₂ ∧ b = b₁ ++ b₂

theorem encodesAll_append {masked : Bool} {fs gs : List Frame} {b c : Bytes}
    (hf : EncodesAll masked fs b) (hg : EncodesAll masked gs c) :
    EncodesAll masked (fs ++ gs) (b ++ c) := by
  induction fs generalizing b with
  | nil =>
      cases hf
      exact hg
  | cons f fs ih =>
      obtain ⟨b₁, b₂, hf₁, hf₂, rfl⟩ := hf
      exact ⟨b₁, b₂ ++ c, hf₁, ih hf₂, List.append_assoc b₁ b₂ c⟩

theorem encodesAll_singleton {masked : Bool} {f : Frame} {b : Bytes} (h : Encodes masked f b) :
    EncodesAll masked [f] b :=
  ⟨b, [], h, rfl, (List.append_nil b).symm⟩

/-- What a sequence of frames makes of the message, each of them admissible in its place. -/
inductive Advances : Assembly → List Frame → Assembly ⊕ Bytes → Prop
  | nil {a} : Advances a [] (.inl a)
  | last {a f p} : a.Admits f → a.next f = some (.inr p) → Advances a [f] (.inr p)
  | cons {a a' f fs x} : a.Admits f → a.next f = some (.inl a') → Advances a' fs x →
      Advances a (f :: fs) x

namespace Advances

variable {a a' : Assembly} {f : Frame} {fs gs : List Frame} {x : Assembly ⊕ Bytes}

theorem append (hf : Advances a fs (.inl a')) (hg : Advances a' gs x) :
    Advances a (fs ++ gs) x := by
  generalize hy : (Sum.inl a' : Assembly ⊕ Bytes) = y at hf
  induction hf with
  | nil =>
      cases hy
      exact hg
  | last _ _ => cases hy
  | cons hok hnext _ ih => exact .cons hok hnext (ih hy)

/-- Frames that end a message end it at the last of them. -/
theorem split (h : Advances a (fs ++ gs) x) (hg : gs ≠ []) :
    ∃ a', Advances a fs (.inl a') ∧ Advances a' gs x := by
  induction fs generalizing a with
  | nil => exact ⟨a, .nil, h⟩
  | cons f fs ih =>
      generalize hy : f :: fs ++ gs = ys at h
      cases h with
      | nil => cases hy
      | last hok hnext =>
          rw [List.cons_append] at hy
          obtain ⟨-, hnil⟩ := List.cons.inj hy
          exact absurd (List.append_eq_nil_iff.mp hnil).2 hg
      | cons hok hnext hrest =>
          rw [List.cons_append] at hy
          obtain ⟨rfl, rfl⟩ := List.cons.inj hy
          obtain ⟨a', hf, hg'⟩ := ih hrest
          exact ⟨a', .cons hok hnext hf, hg'⟩

theorem single (hok : a.Admits f) (hnext : a.next f = some x) : Advances a [f] x := by
  cases x with
  | inl a' => exact .cons hok hnext .nil
  | inr p => exact .last hok hnext

end Advances

theorem length_pos_of_encodes {masked : Bool} {f : Frame} {b : Bytes} (h : Encodes masked f b) :
    0 < b.length := by
  obtain ⟨form, key, -, -, rfl⟩ := h
  exact Nat.succ_pos _

/-- One turn of the reader. -/
def turn (masked : Bool) (a : Assembly) : LinkM (Assembly ⊕ Bytes) := do
  let f ← onStream (readFrame masked a.held)
  handle a f

theorem turn_eq_ok {masked : Bool} {a : Assembly} {x : Assembly ⊕ Bytes} {l l' : Link}
    (h : turn masked a l = .ok x l') :
    ∃ f b, Encodes masked f b ∧ a.Admits f ∧ a.next f = some x ∧
      l = { l with stream := b ++ l'.stream } ∧
      l' = { l with stream := l'.stream, replies := l.replies ++ pongs [f] } := by
  obtain ⟨f, l₁, hread, hhandle⟩ := bind_eq_ok_iff.mp h
  obtain ⟨hframe, haccepts, hreplies⟩ := onStream_eq_ok hread
  obtain ⟨hok, b, hb, hstream⟩ := readFrame_sound hframe
  obtain ⟨hnext, rfl⟩ := handle_eq_ok hhandle
  refine ⟨f, b, hb, hok, hnext, ?_, ?_⟩
  · rw [← hstream]
  · rw [haccepts, hreplies]

/-- The loop of the reader, whose variable is the message so far. -/
def reading (masked : Bool) : Body Stop Link Assembly Bytes where
  measure _ l := l.stream.length
  run := turn masked
  shrinks := by
    intro a l a' l' h
    obtain ⟨f, b, hb, -, -, hl, -⟩ := turn_eq_ok h
    rw [hl, List.length_append]
    have hpos := length_pos_of_encodes hb
    omega

/-- The reader of one message. -/
def readMessage (masked : Bool) : LinkM Bytes := iterate (reading masked) none

section Completeness

variable {masked : Bool} {a : Assembly} {f : Frame} {fs : List Frame} {b rest : Bytes} {l : Link}
  {x : Assembly ⊕ Bytes}

theorem turn_of_encodes (hb : Encodes masked f b) (hok : a.Admits f) (hstream : l.stream = b ++ rest) :
    turn masked a l = handle a f { l with stream := rest } := by
  have hread := readFrame_of_encodes hb a.held rest
  rw [if_pos hok, ← hstream] at hread
  exact bind_of_ok (onStream_of_ok hread)

/-- A frame that is not admissible in its place ends the reading. -/
theorem turn_of_not_admits (hb : Encodes masked f b) (hbad : ¬ a.Admits f)
    (hstream : l.stream = b ++ rest) : ∃ l', turn masked a l = .error (.fault .violation) l' := by
  have hread := readFrame_of_encodes hb a.held rest
  rw [if_neg hbad, ← hstream] at hread
  obtain ⟨left, hread⟩ := hread
  exact ⟨{ l with stream := left }, bind_of_error (onStream_of_error hread)⟩

/-- The rest of the reading: none once the message is complete. -/
def finish (masked : Bool) : Assembly ⊕ Bytes → LinkM Bytes
  | .inl a => iterate (reading masked) a
  | .inr p => pure p

theorem iterate_of_turn {l' : Link} (h : turn masked a l = .ok x l') :
    iterate (reading masked) a l = finish masked x l' := by
  cases x with
  | inl a' => exact iterate_of_continue (B := reading masked) h
  | inr p => exact iterate_of_done (B := reading masked) h

/-- The reader gets past frames that the message goes on with. -/
theorem iterate_of_advances (h : Advances a fs x) (hb : EncodesAll masked fs b)
    (hstream : l.stream = b ++ rest) (haccepts : ∀ n, l.accepts n = true) :
    iterate (reading masked) a l =
      finish masked x { l with stream := rest, replies := l.replies ++ pongs fs } := by
  induction h generalizing b l with
  | nil =>
      cases hb
      cases l
      cases hstream
      simp [finish]
  | last hok hnext =>
      obtain ⟨b₁, _, hb₁, rfl, rfl⟩ := hb
      rw [List.append_nil] at hstream
      have hturn := (turn_of_encodes hb₁ hok hstream).trans (handle_of_next hnext (haccepts _))
      exact iterate_of_turn hturn
  | @cons a a' f fs x hok hnext _ ih =>
      obtain ⟨b₁, b₂, hb₁, hb₂, rfl⟩ := hb
      rw [List.append_assoc] at hstream
      have hturn := (turn_of_encodes hb₁ hok hstream).trans (handle_of_next hnext (haccepts _))
      rw [iterate_of_turn hturn]
      refine (ih (l := { l with
        stream := b₂ ++ rest
        replies := l.replies ++ pongs [f] }) hb₂ rfl haccepts).trans ?_
      rw [List.append_assoc, ← pongs_append, List.singleton_append]

end Completeness

section SingleFrames

variable {masked : Bool} {f : Frame} {b rest : Bytes} {l : Link}

/-- A message in one frame is read without any reply. -/
theorem readMessage_of_single (hb : Encodes masked f b) (hfin : f.fin = true) (hop : f.opcode = 2)
    (hsize : f.payload.length ≤ limit) (hstream : l.stream = b ++ rest) :
    readMessage masked l = .ok f.payload { l with stream := rest } := by
  have hok : Assembly.Admits none f :=
    ⟨fun h8 => absurd h8 (by rw [hop]; decide), by rw [Assembly.held]; simpa using hsize⟩
  have hhandle : handle none f { l with stream := rest } =
      .ok (.inr f.payload) { l with stream := rest } := by
    have hplace : Assembly.place f none = some (.inr f.payload) := by
      rw [Assembly.place, if_pos hop, hfin]
      rfl
    rw [handle, if_neg (by rw [hop]; decide), if_neg (by rw [hop]; decide),
      if_neg (by rw [hop]; decide), hplace]
    rfl
  exact iterate_of_turn ((turn_of_encodes hb hok hstream).trans hhandle)

/-- A frame masked the other way is refused. -/
theorem readMessage_of_wrong_mask (hb : Encodes masked f b) (hstream : l.stream = b ++ rest) :
    ∃ l', readMessage (!masked) l = .error (.fault .violation) l' := by
  obtain ⟨form, key, hfits, rfl, rfl⟩ := hb
  obtain ⟨left, hread⟩ := readFrame_wrong_mask key hfits 0 rest
  rw [← hstream] at hread
  have hturn : turn (!key.isSome) none l = .error (.fault .violation) { l with stream := left } :=
    bind_of_error (onStream_of_error hread)
  exact ⟨_, iterate_of_error (B := reading (!key.isSome)) hturn⟩

end SingleFrames

section Soundness

variable {masked : Bool} {p : Bytes} {l l' : Link}

/-- Every message returned is made of the frames that were read for it. -/
theorem iterate_sound {a : Assembly} (h : iterate (reading masked) a l = .ok p l') :
    ∃ fs b, Advances a fs (.inr p) ∧ EncodesAll masked fs b ∧ l.stream = b ++ l'.stream ∧
      l' = { l with stream := l'.stream, replies := l.replies ++ pongs fs } := by
  -- the invariant is the same statement about the frames so far
  let Reached (x : Assembly ⊕ Bytes) (t : Link) : Prop :=
    ∃ fs b, Advances a fs x ∧ EncodesAll masked fs b ∧ l.stream = b ++ t.stream ∧
      t = { l with stream := t.stream, replies := l.replies ++ pongs fs }
  have hrun := iterate_invariant (B := reading masked) (P := fun y t => Reached (.inl y) t)
    (Q := fun r => ∀ p l', r = .ok p l' → Reached (.inr p) l') ?_ a l
    ⟨[], [], .nil, rfl, rfl, by simp⟩
  · exact hrun p l' h
  rintro y t ⟨fs, b, hfs, hb, hstream, ht⟩
  have hextend : ∀ x t', turn masked y t = .ok x t' → Reached x t' := by
    intro x t' hturn
    obtain ⟨f, c, hc, hok, hnext, ht₁, ht₂⟩ := turn_eq_ok hturn
    refine ⟨fs ++ [f], b ++ c, hfs.append (.single hok hnext),
      encodesAll_append hb (encodesAll_singleton hc), ?_, ?_⟩
    · rw [hstream, ht₁, List.append_assoc]
    · rw [ht₂, ht, pongs_append, List.append_assoc]
  change Turn _ _ (turn masked y t)
  cases hturn : turn masked y t with
  | error e t' =>
      intro p l' hp
      cases hp
  | ok x t' =>
      cases x with
      | inl y' => exact hextend _ _ hturn
      | inr q =>
          intro p l' hp
          cases hp
          exact hextend _ _ hturn

/-- The reader returns a message exactly when the stream begins with frames that make it up. -/
theorem readMessage_eq_ok_iff (haccepts : ∀ n, l.accepts n = true) :
    readMessage masked l = .ok p l' ↔
      ∃ fs b, Advances none fs (.inr p) ∧ EncodesAll masked fs b ∧ l.stream = b ++ l'.stream ∧
        l' = { l with stream := l'.stream, replies := l.replies ++ pongs fs } := by
  constructor
  · exact iterate_sound
  · rintro ⟨fs, b, hfs, hb, hstream, hl'⟩
    refine (iterate_of_advances hfs hb hstream haccepts).trans ?_
    rw [hl']
    rfl

/-- The answers behind a result: pongs, and a close frame after them if one was received. -/
def Answered (l : Link) : EStateM.Result Stop Link Bytes → Prop
  | .ok _ l' => ∃ fs, l'.replies = l.replies ++ pongs fs
  | .error (.closed p) l' => ∃ fs, l'.replies = l.replies ++ pongs fs ++ [⟨true, 8, p⟩]
  | .error _ l' => ∃ fs, l'.replies = l.replies ++ pongs fs

theorem answered_error {e : Stop} (he : ∀ p, e ≠ .closed p)
    (h : ∃ fs, l'.replies = l.replies ++ pongs fs) : Answered l (.error e l') := by
  cases e with
  | closed p => exact absurd rfl (he p)
  | fault reason => exact h
  | replyFailed => exact h

theorem readMessage_answered (masked : Bool) (l : Link) : Answered l (readMessage masked l) := by
  refine iterate_invariant (B := reading masked)
    (P := fun _ t => ∃ fs, t.replies = l.replies ++ pongs fs) ?_ none l ⟨[], by simp⟩
  rintro a t ⟨fs, ht⟩
  change Turn _ _ (turn masked a t)
  cases hturn : turn masked a t with
  | ok x t' =>
      obtain ⟨f, -, -, -, -, -, ht'⟩ := turn_eq_ok hturn
      have hreplies : t'.replies = l.replies ++ pongs (fs ++ [f]) := by
        rw [ht', ht, pongs_append, List.append_assoc]
      cases x with
      | inl a' => exact ⟨_, hreplies⟩
      | inr p => exact ⟨_, hreplies⟩
  | error e t' =>
      rcases bind_eq_error_iff.mp hturn with hread | ⟨f, t₁, hread, hhandle⟩
      · obtain ⟨reason, rfl, hreplies⟩ := onStream_eq_error hread
        exact ⟨fs, hreplies.trans ht⟩
      · obtain ⟨-, -, hreplies⟩ := onStream_eq_ok hread
        rcases handle_eq_error hhandle with ⟨rfl, hclose⟩ | ⟨hne, gs, hpongs⟩
        · exact ⟨fs, by rw [hclose, hreplies, ht]; rfl⟩
        · exact answered_error hne
            ⟨fs ++ gs, by rw [hpongs, hreplies, ht, pongs_append, List.append_assoc]⟩

end Soundness

end Runs

end HelloWebsocket.Ws
