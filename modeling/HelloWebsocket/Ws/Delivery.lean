import HelloWebsocket.Ws.Reading

/-!
# Deliveries of one stream

A transport may cut a stream into chunks as it likes. Programs that receive by
filling a buffer cannot tell two deliveries of one stream apart, and so neither can
any number of their calls.

## Implementation notes

On a connection that stays open a call may wait for ever. It returns when what has
arrived is enough: then its result is the same whatever arrives later, and it leaves
all of that unread.
-/

namespace HelloWebsocket.Ws

open Streams Loops Simulation

/-- Sockets that differ only in how the stream is cut. -/
structure SameStream (c d : Socket) : Prop where
  socket : d = { c with inbox := d.inbox }
  unread : c.unread = d.unread

section Programs

variable {ε α : Type}

theorem respects_receive (r : Reader ε) (len : Nat) : Respects SameStream (r.receive len) := by
  intro c d hcd
  have hc := r.receive_spec len c
  have hd := r.receive_spec len d
  have hending : d.ending = c.ending := by rw [hcd.socket]
  rw [← hcd.unread] at hd
  have hsame {c' d' : Socket} (hc' : c' = { c with inbox := c'.inbox })
      (hd' : d' = { d with inbox := d'.inbox }) (h : c'.unread = d'.unread) : SameStream c' d' := by
    refine ⟨?_, h⟩
    rw [hc', hd', hcd.socket]
  cases hcr : r.receive len c with
  | ok buf c' =>
      rw [hcr] at hc
      obtain ⟨hlen, hunread, hc'⟩ := hc
      cases hdr : r.receive len d with
      | ok buf' d' =>
          rw [hdr] at hd
          obtain ⟨hlen', hunread', hd'⟩ := hd
          obtain ⟨rfl, hrest⟩ :=
            List.append_inj (hunread.symm.trans hunread') (hlen.trans hlen'.symm)
          exact ⟨rfl, hsame hc' hd' hrest⟩
      | error e d' =>
          rw [hdr] at hd
          have hshort := hd.2.1
          rw [hunread, List.length_append] at hshort
          omega
  | error e c' =>
      rw [hcr] at hc
      obtain ⟨rfl, hlt, hempty, hc'⟩ := hc
      cases hdr : r.receive len d with
      | ok buf' d' =>
          rw [hdr] at hd
          obtain ⟨hlen, hunread, -⟩ := hd
          rw [hunread, List.length_append] at hlt
          omega
      | error e' d' =>
          rw [hdr] at hd
          obtain ⟨rfl, -, hempty', hd'⟩ := hd
          exact ⟨congrArg r.onEnd hending.symm, hsame hc' hd' (hempty.trans hempty'.symm)⟩

theorem respects_send (buf : Bytes) :
    Respects SameStream (Socket.send buf : EStateM ε Socket (Except Int32 Nat)) := by
  rintro c d ⟨hsocket, hunread⟩
  generalize d.inbox = inbox at hsocket
  subst hsocket
  exact ⟨rfl, rfl, hunread⟩

theorem respects_newKey : Respects SameStream (Socket.newKey : EStateM ε Socket Key) := by
  intro c d hcd
  have hkey : (Socket.newKey : EStateM ε Socket Key) d = .ok (c.keys c.sends.length) d := by
    rw [hcd.socket]
    rfl
  rw [hkey]
  exact ⟨rfl, hcd⟩

theorem respects_frameBy {recv : Nat → EStateM ε Socket Bytes} {F : Faults ε}
    {refuses : Bool → UInt8 → UInt64 → Prop} [∀ fin opcode len, Decidable (refuses fin opcode len)]
    {noKey : Bytes} {expectMasked : Bool} {make : Bool → UInt8 → Bytes → α}
    (hrecv : ∀ n, Respects SameStream (recv n)) :
    Respects SameStream (frameBy recv F refuses noKey expectMasked make) := by
  have hlength (len : UInt64) : Respects SameStream (lengthBy recv F len) := by
    apply respects_ite
    · exact respects_bind (hrecv 2) fun _ => respects_pure _
    apply respects_ite
    · exact respects_bind (hrecv 8) fun _ => respects_throwIf (respects_pure _)
    · exact respects_pure _
  rw [frameBy]
  apply respects_bind (hrecv 2)
  intro hdr
  apply respects_throwIf
  apply respects_throwIf
  apply respects_bind (hlength _)
  intro len
  apply respects_throwIf
  apply respects_bind (respects_ite (hrecv 4) (respects_pure _))
  intro key
  apply respects_bind (respects_ite (hrecv _) (respects_pure _))
  intro payload
  exact respects_pure _

end Programs

section Calls

variable {β : Type} {call : Socket → β × Socket}

/-- Calls one after another, with their results. -/
def calls (call : Socket → β × Socket) : Nat → Socket → List β × Socket
  | 0, s => ([], s)
  | n + 1, s =>
      let first := call s
      let later := calls call n first.2
      (first.1 :: later.1, later.2)

/-- A call has the same result for all deliveries. -/
def Uniform (call : Socket → β × Socket) : Prop :=
  ∀ c d, SameStream c d → (call c).1 = (call d).1 ∧ SameStream (call c).2 (call d).2

theorem uniform_calls (hcall : Uniform call) (n : Nat) : Uniform (calls call n) := by
  induction n with
  | zero => exact fun c d hcd => ⟨rfl, hcd⟩
  | succ n ih =>
      intro c d hcd
      obtain ⟨hfirst, hnext⟩ := hcall c d hcd
      obtain ⟨hlater, hlast⟩ := ih _ _ hnext
      refine ⟨?_, hlast⟩
      change (call c).1 :: _ = (call d).1 :: _
      rw [hfirst, hlater]

end Calls

section Open

variable {β : Type} {call : Socket → β × Socket}

/-- A delivery that does not end: the chunks that have come by a time. -/
structure Arrivals where
  upTo : Nat → Chunks UInt8
  grows : ∀ t, (upTo t).list <+: (upTo (t + 1)).list

/-- Whatever arrives in one delivery arrives in the other. -/
def Arrivals.Within (x y : Arrivals) : Prop :=
  ∀ t, ∃ t', (x.upTo t).unread <+: (y.upTo t').unread

/-- The socket has received the chunks, and then more or the end of the stream. -/
def Socket.after (s : Socket) (x more : Chunks UInt8) (ending : Option Int32) : Socket :=
  { s with inbox := x.append more, ending := ending }

/-- So many calls return, with these results, when the chunks of a delivery come in. -/
def ReturnsOn (call : Socket → β × Socket) (s : Socket) (x : Arrivals) (results : List β) : Prop :=
  ∃ t rest, ∀ more ending,
    (calls call results.length (s.after (x.upTo t) more ending)).1 = results ∧
    (calls call results.length (s.after (x.upTo t) more ending)).2.unread = rest ++ more.unread

/-- Calls that return do so for every delivery in which as much arrives. -/
theorem ReturnsOn.of_within (hcall : Uniform call) {s : Socket} {x y : Arrivals} {results : List β}
    (hwithin : x.Within y) (h : ReturnsOn call s x results) : ReturnsOn call s y results := by
  obtain ⟨t, rest, hrun⟩ := h
  obtain ⟨t', later, hlater⟩ := hwithin t
  refine ⟨t', rest ++ later, fun more ending => ?_⟩
  have hsame : SameStream (s.after (x.upTo t) ((Chunks.singles later).append more) ending)
      (s.after (y.upTo t') more ending) := by
    refine ⟨rfl, ?_⟩
    change (Chunks.append _ _).unread = (Chunks.append _ _).unread
    rw [Chunks.unread_append, Chunks.unread_append, Chunks.unread_append, Chunks.unread_singles, ← hlater,
      List.append_assoc]
  obtain ⟨hresults, hrest⟩ := hrun ((Chunks.singles later).append more) ending
  obtain ⟨heq, hfinal⟩ := uniform_calls hcall results.length _ _ hsame
  rw [← heq, ← hfinal.unread, hresults, hrest, Chunks.unread_append, Chunks.unread_singles,
    List.append_assoc]
  exact ⟨rfl, rfl⟩

end Open

end HelloWebsocket.Ws
