import HelloWebsocket.Wire.Utf8
import HelloWebsocket.Wire.Parser

/-!
# Readers with a position in an octet string

A reader is an octet string and a position in it. Its moves are a check that
enough octets are left, a look at the next octets and a step over them. Each read
that checks before it moves refines the parser that takes as many octets.

## Implementation notes

Positions and lengths are natural numbers. A language whose numbers are bounded
meets this when its longest string leaves room for the lengths it adds to a
position.
-/

namespace HelloWebsocket.Positions

open Utf8 Parsing

structure Reader where
  data : Bytes
  pos : Nat
  deriving DecidableEq, Repr

variable {ε α σ : Type}

/-- How many octets are not yet read. -/
def Reader.remaining (r : Reader) : Nat := r.data.length - r.pos

def remaining : EStateM ε Reader Nat := do
  let r ← get
  pure r.remaining

/-- The check that `n` octets are left, with the error it throws otherwise. -/
def ensure (n : Nat) (short : Reader → ε) : EStateM ε Reader Unit := do
  let r ← get
  throwIf (n > r.remaining) (short r)

/-- The next `n` octets. -/
def slice (n : Nat) : EStateM ε Reader Bytes := do
  let r ← get
  pure ((r.data.drop r.pos).take n)

def advance (n : Nat) : EStateM ε Reader Unit := modify fun r => { r with pos := r.pos + n }

/-- A checked read of `n` octets. -/
def next (n : Nat) (short : Reader → ε) : EStateM ε Reader Bytes := do
  ensure n short
  let b ← slice n
  advance n
  pure b

/-- The next `n` octets are decoded before the reader moves on. -/
def decodeNext (decode : Bytes → Option σ) (n : Nat) (malformed : Reader → ε) :
    EStateM ε Reader σ := do
  let b ← slice n
  match decode b with
  | some s =>
      advance n
      pure s
  | none =>
      let r ← get
      throw (malformed r)

/-- A checked read of a text of `n` octets. -/
def nextText (decode : Bytes → Option σ) (n : Nat) (short malformed : Reader → ε) :
    EStateM ε Reader σ := do
  ensure n short
  decodeNext decode n malformed

/-- The reader stands after a front part of the data it was made for; `bad` holds of what it
throws. -/
def cursor (data : Bytes) (bad : ε → Prop) : Cursor ε Reader UInt8 where
  stands r input := r.data = data ∧ ∃ front, data = front ++ input ∧ r.pos = front.length
  failed e _ := bad e

variable {data : Bytes} {bad : ε → Prop} {r : Reader} {input : Bytes}

theorem stands_append (front input : Bytes) :
    (cursor (front ++ input) bad).stands ⟨front ++ input, front.length⟩ input :=
  ⟨rfl, front, rfl, rfl⟩

theorem stands_zero (data : Bytes) : (cursor data bad).stands ⟨data, 0⟩ data :=
  stands_append [] data

/-- The octets that are left determine the reader. -/
theorem eq_of_stands {front : Bytes} (hr : (cursor (front ++ input) bad).stands r input) :
    r = ⟨front ++ input, front.length⟩ := by
  obtain ⟨hdata, front', happend, hpos⟩ := hr
  rw [← hdata, List.append_cancel_right happend, ← hpos]

theorem remaining_of_stands (hr : (cursor data bad).stands r input) :
    r.remaining = input.length := by
  obtain ⟨hdata, front, happend, hpos⟩ := hr
  rw [Reader.remaining, hdata, happend, hpos, List.length_append]
  omega

theorem stands_advance (xs : Bytes) {ys : Bytes} (hr : (cursor data bad).stands r (xs ++ ys)) :
    (cursor data bad).stands { r with pos := r.pos + xs.length } ys := by
  obtain ⟨hdata, front, happend, hpos⟩ := hr
  refine ⟨hdata, front ++ xs, ?_, ?_⟩
  · rw [happend, List.append_assoc]
  · rw [hpos, List.length_append]

/-- The parser may rely on the octets that the check has found. -/
theorem refinesAt_ensure {β : Type} {R : α → β → Prop} {p : Parser UInt8 β} {n : Nat}
    {short : Reader → ε} {f : Unit → EStateM ε Reader α} (hshort : ∀ r, r.data = data → bad (short r))
    (hr : (cursor data bad).stands r input) (hnone : input.length < n → p input = none)
    (hf : n ≤ input.length → RefinesAt (cursor data bad) R (f ()) p r input) :
    RefinesAt (cursor data bad) R (ensure n short >>= f) p r input := by
  have hleft := remaining_of_stands hr
  rw [ensure, bind_assoc]
  refine refinesAt_step (a := r) rfl (refinesAt_throwIf (fun h => ?_) (fun h => ?_))
  · exact ⟨hnone (by omega), hshort r hr.1⟩
  · exact hf (by omega)

theorem slice_eq {xs ys : Bytes} (hr : (cursor data bad).stands r (xs ++ ys)) :
    (slice xs.length : EStateM ε Reader Bytes) r = .ok xs r := by
  obtain ⟨hdata, front, happend, hpos⟩ := hr
  change EStateM.Result.ok ((r.data.drop r.pos).take xs.length) r = _
  rw [hdata, happend, hpos, List.drop_left, List.take_left]

theorem refines_next (n : Nat) {short : Reader → ε} (hshort : ∀ r, r.data = data → bad (short r)) :
    Refines (cursor data bad) (fun b b' => b = b') (next n short) (takeN n) := by
  intro r input hr
  refine refinesAt_ensure hshort hr takeN_eq_none fun hle => ?_
  obtain ⟨xs, ys, rfl, rfl⟩ := exists_append_of_le input hle
  refine refinesAt_step (slice_eq hr) ?_
  refine refinesAt_step (a := ()) rfl ?_
  exact (refinesAt_some (takeN_append xs ys)).mpr ⟨xs, _, rfl, rfl, stands_advance xs hr⟩

/-- A decoder that takes exactly the well-formed strings reads what the grammar calls a text. -/
theorem refines_nextText {R : σ → Bytes → Prop} (decode : Bytes → Option σ) (n : Nat)
    (short malformed : Reader → ε) (hshort : ∀ r, r.data = data → bad (short r))
    (hbad : ∀ r, bad (malformed r))
    (hsome : ∀ b, WellFormed b → ∃ s, decode b = some s ∧ R s b)
    (hnone : ∀ b, ¬ WellFormed b → decode b = none) :
    Refines (cursor data bad) R (nextText decode n short malformed) (satisfying (takeN n) WellFormed) := by
  intro r input hr
  refine refinesAt_ensure hshort hr (satisfying_takeN_eq_none _) fun hle => ?_
  obtain ⟨xs, ys, rfl, rfl⟩ := exists_append_of_le input hle
  refine refinesAt_step (slice_eq hr) ?_
  have hp := satisfying_takeN_append WellFormed xs ys
  by_cases hwf : WellFormed xs
  · obtain ⟨s, hs, hR⟩ := hsome xs hwf
    rw [if_pos hwf] at hp
    exact (refinesAt_some hp).mpr ⟨s, _, by rw [hs]; rfl, hR, stands_advance xs hr⟩
  · rw [if_neg hwf] at hp
    exact (refinesAt_none hp).mpr ⟨_, r, by rw [hnone xs hwf]; rfl, hbad r⟩

/-- The unread octets of a run that succeeds. -/
theorem ok_of_refines {β : Type} {R : α → β → Prop} {m : EStateM ε Reader α} {p : Parser UInt8 β}
    (h : Refines (cursor data bad) R m p) (hr : (cursor data bad).stands r input) {a : α} {r' : Reader}
    (hm : m r = .ok a r') :
    ∃ b rest, p input = some (b, rest) ∧ R a b ∧ (cursor data bad).stands r' rest := by
  have hat := h r input hr
  cases hp : p input with
  | none =>
      obtain ⟨e, s, he, -⟩ := (refinesAt_none hp).mp hat
      rw [hm] at he
      cases he
  | some out =>
      obtain ⟨a', s, ha, hR, hs⟩ := (refinesAt_some hp).mp hat
      rw [hm] at ha
      cases ha
      exact ⟨out.1, out.2, rfl, hR, hs⟩

end HelloWebsocket.Positions
