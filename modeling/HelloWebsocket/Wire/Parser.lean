import HelloWebsocket.Wire.BigEndian

/-!
# Exact parsers and stateful readers that refine them

A parser consumes a front part of a token list. It is exact for a grammar when
it returns a value precisely on the inputs that start with a string the
grammar assigns to that value. Exactness composes along sequencing, filtering
and counted repetition.

A stateful reader refines a parser when, standing before some input, it
returns related values on the inputs the parser accepts and fails on the
others. Refinement composes along the same constructions, so a decoder written
against a position counter is compared with the grammar one primitive at a time.

## Implementation notes

The failure clause of a cursor keeps the state at the failure. Readers that
throw after moving their position are therefore described on both exits.
-/

namespace HelloWebsocket.Parsing

variable {τ α β γ ε σ : Type}

/-- A parser returns a value and the unread tokens, or nothing. -/
abbrev Parser (τ α : Type) := StateT (List τ) Option α

/-- The parser returns `a` exactly on the inputs starting with a string of `a`. -/
def Exact (p : Parser τ α) (G : α → List τ → Prop) : Prop :=
  ∀ input a rest, p input = some (a, rest) ↔ ∃ bs, G a bs ∧ input = bs ++ rest

theorem Exact.mono {p : Parser τ α} {G H : α → List τ → Prop} (hp : Exact p G)
    (hGH : ∀ a bs, G a bs ↔ H a bs) : Exact p H := by
  intro input a rest
  simp only [hp input a rest, hGH]

theorem bind_apply (p : Parser τ α) (f : α → Parser τ β) (input : List τ) :
    (p >>= f) input = (p input).bind fun r => f r.1 r.2 := rfl

theorem pure_apply (a : α) (input : List τ) :
    (pure a : Parser τ α) input = some (a, input) := rfl

theorem exact_pure (a₀ : α) : Exact (pure a₀ : Parser τ α) (fun a bs => a = a₀ ∧ bs = []) := by
  intro input a rest
  rw [pure_apply]
  constructor
  · intro h
    cases h
    exact ⟨[], ⟨rfl, rfl⟩, rfl⟩
  · rintro ⟨bs, ⟨rfl, rfl⟩, rfl⟩
    rfl

/-- The grammar of a sequence concatenates the two strings. -/
theorem exact_bind {p : Parser τ α} {f : α → Parser τ β} {G : α → List τ → Prop}
    {H : α → β → List τ → Prop} (hp : Exact p G) (hf : ∀ a, Exact (f a) (H a)) :
    Exact (p >>= f) (fun b bs => ∃ a xs ys, G a xs ∧ H a b ys ∧ bs = xs ++ ys) := by
  intro input b rest
  rw [bind_apply, Option.bind_eq_some_iff]
  constructor
  · rintro ⟨⟨a, mid⟩, hpa, hfb⟩
    obtain ⟨xs, hx, rfl⟩ := (hp _ _ _).mp hpa
    obtain ⟨ys, hy, rfl⟩ := (hf a _ _ _).mp hfb
    exact ⟨xs ++ ys, ⟨a, xs, ys, hx, hy, rfl⟩, by simp⟩
  · rintro ⟨bs, ⟨a, xs, ys, hx, hy, rfl⟩, rfl⟩
    refine ⟨(a, ys ++ rest), (hp _ _ _).mpr ⟨xs, hx, by simp⟩, ?_⟩
    exact (hf a _ _ _).mpr ⟨ys, hy, rfl⟩

theorem exact_failure : Exact (failure : Parser τ α) (fun _ _ => False) := by
  intro input a rest
  constructor
  · intro h
    cases h
  · rintro ⟨_, h, _⟩
    exact h.elim

/-- Exactly `n` tokens. -/
def takeN (n : Nat) : Parser τ (List τ) := fun input =>
  if n ≤ input.length then some (input.take n, input.drop n) else none

theorem takeN_append (xs ys : List τ) : takeN xs.length (xs ++ ys) = some (xs, ys) := by
  simp [takeN]

/-- Enough tokens for a read of fixed size. -/
theorem exists_append_of_le {n : Nat} (input : List τ) (h : n ≤ input.length) :
    ∃ xs ys, xs.length = n ∧ input = xs ++ ys := by
  refine ⟨input.take n, input.drop n, ?_, (List.take_append_drop n input).symm⟩
  rw [List.length_take]
  omega

theorem takeN_eq_none {n : Nat} {input : List τ} (h : input.length < n) : takeN n input = none := by
  rw [takeN, if_neg (by omega)]

theorem exact_takeN (n : Nat) :
    Exact (takeN n : Parser τ (List τ)) (fun a bs => bs = a ∧ a.length = n) := by
  intro input a rest
  unfold takeN
  constructor
  · intro h
    split at h
    · next hn =>
        cases h
        exact ⟨_, ⟨rfl, by simpa using hn⟩, (List.take_append_drop n input).symm⟩
    · cases h
  · rintro ⟨bs, ⟨rfl, rfl⟩, rfl⟩
    simp

/-- Keep only the values that satisfy a decidable condition. -/
def satisfying (p : Parser τ α) (ok : α → Prop) [DecidablePred ok] : Parser τ α := do
  let a ← p
  if ok a then pure a else failure

theorem satisfying_takeN_append (ok : List τ → Prop) [DecidablePred ok] (xs ys : List τ) :
    satisfying (takeN xs.length) ok (xs ++ ys) = if ok xs then some (xs, ys) else none := by
  rw [satisfying, bind_apply, takeN_append, Option.bind_some]
  by_cases h : ok xs
  · rw [if_pos h, if_pos h, pure_apply]
  · rw [if_neg h, if_neg h]
    rfl

theorem satisfying_takeN_eq_none (ok : List τ → Prop) [DecidablePred ok] {n : Nat}
    {input : List τ} (h : input.length < n) : satisfying (takeN n) ok input = none := by
  rw [satisfying, bind_apply, takeN_eq_none h, Option.bind_none]

theorem exact_satisfying {p : Parser τ α} {G : α → List τ → Prop} (hp : Exact p G)
    (ok : α → Prop) [DecidablePred ok] :
    Exact (satisfying p ok) (fun a bs => G a bs ∧ ok a) := by
  have hf (a : α) : Exact (if ok a then pure a else failure : Parser τ α)
      (fun b bs => ok a ∧ b = a ∧ bs = []) := by
    by_cases ha : ok a
    · simpa only [ha, if_true, true_and] using (exact_pure a : Exact (pure a : Parser τ α) _)
    · simpa only [ha, if_false, false_and] using (exact_failure : Exact (failure : Parser τ α) _)
  refine (exact_bind hp hf).mono fun b bs => ?_
  constructor
  · rintro ⟨a, xs, ys, hG, ⟨ha, rfl, rfl⟩, rfl⟩
    exact ⟨by simpa using hG, ha⟩
  · rintro ⟨hG, hb⟩
    exact ⟨b, bs, [], hG, ⟨hb, rfl, rfl⟩, by simp⟩

/-- A counted run of items. -/
def replicateP (p : Parser τ α) : Nat → Parser τ (List α)
  | 0 => pure []
  | n + 1 => do
      let a ← p
      let as ← replicateP p n
      pure (a :: as)

theorem exact_replicateP {p : Parser τ α} {W : α → Prop} {enc : α → List τ}
    (hp : Exact p fun a bs => W a ∧ bs = enc a) (n : Nat) :
    Exact (replicateP p n)
      (fun as bs => (as.length = n ∧ ∀ a ∈ as, W a) ∧ bs = as.flatMap enc) := by
  induction n with
  | zero =>
      refine (exact_pure ([] : List α)).mono fun as bs => ?_
      constructor
      · rintro ⟨rfl, rfl⟩
        simp
      · rintro ⟨⟨h, _⟩, rfl⟩
        simp [List.length_eq_zero_iff.mp h]
  | succ n ih =>
      refine (exact_bind hp fun a => exact_bind ih fun as => exact_pure (a :: as)).mono
        fun as bs => ?_
      constructor
      · rintro ⟨a, xs, ys, ⟨ha, rfl⟩, ⟨as', us, vs, ⟨⟨rfl, hw⟩, rfl⟩, ⟨rfl, rfl⟩, rfl⟩, rfl⟩
        exact ⟨⟨rfl, by simpa using ⟨ha, hw⟩⟩, by simp⟩
      · rintro ⟨⟨hl, hw⟩, rfl⟩
        cases as with
        | nil => cases hl
        | cons a as =>
            have hn : as.length = n := by simpa using hl
            exact ⟨a, enc a, as.flatMap enc, ⟨hw a (by simp), rfl⟩,
              ⟨as, as.flatMap enc, [], ⟨⟨hn, fun x hx => hw x (by simp [hx])⟩, rfl⟩,
                ⟨rfl, rfl⟩, by simp⟩, by simp⟩

theorem length_flatMap_ge {enc : α → List τ} {k : Nat} (hk : ∀ a, k ≤ (enc a).length)
    (as : List α) : as.length * k ≤ (as.flatMap enc).length := by
  induction as with
  | nil => simp
  | cons a as ih =>
      have ha := hk a
      rw [List.length_cons, List.flatMap_cons, List.length_append, Nat.add_mul, one_mul]
      omega

/-- Items of at least `k` tokens cannot repeat more often than the input allows.
This is why a guard on the count before a loop rejects nothing the loop accepts. -/
theorem replicateP_count_le {p : Parser τ α} {W : α → Prop} {enc : α → List τ}
    (hp : Exact p fun a bs => W a ∧ bs = enc a) {k : Nat} (hk : ∀ a, k ≤ (enc a).length)
    {n : Nat} {input rest : List τ} {as : List α}
    (h : replicateP p n input = some (as, rest)) : n * k ≤ input.length := by
  obtain ⟨bs, ⟨⟨rfl, _⟩, rfl⟩, rfl⟩ := (exact_replicateP hp n _ _ _).mp h
  have hlen := length_flatMap_ge hk as
  rw [List.length_append]
  omega

/-- How a reader's state stands before unread tokens, and what holds after a failure. -/
structure Cursor (ε σ τ : Type) where
  stands : σ → List τ → Prop
  failed : ε → σ → Prop

/-- On one state and its input, the reader accepts what the parser accepts, with related values. -/
def RefinesAt (C : Cursor ε σ τ) (R : α → β → Prop) (m : EStateM ε σ α) (p : Parser τ β) (s : σ)
    (input : List τ) : Prop :=
  match p input with
  | some (b, rest) => ∃ a s', m s = .ok a s' ∧ R a b ∧ C.stands s' rest
  | none => ∃ e s', m s = .error e s' ∧ C.failed e s'

/-- The reader accepts exactly what the parser accepts, with related values. -/
def Refines (C : Cursor ε σ τ) (R : α → β → Prop) (m : EStateM ε σ α) (p : Parser τ β) : Prop :=
  ∀ s input, C.stands s input → RefinesAt C R m p s input

/-- A check that fails in place. -/
def throwIf {m : Type → Type} [Monad m] [MonadExcept ε m] (c : Prop) [Decidable c] (e : ε) :
    m Unit :=
  if c then throw e else pure ()

theorem throwIf_bind_except {c : Prop} [Decidable c] {e : ε} {f : Unit → Except ε α} :
    (throwIf c e >>= f) = if c then .error e else f () := by
  rw [throwIf]
  split <;> rfl

theorem ok_bind {a : α} {f : α → Except ε β} : ((.ok a : Except ε α) >>= f) = f a :=
  rfl

section Rules

variable {C : Cursor ε σ τ} {R : α → β → Prop} {m : EStateM ε σ α} {p : Parser τ β} {s : σ}
  {input rest : List τ}

theorem refinesAt_some {b : β} (hp : p input = some (b, rest)) :
    RefinesAt C R m p s input ↔ ∃ a s', m s = .ok a s' ∧ R a b ∧ C.stands s' rest := by
  rw [RefinesAt, hp]

theorem refinesAt_none (hp : p input = none) :
    RefinesAt C R m p s input ↔ ∃ e s', m s = .error e s' ∧ C.failed e s' := by
  rw [RefinesAt, hp]

theorem RefinesAt.mono {S : α → β → Prop} (h : RefinesAt C R m p s input)
    (hRS : ∀ a b, R a b → S a b) : RefinesAt C S m p s input := by
  cases hp : p input with
  | none => exact (refinesAt_none hp).mpr ((refinesAt_none hp).mp h)
  | some r =>
      obtain ⟨a, s', hm, hR, hs'⟩ := (refinesAt_some hp).mp h
      exact (refinesAt_some hp).mpr ⟨a, s', hm, hRS _ _ hR, hs'⟩

theorem Refines.mono {S : α → β → Prop} (h : Refines C R m p) (hRS : ∀ a b, R a b → S a b) :
    Refines C S m p :=
  fun s input hs => (h s input hs).mono hRS

theorem refines_pure {a : α} {b : β} (hR : R a b) :
    Refines C R (pure a : EStateM ε σ α) (pure b) :=
  fun s _ hs => ⟨a, s, rfl, hR, hs⟩

theorem refinesAt_bind {α' β' : Type} {S : α' → β' → Prop} {f : α → EStateM ε σ α'}
    {g : β → Parser τ β'} (hm : RefinesAt C R m p s input)
    (hf : ∀ a b s' rest, p input = some (b, rest) → R a b → C.stands s' rest →
      RefinesAt C S (f a) (g b) s' rest) : RefinesAt C S (m >>= f) (p >>= g) s input := by
  cases hp : p input with
  | none =>
      obtain ⟨e, s', hms, hfail⟩ := (refinesAt_none hp).mp hm
      have hb : (p >>= g) input = none := by rw [bind_apply, hp, Option.bind_none]
      refine (refinesAt_none hb).mpr ⟨e, s', ?_, hfail⟩
      change EStateM.bind m f s = _
      rw [EStateM.bind, hms]
  | some r =>
      obtain ⟨b, rest⟩ := r
      obtain ⟨a, s', hms, hR, hs'⟩ := (refinesAt_some hp).mp hm
      have h := hf a b s' rest hp hR hs'
      have hb : (p >>= g) input = g b rest := by rw [bind_apply, hp, Option.bind_some]
      have hmf : (m >>= f) s = f a s' := by
        change EStateM.bind m f s = _
        rw [EStateM.bind, hms]
      rw [RefinesAt] at h ⊢
      rwa [hb, hmf]

theorem refines_bind {α' β' : Type} {S : α' → β' → Prop} {f : α → EStateM ε σ α'}
    {g : β → Parser τ β'} (hm : Refines C R m p)
    (hf : ∀ a b, R a b → Refines C S (f a) (g b)) : Refines C S (m >>= f) (p >>= g) :=
  fun s input hs => refinesAt_bind (hm s input hs) fun a b s' rest _ hR hs' => hf a b hR s' rest hs'

theorem refines_map {α' β' : Type} {S : α' → β' → Prop} {f : α → α'} {g : β → β'}
    (hm : Refines C R m p) (hf : ∀ a b, R a b → S (f a) (g b)) :
    Refines C S (m >>= fun a => pure (f a)) (p >>= fun b => pure (g b)) :=
  refines_bind hm fun a b hR => refines_pure (hf a b hR)

/-- A result that is wrapped after the parsing. -/
theorem refines_functor_map {α' : Type} {S : α' → β → Prop} {f : α → α'} (hm : Refines C R m p)
    (hf : ∀ a b, R a b → S (f a) b) : Refines C S (f <$> m) p := by
  rw [map_eq_pure_bind, ← bind_pure p]
  exact refines_map hm hf

/-- A step that returns at once, before anything is parsed. -/
theorem refinesAt_step {α' : Type} {m₀ : EStateM ε σ α'} {f : α' → EStateM ε σ α} {a : α'} {s' : σ}
    (hm : m₀ s = .ok a s') (h : RefinesAt C R (f a) p s' input) :
    RefinesAt C R (m₀ >>= f) p s input := by
  have hmf : (m₀ >>= f) s = f a s' := by
    change EStateM.bind m₀ f s = _
    rw [EStateM.bind, hm]
  rw [RefinesAt] at h ⊢
  rwa [hmf]

/-- A step that fails where the parser fails. -/
theorem refinesAt_throw {α' : Type} {m₀ : EStateM ε σ α'} {f : α' → EStateM ε σ α} {e : ε} {s' : σ}
    (hp : p input = none) (hm : m₀ s = .error e s') (hfail : C.failed e s') :
    RefinesAt C R (m₀ >>= f) p s input := by
  refine (refinesAt_none hp).mpr ⟨e, s', ?_, hfail⟩
  change EStateM.bind m₀ f s = _
  rw [EStateM.bind, hm]

/-- A check in front of a reader may fail only where the parser fails. -/
theorem refinesAt_throwIf {c : Prop} [Decidable c] {e : ε} {f : Unit → EStateM ε σ α}
    (hc : c → p input = none ∧ C.failed e s) (hf : ¬ c → RefinesAt C R (f ()) p s input) :
    RefinesAt C R (throwIf c e >>= f) p s input := by
  by_cases h : c
  · obtain ⟨hp, hfail⟩ := hc h
    exact refinesAt_throw hp (by rw [throwIf, if_pos h]; rfl) hfail
  · exact refinesAt_step (a := ()) (by rw [throwIf, if_neg h]; rfl) (hf h)

/-- A counted loop that folds each item into an accumulator. -/
def forCount (body : EStateM ε σ α) (step : γ → α → γ) : Nat → γ → EStateM ε σ γ
  | 0, acc => pure acc
  | n + 1, acc => do
      let a ← body
      forCount body step n (step acc a)

/-- The loop reads what counted repetition parses and folds the related items in order. -/
theorem refines_forCount {body : EStateM ε σ α} (step : γ → α → γ) (hb : Refines C R body p)
    (n : Nat) (acc : γ) :
    Refines C (fun out bs => ∃ as, List.Forall₂ R as bs ∧ out = as.foldl step acc)
      (forCount body step n acc) (replicateP p n) := by
  induction n generalizing acc with
  | zero => exact refines_pure ⟨[], .nil, rfl⟩
  | succ n ih =>
      refine refines_bind hb fun a b hab s input hs => ?_
      cases hp : replicateP p n input with
      | none =>
          have hb : (replicateP p n >>= fun bs => pure (b :: bs)) input = none := by
            rw [bind_apply, hp, Option.bind_none]
          exact (refinesAt_none hb).mpr ((refinesAt_none hp).mp (ih (step acc a) s input hs))
      | some r =>
          obtain ⟨out, s', hm, ⟨as, has, rfl⟩, hs'⟩ :=
            (refinesAt_some hp).mp (ih (step acc a) s input hs)
          have hb : (replicateP p n >>= fun bs => pure (b :: bs)) input =
              some (b :: r.1, r.2) := by
            rw [bind_apply, hp, Option.bind_some, pure_apply]
          exact (refinesAt_some hb).mpr ⟨_, s', hm, ⟨a :: as, .cons hab has, rfl⟩, hs'⟩

/-- A guard on the count, in front of a loop over items of at least `k` tokens, rejects nothing
the loop would accept. -/
theorem refinesAt_counted {S : γ → List β → Prop} {c : Prop} [Decidable c] {e : ε} {W : β → Prop}
    {enc : β → List τ} {k n count : Nat} {body : EStateM ε σ α} {step : γ → α → γ} {acc : γ}
    (hs : C.stands s input) (hp : Exact p fun b bs => W b ∧ bs = enc b)
    (henc : ∀ b, k ≤ (enc b).length) (hc : c → input.length < n * k ∧ C.failed e s)
    (hcount : ¬ c → count = n) (hbody : Refines C R body p)
    (hS : ∀ as bs, List.Forall₂ R as bs → S (as.foldl step acc) bs) :
    RefinesAt C S (throwIf c e >>= fun _ => forCount body step count acc) (replicateP p n) s
      input := by
  refine refinesAt_throwIf (fun h => ⟨?_, (hc h).2⟩) (fun h => ?_)
  · cases hrep : replicateP p n input with
    | none => rfl
    | some out =>
        have hle := replicateP_count_le hp henc hrep
        have hgt := (hc h).1
        omega
  · rw [hcount h]
    refine (refines_forCount step hbody n acc s input hs).mono ?_
    rintro _ bs ⟨as, has, rfl⟩
    exact hS as bs has

theorem ofExcept_ok {x : Except ε α} {a : α} (h : x = .ok a) :
    (ofExcept x : EStateM ε σ α) s = .ok a s := by
  rw [h]
  rfl

end Rules

section Exceptions

variable {E : ε → Prop} {m : EStateM ε σ α}

/-- Every exception of the program is one of these. -/
def Throws (E : ε → Prop) (m : EStateM ε σ α) : Prop := ∀ s e s', m s = .error e s' → E e

theorem throws_pure (a : α) : Throws E (pure a : EStateM ε σ α) := nofun

theorem throws_bind {f : α → EStateM ε σ β} (hm : Throws E m) (hf : ∀ a, Throws E (f a)) :
    Throws E (m >>= f) := by
  intro s e s' h
  change EStateM.bind m f s = _ at h
  rw [EStateM.bind] at h
  split at h
  · next a s₁ _ => exact hf a s₁ e s' h
  · next e₁ s₁ hs =>
      cases h
      exact hm s e s' hs

theorem throws_throwIf {c : Prop} [Decidable c] {e : ε} (he : E e) :
    Throws E (throwIf c e : EStateM ε σ Unit) := by
  intro s e' s' h
  rw [throwIf] at h
  split at h <;> cases h
  exact he

theorem throws_ofExcept {x : Except ε α} (h : ∀ e, x = .error e → E e) :
    Throws E (ofExcept x : EStateM ε σ α) := by
  intro s e s' hx
  cases x with
  | ok a => cases hx
  | error e' =>
      cases hx
      exact h e rfl

theorem throws_get : Throws E (get : EStateM ε σ σ) := nofun

theorem throws_modify (f : σ → σ) : Throws E (modify f : EStateM ε σ PUnit) := nofun

theorem throws_forCount {body : EStateM ε σ α} (step : γ → α → γ) (hbody : Throws E body) (n : Nat)
    (acc : γ) : Throws E (forCount body step n acc) := by
  induction n generalizing acc with
  | zero => exact throws_pure acc
  | succ n ih => exact throws_bind hbody fun a => ih (step acc a)

end Exceptions

section Frames

variable {I : σ → Prop} {m : EStateM ε σ α}

/-- The state in which a call ends, with a value or with an exception. -/
def stateOf : EStateM.Result ε σ α → σ
  | .ok _ s => s
  | .error _ s => s

/-- The program keeps what holds of its state, also when it fails. -/
def Keeps (I : σ → Prop) (m : EStateM ε σ α) : Prop := ∀ s, I s → I (stateOf (m s))

theorem keeps_pure (a : α) : Keeps I (pure a : EStateM ε σ α) := fun _ hs => hs

theorem keeps_get : Keeps I (get : EStateM ε σ σ) := fun _ hs => hs

theorem keeps_modify {f : σ → σ} (hf : ∀ s, I s → I (f s)) :
    Keeps I (modify f : EStateM ε σ PUnit) := hf

theorem keeps_throwIf {c : Prop} [Decidable c] {e : ε} :
    Keeps I (throwIf c e : EStateM ε σ Unit) := by
  intro s hs
  rw [throwIf]
  split
  · exact hs
  · exact hs

theorem keeps_bind {f : α → EStateM ε σ β} (hm : Keeps I m) (hf : ∀ a, Keeps I (f a)) :
    Keeps I (m >>= f) := by
  intro s hs
  have hfirst := hm s hs
  change I (stateOf (EStateM.bind m f s))
  rw [EStateM.bind]
  cases hms : m s with
  | ok a s' =>
      rw [hms] at hfirst
      exact hf a s' hfirst
  | error e s' =>
      rw [hms] at hfirst
      exact hfirst

theorem keeps_forCount {body : EStateM ε σ α} (step : γ → α → γ) (hbody : Keeps I body) (n : Nat)
    (acc : γ) : Keeps I (forCount body step n acc) := by
  induction n generalizing acc with
  | zero => exact keeps_pure acc
  | succ n ih => exact keeps_bind hbody fun a => ih (step acc a)

/-- The turns that a counted loop begins. -/
def turns (body : EStateM ε σ α) : Nat → σ → Nat
  | 0, _ => 0
  | n + 1, s =>
      match body s with
      | .ok _ s' => turns body n s' + 1
      | .error _ _ => 1

theorem turns_le (body : EStateM ε σ α) (n : Nat) (s : σ) : turns body n s ≤ n := by
  induction n generalizing s with
  | zero => exact le_rfl
  | succ n ih =>
      rw [turns]
      split
      · exact Nat.succ_le_succ (ih _)
      · exact Nat.succ_le_succ (Nat.zero_le n)

end Frames

section Parallel

variable {I : σ → Prop} {C : ε → σ → Prop} {D : ε → ε → σ → Prop} {m m' : EStateM ε σ α}

end Parallel

theorem foldl_push (as acc : List α) : as.foldl (fun rs r => rs ++ [r]) acc = acc ++ as := by
  induction as generalizing acc with
  | nil => simp
  | cons a as ih => simp [ih]

end HelloWebsocket.Parsing
