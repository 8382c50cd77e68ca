import HelloWebsocket.Wire.BigEndian

/-!
# Writers that append octets

A writer is a stateful program over some buffer type. It writes an octet
string when it appends exactly that string to the buffer, as long as the result
fits. Writing composes along sequencing and loops, so the output of an encoder
is the concatenation of what its steps write.

## Implementation notes

What fits is a condition on the length that shorter buffers inherit. Writers
over unbounded buffers use the condition that always holds.
-/

namespace HelloWebsocket.Writing

variable {ε σ α : Type}

/-- The octets a buffer holds and the lengths it can hold. -/
structure Sink (σ : Type) where
  octets : σ → Bytes
  fits : Nat → Prop
  fits_of_le : ∀ {m n}, m ≤ n → fits n → fits m

/-- The program appends the octets whenever they fit. -/
def Writes (S : Sink σ) (m : EStateM ε σ Unit) (bs : Bytes) : Prop :=
  ∀ s, S.fits (S.octets s ++ bs).length → ∃ s', m s = .ok () s' ∧ S.octets s' = S.octets s ++ bs

variable {S : Sink σ}

theorem writes_pure : Writes S (pure () : EStateM ε σ Unit) [] :=
  fun s _ => ⟨s, rfl, by simp⟩

theorem writes_bind {m n : EStateM ε σ Unit} {xs ys : Bytes} (hm : Writes S m xs)
    (hn : Writes S n ys) : Writes S (m >>= fun _ => n) (xs ++ ys) := by
  intro s hfit
  rw [← List.append_assoc] at hfit
  have hfirst : S.fits (S.octets s ++ xs).length := by
    refine S.fits_of_le ?_ hfit
    simp only [List.length_append]
    omega
  obtain ⟨s₁, hs₁, ho₁⟩ := hm s hfirst
  rw [← ho₁] at hfit
  obtain ⟨s₂, hs₂, ho₂⟩ := hn s₁ hfit
  refine ⟨s₂, ?_, ?_⟩
  · change EStateM.bind m (fun _ => n) s = _
    rw [EStateM.bind, hs₁]
    exact hs₂
  · rw [ho₂, ho₁, List.append_assoc]

/-- A loop writes what its turns write, one after the other. -/
theorem writes_forM {f : α → EStateM ε σ Unit} {enc : α → Bytes}
    (hf : ∀ a, Writes S (f a) (enc a)) (as : List α) :
    Writes S (as.forM f) (as.flatMap enc) := by
  induction as with
  | nil => exact writes_pure
  | cons a as ih => exact writes_bind (hf a) ih

section Checked

variable {octets : σ → Bytes}

/-- The program appends the octets if the condition holds, and throws if it does not. -/
def WritesIf (octets : σ → Bytes) (c : Prop) (m : EStateM ε σ Unit) (bs : Bytes) : Prop :=
  ∀ s, (c → ∃ s', m s = .ok () s' ∧ octets s' = octets s ++ bs) ∧ (¬ c → ∃ e s', m s = .error e s')

theorem WritesIf.congr {c d : Prop} {m : EStateM ε σ Unit} {bs : Bytes} (hm : WritesIf octets c m bs)
    (h : c ↔ d) : WritesIf octets d m bs := by
  rwa [← propext h]

theorem writesIf_bind {c d : Prop} {m n : EStateM ε σ Unit} {xs ys : Bytes}
    (hm : WritesIf octets c m xs) (hn : WritesIf octets d n ys) :
    WritesIf octets (c ∧ d) (m >>= fun _ => n) (xs ++ ys) := by
  intro s
  change (_ → ∃ s', EStateM.bind m (fun _ => n) s = _ ∧ _) ∧
    (_ → ∃ e s', EStateM.bind m (fun _ => n) s = _)
  rw [EStateM.bind]
  by_cases hc : c
  · obtain ⟨s₁, hs₁, ho₁⟩ := (hm s).1 hc
    rw [hs₁]
    refine ⟨fun h => ?_, fun h => (hn s₁).2 fun hd => h ⟨hc, hd⟩⟩
    obtain ⟨s₂, hs₂, ho₂⟩ := (hn s₁).1 h.2
    exact ⟨s₂, hs₂, by rw [ho₂, ho₁, List.append_assoc]⟩
  · obtain ⟨e, s₁, hs₁⟩ := (hm s).2 hc
    rw [hs₁]
    exact ⟨fun h => absurd h.1 hc, fun _ => ⟨e, s₁, rfl⟩⟩

theorem writesIf_forM {c : α → Prop} {f : α → EStateM ε σ Unit} {enc : α → Bytes}
    (hf : ∀ a, WritesIf octets (c a) (f a) (enc a)) (as : List α) :
    WritesIf octets (∀ a ∈ as, c a) (as.forM f) (as.flatMap enc) := by
  induction as with
  | nil => exact fun s => ⟨fun _ => ⟨s, rfl, (List.append_nil _).symm⟩, fun h => absurd (by simp) h⟩
  | cons a as ih => exact (writesIf_bind (hf a) ih).congr List.forall_mem_cons.symm

end Checked

end HelloWebsocket.Writing
