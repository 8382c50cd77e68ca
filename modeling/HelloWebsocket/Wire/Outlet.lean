import Mathlib.Data.List.Basic

/-!
# Sending into a kernel buffer

Each call offers a nonempty list of tokens to a kernel, which takes a first part of
it or fails. What the kernel has taken, in order, is what goes out. A program that
offers each list once gets all of them out exactly when every call took everything.
-/

namespace HelloWebsocket.Outlets

variable {τ ε : Type}

/-- What a kernel answers to a call: how many of the tokens offered it takes, or an error. -/
structure Kernel (ε : Type) where
  send : Nat → Nat → Except ε Nat
  bounds : ∀ call offered taken, 0 < offered → send call offered = .ok taken →
    1 ≤ taken ∧ taken ≤ offered

/-- The sending side of a connection. -/
structure Outlet (τ ε : Type) where
  kernel : Kernel ε
  calls : Nat
  wire : List τ

namespace Outlet

/-- A connection on which nothing has been sent. -/
def fresh (kernel : Kernel ε) : Outlet τ ε := ⟨kernel, 0, []⟩

/-- One call, with its answer. -/
def send (o : Outlet τ ε) (buf : List τ) : Except ε Nat × Outlet τ ε :=
  match o.kernel.send o.calls buf.length with
  | .ok taken => (.ok taken, { o with calls := o.calls + 1, wire := o.wire ++ buf.take taken })
  | .error e => (.error e, { o with calls := o.calls + 1 })

end Outlet

/-- The kernel takes each list that is offered as a whole. -/
def Whole (kernel : Kernel ε) (bufs : List (List τ)) : Prop :=
  ∀ (i : Nat) (h : i < bufs.length),
    kernel.send i (bufs.get ⟨i, h⟩).length = .ok (bufs.get ⟨i, h⟩).length

/-- The kernel fails on one of the lists that are offered. -/
def Fails (kernel : Kernel ε) (bufs : List (List τ)) : Prop :=
  ∃ (i : Nat) (h : i < bufs.length) (e : ε), kernel.send i (bufs.get ⟨i, h⟩).length = .error e

section Concat

variable {kernel : Kernel ε} {bufs : List (List τ)} {buf : List τ}

private theorem get_concat_left {i : Nat} (h : i < bufs.length) (h' : i < (bufs ++ [buf]).length) :
    (bufs ++ [buf]).get ⟨i, h'⟩ = bufs.get ⟨i, h⟩ := by
  simp [List.getElem_append_left h]

private theorem get_concat_right (h : bufs.length < (bufs ++ [buf]).length) :
    (bufs ++ [buf]).get ⟨bufs.length, h⟩ = buf := by
  simp

theorem whole_concat : Whole kernel (bufs ++ [buf]) ↔
    Whole kernel bufs ∧ kernel.send bufs.length buf.length = .ok buf.length := by
  have hlen : bufs.length < (bufs ++ [buf]).length := by simp
  constructor
  · intro h
    refine ⟨fun i hi => ?_, ?_⟩
    · have hget := h i (by omega)
      rwa [get_concat_left hi] at hget
    · have hget := h bufs.length hlen
      rwa [get_concat_right] at hget
  · rintro ⟨hbefore, hlast⟩ i hi
    rw [List.length_append, List.length_singleton] at hi
    rcases Nat.lt_succ_iff_lt_or_eq.mp hi with hlt | rfl
    · rw [get_concat_left hlt]
      exact hbefore i hlt
    · rw [get_concat_right]
      exact hlast

theorem fails_concat : Fails kernel (bufs ++ [buf]) ↔
    Fails kernel bufs ∨ ∃ e, kernel.send bufs.length buf.length = .error e := by
  have hlen : bufs.length < (bufs ++ [buf]).length := by simp
  constructor
  · rintro ⟨i, hi, e, he⟩
    rw [List.length_append, List.length_singleton] at hi
    rcases Nat.lt_succ_iff_lt_or_eq.mp hi with hlt | rfl
    · rw [get_concat_left hlt] at he
      exact Or.inl ⟨i, hlt, e, he⟩
    · rw [get_concat_right] at he
      exact Or.inr ⟨e, he⟩
  · rintro (⟨i, hi, e, he⟩ | ⟨e, he⟩)
    · refine ⟨i, by omega, e, ?_⟩
      rwa [get_concat_left hi]
    · refine ⟨bufs.length, hlen, e, ?_⟩
      rwa [get_concat_right]

end Concat

/-- A connection on which the lists have been offered one by one without a failure. -/
structure Offered (kernel : Kernel ε) (bufs : List (List τ)) (o : Outlet τ ε) : Prop where
  kernel_eq : o.kernel = kernel
  calls : o.calls = bufs.length
  fits : o.wire.length ≤ bufs.flatten.length
  short : o.wire.length = bufs.flatten.length → Whole kernel bufs
  exact : Whole kernel bufs → o.wire = bufs.flatten

theorem offered_fresh (kernel : Kernel ε) : Offered kernel [] (Outlet.fresh (τ := τ) kernel) where
  kernel_eq := rfl
  calls := rfl
  fits := Nat.le_refl _
  short _ i h := absurd h (Nat.not_lt_zero i)
  exact _ := rfl

variable {kernel : Kernel ε} {bufs : List (List τ)} {o : Outlet τ ε}

/-- One more list is offered and part of it taken. -/
theorem Offered.send (h : Offered kernel bufs o) {buf : List τ} (hbuf : buf ≠ []) {taken : Nat}
    (htaken : kernel.send bufs.length buf.length = .ok taken) :
    Offered kernel (bufs ++ [buf])
      { o with calls := o.calls + 1, wire := o.wire ++ buf.take taken } := by
  obtain ⟨-, hle⟩ := kernel.bounds _ _ _ (List.length_pos_iff.mpr hbuf) htaken
  have hflat : (bufs ++ [buf]).flatten = bufs.flatten ++ buf := by simp
  have hwire : (o.wire ++ buf.take taken).length = o.wire.length + taken := by
    rw [List.length_append, List.length_take, Nat.min_eq_left hle]
  have hfits := h.fits
  refine ⟨h.kernel_eq, by simp [h.calls], ?_, ?_, ?_⟩
  · rw [hflat, hwire, List.length_append]
    omega
  · rw [hflat, hwire, List.length_append, whole_concat]
    intro heq
    have hall : taken = buf.length := by omega
    exact ⟨h.short (by omega), by rw [htaken, hall]⟩
  · rw [hflat, whole_concat]
    rintro ⟨hwhole, hlast⟩
    rw [htaken] at hlast
    cases hlast
    change o.wire ++ _ = _
    rw [h.exact hwhole, List.take_length]

/-- Everything has gone out exactly when the kernel took every list as a whole. -/
theorem Offered.wire_eq_iff (h : Offered kernel bufs o) :
    o.wire = bufs.flatten ↔ Whole kernel bufs :=
  ⟨fun heq => h.short (congrArg List.length heq), h.exact⟩

end HelloWebsocket.Outlets
