import HelloWebsocket.Wire.Position
import HelloWebsocket.Protocol.Tagged

/-!
# The methods of reader and writer classes

The reader classes of several codecs differ in their number types and in the errors
they raise. Their common bodies are here: a number of fixed width, a text behind its
length, and items behind a count that is checked against the octets that are left.
A writer class may check what it writes; then the encoder succeeds exactly on the
messages whose fields all pass.
-/

namespace HelloWebsocket.Parsing

/-- The value is wrapped in the grammar only. -/
theorem refines_map_right {ε σ τ α β β' : Type} {C : Cursor ε σ τ} {R : α → β → Prop}
    {S : α → β' → Prop} {m : EStateM ε σ α} {p : Parser τ β} {g : β → β'} (hm : Refines C R m p)
    (hg : ∀ a b, R a b → S a (g b)) : Refines C S m (p >>= fun b => pure (g b)) := by
  have h := refines_map (f := id) hm hg
  rwa [show (m >>= fun a => pure (id a)) = m from bind_pure m] at h

/-- The value is wrapped in the program only. -/
theorem refines_map_left {ε σ τ α α' β : Type} {C : Cursor ε σ τ} {R : α → β → Prop}
    {S : α' → β → Prop} {m : EStateM ε σ α} {p : Parser τ β} {f : α → α'} (hm : Refines C R m p)
    (hf : ∀ a b, R a b → S (f a) b) : Refines C S (m >>= fun a => pure (f a)) p := by
  have h := refines_functor_map hm hf
  rwa [map_eq_pure_bind] at h

end HelloWebsocket.Parsing

namespace HelloWebsocket.Positions

open BigEndian Parsing

variable {ε : Type} {data : Bytes} {bad : ε → Prop}

/-- The number that the next `n` octets spell. -/
def number (n : Nat) (short : Reader → ε) : EStateM ε Reader Nat := do
  let b ← next n short
  pure (beNat b)

theorem refines_number (n : Nat) {short : Reader → ε} (hshort : ∀ r, r.data = data → bad (short r)) :
    Refines (cursor data bad) (fun v v' => v = v' ∧ v' < 256 ^ n) (number n short)
      (takeN n >>= fun b => pure (beNat b)) := by
  intro r input hr
  refine refinesAt_bind (refines_next n hshort r input hr) ?_
  rintro b _ s rest hp rfl hs
  obtain ⟨_, ⟨-, rfl⟩, -⟩ := (exact_takeN n _ _ _).mp hp
  exact refines_pure ⟨rfl, beNat_lt b⟩ s rest hs

end HelloWebsocket.Positions

namespace HelloWebsocket.Protocol

open BigEndian Utf8 Parsing Positions

variable {ε υ α β γ : Type} {data : Bytes} {bad : ε → Prop}

section Numbers

variable {short : Reader → ε}

theorem refines_number_u32 (hshort : ∀ r, r.data = data → bad (short r)) :
    Refines (cursor data bad) (fun v n => v = n ∧ n < 2 ^ 32) (number 4 short) parseU32 :=
  refines_number 4 hshort

theorem refines_number_u8 (hshort : ∀ r, r.data = data → bad (short r)) :
    Refines (cursor data bad) (fun (v : Nat) (n : Int) => v = n ∧ v < 2 ^ 8) (number 1 short)
      parseU8 := by
  have hparse : parseU8 = (takeN 1 >>= fun b => pure (beNat b)) >>= fun n => pure (n : Int) := by
    rw [parseU8, bind_assoc]
    rfl
  rw [hparse]
  exact refines_map_right (refines_number 1 hshort) fun v n h => ⟨by rw [h.1], h.1 ▸ h.2⟩

theorem refines_number_i32 (hshort : ∀ r, r.data = data → bad (short r)) :
    Refines (cursor data bad) (fun v n => signed 32 v = n ∧ v < 2 ^ 32) (number 4 short) parseI32 := by
  rw [parseI32_eq]
  exact refines_map_right (refines_number_u32 hshort) fun v n h => ⟨by rw [h.1], h.1 ▸ h.2⟩

theorem refines_number_i64 (hshort : ∀ r, r.data = data → bad (short r)) :
    Refines (cursor data bad) (fun v n => signed 64 v = n ∧ v < 2 ^ 64) (number 8 short) parseI64 := by
  have hparse : parseI64 = (takeN 8 >>= fun b => pure (beNat b)) >>= fun n => pure (signed 64 n) := by
    rw [parseI64, bind_assoc]
    rfl
  rw [hparse]
  exact refines_map_right (refines_number 8 hshort) fun v n h => ⟨by rw [h.1], h.1 ▸ h.2⟩

end Numbers

section Texts

/-- A text behind its length. -/
def textBy (readU32 : EStateM ε Reader υ) (toNat : υ → Nat) (decode : Bytes → Option α)
    (long malformed : υ → Reader → ε) : EStateM ε Reader α := do
  let ln ← readU32
  nextText decode (toNat ln) (long ln) (malformed ln)

variable {readU32 : EStateM ε Reader υ} {toNat : υ → Nat}
  (hU32 : Refines (cursor data bad) (fun v n => toNat v = n ∧ n < 2 ^ 32) readU32 parseU32)

include hU32 in
theorem refines_textBy {R : α → Bytes → Prop} {decode : Bytes → Option α}
    {long malformed : υ → Reader → ε}
    (hlong : ∀ v r, toNat v < 2 ^ 32 → r.data = data → bad (long v r))
    (hbad : ∀ v r, bad (malformed v r)) (hsome : ∀ b, WellFormed b → ∃ s, decode b = some s ∧ R s b)
    (hnone : ∀ b, ¬ WellFormed b → decode b = none) :
    Refines (cursor data bad) R (textBy readU32 toNat decode long malformed) parseString := by
  refine refines_bind hU32 fun ln n hln => ?_
  obtain ⟨rfl, hlt⟩ := hln
  exact refines_nextText decode (toNat ln) _ _ (fun r => hlong ln r hlt) (hbad ln) hsome hnone

/-- Two strings, as in a turn of the loop over the entries of a map. -/
def entryBy (readString : EStateM ε Reader α) : EStateM ε Reader (α × α) := do
  let k ← readString
  let v ← readString
  pure (k, v)

theorem refines_entryBy {f : α → Bytes} {readString : EStateM ε Reader α}
    (hstring : Refines (cursor data bad) (fun s b => f s = b) readString parseString) :
    Refines (cursor data bad) (fun e b => (f e.1, f e.2) = b) (entryBy readString) parseEntry := by
  refine refines_bind hstring fun k k' hk => ?_
  refine refines_bind hstring fun v v' hv => refines_pure ?_
  rw [hk, hv]

end Texts

section Counts

/-- A count, the check that as many items of at least `k` octets can be there, and the loop that
reads them. -/
def countedBy (readU32 : EStateM ε Reader υ) (toNat : υ → Nat) (k : Nat) (excess : υ → ε)
    (item : EStateM ε Reader α) (step : γ → α → γ) (acc : γ) : EStateM ε Reader γ := do
  let count ← readU32
  let left ← remaining
  throwIf (toNat count > left / k) (excess count)
  forCount item step (toNat count) acc

variable {readU32 : EStateM ε Reader υ} {toNat : υ → Nat}
  (hU32 : Refines (cursor data bad) (fun v n => toNat v = n ∧ n < 2 ^ 32) readU32 parseU32)
  {excess : υ → ε} (hexcess : ∀ v, toNat v < 2 ^ 32 → bad (excess v)) {item : EStateM ε Reader α}
  {R : α → β → Prop}

include hU32 hexcess in
theorem refines_countedBy {p : Parser UInt8 β} {S : γ → List β → Prop} {W : β → Prop}
    {enc : β → Bytes} {k : Nat} {step : γ → α → γ} {acc : γ}
    (hp : Exact p fun b bs => W b ∧ bs = enc b) (henc : ∀ b, k ≤ (enc b).length) (hk : 0 < k)
    (hitem : Refines (cursor data bad) R item p)
    (hS : ∀ as bs, List.Forall₂ R as bs → S (as.foldl step acc) bs) :
    Refines (cursor data bad) S (countedBy readU32 toNat k excess item step acc)
      (parseU32 >>= fun n => replicateP p n) := by
  refine refines_bind hU32 fun count n hn r input hr => ?_
  obtain ⟨rfl, hlt⟩ := hn
  refine refinesAt_step (a := r.remaining) rfl ?_
  rw [remaining_of_stands hr]
  exact refinesAt_counted hr hp henc
    (fun hc => ⟨(Nat.div_lt_iff_lt_mul hk).mp hc, hexcess count hlt⟩) (fun _ => rfl) hitem hS

include hU32 hexcess in
/-- The entries of a map. -/
theorem refines_countedBy_entries {S : γ → Entries → Prop} {R : α → Bytes × Bytes → Prop}
    {step : γ → α → γ} {acc : γ} (hitem : Refines (cursor data bad) R item parseEntry)
    (hS : ∀ as bs, List.Forall₂ R as bs → S (as.foldl step acc) bs) :
    Refines (cursor data bad) S (countedBy readU32 toNat 8 excess item step acc) parseKv :=
  refines_countedBy hU32 hexcess exact_parseEntry length_entry_ge (by decide) hitem hS

include hU32 hexcess in
/-- The results of an echo response. -/
theorem refines_countedBy_results {κ : Type} {f : α → EchoResult κ}
    {shape : EchoResult Entries → EchoResult κ}
    (hitem : Refines (cursor data bad) (fun r b => f r = shape b) item parseEchoResult) :
    Refines (cursor data bad) (fun rs bs => rs.map f = bs.map shape)
      (countedBy readU32 toNat 13 excess item (fun rs r => rs ++ [r]) []) parseEchoResults := by
  refine refines_countedBy hU32 hexcess exact_parseEchoResult length_echoResult_ge (by decide) hitem
    fun as bs has => ?_
  rw [foldl_push, List.nil_append]
  induction has with
  | nil => rfl
  | cons hab _ ih => rw [List.map_cons, List.map_cons, hab, ih]

end Counts

section Checks

open Writing

variable {σ ι ν ρ : Type} {ς : Type} {octets : ς → Bytes} {W : TaggedWriters (EStateM ε ς) σ ι ν ρ}
  {V : Reading σ ι ν ρ Entries} {T : σ → Prop} {L : ι → Prop} {N : ν → Prop} {R : List ρ → Prop}

/-- Every field of a message satisfies the condition of its kind. -/
def Tagged.Each (T : σ → Prop) (L : ι → Prop) (N : ν → Prop) (R : List ρ → Prop) :
    Tagged σ ι ν ρ → Prop
  | hello l => T l
  | bonjour l => T l
  | echoRequest i t d => L i ∧ T t ∧ T d
  | echoResponse s rs => N s ∧ R rs
  | kissRequest n v r a => T n ∧ T v ∧ T r ∧ T a
  | kissResponse l e z => T l ∧ T e ∧ T z
  | ping t => L t
  | pong t => L t
  | timeNotification t i => L t ∧ T i
  | randomNumber i n => L i ∧ L n
  | hashResponse i h => L i ∧ T h
  | disconnect r => T r
  | error c m => N c ∧ T m

/-- The methods of the writer write what passes their checks and throw on the rest. -/
structure TaggedWriters.Checked (octets : ς → Bytes) (W : TaggedWriters (EStateM ε ς) σ ι ν ρ)
    (V : Reading σ ι ν ρ Entries) (T : σ → Prop) (L : ι → Prop) (N : ν → Prop)
    (R : List ρ → Prop) : Prop where
  writeString : ∀ s, WritesIf octets (T s) (W.writeString s) (string (V.text s))
  writeI64 : ∀ v, WritesIf octets (L v) (W.writeI64 v) (i64 (V.long v))
  writeI32 : ∀ v, WritesIf octets (N v) (W.writeI32 v) (i32 (V.int v))
  writeEchoResults : ∀ rs, WritesIf octets (R rs) (W.writeEchoResults rs)
    (u32 rs.length ++ (rs.map V.result).flatMap echoResult)

/-- The `switch` of the encoder writes the payload if all fields pass, and throws if one does
not. -/
theorem writesIf_writeTagged (hW : W.Checked octets V T L N R) (m : Tagged σ ι ν ρ) :
    WritesIf octets (m.Each T L N R) (writeTagged W m) (payload (m.view V)) := by
  cases m with
  | hello s | bonjour s | disconnect s => exact hW.writeString s
  | ping t | pong t => exact hW.writeI64 t
  | randomNumber i n => exact writesIf_bind (hW.writeI64 i) (hW.writeI64 n)
  | echoRequest i t d =>
      rw [Tagged.view, payload, List.append_assoc]
      exact writesIf_bind (hW.writeI64 i) (writesIf_bind (hW.writeString t) (hW.writeString d))
  | echoResponse s rs =>
      rw [Tagged.view, payload, List.append_assoc, List.length_map]
      exact writesIf_bind (hW.writeI32 s) (hW.writeEchoResults rs)
  | kissRequest n v r a =>
      rw [Tagged.view, payload, List.append_assoc, List.append_assoc]
      exact writesIf_bind (hW.writeString n) (writesIf_bind (hW.writeString v)
        (writesIf_bind (hW.writeString r) (hW.writeString a)))
  | kissResponse l e z =>
      rw [Tagged.view, payload, List.append_assoc]
      exact writesIf_bind (hW.writeString l)
        (writesIf_bind (hW.writeString e) (hW.writeString z))
  | timeNotification t s | hashResponse t s =>
      exact writesIf_bind (hW.writeI64 t) (hW.writeString s)
  | error c s => exact writesIf_bind (hW.writeI32 c) (hW.writeString s)

end Checks

end HelloWebsocket.Protocol
