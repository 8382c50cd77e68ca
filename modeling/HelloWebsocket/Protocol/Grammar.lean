import HelloWebsocket.Protocol.Message

/-!
# The payload grammar and its exact parser

For each message type the parser reads the fields in their order and nothing
after them. It returns a message exactly on the octet strings that start with
the payload of that message, so the accepted language is the grammar of
`PROTOCOL.md` sections 3 and 5 followed by arbitrary surplus octets.
-/

namespace HelloWebsocket.Protocol

open BigEndian Utf8 Parsing

def parseU8 : Parser UInt8 Int := do
  let bs ← takeN 1
  pure (beNat bs : Int)

def parseU32 : Parser UInt8 Nat := do
  let bs ← takeN 4
  pure (beNat bs)

def parseI32 : Parser UInt8 Int := do
  let bs ← takeN 4
  pure (signed 32 (beNat bs))

def parseI64 : Parser UInt8 Int := do
  let bs ← takeN 8
  pure (signed 64 (beNat bs))

def parseString : Parser UInt8 Bytes := do
  let n ← parseU32
  satisfying (takeN n) WellFormed

def parseEntry : Parser UInt8 (Bytes × Bytes) := do
  let k ← parseString
  let v ← parseString
  pure (k, v)

def parseKv : Parser UInt8 Entries := do
  let n ← parseU32
  replicateP parseEntry n

def parseEchoResult : Parser UInt8 (EchoResult Entries) := do
  let idx ← parseI64
  let type ← parseU8
  let es ← parseKv
  pure ⟨idx, type, es⟩

def parseEchoResults : Parser UInt8 (List (EchoResult Entries)) := do
  let n ← parseU32
  replicateP parseEchoResult n

/-- The fields of a message of the given type. -/
def parsePayload : MsgType → Parser UInt8 (Message Entries)
  | .hello => do
      let l ← parseString
      pure (.hello l)
  | .bonjour => do
      let l ← parseString
      pure (.bonjour l)
  | .echoRequest => do
      let i ← parseI64
      let t ← parseString
      let d ← parseString
      pure (.echoRequest i t d)
  | .echoResponse => do
      let s ← parseI32
      let rs ← parseEchoResults
      pure (.echoResponse s rs)
  | .kissRequest => do
      let n ← parseString
      let v ← parseString
      let r ← parseString
      let a ← parseString
      pure (.kissRequest n v r a)
  | .kissResponse => do
      let l ← parseString
      let e ← parseString
      let z ← parseString
      pure (.kissResponse l e z)
  | .ping => do
      let t ← parseI64
      pure (.ping t)
  | .pong => do
      let t ← parseI64
      pure (.pong t)
  | .timeNotification => do
      let t ← parseI64
      let i ← parseString
      pure (.timeNotification t i)
  | .randomNumber => do
      let i ← parseI64
      let n ← parseI64
      pure (.randomNumber i n)
  | .hashResponse => do
      let i ← parseI64
      let h ← parseString
      pure (.hashResponse i h)
  | .disconnect => do
      let r ← parseString
      pure (.disconnect r)
  | .error => do
      let c ← parseI32
      let m ← parseString
      pure (.error c m)

section Halves

theorem parseI32_eq : parseI32 = parseU32 >>= fun n => pure (signed 32 n) := by
  simp only [parseI32, parseU32, bind_assoc, pure_bind]

/-- A 64-bit numeral is two 32-bit numerals. -/
theorem parseI64_eq :
    parseI64 = parseU32 >>= fun hi => parseU32 >>= fun lo =>
      pure (signed 64 (hi * 2 ^ 32 + lo)) := by
  funext input
  rcases Nat.lt_or_ge input.length 8 with hlt | hge
  · rw [parseI64, bind_apply, takeN_eq_none hlt, Option.bind_none]
    rcases Nat.lt_or_ge input.length 4 with hlt' | hge'
    · simp only [parseU32, bind_assoc, bind_apply, takeN_eq_none hlt', Option.bind_none]
    · have hdrop : (input.drop 4).length < 4 := by
        rw [List.length_drop]
        omega
      have hfirst : takeN 4 input = some (input.take 4, input.drop 4) := by
        rw [takeN, if_pos hge']
      simp only [parseU32, bind_assoc, pure_apply, bind_apply, hfirst, Option.bind_some,
        takeN_eq_none hdrop, Option.bind_none]
  · obtain ⟨b0, _, rfl, h1⟩ := exists_cons_of_succ_le hge
    obtain ⟨b1, _, rfl, h2⟩ := exists_cons_of_succ_le h1
    obtain ⟨b2, _, rfl, h3⟩ := exists_cons_of_succ_le h2
    obtain ⟨b3, _, rfl, h4⟩ := exists_cons_of_succ_le h3
    obtain ⟨b4, _, rfl, h5⟩ := exists_cons_of_succ_le h4
    obtain ⟨b5, _, rfl, h6⟩ := exists_cons_of_succ_le h5
    obtain ⟨b6, _, rfl, h7⟩ := exists_cons_of_succ_le h6
    obtain ⟨b7, rest, rfl, -⟩ := exists_cons_of_succ_le h7
    have hsplit := beNat_append [b0, b1, b2, b3] [b4, b5, b6, b7]
    change some (signed 64 (beNat ([b0, b1, b2, b3] ++ [b4, b5, b6, b7])), rest) =
      some (signed 64 (beNat [b0, b1, b2, b3] * 2 ^ 32 + beNat [b4, b5, b6, b7]), rest)
    have hpow : 256 ^ [b4, b5, b6, b7].length = 2 ^ 32 := by simp
    rw [hsplit, hpow]

end Halves

section Primitives

/-- Reading a fixed-width numeral is exact for the values of that width. -/
private theorem exact_numeral {α : Type} (w : Nat) (read : Nat → α) (write : α → Nat)
    (range : α → Prop) (hw : ∀ a, range a → write a < 256 ^ w ∧ read (write a) = a)
    (hr : ∀ n < 256 ^ w, range (read n) ∧ write (read n) = n) :
    Exact (do let bs ← takeN w; pure (read (beNat bs)) : Parser UInt8 α)
      (fun a bs => range a ∧ bs = beBytes w (write a)) := by
  refine (exact_bind (exact_takeN w) fun bs => exact_pure _).mono fun a bs => ?_
  constructor
  · rintro ⟨xs, ys, zs, ⟨rfl, rfl⟩, ⟨rfl, rfl⟩, rfl⟩
    obtain ⟨hrange, hwrite⟩ := hr (beNat ys) (beNat_lt ys)
    exact ⟨hrange, by rw [hwrite, beBytes_beNat, List.append_nil]⟩
  · rintro ⟨hrange, rfl⟩
    obtain ⟨hlt, hread⟩ := hw a hrange
    refine ⟨beBytes w (write a), beBytes w (write a), [], ⟨rfl, by simp⟩, ⟨?_, rfl⟩, by simp⟩
    rw [beNat_beBytes, Nat.mod_eq_of_lt hlt, hread]

theorem exact_parseU8 : Exact parseU8 (fun v bs => IsU8 v ∧ bs = u8 v) := by
  refine exact_numeral 1 (fun n => (n : Int)) (twos 8) IsU8 ?_ ?_
  · intro v hv
    unfold IsU8 at hv
    refine ⟨twos_lt 8 v, ?_⟩
    simp only [twos]
    omega
  · intro n hn
    refine ⟨⟨by omega, by omega⟩, ?_⟩
    simp only [twos]
    omega

theorem exact_parseU32 : Exact parseU32 (fun n bs => n < 2 ^ 32 ∧ bs = u32 n) :=
  exact_numeral 4 id id (· < 2 ^ 32) (fun _ h => ⟨h, rfl⟩) (fun _ h => ⟨h, rfl⟩)

private theorem signed_range {w n : Nat} (hw : 0 < w) :
    -2 ^ (w - 1) ≤ signed w n ∧ signed w n < 2 ^ (w - 1) := by
  obtain ⟨k, rfl⟩ : ∃ k, w = k + 1 := ⟨w - 1, by omega⟩
  have hpos : 0 < 2 ^ (k + 1) := by positivity
  have hpow : ((2 ^ (k + 1) : Nat) : Int) = 2 * 2 ^ k := by push_cast; ring
  have hl := Int.le_bmod (x := (n : Int)) hpos
  have hu := Int.bmod_lt (x := (n : Int)) hpos
  rw [hpow] at hl hu
  rw [signed, Nat.add_sub_cancel]
  omega

theorem exact_parseI32 : Exact parseI32 (fun v bs => IsI32 v ∧ bs = i32 v) := by
  refine exact_numeral 4 (signed 32) (twos 32) IsI32 ?_ ?_
  · intro v hv
    exact ⟨twos_lt 32 v, signed_twos_of_range (by omega) hv.1 hv.2⟩
  · intro n hn
    exact ⟨signed_range (w := 32) (by omega), twos_signed hn⟩

theorem exact_parseI64 : Exact parseI64 (fun v bs => IsI64 v ∧ bs = i64 v) := by
  refine exact_numeral 8 (signed 64) (twos 64) IsI64 ?_ ?_
  · intro v hv
    exact ⟨twos_lt 64 v, signed_twos_of_range (by omega) hv.1 hv.2⟩
  · intro n hn
    exact ⟨signed_range (w := 64) (by omega), twos_signed hn⟩

theorem exact_parseString : Exact parseString (fun s bs => IsText s ∧ bs = string s) := by
  refine (exact_bind exact_parseU32 fun n => exact_satisfying (exact_takeN n) _).mono
    fun s bs => ?_
  constructor
  · rintro ⟨n, xs, ys, ⟨hn, rfl⟩, ⟨⟨rfl, rfl⟩, hs⟩, rfl⟩
    exact ⟨⟨hs, hn⟩, rfl⟩
  · rintro ⟨⟨hs, hn⟩, rfl⟩
    exact ⟨s.length, u32 s.length, s, ⟨hn, rfl⟩, ⟨⟨rfl, rfl⟩, hs⟩, rfl⟩

theorem exact_parseEntry :
    Exact parseEntry (fun e bs => (IsText e.1 ∧ IsText e.2) ∧ bs = entry e) := by
  refine (exact_bind exact_parseString fun k => exact_bind exact_parseString
    fun v => exact_pure (k, v)).mono fun e bs => ?_
  constructor
  · rintro ⟨k, xs, ys, ⟨hk, rfl⟩, ⟨v, us, vs, ⟨hv, rfl⟩, ⟨rfl, rfl⟩, rfl⟩, rfl⟩
    exact ⟨⟨hk, hv⟩, by simp [entry]⟩
  · rintro ⟨⟨hk, hv⟩, rfl⟩
    exact ⟨e.1, _, _, ⟨hk, rfl⟩, ⟨e.2, _, [], ⟨hv, rfl⟩, ⟨rfl, rfl⟩, rfl⟩, by simp [entry]⟩

theorem exact_parseKv : Exact parseKv (fun es bs => IsKv es ∧ bs = kv es) := by
  refine (exact_bind exact_parseU32 fun n => exact_replicateP exact_parseEntry n).mono
    fun es bs => ?_
  constructor
  · rintro ⟨n, xs, ys, ⟨hn, rfl⟩, ⟨⟨rfl, hes⟩, rfl⟩, rfl⟩
    exact ⟨⟨hn, hes⟩, rfl⟩
  · rintro ⟨⟨hn, hes⟩, rfl⟩
    exact ⟨es.length, _, _, ⟨hn, rfl⟩, ⟨⟨rfl, hes⟩, rfl⟩, rfl⟩

theorem exact_parseEchoResult :
    Exact parseEchoResult (fun r bs => r.Ok ∧ bs = echoResult r) := by
  refine (exact_bind exact_parseI64 fun i => exact_bind exact_parseU8
    fun t => exact_bind exact_parseKv fun es => exact_pure _).mono fun r bs => ?_
  constructor
  · rintro ⟨i, xs, ys, ⟨hi, rfl⟩, ⟨t, us, vs, ⟨ht, rfl⟩, ⟨es, as, cs, ⟨hes, rfl⟩,
      ⟨rfl, rfl⟩, rfl⟩, rfl⟩, rfl⟩
    exact ⟨⟨hi, ht, hes⟩, by simp [echoResult]⟩
  · rintro ⟨⟨hi, ht, hes⟩, rfl⟩
    exact ⟨r.idx, _, _, ⟨hi, rfl⟩, ⟨r.type, _, _, ⟨ht, rfl⟩, ⟨r.kv, _, [], ⟨hes, rfl⟩,
      ⟨rfl, rfl⟩, rfl⟩, rfl⟩, by simp [echoResult]⟩

theorem exact_parseEchoResults :
    Exact parseEchoResults (fun rs bs => (rs.length < 2 ^ 32 ∧ ∀ r ∈ rs, r.Ok) ∧
      bs = u32 rs.length ++ rs.flatMap echoResult) := by
  refine (exact_bind exact_parseU32 fun n => exact_replicateP exact_parseEchoResult n).mono
    fun rs bs => ?_
  constructor
  · rintro ⟨n, xs, ys, ⟨hn, rfl⟩, ⟨⟨rfl, hrs⟩, rfl⟩, rfl⟩
    exact ⟨⟨hn, hrs⟩, rfl⟩
  · rintro ⟨⟨hn, hrs⟩, rfl⟩
    exact ⟨rs.length, _, _, ⟨hn, rfl⟩, ⟨⟨rfl, hrs⟩, rfl⟩, rfl⟩

end Primitives

section Payloads

/-- One parsed field in front of the rest of a message. -/
private theorem bind_eq_some_iff {α β : Type} {p : Parser UInt8 α} {W : α → Prop}
    {enc : α → Bytes} (hp : Exact p fun a bs => W a ∧ bs = enc a) (f : α → Parser UInt8 β)
    {input : Bytes} {out : β × Bytes} :
    (p >>= f) input = some out ↔ ∃ a rest, W a ∧ input = enc a ++ rest ∧ f a rest = some out := by
  rw [bind_apply, Option.bind_eq_some_iff]
  constructor
  · rintro ⟨⟨a, rest⟩, hpa, hf⟩
    obtain ⟨_, ⟨ha, rfl⟩, rfl⟩ := (hp _ _ _).mp hpa
    exact ⟨a, rest, ha, rfl, hf⟩
  · rintro ⟨a, rest, ha, rfl, hf⟩
    exact ⟨(a, rest), (hp _ _ _).mpr ⟨_, ⟨ha, rfl⟩, rfl⟩, hf⟩

private theorem pure_eq_some_iff {α : Type} {a : α} {input : Bytes} {out : α × Bytes} :
    (pure a : Parser UInt8 α) input = some out ↔ (a, input) = out := by
  rw [pure_apply, Option.some.injEq]

/-- What the parser of a type accepts is a well-formed payload of that type. -/
private theorem parsePayload_sound {t : MsgType} {input rest : Bytes} {m : Message Entries}
    (h : parsePayload t input = some (m, rest)) :
    (m.type = t ∧ m.Ok) ∧ input = payload m ++ rest := by
  cases t <;>
    simp only [parsePayload, bind_eq_some_iff exact_parseString,
      bind_eq_some_iff exact_parseI64, bind_eq_some_iff exact_parseI32,
      bind_eq_some_iff exact_parseEchoResults,
      pure_eq_some_iff, Prod.mk.injEq] at h
  case hello | bonjour | disconnect =>
    obtain ⟨s, _, hs, rfl, rfl, rfl⟩ := h
    exact ⟨⟨rfl, hs⟩, rfl⟩
  case ping | pong =>
    obtain ⟨v, _, hv, rfl, rfl, rfl⟩ := h
    exact ⟨⟨rfl, hv⟩, rfl⟩
  case randomNumber | timeNotification | hashResponse | error =>
    obtain ⟨x, _, hx, rfl, y, _, hy, rfl, rfl, rfl⟩ := h
    exact ⟨⟨rfl, hx, hy⟩, by simp [payload]⟩
  case echoRequest | kissResponse =>
    obtain ⟨x, _, hx, rfl, y, _, hy, rfl, z, _, hz, rfl, rfl, rfl⟩ := h
    exact ⟨⟨rfl, hx, hy, hz⟩, by simp [payload]⟩
  case kissRequest =>
    obtain ⟨n, _, hn, rfl, v, _, hv, rfl, r, _, hr, rfl, a, _, ha, rfl, rfl, rfl⟩ := h
    exact ⟨⟨rfl, hn, hv, hr, ha⟩, by simp [payload]⟩
  case echoResponse =>
    obtain ⟨s, _, hs, rfl, rs, _, ⟨hn, hrs⟩, rfl, rfl, rfl⟩ := h
    exact ⟨⟨rfl, hs, hn, hrs⟩, by simp [payload]⟩

/-- A well-formed payload is parsed back, whatever follows it. -/
private theorem parsePayload_complete {m : Message Entries} (hm : m.Ok) (rest : Bytes) :
    parsePayload m.type (payload m ++ rest) = some (m, rest) := by
  cases m <;>
    simp only [Message.type, parsePayload, bind_eq_some_iff exact_parseString,
      bind_eq_some_iff exact_parseI64, bind_eq_some_iff exact_parseI32,
      bind_eq_some_iff exact_parseEchoResults,
      pure_eq_some_iff, payload, List.append_assoc]
  case hello | bonjour | disconnect | ping | pong =>
    exact ⟨_, _, hm, rfl, rfl⟩
  case randomNumber | timeNotification | hashResponse | error =>
    obtain ⟨hx, hy⟩ := hm
    exact ⟨_, _, hx, rfl, _, _, hy, rfl, rfl⟩
  case echoRequest | kissResponse =>
    obtain ⟨hx, hy, hz⟩ := hm
    exact ⟨_, _, hx, rfl, _, _, hy, rfl, _, _, hz, rfl, rfl⟩
  case kissRequest =>
    obtain ⟨hn, hv, hr, ha⟩ := hm
    exact ⟨_, _, hn, rfl, _, _, hv, rfl, _, _, hr, rfl, _, _, ha, rfl, rfl⟩
  case echoResponse =>
    obtain ⟨hs, hn, hrs⟩ := hm
    exact ⟨_, _, hs, rfl, _, _, ⟨hn, hrs⟩, by simp, rfl⟩

/-- The parser of a type accepts the well-formed payloads of that type and no others. -/
theorem exact_parsePayload (t : MsgType) :
    Exact (parsePayload t) (fun m bs => (m.type = t ∧ m.Ok) ∧ bs = payload m) := by
  intro input m rest
  constructor
  · intro h
    obtain ⟨hm, rfl⟩ := parsePayload_sound h
    exact ⟨_, ⟨hm, rfl⟩, rfl⟩
  · rintro ⟨_, ⟨⟨rfl, hok⟩, rfl⟩, rfl⟩
    exact parsePayload_complete hok rest

end Payloads

section Frames

/-- The message a frame carries. Octets after the last field of a payload are not looked at. -/
def parseFrame : Bytes → Option (Message Entries)
  | 0x48 :: 0x01 :: type :: _ :: b4 :: b5 :: b6 :: b7 :: body =>
      if beNat [b4, b5, b6, b7] = body.length then
        (MsgType.ofCode? type).bind fun t => (parsePayload t body).map Prod.fst
      else none
  | _ => none

theorem parseFrame_eq_none_of_short {b : Bytes} (h : b.length < 8) : parseFrame b = none := by
  unfold parseFrame
  split
  · simp only [List.length_cons] at h
    omega
  · rfl

theorem parseFrame_cons (b0 b1 t f b4 b5 b6 b7 : UInt8) (body : Bytes) :
    parseFrame (b0 :: b1 :: t :: f :: b4 :: b5 :: b6 :: b7 :: body) =
      if b0 = 0x48 ∧ b1 = 0x01 ∧ beNat [b4, b5, b6, b7] = body.length then
        (MsgType.ofCode? t).bind fun t => (parsePayload t body).map Prod.fst
      else none := by
  by_cases h0 : b0 = 0x48
  · by_cases h1 : b1 = 0x01
    · subst h0 h1
      simp only [parseFrame, true_and]
    · rw [if_neg (fun h => h1 h.2.1)]
      unfold parseFrame
      split
      · next he =>
          cases he
          exact absurd rfl h1
      · rfl
  · rw [if_neg (fun h => h0 h.1)]
    unfold parseFrame
    split
    · next he =>
        cases he
        exact absurd rfl h0
    · rfl

/-- The frames of a message: any flags, and any surplus that the payload length counts. -/
def IsFrameOf (m : Message Entries) (b : Bytes) : Prop :=
  m.Ok ∧ ∃ flags surplus, b = envelope m.type.code flags (payload m ++ surplus) ∧
    (payload m ++ surplus).length < 2 ^ 32

theorem envelope_eq (type flags : UInt8) (body : Bytes) :
    ∃ b4 b5 b6 b7, envelope type flags body =
        0x48 :: 0x01 :: type :: flags :: b4 :: b5 :: b6 :: b7 :: body ∧
      beNat [b4, b5, b6, b7] = body.length % 2 ^ 32 := by
  refine ⟨_, _, _, _, rfl, ?_⟩
  exact beNat_beBytes 4 body.length

theorem parseFrame_envelope (type flags : UInt8) {body : Bytes} (hlen : body.length < 2 ^ 32) :
    parseFrame (envelope type flags body) =
      (MsgType.ofCode? type).bind fun t => (parsePayload t body).map Prod.fst := by
  obtain ⟨b4, b5, b6, b7, he, hn⟩ := envelope_eq type flags body
  rw [Nat.mod_eq_of_lt hlen] at hn
  rw [he, parseFrame, if_pos hn]

/-- What has the shape of a header with the right length is an envelope. -/
theorem eq_envelope (type flags : UInt8) {b4 b5 b6 b7 : UInt8} {body : Bytes}
    (hn : beNat [b4, b5, b6, b7] = body.length) :
    0x48 :: 0x01 :: type :: flags :: b4 :: b5 :: b6 :: b7 :: body = envelope type flags body ∧
      body.length < 2 ^ 32 := by
  have hlt : beNat [b4, b5, b6, b7] < 256 ^ 4 := beNat_lt _
  have hb := beBytes_beNat [b4, b5, b6, b7]
  constructor
  · rw [envelope, u32, ← hn]
    change _ = 0x48 :: 0x01 :: type :: flags :: (beBytes 4 (beNat [b4, b5, b6, b7]) ++ body)
    rw [show 4 = [b4, b5, b6, b7].length from rfl, hb]
    rfl
  · omega

/-- Three checks in a row, each with an exception of its own. -/
theorem checks_cases {ε α : Type} {bad : ε → Prop} {P Q R c₁ c₂ c₃ : Prop} [Decidable (P ∧ Q ∧ R)]
    [Decidable c₁] [Decidable c₂] [Decidable c₃] {e₁ e₂ e₃ : ε} {result : Except ε α} {a : α}
    (h₁ : c₁ ↔ ¬ P) (h₂ : c₂ ↔ ¬ Q) (h₃ : c₃ ↔ ¬ R) (hbad : bad e₁ ∧ bad e₂ ∧ bad e₃)
    (hresult : R → result = .ok a) {Shows : α → Prop} (ha : Shows a) :
    if P ∧ Q ∧ R then
      ∃ a, (if c₁ then .error e₁ else if c₂ then .error e₂ else if c₃ then .error e₃
        else result) = .ok a ∧ Shows a
    else ∃ e, (if c₁ then .error e₁ else if c₂ then .error e₂ else if c₃ then .error e₃
      else result) = .error e ∧ bad e := by
  by_cases hP : P
  · by_cases hQ : Q
    · by_cases hR : R
      · rw [if_pos ⟨hP, hQ, hR⟩, if_neg (fun h => h₁.mp h hP), if_neg (fun h => h₂.mp h hQ),
          if_neg (fun h => h₃.mp h hR)]
        exact ⟨a, hresult hR, ha⟩
      · rw [if_neg (fun h => hR h.2.2), if_neg (fun h => h₁.mp h hP),
          if_neg (fun h => h₂.mp h hQ), if_pos (h₃.mpr hR)]
        exact ⟨e₃, rfl, hbad.2.2⟩
    · rw [if_neg (fun h => hQ h.2.1), if_neg (fun h => h₁.mp h hP), if_pos (h₂.mpr hQ)]
      exact ⟨e₂, rfl, hbad.2.1⟩
  · rw [if_neg (fun h => hP h.1), if_pos (h₁.mpr hP)]
    exact ⟨e₁, rfl, hbad.1⟩

/-- A header check that looks at the magic, the version and the length, in whatever way, accepts
exactly the envelopes. -/
theorem header_cases {ε α : Type} {bad : ε → Prop} {result : Except ε α}
    {Shows : α → UInt8 → Bytes → Prop} (data : Bytes)
    (hshort : data.length < 8 → ∃ e, result = .error e ∧ bad e)
    (hlong : ∀ b0 b1 type flags b4 b5 b6 b7 body,
      data = b0 :: b1 :: type :: flags :: b4 :: b5 :: b6 :: b7 :: body →
      if b0 = 0x48 ∧ b1 = 0x01 ∧ beNat [b4, b5, b6, b7] = body.length then
        ∃ a, result = .ok a ∧ Shows a type body
      else ∃ e, result = .error e ∧ bad e) :
    (∃ type flags body, data = envelope type flags body ∧ body.length < 2 ^ 32 ∧
      ∃ a, result = .ok a ∧ Shows a type body) ∨
    (parseFrame data = none ∧ ∃ e, result = .error e ∧ bad e) := by
  rcases Nat.lt_or_ge data.length 8 with hlt | hge
  · exact Or.inr ⟨parseFrame_eq_none_of_short hlt, hshort hlt⟩
  · match data, hge with
    | b0 :: b1 :: type :: flags :: b4 :: b5 :: b6 :: b7 :: body, _ =>
        have hcheck := hlong _ _ _ _ _ _ _ _ _ rfl
        rw [parseFrame_cons]
        by_cases hok : b0 = 0x48 ∧ b1 = 0x01 ∧ beNat [b4, b5, b6, b7] = body.length
        · rw [if_pos hok] at hcheck
          obtain ⟨rfl, rfl, hn⟩ := hok
          obtain ⟨he, hlt⟩ := eq_envelope type flags hn
          exact Or.inl ⟨type, flags, body, he, hlt, hcheck⟩
        · rw [if_neg hok] at hcheck ⊢
          exact Or.inr ⟨rfl, hcheck⟩

/-- A frame is parsed to a message exactly when it is a frame of that message. -/
theorem parseFrame_eq_some_iff {b : Bytes} {m : Message Entries} :
    parseFrame b = some m ↔ IsFrameOf m b := by
  constructor
  · intro h
    unfold parseFrame at h
    split at h
    · next type flags b4 b5 b6 b7 body =>
        split at h
        · next hn =>
            obtain ⟨he, hlt⟩ := eq_envelope type flags hn
            rw [Option.bind_eq_some_iff] at h
            obtain ⟨t, ht, hp⟩ := h
            rw [Option.map_eq_some_iff] at hp
            obtain ⟨⟨m', surplus⟩, hp, rfl⟩ := hp
            obtain ⟨_, ⟨⟨rfl, hok⟩, rfl⟩, rfl⟩ := (exact_parsePayload t _ _ _).mp hp
            rw [he, ← MsgType.ofCode?_eq_some_iff.mp ht]
            exact ⟨hok, flags, surplus, rfl, hlt⟩
        · cases h
    · cases h
  · rintro ⟨hok, flags, surplus, rfl, hlt⟩
    have hp : parsePayload m.type (payload m ++ surplus) = some (m, surplus) :=
      (exact_parsePayload _ _ _ _).mpr ⟨_, ⟨⟨rfl, hok⟩, rfl⟩, rfl⟩
    rw [parseFrame_envelope _ _ hlt, MsgType.ofCode?_code, Option.bind_some, hp]
    rfl

end Frames

end HelloWebsocket.Protocol
