import HelloWebsocket.Wire.Position
import HelloWebsocket.Wire.Writer
import HelloWebsocket.Protocol.Session

/-!
# Messages as a tagged union

The Node.js, TypeScript, Python and Rust codecs have one kind of value for each
type of message. The union and the `switch`es that read and write it are written
once here, over the language's own types and its own methods.

## Implementation notes

The type parameters are the string type, the types of 64-bit and 32-bit numbers
and the type of an echo result. A decoder may change the strings it reads and the
results it collects, so what a reader returns is compared with the grammar up to
two functions. The header check is the same in all these codecs but for the errors.
-/

namespace HelloWebsocket.Protocol

open BigEndian Parsing Writing

/-- One value for each type of message, with the fields of that type. -/
inductive Tagged (σ ι ν ρ : Type)
  | hello (clientLanguage : σ)
  | bonjour (serverLanguage : σ)
  | echoRequest (id : ι) (tag data : σ)
  | echoResponse (status : ν) (results : List ρ)
  | kissRequest (osName osVersion osRelease osArchitecture : σ)
  | kissResponse (language encoding timeZone : σ)
  | ping (timestampMs : ι)
  | pong (timestampMs : ι)
  | timeNotification (timestampMs : ι) (iso8601 : σ)
  | randomNumber (id number : ι)
  | hashResponse (id : ι) (hashHex : σ)
  | disconnect (reason : σ)
  | error (code : ν) (message : σ)
  deriving DecidableEq, Repr

/-- What the values of a language stand for. -/
structure Reading (σ ι ν ρ κ : Type) where
  text : σ → Bytes
  long : ι → Int
  int : ν → Int
  result : ρ → EchoResult κ

variable {σ ι ν ρ κ κ' : Type}

namespace Tagged

def type : Tagged σ ι ν ρ → MsgType
  | hello .. => .hello
  | bonjour .. => .bonjour
  | echoRequest .. => .echoRequest
  | echoResponse .. => .echoResponse
  | kissRequest .. => .kissRequest
  | kissResponse .. => .kissResponse
  | ping .. => .ping
  | pong .. => .pong
  | timeNotification .. => .timeNotification
  | randomNumber .. => .randomNumber
  | hashResponse .. => .hashResponse
  | disconnect .. => .disconnect
  | error .. => .error

/-- What a message says. -/
def view (V : Reading σ ι ν ρ κ) : Tagged σ ι ν ρ → Message κ
  | hello l => .hello (V.text l)
  | bonjour l => .bonjour (V.text l)
  | echoRequest i t d => .echoRequest (V.long i) (V.text t) (V.text d)
  | echoResponse s rs => .echoResponse (V.int s) (rs.map V.result)
  | kissRequest n v r a => .kissRequest (V.text n) (V.text v) (V.text r) (V.text a)
  | kissResponse l e z => .kissResponse (V.text l) (V.text e) (V.text z)
  | ping t => .ping (V.long t)
  | pong t => .pong (V.long t)
  | timeNotification t i => .timeNotification (V.long t) (V.text i)
  | randomNumber i n => .randomNumber (V.long i) (V.long n)
  | hashResponse i h => .hashResponse (V.long i) (V.text h)
  | disconnect r => .disconnect (V.text r)
  | error c m => .error (V.int c) (V.text m)

@[simp] theorem type_view (V : Reading σ ι ν ρ κ) (m : Tagged σ ι ν ρ) : (m.view V).type = m.type := by
  cases m <;> rfl

end Tagged

/-- Replace the strings outside the results. -/
def Message.mapTexts (f : Bytes → Bytes) : Message κ → Message κ
  | hello l => hello (f l)
  | bonjour l => bonjour (f l)
  | echoRequest i t d => echoRequest i (f t) (f d)
  | echoResponse s rs => echoResponse s rs
  | kissRequest n v r a => kissRequest (f n) (f v) (f r) (f a)
  | kissResponse l e z => kissResponse (f l) (f e) (f z)
  | ping t => ping t
  | pong t => pong t
  | timeNotification t i => timeNotification t (f i)
  | randomNumber i n => randomNumber i n
  | hashResponse i h => hashResponse i (f h)
  | disconnect r => disconnect (f r)
  | error c m => error c (f m)

@[simp] theorem Message.type_mapTexts (f : Bytes → Bytes) (m : Message κ) :
    (m.mapTexts f).type = m.type := by
  cases m <;> rfl

@[simp] theorem Message.mapTexts_id (m : Message κ) : m.mapTexts id = m := by
  cases m <;> rfl

section Reading

/-- The methods of a reader class that the decoder calls. -/
structure TaggedReaders (μ : Type → Type) (σ ι ν ρ : Type) where
  readString : μ σ
  readI64 : μ ι
  readI32 : μ ν
  readEchoResults : μ (List ρ)

/-- The `switch` of the decoder on a registered type. -/
def readTagged {μ : Type → Type} [Monad μ] (R : TaggedReaders μ σ ι ν ρ) :
    MsgType → μ (Tagged σ ι ν ρ)
  | .hello => do
      let clientLanguage ← R.readString
      pure (.hello clientLanguage)
  | .bonjour => do
      let serverLanguage ← R.readString
      pure (.bonjour serverLanguage)
  | .echoRequest => do
      let id ← R.readI64
      let tag ← R.readString
      let data ← R.readString
      pure (.echoRequest id tag data)
  | .echoResponse => do
      let status ← R.readI32
      let results ← R.readEchoResults
      pure (.echoResponse status results)
  | .kissRequest => do
      let osName ← R.readString
      let osVersion ← R.readString
      let osRelease ← R.readString
      let osArchitecture ← R.readString
      pure (.kissRequest osName osVersion osRelease osArchitecture)
  | .kissResponse => do
      let language ← R.readString
      let encoding ← R.readString
      let timeZone ← R.readString
      pure (.kissResponse language encoding timeZone)
  | .ping => do
      let timestampMs ← R.readI64
      pure (.ping timestampMs)
  | .pong => do
      let timestampMs ← R.readI64
      pure (.pong timestampMs)
  | .timeNotification => do
      let timestampMs ← R.readI64
      let iso8601 ← R.readString
      pure (.timeNotification timestampMs iso8601)
  | .randomNumber => do
      let id ← R.readI64
      let number ← R.readI64
      pure (.randomNumber id number)
  | .hashResponse => do
      let id ← R.readI64
      let hashHex ← R.readString
      pure (.hashResponse id hashHex)
  | .disconnect => do
      let reason ← R.readString
      pure (.disconnect reason)
  | .error => do
      let code ← R.readI32
      let message ← R.readString
      pure (.error code message)

variable {ε ς : Type} {C : Cursor ε ς UInt8} {R : TaggedReaders (EStateM ε ς) σ ι ν ρ}
  {V : Reading σ ι ν ρ κ} {f : Bytes → Bytes} {shape : EchoResult Entries → EchoResult κ}

/-- The methods of the reader read what the grammar of their primitives says. -/
structure TaggedReaders.Sound (C : Cursor ε ς UInt8) (R : TaggedReaders (EStateM ε ς) σ ι ν ρ)
    (V : Reading σ ι ν ρ κ) (f : Bytes → Bytes) (shape : EchoResult Entries → EchoResult κ) :
    Prop where
  readString : Refines C (fun s b => V.text s = f b) R.readString parseString
  readI64 : Refines C (fun v n => V.long v = n) R.readI64 parseI64
  readI32 : Refines C (fun v n => V.int v = n) R.readI32 parseI32
  readEchoResults : Refines C (fun rs bs => rs.map V.result = bs.map shape) R.readEchoResults
    parseEchoResults

/-- The `switch` of the decoder reads the payload grammar of the type. -/
theorem refines_readTagged (hR : R.Sound C V f shape) (t : MsgType) :
    Refines C (fun m p => m.view V = (p.mapTexts f).mapResults shape) (readTagged R t)
      (parsePayload t) := by
  cases t with
  | hello | bonjour | disconnect =>
      refine refines_map hR.readString fun s b hs => ?_
      simp only [Tagged.view, Message.mapTexts, Message.mapResults, hs]
  | echoRequest =>
      refine refines_bind hR.readI64 fun i i' hi => ?_
      refine refines_bind hR.readString fun t t' ht => ?_
      refine refines_map hR.readString fun d d' hd => ?_
      simp only [Tagged.view, Message.mapTexts, Message.mapResults, hi, ht, hd]
  | echoResponse =>
      refine refines_bind hR.readI32 fun s s' hs => ?_
      refine refines_map hR.readEchoResults fun rs rs' hrs => ?_
      simp only [Tagged.view, Message.mapTexts, Message.mapResults, hs, hrs]
  | kissRequest =>
      refine refines_bind hR.readString fun n n' hn => ?_
      refine refines_bind hR.readString fun v v' hv => ?_
      refine refines_bind hR.readString fun r r' hr => ?_
      refine refines_map hR.readString fun a a' ha => ?_
      simp only [Tagged.view, Message.mapTexts, Message.mapResults, hn, hv, hr, ha]
  | kissResponse =>
      refine refines_bind hR.readString fun l l' hl => ?_
      refine refines_bind hR.readString fun e e' he => ?_
      refine refines_map hR.readString fun z z' hz => ?_
      simp only [Tagged.view, Message.mapTexts, Message.mapResults, hl, he, hz]
  | ping | pong =>
      refine refines_map hR.readI64 fun t t' ht => ?_
      simp only [Tagged.view, Message.mapTexts, Message.mapResults, ht]
  | timeNotification | hashResponse =>
      refine refines_bind hR.readI64 fun t t' ht => ?_
      refine refines_map hR.readString fun s s' hs => ?_
      simp only [Tagged.view, Message.mapTexts, Message.mapResults, ht, hs]
  | randomNumber =>
      refine refines_bind hR.readI64 fun i i' hi => ?_
      refine refines_map hR.readI64 fun n n' hn => ?_
      simp only [Tagged.view, Message.mapTexts, Message.mapResults, hi, hn]
  | error =>
      refine refines_bind hR.readI32 fun c c' hc => ?_
      refine refines_map hR.readString fun s s' hs => ?_
      simp only [Tagged.view, Message.mapTexts, Message.mapResults, hc, hs]

/-- The whole `switch`: a registered type is read from a fresh reader, any other type throws. -/
def decodeTagged (R : TaggedReaders (EStateM ε ς) σ ι ν ρ) (reader : ς) (unknown : ε) :
    Option MsgType → Except ε (Tagged σ ι ν ρ)
  | some t =>
      match readTagged R t reader with
      | .ok m _ => .ok m
      | .error e _ => .error e
  | none => .error unknown

/-- On a payload, the `switch` returns what the grammar of the type says and throws on the
rest. -/
theorem decodeTagged_some (hR : R.Sound C V f shape) {reader : ς} {body : Bytes}
    (hbody : C.stands reader body) (unknown : ε) (t : MsgType) :
    match parsePayload t body with
    | some (p, _) => ∃ m, decodeTagged R reader unknown (some t) = .ok m ∧
        m.view V = (p.mapTexts f).mapResults shape
    | none => ∃ e s, decodeTagged R reader unknown (some t) = .error e ∧ C.failed e s := by
  have hread := refines_readTagged hR t reader body hbody
  cases hp : parsePayload t body with
  | none =>
      obtain ⟨e, s, he, hfail⟩ := (refinesAt_none hp).mp hread
      exact ⟨e, s, by rw [decodeTagged, he], hfail⟩
  | some out =>
      obtain ⟨m, s, hm, hview, -⟩ := (refinesAt_some hp).mp hread
      exact ⟨m, by rw [decodeTagged, hm], hview⟩

end Reading

section Frames

/-- The errors of a header check. -/
structure HeaderErrors (ε : Type) where
  short : Nat → ε
  magic : UInt8 → ε
  version : UInt8 → ε
  length : Nat → Nat → ε

variable {ε : Type}

/-- The type and the payload of a frame, after the checks of its size, its first two octets and
its length field. -/
def decodeHeader (E : HeaderErrors ε) : Bytes → Except ε (UInt8 × Bytes)
  | b0 :: b1 :: msgType :: _ :: b4 :: b5 :: b6 :: b7 :: payload =>
      if b0 ≠ 0x48 then .error (E.magic b0)
      else if b1 ≠ 0x01 then .error (E.version b1)
      else if beNat [b4, b5, b6, b7] ≠ payload.length then
        .error (E.length (beNat [b4, b5, b6, b7]) payload.length)
      else .ok (msgType, payload)
  | data => .error (E.short data.length)

/-- The header check and then the `switch` over the type, on a new reader for the payload. -/
def decodeWith (E : HeaderErrors ε) (R : TaggedReaders (EStateM ε Positions.Reader) σ ι ν ρ)
    (unknown : UInt8 → ε) (data : Bytes) : Except ε (Tagged σ ι ν ρ) := do
  let (msgType, payload) ← decodeHeader E data
  decodeTagged R ⟨payload, 0⟩ (unknown msgType) (MsgType.ofCode? msgType)

variable {E : HeaderErrors ε} {R : TaggedReaders (EStateM ε Positions.Reader) σ ι ν ρ}
  {unknown : UInt8 → ε} {V : Reading σ ι ν ρ κ} {f : Bytes → Bytes}
  {shape : EchoResult Entries → EchoResult κ} {bad : ε → Prop}

theorem decodeHeader_of_short {data : Bytes} (h : data.length < 8) :
    decodeHeader E data = .error (E.short data.length) := by
  unfold decodeHeader
  split
  · simp only [List.length_cons] at h
    omega
  · rfl

theorem decodeWith_envelope (type flags : UInt8) {body : Bytes} (hlen : body.length < 2 ^ 32) :
    decodeWith E R unknown (envelope type flags body) =
      decodeTagged R ⟨body, 0⟩ (unknown type) (MsgType.ofCode? type) := by
  obtain ⟨b4, b5, b6, b7, he, hn⟩ := envelope_eq type flags body
  rw [Nat.mod_eq_of_lt hlen] at hn
  have hheader : decodeHeader E (envelope type flags body) = .ok (type, body) := by
    rw [he, decodeHeader, if_neg (by decide), if_neg (by decide), if_neg (not_not.mpr hn)]
  rw [decodeWith, hheader]
  rfl

/-- The error by which a decoder reports a failed check. -/
def Reports (E : HeaderErrors ε) (unknown : UInt8 → ε) (bad : ε → Prop) (e : ε) :
    ErrorCode → Prop
  | .decode => bad e
  | .unknownMessageType => ∃ b, e = unknown b
  | .truncatedPayload => (∃ n, e = E.short n) ∨ ∃ n m, e = E.length n m
  | .badMagic => ∃ b, e = E.magic b
  | .badVersion => ∃ b, e = E.version b

/-- The error by which a decoder reports a failed check, with the numbers that it names. -/
def ReportsWithin (E : HeaderErrors ε) (unknown : UInt8 → ε) (bad : ε → Prop) (limit : Nat) (e : ε) :
    ErrorCode → Prop
  | .truncatedPayload => (∃ n < 8, e = E.short n) ∨ ∃ n < 2 ^ 32, ∃ m ≤ limit, e = E.length n m
  | c => Reports E unknown bad e c

theorem ReportsWithin.reports {E : HeaderErrors ε} {unknown : UInt8 → ε} {limit : Nat} {e : ε}
    {c : ErrorCode} (h : ReportsWithin E unknown bad limit e c) : Reports E unknown bad e c := by
  cases c with
  | truncatedPayload =>
      obtain ⟨n, -, he⟩ | ⟨n, -, m, -, he⟩ := h
      · exact .inl ⟨n, he⟩
      · exact .inr ⟨n, m, he⟩
  | _ => exact h

/-- The decoder returns what the octets carry, or reports the first check that they fail. Its reader
is only used on octets that follow a header. -/
theorem decodeWith_eq_within (E : HeaderErrors ε) (unknown : UInt8 → ε) (data : Bytes)
    (hR : ∀ body, body.length ≤ data.length → R.Sound (Positions.cursor body bad) V f shape) :
    match examine data with
    | .ok p => ∃ m, decodeWith E R unknown data = .ok m ∧
        m.view V = (p.mapTexts f).mapResults shape
    | .error c => ∃ e, decodeWith E R unknown data = .error e ∧
        ReportsWithin E unknown bad data.length e c := by
  revert hR
  refine examine_cases (Q := fun data out =>
    (∀ body, body.length ≤ data.length → R.Sound (Positions.cursor body bad) V f shape) →
    match out with
    | .ok p => ∃ m, decodeWith E R unknown data = .ok m ∧
        m.view V = (p.mapTexts f).mapResults shape
    | .error c => ∃ e, decodeWith E R unknown data = .error e ∧
        ReportsWithin E unknown bad data.length e c) ?_ ?_ ?_ ?_ ?_ data
  · intro data hlt _
    exact ⟨_, by rw [decodeWith, decodeHeader_of_short hlt]; rfl, .inl ⟨_, hlt, rfl⟩⟩
  · intro b0 b1 type flags b4 b5 b6 b7 body h0 _
    simp only [decodeWith, decodeHeader, h0, ne_eq, not_false_eq_true, if_true]
    exact ⟨_, rfl, _, rfl⟩
  · intro b1 type flags b4 b5 b6 b7 body h1 _
    simp only [decodeWith, decodeHeader, h1, ne_eq, not_true_eq_false, if_false, not_false_eq_true,
      if_true]
    exact ⟨_, rfl, _, rfl⟩
  · intro type flags b4 b5 b6 b7 body hn _
    simp only [decodeWith, decodeHeader, hn, ne_eq, not_true_eq_false, if_false, not_false_eq_true,
      if_true]
    have hdeclared : beNat [b4, b5, b6, b7] < 2 ^ 32 :=
      (beNat_lt [b4, b5, b6, b7]).trans_eq (show 256 ^ 4 = 2 ^ 32 by decide)
    have hbody : body.length ≤ (0x48 :: 0x01 :: type :: flags :: b4 :: b5 :: b6 :: b7 :: body).length := by
      simp only [List.length_cons]
      omega
    exact ⟨_, rfl, .inr ⟨_, hdeclared, _, hbody, rfl⟩⟩
  · intro type flags b4 b5 b6 b7 body hn hlen hR
    obtain ⟨he, -⟩ := eq_envelope type flags hn
    have hbody := hR body (by simp only [List.length_cons]; omega)
    rw [he, decodeWith_envelope type flags hlen]
    cases htype : MsgType.ofCode? type with
    | none => exact ⟨_, rfl, type, rfl⟩
    | some t =>
        have hsome := decodeTagged_some hbody (Positions.stands_zero body) (unknown type) t
        cases hp : parsePayload t body with
        | none =>
            simp only [hp] at hsome ⊢
            obtain ⟨e, _, he, hbad⟩ := hsome
            exact ⟨e, he, hbad⟩
        | some out =>
            simp only [hp] at hsome ⊢
            exact hsome

theorem decodeWith_eq (E : HeaderErrors ε) (unknown : UInt8 → ε)
    (hR : ∀ data, R.Sound (Positions.cursor data bad) V f shape) (data : Bytes) :
    match examine data with
    | .ok p => ∃ m, decodeWith E R unknown data = .ok m ∧
        m.view V = (p.mapTexts f).mapResults shape
    | .error c => ∃ e, decodeWith E R unknown data = .error e ∧ Reports E unknown bad e c := by
  have hspec := decodeWith_eq_within E unknown data fun body _ => hR body
  cases h : examine data with
  | ok p =>
      rw [h] at hspec
      exact hspec
  | error c =>
      rw [h] at hspec
      obtain ⟨e, he, hreports⟩ := hspec
      exact ⟨e, he, hreports.reports⟩

end Frames

section Writing

/-- The methods of a writer class that the encoder calls. -/
structure TaggedWriters (μ : Type → Type) (σ ι ν ρ : Type) where
  writeString : σ → μ Unit
  writeI64 : ι → μ Unit
  writeI32 : ν → μ Unit
  writeEchoResults : List ρ → μ Unit

/-- The `switch` of the encoder. -/
def writeTagged {μ : Type → Type} [Monad μ] (W : TaggedWriters μ σ ι ν ρ) :
    Tagged σ ι ν ρ → μ Unit
  | .hello clientLanguage => W.writeString clientLanguage
  | .bonjour serverLanguage => W.writeString serverLanguage
  | .echoRequest id tag data => do
      W.writeI64 id
      W.writeString tag
      W.writeString data
  | .echoResponse status results => do
      W.writeI32 status
      W.writeEchoResults results
  | .kissRequest osName osVersion osRelease osArchitecture => do
      W.writeString osName
      W.writeString osVersion
      W.writeString osRelease
      W.writeString osArchitecture
  | .kissResponse language encoding timeZone => do
      W.writeString language
      W.writeString encoding
      W.writeString timeZone
  | .ping timestampMs => W.writeI64 timestampMs
  | .pong timestampMs => W.writeI64 timestampMs
  | .timeNotification timestampMs iso8601 => do
      W.writeI64 timestampMs
      W.writeString iso8601
  | .randomNumber id number => do
      W.writeI64 id
      W.writeI64 number
  | .hashResponse id hashHex => do
      W.writeI64 id
      W.writeString hashHex
  | .disconnect reason => W.writeString reason
  | .error code message => do
      W.writeI32 code
      W.writeString message

variable {ε ς : Type} {S : Sink ς} {W : TaggedWriters (EStateM ε ς) σ ι ν ρ}
  {V : Reading σ ι ν ρ Entries}

/-- The methods of the writer write the encodings of what their arguments stand for. -/
structure TaggedWriters.Sound (S : Sink ς) (W : TaggedWriters (EStateM ε ς) σ ι ν ρ)
    (V : Reading σ ι ν ρ Entries) : Prop where
  writeString : ∀ s, Writes S (W.writeString s) (string (V.text s))
  writeI64 : ∀ v, Writes S (W.writeI64 v) (i64 (V.long v))
  writeI32 : ∀ v, Writes S (W.writeI32 v) (i32 (V.int v))
  writeEchoResults : ∀ rs, Writes S (W.writeEchoResults rs)
    (u32 rs.length ++ (rs.map V.result).flatMap echoResult)

/-- The `switch` of the encoder writes the payload of the message. -/
theorem writes_writeTagged (hW : W.Sound S V) (m : Tagged σ ι ν ρ) :
    Writes S (writeTagged W m) (payload (m.view V)) := by
  cases m with
  | hello s | bonjour s | disconnect s => exact hW.writeString s
  | ping t | pong t => exact hW.writeI64 t
  | randomNumber i n => exact writes_bind (hW.writeI64 i) (hW.writeI64 n)
  | echoRequest i t d =>
      rw [Tagged.view, payload, List.append_assoc]
      exact writes_bind (hW.writeI64 i) (writes_bind (hW.writeString t) (hW.writeString d))
  | echoResponse s rs =>
      rw [Tagged.view, payload, List.append_assoc, List.length_map]
      exact writes_bind (hW.writeI32 s) (hW.writeEchoResults rs)
  | kissRequest n v r a =>
      rw [Tagged.view, payload, List.append_assoc, List.append_assoc]
      exact writes_bind (hW.writeString n) (writes_bind (hW.writeString v)
        (writes_bind (hW.writeString r) (hW.writeString a)))
  | kissResponse l e z =>
      rw [Tagged.view, payload, List.append_assoc]
      exact writes_bind (hW.writeString l) (writes_bind (hW.writeString e) (hW.writeString z))
  | timeNotification t s | hashResponse t s =>
      exact writes_bind (hW.writeI64 t) (hW.writeString s)
  | error c s => exact writes_bind (hW.writeI32 c) (hW.writeString s)

end Writing

end HelloWebsocket.Protocol
