import HelloWebsocket.Wire.Writer
import HelloWebsocket.Protocol.Grammar

/-!
# The message record of the class-based codecs

The C++, Java and Kotlin codecs keep all messages in one class with the fields
of every type, and their encoders and decoders are one `switch` over the type.
The record and the two `switch`es are written once here, over the language's
own types and its own reading and writing methods.

## Implementation notes

The three classes have the same field names. The type parameters are the type
byte, the string type and the type of the result list.
-/

namespace HelloWebsocket.Protocol

open Parsing Writing

/-- The fields of class `Message`. -/
structure Record (β σ ρ : Type) where
  type : β
  clientLanguage : σ
  serverLanguage : σ
  echoId : Int64
  echoMeta : σ
  echoData : σ
  echoStatus : Int32
  echoResults : ρ
  osName : σ
  osVersion : σ
  osRelease : σ
  osArch : σ
  kissLanguage : σ
  kissEncoding : σ
  kissTimeZone : σ
  timestampMs : Int64
  iso8601 : σ
  randomId : Int64
  randomNumber : Int64
  hashHex : σ
  disconnectReason : σ
  errorCode : Int32
  errorMessage : σ
  deriving DecidableEq

variable {β σ ρ κ : Type}

namespace Record

/-- A new record: numbers are zero, strings and results have the language's initial value. -/
def init (type : β) (text : σ) (results : ρ) : Record β σ ρ where
  type := type
  clientLanguage := text
  serverLanguage := text
  echoId := 0
  echoMeta := text
  echoData := text
  echoStatus := 0
  echoResults := results
  osName := text
  osVersion := text
  osRelease := text
  osArch := text
  kissLanguage := text
  kissEncoding := text
  kissTimeZone := text
  timestampMs := 0
  iso8601 := text
  randomId := 0
  randomNumber := 0
  hashHex := text
  disconnectReason := text
  errorCode := 0
  errorMessage := text

/-- The fields that belong to a type, for a reading of strings and results that fails on
values which stand for none. -/
def fields (text : σ → Option Bytes) (results : ρ → Option (List (EchoResult κ)))
    (m : Record β σ ρ) : MsgType → Option (Message κ)
  | .hello => do
      let language ← text m.clientLanguage
      pure (.hello language)
  | .bonjour => do
      let language ← text m.serverLanguage
      pure (.bonjour language)
  | .echoRequest => do
      let tag ← text m.echoMeta
      let data ← text m.echoData
      pure (.echoRequest m.echoId.toInt tag data)
  | .echoResponse => do
      let rs ← results m.echoResults
      pure (.echoResponse m.echoStatus.toInt rs)
  | .kissRequest => do
      let name ← text m.osName
      let version ← text m.osVersion
      let release ← text m.osRelease
      let arch ← text m.osArch
      pure (.kissRequest name version release arch)
  | .kissResponse => do
      let language ← text m.kissLanguage
      let encoding ← text m.kissEncoding
      let zone ← text m.kissTimeZone
      pure (.kissResponse language encoding zone)
  | .ping => pure (.ping m.timestampMs.toInt)
  | .pong => pure (.pong m.timestampMs.toInt)
  | .timeNotification => do
      let iso ← text m.iso8601
      pure (.timeNotification m.timestampMs.toInt iso)
  | .randomNumber => pure (.randomNumber m.randomId.toInt m.randomNumber.toInt)
  | .hashResponse => do
      let hash ← text m.hashHex
      pure (.hashResponse m.randomId.toInt hash)
  | .disconnect => do
      let reason ← text m.disconnectReason
      pure (.disconnect reason)
  | .error => do
      let message ← text m.errorMessage
      pure (.error m.errorCode.toInt message)

theorem type_of_fields {text : σ → Option Bytes} {results : ρ → Option (List (EchoResult κ))}
    {m : Record β σ ρ} {t : MsgType} {p : Message κ} (h : m.fields text results t = some p) :
    p.type = t := by
  cases t <;>
    simp only [fields, Option.bind_eq_bind, Option.bind_eq_some_iff, Option.pure_def,
      Option.some.injEq] at h
  case ping | pong | randomNumber =>
    rw [← h]
    rfl
  case hello | bonjour | echoResponse | timeNotification | hashResponse | disconnect | error =>
    obtain ⟨_, -, rfl⟩ := h
    rfl
  case echoRequest =>
    obtain ⟨_, -, _, -, rfl⟩ := h
    rfl
  case kissRequest =>
    obtain ⟨_, -, _, -, _, -, _, -, rfl⟩ := h
    rfl
  case kissResponse =>
    obtain ⟨_, -, _, -, _, -, rfl⟩ := h
    rfl

end Record

section Reading

/-- The methods of a reader class that the decoder calls. -/
structure FieldReaders (μ : Type → Type) (σ ρ : Type) where
  readString : μ σ
  readI64 : μ Int64
  readI32 : μ Int32
  readEchoResults : μ ρ

variable {μ : Type → Type} [Monad μ]

/-- The `switch` of `decodeMessage`, which fills in the fields of the type. -/
def readFields (R : FieldReaders μ σ ρ) (m : Record β σ ρ) : MsgType → μ (Record β σ ρ)
  | .hello => do
      let clientLanguage ← R.readString
      pure { m with clientLanguage }
  | .bonjour => do
      let serverLanguage ← R.readString
      pure { m with serverLanguage }
  | .echoRequest => do
      let echoId ← R.readI64
      let echoMeta ← R.readString
      let echoData ← R.readString
      pure { m with echoId, echoMeta, echoData }
  | .echoResponse => do
      let echoStatus ← R.readI32
      let echoResults ← R.readEchoResults
      pure { m with echoStatus, echoResults }
  | .kissRequest => do
      let osName ← R.readString
      let osVersion ← R.readString
      let osRelease ← R.readString
      let osArch ← R.readString
      pure { m with osName, osVersion, osRelease, osArch }
  | .kissResponse => do
      let kissLanguage ← R.readString
      let kissEncoding ← R.readString
      let kissTimeZone ← R.readString
      pure { m with kissLanguage, kissEncoding, kissTimeZone }
  | .ping => do
      let timestampMs ← R.readI64
      pure { m with timestampMs }
  | .pong => do
      let timestampMs ← R.readI64
      pure { m with timestampMs }
  | .timeNotification => do
      let timestampMs ← R.readI64
      let iso8601 ← R.readString
      pure { m with timestampMs, iso8601 }
  | .randomNumber => do
      let randomId ← R.readI64
      let randomNumber ← R.readI64
      pure { m with randomId, randomNumber }
  | .hashResponse => do
      let randomId ← R.readI64
      let hashHex ← R.readString
      pure { m with randomId, hashHex }
  | .disconnect => do
      let disconnectReason ← R.readString
      pure { m with disconnectReason }
  | .error => do
      let errorCode ← R.readI32
      let errorMessage ← R.readString
      pure { m with errorCode, errorMessage }

variable {ε ς : Type} {C : Cursor ε ς UInt8} {R : FieldReaders (EStateM ε ς) σ ρ}
  {text : σ → Option Bytes} {results : ρ → Option (List (EchoResult κ))}
  {shape : EchoResult Entries → EchoResult κ}

/-- The methods of the reader read what the grammar of their primitives says. -/
structure FieldReaders.Sound (C : Cursor ε ς UInt8) (R : FieldReaders (EStateM ε ς) σ ρ)
    (text : σ → Option Bytes) (results : ρ → Option (List (EchoResult κ)))
    (shape : EchoResult Entries → EchoResult κ) : Prop where
  readString : Refines C (fun s b => text s = some b) R.readString parseString
  readI64 : Refines C (fun v n => v.toInt = n) R.readI64 parseI64
  readI32 : Refines C (fun v n => v.toInt = n) R.readI32 parseI32
  readEchoResults : Refines C (fun rs bs => results rs = some (bs.map shape)) R.readEchoResults
    parseEchoResults

/-- The `switch` of the decoder reads the payload grammar of the type. -/
theorem refines_readFields (hR : R.Sound C text results shape) (m : Record β σ ρ) (t : MsgType) :
    Refines C (fun m' p => m'.type = m.type ∧ m'.fields text results t =
      some (p.mapResults shape)) (readFields R m t) (parsePayload t) := by
  cases t with
  | hello | bonjour | disconnect =>
      refine refines_map hR.readString fun s b hs => ⟨rfl, ?_⟩
      simp [Record.fields, Message.mapResults, hs]
  | echoRequest =>
      refine refines_bind hR.readI64 fun i i' hi => ?_
      refine refines_bind hR.readString fun t t' ht => ?_
      refine refines_map hR.readString fun d d' hd => ⟨rfl, ?_⟩
      simp [Record.fields, Message.mapResults, hi, ht, hd]
  | echoResponse =>
      refine refines_bind hR.readI32 fun s s' hs => ?_
      refine refines_map hR.readEchoResults fun rs rs' hrs => ⟨rfl, ?_⟩
      simp [Record.fields, Message.mapResults, hs, hrs]
  | kissRequest =>
      refine refines_bind hR.readString fun n n' hn => ?_
      refine refines_bind hR.readString fun v v' hv => ?_
      refine refines_bind hR.readString fun r r' hr => ?_
      refine refines_map hR.readString fun a a' ha => ⟨rfl, ?_⟩
      simp [Record.fields, Message.mapResults, hn, hv, hr, ha]
  | kissResponse =>
      refine refines_bind hR.readString fun l l' hl => ?_
      refine refines_bind hR.readString fun e e' he => ?_
      refine refines_map hR.readString fun z z' hz => ⟨rfl, ?_⟩
      simp [Record.fields, Message.mapResults, hl, he, hz]
  | ping | pong =>
      refine refines_map hR.readI64 fun t t' ht => ⟨rfl, ?_⟩
      simp [Record.fields, Message.mapResults, ht]
  | timeNotification | hashResponse =>
      refine refines_bind hR.readI64 fun t t' ht => ?_
      refine refines_map hR.readString fun s s' hs => ⟨rfl, ?_⟩
      simp [Record.fields, Message.mapResults, ht, hs]
  | randomNumber =>
      refine refines_bind hR.readI64 fun i i' hi => ?_
      refine refines_map hR.readI64 fun n n' hn => ⟨rfl, ?_⟩
      simp [Record.fields, Message.mapResults, hi, hn]
  | error =>
      refine refines_bind hR.readI32 fun c c' hc => ?_
      refine refines_map hR.readString fun s s' hs => ⟨rfl, ?_⟩
      simp [Record.fields, Message.mapResults, hc, hs]

/-- The `switch` of the decoder throws what the methods of the reader throw. -/
theorem throws_readFields {E : ε → Prop} (hstring : Throws E R.readString)
    (hi64 : Throws E R.readI64) (hi32 : Throws E R.readI32) (hresults : Throws E R.readEchoResults)
    (m : Record β σ ρ) (t : MsgType) : Throws E (readFields R m t) := by
  have hpure : ∀ m' : Record β σ ρ, Throws E (pure m' : EStateM ε ς _) := throws_pure
  cases t with
  | hello | bonjour | disconnect => exact throws_bind hstring fun _ => hpure _
  | echoRequest =>
      exact throws_bind hi64 fun _ => throws_bind hstring fun _ => throws_bind hstring fun _ => hpure _
  | echoResponse => exact throws_bind hi32 fun _ => throws_bind hresults fun _ => hpure _
  | kissRequest =>
      exact throws_bind hstring fun _ => throws_bind hstring fun _ => throws_bind hstring fun _ =>
        throws_bind hstring fun _ => hpure _
  | kissResponse =>
      exact throws_bind hstring fun _ => throws_bind hstring fun _ => throws_bind hstring fun _ =>
        hpure _
  | ping | pong => exact throws_bind hi64 fun _ => hpure _
  | timeNotification | hashResponse =>
      exact throws_bind hi64 fun _ => throws_bind hstring fun _ => hpure _
  | randomNumber => exact throws_bind hi64 fun _ => throws_bind hi64 fun _ => hpure _
  | error => exact throws_bind hi32 fun _ => throws_bind hstring fun _ => hpure _

/-- The whole `switch`: a registered type is read from a fresh reader, any other type throws. -/
def decodeFields (R : FieldReaders (EStateM ε ς) σ ρ) (reader : ς) (unknown : ε)
    (m : Record β σ ρ) : Option MsgType → Except ε (Record β σ ρ)
  | some t =>
      match readFields R m t reader with
      | .ok m' _ => .ok m'
      | .error e _ => .error e
  | none => .error unknown

/-- On a payload, the `switch` returns what the grammar of the type says and throws on the
rest. -/
theorem decodeFields_eq (hR : R.Sound C text results shape) {reader : ς} {body : Bytes}
    (hbody : C.stands reader body) (unknown : ε) (m : Record β σ ρ) (t : Option MsgType) :
    match t.bind fun t => (parsePayload t body).map Prod.fst with
    | some p => ∃ m', decodeFields R reader unknown m t = .ok m' ∧ m'.type = m.type ∧
        t.bind (m'.fields text results) = some (p.mapResults shape)
    | none => ∃ e, decodeFields R reader unknown m t = .error e ∧
        (e = unknown ∨ ∃ s, C.failed e s) := by
  cases t with
  | none => exact ⟨unknown, rfl, Or.inl rfl⟩
  | some t =>
      have hread := refines_readFields hR m t reader body hbody
      rw [Option.bind_some]
      cases hp : parsePayload t body with
      | none =>
          obtain ⟨e, s, he, hfail⟩ := (refinesAt_none hp).mp hread
          exact ⟨e, by rw [decodeFields, he], Or.inr ⟨s, hfail⟩⟩
      | some out =>
          obtain ⟨m', s, hm, ⟨htype, hfields⟩, -⟩ := (refinesAt_some hp).mp hread
          exact ⟨m', by rw [decodeFields, hm], htype, hfields⟩

end Reading

section Writing

/-- The methods of a writer class that the encoder calls. -/
structure FieldWriters (μ : Type → Type) (σ ρ : Type) where
  writeString : σ → μ Unit
  writeI64 : Int64 → μ Unit
  writeI32 : Int32 → μ Unit
  writeEchoResults : ρ → μ Unit

variable {μ : Type → Type} [Monad μ]

/-- The `switch` of `encode`, which writes the fields of the type. -/
def writeFields (W : FieldWriters μ σ ρ) (m : Record β σ ρ) : MsgType → μ Unit
  | .hello => W.writeString m.clientLanguage
  | .bonjour => W.writeString m.serverLanguage
  | .echoRequest => do
      W.writeI64 m.echoId
      W.writeString m.echoMeta
      W.writeString m.echoData
  | .echoResponse => do
      W.writeI32 m.echoStatus
      W.writeEchoResults m.echoResults
  | .kissRequest => do
      W.writeString m.osName
      W.writeString m.osVersion
      W.writeString m.osRelease
      W.writeString m.osArch
  | .kissResponse => do
      W.writeString m.kissLanguage
      W.writeString m.kissEncoding
      W.writeString m.kissTimeZone
  | .ping => W.writeI64 m.timestampMs
  | .pong => W.writeI64 m.timestampMs
  | .timeNotification => do
      W.writeI64 m.timestampMs
      W.writeString m.iso8601
  | .randomNumber => do
      W.writeI64 m.randomId
      W.writeI64 m.randomNumber
  | .hashResponse => do
      W.writeI64 m.randomId
      W.writeString m.hashHex
  | .disconnect => W.writeString m.disconnectReason
  | .error => do
      W.writeI32 m.errorCode
      W.writeString m.errorMessage

variable {ε ς : Type} {S : Sink ς} {W : FieldWriters (EStateM ε ς) σ ρ}
  {text : σ → Option Bytes} {results : ρ → Option (List (EchoResult Entries))}

/-- The methods of the writer write the encodings of what their arguments stand for. -/
structure FieldWriters.Sound (S : Sink ς) (W : FieldWriters (EStateM ε ς) σ ρ)
    (text : σ → Option Bytes) (results : ρ → Option (List (EchoResult Entries))) : Prop where
  writeString : ∀ {s b}, text s = some b → Writes S (W.writeString s) (string b)
  writeI64 : ∀ v, Writes S (W.writeI64 v) (i64 v.toInt)
  writeI32 : ∀ v, Writes S (W.writeI32 v) (i32 v.toInt)
  writeEchoResults : ∀ {rs bs}, results rs = some bs →
    Writes S (W.writeEchoResults rs) (u32 bs.length ++ bs.flatMap echoResult)

/-- The `switch` of the encoder writes the payload of the type. -/
theorem writes_writeFields (hW : W.Sound S text results) {m : Record β σ ρ} {t : MsgType}
    {p : Message Entries} (hp : m.fields text results t = some p) :
    Writes S (writeFields W m t) (payload p) := by
  cases t <;>
    simp only [Record.fields, Option.bind_eq_bind, Option.bind_eq_some_iff, Option.pure_def,
      Option.some.injEq] at hp
  case hello | bonjour | disconnect =>
    obtain ⟨b, hb, rfl⟩ := hp
    exact hW.writeString hb
  case ping | pong =>
    rw [← hp]
    exact hW.writeI64 _
  case randomNumber =>
    rw [← hp]
    exact writes_bind (hW.writeI64 _) (hW.writeI64 _)
  case echoRequest =>
    obtain ⟨t, ht, d, hd, rfl⟩ := hp
    rw [payload, List.append_assoc]
    exact writes_bind (hW.writeI64 _) (writes_bind (hW.writeString ht) (hW.writeString hd))
  case echoResponse =>
    obtain ⟨bs, hbs, rfl⟩ := hp
    rw [payload, List.append_assoc]
    exact writes_bind (hW.writeI32 _) (hW.writeEchoResults hbs)
  case kissRequest =>
    obtain ⟨n, hn, v, hv, r, hr, a, ha, rfl⟩ := hp
    rw [payload, List.append_assoc, List.append_assoc]
    exact writes_bind (hW.writeString hn) (writes_bind (hW.writeString hv)
      (writes_bind (hW.writeString hr) (hW.writeString ha)))
  case kissResponse =>
    obtain ⟨l, hl, e, he, z, hz, rfl⟩ := hp
    rw [payload, List.append_assoc]
    exact writes_bind (hW.writeString hl) (writes_bind (hW.writeString he) (hW.writeString hz))
  case timeNotification | hashResponse =>
    obtain ⟨s, hs, rfl⟩ := hp
    exact writes_bind (hW.writeI64 _) (hW.writeString hs)
  case error =>
    obtain ⟨s, hs, rfl⟩ := hp
    exact writes_bind (hW.writeI32 _) (hW.writeString hs)

/-- The whole `switch`: a registered type is written to a fresh writer, any other type throws. -/
def encodeFields (W : FieldWriters (EStateM ε ς) σ ρ) (writer : ς) (unknown : ε)
    (m : Record β σ ρ) : Option MsgType → Except ε (MsgType × ς)
  | some t =>
      match writeFields W m t writer with
      | .ok _ w => .ok (t, w)
      | .error e _ => .error e
  | none => .error unknown

/-- The `switch` leaves the payload in the buffer. -/
theorem encodeFields_eq (hW : W.Sound S text results) (writer : ς) (hempty : S.octets writer = [])
    (unknown : ε) {m : Record β σ ρ} {t : Option MsgType} {p : Message Entries}
    (hp : t.bind (m.fields text results) = some p) (hfits : S.fits (payload p).length) :
    ∃ w, encodeFields W writer unknown m t = .ok (p.type, w) ∧ S.octets w = payload p := by
  obtain ⟨t, rfl, hfields⟩ := Option.bind_eq_some_iff.mp hp
  have hwrite := writes_writeFields hW hfields writer
  rw [hempty, List.nil_append] at hwrite
  obtain ⟨w, hw, ho⟩ := hwrite hfits
  refine ⟨w, ?_, ho⟩
  rw [encodeFields, hw, Record.type_of_fields hfields]

end Writing

end HelloWebsocket.Protocol
