import HelloWebsocket.Wire.Decimal
import HelloWebsocket.Protocol.Session
import HelloWebsocket.Go.Decode

/-!
# The errors of the Go decoder

The receive loop finds the code of a decoding error with `errors.As`: a `CodecError`
has a code of its own, every other error has the code of a decoding failure. The code
is that of the first check that the data fail.
-/

namespace HelloWebsocket.Go

open BigEndian Utf8 Parsing Protocol

namespace Error

/-- The code that `errors.As` finds, `ErrDecode` if it finds none. -/
def code : Error → Int32
  | .codecError code _ => code
  | _ => 0x01

/-- `err.Error()` -/
def text : Error → String
  | .codecError _ message => message
  | .errorf message => message
  | .panic => ""

end Error

section Reader

theorem length_toString_int64 (v : Int64) : (utf8 (toString v)).length ≤ 20 := by
  have hlow := v.le_toInt
  have hhigh := v.toInt_lt
  exact Decimal.length_utf8_toString_le (k := 18) (by omega)

theorem length_toString_uint32 (v : UInt32) : (utf8 (toString v)).length ≤ 10 := by
  have hv := v.toNat_lt
  change (utf8 (toString v.toNat)).length ≤ 10
  rw [Decimal.utf8_toString_nat]
  exact Decimal.length_digits_le (by omega)

/-- An error of the reader has a short text and no code, unless it is a panic. -/
def Plain (e : Error) : Prop := e = .panic ∨ ∃ message, e = .errorf message ∧ (utf8 message).length ≤ 80

theorem throws_index (data : Bytes) (i : Int64) :
    Throws Plain (ofExcept (index data i) : ReaderM UInt8) := by
  refine throws_ofExcept fun e h => .inl ?_
  rw [index] at h
  split at h
  · split at h <;> cases h
    rfl
  · cases h
    rfl

theorem throws_slice (data : Bytes) (i j : Int64) :
    Throws Plain (ofExcept (slice data i j) : ReaderM Bytes) := by
  refine throws_ofExcept fun e h => .inl ?_
  rw [slice] at h
  split at h <;> cases h
  rfl

theorem throws_ensure (n : Int64) {kind : String} (hkind : (utf8 kind).length ≤ 3) :
    Throws Plain (ensure n kind) := by
  refine throws_bind throws_get fun r => throws_throwIf (.inr ⟨_, rfl, ?_⟩)
  have hpos := length_toString_int64 r.pos
  have hfront : (utf8 "unexpected end of data at offset ").length = 33 := rfl
  have hback : (utf8 " reading ").length = 9 := rfl
  rw [utf8_append, utf8_append, utf8_append, List.length_append, List.length_append,
    List.length_append]
  omega

theorem throws_readU8 : Throws Plain readU8 :=
  throws_bind (throws_ensure 1 (by decide)) fun _ => throws_bind throws_get fun _ =>
    throws_bind (throws_index _ _) fun _ => throws_bind (throws_modify _) fun _ => throws_pure _

theorem throws_readU32 : Throws Plain readU32 := by
  refine throws_bind (throws_ensure 4 (by decide)) fun _ => throws_bind throws_get fun _ => ?_
  refine throws_bind (throws_slice _ _ _) fun b => throws_bind (throws_ofExcept ?_) fun _ =>
    throws_bind (throws_modify _) fun _ => throws_pure _
  intro e h
  rw [bigEndianUint32] at h
  split at h <;> cases h
  exact .inl rfl

theorem throws_readI32 : Throws Plain readI32 := throws_bind throws_readU32 fun _ => throws_pure _

theorem throws_readI64 : Throws Plain readI64 := by
  refine throws_bind (throws_ensure 8 (by decide)) fun _ => throws_bind throws_get fun _ => ?_
  refine throws_bind (throws_slice _ _ _) fun b => throws_bind (throws_ofExcept ?_) fun _ =>
    throws_bind (throws_modify _) fun _ => throws_pure _
  intro e h
  rw [bigEndianUint64] at h
  split at h <;> cases h
  exact .inl rfl

/-- The texts around a count or a length. -/
theorem plain_around {front back : String} (v : UInt32)
    (h : (utf8 front).length + (utf8 back).length ≤ 70) :
    Plain (.errorf (front ++ toString v ++ back)) := by
  have hv := length_toString_uint32 v
  refine .inr ⟨_, rfl, ?_⟩
  rw [utf8_append, utf8_append, List.length_append, List.length_append]
  omega

theorem throws_readString : Throws Plain readString := by
  refine throws_bind throws_readU32 fun ln => throws_bind throws_get fun r => ?_
  refine throws_bind (throws_throwIf (plain_around ln (by decide))) fun _ => ?_
  refine throws_bind (throws_slice _ _ _) fun b => ?_
  refine throws_bind (throws_throwIf (.inr ⟨_, rfl, by decide⟩)) fun _ => ?_
  exact throws_bind (throws_modify _) fun _ => throws_pure _

theorem throws_remaining : Throws Plain remaining := throws_bind throws_get fun _ => throws_pure _

theorem throws_readKV : Throws Plain readKV := by
  have hentry : Throws Plain readEntry :=
    throws_bind throws_readString fun _ => throws_bind throws_readString fun _ => throws_pure _
  refine throws_bind throws_readU32 fun count => throws_bind throws_remaining fun left => ?_
  exact throws_bind (throws_throwIf (plain_around count (by decide))) fun _ =>
    throws_forCount _ hentry _ _

theorem throws_readEchoResults : Throws Plain readEchoResults := by
  have hresult : Throws Plain readEchoResult :=
    throws_bind throws_readI64 fun _ => throws_bind throws_readU8 fun _ =>
      throws_bind throws_readKV fun _ => throws_pure _
  refine throws_bind throws_readU32 fun count => throws_bind throws_remaining fun left => ?_
  exact throws_bind (throws_throwIf (plain_around count (by decide))) fun _ =>
    throws_forCount _ hresult _ _

/-- No message reports a code of its own while its fields are read. -/
theorem throws_readFields (msg : Message) (t : MsgType) : Throws Plain (readFields msg t) := by
  have hstring {α : Type} {f : Bytes → ReaderM α} (hf : ∀ s, Throws Plain (f s)) :
      Throws Plain (readString >>= f) := throws_bind throws_readString hf
  have hi64 {α : Type} {f : Int64 → ReaderM α} (hf : ∀ v, Throws Plain (f v)) :
      Throws Plain (readI64 >>= f) := throws_bind throws_readI64 hf
  have hi32 {α : Type} {f : Int32 → ReaderM α} (hf : ∀ v, Throws Plain (f v)) :
      Throws Plain (readI32 >>= f) := throws_bind throws_readI32 hf
  cases t with
  | hello | bonjour | disconnect =>
      exact throws_bind (hstring fun _ => throws_pure _) fun _ => throws_pure _
  | echoRequest =>
      exact throws_bind (hi64 fun _ => hstring fun _ => hstring fun _ => throws_pure _)
        fun _ => throws_pure _
  | echoResponse =>
      exact throws_bind (hi32 fun _ => throws_bind throws_readEchoResults fun _ => throws_pure _)
        fun _ => throws_pure _
  | kissRequest =>
      exact throws_bind (hstring fun _ => hstring fun _ => hstring fun _ => hstring fun _ =>
        throws_pure _) fun _ => throws_pure _
  | kissResponse =>
      exact throws_bind (hstring fun _ => hstring fun _ => hstring fun _ => throws_pure _)
        fun _ => throws_pure _
  | ping | pong => exact throws_bind (hi64 fun _ => throws_pure _) fun _ => throws_pure _
  | timeNotification | hashResponse =>
      exact throws_bind (hi64 fun _ => hstring fun _ => throws_pure _) fun _ => throws_pure _
  | randomNumber =>
      exact throws_bind (hi64 fun _ => hi64 fun _ => throws_pure _) fun _ => throws_pure _
  | error =>
      exact throws_bind (hi32 fun _ => hstring fun _ => throws_pure _) fun _ => throws_pure _

end Reader

section Messages

/-- The error that reports a failed check: its code is that of the check, and its text is short. -/
structure Error.Reports (err : Error) (e : ErrorCode) : Prop where
  code : err.code.toInt = e.code
  text : (utf8 err.text).length ≤ 80
  noPanic : err ≠ .panic

theorem reports_short (data : Bytes) :
    Error.Reports (.codecError 0x03 ("frame too short: " ++ toString (len data) ++ " bytes"))
      .truncatedPayload where
  code := rfl
  text := by
    have hlen := length_toString_int64 (len data)
    have hfront : (utf8 "frame too short: ").length = 17 := rfl
    have hback : (utf8 " bytes").length = 6 := rfl
    rw [Error.text, utf8_append, utf8_append, List.length_append, List.length_append]
    omega
  noPanic := nofun

theorem reports_mismatch (declared : Nat) (data : Bytes) :
    (mismatch declared data).Reports .truncatedPayload where
  code := rfl
  text := by
    have hdeclared := length_toString_uint32 (UInt32.ofNat declared)
    have havailable := length_toString_int64 (len data - 8)
    have hfront : (utf8 "payload length mismatch: declared ").length = 34 := rfl
    have hmiddle : (utf8 ", available ").length = 12 := rfl
    rw [mismatch, Error.text, utf8_append, utf8_append, utf8_append, List.length_append,
      List.length_append, List.length_append]
    omega
  noPanic := nofun

/-- The errors that show one octet. -/
theorem reports_octet (code : Int32) {e : ErrorCode} (front : String) (b : UInt8)
    (hcode : code.toInt = e.code) (hfront : (utf8 front).length ≤ 70) :
    Error.Reports (.codecError code (front ++ Hex.byte b)) e where
  code := hcode
  text := by
    rw [Error.text, utf8_append, List.length_append, Hex.length_byte]
    omega
  noPanic := nofun

/-- `DecodeMessage` returns the message that the checks find, and on a failed check an error that
reports it. -/
theorem decodeMessage_examine (data : Bytes) (hdata : data.length < 2 ^ 62) :
    match examine data with
    | .ok p => ∃ m, decodeMessage data = .ok m ∧ m.view = some (p.mapKv toMap)
    | .error e => ∃ err, decodeMessage data = .error err ∧ err.Reports e := by
  have hfailed (data : Bytes) {err : Error} (h : decodeFrame data = .error err) :
      decodeMessage data = .error err := by
    rw [decodeMessage, h]
    rfl
  refine examine_cases (Q := fun data found => data.length < 2 ^ 62 → match found with
    | .ok p => ∃ m, decodeMessage data = .ok m ∧ m.view = some (p.mapKv toMap)
    | .error e => ∃ err, decodeMessage data = .error err ∧ err.Reports e) ?_ ?_ ?_ ?_ ?_ data hdata
  · intro data hshort _
    exact ⟨_, hfailed data (decodeFrame_short hshort), reports_short data⟩
  · intro b0 b1 type flags b4 b5 b6 b7 body h0 hdata
    refine ⟨_, hfailed _ ?_, reports_octet 0x04 "bad magic: 0x" b0 rfl (by decide)⟩
    rw [decodeFrame_long _ _ _ _ _ _ _ _ _ (by simp only [List.length_cons] at hdata; omega), if_pos h0]
  · intro b1 type flags b4 b5 b6 b7 body h1 hdata
    refine ⟨_, hfailed _ ?_, reports_octet 0x05 "bad version: 0x" b1 rfl (by decide)⟩
    rw [decodeFrame_long _ _ _ _ _ _ _ _ _ (by simp only [List.length_cons] at hdata; omega),
      if_neg (not_not.mpr rfl), if_pos h1]
  · intro type flags b4 b5 b6 b7 body hn hdata
    have hframe := decodeFrame_long 0x48 0x01 type flags b4 b5 b6 b7 body
      (by simp only [List.length_cons] at hdata; omega)
    rw [if_neg (not_not.mpr rfl), if_neg (not_not.mpr rfl), if_pos hn] at hframe
    exact ⟨_, hfailed _ hframe, reports_mismatch _ _⟩
  · intro type flags b4 b5 b6 b7 body hn hlen hdata
    have hframe := decodeFrame_long 0x48 0x01 type flags b4 b5 b6 b7 body (by omega)
    rw [if_neg (not_not.mpr rfl), if_neg (not_not.mpr rfl), if_neg (not_not.mpr hn)] at hframe
    have hspec := decodeMessage_eq _ hdata
    obtain ⟨he, -⟩ := eq_envelope type flags hn
    rw [he, parseFrame_envelope type flags hlen, ← he] at hspec
    cases ht : MsgType.ofCode? type with
    | none =>
        refine ⟨.codecError 0x02 ("unknown message type: 0x" ++ Hex.byte type), ?_,
          reports_octet _ _ type rfl (by decide)⟩
        rw [decodeMessage, hframe]
        simp only [bind, Except.bind, ht]
    | some t =>
        rw [ht, Option.bind_some] at hspec
        dsimp only
        cases hp : parsePayload t body with
        | some out =>
            rw [hp] at hspec
            exact hspec
        | none =>
            rw [hp] at hspec
            obtain ⟨err, herr, hpanic⟩ := hspec
            refine ⟨err, herr, ?_⟩
            -- The fields are read from the body, so the error is one of the reader.
            have hread := throws_readFields { type := type } t ⟨body, 0⟩ err
            rw [decodeMessage, hframe] at herr
            simp only [bind, Except.bind, ht] at herr
            split at herr
            · cases herr
            · next e' r hread' =>
                cases herr
                obtain hbad | ⟨message, rfl, hshort⟩ := hread r hread'
                · exact absurd hbad hpanic
                · exact ⟨rfl, hshort, hpanic⟩

end Messages

end HelloWebsocket.Go
