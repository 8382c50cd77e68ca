import HelloWebsocket.Protocol.Session
import HelloWebsocket.Cpp.Decode

/-!
# The exceptions of the C++ decoder

`decodeMessage` reports every failure as an exception with a text, and its callers
tell the failures apart by that text. The text is determined by the first check that
the data fails: each check has texts of its own, and only an unregistered type has one
that begins with `unknown message type`.
-/

namespace HelloWebsocket.Cpp

open BigEndian Utf8 Parsing Protocol

section Texts

/-- The texts of the exceptions of `ByteReader`. -/
def payloadTexts : List String :=
  ["unexpected end of data", "string length exceeds data", "string payload is not valid UTF-8",
    "kv count exceeds remaining payload", "result count exceeds remaining payload"]

/-- The texts of the exceptions for a check that fails. -/
def textsOf (e : ErrorCode) (data : Bytes) : List String :=
  match e with
  | .truncatedPayload => ["frame too short: " ++ toString data.length, "payload length mismatch"]
  | .badMagic => ["bad magic"]
  | .badVersion => ["bad version"]
  | .unknownMessageType => ["unknown message type"]
  | .decode => payloadTexts

/-- `std::string(e.what()).find("unknown message type") == 0` -/
def isUnknown (what : String) : Bool := "unknown message type".toList.isPrefixOf what.toList

/-- The texts tell an unregistered type from every other failure. -/
theorem isUnknown_iff {e : ErrorCode} {data : Bytes} {what : String} (h : what ∈ textsOf e data) :
    isUnknown what = true ↔ e = .unknownMessageType := by
  cases e with
  | truncatedPayload =>
      rcases List.mem_cons.mp h with rfl | h
      · simp [isUnknown, List.isPrefixOf]
      · rw [List.mem_singleton.mp h]
        decide
  | badMagic | badVersion | unknownMessageType =>
      rw [List.mem_singleton.mp h]
      decide
  | decode =>
      have hall : ∀ what ∈ payloadTexts, isUnknown what = false := by decide
      rw [hall what h]
      decide

end Texts

section Reader

variable {w : Nat}

/-- An exception of the reader has one of its texts. -/
def ReaderFailure (e : Failure) : Prop := ∀ what, e = .runtimeError what → what ∈ payloadTexts

theorem readerFailure_of_mem {what : String} (h : what ∈ payloadTexts) :
    ReaderFailure (.runtimeError what) := by
  intro what' he
  cases he
  exact h

theorem throws_ofBuffer {α : Type} {read : ByteReader → Except Failure α}
    (h : ∀ r e, read r = .error e → e = .outOfBounds) : Throws ReaderFailure (ofBuffer read) := by
  intro r e r' he
  cases hread : read r with
  | ok a =>
      rw [ofBuffer_ok hread] at he
      cases he
  | error e₁ =>
      simp only [ofBuffer, bind, EStateM.bind, get, getThe, MonadStateOf.get, EStateM.get,
        hread] at he
      cases he
      rw [h r e hread]
      intro what hbad
      cases hbad

theorem byteAt_error {data : Bytes} {i : Nat} {e : Failure} (h : byteAt data i = .error e) :
    e = .outOfBounds := by
  rw [byteAt] at h
  split at h <;> cases h
  rfl

theorem range_error {data : Bytes} {i n : Nat} {e : Failure} (h : range data i n = .error e) :
    e = .outOfBounds := by
  rw [range] at h
  split at h <;> cases h
  rfl

theorem throws_check (n : Nat) : Throws ReaderFailure (check w n) :=
  throws_bind throws_get fun _ => throws_throwIf (readerFailure_of_mem (by decide))

theorem throws_peek (k : Nat) : Throws ReaderFailure (peek w k) :=
  throws_ofBuffer fun _ _ => byteAt_error

theorem throws_readU32 : Throws ReaderFailure (readU32 w) := by
  refine throws_bind (throws_check 4) fun _ => throws_bind (throws_peek 0) fun _ => ?_
  refine throws_bind (throws_peek 1) fun _ => throws_bind (throws_peek 2) fun _ => ?_
  exact throws_bind (throws_peek 3) fun _ => throws_bind (throws_modify _) fun _ => throws_pure _

theorem throws_readU8 : Throws ReaderFailure (readU8 w) :=
  throws_bind (throws_check 1) fun _ => throws_bind (throws_peek 0) fun _ =>
    throws_bind (throws_modify _) fun _ => throws_pure _

theorem throws_readI32 : Throws ReaderFailure (readI32 w) :=
  throws_bind throws_readU32 fun _ => throws_pure _

theorem throws_readI64 : Throws ReaderFailure (readI64 w) :=
  throws_bind throws_readU32 fun _ => throws_bind throws_readU32 fun _ => throws_pure _

theorem continuation_error {data : Bytes} {j n : Nat} {codepoint : UInt32} {e : Failure}
    (h : continuation data j n codepoint = .error e) : e = .outOfBounds := by
  induction n generalizing j codepoint with
  | zero => cases h
  | succ n ih =>
      rw [continuation] at h
      cases hbyte : byteAt data j with
      | error e' =>
          rw [hbyte] at h
          cases h
          exact byteAt_error hbyte
      | ok b =>
          rw [hbyte, ok_bind] at h
          split at h
          · cases h
          · exact ih h

theorem isValidUtf8Loop_error {data : Bytes} {len i : Nat} {e : Failure}
    (h : isValidUtf8Loop data len i = .error e) : e = .outOfBounds := by
  induction hk : len - i using Nat.strong_induction_on generalizing i with
  | _ k ih =>
      rw [isValidUtf8Loop] at h
      split at h
      · cases hbyte : byteAt data i with
        | error e' =>
            rw [hbyte] at h
            cases h
            exact byteAt_error hbyte
        | ok b =>
            rw [hbyte, ok_bind] at h
            split at h
            · exact ih (len - (i + 1)) (by omega) h rfl
            · split at h
              · cases h
              · next extra codepoint minCodepoint _ =>
                split at h
                · cases h
                · cases hcont : continuation data (i + 1) extra codepoint with
                  | error e' =>
                      rw [hcont] at h
                      cases h
                      exact continuation_error hcont
                  | ok found =>
                      rw [hcont, ok_bind] at h
                      cases found with
                      | none => cases h
                      | some cp =>
                          dsimp only at h
                          split at h
                          · cases h
                          · exact ih (len - (i + extra + 1)) (by omega) h rfl
      · cases h

theorem throws_readString : Throws ReaderFailure (readString w) := by
  refine throws_bind throws_readU32 fun ln => throws_bind throws_get fun _ => ?_
  refine throws_bind (throws_throwIf (readerFailure_of_mem (by decide))) fun _ => ?_
  refine throws_bind (throws_ofBuffer fun _ _ => isValidUtf8Loop_error) fun _ => ?_
  refine throws_bind (throws_throwIf (readerFailure_of_mem (by decide))) fun _ => ?_
  exact throws_bind (throws_ofBuffer fun _ _ => range_error) fun _ =>
    throws_bind (throws_modify _) fun _ => throws_pure _

theorem throws_readKV : Throws ReaderFailure (readKV w) := by
  have hentry : Throws ReaderFailure (readEntry w) :=
    throws_bind throws_readString fun _ => throws_bind throws_readString fun _ => throws_pure _
  refine throws_bind throws_readU32 fun count => ?_
  refine throws_bind (throws_bind throws_get fun _ => throws_pure _) fun left => ?_
  exact throws_bind (throws_throwIf (readerFailure_of_mem (by decide))) fun _ =>
    throws_forCount _ hentry _ _

theorem throws_readEchoResults : Throws ReaderFailure (readEchoResults w) := by
  have hresult : Throws ReaderFailure (readEchoResult w) :=
    throws_bind throws_readI64 fun _ => throws_bind throws_readU8 fun _ =>
      throws_bind throws_readKV fun _ => throws_pure _
  refine throws_bind throws_readU32 fun count => ?_
  refine throws_bind (throws_bind throws_get fun _ => throws_pure _) fun left => ?_
  exact throws_bind (throws_throwIf (readerFailure_of_mem (by decide))) fun _ =>
    throws_forCount _ hresult _ _

end Reader

section Messages

variable {w : Nat}

/-- On an envelope, the texts tell an unregistered type from a payload that does not parse. -/
theorem decodeMessage_envelope_error (hw : 33 ≤ w) (type flags : UInt8) {body : Bytes}
    (hlen : body.length < 2 ^ 32) {e : ErrorCode}
    (he : examine (envelope type flags body) = .error e) :
    ∃ what, decodeMessage w (envelope type flags body) = .error (.runtimeError what) ∧
      what ∈ textsOf e (envelope type flags body) := by
  have hnone : parseFrame (envelope type flags body) = none := by
    cases hp : parseFrame (envelope type flags body) with
    | none => rfl
    | some m =>
        rw [examine_eq_ok_iff.mpr hp] at he
        cases he
  have hspec := decodeMessage_eq hw (envelope type flags body)
  rw [hnone] at hspec
  obtain ⟨what, hwhat⟩ := hspec
  refine ⟨what, hwhat, ?_⟩
  obtain ⟨b4, b5, b6, b7, henv, hn⟩ := envelope_eq type flags body
  rw [Nat.mod_eq_of_lt hlen] at hn
  rw [examine_envelope type flags hlen] at he
  rw [henv, decodeMessage, decodeFrame_cons, if_neg (by decide), if_neg (by decide),
    if_neg (not_not.mpr hn), ok_bind] at hwhat
  cases htype : MsgType.ofCode? type with
  | none =>
      rw [htype] at he hwhat
      cases he
      cases hwhat
      exact List.mem_singleton_self _
  | some t =>
      rw [htype] at he hwhat
      have hcode : e = .decode := by
        cases hp : parsePayload t body <;> simp [hp] at he
        exact he.symm
      rw [hcode]
      have hthrows := throws_readFields (R := fieldReaders w) throws_readString throws_readI64
        throws_readI32 throws_readEchoResults { Message.zero with type := type } t
      rw [decodeFields] at hwhat
      split at hwhat
      · cases hwhat
      · next e' r hread =>
          cases hwhat
          exact hthrows _ _ _ hread what rfl

/-- `decodeMessage` returns the message that the checks find, and on a failed check it throws an
exception with a text of that check. -/
theorem decodeMessage_examine (hw : 33 ≤ w) (data : Bytes) :
    match examine data with
    | .ok p => ∃ m, decodeMessage w data = .ok m ∧ m.view = some (p.mapKv toMap)
    | .error e => ∃ what, decodeMessage w data = .error (.runtimeError what) ∧
        what ∈ textsOf e data := by
  cases hexamine : examine data with
  | ok p =>
      have hspec := decodeMessage_eq hw data
      rwa [examine_eq_ok_iff.mp hexamine] at hspec
  | error e =>
      rcases Nat.lt_or_ge data.length 8 with hlt | hge
      · rw [examine_of_short hlt] at hexamine
        cases hexamine
        refine ⟨"frame too short: " ++ toString data.length, ?_, List.mem_cons_self⟩
        rw [decodeMessage, decodeFrame, throwIf_bind_except, if_pos hlt]
        rfl
      · obtain ⟨b0, _, rfl, hge1⟩ := exists_cons_of_succ_le hge
        obtain ⟨b1, _, rfl, hge2⟩ := exists_cons_of_succ_le hge1
        obtain ⟨type, _, rfl, hge3⟩ := exists_cons_of_succ_le hge2
        obtain ⟨flags, _, rfl, hge4⟩ := exists_cons_of_succ_le hge3
        obtain ⟨b4, _, rfl, hge5⟩ := exists_cons_of_succ_le hge4
        obtain ⟨b5, _, rfl, hge6⟩ := exists_cons_of_succ_le hge5
        obtain ⟨b6, _, rfl, hge7⟩ := exists_cons_of_succ_le hge6
        obtain ⟨b7, body, rfl, -⟩ := exists_cons_of_succ_le hge7
        by_cases h0 : b0 = 0x48
        · by_cases h1 : b1 = 0x01
          · by_cases hn : beNat [b4, b5, b6, b7] = body.length
            · subst h0 h1
              obtain ⟨henv, hlt⟩ := eq_envelope type flags hn
              rw [henv] at hexamine ⊢
              exact decodeMessage_envelope_error hw type flags hlt hexamine
            · rw [examine, if_neg (not_not.mpr h0), if_neg (not_not.mpr h1), if_pos hn] at hexamine
              cases hexamine
              refine ⟨"payload length mismatch", ?_, List.mem_cons_of_mem _ List.mem_cons_self⟩
              rw [decodeMessage, decodeFrame_cons, if_neg (not_not.mpr h0),
                if_neg (not_not.mpr h1), if_pos hn]
              rfl
          · rw [examine, if_neg (not_not.mpr h0), if_pos h1] at hexamine
            cases hexamine
            refine ⟨"bad version", ?_, List.mem_cons_self⟩
            rw [decodeMessage, decodeFrame_cons, if_neg (not_not.mpr h0), if_pos h1]
            rfl
        · rw [examine, if_pos h0] at hexamine
          cases hexamine
          refine ⟨"bad magic", ?_, List.mem_cons_self⟩
          rw [decodeMessage, decodeFrame_cons, if_pos h0]
          rfl

end Messages

end HelloWebsocket.Cpp
