import HelloWebsocket.Cpp.Decode
import HelloWebsocket.Go.Decode
import HelloWebsocket.Java.Decode
import HelloWebsocket.Kotlin.Decode

/-!
# The decoders of the four languages agree

The C++, Go, Java and Kotlin decoders are compared through the frame grammar that
each of them refines: on a byte string they all reject or all return the message
of the grammar, with Kotlin reading the type of a result as a signed byte.
-/

namespace HelloWebsocket.Agreement

open Protocol Parsing

variable {ε α : Type}

/-- The call returns a value that says the message. -/
def Returns (result : Except ε α) (view : α → Option (Message KvMap)) (p : Message KvMap) : Prop :=
  ∃ m, result = .ok m ∧ view m = some p

/-- The call ends with an error of the documented kind. -/
def Rejects (result : Except ε α) (documented : ε → Prop) : Prop :=
  ∃ e, result = .error e ∧ documented e

theorem Returns.unique {result : Except ε α} {view : α → Option (Message KvMap)}
    {p q : Message KvMap} (hp : Returns result view p) (hq : Returns result view q) : p = q := by
  obtain ⟨m, hm, hp⟩ := hp
  obtain ⟨m', hm', hq⟩ := hq
  obtain rfl : m = m' := Except.ok.inj (hm.symm.trans hm')
  exact Option.some.inj (hp.symm.trans hq)

/-- All four decoders return the message, or all four reject the bytes. -/
def Agree (b : Bytes) (hb : b.length < 2 ^ 31) (kotlin : Message KvMap → Message KvMap) : Prop :=
  (∃ p, Returns (Cpp.decodeMessage 64 b) Cpp.Message.view p ∧
    Returns (Go.decodeMessage b) Go.Message.view p ∧
    Returns (Java.decodeMessage ⟨b, hb⟩) (Java.Message.view Jvm.LinkedHashMap.toMap) p ∧
    Returns (Kotlin.decodeMessage ⟨b, hb⟩) (Kotlin.Message.view Jvm.LinkedHashMap.toMap)
      (kotlin p)) ∨
  (Rejects (Cpp.decodeMessage 64 b) (fun e => ∃ what, e = .runtimeError what) ∧
    Rejects (Go.decodeMessage b) (· ≠ .panic) ∧
    Rejects (Java.decodeMessage ⟨b, hb⟩) Java.Thrown ∧
    Rejects (Kotlin.decodeMessage ⟨b, hb⟩) Kotlin.Thrown)

/-- The decoders agree on every byte string, except that Kotlin returns the type of an echo
result as the signed reading of its octet. -/
theorem decoders_agree (b : Bytes) (hb : b.length ≤ 2 ^ 20) :
    Agree b (by omega) (·.mapResults Kotlin.signedType) := by
  have hcpp := Cpp.decodeMessage_eq (w := 64) (by omega) b
  have hgo := Go.decodeMessage_eq b (by omega)
  have hjava := Java.decodeMessage_eq ⟨b, by omega⟩
  have hkotlin := Kotlin.decodeMessage_eq ⟨b, by omega⟩
  cases hp : parseFrame b with
  | some p =>
      simp only [hp] at hcpp hgo hjava hkotlin
      exact Or.inl ⟨p.mapKv toMap, hcpp, hgo, hjava, hkotlin⟩
  | none =>
      simp only [hp] at hcpp hgo hjava hkotlin
      obtain ⟨what, hwhat⟩ := hcpp
      exact Or.inr ⟨⟨_, hwhat, what, rfl⟩, hgo, hjava, hkotlin⟩

/-- A response with one result of type 128. -/
def highType : Bytes :=
  [0x48, 0x01, 0x04, 0x00, 0, 0, 0, 21, 0, 0, 0, 200, 0, 0, 0, 1, 0, 0, 0, 0, 0, 0, 0, 7, 0x80,
    0, 0, 0, 0]

theorem decoders_agree_highType :
    highType.length ≤ 2 ^ 20 ∧
      Agree highType (by decide) (·.mapResults Kotlin.signedType) :=
  ⟨by decide, decoders_agree highType (by decide)⟩

/-- Kotlin returns the type of this result as -128, the other decoders as 128. -/
theorem decoders_differ_highType : ¬ Agree highType (by decide) id := by
  have hcpp : Returns (Cpp.decodeMessage 64 highType) Cpp.Message.view
      (.echoResponse 200 [⟨7, 128, ∅⟩]) :=
    ⟨{ (Cpp.Message.zero : Cpp.Message KvMap) with type := 0x04, echoStatus := 200, echoResults :=
        [⟨7, 0x80, ∅⟩] }, by rfl, by rfl⟩
  have hkotlin : Returns (Kotlin.decodeMessage ⟨highType, by decide⟩)
      (Kotlin.Message.view Jvm.LinkedHashMap.toMap) (.echoResponse 200 [⟨7, -128, ∅⟩]) :=
    ⟨{ (Kotlin.Message.new 0x04 : Kotlin.Message Jvm.LinkedHashMap) with
        echoStatus := 200
        echoResults := [⟨7, -128, Jvm.LinkedHashMap.empty⟩] }, by rfl, by rfl⟩
  rintro (⟨p, hp, -, -, hk⟩ | ⟨hrejects, -⟩)
  · have h := (hcpp.unique hp).trans (hkotlin.unique hk).symm
    simp at h
  · obtain ⟨m, hm, -⟩ := hcpp
    obtain ⟨e, he, -⟩ := hrejects
    rw [hm] at he
    cases he

end HelloWebsocket.Agreement
