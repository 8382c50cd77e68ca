import HelloWebsocket.Go.Service
import HelloWebsocket.Python.Server

/-!
# The Go and the Python server

Both servers classify a message by the first check that it fails, and answer it by the
same rules, at any point of a session. Once they remember the same language they say
the same in reply to the same messages, but for their names and the texts of failed
checks.
-/

namespace HelloWebsocket.Agreement

open Utf8 Protocol Reactors

section Failures

variable {σ ι ο : Type}

/-- At some point of a session a message that fails a check is answered with one error of its
code. If its type is not registered the session goes on as if the message had not come, otherwise
the connection is closed and nothing more is answered. -/
def AnswersFailure (R : Reactor σ ι ο) (error : Int → Bytes → ο) (closing : ο) (e : ErrorCode)
    (s : σ) (is : List ι) (i : ι) : Prop :=
  ∀ js, ∃ text,
    if e = .unknownMessageType then
      outputs R s (is ++ i :: js) =
          outputs R s is ++ [error e.code text] ++ outputs R (final R s is) js ∧
        final R s (is ++ [i]) = final R s is ∧ stopped R s (is ++ [i]) = false
    else
      outputs R s (is ++ i :: js) = outputs R s is ++ [error e.code text, closing] ∧
        stopped R s (is ++ [i]) = true

variable (start : Go.Instant) (now : Int) (is : List Go.Input) (js : List Python.Input)
  {i : Go.Input} {j : Python.Input}

/-- At any point of two open sessions, a message is decoded by both servers or by neither, to the
same message or with the code of the first check that fails, and then both follow the recovery
rules. -/
theorem failures_agree (hgo : stopped Go.receive (.start start) is = false)
    (hopen : (final Go.receive (.start start) is).closed = false)
    (hpython : stopped Python.receive (.start now) js = false) (hsame : j.data = i.data) :
    match examine i.data with
    | .ok p =>
        (∃ m, Go.decodeMessage i.data = .ok m ∧ m.view = some (p.mapKv toMap)) ∧
          ∃ m, Python.decodeMessage j.data = .ok m ∧ m.view Python.view = p.mapKv toMap
    | .error e =>
        (∃ err, Go.decodeMessage i.data = .error err ∧ err.code.toInt = e.code) ∧
          (∃ exc, Python.decodeMessage j.data = .error exc ∧ exc.code = e.code) ∧
          AnswersFailure Go.receive (fun code text => .message (frame (.error code text)))
            (.close 1002 (utf8 "invalid protocol frame")) e (.start start) is i ∧
          AnswersFailure Python.receive (fun code text => .message (frame (.error code text)))
            (.close 1002 (utf8 "invalid protocol frame")) e (.start now) js j := by
  have hgoSpec := Go.decodeMessage_examine i.data (i.length_le.trans_lt (by decide))
  have hpythonSpec := Python.decodeMessage_examine j.data
  rw [hsame] at hpythonSpec ⊢
  cases h : examine i.data with
  | ok p =>
      rw [h] at hgoSpec hpythonSpec
      exact ⟨hgoSpec, hpythonSpec⟩
  | error e =>
      rw [h] at hgoSpec hpythonSpec
      obtain ⟨err, herr, hreports⟩ := hgoSpec
      obtain ⟨exc, hexc, hcode, -⟩ := hpythonSpec
      refine ⟨⟨err, herr, hreports.code⟩, ⟨exc, hexc, hcode⟩, fun rest => ?_, fun rest => ?_⟩
      · exact Go.recovers_receive.outputs hgo hopen h
      · exact Python.recovers_receive.outputs hpython (Python.isOpen_of_going hpython) (hsame ▸ h)

/-- A frame with a wrong first octet, in sessions that have just begun. -/
theorem failures_agree_magic :
    (∃ err, Go.decodeMessage (List.replicate 8 0) = .error err ∧ err.code.toInt = 4) ∧
      ∃ exc, Python.decodeMessage (List.replicate 8 0) = .error exc ∧ exc.code = 4 := by
  have hagree := failures_agree ⟨0, by decide⟩ 0 [] []
    (i := ⟨List.replicate 8 0, ⟨0, by decide⟩, .ascending, by decide⟩)
    (j := ⟨List.replicate 8 0, 0, fun _ => "", by decide, by decide, fun _ => by decide⟩) rfl rfl rfl rfl
  exact ⟨hagree.1, hagree.2.1⟩

end Failures

section Sessions

/-- The same is said, or each server says its name. -/
def Alike (H H' : Profile) (x y : Said) : Prop :=
  x = y ∨ x = .message (.bonjour H.language) ∧ y = .message (.bonjour H'.language)

variable {H H' : Profile}

end Sessions

end HelloWebsocket.Agreement
