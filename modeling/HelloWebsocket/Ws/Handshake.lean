import HelloWebsocket.Wire.Sha1
import HelloWebsocket.Wire.Base64
import HelloWebsocket.Wire.Lines
import Mathlib.Data.List.TakeWhile

/-!
# The opening handshake

What the two sides of RFC 6455, section 4, agree on: the server proves that it has
read the key of the request by returning a hash of it. A message of the handshake
ends with its first empty line.
-/

namespace HelloWebsocket.Ws

open Utf8 Lines

section Messages

/-- CR LF CR LF -/
def blankLine : Bytes := crlf ++ crlf

/-- The message ends with its first empty line. -/
def Ends (m : Bytes) : Prop := blankLine <:+ m ∧ ∀ p, p <+: m → blankLine <:+ p → p = m

/-- The lines of a message, each with its end, and the empty line. -/
def headerText (ls : List Bytes) : Bytes := ls.flatMap (· ++ crlf) ++ crlf

variable {ls : List Bytes}

theorem headerText_cons (l : Bytes) (ls : List Bytes) :
    headerText (l :: ls) = l ++ (crlf ++ headerText ls) := by
  rw [headerText, headerText, List.flatMap_cons]
  simp only [List.append_assoc]

theorem lines_headerText (h : ∀ l ∈ ls, 13 ∉ l) : lines (headerText ls) = ls ++ [[], []] := by
  induction ls with
  | nil => rfl
  | cons l ls ih =>
      rw [headerText_cons, lines_append, lines_of_not_mem (h l List.mem_cons_self),
        ih fun l' hl' => h l' (List.mem_cons_of_mem l hl')]
      rfl

/-- Lines that are not empty are not the end of the message. -/
theorem ends_headerText (hne : ls ≠ []) (h : ∀ l ∈ ls, l ≠ [] ∧ 13 ∉ l) : Ends (headerText ls) := by
  have hlines := lines_headerText fun l hl => (h l hl).2
  refine ⟨?_, ?_⟩
  · obtain ⟨init, l, rfl⟩ := (List.eq_nil_or_concat ls).resolve_left hne
    refine ⟨init.flatMap (· ++ crlf) ++ l, ?_⟩
    rw [headerText, blankLine, List.concat_eq_append, List.flatMap_append]
    simp only [List.flatMap_cons, List.flatMap_nil, List.append_nil, List.append_assoc]
  · rintro p ⟨more, hmore⟩ ⟨x, rfl⟩
    -- the empty line of the prefix is one of the two after the lines of the message
    have hsplit : lines x ++ ([] :: lines more) = ls ++ [[], []] := by
      rw [← hlines, ← hmore, blankLine, List.append_assoc, List.append_assoc, lines_append]
      rfl
    have hlast : more = [] := by
      have hlen := congrArg List.length hsplit
      have hpos := List.length_pos_iff.mpr (lines_ne_nil more)
      simp only [List.length_append, List.length_cons, List.length_nil] at hlen
      have hge : ls.length ≤ (lines x).length := by
        by_contra hlt
        push Not at hlt
        have hget := congrArg (fun l => l[(lines x).length]?) hsplit
        simp only [List.getElem?_append_right le_rfl, Nat.sub_self,
          List.getElem?_append_left hlt] at hget
        obtain ⟨hlt', heq⟩ := List.getElem?_eq_some_iff.mp hget.symm
        exact (h _ (List.getElem_mem hlt')).1 heq
      obtain ⟨-, htail⟩ := List.append_inj hsplit (by omega)
      exact eq_of_lines_singleton (List.cons.inj htail).2
    rw [← hmore, hlast, List.append_nil]

end Messages

section Fields

/-- A header field as it is written: a name, and a value among blanks. -/
structure Field where
  name : Bytes
  before : Bytes
  value : Bytes
  after : Bytes
  name_colon : 0x3A ∉ name
  name_cr : 13 ∉ name
  value_cr : 13 ∉ value
  before_blank : ∀ b ∈ before, isBlank b = true
  after_blank : ∀ b ∈ after, isBlank b = true
  value_head : ∀ b, value.head? = some b → isBlank b = false
  value_last : ∀ b, value.getLast? = some b → isBlank b = false

namespace Field

/-- The field on a line. -/
def line (f : Field) : Bytes := f.name ++ 0x3A :: (f.before ++ f.value ++ f.after)

/-- Names are compared without regard to case. -/
def hasName (key : Bytes) (f : Field) : Bool := f.name.map lower = key.map lower

theorem not_mem_of_blank {bs : Bytes} (h : ∀ b ∈ bs, isBlank b = true) : 13 ∉ bs :=
  fun hmem => absurd (h 13 hmem) (by decide)

theorem cr_not_mem_line (f : Field) : 13 ∉ f.line := by
  rw [line, List.mem_append, List.mem_cons, List.mem_append, List.mem_append]
  rintro (h | h | (h | h) | h)
  · exact f.name_cr h
  · exact absurd h (by decide)
  · exact not_mem_of_blank f.before_blank h
  · exact f.value_cr h
  · exact not_mem_of_blank f.after_blank h

/-- The line begins with the name that the field has, and with no other. -/
theorem named_line {key : Bytes} (hkey : 0x3A ∉ key) (f : Field) :
    named key f.line = f.hasName key := by
  have hcolon {s : Bytes} (h : 0x3A ∉ s) : 0x3A ∉ s.map lower := by
    rw [List.mem_map]
    rintro ⟨b, hb, hlower⟩
    rw [lower_eq_iff (by decide)] at hlower
    exact h (hlower ▸ hb)
  rw [named, hasName, line, Bool.eq_iff_iff, List.isPrefixOf_iff_prefix, decide_eq_true_iff,
    List.map_append, List.map_append]
  constructor
  · rintro ⟨more, hmore⟩
    rw [List.append_assoc] at hmore
    exact (append_cons_inj (hcolon hkey) (hcolon f.name_colon) hmore).1.symm
  · intro h
    rw [h]
    exact (List.prefix_append_right_inj _).mpr (List.cons_prefix_cons.mpr ⟨rfl, List.nil_prefix⟩)

/-- What stands behind the blanks in front of a value: the value and the blanks after it. -/
theorem dropWhile_blank (f : Field) : (f.before ++ f.value ++ f.after).dropWhile isBlank =
    if f.value = [] then [] else f.value ++ f.after := by
  rw [List.append_assoc, List.dropWhile_append_of_pos f.before_blank]
  cases hvalue : f.value with
  | nil =>
      rw [if_pos rfl, List.nil_append, List.dropWhile_eq_nil_iff]
      exact f.after_blank
  | cons b v =>
      have hb := f.value_head b (by rw [hvalue]; rfl)
      rw [if_neg (List.cons_ne_nil b v), List.cons_append, List.dropWhile_cons_of_neg (by simp [hb])]

end Field

end Fields

/-- The string that is appended to the key of a request. -/
def guid : Bytes := utf8 "258EAFA5-E914-47DA-95CA-C5AB0DC85B11"

/-- The value that answers a key. -/
def acceptKey (key : Bytes) : Bytes := Base64.encode (Sha1.sha1 (key ++ guid))

end HelloWebsocket.Ws
