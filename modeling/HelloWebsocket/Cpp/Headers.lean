import HelloWebsocket.Cpp.Handshake
import HelloWebsocket.Ws.Handshake

/-!
# Header fields in the C++ handshake

What `extractHeader` finds in a message of a start line and header fields. It finds the
first field with the name, and in it the value with the blanks after it.
-/

namespace HelloWebsocket.Cpp

open Ws Utf8 Lines

section Headers

variable {key start : Bytes} {fields : List Field}

/-- A message head: a start line and fields. -/
def httpText (start : Bytes) (fields : List Field) : Bytes :=
  headerText (start :: fields.map Field.line)

theorem lines_httpText (hstart : 13 ∉ start) :
    lines (httpText start fields) = start :: (fields.map Field.line ++ [[], []]) := by
  rw [httpText, lines_headerText, List.cons_append]
  intro l hl
  rcases List.mem_cons.mp hl with rfl | hl
  · exact hstart
  · obtain ⟨f, -, rfl⟩ := List.mem_map.mp hl
    exact f.cr_not_mem_line

/-- A field is found by its name. -/
theorem field?_httpText (hkey : 0x3A ∉ key) (hstart : 13 ∉ start) :
    field? key (httpText start fields) = (fields.find? (Field.hasName key)).map fun f =>
      if f.value = [] then [] else f.value ++ f.after := by
  have hempty : [[], []].find? (named key) = none := by
    have hnil : named key [] = false := by
      cases key <;> rfl
    rw [List.find?_cons, hnil, List.find?_cons, hnil]
    rfl
  have hname : named key ∘ Field.line = Field.hasName key := funext (Field.named_line hkey)
  rw [field?, lines_httpText hstart, List.tail_cons, List.find?_append, hempty, Option.or_none,
    List.find?_map, hname, Option.map_map]
  refine Option.map_congr fun f hf => ?_
  have hlength : key.length = f.name.length := by
    have hsame : f.name.map lower = key.map lower := by simpa [Field.hasName] using List.find?_some hf
    simpa using (congrArg List.length hsame).symm
  have hdrop : f.line.drop (key.length + 1) = f.before ++ f.value ++ f.after := by
    rw [hlength, Field.line, ← List.drop_drop, List.drop_left]
    rfl
  rw [Function.comp_apply, hdrop, f.dropWhile_blank]

/-- A key with a CR is not found: between two line ends there is a colon, or nothing follows. -/
theorem seek_of_cr (hcr : 13 ∈ key) (hkey : 0x3A ∉ key) {ls : List Bytes}
    (hls : ∀ l ∈ ls, 13 ∉ l ∧ 0x3A ∈ l) (hstart : 13 ∉ start) :
    seek (crlf ++ (key ++ [0x3A])) (headerText (start :: ls)) = none := by
  have hnone (l : Bytes) (hl : 13 ∉ l) (ms : List Bytes)
      (hms : headerText ms = l ++ 13 :: 10 :: (headerText ms).drop (l.length + 2))
      (hcolon : 0x3A ∉ l → (headerText ms).drop (l.length + 2) = []) :
      (key ++ [0x3A]).isPrefixOf (headerText ms) = false := by
    rw [Bool.eq_false_iff, ne_eq, List.isPrefixOf_iff_prefix]
    rintro ⟨more, hmore⟩
    obtain ⟨k₁, k₂, rfl, hk₁⟩ := List.eq_append_cons_of_mem hcr
    rw [hms, List.append_assoc, List.append_assoc, List.cons_append] at hmore
    obtain ⟨rfl, hrest⟩ := append_cons_inj hk₁ hl hmore
    rw [hcolon fun h => hkey (List.mem_append_left _ h)] at hrest
    cases k₂ with
    | nil => exact absurd (List.cons.inj hrest).1 (by decide)
    | cons b k₂ => simp at hrest
  induction ls generalizing start with
  | nil =>
      have hend : seek (crlf ++ (key ++ [0x3A])) (headerText []) = none := by
        refine (seek_line List.not_mem_nil (key ++ [0x3A]) []).trans ?_
        cases key <;> rfl
      rw [headerText_cons, seek_line hstart, hnone [] List.not_mem_nil [] rfl fun _ => rfl, hend]
      rfl
  | cons l ls ih =>
      obtain ⟨⟨hl, hcolon⟩, hrest⟩ := List.forall_mem_cons.mp hls
      rw [headerText_cons, seek_line hstart, ih hrest hl, hnone l hl (l :: ls) ?_ (absurd hcolon)]
      · rfl
      · rw [headerText_cons, ← List.append_assoc, List.drop_left' (by simp [crlf])]
        simp [crlf]

/-- `extractHeader` returns the value of the first field with the name and the blanks after it. -/
theorem extractHeader_httpText (hkey : 0x3A ∉ key) (hstart : 13 ∉ start) :
    extractHeader (httpText start fields) key =
      ((fields.find? (Field.hasName key)).map fun f =>
        if f.value = [] then [] else f.value ++ f.after).getD [] := by
  by_cases hcr : 13 ∈ key
  · have hlower {b : UInt8} {s : Bytes} (hb : b < 0x41) : b ∈ s.map lower ↔ b ∈ s := by
      rw [List.mem_map]
      constructor
      · rintro ⟨c, hc, hlower⟩
        rw [lower_eq_iff hb] at hlower
        exact hlower ▸ hc
      · intro h
        exact ⟨b, h, (lower_eq_iff hb).mpr rfl⟩
    have htext : (httpText start fields).map lower =
        headerText (start.map lower :: fields.map fun f => f.line.map lower) := by
      rw [httpText, headerText, headerText, List.map_append, List.map_flatMap]
      simp only [List.flatMap_cons, List.flatMap_map, List.map_append]
      rfl
    have hseek : seek (crlf ++ (key.map lower ++ [0x3A])) ((httpText start fields).map lower) =
        none := by
      rw [htext]
      refine seek_of_cr ((hlower (by decide)).mpr hcr) (mt (hlower (by decide)).mp hkey) ?_
        (mt (hlower (by decide)).mp hstart)
      intro l hl
      obtain ⟨f, -, rfl⟩ := List.mem_map.mp hl
      refine ⟨mt (hlower (by decide)).mp f.cr_not_mem_line, (hlower (by decide)).mpr ?_⟩
      exact List.mem_append_right _ List.mem_cons_self
    have hfind : fields.find? (Field.hasName key) = none := by
      rw [List.find?_eq_none]
      intro f _ hname
      have hsame : f.name.map lower = key.map lower := by simpa [Field.hasName] using hname
      have hmem := (hlower (by decide)).mpr hcr
      rw [← hsame] at hmem
      exact f.name_cr ((hlower (by decide)).mp hmem)
    have hsearch : (crlf ++ (key ++ [0x3A])).map lower = crlf ++ (key.map lower ++ [0x3A]) := by
      rw [List.map_append, List.map_append]
      rfl
    rw [extractHeader, hsearch, find, if_pos (Nat.zero_le _), List.drop_zero, hseek, hfind]
    rfl
  · rw [extractHeader_eq hcr, field?_httpText hkey hstart]

/-- The value comes back without the blanks around it if and only if none follow it. -/
theorem extractHeader_httpText_iff (start : Bytes) (fields : List Field) (key : Bytes)
    (hstart : 13 ∉ start) (hkey : 0x3A ∉ key) :
    extractHeader (httpText start fields) key =
        ((fields.find? (Field.hasName key)).map Field.value).getD [] ↔
      ∀ f, fields.find? (Field.hasName key) = some f → f.value = [] ∨ f.after = [] := by
  rw [extractHeader_httpText hkey hstart]
  cases fields.find? (Field.hasName key) with
  | none => simp
  | some f =>
      rw [Option.map_some, Option.map_some, Option.getD_some, Option.getD_some]
      by_cases hvalue : f.value = []
      · simp [hvalue]
      · simp [hvalue]

/-- `Upgrade: websocket`, with blanks at the end of the line. -/
def upgradeField (after : Bytes) (h : ∀ b ∈ after, isBlank b = true) : Field where
  name := utf8 "Upgrade"
  before := [0x20]
  value := utf8 "websocket"
  after := after
  name_colon := by decide +kernel
  name_cr := by decide +kernel
  value_cr := by decide +kernel
  before_blank := by decide +kernel
  after_blank := h
  value_head := by decide +kernel
  value_last := by decide +kernel

/-- A blank at the end of the line is returned as a part of the value, which `accept` then
refuses. -/
theorem extractHeader_trailing_blank :
    extractHeader (httpText (utf8 "GET /ws HTTP/1.1") [upgradeField [0x20] (by decide +kernel)])
      (utf8 "Upgrade") = utf8 "websocket " ∧ utf8 "websocket " ≠ utf8 "websocket" := by
  refine ⟨?_, by decide +kernel⟩
  rw [extractHeader_httpText (by decide +kernel) (by decide +kernel)]
  decide +kernel

/-- The field as clients write it. -/
theorem extractHeader_httpText_upgrade :
    extractHeader (httpText (utf8 "GET /ws HTTP/1.1") [upgradeField [] (by decide +kernel)])
      (utf8 "UPGRADE") = utf8 "websocket" := by
  have hiff := extractHeader_httpText_iff (utf8 "GET /ws HTTP/1.1")
    [upgradeField [] (by decide +kernel)] (utf8 "UPGRADE") (by decide +kernel) (by decide +kernel)
  have hfind : [upgradeField [] (by decide +kernel)].find? (Field.hasName (utf8 "UPGRADE")) =
      some (upgradeField [] (by decide +kernel)) := by
    rw [List.find?_cons_of_pos]
    decide +kernel
  rw [hfind] at hiff
  refine hiff.mpr ?_
  rintro f ⟨⟩
  exact Or.inr rfl

end Headers

end HelloWebsocket.Cpp
