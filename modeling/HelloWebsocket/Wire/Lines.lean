import HelloWebsocket.Wire.BigEndian
import Mathlib.Data.List.Infix

/-!
# Lines of a message header

A header is a text of lines that end in CR LF. Field names are compared without
regard to the case of letters, and blanks in front of a value are dropped. A program
that searches the whole text for a line end, a name and a colon finds the first line
with that name, and its value ends where the line does.

## Implementation notes

The search goes through the text from left to right. A line end inside the text is
found only where a line ends, because a name has no CR.
-/

namespace HelloWebsocket.Lines

def crlf : Bytes := [13, 10]

/-- A text can be cut at the first occurrence of a token in one way. -/
theorem append_cons_inj {α : Type} {a : α} {x y z w : List α} (hx : a ∉ x) (hy : a ∉ y)
    (h : x ++ a :: z = y ++ a :: w) : x = y ∧ z = w := by
  induction x generalizing y with
  | nil =>
      cases y with
      | nil => exact ⟨rfl, (List.cons.inj h).2⟩
      | cons b y => exact absurd ((List.cons.inj h).1 ▸ List.mem_cons_self) hy
  | cons b x ih =>
      cases y with
      | nil => exact absurd ((List.cons.inj h).1 ▸ List.mem_cons_self) hx
      | cons c y =>
          obtain ⟨rfl, htail⟩ := List.cons.inj h
          obtain ⟨rfl, hrest⟩ := ih (mt (List.mem_cons_of_mem _) hx) (mt (List.mem_cons_of_mem _) hy)
            htail
          exact ⟨rfl, hrest⟩

section Lines

/-- The text cut at each CR LF. -/
def lines : Bytes → List Bytes
  | [] => [[]]
  | [b] => [[b]]
  | b :: c :: rest =>
      if b = 13 ∧ c = 10 then [] :: lines rest else (lines (c :: rest)).modifyHead (b :: ·)

/-- The text up to the first CR LF. -/
def firstLine (s : Bytes) : Bytes := (lines s).headD []

theorem lines_ne_nil (s : Bytes) : lines s ≠ [] := by
  fun_induction lines s with
  | case1 => exact List.cons_ne_nil _ _
  | case2 => exact List.cons_ne_nil _ _
  | case3 => exact List.cons_ne_nil _ _
  | case4 b c rest hne ih =>
      intro h
      exact ih (List.modifyHead_eq_nil_iff.mp h)

theorem lines_eq (s : Bytes) : lines s = firstLine s :: (lines s).tail := by
  obtain ⟨l, ls, h⟩ := List.exists_cons_of_ne_nil (lines_ne_nil s)
  rw [firstLine, h]
  rfl

variable {b c : UInt8} {rest l s : Bytes}

theorem lines_crlf (rest : Bytes) : lines (13 :: 10 :: rest) = [] :: lines rest := by
  rw [lines, if_pos ⟨rfl, rfl⟩]

theorem lines_cons (h : ¬ (b = 13 ∧ c = 10)) :
    lines (b :: c :: rest) = (b :: firstLine (c :: rest)) :: (lines (c :: rest)).tail := by
  rw [lines, if_neg h, lines_eq]
  rfl

theorem modifyHead_append {α : Type} (f : α → α) {ls : List α} (h : ls ≠ []) (ms : List α) :
    (ls ++ ms).modifyHead f = ls.modifyHead f ++ ms := by
  obtain ⟨l, ls, rfl⟩ := List.exists_cons_of_ne_nil h
  rfl

/-- A CR LF always separates lines. -/
theorem lines_append (x y : Bytes) : lines (x ++ (crlf ++ y)) = lines x ++ lines y := by
  fun_induction lines x with
  | case1 => exact lines_crlf y
  | case2 b =>
      have hne : ¬ (b = 13 ∧ (13 : UInt8) = 10) := fun h => absurd h.2 (by decide)
      change lines (b :: 13 :: 10 :: y) = _
      rw [lines, if_neg hne, lines_crlf]
      rfl
  | case3 b c rest h ih =>
      rw [List.cons_append, List.cons_append, lines, if_pos h, ih]
      rfl
  | case4 b c rest hne ih =>
      rw [List.cons_append, List.cons_append, lines, if_neg hne, ← List.cons_append, ih,
        modifyHead_append _ (lines_ne_nil _)]

theorem lines_of_not_mem (h : 13 ∉ l) : lines l = [l] := by
  fun_induction lines l with
  | case1 => rfl
  | case2 b => rfl
  | case3 b c rest hend => exact absurd (by simp [hend.1]) h
  | case4 b c rest hne ih =>
      rw [ih fun hmem => h (List.mem_cons_of_mem b hmem)]
      rfl

theorem eq_of_lines_singleton (h : lines s = [l]) : s = l := by
  fun_induction lines s generalizing l with
  | case1 => simpa using h
  | case2 b => simpa using h
  | case3 b c rest hend => exact absurd (List.cons.inj h).2 (lines_ne_nil rest)
  | case4 b c rest hne ih =>
      rw [lines_eq (c :: rest)] at h ih
      obtain ⟨hhead, htail⟩ := List.cons.inj h
      rw [ih (by rw [htail])]
      exact hhead

/-- A text is its first line, or its first line, CR LF and the rest. -/
theorem eq_firstLine_append (s : Bytes) :
    (s = firstLine s ∧ lines s = [s]) ∨
      ∃ rest, s = firstLine s ++ (crlf ++ rest) ∧ (lines s).tail = lines rest := by
  fun_induction lines s with
  | case1 => exact Or.inl ⟨rfl, rfl⟩
  | case2 b => exact Or.inl ⟨rfl, rfl⟩
  | case3 b c rest h =>
      obtain ⟨rfl, rfl⟩ := h
      refine Or.inr ⟨rest, ?_, rfl⟩
      rw [firstLine, lines_crlf]
      rfl
  | case4 b c rest hne ih =>
      have hfirst : firstLine (b :: c :: rest) = b :: firstLine (c :: rest) := by
        rw [firstLine, lines_cons hne]
        rfl
      rw [hfirst]
      rcases ih with ⟨hs, hlines⟩ | ⟨more, hs, htail⟩
      · refine Or.inl ⟨congrArg _ hs, ?_⟩
        rw [hlines]
        rfl
      · refine Or.inr ⟨more, ?_, ?_⟩
        · rw [List.cons_append, ← hs]
        · rw [← htail, lines_eq (c :: rest)]
          rfl

theorem take_firstLine (s : Bytes) : s.take (firstLine s).length = firstLine s := by
  rcases eq_firstLine_append s with ⟨hs, -⟩ | ⟨rest, hs, -⟩
  · rw [← hs, List.take_length]
  · have htake : (firstLine s ++ (crlf ++ rest)).take (firstLine s).length = firstLine s :=
      List.take_left
    rwa [← hs] at htake

/-- What follows a part of the first line begins with the rest of that line. -/
theorem firstLine_drop {n : Nat} (h : n ≤ (firstLine s).length) :
    firstLine (s.drop n) = (firstLine s).drop n := by
  induction n generalizing s with
  | zero => rfl
  | succ n ih =>
      match s with
      | [] => exact absurd h (by simp [firstLine, lines])
      | [b] =>
          have hn : n = 0 := by simpa [firstLine, lines] using h
          rw [hn]
          rfl
      | b :: c :: rest =>
          by_cases hend : b = 13 ∧ c = 10
          · obtain ⟨rfl, rfl⟩ := hend
            rw [firstLine, lines_crlf] at h
            exact absurd h (by simp)
          · have hfirst : firstLine (b :: c :: rest) = b :: firstLine (c :: rest) := by
              rw [firstLine, lines_cons hend]
              rfl
            rw [hfirst, List.length_cons] at h
            rw [hfirst, List.drop_succ_cons, List.drop_succ_cons]
            exact ih (by omega)

end Lines

section Fields

/-- A letter of ASCII in lower case, and every other octet as it is. -/
def lower (b : UInt8) : UInt8 := if 0x41 ≤ b ∧ b ≤ 0x5A then b + 0x20 else b

def isBlank (b : UInt8) : Bool := b = 0x20 ∨ b = 0x09

/-- The line begins with the name and a colon. -/
def named (name line : Bytes) : Bool := ((name ++ [0x3A]).map lower).isPrefixOf (line.map lower)

/-- The value of the first line after the start line that has the name. -/
def field? (name text : Bytes) : Option Bytes :=
  ((lines text).tail.find? (named name)).map fun line =>
    (line.drop (name.length + 1)).dropWhile isBlank

/-- Only a CR becomes a CR, only an LF an LF and only a blank a blank. -/
theorem lower_eq_iff {b c : UInt8} (hc : c < 0x41) : lower b = c ↔ b = c := by
  rw [UInt8.lt_iff_toNat_lt, show (0x41 : UInt8).toNat = 65 from rfl] at hc
  rw [lower]
  split
  · next h =>
      rw [UInt8.le_iff_toNat_le, UInt8.le_iff_toNat_le, show (0x41 : UInt8).toNat = 65 from rfl,
        show (0x5A : UInt8).toNat = 90 from rfl] at h
      rw [← UInt8.toNat_inj, ← UInt8.toNat_inj, UInt8.toNat_add,
        show (0x20 : UInt8).toNat = 32 from rfl]
      omega
  · exact Iff.rfl

theorem named_self (name rest : Bytes) : named name (name ++ 0x3A :: rest) = true := by
  rw [named, List.isPrefixOf_iff_prefix, List.map_append, List.map_append]
  exact (List.prefix_append_right_inj _).mpr (List.cons_prefix_cons.mpr ⟨rfl, List.nil_prefix⟩)

/-- A line that begins with another letter. -/
theorem named_of_ne {a b : UInt8} (name line : Bytes) (h : lower a ≠ lower b) :
    named (a :: name) (b :: line) = false := by
  change (lower a == lower b && _) = false
  rw [beq_false_of_ne h, Bool.false_and]

theorem isBlank_lower (b : UInt8) : isBlank (lower b) = isBlank b := by
  have hspace : lower b = 0x20 ↔ b = 0x20 := lower_eq_iff (by decide)
  have htab : lower b = 0x09 ↔ b = 0x09 := lower_eq_iff (by decide)
  simp only [isBlank, hspace, htab]

end Fields

section Search

/-- The first position at which the octets `sub` stand. -/
def seek (sub : Bytes) : Bytes → Option Nat
  | [] => if sub.isPrefixOf [] then some 0 else none
  | b :: s => if sub.isPrefixOf (b :: s) then some 0 else (seek sub s).map (· + 1)

/-- The first position from `pos` on at which the octets `sub` stand. -/
def find (s sub : Bytes) (pos : Nat) : Option Nat :=
  if pos ≤ s.length then (seek sub (s.drop pos)).map (pos + ·) else none

theorem crlf_isPrefixOf (b c : UInt8) (k s : Bytes) :
    (crlf ++ k).isPrefixOf (lower b :: lower c :: s) = true ↔
      (b = 13 ∧ c = 10) ∧ k.isPrefixOf s = true := by
  change ((13 : UInt8) == lower b && ((10 : UInt8) == lower c && k.isPrefixOf s)) = true ↔ _
  rw [Bool.and_eq_true, Bool.and_eq_true, beq_iff_eq, beq_iff_eq, eq_comm,
    lower_eq_iff (by decide), @eq_comm _ 10, lower_eq_iff (by decide), and_assoc]

/-- The first CR LF is where the first line ends. -/
theorem seek_crlf (s : Bytes) :
    (seek crlf (s.map lower)).getD s.length = (firstLine s).length := by
  fun_induction lines s with
  | case1 => rfl
  | case2 b =>
      have hno : crlf.isPrefixOf [lower b] = false := by
        change ((13 : UInt8) == lower b && false) = false
        rw [Bool.and_false]
      rw [List.map_singleton, seek, hno]
      rfl
  | case3 b c rest h =>
      have hyes := (crlf_isPrefixOf b c [] (rest.map lower)).mpr ⟨h, List.isPrefixOf_nil_left⟩
      obtain ⟨rfl, rfl⟩ := h
      rw [List.append_nil] at hyes
      rw [List.map_cons, List.map_cons, seek, if_pos hyes, firstLine, lines_crlf]
      rfl
  | case4 b c rest hne ih =>
      have hno : ¬ crlf.isPrefixOf (lower b :: lower c :: rest.map lower) = true := by
        intro hyes
        exact hne ((crlf_isPrefixOf b c [] (rest.map lower)).mp hyes).1
      have hfirst : firstLine (b :: c :: rest) = b :: firstLine (c :: rest) := by
        rw [firstLine, lines_cons hne]
        rfl
      rw [List.map_cons] at ih
      rw [List.map_cons, List.map_cons, seek, if_neg hno, hfirst, List.length_cons,
        List.length_cons (a := b), ← ih]
      cases seek crlf (lower c :: rest.map lower) <;> rfl

variable {k : Bytes}

/-- A word without CR at the front of a text is at the front of its first line. -/
theorem isPrefixOf_firstLine (hk : 13 ∉ k) (s : Bytes) :
    k.isPrefixOf (s.map lower) = k.isPrefixOf ((firstLine s).map lower) := by
  rcases eq_firstLine_append s with ⟨hs, -⟩ | ⟨rest, hs, -⟩
  · rw [← hs]
  · rw [Bool.eq_iff_iff, List.isPrefixOf_iff_prefix, List.isPrefixOf_iff_prefix]
    constructor
    · intro h
      rw [hs, List.map_append, List.map_append] at h
      rcases List.prefix_or_prefix_of_prefix h (List.prefix_append _ _) with hshort | ⟨more, hmore⟩
      · exact hshort
      · -- a longer word would have the CR that ends the line
        rw [← hmore, List.prefix_append_right_inj] at h
        cases more with
        | nil =>
            rw [← hmore, List.append_nil]
        | cons b more =>
            have hb : b = 13 := (List.cons_prefix_cons.mp h).1
            refine absurd ?_ hk
            rw [← hmore, hb]
            simp
    · intro h
      rw [hs, List.map_append]
      exact h.trans (List.prefix_append _ _)

/-- Where the octets do not stand at the front, the search goes on behind the first octet. -/
theorem seek_cons {α : Type} {sub s t : Bytes} {b c : UInt8} (g : Bytes → α)
    (h : ¬ sub.isPrefixOf (b :: s) = true) :
    (seek sub (b :: s)).map (fun i => g ((c :: t).drop (i + sub.length))) =
      (seek sub s).map fun i => g (t.drop (i + sub.length)) := by
  rw [seek, if_neg h, Option.map_map]
  congr 1
  funext i
  rw [Function.comp_apply, Nat.add_right_comm, List.drop_succ_cons]

/-- The search passes over a line, to its end. -/
theorem seek_line {l : Bytes} (hl : 13 ∉ l) (k s : Bytes) :
    seek (crlf ++ k) (l ++ (crlf ++ s)) = if k.isPrefixOf s then some l.length
      else (seek (crlf ++ k) s).map (· + (l.length + 2)) := by
  induction l with
  | nil =>
      have hlf : ¬ (crlf ++ k).isPrefixOf (10 :: s) = true := by
        intro hyes
        have h13 : (13 : UInt8) = 10 :=
          (List.cons_prefix_cons.mp (List.isPrefixOf_iff_prefix.mp hyes)).1
        exact absurd h13 (by decide)
      change seek (crlf ++ k) (13 :: 10 :: s) = _
      rw [seek, show (crlf ++ k).isPrefixOf (13 :: 10 :: s) = k.isPrefixOf s from rfl, seek,
        if_neg hlf, Option.map_map]
      rfl
  | cons b l ih =>
      rw [List.mem_cons, not_or] at hl
      have hno : ¬ (crlf ++ k).isPrefixOf (b :: (l ++ (crlf ++ s))) = true := by
        intro hyes
        exact hl.1 (List.cons_prefix_cons.mp (List.isPrefixOf_iff_prefix.mp hyes)).1
      rw [List.cons_append, seek, if_neg hno, ih hl.2, List.length_cons]
      split
      · rfl
      · rw [Option.map_map]
        rfl

/-- The search for a line end and a name finds the first line that begins with the name. -/
theorem seek_name (hk : 13 ∉ k) (t : Bytes) :
    (seek (crlf ++ k) (t.map lower)).map (fun i => firstLine (t.drop (i + (crlf ++ k).length))) =
      ((lines t).tail.find? fun l => k.isPrefixOf (l.map lower)).map (·.drop k.length) := by
  fun_induction lines t with
  | case1 => rfl
  | case2 b =>
      have hno : (crlf ++ k).isPrefixOf [lower b] = false := by
        change ((13 : UInt8) == lower b && false) = false
        rw [Bool.and_false]
      rw [List.map_singleton, seek, hno]
      rfl
  | case3 b c rest h ih =>
      have hfront := crlf_isPrefixOf b c k (rest.map lower)
      obtain ⟨rfl, rfl⟩ := h
      rw [isPrefixOf_firstLine hk] at hfront
      rw [List.tail_cons, lines_eq rest, List.find?_cons, List.map_cons, List.map_cons]
      cases hname : k.isPrefixOf ((firstLine rest).map lower) with
      | true =>
          have hlen : k.length ≤ (firstLine rest).length := by
            have hle := (List.isPrefixOf_iff_prefix.mp hname).length_le
            rwa [List.length_map] at hle
          have hskip : (13 :: 10 :: rest).drop (crlf ++ k).length = rest.drop k.length := by
            rw [List.length_append, Nat.add_comm]
            rfl
          rw [seek, if_pos (hfront.mpr ⟨⟨rfl, rfl⟩, hname⟩), Option.map_some, Option.map_some,
            Nat.zero_add, ← firstLine_drop hlen, hskip]
      | false =>
          have hno : ¬ (crlf ++ k).isPrefixOf (lower 13 :: lower 10 :: rest.map lower) = true := by
            rw [hfront, hname]
            exact fun hyes => Bool.false_ne_true hyes.2
          have hlf : ¬ (crlf ++ k).isPrefixOf (lower 10 :: rest.map lower) = true := by
            intro hyes
            have h13 : (13 : UInt8) = lower 10 :=
              (List.cons_prefix_cons.mp (List.isPrefixOf_iff_prefix.mp hyes)).1
            exact absurd h13 (by decide)
          rw [seek_cons firstLine hno, seek_cons firstLine hlf, ih]
  | case4 b c rest hne ih =>
      have hno : ¬ (crlf ++ k).isPrefixOf (lower b :: lower c :: rest.map lower) = true :=
        fun hyes => hne ((crlf_isPrefixOf b c k (rest.map lower)).mp hyes).1
      have htail : ((lines (c :: rest)).modifyHead (b :: ·)).tail = (lines (c :: rest)).tail := by
        rw [lines_eq (c :: rest)]
        rfl
      rw [htail, ← ih, List.map_cons, List.map_cons, seek_cons firstLine hno]

/-- Blanks at the front of a text are at the front of its first line. -/
theorem firstLine_dropWhile (s : Bytes) :
    firstLine (s.dropWhile isBlank) = (firstLine s).dropWhile isBlank := by
  have hsame : s.takeWhile isBlank = (firstLine s).takeWhile isBlank := by
    rcases eq_firstLine_append s with ⟨hs, -⟩ | ⟨rest, hs, -⟩
    · rw [← hs]
    · conv_lhs => rw [hs]
      rw [List.takeWhile_append]
      split
      · next hall =>
          rw [show (crlf ++ rest).takeWhile isBlank = [] from rfl, List.append_nil]
          exact (List.takeWhile_prefix _).eq_of_length hall |>.symm
      · rfl
  have hlen : (s.takeWhile isBlank).length ≤ (firstLine s).length := by
    rw [hsame]
    exact (List.takeWhile_prefix _).length_le
  have hdrop (l : Bytes) : l.dropWhile isBlank = l.drop (l.takeWhile isBlank).length := by
    have hleft : (l.takeWhile isBlank ++ l.dropWhile isBlank).drop (l.takeWhile isBlank).length =
        l.dropWhile isBlank := List.drop_left
    rw [List.takeWhile_append_dropWhile] at hleft
    exact hleft.symm
  rw [hdrop s, firstLine_drop hlen, hdrop (firstLine s), hsame]

end Search

end HelloWebsocket.Lines
