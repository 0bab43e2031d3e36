import Mathlib.Data.List.DropRight
import OnestiLock.Text

/-! Texts as lines: `str.splitlines`, and joining lines with newlines. -/

namespace Python

/-- `str.isspace` of one character, which is `\s` of a pattern as well. -/
def isWhitespace (c : CodePoint) : Bool :=
  (decide (0x09 ≤ c.val) && decide (c.val ≤ 0x0d)) || (decide (0x1c ≤ c.val) && decide (c.val ≤ 0x20)) ||
    (decide (0x2000 ≤ c.val) && decide (c.val ≤ 0x200a)) ||
    [0x85, 0xa0, 0x1680, 0x2028, 0x2029, 0x202f, 0x205f, 0x3000].contains c.val

/-- Where `str.splitlines` ends a line. -/
def isLineBreak (c : CodePoint) : Bool :=
  (decide (0x0a ≤ c.val) && decide (c.val ≤ 0x0d)) || (decide (0x1c ≤ c.val) && decide (c.val ≤ 0x1e)) ||
    [0x85, 0x2028, 0x2029].contains c.val

def newline : CodePoint := CodePoint.ofNat 10

def carriageReturn : CodePoint := CodePoint.ofNat 13

/-- The lines of what stands after `c`, with `c` before the first. -/
def consLine (c : CodePoint) : List Text → List Text
  | [] => [[c]]
  | line :: rest => (c :: line) :: rest

def splitlines : Text → List Text
  | [] => []
  | c :: rest =>
    if isLineBreak c then
      match rest with
      | [] => [[]]
      | d :: more => if c = carriageReturn ∧ d = newline then [] :: splitlines more else [] :: splitlines (d :: more)
    else consLine c (splitlines rest)

/-- `"\n".join`. -/
def joinLines : List Text → Text
  | [] => []
  | [line] => line
  | line :: other :: rest => line ++ newline :: joinLines (other :: rest)

/-- `str.strip("\n")`. -/
def stripNewlines (t : Text) : Text := (t.dropWhile (· = newline)).rdropWhile (· = newline)

/-- `not line.strip()`. -/
def isBlank (line : Text) : Bool := line.all isWhitespace

/-- A text that is one line. -/
def IsLine (line : Text) : Prop := ∀ c ∈ line, isLineBreak c = false

theorem isLineBreak_newline : isLineBreak newline = true := by decide

theorem IsLine.newline_not_mem {line : Text} (h : IsLine line) : newline ∉ line := by
  intro hmem
  have hbreak := h newline hmem
  rw [isLineBreak_newline] at hbreak
  cases hbreak

theorem mem_consLine {c : CodePoint} {lines : List Text} (hc : isLineBreak c = false)
    (h : ∀ line ∈ lines, IsLine line) : ∀ line ∈ consLine c lines, IsLine line := by
  have hfirst : ∀ line, IsLine line → IsLine (c :: line) := by
    intro line hline d hd
    cases List.mem_cons.mp hd with
    | inl heq => exact heq ▸ hc
    | inr hmem => exact hline d hmem
  cases lines with
  | nil =>
    intro line hline
    rw [List.mem_singleton.mp hline]
    exact hfirst [] (fun d hd => absurd hd List.not_mem_nil)
  | cons head rest =>
    intro line hline
    cases List.mem_cons.mp hline with
    | inl heq =>
      rw [heq]
      exact hfirst head (h head List.mem_cons_self)
    | inr hmem => exact h line (List.mem_cons_of_mem head hmem)

theorem splitlines_cons {c : CodePoint} (hc : isLineBreak c = false) (rest : Text) :
    splitlines (c :: rest) = consLine c (splitlines rest) := by
  rw [splitlines.eq_def]
  simp only [hc, Bool.false_eq_true, if_false]

theorem splitlines_newline (t : Text) : splitlines (newline :: t) = [] :: splitlines t := by
  have hreturn : newline ≠ carriageReturn := by decide
  rw [splitlines.eq_def]
  simp only [isLineBreak_newline, if_true]
  cases t with
  | nil => rfl
  | cons d more => simp only [hreturn, false_and, if_false]

theorem isLine_of_mem_splitlines (t : Text) : ∀ line ∈ splitlines t, IsLine line := by
  have hempty : IsLine [] := fun c hc => absurd hc List.not_mem_nil
  induction t using splitlines.induct with
  | case1 => exact fun line hline => absurd hline List.not_mem_nil
  | case2 c hc =>
    intro line hline
    rw [splitlines, if_pos hc] at hline
    rw [List.mem_singleton.mp hline]
    exact hempty
  | case3 c hc d more hpair ih =>
    intro line hline
    rw [splitlines, if_pos hc] at hline
    simp only [hpair, and_self, if_true] at hline
    cases List.mem_cons.mp hline with
    | inl heq => exact heq ▸ hempty
    | inr hmem => exact ih line hmem
  | case4 c hc d more hpair ih =>
    intro line hline
    rw [splitlines, if_pos hc] at hline
    simp only [hpair, if_false] at hline
    cases List.mem_cons.mp hline with
    | inl heq => exact heq ▸ hempty
    | inr hmem => exact ih line hmem
  | case5 c rest hc ih =>
    intro line hline
    have hbreak : isLineBreak c = false := by simpa using hc
    rw [splitlines_cons hbreak] at hline
    exact mem_consLine hbreak ih line hline

theorem splitlines_append_newline {line : Text} (h : IsLine line) (t : Text) :
    splitlines (line ++ newline :: t) = line :: splitlines t := by
  induction line with
  | nil => exact splitlines_newline t
  | cons c line ih =>
    have hc : isLineBreak c = false := h c List.mem_cons_self
    have hline : IsLine line := fun d hd => h d (List.mem_cons_of_mem c hd)
    rw [List.cons_append, splitlines_cons hc, ih hline]
    rfl

theorem splitlines_line {line : Text} (h : IsLine line) (hne : line ≠ []) : splitlines line = [line] := by
  induction line with
  | nil => exact absurd rfl hne
  | cons c line ih =>
    have hc : isLineBreak c = false := h c List.mem_cons_self
    rw [splitlines_cons hc]
    cases line with
    | nil => rfl
    | cons d rest =>
      rw [ih (fun e he => h e (List.mem_cons_of_mem c he)) (List.cons_ne_nil d rest)]
      rfl

/-- Lines that are joined are there again, where the last one is not empty. -/
theorem splitlines_joinLines {lines : List Text} (h : ∀ line ∈ lines, IsLine line)
    (hlast : ∀ line ∈ lines.getLast?, line ≠ []) : splitlines (joinLines lines) = lines := by
  induction lines with
  | nil => rfl
  | cons line rest ih =>
    have hline : IsLine line := h line List.mem_cons_self
    cases rest with
    | nil => exact splitlines_line hline (hlast line rfl)
    | cons other rest =>
      rw [joinLines, splitlines_append_newline hline]
      congr 1
      apply ih
      · exact fun l hl => h l (List.mem_cons_of_mem line hl)
      · intro l hl
        apply hlast l
        rw [List.getLast?_cons_cons]
        exact hl

theorem joinLines_cons {line : Text} {rest : List Text} (h : rest ≠ []) :
    joinLines (line :: rest) = line ++ newline :: joinLines rest := by
  cases rest with
  | nil => exact absurd rfl h
  | cons other rest => rfl

theorem joinLines_append {lines more : List Text} (h : lines ≠ []) (h' : more ≠ []) :
    joinLines (lines ++ more) = joinLines lines ++ newline :: joinLines more := by
  induction lines with
  | nil => exact absurd rfl h
  | cons line rest ih =>
    cases rest with
    | nil => exact joinLines_cons h'
    | cons other rest =>
      have hrest : other :: rest ≠ [] := List.cons_ne_nil other rest
      rw [List.cons_append, joinLines_cons (List.append_ne_nil_of_left_ne_nil hrest more), ih hrest,
        joinLines_cons hrest, List.append_assoc, List.cons_append]

theorem joinLines_flatten {parts : List (List Text)} (h : ∀ part ∈ parts, part ≠ []) :
    joinLines (parts.map joinLines) = joinLines parts.flatten := by
  induction parts with
  | nil => rfl
  | cons part rest ih =>
    have hrest : ∀ p ∈ rest, p ≠ [] := fun p hp => h p (List.mem_cons_of_mem part hp)
    cases rest with
    | nil => simp [joinLines]
    | cons other rest =>
      have hother : (other :: rest).flatten ≠ [] := by
        simp [hrest other List.mem_cons_self]
      have hjoin : joinLines (part ++ (other :: rest).flatten) =
          joinLines part ++ newline :: joinLines (other :: rest).flatten :=
        joinLines_append (h part List.mem_cons_self) hother
      rw [List.map_cons, joinLines_cons (by simp), ih hrest, ← hjoin]
      rfl

/-! Newlines at the ends are empty lines there. -/

theorem getLast?_rdropWhile {α : Type} (p : α → Bool) (l : List α) : ∀ x ∈ (l.rdropWhile p).getLast?, p x = false := by
  intro x hx
  have hne : l.rdropWhile p ≠ [] := by
    intro hnil
    rw [hnil] at hx
    cases hx
  have hlast := List.rdropWhile_last_not p l hne
  rw [List.getLast?_eq_some_getLast hne] at hx
  rw [Option.some.inj hx] at hlast
  simpa using hlast

theorem dropWhile_append_stop {α : Type} {p : α → Bool} {x : α} (h : p x = false) (front rest : List α) :
    (front ++ x :: rest).dropWhile p = front.dropWhile p ++ x :: rest := by
  rw [List.dropWhile_append]
  by_cases hempty : (front.dropWhile p).isEmpty = true
  · rw [if_pos hempty, List.isEmpty_iff.mp hempty, List.dropWhile_cons_of_neg (by simp [h]), List.nil_append]
  · rw [if_neg hempty]

theorem dropWhile_joinLines {lines : List Text} (h : ∀ line ∈ lines, newline ∉ line) :
    (joinLines lines).dropWhile (· = newline) = joinLines (lines.dropWhile (· = [])) := by
  induction lines with
  | nil => rfl
  | cons line rest ih =>
    have hrest : ∀ l ∈ rest, newline ∉ l := fun l hl => h l (List.mem_cons_of_mem line hl)
    cases line with
    | nil =>
      rw [List.dropWhile_cons_of_pos (by simp), ← ih hrest]
      cases rest with
      | nil => rfl
      | cons other rest => exact List.dropWhile_cons_of_pos (by simp)
    | cons c line =>
      have hc : c ≠ newline := fun heq => h _ List.mem_cons_self (heq ▸ List.mem_cons_self)
      rw [List.dropWhile_cons_of_neg (by simp)]
      cases rest with
      | nil => exact List.dropWhile_cons_of_neg (by simpa using hc)
      | cons other rest => exact List.dropWhile_cons_of_neg (by simpa using hc)

theorem reverse_joinLines (lines : List Text) :
    (joinLines lines).reverse = joinLines (lines.reverse.map List.reverse) := by
  induction lines with
  | nil => rfl
  | cons line rest ih =>
    cases rest with
    | nil => rfl
    | cons other rest =>
      rw [joinLines_cons (by simp), List.reverse_append, List.reverse_cons, ih, List.reverse_cons (a := line),
        List.map_append, joinLines_append (by simp) (by simp)]
      simp [joinLines]

/-- Without the empty lines at both ends. -/
def trimLines (lines : List Text) : List Text := (lines.dropWhile (· = [])).rdropWhile (· = [])

theorem rdropWhile_joinLines {lines : List Text} (h : ∀ line ∈ lines, newline ∉ line) :
    (joinLines lines).rdropWhile (· = newline) = joinLines (lines.rdropWhile (· = [])) := by
  have hreversed : ∀ line ∈ lines.reverse.map List.reverse, newline ∉ line := by
    intro line hline
    obtain ⟨original, horiginal, rfl⟩ := List.mem_map.mp hline
    rw [List.mem_reverse]
    exact h original (List.mem_reverse.mp horiginal)
  have hdrop : (lines.reverse.map List.reverse).dropWhile (· = []) =
      (lines.reverse.dropWhile (· = [])).map List.reverse := by
    rw [List.dropWhile_map]
    simp [Function.comp_def]
  rw [List.rdropWhile, reverse_joinLines, dropWhile_joinLines hreversed, hdrop, reverse_joinLines,
    ← List.map_reverse, List.map_map]
  simp [List.rdropWhile]

theorem stripNewlines_joinLines {lines : List Text} (h : ∀ line ∈ lines, newline ∉ line) :
    stripNewlines (joinLines lines) = joinLines (trimLines lines) := by
  unfold stripNewlines trimLines
  rw [dropWhile_joinLines h]
  exact rdropWhile_joinLines (fun line hline => h line ((List.dropWhile_sublist _).subset hline))

end Python
