import SuiteShift.Proofs.Text.Lines
import SuiteShift.Proofs.Text.Split

/-!
# Pieces of code among indented lines

Code is moved to a level of nesting line by line, without a look at where a literal begins or ends.

- `indented`: the lines of a text at a level of nesting, each with its line end.
- `reindent`: what that makes of a text that begins in the middle of a line.
- `IsRun`: the text neither begins nor ends with a line end; a text in backticks is such a text,
  `IsTemplate.isRun`.
- `exists_indented_run`: such a text, wherever it stands in some code.
- `IsRun.reindent_eq_self_iff`: it stays as it is if it has one line, and else never.
-/

namespace SuiteShift
namespace Text

/-- A line at a level of nesting; an empty line stays empty. -/
def indentLine (depth : Nat) (row : List Char) : List Char :=
  if row.isEmpty then [] else List.replicate (2 * depth) ' ' ++ row

/-- Lines at a level of nesting, each with its line end. -/
def indented (depth : Nat) (rows : List (List Char)) : List Char :=
  rows.flatMap fun row => indentLine depth row ++ ['\n']

/-- A text with its lines but the first at a level of nesting. -/
def reindent (depth : Nat) (text : List Char) : List Char :=
  match lines text with
  | [] => []
  | first :: rest => joinChars ['\n'] (first :: rest.map (indentLine depth))

/-- The text of a template literal. -/
def IsTemplate (text : List Char) : Prop :=
  ∃ inside, text = '\x60' :: inside ++ ['\x60']

/-- The character belongs to a line end. -/
def isLineEnd (c : Char) : Bool :=
  c == '\n' || c == '\r'

/-- The text has a first and a last character, and neither belongs to a line end. -/
structure IsRun (text : List Char) : Prop where
  nonempty : text ≠ []
  begins : ∀ c ∈ text.head?, isLineEnd c = false
  ends : ∀ c ∈ text.getLast?, isLineEnd c = false

theorem indentLine_of_ne_nil
    {row : List Char}
    (h : row ≠ [])
    (depth : Nat) :
    indentLine depth row = List.replicate (2 * depth) ' ' ++ row := by
  rw [indentLine, if_neg (by simpa using h)]

theorem indented_append
    (depth : Nat)
    (first second : List (List Char)) :
    indented depth (first ++ second) = indented depth first ++ indented depth second := by
  exact List.flatMap_append

theorem indented_cons
    {row : List Char}
    (h : row ≠ [])
    (depth : Nat)
    (rows : List (List Char)) :
    indented depth (row :: rows) =
      List.replicate (2 * depth) ' ' ++ row ++ '\n' :: indented depth rows := by
  rw [indented, List.flatMap_cons, indentLine_of_ne_nil h]
  simp [indented]

theorem reindent_of_lines_eq_single
    {text row : List Char}
    (h : lines text = [row])
    (depth : Nat) :
    reindent depth text = row := by
  rw [reindent, h]
  rfl

theorem reindent_of_lines_eq
    {text first last : List Char}
    {rows : List (List Char)}
    (h : lines text = first :: (rows ++ [last]))
    (depth : Nat) :
    reindent depth text = first ++ '\n' :: (indented depth rows ++ indentLine depth last) := by
  rw [reindent, h]
  dsimp only
  rw [List.map_append, List.map_singleton, ← List.cons_append, joinChars_concat,
    List.flatMap_cons, List.flatMap_map, List.append_assoc, List.append_assoc]
  rfl

/-! ### The lines of a piece -/

theorem ne_of_isLineEnd
    {c : Char}
    (h : isLineEnd c = false) :
    c ≠ '\n' ∧ c ≠ '\r' := by
  simpa [isLineEnd] using h

namespace IsRun

variable {text : List Char}

theorem exists_cons
    (h : IsRun text) :
    ∃ c inside, text = c :: inside ∧ isLineEnd c = false := by
  obtain ⟨c, inside, rfl⟩ := List.exists_cons_of_ne_nil h.nonempty
  exact ⟨c, inside, rfl, h.begins c rfl⟩

theorem exists_concat
    (h : IsRun text) :
    ∃ inside c, text = inside ++ [c] ∧ isLineEnd c = false := by
  obtain rfl | ⟨inside, c, rfl⟩ := List.eq_nil_or_concat text
  · exact absurd rfl h.nonempty
  · rw [List.concat_eq_append] at h ⊢
    exact ⟨inside, c, rfl, h.ends c List.getLast?_concat⟩

/-- The last line goes on after the text. -/
theorem exists_lines
    (h : IsRun text) :
    ∃ rows c last, c ≠ '\r' ∧
      lines text = rows ++ [(c :: last).reverse] ∧
      ∀ after, lines (text ++ after) = rows ++ linesAfter (c :: last) after := by
  obtain ⟨inside, c, rfl, hc⟩ := h.exists_concat
  obtain ⟨hnewline, hreturn⟩ := ne_of_isLineEnd hc
  obtain ⟨rows, last, hrows⟩ := exists_linesAfter_append [] inside
  have hafter : ∀ after, lines (inside ++ [c] ++ after) = rows ++ linesAfter (c :: last) after := by
    intro after
    rw [lines, List.append_assoc, hrows, List.singleton_append,
      linesAfter.eq_3 _ _ _ hnewline]
  refine ⟨rows, c, last, hreturn, ?_, hafter⟩
  have hnil := hafter []
  rwa [List.append_nil, linesAfter, if_neg (by simp)] at hnil

/-- The first line goes on from what stands before the text. -/
theorem exists_linesAfter
    (h : IsRun text)
    (after : List Char) :
    ∃ c more rest, text.head? = some c ∧ ∀ seen,
      linesAfter seen (text ++ after) = (seen.reverse ++ c :: more) :: rest := by
  obtain ⟨c, inside, rfl, hc⟩ := h.exists_cons
  obtain ⟨hnewline, hreturn⟩ := ne_of_isLineEnd hc
  obtain ⟨more, rest, hmore⟩ := exists_linesAfter_begun [] (inside ++ after)
  refine ⟨c, more, rest, rfl, ?_⟩
  intro seen
  have hline := hmore (c :: seen) (.inr ⟨c, seen, rfl, hreturn⟩)
  rw [List.cons_append, linesAfter.eq_3 _ _ _ hnewline]
  simpa using hline

theorem exists_reindent
    (h : IsRun text)
    (depth : Nat) :
    ∃ c more, text.head? = some c ∧ reindent depth text = c :: more := by
  obtain ⟨c, first, rest, hhead, hfirst⟩ := h.exists_linesAfter []
  have hlines := hfirst []
  rw [List.append_nil, ← lines, List.reverse_nil, List.nil_append] at hlines
  rw [reindent, hlines]
  cases rest with
  | nil =>
      exact ⟨c, first, hhead, rfl⟩
  | cons second rest =>
      exact ⟨c, _, hhead, rfl⟩

end IsRun

/-- In indented code, a piece stands as `reindent` gives it, between texts that do not depend on
it. -/
theorem exists_indented_run
    (depth : Nat)
    (before after : List Char) :
    ∃ front back, ∀ text, IsRun text →
      indented depth (lines (before ++ text ++ after)) =
        front ++ reindent depth text ++ back := by
  obtain ⟨rowsBefore, seen, hbefore⟩ := exists_linesAfter_append [] before
  obtain ⟨more, rowsAfter, hafter⟩ := exists_linesAfter_begun [] after
  refine ⟨indented depth rowsBefore ++ List.replicate (2 * depth) ' ' ++ seen.reverse,
    more ++ '\n' :: indented depth rowsAfter, ?_⟩
  intro text htext
  obtain ⟨rows, d, last, hd, hrows, hon⟩ := htext.exists_lines
  obtain ⟨c, first, rest, -, hseen⟩ := htext.exists_linesAfter after
  have hline : (d :: last).reverse ≠ [] := by
    simp
  -- The lines of the text and of what follows it, begun anew and begun in the middle of a line.
  have hfresh : (c :: first) :: rest =
      rows ++ ((d :: last).reverse ++ more) :: rowsAfter := by
    rw [← hafter _ (.inr ⟨d, last, rfl, hd⟩), List.nil_append, ← hon, lines, hseen]
    rfl
  rw [lines, List.append_assoc, hbefore, hseen, indented_append, indented_cons (by simp)]
  cases rows with
  | nil =>
      rw [List.nil_append, List.cons.injEq] at hfresh
      rw [hfresh.1, hfresh.2, reindent_of_lines_eq_single hrows]
      simp
  | cons row rows =>
      rw [List.cons_append, List.cons.injEq] at hfresh
      rw [hfresh.1, hfresh.2, reindent_of_lines_eq hrows, indented_append,
        indented_cons (by simp), indentLine_of_ne_nil hline]
      simp

/-! ### Pieces of several lines -/

theorem lines_of_not_mem
    {row : List Char}
    (hne : row ≠ [])
    (h : '\n' ∉ row) :
    lines row = [row] := by
  have hrow := linesAfter_of_not_mem h [] []
  rw [List.append_nil, List.append_nil, linesAfter, if_neg (by simpa using hne),
    List.reverse_reverse] at hrow
  exact hrow

/-- The lines of a text are those that end in it and its last line. -/
theorem exists_lines_append_newline
    {last : List Char}
    (hne : last ≠ [])
    (h : '\n' ∉ last)
    (front : List Char) :
    ∃ first rows, lines (front ++ '\n' :: last) = first :: (rows ++ [last]) := by
  obtain ⟨rows, seen, hrows⟩ := exists_linesAfter_append [] front
  have hlines : lines (front ++ '\n' :: last) = rows ++ [(dropReturn seen).reverse] ++ [last] := by
    rw [lines, hrows, linesAfter, ← lines, lines_of_not_mem hne h]
    simp
  have hended : rows ++ [(dropReturn seen).reverse] ≠ [] := by
    simp
  obtain ⟨first, others, hothers⟩ := List.exists_cons_of_ne_nil hended
  exact ⟨first, others, by rw [hlines, hothers, List.cons_append]⟩

/-- Indented lines end with a line end, as what stands before them does. -/
theorem exists_newline_indented
    (depth : Nat)
    (rows : List (List Char)) :
    ∃ front, '\n' :: indented depth rows = front ++ ['\n'] := by
  rcases List.eq_nil_or_concat rows with rfl | ⟨rows, last, rfl⟩
  · exact ⟨[], rfl⟩
  · refine ⟨'\n' :: (indented depth rows ++ indentLine depth last), ?_⟩
    rw [List.concat_eq_append, indented_append]
    simp [indented]

theorem getLast?_lines
    {last : List Char}
    (hne : last ≠ [])
    (h : '\n' ∉ last)
    (front : List Char) :
    (lines (front ++ '\n' :: last)).getLast? = some last := by
  obtain ⟨first, rows, hlines⟩ := exists_lines_append_newline hne h front
  rw [hlines, ← List.cons_append, List.getLast?_concat]

/-- The last line of a text is moved, whatever becomes of the lines before it. -/
theorem exists_reindent_append_newline
    {last : List Char}
    (hne : last ≠ [])
    (h : '\n' ∉ last)
    (depth : Nat)
    (front : List Char) :
    ∃ moved, reindent depth (front ++ '\n' :: last) =
      moved ++ '\n' :: (List.replicate (2 * depth) ' ' ++ last) := by
  obtain ⟨first, rows, hlines⟩ := exists_lines_append_newline hne h front
  obtain ⟨middle, hmiddle⟩ := exists_newline_indented depth rows
  refine ⟨first ++ middle, ?_⟩
  rw [reindent_of_lines_eq hlines, indentLine_of_ne_nil hne, ← List.cons_append, hmiddle]
  simp

namespace IsRun

variable {text : List Char}

/-- A text of several lines ends with a line that is not empty. -/
theorem exists_last_line
    (h : IsRun text)
    (hmem : '\n' ∈ text) :
    ∃ front last, text = front ++ '\n' :: last ∧ last ≠ [] ∧ '\n' ∉ last := by
  obtain hone | ⟨front, last, hlast, hone⟩ := exists_last_row text
  · exact absurd hmem hone
  refine ⟨front, last, hlast, ?_, hone⟩
  rintro rfl
  have hend := h.ends '\n' (by rw [hlast, List.getLast?_concat]; rfl)
  exact absurd hend (by decide)

/-- Below the top level, exactly the texts with one line stay as they are. -/
theorem reindent_eq_self_iff
    {depth : Nat}
    (h : IsRun text)
    (hdepth : 0 < depth) :
    reindent depth text = text ↔ '\n' ∉ text := by
  constructor
  · intro heq hmem
    obtain ⟨front, last, rfl, hne, hlast⟩ := h.exists_last_line hmem
    obtain ⟨moved, hmoved⟩ := exists_reindent_append_newline hne hlast depth front
    have hline : '\n' ∉ List.replicate (2 * depth) ' ' ++ last := by
      simp [hlast]
    -- The last line is read in two ways, with and without the blanks.
    have hread := getLast?_lines (by simp [hne]) hline moved
    rw [← hmoved, heq, getLast?_lines hne hlast, Option.some.injEq] at hread
    have hlength := congrArg List.length hread
    rw [List.length_append, List.length_replicate] at hlength
    omega
  · intro hone
    exact reindent_of_lines_eq_single (lines_of_not_mem h.nonempty hone) depth

end IsRun

/-! ### Literals -/

theorem IsTemplate.isRun
    {literal : List Char}
    (h : IsTemplate literal) :
    IsRun literal := by
  obtain ⟨inside, rfl⟩ := h
  refine ⟨by simp, ?_, ?_⟩
  · rintro c ⟨⟩
    rfl
  · intro c hc
    rw [List.getLast?_concat] at hc
    cases hc
    rfl

theorem exists_reindent_template
    {literal : List Char}
    (h : IsTemplate literal)
    (depth : Nat) :
    ∃ more, reindent depth literal = '\x60' :: more := by
  obtain ⟨c, more, hhead, hmore⟩ := h.isRun.exists_reindent depth
  obtain ⟨inside, rfl⟩ := h
  cases hhead
  exact ⟨more, hmore⟩

/-- Below the top level, exactly the literals with one line keep their text. -/
theorem reindent_eq_self_iff
    {depth : Nat}
    {literal : List Char}
    (hdepth : 0 < depth)
    (h : IsTemplate literal) :
    reindent depth literal = literal ↔ '\n' ∉ literal := by
  exact h.isRun.reindent_eq_self_iff hdepth

end Text
end SuiteShift
