import SuiteShift.Text.Indent
import SuiteShift.Proofs.Failure
import SuiteShift.Proofs.Text.Blank
import SuiteShift.Proofs.Text.Bytes
import SuiteShift.Proofs.Text.Indent

/-!
# Lines that are shifted to the left

A line loses blanks at its beginning, counted in bytes.

- `SplitsBlank`, `dedentLine_eq_none_iff`: a line cannot be shifted if the cut falls inside a blank.
- `IsShifted`, `dedentLine_eq_some_iff`: else it loses exactly the bytes before the cut, which are
  blanks. Spaces are lost one by one, `dedentLine_spaces`.
- `dedent_eq_none_iff`, `dedent_eq_some_iff`: the same for all lines of a text but the first.
- `lines_joinChars`, `lines_indented`: lines are found again after they were put together.
-/

namespace SuiteShift
namespace Text

/-! ### One line -/

/-- The cut falls inside a blank of several bytes. -/
def SplitsBlank (offset : Nat) (line : List Char) : Prop :=
  ∃ front c rest, line = front ++ c :: rest ∧ isBlank c = true ∧ 1 < c.utf8Size ∧
    utf8Length front < offset ∧ offset < utf8Length front + c.utf8Size

/-- The line is the rest of another one behind some bytes of blanks. -/
def IsShifted (offset : Nat) (line rest : List Char) : Prop :=
  ∃ gap, line = gap ++ rest ∧ utf8Length gap = offset ∧ ∀ c ∈ gap, isBlank c = true

theorem indentBytes_cons
    (c : Char)
    (line : List Char) :
    indentBytes (c :: line) = if isBlank c then c.utf8Size + indentBytes line else 0 := by
  rw [indentBytes, List.takeWhile_cons]
  cases isBlank c with
  | true =>
      exact utf8Length_cons c _
  | false =>
      rfl

theorem indentBytes_le
    (line : List Char) :
    indentBytes line ≤ utf8Length line := by
  induction line with
  | nil =>
      exact Nat.le_refl 0
  | cons c line ih =>
      rw [indentBytes_cons, utf8Length_cons]
      split_ifs
      · exact Nat.add_le_add_left ih _
      · exact Nat.zero_le _

/-- A character that begins before the end of the indentation is a blank. -/
theorem isBlank_of_lt_indentBytes
    {front rest : List Char}
    {c : Char}
    (h : utf8Length front < indentBytes (front ++ c :: rest)) :
    isBlank c = true := by
  induction front with
  | nil =>
      rw [List.nil_append, indentBytes_cons] at h
      split_ifs at h with hc
      · exact hc
      · cases h
  | cons d front ih =>
      rw [List.cons_append, indentBytes_cons, utf8Length_cons] at h
      split_ifs at h
      · exact ih (by omega)
      · cases h

theorem dedentLine_eq_none_iff
    {column : Nat}
    {line : List Char} :
    dedentLine column line = none ↔ SplitsBlank (min column (indentBytes line)) line := by
  have hindent := indentBytes_le line
  rw [dedentLine, Nat.min_comm, dropBytes_eq_none_iff (by omega)]
  constructor
  · rintro ⟨front, c, rest, rfl, hfront, hc⟩
    have hblank : isBlank c = true :=
      @isBlank_of_lt_indentBytes front rest c (by omega)
    exact ⟨front, c, rest, rfl, hblank, by omega, hfront, hc⟩
  · rintro ⟨front, c, rest, rfl, -, -, hfront, hc⟩
    exact ⟨front, c, rest, rfl, hfront, hc⟩

theorem dedentLine_eq_some_iff
    {column : Nat}
    {line rest : List Char} :
    dedentLine column line = some rest ↔
      IsShifted (min column (indentBytes line)) line rest := by
  rw [dedentLine, Nat.min_comm, dropBytes_eq_some_iff]
  constructor
  · rintro ⟨gap, rfl, hgap⟩
    refine ⟨gap, rfl, hgap, ?_⟩
    intro c hc
    obtain ⟨front, more, rfl⟩ := List.append_of_mem hc
    have hpos := c.utf8Size_pos
    rw [utf8Length_append, utf8Length_cons] at hgap
    rw [List.append_assoc, List.cons_append] at hgap
    exact @isBlank_of_lt_indentBytes front (more ++ rest) c (by omega)
  · rintro ⟨gap, rfl, hgap, -⟩
    exact ⟨gap, rfl, hgap⟩

theorem IsShifted.isBlankLine_eq
    {offset : Nat}
    {line rest : List Char}
    (h : IsShifted offset line rest) :
    isBlankLine rest = isBlankLine line := by
  obtain ⟨gap, rfl, -, hgap⟩ := h
  rw [isBlankLine, isBlankLine, List.all_append, List.all_eq_true.mpr hgap, Bool.true_and]

theorem utf8Length_spaces
    (n : Nat) :
    utf8Length (List.replicate n ' ') = n := by
  induction n with
  | zero =>
      rfl
  | succ n ih =>
      rw [List.replicate_succ, utf8Length_cons, ih, Nat.add_comm]
      rfl

/-- Spaces up to the column are lost. -/
theorem dedentLine_spaces
    (column : Nat)
    (rest : List Char) :
    dedentLine column (List.replicate column ' ' ++ rest) = some rest := by
  have hindent : column ≤ indentBytes (List.replicate column ' ' ++ rest) := by
    rw [indentBytes, List.takeWhile_append_of_pos, utf8Length_append, utf8Length_spaces]
    · exact Nat.le_add_right _ _
    · intro c hc
      rw [List.eq_of_mem_replicate hc]
      rfl
  rw [dedentLine_eq_some_iff, Nat.min_eq_left hindent]
  refine ⟨List.replicate column ' ', rfl, utf8Length_spaces column, ?_⟩
  intro c hc
  rw [List.eq_of_mem_replicate hc]
  rfl

/-! ### All lines of a text -/

theorem dedent_eq
    (column : Nat)
    (text : List Char) :
    dedent column text =
      ((lines text).tail.mapM (dedentLine column)).map fun rest =>
        joinChars ['\n'] ((lines text).head?.toList ++ rest) := by
  rw [dedent]
  cases lines text <;> rfl

/-- A text cannot be shifted if that splits a blank of one of the later lines. -/
theorem dedent_eq_none_iff
    {column : Nat}
    {text : List Char} :
    dedent column text = none ↔
      ∃ line ∈ (lines text).tail, SplitsBlank (min column (indentBytes line)) line := by
  have hsome := Failure.isSome_mapM (dedentLine column) (lines text).tail
  rw [dedent_eq, Option.map_eq_none_iff, ← Option.not_isSome_iff_eq_none, hsome,
    List.all_eq_true]
  push Not
  simp only [← dedentLine_eq_none_iff, Option.not_isSome_iff_eq_none]

/-- The first line stays, and every other one loses blanks. -/
theorem dedent_eq_some_iff
    {column : Nat}
    {text moved : List Char} :
    dedent column text = some moved ↔
      ∃ rest, moved = joinChars ['\n'] ((lines text).head?.toList ++ rest) ∧
        List.Forall₂ (fun line cut => IsShifted (min column (indentBytes line)) line cut)
          (lines text).tail rest := by
  rw [dedent_eq, Option.map_eq_some_iff]
  simp only [Failure.mapM_eq_some_iff, dedentLine_eq_some_iff]
  constructor
  · rintro ⟨rest, hrest, rfl⟩
    exact ⟨rest, rfl, hrest⟩
  · rintro ⟨rest, rfl, hrest⟩
    exact ⟨rest, hrest, rfl⟩

/-! ### Lines that are found again -/

/-- The line has no part of a line end in it. -/
def IsRow (row : List Char) : Prop :=
  ∀ c ∈ row, isLineEnd c = false

theorem isRow_of_mem_lines
    {text row : List Char}
    (hreturn : '\r' ∉ text)
    (h : row ∈ lines text) :
    IsRow row := by
  intro c hc
  rw [isLineEnd, Bool.or_eq_false_iff, beq_eq_false_iff_ne, beq_eq_false_iff_ne]
  refine ⟨?_, ?_⟩
  · rintro rfl
    exact not_mem_of_mem_lines h hc
  · rintro rfl
    rcases mem_of_mem_linesAfter h hc with hseen | htext
    · cases hseen
    · exact hreturn htext

theorem IsRow.not_mem
    {row : List Char}
    (h : IsRow row) :
    '\n' ∉ row := by
  intro hmem
  exact absurd (h '\n' hmem) (by decide)

theorem dropReturn_reverse
    {row : List Char}
    (h : IsRow row) :
    (dropReturn row.reverse).reverse = row := by
  obtain rfl | ⟨front, c, rfl⟩ := List.eq_nil_or_concat row
  · rfl
  · have hc := (ne_of_isLineEnd (h c (by simp))).2
    rw [List.concat_eq_append, List.reverse_append, List.reverse_singleton, List.singleton_append,
      dropReturn_of_ne hc]
    simp

/-- Lines that end, and a last one that is not empty, are found again. -/
theorem lines_flatMap_append
    {rows : List (List Char)}
    {last : List Char}
    (hrows : ∀ row ∈ rows, IsRow row)
    (hlast : last = [] ∨ IsRow last) :
    lines (rows.flatMap (· ++ ['\n']) ++ last) =
      rows ++ if last.isEmpty then [] else [last] := by
  induction rows with
  | nil =>
      rw [List.flatMap_nil, List.nil_append, List.nil_append]
      rcases last with _ | ⟨c, last⟩
      · rfl
      · exact lines_of_not_mem (by simp) (hlast.resolve_left (by simp)).not_mem
  | cons row rows ih =>
      have hrow := hrows row List.mem_cons_self
      rw [List.flatMap_cons, List.append_assoc, List.append_assoc, lines,
        linesAfter_of_not_mem hrow.not_mem, List.append_nil, List.singleton_append, linesAfter,
        dropReturn_reverse hrow, ← lines, ih fun other h => hrows other (List.mem_cons_of_mem _ h)]
      rfl

/-- Lines are found again in their text, if the last one is not empty. -/
theorem lines_joinChars
    {rows : List (List Char)}
    (hrows : ∀ row ∈ rows, IsRow row)
    (hlast : ∀ last ∈ rows.getLast?, last ≠ []) :
    lines (joinChars ['\n'] rows) = rows := by
  obtain rfl | ⟨front, last, rfl⟩ := List.eq_nil_or_concat rows
  · rfl
  · rw [List.concat_eq_append] at hrows hlast ⊢
    rw [joinChars_concat, lines_flatMap_append]
    · rw [if_neg (by simpa using hlast last List.getLast?_concat)]
    · exact fun row hrow => hrows row (List.mem_append_left _ hrow)
    · exact .inr (hrows last (by simp))

theorem isRow_indentLine
    {row : List Char}
    (h : IsRow row)
    (depth : Nat) :
    IsRow (indentLine depth row) := by
  intro c hc
  unfold indentLine at hc
  split_ifs at hc
  · cases hc
  · rcases List.mem_append.mp hc with hc | hc
    · rw [List.eq_of_mem_replicate hc]
      rfl
    · exact h c hc

theorem lines_indented
    {rows : List (List Char)}
    (hrows : ∀ row ∈ rows, IsRow row)
    (depth : Nat) :
    lines (indented depth rows) = rows.map (indentLine depth) := by
  have hmoved : ∀ row ∈ rows.map (indentLine depth), IsRow row := by
    intro moved hmem
    obtain ⟨row, hrow, rfl⟩ := List.mem_map.mp hmem
    exact isRow_indentLine (hrows row hrow) depth
  have hlines := lines_flatMap_append hmoved (.inl rfl)
  rw [List.append_nil, List.flatMap_map] at hlines
  exact hlines.trans (List.append_nil _)

end Text
end SuiteShift
