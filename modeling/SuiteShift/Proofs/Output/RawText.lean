import SuiteShift.Proofs.Output.TemplateText
import SuiteShift.Proofs.Text.Dedent

/-!
# Statements that are kept as text

The text of a statement is shifted to the left when it is read, and written at a level of nesting
again.

- `lines_text_block`: the lines of what is written are those of the text, each at its level.
- `IsRestored`: the first line stands at the level, and every line that was indented to it is as it
  was.
- `dedented_block_restored`: when a text can be shifted, what it loses, and what is written for it.
-/

namespace SuiteShift
namespace Output

open Text (IsRow IsShifted)

/-- Lines that were shifted and are written at a level of nesting, against what they were. -/
structure IsRestored (depth : Nat) (lines written : List (List Char)) : Prop where
  /-- No line is lost and none is added. -/
  length_eq : written.length = lines.length
  /-- The first line stands at the level. -/
  head?_eq : written.head? = lines.head?.map (List.replicate (2 * depth) ' ' ++ ·)
  /-- A later line is as it was, if it is not blank and begins with the spaces of the level. -/
  later : ∀ i line, 0 < i → lines[i]? = some line → Text.isBlankLine line = false →
    List.replicate (2 * depth) ' ' <+: line → written[i]? = some line

/-- The lines of a block are the lines of its code at a level of nesting. -/
theorem lines_text_block
    {rows : List (List Char)}
    (hrows : ∀ row ∈ rows, IsRow row)
    (hlast : ∀ last ∈ rows.getLast?, last ≠ [])
    (depth : Nat) :
    Text.lines (Written.block depth
      (String.ofList (Text.joinChars ['\n'] rows))).text.toList =
        rows.map (Text.indentLine depth) := by
  rw [Written.toList_text_block, String.toList_ofList, Text.lines_joinChars hrows hlast,
    Text.lines_indented hrows]

theorem ne_nil_of_isBlankLine
    {line : List Char}
    (h : Text.isBlankLine line = false) :
    line ≠ [] := by
  rintro rfl
  cases h

section Shifted

variable {offset : List Char → Nat} {lines rest : List (List Char)}

/-- Shifted lines have no line ends, as the lines themselves. -/
theorem isRow_of_isShifted
    (hlines : ∀ line ∈ lines, IsRow line)
    (hrest : List.Forall₂ (fun line cut => IsShifted (offset line) line cut) lines rest) :
    ∀ cut ∈ rest, IsRow cut := by
  intro cut hcut
  obtain ⟨i, hi⟩ := List.mem_iff_getElem?.mp hcut
  obtain ⟨line, hline, hshifted⟩ := Failure.exists_getElem?_of_forall₂ hrest.flip hi
  obtain ⟨gap, rfl, -⟩ := hshifted
  intro c hc
  exact hlines _ (List.mem_of_getElem? hline) c (List.mem_append_right _ hc)

/-- A line is blank after it was shifted if it was so before. -/
theorem map_isBlankLine
    (hrest : List.Forall₂ (fun line cut => IsShifted (offset line) line cut) lines rest) :
    rest.map Text.isBlankLine = lines.map Text.isBlankLine := by
  induction hrest with
  | nil =>
      rfl
  | cons hcut _ ih =>
      rw [List.map_cons, List.map_cons, hcut.isBlankLine_eq, ih]

/-- The last line is blank after the later lines were shifted if it was so before. -/
theorem isBlankLine_of_mem_getLast?
    {first : List Char}
    (hrest : List.Forall₂ (fun line cut => IsShifted (offset line) line cut) lines rest)
    (hlast : ∀ last ∈ (first :: lines).getLast?, Text.isBlankLine last = false) :
    ∀ last ∈ (first :: rest).getLast?, Text.isBlankLine last = false := by
  intro last hmem
  have hmap : ((first :: rest).map Text.isBlankLine).getLast? =
      ((first :: lines).map Text.isBlankLine).getLast? := by
    rw [List.map_cons, List.map_cons, map_isBlankLine hrest]
  rw [List.getLast?_map, List.getLast?_map, Option.mem_def.mp hmem, Option.map_some] at hmap
  obtain ⟨line, hline, hblank⟩ := Option.map_eq_some_iff.mp hmap.symm
  rw [← hblank]
  exact hlast line hline

end Shifted

/-- A text whose first line stays and whose later lines are shifted. -/
theorem isRestored_of_isShifted
    {depth : Nat}
    {first : List Char}
    {later rest : List (List Char)}
    (hfirst : Text.isBlankLine first = false)
    (hrest : List.Forall₂
      (fun line cut => IsShifted (min (2 * depth) (Text.indentBytes line)) line cut) later rest) :
    IsRestored depth (first :: later) ((first :: rest).map (Text.indentLine depth)) := by
  refine ⟨?_, ?_, ?_⟩
  · rw [List.length_map, List.length_cons, List.length_cons, hrest.length_eq]
  · rw [List.map_cons, List.head?_cons, List.head?_cons, Option.map_some,
      Text.indentLine_of_ne_nil (ne_nil_of_isBlankLine hfirst)]
  · intro i line hi hline hblank hspaces
    obtain ⟨k, rfl⟩ := Nat.exists_eq_succ_of_ne_zero (Nat.ne_of_gt hi)
    rw [Nat.succ_eq_add_one, List.getElem?_cons_succ] at hline
    obtain ⟨cut, hcut, hshifted⟩ := Failure.exists_getElem?_of_forall₂ hrest hline
    have hne := ne_nil_of_isBlankLine (hshifted.isBlankLine_eq.trans hblank)
    obtain ⟨body, rfl⟩ := hspaces
    -- What the line loses are the spaces that are written before it.
    have hbody := Text.dedentLine_eq_some_iff.mpr hshifted
    rw [Text.dedentLine_spaces, Option.some.injEq] at hbody
    subst hbody
    rw [Nat.succ_eq_add_one, List.map_cons, List.getElem?_cons_succ, List.getElem?_map, hcut,
      Option.map_some, Text.indentLine_of_ne_nil hne]

/-- A text without carriage returns can be shifted to the left unless that splits a blank of a later
line; then the first line stays, and every other one loses as many bytes of blanks as it has, up to
the column. A text that neither begins nor ends with a blank line, shifted by the columns of a level
of nesting and written at that level, has as many lines as before, the first one at the level, and
the others as they were if they were indented to it. -/
theorem dedented_block_restored
    {text : List Char}
    (hreturn : '\r' ∉ text) :
    (∀ column,
      (Text.dedent column text = none ↔
        ∃ line ∈ (Text.lines text).tail,
          Text.SplitsBlank (min column (Text.indentBytes line)) line) ∧
      ∀ moved, Text.dedent column text = some moved →
        ∃ rest, moved = Text.joinChars ['\n'] ((Text.lines text).head?.toList ++ rest) ∧
          List.Forall₂ (fun line cut => IsShifted (min column (Text.indentBytes line)) line cut)
            (Text.lines text).tail rest) ∧
    ∀ depth moved,
      (∀ first ∈ (Text.lines text).head?, Text.isBlankLine first = false) →
      (∀ last ∈ (Text.lines text).getLast?, Text.isBlankLine last = false) →
      Text.dedent (2 * depth) text = some moved →
      IsRestored depth (Text.lines text)
        (Text.lines (Written.block depth (String.ofList moved)).text.toList) := by
  refine ⟨fun column => ⟨Text.dedent_eq_none_iff, fun moved => Text.dedent_eq_some_iff.mp⟩, ?_⟩
  intro depth moved hfirst hlast hmoved
  have hrows : ∀ row ∈ Text.lines text, IsRow row := by
    intro row hrow
    exact Text.isRow_of_mem_lines hreturn hrow
  obtain ⟨rest, rfl, hrest⟩ := Text.dedent_eq_some_iff.mp hmoved
  cases hlines : Text.lines text with
  | nil =>
      rw [hlines] at hrest
      cases hrest
      exact ⟨rfl, rfl, by simp⟩
  | cons first later =>
      rw [hlines] at hfirst hlast hrest hrows
      rw [List.tail_cons] at hrest
      rw [List.head?_cons, Option.toList_some, List.singleton_append, lines_text_block]
      · exact isRestored_of_isShifted (hfirst first rfl) hrest
      · rw [List.forall_mem_cons] at hrows ⊢
        exact ⟨hrows.1, isRow_of_isShifted hrows.2 hrest⟩
      · intro last hmem
        exact ne_nil_of_isBlankLine (isBlankLine_of_mem_getLast? hrest hlast last hmem)

/-- A statement of several lines in a test, as it is written in the source. -/
def objectText : List Char :=
  "const user = \x7b\n      name: 'a',\n\n    \x7d;".toList

/-- A second line that begins with a blank of two bytes. -/
def wideBlankText : List Char :=
  "a\n\u00a0b".toList

theorem dedented_block_restored_object :
    ('\r' ∉ objectText ∧
      (∀ first ∈ (Text.lines objectText).head?, Text.isBlankLine first = false) ∧
      (∀ last ∈ (Text.lines objectText).getLast?, Text.isBlankLine last = false) ∧
      Text.dedent 4 objectText = some "const user = \x7b\n  name: 'a',\n\n\x7d;".toList ∧
      IsRestored 2 (Text.lines objectText) (Text.lines (Written.block 2
        (String.ofList "const user = \x7b\n  name: 'a',\n\n\x7d;".toList)).text.toList)) ∧
    '\r' ∉ wideBlankText ∧ Text.dedent 1 wideBlankText = none ∧
      ∃ line ∈ (Text.lines wideBlankText).tail,
        Text.SplitsBlank (min 1 (Text.indentBytes line)) line := by
  have hreturn : '\r' ∉ objectText := by
    decide +kernel
  have hfirst : ∀ first ∈ (Text.lines objectText).head?, Text.isBlankLine first = false := by
    decide +kernel
  have hlast : ∀ last ∈ (Text.lines objectText).getLast?, Text.isBlankLine last = false := by
    decide +kernel
  have hmoved : Text.dedent 4 objectText =
      some "const user = \x7b\n  name: 'a',\n\n\x7d;".toList := by
    decide +kernel
  have hwide : '\r' ∉ wideBlankText := by
    decide +kernel
  have hnone : Text.dedent 1 wideBlankText = none := by
    decide +kernel
  exact ⟨⟨hreturn, hfirst, hlast, hmoved,
    (dedented_block_restored hreturn).2 2 _ hfirst hlast hmoved⟩, hwide, hnone,
    ((dedented_block_restored hwide).1 1).1.mp hnone⟩

end Output
end SuiteShift
