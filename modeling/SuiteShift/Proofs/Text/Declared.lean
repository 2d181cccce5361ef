import SuiteShift.Proofs.Text.Lines
import SuiteShift.Proofs.Text.Search
import SuiteShift.Proofs.Text.Split

/-!
# Names that a text declares

A declaration is a line that starts with a fixed word; the declared name stands between that word
and an opening parenthesis. Names are read from the text alone, line by line.

- `declared`: the declared names in order; `declared_append_newline`: line after line.
- `declared_append_blanks`: blanks at the end of a text do not count.
- `IsQuiet`: no line but the first starts with the word; `exists_declared_quiet`: such a text inside
  of a line declares nothing of its own.
- `filterMap_lines`: carriage returns do not count either.
-/

namespace SuiteShift
namespace Text

/-- The name that a line declares. -/
def declaredName? (word row : List Char) : Option String :=
  (stripStart word row).bind fun rest =>
    if rest.contains '(' then some (String.ofList (rest.takeWhile (· != '('))) else none

/-- The names that the lines of a text declare, in order. -/
def declared (word text : List Char) : List String :=
  (splitOn (· == '\n') text).filterMap (declaredName? word)

/-- No line of the text but the first starts with the word. -/
def IsQuiet (word text : List Char) : Prop :=
  ∀ row ∈ (splitOn (· == '\n') text).tail, startsWith word row = false

instance (word text : List Char) : Decidable (IsQuiet word text) :=
  inferInstanceAs (Decidable (∀ row ∈ (splitOn (· == '\n') text).tail, _))

variable {word : List Char}

/-! ### One line -/

theorem takeWhile_ne_append
    {before : List Char}
    {c : Char}
    (h : c ∉ before)
    (after : List Char) :
    (before ++ c :: after).takeWhile (· != c) = before := by
  rw [List.takeWhile_append_of_pos]
  · simp
  · intro d hd
    rw [bne_iff_ne]
    rintro rfl
    exact h hd

theorem declaredName?_eq_some_iff
    {row : List Char}
    {name : String} :
    declaredName? word row = some name ↔
      ∃ rest, row = word ++ name.toList ++ '(' :: rest ∧ '(' ∉ name.toList := by
  rw [declaredName?, Option.bind_eq_some_iff]
  simp only [stripStart_eq_some_iff]
  constructor
  · rintro ⟨rest, rfl, h⟩
    split_ifs at h with hparen
    obtain ⟨before, after, rfl, hbefore⟩ := List.eq_append_cons_of_mem (by simpa using hparen)
    rw [takeWhile_ne_append hbefore, Option.some.injEq] at h
    subst h
    rw [String.toList_ofList]
    exact ⟨after, (List.append_assoc _ _ _).symm, hbefore⟩
  · rintro ⟨rest, rfl, hname⟩
    refine ⟨name.toList ++ '(' :: rest, List.append_assoc _ _ _, ?_⟩
    rw [if_pos (by simp), takeWhile_ne_append hname, String.ofList_toList]

theorem declaredName?_declaration
    {name : String}
    (h : '(' ∉ name.toList)
    (rest : List Char) :
    declaredName? word (word ++ name.toList ++ '(' :: rest) = some name := by
  exact declaredName?_eq_some_iff.mpr ⟨rest, rfl, h⟩

theorem declaredName?_of_not_startsWith
    {row : List Char}
    (h : startsWith word row = false) :
    declaredName? word row = none := by
  rw [startsWith, Option.isSome_eq_false_iff, Option.isNone_iff_eq_none] at h
  rw [declaredName?, h]
  rfl

/-- A line that ends differently declares the same, unless that ends the name. -/
theorem declaredName?_concat
    {last : Char}
    (h : last ≠ '(')
    (row : List Char) :
    declaredName? word (row ++ [last]) = declaredName? word row := by
  apply Option.ext
  intro name
  rw [declaredName?_eq_some_iff, declaredName?_eq_some_iff]
  constructor
  · rintro ⟨rest, hrest, hname⟩
    rcases List.eq_nil_or_concat rest with rfl | ⟨rest, d, rfl⟩
    · obtain ⟨-, hlast⟩ := List.append_inj' hrest rfl
      exact absurd (List.head_eq_of_cons_eq hlast) h
    · refine ⟨rest, ?_, hname⟩
      rw [List.concat_eq_append, ← List.cons_append, ← List.append_assoc] at hrest
      exact (List.append_inj' hrest rfl).1
  · rintro ⟨rest, rfl, hname⟩
    exact ⟨rest ++ [last], by simp, hname⟩

/-! ### Line after line -/

theorem declared_append_newline
    (first second : List Char) :
    declared word (first ++ '\n' :: second) = declared word first ++ declared word second := by
  rw [declared, splitOn_append_sep (by rfl), List.filterMap_append]
  rfl

theorem splitOn_newline_of_not_mem
    {row : List Char}
    (h : '\n' ∉ row) :
    splitOn (· == '\n') row = [row] := by
  refine splitOn_of_forall fun c hc => ?_
  rw [beq_eq_false_iff_ne]
  rintro rfl
  exact h hc

theorem declared_of_not_mem
    {row : List Char}
    (h : '\n' ∉ row) :
    declared word row = (declaredName? word row).toList := by
  rw [declared, splitOn_newline_of_not_mem h, List.filterMap_cons, List.filterMap_nil]
  cases declaredName? word row <;> rfl

@[simp] theorem declared_nil :
    declared word [] = [] := by
  rw [declared_of_not_mem (by simp), Option.toList_eq_nil_iff, Option.eq_none_iff_forall_ne_some]
  intro name h
  obtain ⟨rest, hrest, -⟩ := declaredName?_eq_some_iff.mp h
  simp at hrest

theorem declared_concat
    {last : Char}
    (h : last ≠ '(')
    (text : List Char) :
    declared word (text ++ [last]) = declared word text := by
  by_cases hlast : last = '\n'
  · subst hlast
    rw [declared_append_newline, declared_nil, List.append_nil]
  -- Only the last line is longer.
  have hrow : ∀ row, '\n' ∉ row → declared word (row ++ [last]) = declared word row := by
    intro row hrow
    rw [declared_of_not_mem (by simp [hrow, Ne.symm hlast]), declared_of_not_mem hrow,
      declaredName?_concat h]
  rcases exists_last_row text with hone | ⟨front, row, rfl, hone⟩
  · exact hrow text hone
  · rw [List.append_assoc, List.cons_append, declared_append_newline, hrow row hone,
      declared_append_newline]

/-- Blanks at the end do not count. -/
theorem declared_append_blanks
    {blanks : List Char}
    (h : ∀ c ∈ blanks, isBlank c = true)
    (text : List Char) :
    declared word (text ++ blanks) = declared word text := by
  induction blanks generalizing text with
  | nil =>
      rw [List.append_nil]
  | cons c blanks ih =>
      have hc : c ≠ '(' := by
        rintro rfl
        exact absurd (h '(' List.mem_cons_self) (by decide)
      rw [List.append_cons, ih (fun d hd => h d (List.mem_cons_of_mem _ hd)), declared_concat hc]

/-- Texts with line ends between them declare what each of them does. -/
theorem declared_joinChars
    {sep : List Char}
    (hsep : ∀ first second,
      declared word (first ++ sep ++ second) = declared word first ++ declared word second)
    (pieces : List (List Char)) :
    declared word (joinChars sep pieces) = pieces.flatMap (declared word) := by
  induction pieces with
  | nil =>
      exact declared_nil
  | cons first pieces ih =>
      cases pieces with
      | nil =>
          simp [joinChars]
      | cons second rest =>
          rw [joinChars_cons_cons, hsep, ih]
          rfl

theorem declared_joinLines
    (rows : List (List Char)) :
    declared word (joinChars ['\n'] rows) = rows.flatMap (declared word) := by
  refine declared_joinChars (fun first second => ?_) rows
  rw [List.append_assoc, List.singleton_append, declared_append_newline]

theorem declaredName?_dropReturn
    (seen : List Char) :
    declaredName? word (dropReturn seen).reverse = declaredName? word seen.reverse := by
  unfold dropReturn
  split
  · rw [List.reverse_cons, declaredName?_concat (by decide)]
  · rfl

theorem filterMap_linesAfter
    {seen : List Char}
    (h : '\n' ∉ seen)
    (text : List Char) :
    (linesAfter seen text).filterMap (declaredName? word) =
      declared word (seen.reverse ++ text) := by
  induction text generalizing seen with
  | nil =>
      rw [List.append_nil, linesAfter]
      split_ifs with hempty
      · rw [List.isEmpty_iff.mp hempty]
        simp
      · rw [declared_of_not_mem (by simpa using h), List.filterMap_cons, List.filterMap_nil]
        cases declaredName? word seen.reverse <;> rfl
  | cons c text ih =>
      by_cases hc : c = '\n'
      · subst hc
        have hseen : '\n' ∉ seen.reverse := by
          simpa using h
        rw [linesAfter, List.filterMap_cons, ih (by simp), declaredName?_dropReturn,
          declared_append_newline, declared_of_not_mem hseen]
        cases declaredName? word seen.reverse <;> rfl
      · rw [linesAfter.eq_3 _ _ _ hc, ih (by simp [h, Ne.symm hc])]
        simp

/-- The names can as well be read where a carriage return belongs to the line end. -/
theorem filterMap_lines
    (text : List Char) :
    (lines text).filterMap (declaredName? word) = declared word text := by
  exact filterMap_linesAfter (by simp) text

/-! ### Lines that declare nothing -/

theorem declaredName?_of_head_ne
    {w : Char}
    {row : List Char}
    (hword : word.head? = some w)
    (h : row.head? ≠ some w) :
    declaredName? word row = none := by
  rw [Option.eq_none_iff_forall_ne_some]
  intro name hname
  obtain ⟨rest, rfl, -⟩ := declaredName?_eq_some_iff.mp hname
  obtain ⟨word, rfl⟩ := List.head?_eq_some_iff.mp hword
  exact h rfl

/-- A line that starts differently declares nothing. -/
theorem declared_of_head_ne
    {w : Char}
    {row : List Char}
    (hword : word.head? = some w)
    (hrow : '\n' ∉ row)
    (h : row.head? ≠ some w) :
    declared word row = [] := by
  rw [declared_of_not_mem hrow, declaredName?_of_head_ne hword h]
  rfl

theorem startsWith_append_cons
    {mark : Char}
    (h : mark ∉ word)
    (row after : List Char) :
    startsWith word (row ++ mark :: after) = startsWith word row := by
  rw [Bool.eq_iff_iff, startsWith_iff, startsWith_iff]
  constructor
  · rintro ⟨rest, hrest⟩
    rcases List.append_eq_append_iff.mp hrest with ⟨more, hmore, hrest⟩ | ⟨more, hmore, hrest⟩
    · cases more with
      | nil =>
          exact ⟨[], by simpa using hmore.symm⟩
      | cons c more =>
          cases hrest
          exact absurd (by simp [hmore]) h
    · exact ⟨more, hmore⟩
  · rintro ⟨rest, rfl⟩
    exact ⟨rest ++ mark :: after, List.append_assoc _ _ _⟩

/-- A text none of whose lines starts with the word declares nothing, whatever its last line goes on
with. -/
theorem declared_of_forall
    {text : List Char}
    {mark : Char}
    {after : List Char}
    (hmark : mark ∉ word)
    (hafter : '\n' ∉ mark :: after)
    (h : ∀ row ∈ splitOn (· == '\n') text, startsWith word row = false) :
    declared word (text ++ mark :: after) = [] := by
  have hlast : ∀ row, '\n' ∉ row → startsWith word row = false →
      declared word (row ++ mark :: after) = [] := by
    intro row hrow hstarts
    rw [← startsWith_append_cons hmark row after] at hstarts
    rw [declared_of_not_mem (by simpa [hrow] using hafter),
      declaredName?_of_not_startsWith hstarts]
    rfl
  rcases exists_last_row text with hone | ⟨front, row, rfl, hone⟩
  · rw [splitOn_newline_of_not_mem hone] at h
    exact hlast text hone (h text List.mem_cons_self)
  · rw [splitOn_append_sep (by rfl), splitOn_newline_of_not_mem hone] at h
    have hfront : declared word front = [] := by
      rw [declared, List.filterMap_eq_nil_iff]
      intro other hother
      exact declaredName?_of_not_startsWith (h other (List.mem_append_left _ hother))
    rw [List.append_assoc, List.cons_append, declared_append_newline, hfront,
      hlast row hone (h row (by simp))]
    rfl

theorem isQuiet_of_not_mem
    {text : List Char}
    (h : '\n' ∉ text) :
    IsQuiet word text := by
  rw [IsQuiet, splitOn_newline_of_not_mem h]
  rintro row ⟨⟩

theorem isQuiet_append
    {front text : List Char}
    (hfront : '\n' ∉ front)
    (h : IsQuiet word text) :
    IsQuiet word (front ++ text) := by
  by_cases hmem : '\n' ∈ text
  · obtain ⟨row, rest, rfl, hrow⟩ := List.eq_append_cons_of_mem hmem
    have hfirst : '\n' ∉ front ++ row := by
      simp [hfront, hrow]
    rw [IsQuiet, splitOn_append_sep (by rfl), splitOn_newline_of_not_mem hrow] at h
    rw [IsQuiet, ← List.append_assoc, splitOn_append_sep (by rfl),
      splitOn_newline_of_not_mem hfirst]
    exact h
  · exact isQuiet_of_not_mem (by simp [hfront, hmem])

/-- A quiet text inside of a line declares nothing of its own: the line that it begins in is the
only one that may. -/
theorem exists_declared_quiet
    {front text after : List Char}
    {mark : Char}
    (h : IsQuiet word text)
    (hfront : '\n' ∉ front)
    (hmark : mark ∉ word)
    (hafter : '\n' ∉ mark :: after) :
    ∃ more, declared word (front ++ text ++ mark :: after) =
      (declaredName? word (front ++ more)).toList := by
  by_cases hmem : '\n' ∈ text
  · obtain ⟨row, rest, rfl, hrow⟩ := List.eq_append_cons_of_mem hmem
    rw [IsQuiet, splitOn_append_sep (by rfl), splitOn_newline_of_not_mem hrow] at h
    refine ⟨row, ?_⟩
    rw [← List.append_assoc, List.append_assoc, List.cons_append, declared_append_newline,
      declared_of_forall hmark hafter h, List.append_nil, declared_of_not_mem (by simp [*])]
  · refine ⟨text ++ mark :: after, ?_⟩
    rw [List.append_assoc, declared_of_not_mem]
    simpa [hfront, hmem] using hafter

end Text
end SuiteShift
