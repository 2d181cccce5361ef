import SuiteShift.Text.Basic
import Mathlib.Data.List.Basic

/-!
# The lines of one text after another

- `exists_linesAfter_append`: a text gives its complete lines, and leaves the beginning of one.
- `exists_linesAfter_begun`: a line that has begun keeps its beginning, and whatever it is, the rest
  of the lines is the same.
- `lines_append`: the first line keeps a beginning that has no line end.
- `not_mem_of_mem_lines`: a line has no line end in it, and `mem_of_mem_linesAfter`: it has only
  characters of the text.
- `exists_last_row`: a text has one line, or a last one.
-/

namespace SuiteShift
namespace Text

theorem dropReturn_append
    {extra : List Char}
    (h : extra ≠ [])
    (seen : List Char) :
    dropReturn (extra ++ seen) = dropReturn extra ++ seen := by
  obtain ⟨c, extra, rfl⟩ := List.exists_cons_of_ne_nil h
  rw [List.cons_append]
  by_cases hc : c = '\r'
  · subst hc
    rfl
  · rw [dropReturn.eq_2 _ (by simp [hc]), dropReturn.eq_2 _ (by simp [hc])]
    rfl

theorem dropReturn_of_ne
    {c : Char}
    (h : c ≠ '\r')
    (seen : List Char) :
    dropReturn (c :: seen) = c :: seen := by
  exact dropReturn.eq_2 _ (by simp [h])

/-- The lines that end in a text, and the reversed beginning of the line it stops in, do not depend
on what follows. -/
theorem exists_linesAfter_append
    (seen front : List Char) :
    ∃ rows last, ∀ rest, linesAfter seen (front ++ rest) = rows ++ linesAfter last rest := by
  induction front generalizing seen with
  | nil =>
      exact ⟨[], seen, fun rest => rfl⟩
  | cons c front ih =>
      by_cases hc : c = '\n'
      · subst hc
        obtain ⟨rows, last, hrows⟩ := ih []
        refine ⟨(dropReturn seen).reverse :: rows, last, ?_⟩
        intro rest
        rw [List.cons_append, linesAfter, hrows, List.cons_append]
      · obtain ⟨rows, last, hrows⟩ := ih (c :: seen)
        refine ⟨rows, last, ?_⟩
        intro rest
        rw [List.cons_append, linesAfter.eq_3 _ _ _ hc, hrows]

/-- A line that has begun keeps its beginning: with some more of it, any beginning will do; else it
must not end in a carriage return, which could belong to the line end. -/
theorem exists_linesAfter_begun
    (extra cs : List Char) :
    ∃ more tail, ∀ seen,
      (extra ≠ [] ∨ ∃ c rest, seen = c :: rest ∧ c ≠ '\r') →
        linesAfter (extra ++ seen) cs = (seen.reverse ++ more) :: tail := by
  induction cs generalizing extra with
  | nil =>
      refine ⟨extra.reverse, [], ?_⟩
      intro seen hbegun
      have hne : extra ++ seen ≠ [] := by
        rcases hbegun with hextra | ⟨c, rest, rfl, -⟩
        · simp [hextra]
        · simp
      rw [linesAfter, if_neg (by simpa using hne), List.reverse_append]
  | cons c cs ih =>
      by_cases hc : c = '\n'
      · subst hc
        refine ⟨(dropReturn extra).reverse, linesAfter [] cs, ?_⟩
        intro seen hbegun
        rw [linesAfter, ← List.reverse_append]
        by_cases hextra : extra = []
        · subst hextra
          obtain hne | ⟨d, rest, rfl, hd⟩ := hbegun
          · exact absurd rfl hne
          · rw [List.nil_append, dropReturn_of_ne hd]
            rfl
        · rw [dropReturn_append hextra]
      · obtain ⟨more, tail, hmore⟩ := ih (c :: extra)
        refine ⟨more, tail, ?_⟩
        intro seen _
        rw [linesAfter.eq_3 _ _ _ hc]
        exact hmore seen (.inl (List.cons_ne_nil c extra))

theorem linesAfter_of_not_mem
    {front : List Char}
    (h : '\n' ∉ front)
    (seen rest : List Char) :
    linesAfter seen (front ++ rest) = linesAfter (front.reverse ++ seen) rest := by
  induction front generalizing seen with
  | nil =>
      rfl
  | cons c front ih =>
      have hc : c ≠ '\n' := by
        rintro rfl
        exact h List.mem_cons_self
      have hfront := ih (fun hmem => h (List.mem_cons_of_mem _ hmem)) (c :: seen)
      rw [List.cons_append, linesAfter.eq_3 _ _ _ hc, hfront]
      simp

/-- The first line keeps a beginning that has no line end. -/
theorem lines_append
    {front : List Char}
    {last : Char}
    (h : '\n' ∉ front ++ [last])
    (hreturn : last ≠ '\r')
    (rest : List Char) :
    ∃ more tail,
      lines (front ++ [last] ++ rest) = (front ++ [last] ++ more) :: tail := by
  obtain ⟨more, tail, hmore⟩ := exists_linesAfter_begun [] rest
  refine ⟨more, tail, ?_⟩
  have hline := hmore (last :: front.reverse) (.inr ⟨last, _, rfl, hreturn⟩)
  rw [lines, linesAfter_of_not_mem h, List.append_nil, List.reverse_append]
  simpa using hline

theorem mem_of_mem_dropReturn
    {c : Char}
    {seen : List Char}
    (h : c ∈ dropReturn seen) :
    c ∈ seen := by
  unfold dropReturn at h
  split at h
  · exact List.mem_cons_of_mem _ h
  · exact h

theorem not_mem_of_mem_linesAfter
    {seen row : List Char}
    (h : '\n' ∉ seen)
    {cs : List Char}
    (hrow : row ∈ linesAfter seen cs) :
    '\n' ∉ row := by
  induction cs generalizing seen with
  | nil =>
      rw [linesAfter] at hrow
      split_ifs at hrow
      · cases hrow
      · rw [List.mem_singleton] at hrow
        simpa [hrow] using h
  | cons c cs ih =>
      by_cases hc : c = '\n'
      · subst hc
        rw [linesAfter] at hrow
        rcases List.mem_cons.mp hrow with rfl | hrow
        · intro hmem
          exact h (mem_of_mem_dropReturn (List.mem_reverse.mp hmem))
        · exact ih (by simp) hrow
      · rw [linesAfter.eq_3 _ _ _ hc] at hrow
        exact ih (by simp [h, Ne.symm hc]) hrow

/-- A line has no line end in it. -/
theorem not_mem_of_mem_lines
    {row cs : List Char}
    (h : row ∈ lines cs) :
    '\n' ∉ row := by
  exact not_mem_of_mem_linesAfter (by simp) h

/-- A line holds characters of the text only. -/
theorem mem_of_mem_linesAfter
    {c : Char}
    {seen row cs : List Char}
    (hrow : row ∈ linesAfter seen cs)
    (hc : c ∈ row) :
    c ∈ seen ∨ c ∈ cs := by
  induction cs generalizing seen with
  | nil =>
      rw [linesAfter] at hrow
      split_ifs at hrow
      · cases hrow
      · rw [List.mem_singleton] at hrow
        subst hrow
        exact .inl (List.mem_reverse.mp hc)
  | cons d cs ih =>
      by_cases hd : d = '\n'
      · subst hd
        rw [linesAfter] at hrow
        rcases List.mem_cons.mp hrow with rfl | hrow
        · exact .inl (mem_of_mem_dropReturn (List.mem_reverse.mp hc))
        · rcases ih hrow with hseen | hcs
          · cases hseen
          · exact .inr (List.mem_cons_of_mem _ hcs)
      · rw [linesAfter.eq_3 _ _ _ hd] at hrow
        rcases ih hrow with hseen | hcs
        · rcases List.mem_cons.mp hseen with rfl | hseen
          · exact .inr List.mem_cons_self
          · exact .inl hseen
        · exact .inr (List.mem_cons_of_mem _ hcs)

/-- A text has one line, or a last one. -/
theorem exists_last_row
    (text : List Char) :
    '\n' ∉ text ∨ ∃ front row, text = front ++ '\n' :: row ∧ '\n' ∉ row := by
  by_cases hmem : '\n' ∈ text
  · obtain ⟨rear, front, hsplit, hrear⟩ :=
      List.eq_append_cons_of_mem (List.mem_reverse.mpr hmem)
    refine .inr ⟨front.reverse, rear.reverse, ?_, by simpa using hrear⟩
    rw [← List.reverse_reverse text, hsplit]
    simp
  · exact .inl hmem

end Text
end SuiteShift
