import SuiteShift.Proofs.Text.Split

/-!
# Blanks at the ends of a text

- `mem_blankCodes`, `isBlank_eq_false`: there are few blanks, so that a class of characters is told
  from them by looking at each.
- `exists_dropBlanks`, `exists_trimChars`: only blanks are taken off, at the front or at both ends.
- `dropBlanks_append`, `trimChars_append`: blanks that were put around a text are taken off again.
- `trimChars_trimChars`: what was trimmed stays as it is.
-/

namespace SuiteShift
namespace Text

/-! ### The blanks -/

/-- The code points of blanks. -/
def blankCodes : List Nat :=
  [9, 10, 11, 12, 13, 32, 133, 160, 5760, 8192, 8193, 8194, 8195, 8196, 8197, 8198, 8199, 8200,
   8201, 8202, 8232, 8233, 8239, 8287, 12288]

theorem mem_blankCodes
    {c : Char}
    (h : isBlank c = true) :
    c.toNat ∈ blankCodes := by
  simp only [isBlank, Bool.or_eq_true, Bool.and_eq_true, Nat.ble_eq, beq_iff_eq] at h
  simp only [blankCodes, List.mem_cons, List.not_mem_nil, or_false]
  omega

/-- A character of a class that has no blanks is none. -/
theorem isBlank_eq_false
    {isMember : Char → Bool}
    (hclass : ∀ code ∈ blankCodes, isMember (Char.ofNat code) = false)
    {c : Char}
    (h : isMember c = true) :
    isBlank c = false := by
  rw [Bool.eq_false_iff]
  intro hblank
  have hno := hclass c.toNat (mem_blankCodes hblank)
  rw [Char.ofNat_toNat, h] at hno
  cases hno

/-! ### Blanks at the front -/

theorem isBlank_of_mem_takeWhile
    {cs : List Char}
    {c : Char}
    (h : c ∈ cs.takeWhile isBlank) :
    isBlank c = true := by
  have hall := List.all_takeWhile (p := isBlank) (l := cs)
  exact List.all_eq_true.mp hall c h

theorem exists_dropBlanks
    (cs : List Char) :
    ∃ gap, (∀ c ∈ gap, isBlank c = true) ∧ cs = gap ++ dropBlanks cs := by
  exact ⟨cs.takeWhile isBlank, fun c hc => isBlank_of_mem_takeWhile hc,
    List.takeWhile_append_dropWhile.symm⟩

theorem dropBlanks_append
    {gap rest : List Char}
    (hgap : ∀ c ∈ gap, isBlank c = true)
    (hrest : ∀ c ∈ rest.head?, isBlank c = false) :
    dropBlanks (gap ++ rest) = rest := by
  rw [dropBlanks, List.dropWhile_append_of_pos hgap]
  exact dropBlanks_eq_self hrest

/-- Blanks at the front are not followed beyond a character that is none. -/
theorem dropBlanks_append_of_head
    {rest : List Char}
    (h : ∀ c ∈ rest.head?, isBlank c = false)
    (cs : List Char) :
    dropBlanks (cs ++ rest) = dropBlanks cs ++ rest := by
  rw [dropBlanks, List.dropWhile_append]
  split_ifs with hempty
  · rw [dropBlanks, List.isEmpty_iff.mp hempty, dropBlanks_eq_self h, List.nil_append]
  · rfl

/-- Blanks are not followed into a text that starts with one if all of that text is left. -/
theorem dropBlanks_append_of_length
    {rest : List Char}
    (hblank : ∃ c ∈ rest.head?, isBlank c = true)
    {cs : List Char}
    (h : rest.length ≤ (dropBlanks (cs ++ rest)).length) :
    dropBlanks (cs ++ rest) = dropBlanks cs ++ rest := by
  rw [dropBlanks, List.dropWhile_append] at h ⊢
  split_ifs at h ⊢ with hempty
  · obtain ⟨c, hc, hblank⟩ := hblank
    obtain ⟨tail, rfl⟩ := List.head?_eq_some_iff.mp hc
    have hdrop := (List.dropWhile_suffix (l := tail) isBlank).length_le
    rw [List.dropWhile_cons_of_pos hblank, List.length_cons] at h
    omega
  · rfl

/-! ### Trimming -/

theorem trimChars_cons_of_isBlank
    {c : Char}
    (h : isBlank c = true)
    (cs : List Char) :
    trimChars (c :: cs) = trimChars cs := by
  rw [trimChars, List.dropWhile_cons_of_pos h, trimChars]

theorem trimChars_append_of_isBlank
    {rear : List Char}
    (hrear : ∀ c ∈ rear, isBlank c = true)
    (cs : List Char) :
    trimChars (cs ++ rear) = trimChars cs := by
  have hreverse : ∀ c ∈ rear.reverse, isBlank c = true := by
    intro c hc
    exact hrear c (List.mem_reverse.mp hc)
  have hnil : rear.dropWhile isBlank = [] := by
    rw [← List.append_nil rear, List.dropWhile_append_of_pos hrear, List.dropWhile_nil]
  rw [trimChars, List.dropWhile_append]
  split_ifs with hempty
  · rw [trimChars, List.isEmpty_iff.mp hempty, hnil]
  · rw [List.reverse_append, List.dropWhile_append_of_pos hreverse, trimChars]

/-- Blanks around a text make no difference. -/
theorem trimChars_append
    {front rear : List Char}
    (hfront : ∀ c ∈ front, isBlank c = true)
    (hrear : ∀ c ∈ rear, isBlank c = true)
    (cs : List Char) :
    trimChars (front ++ (cs ++ rear)) = trimChars cs := by
  rw [trimChars, List.dropWhile_append_of_pos hfront]
  exact trimChars_append_of_isBlank hrear cs

/-- Trimming takes blanks off both ends and nothing else. -/
theorem exists_trimChars
    (cs : List Char) :
    ∃ front rear,
      cs = front ++ trimChars cs ++ rear ∧
      (∀ c ∈ front, isBlank c = true) ∧
      ∀ c ∈ rear, isBlank c = true := by
  refine ⟨cs.takeWhile isBlank, ((cs.dropWhile isBlank).reverse.takeWhile isBlank).reverse,
    ?_, fun c hc => isBlank_of_mem_takeWhile hc, ?_⟩
  · rw [trimChars, List.append_assoc, ← List.reverse_append, List.takeWhile_append_dropWhile,
      List.reverse_reverse, List.takeWhile_append_dropWhile]
  · intro c hc
    exact isBlank_of_mem_takeWhile (List.mem_reverse.mp hc)

theorem isBlank_head?_dropWhile
    (cs : List Char) :
    ∀ c ∈ (cs.dropWhile isBlank).head?, isBlank c = false := by
  intro c hc
  have hhead := List.head?_dropWhile_not isBlank cs
  rw [Option.mem_def.mp hc] at hhead
  exact hhead

/-- What was trimmed stays as it is. -/
@[simp] theorem trimChars_trimChars
    (cs : List Char) :
    trimChars (trimChars cs) = trimChars cs := by
  have hsuffix : (trimChars cs).reverse <:+ (cs.dropWhile isBlank).reverse := by
    rw [trimChars, List.reverse_reverse]
    exact List.dropWhile_suffix _
  refine trimChars_eq_self ?_ ?_
  · intro c hc
    -- The first character that is left is the first one after the leading blanks.
    obtain ⟨rest, hrest⟩ := List.reverse_suffix.mp hsuffix
    refine isBlank_head?_dropWhile cs c ?_
    rw [← hrest, List.head?_append, Option.mem_def.mp hc]
    rfl
  · intro c hc
    refine isBlank_head?_dropWhile (cs.dropWhile isBlank).reverse c ?_
    rw [trimChars, List.getLast?_reverse] at hc
    exact hc

theorem isBlank_of_trimChars_eq_nil
    {cs : List Char}
    (h : trimChars cs = []) :
    ∀ c ∈ cs, isBlank c = true := by
  obtain ⟨front, rear, hcs, hfront, hrear⟩ := exists_trimChars cs
  rw [h, List.append_nil] at hcs
  intro c hc
  rw [hcs, List.mem_append] at hc
  exact hc.elim (hfront c) (hrear c)

theorem trimChars_eq_nil
    {cs : List Char}
    (h : ∀ c ∈ cs, isBlank c = true) :
    trimChars cs = [] := by
  exact trimChars_append_of_isBlank h []

/-- Trimming stops at the last character that is no blank. -/
theorem getLast?_trimChars_concat
    {c : Char}
    (h : isBlank c = false)
    (cs : List Char) :
    (trimChars (cs ++ [c])).getLast? = some c := by
  have hdrop : [c].dropWhile isBlank = [c] := by
    simp [List.dropWhile, h]
  obtain ⟨front, hfront⟩ : ∃ front, (cs ++ [c]).dropWhile isBlank = front ++ [c] := by
    rw [List.dropWhile_append]
    split_ifs with hempty
    · exact ⟨[], hdrop⟩
    · exact ⟨_, rfl⟩
  rw [trimChars, hfront, List.reverse_append, List.reverse_singleton, List.singleton_append,
    List.dropWhile_cons_of_neg (by simp [h]), List.getLast?_reverse]
  rfl

theorem trimChars_ne_nil
    {cs : List Char}
    {c : Char}
    (hc : c ∈ cs)
    (h : isBlank c = false) :
    trimChars cs ≠ [] := by
  intro hnil
  rw [isBlank_of_trimChars_eq_nil hnil c hc] at h
  cases h

/-- Trimming a text keeps all between its leading blanks and a character that is no blank. -/
theorem exists_trimChars_append_cons
    {c : Char}
    (h : isBlank c = false)
    (cs rest : List Char) :
    ∃ rest', trimChars (cs ++ c :: rest) = dropBlanks cs ++ c :: rest' := by
  have hfront : (cs ++ c :: rest).dropWhile isBlank = dropBlanks cs ++ c :: rest :=
    dropBlanks_append_of_head (by rintro d ⟨⟩; exact h) cs
  have hstop : (c :: (dropBlanks cs).reverse).dropWhile isBlank = c :: (dropBlanks cs).reverse := by
    rw [List.dropWhile_cons_of_neg (by simp [h])]
  refine ⟨(rest.reverse.dropWhile isBlank).reverse, ?_⟩
  rw [trimChars, hfront, List.reverse_append, List.reverse_cons, List.append_assoc,
    List.singleton_append, List.dropWhile_append]
  split_ifs with hempty
  · rw [hstop, List.isEmpty_iff.mp hempty]
    simp
  · simp

theorem isBlank_getLast?_trimChars
    (cs : List Char) :
    ∀ c ∈ (trimChars cs).getLast?, isBlank c = false := by
  intro c hc
  rw [trimChars, List.getLast?_reverse] at hc
  exact isBlank_head?_dropWhile _ c hc

theorem trimChars_eq_dropBlanks
    {cs : List Char}
    (h : ∀ c ∈ cs.getLast?, isBlank c = false) :
    trimChars cs = dropBlanks cs := by
  obtain ⟨gap, -, hcs⟩ := exists_dropBlanks cs
  have hlast : ∀ c ∈ (dropBlanks cs).reverse.head?, isBlank c = false := by
    intro c hc
    rw [List.head?_reverse] at hc
    refine h c ?_
    rw [hcs, List.getLast?_append, Option.mem_def.mp hc]
    rfl
  have hreverse : (dropBlanks cs).reverse.dropWhile isBlank = (dropBlanks cs).reverse :=
    dropBlanks_eq_self hlast
  rw [← List.reverse_reverse (dropBlanks cs), ← hreverse]
  rfl

/-- A text whose end is left when it is trimmed loses blanks at its start only. -/
theorem trimChars_append_of_length
    {front back margin : List Char}
    (hmargin : ∀ c ∈ margin, isBlank c = true)
    (hblank : ∃ c ∈ back.head?, isBlank c = true)
    (hlast : ∀ c ∈ back.getLast?, isBlank c = false)
    (hlength : back.length ≤ (trimChars (front ++ (back ++ margin))).length) :
    trimChars (front ++ (back ++ margin)) = dropBlanks front ++ back := by
  have hne : back ≠ [] := by
    rintro rfl
    obtain ⟨c, hc, -⟩ := hblank
    cases hc
  have hends : ∀ c ∈ (front ++ back).getLast?, isBlank c = false := by
    intro c hc
    rw [List.getLast?_append_of_ne_nil _ hne] at hc
    exact hlast c hc
  rw [← List.append_assoc, trimChars_append_of_isBlank hmargin, trimChars_eq_dropBlanks hends]
    at hlength ⊢
  exact dropBlanks_append_of_length hblank hlength

theorem length_trimChars_le
    (cs : List Char) :
    (trimChars cs).length ≤ cs.length := by
  obtain ⟨front, rear, hcs, -, -⟩ := exists_trimChars cs
  have hlength := congrArg List.length hcs
  simp only [List.length_append] at hlength
  omega

end Text
end SuiteShift
