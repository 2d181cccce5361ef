import SuiteShift.Proofs.Text.Search

/-!
# The mark of a placeholder

A placeholder is recognized by the characters it starts with. A text that is put together of
literals and of texts without the mark has no mark itself, as long as the literals keep the
texts apart.

- `Unmarked`: the mark does not occur.
- `divides`: a literal that no occurrence of the mark can reach across.
- `unmarked_append_opening`, `unmarked_append_closing`, `unmarked_append_divider`,
  `unmarked_intercalate`: a text with a literal before it, after it or between it and another.
-/

namespace SuiteShift
namespace Text

/-- The mark of a placeholder. -/
def mark : List Char :=
  ['/', '/', ' ', 'T', 'O', 'D', 'O']

/-- The literal holds a character that is not in the mark; nothing before it can end a mark and
nothing after it can start one. -/
def divides (literal : List Char) : Bool :=
  let rest := literal.dropWhile mark.contains
  !(literal.takeWhile mark.contains).contains 'O' && !rest.contains '/' && !rest.isEmpty

/-- A mark does not start with any other character than a slash. -/
theorem mark_infix_append_iff
    {front : List Char}
    (h : '/' ∉ front)
    (back : List Char) :
    mark <:+: front ++ back ↔ mark <:+: back := by
  induction front with
  | nil =>
      rfl
  | cons c cs ih =>
      rw [List.mem_cons, not_or] at h
      rw [List.cons_append, List.infix_cons_iff, ih h.2, or_iff_right_iff_imp]
      intro hstart
      have hhead : '/' = c := (List.cons_prefix_cons.mp hstart).1
      exact absurd hhead h.1

/-- A mark does not end with any other character than its last one. -/
theorem mark_infix_append_iff_of_back
    {back : List Char}
    (h : 'O' ∉ back)
    (front : List Char) :
    mark <:+: front ++ back ↔ mark <:+: front := by
  refine ⟨fun hinfix => ?_, fun hinfix => hinfix.trans (List.prefix_append _ _).isInfix⟩
  rcases List.infix_append_iff.mp hinfix with hfront | hback | ⟨start, rest, hmark, hstart, hrest⟩
  · exact hfront
  · exact absurd (hback.subset (by decide)) h
  · rcases List.eq_nil_or_concat rest with rfl | ⟨rest, last, rfl⟩
    · rw [hmark, List.append_nil]
      exact hstart.isInfix
    · -- The last character of the mark would stand in the second text.
      have hlast : last = 'O' := by
        have hends : some 'O' = (start ++ rest.concat last).getLast? := by
          rw [← hmark]
          rfl
        simpa using hends.symm
      exact absurd (hrest.subset (by simp [hlast])) h

/-- A mark lies on one side of a literal that divides. -/
theorem mark_infix_divided_iff
    {literal : List Char}
    (h : divides literal = true)
    (front back : List Char) :
    mark <:+: front ++ literal ++ back ↔ mark <:+: front ∨ mark <:+: back := by
  simp only [divides, Bool.and_eq_true, Bool.not_eq_true', List.contains_eq_mem,
    decide_eq_false_iff_not] at h
  obtain ⟨⟨hbefore, hafter⟩, hrest⟩ := h
  rw [← List.takeWhile_append_dropWhile (p := mark.contains) (l := literal)]
  cases hdrop : literal.dropWhile mark.contains with
  | nil =>
      simp [hdrop] at hrest
  | cons c rest =>
      have hc : c ∉ mark := by
        have hhead := List.head?_dropWhile_not mark.contains literal
        rw [hdrop] at hhead
        simpa using hhead
      rw [hdrop, List.mem_cons, not_or] at hafter
      have hshape : front ++ (literal.takeWhile mark.contains ++ c :: rest) ++ back =
          (front ++ literal.takeWhile mark.contains) ++ c :: (rest ++ back) := by
        simp
      rw [hshape, infix_append_cons_iff hc, mark_infix_append_iff_of_back hbefore,
        mark_infix_append_iff hafter.2]

/-- The mark does not occur. -/
def Unmarked (text : String) : Prop :=
  occursIn "// TODO" text = false

instance (text : String) : Decidable (Unmarked text) :=
  inferInstanceAs (Decidable (_ = _))

theorem unmarked_iff
    {text : String} :
    Unmarked text ↔ ¬ mark <:+: text.toList := by
  have hmark : "// TODO".toList = mark := by
    decide
  rw [Unmarked, ← Bool.not_eq_true, occursIn_iff_isInfix, hmark]

/-- A part of a text without a mark has none. -/
theorem Unmarked.of_isInfix
    {text part : String}
    (h : Unmarked text)
    (hpart : part.toList <:+: text.toList) :
    Unmarked part := by
  rw [unmarked_iff] at h ⊢
  exact fun hmark => h (hmark.trans hpart)

theorem unmarked_of_not_mem
    {text : String}
    (h : '/' ∉ text.toList) :
    Unmarked text := by
  rw [unmarked_iff]
  exact fun hmark => h (hmark.subset (by decide))

theorem unmarked_empty :
    Unmarked "" := by
  rfl

theorem unmarked_append_opening
    {literal : String}
    (h : '/' ∉ literal.toList)
    (text : String) :
    Unmarked (literal ++ text) ↔ Unmarked text := by
  rw [unmarked_iff, unmarked_iff, String.toList_append, mark_infix_append_iff h]

theorem unmarked_append_divider
    {literal : String}
    (h : divides literal.toList = true)
    (front back : String) :
    Unmarked (front ++ literal ++ back) ↔ Unmarked front ∧ Unmarked back := by
  rw [unmarked_iff, unmarked_iff, unmarked_iff, String.toList_append, String.toList_append,
    mark_infix_divided_iff h, not_or]

theorem unmarked_append_closing
    {literal : String}
    (h : divides literal.toList = true)
    (text : String) :
    Unmarked (text ++ literal) ↔ Unmarked text := by
  have hdivided := unmarked_append_divider h text ""
  rw [String.append_empty] at hdivided
  rw [hdivided, and_iff_left unmarked_empty]

/-- At the end of a text it is enough that the literal cannot end a mark. -/
theorem unmarked_append_ending
    {literal : String}
    (h : 'O' ∉ literal.toList)
    (text : String) :
    Unmarked (text ++ literal) ↔ Unmarked text := by
  rw [unmarked_iff, unmarked_iff, String.toList_append, mark_infix_append_iff_of_back h]

theorem unmarked_intercalate
    {sep : String}
    (h : divides sep.toList = true)
    (parts : List String) :
    Unmarked (sep.intercalate parts) ↔ ∀ part ∈ parts, Unmarked part := by
  induction parts with
  | nil =>
      simpa using unmarked_empty
  | cons first parts ih =>
      cases parts with
      | nil =>
          simp
      | cons second rest =>
          rw [String.intercalate_cons_cons, unmarked_append_divider h, ih]
          simp

end Text
end SuiteShift
