import SuiteShift.Text.Basic
import SuiteShift.Literal.Quoted
import Mathlib.Data.List.Basic

/-!
# Splitting and joining

- `splitOn_append_cons`, `splitOn_of_forall`: a text is cut at its separators and nowhere else.
- `splitOn_joinChars`: pieces without the separator are found again after they were joined.
- `joinChars_concat`, `joinChars_append_sep`: a separator ends every piece but the last.
- `flatMap_eq_iff_of_length_le`: texts made of pieces that are nowhere shorter.
- `trimChars_eq_self`: trimming keeps a text with no blank at either end.
- `not_mem_oneLine`: a text that was put on one line has no line end.
-/

namespace SuiteShift
namespace Text

variable {sep : Char → Bool}

theorem splitOn_ne_nil
    (sep : Char → Bool)
    (cs : List Char) :
    splitOn sep cs ≠ [] := by
  induction cs with
  | nil =>
      simp [splitOn]
  | cons c cs ih =>
      unfold splitOn
      split_ifs
      · simp
      · split <;> simp

theorem splitOn_cons_of_sep
    {c : Char}
    (h : sep c = true)
    (cs : List Char) :
    splitOn sep (c :: cs) = [] :: splitOn sep cs := by
  rw [splitOn, if_pos h]

theorem splitOn_cons_of_not_sep
    {c : Char}
    (h : sep c = false)
    (cs : List Char) :
    ∃ piece pieces,
      splitOn sep cs = piece :: pieces ∧
      splitOn sep (c :: cs) = (c :: piece) :: pieces := by
  obtain ⟨piece, pieces, hcs⟩ := List.exists_cons_of_ne_nil (splitOn_ne_nil sep cs)
  refine ⟨piece, pieces, hcs, ?_⟩
  rw [splitOn, hcs, h]
  simp

theorem eq_nil_of_splitOn
    {cs : List Char}
    (h : splitOn sep cs = [[]]) :
    cs = [] := by
  cases cs with
  | nil =>
      rfl
  | cons c cs =>
      cases hc : sep c with
      | true =>
          rw [splitOn_cons_of_sep hc, List.cons.injEq] at h
          exact absurd h.2 (splitOn_ne_nil sep cs)
      | false =>
          obtain ⟨piece, pieces, -, hsplit⟩ := splitOn_cons_of_not_sep hc cs
          rw [hsplit] at h
          cases h

/-- A piece holds characters of the text that do not separate. -/
theorem of_mem_splitOn
    {cs piece : List Char}
    (hpiece : piece ∈ splitOn sep cs) :
    ∀ c ∈ piece, c ∈ cs ∧ sep c = false := by
  induction cs generalizing piece with
  | nil =>
      intro c hc
      simp only [splitOn, List.mem_singleton] at hpiece
      simp [hpiece] at hc
  | cons d cs ih =>
      intro c hc
      cases hd : sep d with
      | true =>
          rw [splitOn_cons_of_sep hd, List.mem_cons] at hpiece
          rcases hpiece with rfl | hpiece
          · simp at hc
          · obtain ⟨hmem, hsep⟩ := ih hpiece c hc
            exact ⟨List.mem_cons_of_mem _ hmem, hsep⟩
      | false =>
          obtain ⟨first, rest, hcs, hsplit⟩ := splitOn_cons_of_not_sep hd cs
          rw [hsplit, List.mem_cons] at hpiece
          rw [hcs] at ih
          rcases hpiece with rfl | hpiece
          · rcases List.mem_cons.mp hc with rfl | hc
            · exact ⟨List.mem_cons_self, hd⟩
            · obtain ⟨hmem, hsep⟩ := ih List.mem_cons_self c hc
              exact ⟨List.mem_cons_of_mem _ hmem, hsep⟩
          · obtain ⟨hmem, hsep⟩ := ih (List.mem_cons_of_mem _ hpiece) c hc
            exact ⟨List.mem_cons_of_mem _ hmem, hsep⟩

/-- What does not separate is in some piece. -/
theorem exists_mem_splitOn
    {cs : List Char}
    {c : Char}
    (hc : c ∈ cs)
    (hsep : sep c = false) :
    ∃ piece ∈ splitOn sep cs, c ∈ piece := by
  induction cs with
  | nil =>
      simp at hc
  | cons d cs ih =>
      cases hd : sep d with
      | true =>
          rw [splitOn_cons_of_sep hd]
          rcases List.mem_cons.mp hc with rfl | hc
          · rw [hd] at hsep
            cases hsep
          · obtain ⟨piece, hpiece, hmem⟩ := ih hc
            exact ⟨piece, List.mem_cons_of_mem _ hpiece, hmem⟩
      | false =>
          obtain ⟨first, rest, hcs, hsplit⟩ := splitOn_cons_of_not_sep hd cs
          rw [hcs] at ih
          rw [hsplit]
          rcases List.mem_cons.mp hc with rfl | hc
          · exact ⟨_, List.mem_cons_self, List.mem_cons_self⟩
          · obtain ⟨piece, hpiece, hmem⟩ := ih hc
            rcases List.mem_cons.mp hpiece with rfl | hpiece
            · exact ⟨_, List.mem_cons_self, List.mem_cons_of_mem _ hmem⟩
            · exact ⟨piece, List.mem_cons_of_mem _ hpiece, hmem⟩

/-- Text without a separator is one piece. -/
theorem splitOn_of_forall
    {cs : List Char}
    (h : ∀ c ∈ cs, sep c = false) :
    splitOn sep cs = [cs] := by
  induction cs with
  | nil =>
      rfl
  | cons c cs ih =>
      have hcs := ih fun d hd => h d (List.mem_cons_of_mem _ hd)
      rw [splitOn, hcs, h c List.mem_cons_self]
      simp

/-- A separator ends a piece. -/
theorem splitOn_append_sep
    {c : Char}
    (hc : sep c = true)
    (cs rest : List Char) :
    splitOn sep (cs ++ c :: rest) = splitOn sep cs ++ splitOn sep rest := by
  induction cs with
  | nil =>
      exact splitOn_cons_of_sep hc rest
  | cons d cs ih =>
      by_cases hd : sep d = true
      · rw [List.cons_append, splitOn_cons_of_sep hd, splitOn_cons_of_sep hd, ih, List.cons_append]
      · obtain ⟨piece, pieces, hcs⟩ := List.exists_cons_of_ne_nil (splitOn_ne_nil sep cs)
        rw [hcs, List.cons_append] at ih
        rw [List.cons_append, splitOn, ih, splitOn, hcs, if_neg hd, if_neg hd]
        rfl

theorem splitOn_append_cons
    {cs : List Char}
    {c : Char}
    (hcs : ∀ d ∈ cs, sep d = false)
    (hc : sep c = true)
    (rest : List Char) :
    splitOn sep (cs ++ c :: rest) = cs :: splitOn sep rest := by
  rw [splitOn_append_sep hc, splitOn_of_forall hcs, List.singleton_append]

theorem joinChars_cons_cons
    (sep first second : List Char)
    (rest : List (List Char)) :
    joinChars sep (first :: second :: rest) =
      first ++ sep ++ joinChars sep (second :: rest) := by
  rfl

theorem joinChars_eq_intercalate
    (sep : List Char)
    (pieces : List (List Char)) :
    joinChars sep pieces = sep.intercalate pieces := by
  induction pieces with
  | nil =>
      rfl
  | cons first pieces ih =>
      cases pieces with
      | nil =>
          simp [joinChars]
      | cons second rest =>
          rw [joinChars_cons_cons, ih]
          simp [List.append_assoc]

theorem joinChars_concat
    (sep : List Char)
    (pieces : List (List Char))
    (last : List Char) :
    joinChars sep (pieces ++ [last]) = pieces.flatMap (· ++ sep) ++ last := by
  induction pieces with
  | nil =>
      rfl
  | cons piece pieces ih =>
      have hne : pieces ++ [last] ≠ [] := by
        simp
      obtain ⟨second, rest, hrest⟩ := List.exists_cons_of_ne_nil hne
      rw [List.cons_append, hrest, joinChars_cons_cons, ← hrest, ih, List.flatMap_cons,
        ← List.append_assoc]

/-- A separator after joined pieces ends the last of them. -/
theorem joinChars_append_sep
    {pieces : List (List Char)}
    (hne : pieces ≠ [])
    (sep : List Char) :
    joinChars sep pieces ++ sep = pieces.flatMap (· ++ sep) := by
  obtain rfl | ⟨front, last, rfl⟩ := List.eq_nil_or_concat pieces
  · exact absurd rfl hne
  · rw [List.concat_eq_append, joinChars_concat, List.flatMap_append, List.append_assoc]
    simp

/-- Joined pieces are found again. -/
theorem splitOn_joinChars
    {c : Char}
    {pieces : List (List Char)}
    (hc : sep c = true)
    (hne : pieces ≠ [])
    (h : ∀ piece ∈ pieces, ∀ d ∈ piece, sep d = false) :
    splitOn sep (joinChars [c] pieces) = pieces := by
  induction pieces with
  | nil =>
      exact absurd rfl hne
  | cons first pieces ih =>
      cases pieces with
      | nil =>
          exact splitOn_of_forall (h first List.mem_cons_self)
      | cons second rest =>
          have hrest := ih (by simp) fun piece hpiece => h piece (List.mem_cons_of_mem _ hpiece)
          rw [joinChars_cons_cons, List.append_assoc, List.singleton_append,
            splitOn_append_cons (h first List.mem_cons_self) hc, hrest]

theorem of_mem_joinChars
    {sep : List Char}
    {pieces : List (List Char)}
    {c : Char}
    (h : c ∈ joinChars sep pieces) :
    c ∈ sep ∨ ∃ piece ∈ pieces, c ∈ piece := by
  induction pieces with
  | nil =>
      simp [joinChars] at h
  | cons first pieces ih =>
      cases pieces with
      | nil =>
          exact .inr ⟨first, List.mem_cons_self, h⟩
      | cons second rest =>
          rw [joinChars_cons_cons, List.mem_append, List.mem_append] at h
          rcases h with (h | h) | h
          · exact .inr ⟨first, List.mem_cons_self, h⟩
          · exact .inl h
          · rcases ih h with h | ⟨piece, hpiece, hc⟩
            · exact .inl h
            · exact .inr ⟨piece, List.mem_cons_of_mem _ hpiece, hc⟩

theorem length_flatMap_le
    {α β : Type}
    {f g : α → List β}
    {items : List α}
    (h : ∀ item ∈ items, (g item).length ≤ (f item).length) :
    (items.flatMap g).length ≤ (items.flatMap f).length := by
  induction items with
  | nil =>
      exact Nat.le_refl 0
  | cons item items ih =>
      have hitem := h item List.mem_cons_self
      have hitems := ih fun other hother => h other (List.mem_cons_of_mem _ hother)
      simp only [List.flatMap_cons, List.length_append]
      omega

/-- Pieces that are nowhere shorter make the same text only if they are the same. -/
theorem flatMap_eq_iff_of_length_le
    {α β : Type}
    {f g : α → List β}
    {items : List α}
    (h : ∀ item ∈ items, (g item).length ≤ (f item).length) :
    items.flatMap f = items.flatMap g ↔ ∀ item ∈ items, f item = g item := by
  induction items with
  | nil =>
      simp
  | cons item items ih =>
      have hitem := h item List.mem_cons_self
      have hrest : ∀ other ∈ items, (g other).length ≤ (f other).length := by
        intro other hother
        exact h other (List.mem_cons_of_mem _ hother)
      have hitems := length_flatMap_le hrest
      rw [List.flatMap_cons, List.flatMap_cons, List.forall_mem_cons, ← ih hrest]
      constructor
      · intro heq
        have hlength := congrArg List.length heq
        simp only [List.length_append] at hlength
        exact List.append_inj heq (by omega)
      · rintro ⟨hhead, htail⟩
        rw [hhead, htail]

theorem dropBlanks_eq_self
    {cs : List Char}
    (h : ∀ c ∈ cs.head?, isBlank c = false) :
    cs.dropWhile isBlank = cs := by
  cases cs with
  | nil =>
      rfl
  | cons c cs =>
      rw [List.dropWhile_cons_of_neg]
      simp [h c rfl]

/-- Trimming keeps a text with no blank at either end. -/
theorem trimChars_eq_self
    {cs : List Char}
    (hhead : ∀ c ∈ cs.head?, isBlank c = false)
    (hlast : ∀ c ∈ cs.getLast?, isBlank c = false) :
    trimChars cs = cs := by
  have hreverse : ∀ c ∈ cs.reverse.head?, isBlank c = false := by
    intro c hc
    rw [List.head?_reverse] at hc
    exact hlast c hc
  rw [trimChars, dropBlanks_eq_self hhead, dropBlanks_eq_self hreverse, List.reverse_reverse]

/-- Words have no blanks. -/
theorem isBlank_of_mem_words
    {cs word : List Char}
    {c : Char}
    (hword : word ∈ words cs)
    (hc : c ∈ word) :
    isBlank c = false := by
  exact (of_mem_splitOn (List.mem_of_mem_filter hword) c hc).2

end Text

namespace Literal

/-- A text on one line has no line end. -/
theorem not_mem_oneLine
    (s : String) :
    '\n' ∉ (oneLine s).toList := by
  intro h
  rw [oneLine, String.toList_ofList] at h
  rcases Text.of_mem_joinChars h with h | ⟨word, hword, h⟩
  · exact absurd h (by decide)
  · have hblank := Text.isBlank_of_mem_words hword h
    exact absurd hblank (by decide)

end Literal
end SuiteShift
