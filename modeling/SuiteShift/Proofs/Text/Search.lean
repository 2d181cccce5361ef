import SuiteShift.Text.Basic
import Mathlib.Data.List.Basic
import Mathlib.Data.List.Infix

/-!
# Searching for a fixed text

- `stripStart_eq_some_iff`, `startsWith_iff`: a fixed beginning.
- `splitOnce_eq_append`, `splitOnce_singleton_append`: a text split around a fixed text, or around the
  first of some character.
- `contains_iff`, `contains_cons_iff`, `occursIn_iff`: a fixed text anywhere. A text occurs in
  another one exactly if the other one is that text with something before and after it.
- `occursIn_append_left`, `occursIn_intercalate`, `occursIn_join`: what occurs in a part occurs in
  the whole.
- `infix_append_cons_iff`: a text without some character lies on one side of that character.
-/

namespace SuiteShift
namespace Text

/-- Stripping a beginning leaves what follows it. -/
theorem stripStart_eq_some_iff
    {start cs rest : List Char} :
    stripStart start cs = some rest ↔ cs = start ++ rest := by
  induction start generalizing cs with
  | nil =>
      simp [stripStart, eq_comm]
  | cons p ps ih =>
      cases cs with
      | nil =>
          simp [stripStart]
      | cons c cs =>
          by_cases h : p = c
          · subst h
            simp [stripStart, ih]
          · simp [stripStart, h, Ne.symm h]

/-- A word ends before a character that is not in it. -/
theorem stripStart_append
    {word rest : List Char}
    (h : ∀ c ∈ rest.head?, c ∉ word)
    (cs : List Char) :
    stripStart word (cs ++ rest) = (stripStart word cs).map (· ++ rest) := by
  induction word generalizing cs with
  | nil =>
      rfl
  | cons w word ih =>
      cases cs with
      | nil =>
          cases rest with
          | nil =>
              rfl
          | cons c rest =>
              have hc : (w == c) = false := by
                rw [beq_eq_false_iff_ne]
                rintro rfl
                exact h w rfl List.mem_cons_self
              simp [stripStart, hc]
      | cons c cs =>
          rw [List.cons_append, stripStart, stripStart]
          split_ifs
          · exact ih (fun d hd hmem => h d hd (List.mem_cons_of_mem _ hmem)) cs
          · rfl

theorem startsWith_iff
    {start cs : List Char} :
    startsWith start cs = true ↔ ∃ rest, cs = start ++ rest := by
  unfold startsWith
  rw [Option.isSome_iff_exists]
  simp only [stripStart_eq_some_iff]

theorem startsWith_append
    {start front : List Char}
    (h : startsWith start front = true)
    (back : List Char) :
    startsWith start (front ++ back) = true := by
  obtain ⟨rest, rfl⟩ := startsWith_iff.mp h
  exact startsWith_iff.mpr ⟨rest ++ back, List.append_assoc _ _ _⟩

/-- A beginning is settled by a front that is at least as long. -/
theorem startsWith_append_of_le
    {start front : List Char}
    (h : start.length ≤ front.length)
    (back : List Char) :
    startsWith start (front ++ back) = startsWith start front := by
  rw [Bool.eq_iff_iff, startsWith_iff, startsWith_iff]
  constructor
  · rintro ⟨rest, hrest⟩
    obtain ⟨more, hmore⟩ := List.prefix_of_prefix_length_le ⟨rest, hrest.symm⟩
      (List.prefix_append front back) h
    exact ⟨more, hmore.symm⟩
  · rintro ⟨rest, rfl⟩
    exact ⟨rest ++ back, List.append_assoc _ _ _⟩

/-- The two parts around an occurrence. -/
theorem splitOnce_eq_append
    {needle cs before after : List Char}
    (h : splitOnce needle cs = some (before, after)) :
    cs = before ++ needle ++ after := by
  induction cs generalizing before with
  | nil =>
      unfold splitOnce at h
      split_ifs at h with hneedle
      simp only [Option.some.injEq, Prod.mk.injEq] at h
      obtain ⟨rfl, rfl⟩ := h
      simpa using hneedle
  | cons c cs ih =>
      unfold splitOnce at h
      split at h
      · rename_i rest hrest
        simp only [Option.some.injEq, Prod.mk.injEq] at h
        obtain ⟨rfl, rfl⟩ := h
        simpa using stripStart_eq_some_iff.mp hrest
      · rw [Option.map_eq_some_iff] at h
        obtain ⟨⟨front, back⟩, hfront, heq⟩ := h
        simp only [Prod.mk.injEq] at heq
        obtain ⟨rfl, rfl⟩ := heq
        simp [ih hfront]

/-- The first occurrence of a text does not depend on what follows it. -/
theorem splitOnce_append_rest
    {needle cs before after : List Char}
    (h : splitOnce needle cs = some (before, after))
    (hne : needle ≠ [])
    (rest : List Char) :
    splitOnce needle (before ++ (needle ++ rest)) = some (before, rest) := by
  obtain rfl := splitOnce_eq_append h
  induction before with
  | nil =>
      obtain ⟨c, needle, rfl⟩ := List.exists_cons_of_ne_nil hne
      rw [List.nil_append, List.cons_append, splitOnce, ← List.cons_append,
        stripStart_eq_some_iff.mpr rfl]
  | cons c before ih =>
      rw [List.cons_append, List.cons_append, splitOnce] at h
      rw [List.cons_append, splitOnce]
      cases hhere : stripStart needle (c :: (before ++ needle ++ after)) with
      | some found =>
          rw [hhere] at h
          cases h
      | none =>
          have hlength : needle.length ≤ (c :: (before ++ needle)).length := by
            simp only [List.length_cons, List.length_append]
            omega
          -- Whether the text starts here is settled before the occurrence that was found ends.
          have hstarts : ∀ more, startsWith needle (c :: (before ++ (needle ++ more))) =
              startsWith needle (c :: (before ++ needle)) := by
            intro more
            rw [← startsWith_append_of_le hlength more]
            simp
          have hnone : stripStart needle (c :: (before ++ (needle ++ rest))) = none := by
            have heq := (hstarts rest).trans (hstarts after).symm
            rw [← List.append_assoc before needle after] at heq
            rw [startsWith, startsWith, hhere] at heq
            exact Option.not_isSome_iff_eq_none.mp (by simp [heq])
          rw [hhere] at h
          obtain ⟨⟨front, back⟩, hfront, hparts⟩ := Option.map_eq_some_iff.mp h
          obtain ⟨hbefore, rfl⟩ := Prod.mk.inj hparts
          rw [(List.cons.inj hbefore).2] at hfront
          rw [hnone, ih hfront]
          rfl

theorem splitOnce_singleton_of_not_mem
    {c : Char}
    {cs : List Char}
    (h : c ∉ cs) :
    splitOnce [c] cs = none := by
  cases hsplit : splitOnce [c] cs with
  | none =>
      rfl
  | some parts =>
      have hparts := splitOnce_eq_append hsplit
      exact absurd (by simp [hparts]) h

theorem splitOnce_singleton_append
    {c : Char}
    {before : List Char}
    (h : c ∉ before)
    (after : List Char) :
    splitOnce [c] (before ++ c :: after) = some (before, after) := by
  induction before with
  | nil =>
      simp [splitOnce, stripStart]
  | cons d before ih =>
      rw [List.mem_cons, not_or] at h
      simp [splitOnce, stripStart, h.1, ih h.2]

/-- An occurrence after some text is found, there or earlier. -/
theorem contains_append
    (before needle after : List Char) :
    contains needle (before ++ needle ++ after) = true := by
  unfold contains
  induction before with
  | nil =>
      have hstrip : stripStart needle (needle ++ after) = some after :=
        stripStart_eq_some_iff.mpr rfl
      rw [List.nil_append]
      cases hcs : needle ++ after with
      | nil =>
          rw [List.append_eq_nil_iff] at hcs
          simp [splitOnce, hcs.1]
      | cons c cs =>
          rw [hcs] at hstrip
          simp [splitOnce, hstrip]
  | cons c before ih =>
      rw [List.cons_append, List.cons_append]
      unfold splitOnce
      split
      · rfl
      · simpa using ih

theorem contains_iff
    {needle cs : List Char} :
    contains needle cs = true ↔
      ∃ before after, cs = before ++ needle ++ after := by
  constructor
  · intro h
    obtain ⟨⟨before, after⟩, hsplit⟩ := Option.isSome_iff_exists.mp h
    exact ⟨before, after, splitOnce_eq_append hsplit⟩
  · rintro ⟨before, after, rfl⟩
    exact contains_append before needle after

theorem contains_iff_isInfix
    {needle cs : List Char} :
    contains needle cs = true ↔ needle <:+: cs := by
  rw [contains_iff]
  constructor
  · rintro ⟨before, after, rfl⟩
    exact ⟨before, after, rfl⟩
  · rintro ⟨before, after, rfl⟩
    exact ⟨before, after, rfl⟩

/-- A text occurs at the beginning or behind the first character. -/
theorem contains_cons_iff
    {needle cs : List Char}
    {c : Char} :
    contains needle (c :: cs) = true ↔
      startsWith needle (c :: cs) = true ∨ contains needle cs = true := by
  rw [contains_iff_isInfix, contains_iff_isInfix, startsWith_iff, List.infix_cons_iff]
  refine or_congr_left ⟨?_, ?_⟩
  · rintro ⟨rest, hrest⟩
    exact ⟨rest, hrest.symm⟩
  · rintro ⟨rest, hrest⟩
    exact ⟨rest, hrest.symm⟩

/-- A text without some character lies on one side of that character. -/
theorem infix_append_cons_iff
    {needle before after : List Char}
    {c : Char}
    (h : c ∉ needle) :
    needle <:+: before ++ c :: after ↔ needle <:+: before ∨ needle <:+: after := by
  constructor
  · intro hinfix
    rcases List.infix_append_iff.mp hinfix with hleft | hright | ⟨front, back, rfl, hfront, hback⟩
    · exact .inl hleft
    · rcases List.infix_cons_iff.mp hright with hstart | hafter
      · rcases List.prefix_cons_iff.mp hstart with rfl | ⟨rest, rfl, -⟩
        · exact .inl List.nil_infix
        · simp at h
      · exact .inr hafter
    · rcases List.prefix_cons_iff.mp hback with rfl | ⟨rest, rfl, -⟩
      · rw [List.append_nil]
        exact .inl hfront.isInfix
      · simp at h
  · rintro (hleft | hright)
    · exact hleft.trans (List.prefix_append _ _).isInfix
    · exact hright.trans ((List.suffix_cons _ _).trans (List.suffix_append _ _)).isInfix

end Text

/-- A text occurs in another one if that one is made around it. -/
theorem occursIn_iff
    {needle hay : String} :
    occursIn needle hay = true ↔
      ∃ before after, hay = before ++ needle ++ after := by
  unfold occursIn
  rw [Text.contains_iff]
  constructor
  · rintro ⟨before, after, h⟩
    refine ⟨String.ofList before, String.ofList after, ?_⟩
    rw [← String.toList_inj]
    simpa using h
  · rintro ⟨before, after, rfl⟩
    exact ⟨before.toList, after.toList, by simp⟩

theorem occursIn_iff_isInfix
    {needle hay : String} :
    occursIn needle hay = true ↔ needle.toList <:+: hay.toList := by
  exact Text.contains_iff_isInfix

theorem occursIn_between
    (before text after : String) :
    occursIn text (before ++ text ++ after) = true := by
  exact occursIn_iff.mpr ⟨before, after, rfl⟩

theorem occursIn_self
    (text : String) :
    occursIn text text = true := by
  simpa using occursIn_between "" text ""

theorem occursIn_trans
    {needle part hay : String}
    (hpart : occursIn needle part = true)
    (h : occursIn part hay = true) :
    occursIn needle hay = true := by
  rw [occursIn_iff_isInfix] at hpart h ⊢
  exact hpart.trans h

/-! ### Parts of a text -/

theorem occursIn_append_left
    {needle hay : String}
    (h : occursIn needle hay = true)
    (before : String) :
    occursIn needle (before ++ hay) = true := by
  rw [occursIn_iff] at h ⊢
  obtain ⟨front, back, rfl⟩ := h
  exact ⟨before ++ front, back, by simp only [String.append_assoc]⟩

theorem occursIn_append_right
    {needle hay : String}
    (h : occursIn needle hay = true)
    (after : String) :
    occursIn needle (hay ++ after) = true := by
  rw [occursIn_iff] at h ⊢
  obtain ⟨front, back, rfl⟩ := h
  exact ⟨front, back ++ after, by simp only [String.append_assoc]⟩

theorem occursIn_intercalate
    {needle part : String}
    {parts : List String}
    (hpart : part ∈ parts)
    (h : occursIn needle part = true)
    (sep : String) :
    occursIn needle (sep.intercalate parts) = true := by
  induction parts with
  | nil =>
      simp at hpart
  | cons first parts ih =>
      cases parts with
      | nil =>
          rw [List.mem_singleton] at hpart
          rw [String.intercalate_singleton, ← hpart]
          exact h
      | cons second rest =>
          rw [String.intercalate_cons_cons]
          rcases List.mem_cons.mp hpart with rfl | hpart
          · exact occursIn_append_right (occursIn_append_right h _) _
          · exact occursIn_append_left (ih hpart) _

theorem occursIn_join
    {needle part : String}
    {parts : List String}
    (hpart : part ∈ parts)
    (h : occursIn needle part = true) :
    occursIn needle (String.join parts) = true := by
  induction parts with
  | nil =>
      simp at hpart
  | cons first parts ih =>
      rw [String.join_cons]
      rcases List.mem_cons.mp hpart with rfl | hpart
      · exact occursIn_append_right h _
      · exact occursIn_append_left (ih hpart) _

end SuiteShift
