import SuiteShift.Proofs.Literal.Identifier
import SuiteShift.Proofs.Text.CasedLetter
import Mathlib.Data.List.TakeWhile

/-!
# Names in camel case

- `pascalChars_eq`, `exists_camelChars`: camel case word by word.
- `camelChars_eq_self`: it gives a name back only if that is letters and numbers.
- `identifierChars_eq_self_iff`: the identifier of a name is the name exactly if it was kept.
- `IsSettled`, `identifier_identifier_iff`: names whose identifier is kept from then on.
-/

namespace SuiteShift
namespace Literal

open Text (isAlphanumeric)

/-! ### Words and their first letters -/

/-- The words of a name: the longest pieces of letters and numbers. -/
def wordsOf (cs : List Char) : List (List Char) :=
  (Text.splitOn (fun c => !isAlphanumeric c) cs).filter fun word => !word.isEmpty

/-- The first letters of the words. -/
def initials (cs : List Char) : List Char :=
  (wordsOf cs).filterMap List.head?

theorem of_mem_wordsOf
    {cs word : List Char}
    (h : word ∈ wordsOf cs) :
    word ≠ [] ∧ ∀ c ∈ word, c ∈ cs ∧ isAlphanumeric c = true := by
  rw [wordsOf, List.mem_filter] at h
  refine ⟨by simpa using h.2, fun c hc => ?_⟩
  obtain ⟨hmem, hsep⟩ := Text.of_mem_splitOn h.1 c hc
  exact ⟨hmem, by simpa using hsep⟩

theorem exists_mem_wordsOf
    {cs : List Char}
    {c : Char}
    (hc : c ∈ cs)
    (hletter : isAlphanumeric c = true) :
    ∃ word ∈ wordsOf cs, c ∈ word := by
  have hkept : (!isAlphanumeric c) = false := by
    rw [hletter, Bool.not_true]
  obtain ⟨word, hword, hmem⟩ : ∃ word ∈ Text.splitOn (fun c => !isAlphanumeric c) cs, c ∈ word :=
    Text.exists_mem_splitOn hc hkept
  refine ⟨word, List.mem_filter.mpr ⟨hword, ?_⟩, hmem⟩
  cases word with
  | nil =>
      simp at hmem
  | cons d word =>
      rfl

/-- A word stands before the first character that is no letter. -/
theorem wordsOf_append_cons
    {word : List Char}
    {c : Char}
    (hne : word ≠ [])
    (hword : ∀ d ∈ word, isAlphanumeric d = true)
    (hc : isAlphanumeric c = false)
    (rest : List Char) :
    wordsOf (word ++ c :: rest) = word :: wordsOf rest := by
  have hletters : ∀ d ∈ word, (!isAlphanumeric d) = false := by
    intro d hd
    rw [hword d hd, Bool.not_true]
  have hgap : (!isAlphanumeric c) = true := by
    rw [hc, Bool.not_false]
  rw [wordsOf, Text.splitOn_append_cons hletters hgap, List.filter_cons_of_pos (by simp [hne])]
  rfl

theorem wordsOf_cons
    {c : Char}
    (hc : isAlphanumeric c = false)
    (rest : List Char) :
    wordsOf (c :: rest) = wordsOf rest := by
  rw [wordsOf, Text.splitOn_cons_of_sep (by simp [hc]), List.filter_cons_of_neg (by simp)]
  rfl

theorem pascalChars_eq
    (cs : List Char) :
    pascalChars cs = (wordsOf cs).flatMap capitalize := by
  rw [pascalChars, wordsOf]
  induction Text.splitOn (fun c => !isAlphanumeric c) cs with
  | nil =>
      rfl
  | cons piece pieces ih =>
      cases piece with
      | nil =>
          rw [List.flatMap_cons, List.filter_cons_of_neg (by simp), ih]
          rfl
      | cons c rest =>
          rw [List.flatMap_cons, List.filter_cons_of_pos (by simp), List.flatMap_cons, ih]

theorem wordsOf_cases
    (cs : List Char) :
    wordsOf cs = [] ∨
      ∃ c rest words, wordsOf cs = (c :: rest) :: words ∧ c ∈ cs ∧ isAlphanumeric c = true := by
  cases hwords : wordsOf cs with
  | nil =>
      exact .inl rfl
  | cons word words =>
      obtain ⟨hne, hletters⟩ := of_mem_wordsOf (hwords ▸ List.mem_cons_self : word ∈ wordsOf cs)
      obtain ⟨c, rest, rfl⟩ := List.exists_cons_of_ne_nil hne
      exact .inr ⟨c, rest, words, rfl, hletters c List.mem_cons_self⟩

theorem camelChars_eq_nil
    {cs : List Char}
    (h : wordsOf cs = []) :
    camelChars cs = [] := by
  rw [camelChars, pascalChars_eq, h]
  rfl

theorem exists_pascalChars
    {cs rest : List Char}
    {c : Char}
    {words : List (List Char)}
    (h : wordsOf cs = (c :: rest) :: words) :
    ∃ u more, Text.upper c = u :: more ∧ Text.SameUse c u ∧
      pascalChars cs = u :: (more ++ rest ++ words.flatMap capitalize) := by
  obtain ⟨u, more, hupper, huse, -⟩ := (Text.recased_upper c).exists_cons
  refine ⟨u, more, hupper, huse, ?_⟩
  rw [pascalChars_eq, h, List.flatMap_cons, capitalize, hupper]
  rfl

/-- The first letter is put in upper case and back. -/
theorem exists_camelChars
    {cs rest : List Char}
    {c : Char}
    {words : List (List Char)}
    (h : wordsOf cs = (c :: rest) :: words) :
    ∃ u more, Text.upper c = u :: more ∧ Text.SameUse c u ∧
      camelChars cs = Text.lower u ++ (more ++ rest ++ words.flatMap capitalize) := by
  obtain ⟨u, more, hupper, huse, hpascal⟩ := exists_pascalChars h
  refine ⟨u, more, hupper, huse, ?_⟩
  rw [camelChars, hpascal]

/-! ### Names that stay as they are -/

theorem isAlphanumeric_head_pascalChars
    {cs rest : List Char}
    {d : Char}
    (h : pascalChars cs = d :: rest) :
    isAlphanumeric d = true := by
  obtain hwords | ⟨c, word, words, hwords, -, hletter⟩ := wordsOf_cases cs
  · rw [pascalChars_eq, hwords] at h
    cases h
  · obtain ⟨u, more, -, huse, hpascal⟩ := exists_pascalChars hwords
    rw [hpascal] at h
    obtain ⟨rfl, -⟩ := List.cons.inj h
    rw [huse.alphanumeric, hletter]

theorem isAlphanumeric_head_camelChars
    {cs rest : List Char}
    {d : Char}
    (h : camelChars cs = d :: rest) :
    isAlphanumeric d = true := by
  unfold camelChars at h
  split at h
  · cases h
  · next u more hpascal =>
      obtain ⟨e, low, hlower, huse, -⟩ := (Text.recased_lower u).exists_cons
      rw [hlower] at h
      obtain ⟨rfl, -⟩ := List.cons.inj h
      rw [huse.alphanumeric, isAlphanumeric_head_pascalChars hpascal]

/-- A letter that is found again after upper and lower case was mapped to one letter each time. -/
theorem eq_singleton_of_head_lower
    {c u : Char}
    {more rest : List Char}
    (hupper : Text.upper c = u :: more)
    (hlower : Text.lower u = c :: rest) :
    more = [] ∧ rest = [] := by
  have hhead : (Text.lower u).head? = some c := by
    rw [hlower]
    rfl
  constructor
  · cases more with
    | nil =>
        rfl
    | cons v more =>
        exact absurd hhead (Text.head_lower_upper_ne hupper)
  · have hdotted : u ≠ 'İ' := by
      rintro rfl
      have hc : c = 'İ' := Text.eq_of_dotted_mem_upper (hupper ▸ List.mem_cons_self)
      rw [hc, Text.cases_dotted.2] at hhead
      exact absurd hhead (by decide)
    obtain ⟨d, hd⟩ := Text.lower_eq_singleton hdotted
    rw [hd] at hlower
    exact (List.cons.inj hlower).2.symm

/-- Camel case gives a name back only if it is letters and numbers. -/
theorem camelChars_eq_self
    {cs : List Char}
    (h : camelChars cs = cs) :
    ∀ c ∈ cs, isAlphanumeric c = true := by
  cases cs with
  | nil =>
      simp
  | cons c rest =>
      have hc := isAlphanumeric_head_camelChars h
      have hletters : ∀ d ∈ c :: rest.takeWhile isAlphanumeric, isAlphanumeric d = true := by
        intro d hd
        rcases List.mem_cons.mp hd with rfl | hd
        · exact hc
        · exact List.mem_takeWhile_imp hd
      have hsplit : rest.takeWhile isAlphanumeric ++ rest.dropWhile isAlphanumeric = rest :=
        List.takeWhile_append_dropWhile
      have hstop := List.head?_dropWhile_not isAlphanumeric rest
      generalize rest.takeWhile isAlphanumeric = word at hletters hsplit
      generalize rest.dropWhile isAlphanumeric = after at hsplit hstop
      subst hsplit
      cases after with
      | nil =>
          rw [List.append_nil]
          exact hletters
      | cons gap after =>
          -- the first word comes back, and the next one would have to start with the gap
          have hwords : wordsOf (c :: (word ++ gap :: after)) = (c :: word) :: wordsOf after :=
            wordsOf_append_cons (List.cons_ne_nil c word) hletters hstop after
          obtain ⟨u, more, hupper, -, hcamel⟩ := exists_camelChars hwords
          obtain ⟨d, low, hlower, -⟩ := (Text.recased_lower u).exists_cons
          rw [hcamel, hlower, List.cons_append, List.cons.injEq] at h
          obtain ⟨rfl, h⟩ := h
          obtain ⟨rfl, rfl⟩ := eq_singleton_of_head_lower hupper hlower
          rw [List.nil_append, List.nil_append, List.append_right_inj, ← pascalChars_eq] at h
          have hgap := isAlphanumeric_head_pascalChars h
          rw [hstop] at hgap
          cases hgap

theorem isIdentifierChar_of_isAlphanumeric
    {c : Char}
    (h : isAlphanumeric c = true) :
    isIdentifierChar c = true := by
  rw [isIdentifierChar, h, Bool.true_or, Bool.true_or]

/-- The identifier of a name is the name itself exactly if it was one before. -/
theorem identifierChars_eq_self_iff
    {cs : List Char} :
    identifierChars cs = cs ↔ isIdentifier cs = true := by
  refine ⟨fun h => ?_, fun h => by rw [identifierChars, if_pos h]⟩
  by_contra hid
  rw [identifierChars, if_neg hid] at h
  dsimp only at h
  split_ifs at h with hempty hdigit
  · rw [← h] at hid
    exact hid (by decide)
  · cases cs with
    | nil =>
        cases h
    | cons c rest =>
        obtain ⟨rfl, h⟩ := List.cons.inj h
        -- the underscore is no letter, so the rest has the same words
        have hsame : camelChars ('_' :: rest) = camelChars rest := by
          have hgap : isAlphanumeric '_' = false := by
            decide
          rw [camelChars, camelChars, pascalChars_eq, pascalChars_eq, wordsOf_cons hgap]
        have hletters := camelChars_eq_self (hsame.symm.trans h)
        refine hid ?_
        have hall : ('_' :: rest).all isIdentifierChar = true := by
          rw [List.all_eq_true, List.forall_mem_cons]
          exact ⟨rfl, fun d hd => isIdentifierChar_of_isAlphanumeric (hletters d hd)⟩
        rw [isIdentifier, hall]
        rfl
  · have hletters := camelChars_eq_self h
    rw [h] at hempty hdigit
    refine hid ?_
    have hall : cs.all isIdentifierChar = true := by
      rw [List.all_eq_true]
      exact fun d hd => isIdentifierChar_of_isAlphanumeric (hletters d hd)
    simp [isIdentifier, hall, hempty, hdigit]

theorem initials_eq_nil
    {cs : List Char}
    (h : wordsOf cs = []) :
    initials cs = [] := by
  rw [initials, h]
  rfl

theorem initials_eq_cons
    {cs rest : List Char}
    {c : Char}
    {words : List (List Char)}
    (h : wordsOf cs = (c :: rest) :: words) :
    initials cs = c :: words.filterMap List.head? := by
  rw [initials, h]
  rfl

/-- The identifier of the name stays as it is: the name was kept, or its words start with letters
whose capitals are letters and nothing else. The capital i with a dot is its own capital, but gets
a mark when the first word is put in lower case. -/
def IsSettled (cs : List Char) : Prop :=
  isIdentifier cs = true ∨
    ((initials cs).head? ≠ some 'İ' ∧
      ∀ c ∈ initials cs, ∀ d ∈ Text.upper c, isIdentifierChar d = true)

theorem forall_isIdentifierChar_pascalChars_iff
    {cs : List Char} :
    (∀ d ∈ pascalChars cs, isIdentifierChar d = true) ↔
      ∀ c ∈ initials cs, ∀ d ∈ Text.upper c, isIdentifierChar d = true := by
  rw [pascalChars_eq]
  simp only [List.mem_flatMap, initials, List.mem_filterMap]
  constructor
  · rintro h c ⟨word, hword, hhead⟩ d hd
    refine h d ⟨word, hword, ?_⟩
    obtain ⟨rest, rfl⟩ := List.head?_eq_some_iff.mp hhead
    exact List.mem_append_left _ hd
  · rintro h d ⟨word, hword, hd⟩
    obtain ⟨hne, hletters⟩ := of_mem_wordsOf hword
    obtain ⟨c, rest, rfl⟩ := List.exists_cons_of_ne_nil hne
    rcases List.mem_append.mp hd with hd | hd
    · exact h c ⟨_, hword, rfl⟩ d hd
    · exact isIdentifierChar_of_isAlphanumeric (hletters d (List.mem_cons_of_mem _ hd)).2

theorem isIdentifierChar_dot :
    isIdentifierChar '\u0307' = false := by
  decide +kernel

/-- A letter is mapped to no marks in lower case unless it is the capital i with a dot. -/
theorem forall_isIdentifierChar_lower_iff
    {u : Char}
    (hletter : isAlphanumeric u = true) :
    (∀ d ∈ Text.lower u, isIdentifierChar d = true) ↔ u ≠ 'İ' := by
  constructor
  · rintro h rfl
    rw [Text.cases_dotted.2] at h
    have hid := h '\u0307' (by simp)
    rw [isIdentifierChar_dot] at hid
    cases hid
  · intro hdotted d hd
    obtain ⟨e, he⟩ := Text.lower_eq_singleton hdotted
    obtain ⟨f, rest, hf, huse, -⟩ := (Text.recased_lower u).exists_cons
    rw [hf] at he
    obtain ⟨rfl, rfl⟩ := List.cons.inj he
    rw [hf, List.mem_singleton] at hd
    rw [hd]
    exact isIdentifierChar_of_isAlphanumeric (huse.alphanumeric.trans hletter)

theorem forall_isIdentifierChar_camelChars_iff
    {cs : List Char} :
    (∀ d ∈ camelChars cs, isIdentifierChar d = true) ↔
      (initials cs).head? ≠ some 'İ' ∧
        ∀ c ∈ initials cs, ∀ d ∈ Text.upper c, isIdentifierChar d = true := by
  rw [← forall_isIdentifierChar_pascalChars_iff]
  obtain hwords | ⟨c, rest, words, hwords, -, hletter⟩ := wordsOf_cases cs
  · rw [camelChars_eq_nil hwords, pascalChars_eq, initials_eq_nil hwords, hwords]
    simp
  · obtain ⟨u, more, hupper, huse, hpascal⟩ := exists_pascalChars hwords
    have hu : isAlphanumeric u = true := huse.alphanumeric.trans hletter
    have hdotted : u ≠ 'İ' ↔ c ≠ 'İ' := by
      constructor
      · rintro hu rfl
        rw [Text.cases_dotted.1] at hupper
        exact hu (List.cons.inj hupper).1.symm
      · rintro hc rfl
        exact hc (Text.eq_of_dotted_mem_upper (hupper ▸ List.mem_cons_self))
    rw [camelChars, hpascal, initials_eq_cons hwords, List.head?_cons, ne_eq, Option.some_inj,
      ← ne_eq, ← hdotted, ← forall_isIdentifierChar_lower_iff hu, List.forall_mem_cons,
      and_iff_right (isIdentifierChar_of_isAlphanumeric hu)]
    exact List.forall_mem_append

/-- Which names give an identifier that is kept from then on. -/
theorem isIdentifier_identifierChars_iff
    {cs : List Char} :
    isIdentifier (identifierChars cs) = true ↔ IsSettled cs := by
  unfold IsSettled
  by_cases hid : isIdentifier cs = true
  · rw [identifierChars, if_pos hid]
    exact iff_of_true hid (.inl hid)
  · rw [or_iff_right hid, ← forall_isIdentifierChar_camelChars_iff, identifierChars, if_neg hid]
    dsimp only
    split_ifs with hempty hdigit
    · refine iff_of_true (by decide) ?_
      rw [List.isEmpty_iff.mp hempty]
      simp
    · have hall : ('_' :: camelChars cs).all isIdentifierChar =
          (camelChars cs).all isIdentifierChar := by
        rfl
      rw [isIdentifier, hall, ← List.all_eq_true]
      simp [startsWithDigit, Text.isAsciiDigit]
    · rw [← List.all_eq_true]
      simp [isIdentifier, hempty, hdigit]

theorem identifier_identifier_iff
    {name : String} :
    identifier (identifier name) = identifier name ↔ IsSettled name.toList := by
  rw [← isIdentifier_identifierChars_iff, ← identifierChars_eq_self_iff, identifier, identifier,
    String.toList_ofList, String.ofList_inj]

end Literal
end SuiteShift
