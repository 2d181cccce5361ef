import SuiteShift.Proofs.Literal.CamelCase

/-!
# Identifiers that can be declared

- `IsBindable`, `isBindingIdentifier_identifierChars_iff`: which names give an identifier that a
  script can declare.
- `identifier_usable_iff`: these, and the names whose identifier gives itself again.
- `identifier_usable_of_ascii`: for a name in ASCII only a reserved word is in the way.
-/

namespace SuiteShift
namespace Literal

open Text (isAlphanumeric isAsciiDigit)
open Script (isStartChar isPartChar)

/-! ### Names that can be declared -/

/-- Without all that is no letter or number the name is a single word, and a reserved one once its
first letter is in lower case. -/
def SpellsReserved (cs : List Char) : Prop :=
  ∃ c rest u, wordsOf cs = [c :: rest] ∧ Text.upper c = [u] ∧
    String.ofList (Text.lower u ++ rest) ∈ Script.reservedWords

/-- The identifier of the name can be declared: an identifier can hold all letters and numbers of
it and start with the first of them, and it is not reserved. A name that is put in camel case can
also start with a digit, which gets an underscore, or with the iota under a vowel, which becomes a
letter. -/
structure IsBindable (cs : List Char) : Prop where
  letters : ∀ c ∈ cs, isAlphanumeric c = true → Script.isIdContinue c = true
  keptStart :
    isIdentifier cs = true →
      ∀ c ∈ cs.head?, isAlphanumeric c = true → Script.isIdStart c = true
  keptWord : isIdentifier cs = true → String.ofList cs ∉ Script.reservedWords
  camelStart :
    isIdentifier cs = false →
      ∀ c ∈ (initials cs).head?,
        isAsciiDigit c = true ∨ Script.isIdStart c = true ∨ c = '\u0345'
  camelWord : isIdentifier cs = false → ¬SpellsReserved cs

theorem ne_of_isAlphanumeric
    {c : Char}
    (h : isAlphanumeric c = true) :
    (c == '_') = false ∧ (c == '$') = false := by
  rw [beq_eq_false_iff_ne, beq_eq_false_iff_ne]
  constructor
  · rintro rfl
    exact absurd h (by decide)
  · rintro rfl
    exact absurd h (by decide)

theorem isPartChar_iff_of_isAlphanumeric
    {c : Char}
    (h : isAlphanumeric c = true) :
    isPartChar c = true ↔ Script.isIdContinue c = true := by
  rw [isPartChar, (ne_of_isAlphanumeric h).2, Bool.or_false]

theorem isStartChar_iff_of_isAlphanumeric
    {c : Char}
    (h : isAlphanumeric c = true) :
    isStartChar c = true ↔ Script.isIdStart c = true := by
  rw [isStartChar, (ne_of_isAlphanumeric h).1, (ne_of_isAlphanumeric h).2, Bool.or_false,
    Bool.or_false]

theorem isStartChar_of_not_isAlphanumeric
    {c : Char}
    (h : isIdentifierChar c = true)
    (hletter : isAlphanumeric c = false) :
    isStartChar c = true := by
  rw [isIdentifierChar, hletter, Bool.false_or] at h
  rw [isStartChar, Bool.or_assoc, h, Bool.or_true]

theorem isStartChar_iff_of_isIdentifierChar
    {c : Char}
    (h : isIdentifierChar c = true) :
    isStartChar c = true ↔ (isAlphanumeric c = true → Script.isIdStart c = true) := by
  cases hletter : isAlphanumeric c with
  | false =>
      exact iff_of_true (isStartChar_of_not_isAlphanumeric h hletter) (by simp)
  | true =>
      rw [isStartChar_iff_of_isAlphanumeric hletter]
      simp

theorem isPartChar_iff_of_isIdentifierChar
    {c : Char}
    (h : isIdentifierChar c = true) :
    isPartChar c = true ↔ (isAlphanumeric c = true → Script.isIdContinue c = true) := by
  cases hletter : isAlphanumeric c with
  | false =>
      have hstart := isStartChar_of_not_isAlphanumeric h hletter
      exact iff_of_true (Script.isPartChar_of_isStartChar hstart) (by simp)
  | true =>
      rw [isPartChar_iff_of_isAlphanumeric hletter]
      simp

theorem isBindingIdentifier_cons_iff
    {c : Char}
    {cs : List Char} :
    Script.isBindingIdentifier (String.ofList (c :: cs)) = true ↔
      isStartChar c = true ∧ (∀ d ∈ c :: cs, isPartChar d = true) ∧
        String.ofList (c :: cs) ∉ Script.reservedWords := by
  rw [Script.isBindingIdentifier_iff, String.toList_ofList, ← and_assoc]
  refine and_congr_left' ⟨?_, ?_⟩
  · rintro ⟨_, _, heq, hstart, hpart⟩
    obtain ⟨rfl, rfl⟩ := List.cons.inj heq
    exact ⟨hstart, List.forall_mem_cons.mpr ⟨Script.isPartChar_of_isStartChar hstart, hpart⟩⟩
  · rintro ⟨hstart, hpart⟩
    exact ⟨c, cs, rfl, hstart, (List.forall_mem_cons.mp hpart).2⟩

/-- A name that is kept can be declared if an identifier can hold its letters. -/
theorem isBindingIdentifier_of_isIdentifier_iff
    {cs : List Char}
    (hid : isIdentifier cs = true) :
    Script.isBindingIdentifier (String.ofList cs) = true ↔ IsBindable cs := by
  have hchars := hid
  rw [isIdentifier, Bool.and_eq_true, Bool.and_eq_true, List.all_eq_true] at hchars
  obtain ⟨⟨hne, hchars⟩, -⟩ := hchars
  have hletters : (∀ d ∈ cs, isPartChar d = true) ↔
      ∀ c ∈ cs, isAlphanumeric c = true → Script.isIdContinue c = true := by
    exact forall₂_congr fun c hc => isPartChar_iff_of_isIdentifierChar (hchars c hc)
  cases cs with
  | nil =>
      cases hne
  | cons c cs =>
      rw [isBindingIdentifier_cons_iff, hletters,
        isStartChar_iff_of_isIdentifierChar (hchars c List.mem_cons_self)]
      constructor
      · rintro ⟨hfirst, hall, hword⟩
        refine ⟨hall, fun _ d hd => ?_, fun _ => hword, by simp [hid], by simp [hid]⟩
        cases hd
        exact hfirst
      · intro h
        exact ⟨h.keptStart hid c rfl, h.letters, h.keptWord hid⟩

/-- Camel case keeps what an identifier cannot hold. -/
theorem forall_isPartChar_camelChars_iff
    {cs : List Char} :
    (∀ d ∈ camelChars cs, isPartChar d = true) ↔
      ∀ c ∈ cs, isAlphanumeric c = true → Script.isIdContinue c = true := by
  have hcamel : (∀ d ∈ camelChars cs, isPartChar d = true) ↔
      ∀ d ∈ pascalChars cs, isPartChar d = true := by
    unfold camelChars
    cases pascalChars cs with
    | nil =>
        simp
    | cons u rest =>
        rw [List.forall_mem_append, List.forall_mem_cons,
          (Text.recased_lower u).forall_isPartChar_iff]
  rw [hcamel, pascalChars_eq]
  constructor
  · intro h c hc hletter
    obtain ⟨word, hword, hmem⟩ := exists_mem_wordsOf hc hletter
    have hcapital : ∀ d ∈ capitalize word, isPartChar d = true := by
      intro d hd
      exact h d (List.mem_flatMap.mpr ⟨word, hword, hd⟩)
    rw [← isPartChar_iff_of_isAlphanumeric hletter]
    cases word with
    | nil =>
        cases hmem
    | cons first word =>
        rw [capitalize, List.forall_mem_append,
          (Text.recased_upper first).forall_isPartChar_iff] at hcapital
        rcases List.mem_cons.mp hmem with rfl | hmem
        · exact hcapital.1
        · exact hcapital.2 c hmem
  · intro h d hd
    obtain ⟨word, hword, hd⟩ := List.mem_flatMap.mp hd
    obtain ⟨hne, hletters⟩ := of_mem_wordsOf hword
    have hpart : ∀ c ∈ word, isPartChar c = true := by
      intro c hc
      obtain ⟨hmem, hletter⟩ := hletters c hc
      exact (isPartChar_iff_of_isAlphanumeric hletter).mpr (h c hmem hletter)
    obtain ⟨first, word, rfl⟩ := List.exists_cons_of_ne_nil hne
    rcases List.mem_append.mp hd with hd | hd
    · exact (Text.recased_upper first).forall_isPartChar_iff.mpr
        (hpart first List.mem_cons_self) d hd
    · exact hpart d (List.mem_cons_of_mem _ hd)

theorem isStartChar_head_lower
    {u d : Char}
    {rest : List Char}
    (h : Text.lower u = d :: rest) :
    isStartChar d = isStartChar u := by
  by_cases hu : u = '\u0345'
  · rw [hu, Text.cases_iota.2] at h
    rw [hu, ← (List.cons.inj h).1]
  · exact (h ▸ Text.recased_lower u).isStartChar_head hu

/-- The first character of camel case is a digit if the first letter was one, and can start an
identifier if that could, or was the iota under a vowel. -/
theorem head_camelChars
    {cs rest : List Char}
    {c : Char}
    {words : List (List Char)}
    (hwords : wordsOf cs = (c :: rest) :: words)
    (hletter : isAlphanumeric c = true) :
    ∃ d name, camelChars cs = d :: name ∧ isAsciiDigit d = isAsciiDigit c ∧
      (isStartChar d = true ↔ Script.isIdStart c = true ∨ c = '\u0345') := by
  obtain ⟨u, more, hupper, hupperUse, hcamel⟩ := exists_camelChars hwords
  obtain ⟨d, low, hlower, hlowerUse, -⟩ := (Text.recased_lower u).exists_cons
  refine ⟨d, _, by rw [hcamel, hlower]; rfl, ?_, ?_⟩
  · rw [hlowerUse.digit, hupperUse.digit]
  · rw [isStartChar_head_lower hlower]
    by_cases hc : c = '\u0345'
    · have hcased : Text.isCased '\u0399' = true := by
        decide
      rw [hc, Text.cases_iota.1] at hupper
      rw [← (List.cons.inj hupper).1]
      exact iff_of_true (Text.of_isCased hcased).2.2 (.inr hc)
    · have hrecased : Text.Recased c (u :: more) := hupper ▸ Text.recased_upper c
      rw [hrecased.isStartChar_head hc, or_iff_left hc, isStartChar_iff_of_isAlphanumeric hletter]

/-- Camel case is a reserved word only if the name is a single word. -/
theorem camelChars_mem_reservedWords_iff
    {cs : List Char} :
    String.ofList (camelChars cs) ∈ Script.reservedWords ↔ SpellsReserved cs := by
  constructor
  · intro h
    obtain ⟨hne, hlower⟩ := Script.isSmallLetter_of_mem_reservedWords h
    rw [String.toList_ofList] at hne hlower
    obtain hwords | ⟨c, rest, words, hwords, -, -⟩ := wordsOf_cases cs
    · exact absurd (camelChars_eq_nil hwords) hne
    · obtain ⟨u, more, hupper, -, hcamel⟩ := exists_camelChars hwords
      have hcapital : ∀ letter d, d ∈ Text.upper letter → d ∉ camelChars cs := by
        intro letter d hd hmem
        have hsmall := hlower d hmem
        rw [Text.isSmallLetter_of_mem_upper hd] at hsmall
        cases hsmall
      have hmore : more = [] := by
        cases more with
        | nil =>
            rfl
        | cons v more =>
            exact absurd (by simp [hcamel]) (hcapital c v (by simp [hupper]))
      have hsingle : words = [] := by
        cases words with
        | nil =>
            rfl
        | cons word words =>
            have hword : word ∈ wordsOf cs := by
              simp [hwords]
            obtain ⟨second, word, rfl⟩ := List.exists_cons_of_ne_nil (of_mem_wordsOf hword).1
            obtain ⟨v, others, hv, -⟩ := (Text.recased_upper second).exists_cons
            exact absurd (by simp [hcamel, capitalize, hv]) (hcapital second v (by simp [hv]))
      subst hmore hsingle
      refine ⟨c, rest, u, hwords, hupper, ?_⟩
      rw [hcamel] at h
      simpa using h
  · rintro ⟨c, rest, u, hwords, hupper, hword⟩
    obtain ⟨v, more, hv, -, hcamel⟩ := exists_camelChars hwords
    rw [hupper] at hv
    obtain ⟨rfl, rfl⟩ := List.cons.inj hv
    rw [hcamel]
    simpa using hword

theorem notMem_reservedWords_of_head
    {c : Char}
    (h : Script.isSmallLetter c = false)
    (cs : List Char) :
    String.ofList (c :: cs) ∉ Script.reservedWords := by
  intro hmem
  have hlower := (Script.isSmallLetter_of_mem_reservedWords hmem).2 c (by simp)
  rw [h] at hlower
  cases hlower

theorem isSmallLetter_of_isAsciiDigit
    {c : Char}
    (h : isAsciiDigit c = true) :
    Script.isSmallLetter c = false := by
  rw [isAsciiDigit, Bool.and_eq_true, decide_eq_true_eq, decide_eq_true_eq] at h
  rw [← Bool.not_eq_true, Script.isSmallLetter, Bool.and_eq_true, decide_eq_true_eq]
  rintro ⟨hlow, -⟩
  have hnine : c.toNat ≤ 57 := h.2
  have hlow : 97 ≤ c.toNat := hlow
  omega

/-- A name that is put in camel case can be declared if an identifier can hold its letters. -/
theorem isBindingIdentifier_of_not_isIdentifier_iff
    {cs : List Char}
    (hid : isIdentifier cs = false) :
    Script.isBindingIdentifier (String.ofList (identifierChars cs)) = true ↔ IsBindable cs := by
  have hbindable : IsBindable cs ↔
      (∀ c ∈ cs, isAlphanumeric c = true → Script.isIdContinue c = true) ∧
        (∀ c ∈ (initials cs).head?,
          isAsciiDigit c = true ∨ Script.isIdStart c = true ∨ c = '\u0345') ∧
        ¬SpellsReserved cs := by
    constructor
    · intro h
      exact ⟨h.letters, h.camelStart hid, h.camelWord hid⟩
    · rintro ⟨hletters, hstart, hword⟩
      exact ⟨hletters, by simp [hid], by simp [hid], fun _ => hstart, fun _ => hword⟩
  rw [hbindable, ← forall_isPartChar_camelChars_iff, ← camelChars_mem_reservedWords_iff,
    identifierChars, if_neg (by simp [hid])]
  dsimp only
  obtain hwords | ⟨c, rest, words, hwords, -, hletter⟩ := wordsOf_cases cs
  · rw [camelChars_eq_nil hwords, initials_eq_nil hwords]
    exact iff_of_true (by decide) ⟨by simp, by simp, by decide⟩
  · obtain ⟨d, name, hcamel, hdigit, hstart⟩ := head_camelChars hwords hletter
    rw [initials_eq_cons hwords, hcamel, List.isEmpty_cons, if_neg Bool.false_ne_true,
      startsWithDigit, hdigit]
    simp only [List.head?_cons, Option.mem_def, Option.some.injEq, forall_eq', ← hstart]
    split_ifs with hfirst
    · have hreserved : String.ofList (d :: name) ∉ Script.reservedWords :=
        notMem_reservedWords_of_head (isSmallLetter_of_isAsciiDigit (hdigit.trans hfirst)) name
      have hunderscore : String.ofList ('_' :: d :: name) ∉ Script.reservedWords :=
        notMem_reservedWords_of_head (by decide) (d :: name)
      rw [isBindingIdentifier_cons_iff, List.forall_mem_cons]
      constructor
      · rintro ⟨-, ⟨-, hpart⟩, -⟩
        exact ⟨hpart, .inl hfirst, hreserved⟩
      · rintro ⟨hpart, -, -⟩
        exact ⟨rfl, ⟨rfl, hpart⟩, hunderscore⟩
    · rw [isBindingIdentifier_cons_iff, or_iff_right hfirst]
      tauto

theorem isBindingIdentifier_identifierChars_iff
    {cs : List Char} :
    Script.isBindingIdentifier (String.ofList (identifierChars cs)) = true ↔ IsBindable cs := by
  cases hid : isIdentifier cs with
  | false =>
      exact isBindingIdentifier_of_not_isIdentifier_iff hid
  | true =>
      rw [identifierChars, if_pos hid]
      exact isBindingIdentifier_of_isIdentifier_iff hid

/-- The identifier of every name can be declared exactly if the name is bindable, and gives itself
again exactly if the name is settled. -/
theorem identifier_usable_iff
    (name : String) :
    (Script.isBindingIdentifier (identifier name) = true ↔ IsBindable name.toList) ∧
      (identifier (identifier name) = identifier name ↔ IsSettled name.toList) := by
  exact ⟨isBindingIdentifier_identifierChars_iff, identifier_identifier_iff⟩

/-- Reserved words are kept, and so are fractions, which no identifier holds. A letter with a mark
that has no capital of its own is taken apart, and loses the mark the next time. -/
theorem reserved_word_kept :
    (identifier "class" = "class" ∧ Script.isBindingIdentifier "class" = false) ∧
      (identifier "½" = "½" ∧ Script.isBindingIdentifier "½" = false) ∧
      identifier "-\u01f0" = "j\u030c" ∧ identifier "j\u030c" = "j" := by
  decide +kernel

/-! ### Names in ASCII -/

theorem isIdContinue_of_ascii
    {c : Char}
    (hascii : c.toNat < 128)
    (hletter : isAlphanumeric c = true) :
    Script.isIdContinue c = true := by
  rw [isAlphanumeric, if_pos hascii] at hletter
  rw [Script.isIdContinue, if_pos hascii, Text.isWord, if_pos hascii, hletter, Bool.true_or]

theorem isIdStart_of_ascii
    {c : Char}
    (hascii : c.toNat < 128)
    (hletter : isAlphanumeric c = true) :
    isAsciiDigit c = true ∨ Script.isIdStart c = true := by
  rw [isAlphanumeric, if_pos hascii, Bool.or_eq_true] at hletter
  rw [Script.isIdStart, if_pos hascii]
  exact hletter.symm

theorem identifierChars_eq_camelChars
    {cs : List Char}
    (hid : isIdentifier cs = false)
    (hword : SpellsReserved cs) :
    identifierChars cs = camelChars cs := by
  obtain ⟨hne, hlower⟩ :=
    Script.isSmallLetter_of_mem_reservedWords (camelChars_mem_reservedWords_iff.mpr hword)
  rw [String.toList_ofList] at hne hlower
  rw [identifierChars, if_neg (by simp [hid])]
  dsimp only
  obtain ⟨d, name, hcamel⟩ := List.exists_cons_of_ne_nil hne
  rw [hcamel] at hlower ⊢
  rw [List.isEmpty_cons, if_neg Bool.false_ne_true, startsWithDigit, if_neg]
  intro hdigit
  have hsmall := hlower d List.mem_cons_self
  rw [isSmallLetter_of_isAsciiDigit hdigit] at hsmall
  cases hsmall

/-- The identifier of a name in ASCII can be declared unless it is a reserved word, and gives
itself again. -/
theorem identifier_usable_of_ascii
    {name : String}
    (h : ∀ c ∈ name.toList, c.toNat < 128) :
    (Script.isBindingIdentifier (identifier name) = true ↔
      identifier name ∉ Script.reservedWords) ∧
      identifier (identifier name) = identifier name := by
  have hinitials : ∀ c ∈ initials name.toList, c.toNat < 128 ∧ isAlphanumeric c = true := by
    intro c hc
    obtain ⟨word, hword, hhead⟩ := List.mem_filterMap.mp hc
    obtain ⟨rest, rfl⟩ := List.head?_eq_some_iff.mp hhead
    obtain ⟨hmem, hletter⟩ := (of_mem_wordsOf hword).2 c List.mem_cons_self
    exact ⟨h c hmem, hletter⟩
  have hsettled : IsSettled name.toList := by
    refine .inr ⟨fun hhead => ?_, fun c hc d hd => ?_⟩
    · exact absurd (hinitials 'İ' (List.mem_of_mem_head? hhead)).1 (by decide)
    · obtain ⟨hascii, hletter⟩ := hinitials c hc
      obtain ⟨u, more, hupper, huse, -⟩ := (Text.recased_upper c).exists_cons
      rw [hupper] at hd
      rw [Text.upper, if_pos hascii] at hupper
      obtain ⟨rfl, rfl⟩ := List.cons.inj hupper
      rw [List.mem_singleton] at hd
      rw [hd]
      exact isIdentifierChar_of_isAlphanumeric (huse.alphanumeric.trans hletter)
  refine ⟨⟨fun hvalid => (Script.isBindingIdentifier_iff.mp hvalid).2, fun hword => ?_⟩,
    identifier_identifier_iff.mpr hsettled⟩
  refine isBindingIdentifier_identifierChars_iff.mpr ⟨?_, ?_, ?_, ?_, ?_⟩
  · exact fun c hc hletter => isIdContinue_of_ascii (h c hc) hletter
  · intro hid c hc hletter
    obtain ⟨rest, hrest⟩ := List.head?_eq_some_iff.mp hc
    have hdigit : isAsciiDigit c = false := by
      rw [hrest, isIdentifier, Bool.and_eq_true, startsWithDigit, Bool.not_eq_true'] at hid
      exact hid.2
    refine (isIdStart_of_ascii (h c (List.mem_of_mem_head? hc)) hletter).resolve_left ?_
    rw [hdigit]
    exact Bool.false_ne_true
  · intro hid hreserved
    refine hword ?_
    rw [identifier, identifierChars, if_pos hid]
    exact hreserved
  · intro _ c hc
    obtain ⟨hascii, hletter⟩ := hinitials c (List.mem_of_mem_head? hc)
    exact (isIdStart_of_ascii hascii hletter).imp_right .inl
  · intro hid hspells
    refine hword ?_
    rw [identifier, identifierChars_eq_camelChars hid hspells]
    exact camelChars_mem_reservedWords_iff.mpr hspells

end Literal
end SuiteShift
