import SuiteShift.Command.Basic
import SuiteShift.Proofs.Literal.Identifier
import SuiteShift.Proofs.Literal.Quoted
import SuiteShift.Proofs.Number.Numeral
import SuiteShift.Proofs.Text.Mark

/-!
# Literals and the mark of a placeholder

- `unmarked_quote`: quoting brings no mark into a text.
- `unmarked_escapeRegex`: a pattern never has one, since every slash in it follows a backslash.
- `unmarked_identifier`, `unmarked_toString`, `unmarked_unsignedZeroText`: names and numbers have
  no slash.
- `Value.isUnmarked`, `Value.unmarked_code`, `Value.unmarked_codeList`: arguments.
-/

namespace SuiteShift

open Text (mark Unmarked)

namespace Literal

/-! ### Quoted text -/

/-- A start of an encoded text without a backslash is a start of the text. -/
theorem prefix_of_encode
    {start cs : List Char}
    (hplain : '\\' ∉ start)
    (h : start <+: encode cs) :
    start <+: cs := by
  induction start generalizing cs with
  | nil =>
      exact List.nil_prefix
  | cons d ds ih =>
      rw [List.mem_cons, not_or] at hplain
      cases cs with
      | nil =>
          simp [encode] at h
      | cons c cs =>
          rw [encode, List.flatMap_cons] at h
          rcases encodeChar_cases c with hchar | ⟨escaped, -, hchar⟩
          · rw [hchar, List.singleton_append, List.cons_prefix_cons] at h
            rw [List.cons_prefix_cons]
            exact ⟨h.1, ih hplain.2 h.2⟩
          · rw [hchar, List.cons_append, List.cons_prefix_cons] at h
            exact absurd h.1.symm hplain.1

theorem mark_infix_of_encode
    {cs : List Char}
    (h : mark <:+: encode cs) :
    mark <:+: cs := by
  induction cs with
  | nil =>
      exact h
  | cons c cs ih =>
      have hcons : encode (c :: cs) = encodeChar c ++ encode cs := by
        rw [encode, List.flatMap_cons, encode]
      rcases encodeChar_cases c with hchar | ⟨escaped, hescaped, hchar⟩
      · have hcs : encode (c :: cs) = c :: encode cs := by
          rw [hcons, hchar, List.singleton_append]
        rw [hcs, List.infix_cons_iff] at h
        rcases h with hstart | hrest
        · exact (prefix_of_encode (by decide) (hcs ▸ hstart)).isInfix
        · exact (ih hrest).trans (List.suffix_cons _ _).isInfix
      · have hslash : '/' ∉ ['\\', escaped] := by
          simp [hescaped]
        rw [hcons, hchar, Text.mark_infix_append_iff hslash] at h
        exact (ih h).trans (List.suffix_cons _ _).isInfix

theorem unmarked_quote
    {text : String}
    (h : Unmarked text) :
    Unmarked (quote text) := by
  have hquote : '/' ∉ ['\''] := by
    decide
  rw [Text.unmarked_iff] at h ⊢
  rw [quote, String.toList_ofList, Text.mark_infix_append_iff_of_back (by decide),
    ← List.singleton_append, Text.mark_infix_append_iff hquote]
  exact fun hmark => h (mark_infix_of_encode hmark)

/-! ### Patterns -/

/-- How one character is written in a pattern. -/
def escapeRegexChar (c : Char) : List Char :=
  if isRegexSpecial c then ['\\', c] else [c]

/-- A slash in a pattern follows a backslash, so none stands at the start. -/
theorem not_slash_prefix_escaped
    (cs : List Char) :
    ¬ ['/'] <+: cs.flatMap escapeRegexChar := by
  cases cs with
  | nil =>
      simp
  | cons c cs =>
      rw [List.flatMap_cons, escapeRegexChar]
      split_ifs with hspecial
      · simp
      · rw [List.singleton_append, List.cons_prefix_cons]
        rintro ⟨rfl, -⟩
        exact hspecial (by decide)

theorem not_slashes_infix_escaped
    (cs : List Char) :
    ¬ ['/', '/'] <:+: cs.flatMap escapeRegexChar := by
  induction cs with
  | nil =>
      simp
  | cons c cs ih =>
      have hrest : ¬ ['/', '/'] <:+: c :: cs.flatMap escapeRegexChar := by
        rw [List.infix_cons_iff, List.cons_prefix_cons]
        rintro (⟨-, hstart⟩ | hinfix)
        · exact not_slash_prefix_escaped cs hstart
        · exact ih hinfix
      rw [List.flatMap_cons, escapeRegexChar]
      split_ifs with hspecial
      · rw [List.cons_append, List.infix_cons_iff, List.cons_prefix_cons]
        rintro (⟨hslash, -⟩ | hinfix)
        · cases hslash
        · exact hrest hinfix
      · exact hrest

theorem unmarked_escapeRegex
    (text : String) :
    Unmarked (escapeRegex text) := by
  rw [Text.unmarked_iff, escapeRegex, String.toList_ofList]
  intro hmark
  have hslashes : ['/', '/'] <:+: mark := by
    decide
  exact not_slashes_infix_escaped text.toList (hslashes.trans hmark)

/-! ### Names and numbers -/

theorem unmarked_identifier
    (text : String) :
    Unmarked (identifier text) := by
  refine Text.unmarked_of_not_mem fun hslash => ?_
  have hname := isNameChar_of_mem_identifier hslash
  exact absurd hname (by decide)

end Literal

namespace Double

/-- Numbers are written without a slash. -/
theorem unmarked_unsignedZeroText
    (x : Double) :
    Unmarked x.unsignedZeroText := by
  refine Text.unmarked_of_not_mem fun hslash => ?_
  rcases x.unsignedZeroText_cases with hnumeral | hword
  · exact absurd (hnumeral _ hslash) (by decide)
  · have hwords : ∀ word ∈ ["NaN", "inf", "-inf"], '/' ∉ word.toList := by
      decide
    exact hwords _ hword hslash

end Double

theorem unmarked_toString
    (n : Nat) :
    Unmarked (toString n) := by
  refine Text.unmarked_of_not_mem fun hslash => ?_
  have hdigits : '/' ∈ Nat.toDigits 10 n := by
    simpa using hslash
  exact absurd (Double.isNumeralChar_of_mem_toDigits hdigits) (by decide)

/-! ### Arguments -/

namespace Value

/-- The argument brings no mark into generated code; some rules write a slash before a text. -/
def isUnmarked : Value → Bool
  | .bool _ => true
  | .number _ => true
  | .string text => !occursIn "// TODO" ("/" ++ text)
  | .raw source => !occursIn "// TODO" source

theorem unmarked_of_string
    {text : String}
    (h : (Value.string text).isUnmarked = true) :
    Unmarked ("/" ++ text) := by
  simpa [isUnmarked, Unmarked] using h

theorem unmarked_of_raw
    {source : String}
    (h : (Value.raw source).isUnmarked = true) :
    Unmarked source := by
  simpa [isUnmarked, Unmarked] using h

theorem unmarked_text
    {text : String}
    (h : (Value.string text).isUnmarked = true) :
    Unmarked text := by
  refine (unmarked_of_string h).of_isInfix ?_
  rw [String.toList_append]
  exact (List.suffix_append _ _).isInfix

theorem unmarked_code
    {value : Value}
    (h : value.isUnmarked = true) :
    Unmarked value.code := by
  cases value with
  | bool value =>
      cases value <;> decide
  | number value =>
      exact value.unmarked_unsignedZeroText
  | string text =>
      exact Literal.unmarked_quote (unmarked_text h)
  | raw source =>
      exact unmarked_of_raw h

theorem unmarked_codeList
    {args : List Value}
    (h : ∀ value ∈ args, value.isUnmarked = true) :
    Unmarked (codeList args) := by
  rw [codeList, Text.unmarked_intercalate (by decide)]
  intro part hpart
  obtain ⟨value, hvalue, rfl⟩ := List.mem_map.mp hpart
  exact unmarked_code (h value hvalue)

end Value
end SuiteShift
