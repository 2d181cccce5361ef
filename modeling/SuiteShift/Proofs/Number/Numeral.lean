import SuiteShift.Number.Decimal
import Mathlib.Data.List.Basic

/-!
# Written numbers

- `unsignedZeroText_cases`: a number is written with digits, a point and a sign, or as one of
  three words.
- `unsignedZeroText_ne_empty`: something is written for every number.
-/

namespace SuiteShift
namespace Double

/-- Characters of a numeral. -/
def isNumeralChar (c : Char) : Bool :=
  c.isDigit || c == '.' || c == '-'

theorem isNumeralChar_of_mem_toDigits
    {c : Char}
    {n : Nat}
    (h : c ∈ Nat.toDigits 10 n) :
    isNumeralChar c = true := by
  simp [isNumeralChar, Nat.isDigit_of_mem_toDigits (by decide) (by decide) h]

theorem isNumeralChar_of_mem_positional
    {c : Char}
    (d : Digits)
    (h : c ∈ d.positional) :
    isNumeralChar c = true := by
  have hzeros : ∀ n, c ∈ List.replicate n '0' → isNumeralChar c = true := by
    intro n hc
    rw [List.eq_of_mem_replicate hc]
    rfl
  have hpadded : ∀ n, c ∈ List.replicate n '0' ++ Nat.toDigits 10 d.digits →
      isNumeralChar c = true := by
    intro n hc
    exact (List.mem_append.mp hc).elim (hzeros n) isNumeralChar_of_mem_toDigits
  unfold Digits.positional at h
  dsimp only at h
  split_ifs at h
  · exact (List.mem_append.mp h).elim isNumeralChar_of_mem_toDigits (hzeros _)
  · exact hpadded _ (List.mem_of_mem_take h)
  · rcases List.mem_append.mp h with hwhole | hfraction
    · exact hpadded _ (List.mem_of_mem_take hwhole)
    · rcases List.mem_cons.mp hfraction with rfl | hfraction
      · rfl
      · rw [trimZeros, List.mem_reverse] at hfraction
        have hdigits := (List.dropWhile_suffix _).subset hfraction
        exact hpadded _ (List.mem_of_mem_drop (List.mem_reverse.mp hdigits))

theorem positional_ne_nil
    (d : Digits) :
    d.positional ≠ [] := by
  -- With the zeros before them there is at least one more digit than there are places.
  have hwhole : ∀ (places : Nat) (digits : List Char) (padded : List Char),
      padded = List.replicate (places + 1 - digits.length) '0' ++ digits →
      padded.take (padded.length - places) ≠ [] := by
    intro places digits padded hpadded
    have hlength := congrArg List.length hpadded
    rw [List.length_append, List.length_replicate] at hlength
    rw [← List.length_pos_iff, List.length_take]
    omega
  unfold Digits.positional
  dsimp only
  split_ifs
  · exact List.append_ne_nil_of_left_ne_nil Nat.toDigits_ne_nil _
  · exact hwhole _ _ _ rfl
  · exact List.append_ne_nil_of_left_ne_nil (hwhole _ _ _ rfl) _

theorem isNumeralChar_of_mem_text
    {c : Char}
    {negative : Bool}
    {mantissa : Nat}
    {exponent : Int}
    (h : c ∈ (text (.finite negative mantissa exponent)).toList) :
    isNumeralChar c = true := by
  have hmagnitude : ∀ c ∈ (if mantissa = 0 then ['0']
      else (shortest mantissa exponent).positional), isNumeralChar c = true := by
    intro c hc
    split_ifs at hc
    · rw [List.mem_singleton.mp hc]
      rfl
    · exact isNumeralChar_of_mem_positional _ hc
  rw [text, String.toList_ofList] at h
  cases negative with
  | false =>
      exact hmagnitude c h
  | true =>
      rcases List.mem_cons.mp h with rfl | h
      · rfl
      · exact hmagnitude c h

/-- A number is a numeral or one of three words. -/
theorem unsignedZeroText_cases
    (x : Double) :
    (∀ c ∈ x.unsignedZeroText.toList, isNumeralChar c = true) ∨
      x.unsignedZeroText ∈ ["NaN", "inf", "-inf"] := by
  unfold unsignedZeroText
  split_ifs
  · exact .inl (List.all_eq_true.mp (by decide))
  · cases x with
    | nan =>
        exact .inr (by decide)
    | infinite negative =>
        cases negative <;> exact .inr (by decide)
    | finite negative mantissa exponent =>
        exact .inl fun c hc => isNumeralChar_of_mem_text hc

theorem unsignedZeroText_ne_empty
    (x : Double) :
    x.unsignedZeroText ≠ "" := by
  unfold unsignedZeroText
  split_ifs
  · decide
  · cases x with
    | nan =>
        decide
    | infinite negative =>
        cases negative <;> decide
    | finite negative mantissa exponent =>
        intro hempty
        have hnil := congrArg String.toList hempty
        rw [text, String.toList_ofList] at hnil
        cases negative with
        | false =>
            rw [if_neg Bool.false_ne_true] at hnil
            split_ifs at hnil
            · cases hnil
            · exact positional_ne_nil _ hnil
        | true =>
            cases hnil

end Double
end SuiteShift
