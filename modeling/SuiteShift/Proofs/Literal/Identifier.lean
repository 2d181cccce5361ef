import SuiteShift.Literal.Identifier
import SuiteShift.Proofs.Text.CasedLetter
import SuiteShift.Proofs.Text.Split

/-!
# Characters of identifiers

Whatever name it is made for, an identifier is not empty and holds letters, digits, an underscore
or a dollar sign, and characters outside of ASCII. So it can stand between blanks, commas and
brackets.

- `Recased.isNameChar`: case mapping stays among these characters.
- `isNameChar_of_mem_identifier`, `identifier_ne_empty`.
-/

namespace SuiteShift
namespace Text

/-- A character of an identifier, or one outside of ASCII. -/
def isNameChar (c : Char) : Bool :=
  128 ≤ c.toNat || isAsciiLetter c || isAsciiDigit c || c == '_' || c == '$'

theorem isNameChar_of_isAlphanumeric
    {c : Char}
    (h : isAlphanumeric c = true) :
    isNameChar c = true := by
  unfold isAlphanumeric at h
  unfold isNameChar
  split_ifs at h with hascii
  · simp only [Bool.or_eq_true] at h ⊢
    exact .inl (.inl (h.elim (fun h => .inl (.inr h)) .inr))
  · simp [Nat.le_of_not_lt hascii]

theorem isNameChar_of_isPartChar
    {c : Char}
    (h : Script.isPartChar c = true) :
    isNameChar c = true := by
  rw [Script.isPartChar, Bool.or_eq_true] at h
  unfold isNameChar
  rcases h with h | h
  · unfold Script.isIdContinue at h
    split_ifs at h with hascii
    · rw [isWord, if_pos hascii, Bool.or_eq_true, Bool.or_eq_true] at h
      simp only [Bool.or_eq_true]
      exact .inl (h.imp_left fun h => h.imp_left .inr)
    · simp [Nat.le_of_not_lt hascii]
  · simp [h]

/-- Case mapping stays among these characters. -/
theorem Recased.isNameChar
    {c : Char}
    {image : List Char}
    (h : Recased c image)
    (hc : isNameChar c = true) :
    ∀ d ∈ image, isNameChar d = true := by
  cases h with
  | same =>
      simpa using hc
  | letter _ hd hrest =>
      have hstart := (of_isCased hd).2.2
      rw [List.forall_mem_cons]
      exact ⟨isNameChar_of_isPartChar (Script.isPartChar_of_isStartChar hstart),
        fun e he => isNameChar_of_isPartChar (hrest e he)⟩
  | circled _ hd =>
      simp only [isCircled, Bool.and_eq_true, Nat.ble_eq] at hd
      simp only [List.mem_singleton, forall_eq, Text.isNameChar]
      simp [Nat.le_trans (by decide : 128 ≤ 9398) hd.1]
  | iota _ =>
      simp only [List.mem_singleton, forall_eq]
      rfl

theorem isNameChar_of_mem_upper
    {c d : Char}
    (hc : isNameChar c = true)
    (hd : d ∈ upper c) :
    isNameChar d = true := by
  exact (recased_upper c).isNameChar hc d hd

theorem isNameChar_of_mem_lower
    {c d : Char}
    (hc : isNameChar c = true)
    (hd : d ∈ lower c) :
    isNameChar d = true := by
  exact (recased_lower c).isNameChar hc d hd

end Text

namespace Literal

open Text (isNameChar)

theorem isNameChar_of_mem_pascalChars
    {cs : List Char}
    {d : Char}
    (h : d ∈ pascalChars cs) :
    isNameChar d = true := by
  unfold pascalChars at h
  obtain ⟨word, hword, hd⟩ := List.mem_flatMap.mp h
  have hletters : ∀ c ∈ word, isNameChar c = true := by
    intro c hc
    have halpha := (Text.of_mem_splitOn hword c hc).2
    rw [Bool.not_eq_false'] at halpha
    exact Text.isNameChar_of_isAlphanumeric halpha
  cases word with
  | nil =>
      simp [capitalize] at hd
  | cons c rest =>
      rw [capitalize, List.mem_append] at hd
      rcases hd with hd | hd
      · exact Text.isNameChar_of_mem_upper (hletters c List.mem_cons_self) hd
      · exact hletters d (List.mem_cons_of_mem _ hd)

theorem isNameChar_of_mem_camelChars
    {cs : List Char}
    {d : Char}
    (h : d ∈ camelChars cs) :
    isNameChar d = true := by
  have hletters : ∀ c ∈ pascalChars cs, isNameChar c = true := by
    intro c hc
    exact isNameChar_of_mem_pascalChars hc
  unfold camelChars at h
  split at h
  · simp at h
  · next c rest heq =>
      rw [heq] at hletters
      rcases List.mem_append.mp h with h | h
      · exact Text.isNameChar_of_mem_lower (hletters c List.mem_cons_self) h
      · exact hletters d (List.mem_cons_of_mem _ h)

/-- An identifier holds no blank, comma, bracket or quote. -/
theorem isNameChar_of_mem_identifier
    {name : String}
    {d : Char}
    (h : d ∈ (identifier name).toList) :
    isNameChar d = true := by
  rw [identifier, String.toList_ofList] at h
  unfold identifierChars at h
  dsimp only at h
  split_ifs at h with hid hempty hdigit
  · simp only [isIdentifier, Bool.and_eq_true, List.all_eq_true] at hid
    have hd := hid.1.2 d h
    simp only [isIdentifierChar, Bool.or_eq_true] at hd
    rcases hd with (hd | hd) | hd
    · exact Text.isNameChar_of_isAlphanumeric hd
    · simp [isNameChar, hd]
    · simp [isNameChar, hd]
  · have hvalue : "value".toList.all isNameChar = true := by
      decide
    exact List.all_eq_true.mp hvalue d h
  · rcases List.mem_cons.mp h with rfl | h
    · rfl
    · exact isNameChar_of_mem_camelChars h
  · exact isNameChar_of_mem_camelChars h

theorem identifier_ne_empty
    (name : String) :
    identifier name ≠ "" := by
  intro h
  have hchars : identifierChars name.toList = [] := by
    simpa [identifier] using h
  unfold identifierChars at hchars
  split_ifs at hchars with hid
  · simp [isIdentifier, hchars] at hid
  · dsimp only at hchars
    split_ifs at hchars with hname hdigit
    · simp at hchars
    · simp [hchars] at hname

end Literal
end SuiteShift
