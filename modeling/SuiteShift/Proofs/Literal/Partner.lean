import SuiteShift.Proofs.Literal.Closing
import SuiteShift.Proofs.Text.Bytes

/-!
# The partner of a parenthesis

A parenthesis is closed by the first closing parenthesis after it at which the scan is outside of all
nesting.

- `IsEnclosed`: the text between a parenthesis and its partner, `parenthesized?_eq_some_iff`; well
  nested text is such a text, `WellNested.isEnclosed`.
- `closingParen?_eq_some_iff`: the partner by its position in bytes.
- `partner_found`: after well nested text the next parenthesis is the partner, and there is none
  exactly if no parenthesis is met at top level.
-/

namespace SuiteShift
namespace Literal

/-! ### Between a parenthesis and its partner -/

/-- The text between a parenthesis and its partner: the closing parenthesis after the text leads
outside of all nesting, and none inside of it does. -/
structure IsEnclosed (inside : List Char) : Prop where
  closed : (Nesting.run {} ('(' :: inside ++ [')'])).isTop = true
  first : ∀ front back, inside = front ++ ')' :: back →
    (Nesting.run {} ('(' :: front ++ [')'])).isTop = false

section Partner

variable {cs inside after : List Char}

theorem parenthesized?_eq_some_iff :
    parenthesized? cs = some (inside, after) ↔
      cs = '(' :: inside ++ ')' :: after ∧ IsEnclosed inside := by
  constructor
  · intro h
    obtain ⟨rfl, -⟩ := parenthesized?_closed h
    obtain ⟨-, hinside, htop⟩ := splitClosing_eq_some_iff.mp h
    exact ⟨rfl, htop, splitClosing_eq_none_iff.mp hinside⟩
  · rintro ⟨rfl, henclosed⟩
    exact splitClosing_eq_some_iff.mpr
      ⟨rfl, splitClosing_eq_none_iff.mpr henclosed.first, henclosed.closed⟩

theorem parenthesized?_eq_none_iff :
    parenthesized? ('(' :: cs) = none ↔
      ∀ inside after, cs = inside ++ ')' :: after →
        (Nesting.run {} ('(' :: inside ++ [')'])).isTop = false := by
  exact splitClosing_eq_none_iff

/-- Well nested text is enclosed by the parentheses around it: one parenthesis deeper, a scan is at
no place of it outside of all nesting. -/
theorem WellNested.isEnclosed
    (h : WellNested inside) :
    IsEnclosed inside := by
  exact (parenthesized?_eq_some_iff.mp (parenthesized?_of_wellNested h [])).2

end Partner

/-! ### Positions in bytes -/

/-- The partner of a parenthesis after some text. -/
theorem closingParen?_append
    (before rest : String) :
    closingParen? (before ++ rest) before.utf8ByteSize =
      (parenthesized? rest.toList).map fun parts =>
        before.utf8ByteSize + 1 + Text.utf8Length parts.1 := by
  rw [closingParen?, String.toList_append, ← Text.utf8Length_toList, Text.dropBytes_append]

/-- The bytes before the partner. -/
theorem utf8ByteSize_before_partner
    (before inside : String) :
    (before ++ "(" ++ inside).utf8ByteSize =
      before.utf8ByteSize + 1 + Text.utf8Length inside.toList := by
  rw [String.utf8ByteSize_append, String.utf8ByteSize_append, Text.utf8Length_toList]
  rfl

theorem toList_parenthesized
    (inside after : String) :
    ("(" ++ inside ++ ")" ++ after).toList = '(' :: inside.toList ++ ')' :: after.toList := by
  simp

theorem closingParen?_of_isEnclosed
    {inside : String}
    (h : IsEnclosed inside.toList)
    (before after : String) :
    closingParen? (before ++ "(" ++ inside ++ ")" ++ after) before.utf8ByteSize =
      some (before ++ "(" ++ inside).utf8ByteSize := by
  have htext : before ++ "(" ++ inside ++ ")" ++ after =
      before ++ ("(" ++ inside ++ ")" ++ after) := by
    simp only [String.append_assoc]
  rw [htext, closingParen?_append, toList_parenthesized,
    parenthesized?_eq_some_iff.mpr ⟨rfl, h⟩, utf8ByteSize_before_partner]
  rfl

/-- The partner of the parenthesis at a byte position: nothing is found unless a parenthesis with a
partner stands there. -/
theorem closingParen?_eq_some_iff
    {text : String}
    {start place : Nat} :
    closingParen? text start = some place ↔
      ∃ before inside after : String,
        text = before ++ "(" ++ inside ++ ")" ++ after ∧ before.utf8ByteSize = start ∧
        (before ++ "(" ++ inside).utf8ByteSize = place ∧ IsEnclosed inside.toList := by
  constructor
  · intro h
    unfold closingParen? at h
    cases hdrop : Text.dropBytes start text.toList with
    | none =>
        rw [hdrop] at h
        cases h
    | some cs =>
        rw [hdrop] at h
        obtain ⟨⟨inside, after⟩, hparts, rfl⟩ := Option.map_eq_some_iff.mp h
        obtain ⟨front, htext, rfl⟩ := Text.dropBytes_eq_some_iff.mp hdrop
        obtain ⟨rfl, henclosed⟩ := parenthesized?_eq_some_iff.mp hparts
        refine ⟨String.ofList front, String.ofList inside, String.ofList after, ?_, ?_, ?_, ?_⟩
        · rw [← String.toList_inj, htext]
          simp
        · rw [← Text.utf8Length_toList, String.toList_ofList]
        · rw [utf8ByteSize_before_partner, ← Text.utf8Length_toList, String.toList_ofList,
            String.toList_ofList]
        · rwa [String.toList_ofList]
  · rintro ⟨before, inside, after, rfl, rfl, rfl, henclosed⟩
    exact closingParen?_of_isEnclosed henclosed before after

/-- The parenthesis after well nested text is the partner of the one before it, whatever stands
around them; and a parenthesis has no partner exactly if no closing parenthesis after it leads
outside of all nesting. -/
theorem partner_found :
    (∀ before inside after : String, WellNested inside.toList →
      closingParen? (before ++ "(" ++ inside ++ ")" ++ after) before.utf8ByteSize =
        some (before ++ "(" ++ inside).utf8ByteSize) ∧
    (∀ before rest : String,
      closingParen? (before ++ "(" ++ rest) before.utf8ByteSize = none ↔
        ∀ inside after : String, rest = inside ++ ")" ++ after →
          (Nesting.run {} ("(" ++ inside ++ ")").toList).isTop = false) := by
  refine ⟨?_, ?_⟩
  · intro before inside after h
    exact closingParen?_eq_some_iff.mpr ⟨before, inside, after, rfl, rfl, rfl, h.isEnclosed⟩
  · intro before rest
    have hrest : ("(" ++ rest).toList = '(' :: rest.toList := by
      simp
    rw [String.append_assoc, closingParen?_append, hrest, Option.map_eq_none_iff,
      parenthesized?_eq_none_iff]
    constructor
    · rintro h inside after rfl
      have htop := h inside.toList after.toList (by simp)
      simpa using htop
    · intro h inside after hcs
      have htop := h (String.ofList inside) (String.ofList after) (by
        rw [← String.toList_inj, hcs]
        simp)
      simpa using htop

/-- Parentheses in literals, brackets that cross and characters of several bytes; and a parenthesis
after which the only closing one belongs to another. -/
theorem partner_found_multibyte :
    WellNested "'é)', [(1])".toList ∧
    closingParen? "«é».f('é)', [(1])); ')'" 8 = some 21 ∧
    (∀ inside after : String, "a, (b)" = inside ++ ")" ++ after →
      (Nesting.run {} ("(" ++ inside ++ ")").toList).isTop = false) ∧
    closingParen? "é(a, (b)" 2 = none := by
  have hinside : WellNested "'é)', [(1])".toList :=
    ⟨by decide, by decide⟩
  have hopen : ∀ inside after : String, "a, (b)" = inside ++ ")" ++ after →
      (Nesting.run {} ("(" ++ inside ++ ")").toList).isTop = false := by
    intro inside after h
    have hcs : ['a', ',', ' ', '(', 'b', ')'] = inside.toList ++ ')' :: after.toList := by
      simpa using congrArg String.toList h
    obtain ⟨hfront, -⟩ : inside.toList = ['a', ',', ' ', '(', 'b'] ∧ after = "" := by
      simpa [List.cons_eq_append_iff] using hcs
    rw [String.toList_append, String.toList_append, hfront]
    decide
  have htext : "«é».f('é)', [(1])); ')'" =
      "«é».f" ++ "(" ++ "'é)', [(1])" ++ ")" ++ "; ')'" := by
    decide
  have hstart : 8 = "«é».f".utf8ByteSize := by
    decide
  have hplace : ("«é».f" ++ "(" ++ "'é)', [(1])").utf8ByteSize = 21 := by
    decide
  obtain ⟨hfound, hnone⟩ := partner_found
  refine ⟨hinside, ?_, hopen, (hnone "é" "a, (b)").mpr hopen⟩
  rw [htext, hstart, hfound _ _ _ hinside, hplace]

end Literal
end SuiteShift
