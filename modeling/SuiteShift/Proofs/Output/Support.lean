import SuiteShift.Output.Support
import SuiteShift.Proofs.CustomCommand.Shape
import SuiteShift.Proofs.Literal.Identifier
import SuiteShift.Proofs.Text.Lines

/-!
# What support files declare

- `helpersText_declares`, `pageObjectText_declares`: each command has its declaration in the file
  that its calls refer to.
-/

namespace SuiteShift
namespace Output

/-! ### Import lines -/

theorem mem_addLine
    {known : List String}
    {line other : String} :
    other ∈ addLine known line ↔ other ∈ known ∨ other = line := by
  unfold addLine
  split_ifs with hknown
  · constructor
    · exact .inl
    · rintro (h | rfl)
      · exact h
      · simpa using hknown
  · simp

theorem mem_addLines
    {known lines : List String}
    {line : String} :
    line ∈ addLines known lines ↔ line ∈ known ∨ line ∈ lines := by
  unfold addLines
  induction lines generalizing known with
  | nil =>
      simp
  | cons other lines ih =>
      rw [List.foldl_cons, ih, mem_addLine, List.mem_cons, or_assoc]

/-! ### Helper functions -/

/-- Trailing blanks are no part of what ends with another character. -/
theorem occursIn_trimEnd
    {needle hay : String}
    {last : Char}
    (hlast : needle.toList.getLast? = some last)
    (hblank : Text.isBlank last = false)
    (h : occursIn needle hay = true) :
    occursIn needle (trimEnd hay) = true := by
  obtain ⟨front, hneedle⟩ : ∃ front, needle.toList = front ++ [last] := by
    exact List.getLast?_eq_some_iff.mp hlast
  rw [occursIn_iff] at h
  obtain ⟨before, after, rfl⟩ := h
  have htrim : ((before ++ needle ++ after).toList.reverse.dropWhile Text.isBlank).reverse =
      before.toList ++ needle.toList ++
        (after.toList.reverse.dropWhile Text.isBlank).reverse := by
    simp only [String.toList_append, List.reverse_append, List.dropWhile_append, hneedle,
      List.reverse_cons, List.reverse_nil, List.nil_append]
    cases hempty : (after.toList.reverse.dropWhile Text.isBlank).isEmpty with
    | false =>
        simp
    | true =>
        rw [List.isEmpty_iff] at hempty
        simp [hempty, hblank]
  unfold occursIn
  rw [trimEnd, String.toList_ofList, htrim]
  exact Text.contains_append _ _ _

theorem last_helperDeclaration
    (function : String) :
    (helperDeclaration function).toList.getLast? = some 'e' := by
  have hsplit : (helperDeclaration function).toList =
      ("export async function " ++ function).toList ++ "(page: Page".toList := by
    exact String.toList_append
  rw [hsplit]
  exact List.getLast?_append_of_ne_nil _ (by simp)

/-- The helper file exports the function of every helper. -/
theorem helpersText_declares
    {commands : List Classification}
    {c : Classification}
    (hc : c ∈ commands)
    (hshape : c.WellShaped)
    (hstrategy : c.strategy = .utility) :
    ∃ text,
      helpersText commands = some text ∧
      occursIn (helperDeclaration (Literal.identifier c.name)) text = true := by
  have hhelper : c ∈ commands.filter isHelper := by
    simp [List.mem_filter, hc, isHelper, hstrategy]
  have hnonempty : (commands.filter isHelper).isEmpty = false := by
    rw [List.isEmpty_eq_false_iff]
    exact List.ne_nil_of_mem hhelper
  have hblank : Text.isBlank 'e' = false := by
    decide
  have hcode := occursIn_trimEnd (last_helperDeclaration (Literal.identifier c.name)) hblank
    (hshape.utility hstrategy)
  have hbody : occursIn (helperDeclaration (Literal.identifier c.name))
      (helpersBody (commands.filter isHelper)) = true := by
    have hpart : trimEnd c.code ∈ (commands.filter isHelper).map fun c => trimEnd c.code := by
      exact List.mem_map.mpr ⟨c, hhelper, rfl⟩
    exact occursIn_intercalate hpart hcode "\n\n"
  refine ⟨importBlock (helpersImports (commands.filter isHelper)) ++
    helpersBody (commands.filter isHelper) ++ "\n", ?_, ?_⟩
  · unfold helpersText
    dsimp only
    rw [hnonempty, if_neg Bool.false_ne_true]
  · exact occursIn_append_right (occursIn_append_left hbody _) "\n"

/-! ### Page methods -/

theorem toList_methodDeclaration
    (method : String) :
    (methodDeclaration method).toList = ("async ".toList ++ method.toList) ++ ['('] := by
  have hsplit : methodDeclaration method = "async " ++ method ++ "(" := by
    rfl
  rw [hsplit, String.toList_append, String.toList_append]
  rfl

/-- A method inside the class keeps its first line. -/
theorem occursIn_methodText
    {c : Classification}
    {method rest : String}
    (hmethod : '\n' ∉ method.toList)
    (hcode : c.code = methodDeclaration method ++ rest) :
    occursIn (methodDeclaration method) (methodText c) = true := by
  have hline : '\n' ∉ ("async ".toList ++ method.toList) ++ ['('] := by
    simp only [List.mem_append, not_or]
    exact ⟨⟨by decide, hmethod⟩, by decide⟩
  obtain ⟨more, tail, hlines⟩ := Text.lines_append hline (by decide) rest.toList
  have hfirst : methodDeclaration method ++ String.ofList more ∈ Text.linesOf c.code := by
    unfold Text.linesOf
    rw [hcode, String.toList_append, toList_methodDeclaration, hlines, List.map_cons,
      String.ofList_append, ← toList_methodDeclaration, String.ofList_toList]
    exact List.mem_cons_self
  have hnonempty : (methodDeclaration method ++ String.ofList more).isEmpty = false := by
    rw [String.isEmpty_eq_false_iff, ne_eq, String.append_eq_empty_iff, not_and]
    intro hempty
    have hchars := toList_methodDeclaration method
    rw [hempty] at hchars
    simp at hchars
  have hpart : occursIn (methodDeclaration method)
      (methodLine (methodDeclaration method ++ String.ofList more)) = true := by
    unfold methodLine
    rw [hnonempty, if_neg Bool.false_ne_true, occursIn_iff]
    exact ⟨"  ", String.ofList more ++ "\n", by simp only [String.append_assoc]⟩
  exact occursIn_append_left (occursIn_join (List.mem_map.mpr ⟨_, hfirst, rfl⟩) hpart) "\n"

theorem newline_not_mem_identifier
    (name : String) :
    '\n' ∉ (Literal.identifier name).toList := by
  intro hmem
  have hname := Literal.isNameChar_of_mem_identifier hmem
  exact absurd hname (by decide)

/-- The class of the page object has a method for every page method. -/
theorem pageObjectText_declares
    {commands : List Classification}
    {c : Classification}
    (hc : c ∈ commands)
    (hshape : c.WellShaped)
    (hstrategy : c.strategy = .pageObject) :
    ∃ text,
      pageObjectText commands = some text ∧
      occursIn ("export class " ++ pageObjectClass) text = true ∧
      occursIn (methodDeclaration (Literal.identifier c.name)) text = true := by
  have hmethod : c ∈ commands.filter isPageMethod := by
    simp [List.mem_filter, hc, isPageMethod, hstrategy]
  have hnonempty : (commands.filter isPageMethod).isEmpty = false := by
    rw [List.isEmpty_eq_false_iff]
    exact List.ne_nil_of_mem hmethod
  obtain ⟨rest, hcode⟩ := hshape.pageObject hstrategy
  have hpart := occursIn_methodText (newline_not_mem_identifier c.name) hcode
  have hmethods := occursIn_join (List.mem_map.mpr ⟨c, hmethod, rfl⟩) hpart
  obtain ⟨text, htext, hclass, hdeclares⟩ : ∃ text,
      classText pageObjectClass commands = some text ∧
      occursIn ("export class " ++ pageObjectClass) text = true ∧
      occursIn (methodDeclaration (Literal.identifier c.name)) text = true := by
    refine ⟨_, if_neg (by rw [hnonempty]; exact Bool.false_ne_true), ?_, ?_⟩
    · rw [occursIn_iff]
      exact ⟨_, _, by simp only [String.append_assoc]; rfl⟩
    · exact occursIn_append_right (occursIn_append_left hmethods _) _
  unfold pageObjectText
  rw [htext, Option.map_some]
  refine ⟨_, rfl, ?_⟩
  split_ifs
  · exact ⟨occursIn_append_left hclass _, occursIn_append_left hdeclares _⟩
  · exact ⟨hclass, hdeclares⟩

end Output
end SuiteShift
