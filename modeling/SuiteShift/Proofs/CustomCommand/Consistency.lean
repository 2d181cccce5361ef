import Mathlib.Data.List.Nodup
import SuiteShift.Proofs.CustomCommand.Name
import SuiteShift.Proofs.CustomCommand.Shape

/-!
# What comes with the code of a custom command

A classified command holds import lines, remarks and perhaps an error besides its code, and the
parts of it fit together, in whichever way it was classified.

- `Accompanied`: which strategy goes with which import lines, remarks and errors.
- `accompanied_pattern`, `accompanied_shapeBody`: patterns and bodies.
- `succeeds_classifyDefinition_iff`, `succeeds_classify_iff`: what can be classified at all.
- `classification_consistent`: every registration, call and definition.
-/

namespace SuiteShift
namespace Classification

/-- What comes with the code: a failure has its error for code and nothing to import, a helper
imports the type of pages, a stub that is no failure is explained, a page method does something,
and no import line is there twice or in every test file anyway. -/
structure Accompanied (c : Classification) : Prop where
  failed :
    ∀ error rest, c.errors = error :: rest →
      c.strategy = .manual ∧ c.complexity = .high ∧ c.imports = [] ∧
        c.code = "// TODO: " ++ error
  imports :
    c.strategy = .utility ∨ c.strategy = .manual ∧ c.errors = [] → pageTypeImport ∈ c.imports
  manual :
    c.strategy = .manual → c.errors = [] →
      occursIn (helperDeclaration (Literal.identifier c.name)) c.code = true ∧ c.warnings ≠ []
  page : c.strategy = .pageObject → c.complexity = .medium ∨ c.complexity = .high
  nodup : c.imports.Nodup
  noTest : Lowering.testImport ∉ c.imports

namespace Accompanied

variable {c : Classification}

theorem note
    (h : c.Accompanied)
    (text : String) :
    (c.note text).Accompanied := by
  exact ⟨h.failed, h.imports, h.manual, h.page, h.nodup, h.noTest⟩

/-- More warnings do no harm. -/
theorem moreWarnings
    (h : c.Accompanied)
    (texts : List String) :
    { c with warnings := c.warnings ++ texts }.Accompanied := by
  refine ⟨h.failed, h.imports, fun hstrategy herrors => ?_, h.page, h.nodup, h.noTest⟩
  obtain ⟨hcode, hwarned⟩ := h.manual hstrategy herrors
  exact ⟨hcode, by simp [hwarned]⟩

theorem warn
    (h : c.Accompanied)
    (text : String) :
    (c.warn text).Accompanied := by
  exact h.moreWarnings [text]

theorem checkIdentifier
    (h : c.Accompanied) :
    c.checkIdentifier.Accompanied := by
  unfold Classification.checkIdentifier
  dsimp only
  split_ifs
  · exact h
  · exact h.warn _

/-- What is no failure may need another import line. -/
theorem require
    {line : String}
    (h : c.Accompanied)
    (herrors : c.errors = [])
    (hline : line ≠ Lowering.testImport) :
    (c.require line).Accompanied := by
  unfold Classification.require
  split_ifs with hknown
  · exact h
  · rw [List.contains_eq_mem, decide_eq_true_eq] at hknown
    refine ⟨?_, fun hstrategy => List.mem_append_left _ (h.imports hstrategy), h.manual, h.page,
      ?_, ?_⟩
    · intro error rest hfailed
      rw [herrors] at hfailed
      cases hfailed
    · rw [List.nodup_append]
      refine ⟨h.nodup, by simp, ?_⟩
      rintro other hother _ hsame rfl
      exact hknown (List.mem_singleton.mp hsame ▸ hother)
    · rw [List.mem_append, List.mem_singleton, not_or]
      exact ⟨h.noTest, Ne.symm hline⟩

theorem foldl_require
    {lines : List String}
    (h : c.Accompanied)
    (herrors : c.errors = [])
    (hlines : ∀ line ∈ lines, line ≠ Lowering.testImport) :
    (lines.foldl Classification.require c).Accompanied := by
  induction lines generalizing c with
  | nil =>
      exact h
  | cons line lines ih =>
      refine ih (h.require herrors (hlines line List.mem_cons_self)) ?_ ?_
      · unfold Classification.require
        split_ifs
        · exact herrors
        · exact herrors
      · intro other hother
        exact hlines other (List.mem_cons_of_mem _ hother)

/-- A statement at each call comes alone. -/
theorem of_direct
    (hstrategy : c.strategy = .direct)
    (herrors : c.errors = [])
    (himports : c.imports = []) :
    c.Accompanied := by
  refine ⟨?_, ?_, ?_, ?_, by simp [himports], by simp [himports]⟩
  · simp [herrors]
  · simp [hstrategy]
  · simp [hstrategy]
  · simp [hstrategy]

theorem of_utility
    (hstrategy : c.strategy = .utility)
    (herrors : c.errors = [])
    (himports : c.imports = [pageTypeImport]) :
    c.Accompanied := by
  refine ⟨?_, ?_, ?_, ?_, ?_, ?_⟩
  · simp [herrors]
  · simp [himports]
  · simp [hstrategy]
  · simp [hstrategy]
  · rw [himports]
    decide
  · rw [himports]
    decide

theorem failure
    (name error : String) :
    (Classification.failure name error).Accompanied := by
  refine ⟨?_, ?_, ?_, ?_, ?_, ?_⟩
  · rintro _ _ ⟨⟩
    exact ⟨rfl, rfl, rfl, rfl⟩
  · simp [Classification.failure]
  · simp [Classification.failure]
  · simp [Classification.failure]
  · exact List.nodup_nil
  · exact List.not_mem_nil

end Accompanied

/-- The warning that calls of a command go by another name. -/
def renameWarning (name : String) : String :=
  "Custom command '" ++ name ++ "' is not a valid identifier; generated code calls it '" ++
    Literal.identifier name ++ "'"

/-- All that a classified command should be: what calls refer to is declared under the identifier
of its name, what goes with the code is there, and a name that is no identifier is pointed out. -/
structure Consistent (c : Classification) : Prop extends c.Accompanied where
  helper :
    c.strategy = .utility ∨ c.strategy = .manual ∧ c.errors = [] →
      occursIn ("export async function " ++ Literal.identifier c.name ++ "(page: Page") c.code = true
  method :
    c.strategy = .pageObject → ∃ rest, c.code = "async " ++ Literal.identifier c.name ++ "(" ++ rest
  renamed :
    c.name ≠ "" → Literal.identifier c.name ≠ c.name → renameWarning c.name ∈ c.warnings

/-- A command that goes by another name is checked for it. -/
theorem renameWarning_mem
    {c : Classification}
    (hname : c.name ≠ "")
    (hrenamed : Literal.identifier c.name ≠ c.name) :
    renameWarning c.name ∈ c.checkIdentifier.warnings := by
  unfold checkIdentifier
  dsimp only
  rw [if_neg (by simp [hname, hrenamed])]
  exact List.mem_append_right _ (List.mem_singleton.mpr rfl)

theorem Consistent.of_checkIdentifier
    {c : Classification}
    (hshape : c.WellShaped)
    (h : c.Accompanied) :
    c.checkIdentifier.Consistent := by
  have hchecked := h.checkIdentifier
  have hcheckedShape := hshape.checkIdentifier
  refine ⟨hchecked, ?_, hcheckedShape.pageObject, ?_⟩
  · rintro (hstrategy | ⟨hstrategy, herrors⟩)
    · exact hcheckedShape.utility hstrategy
    · exact (hchecked.manual hstrategy herrors).1
  · rw [name_checkIdentifier]
    exact renameWarning_mem

/-- What has no name is not renamed. -/
theorem Consistent.failure
    (error : String) :
    (Classification.failure "" error).Consistent := by
  exact ⟨.failure _ _, by simp [Classification.failure], by simp [Classification.failure],
    fun hname => absurd rfl hname⟩

end Classification

namespace CustomCommand

open Classification (Accompanied)

/-! ### Patterns and stubs -/

theorem accompanied_directStatement
    (name code : String) :
    (directStatement name code).Accompanied := by
  exact .of_direct rfl rfl rfl

theorem accompanied_missingArguments
    (name expected : String) :
    (missingArguments name expected).Accompanied := by
  exact .failure _ _

theorem accompanied_login
    (name : String)
    (args : List String) :
    (login name args).Accompanied := by
  exact .note (.of_utility rfl rfl rfl) _

theorem accompanied_stub
    (name : String)
    (args : List String)
    (body : Option String) :
    (stub name args body).Accompanied := by
  exact .warn (.of_utility rfl rfl rfl) _

theorem accompanied_thenCallback
    (name : String)
    (args : List String) :
    (thenCallback name args).Accompanied := by
  unfold thenCallback
  split
  · exact accompanied_missingArguments _ _
  · exact .of_direct rfl rfl rfl

theorem accompanied_navigate
    (name : String)
    (args : List String) :
    (navigate name args).Accompanied := by
  unfold navigate
  split_ifs
  · exact accompanied_missingArguments _ _
  · exact accompanied_directStatement _ _

/-- What every pattern gives comes with what it should. -/
theorem accompanied_pattern
    {name : String}
    {apply : String → List String → Classification}
    (h : pattern? name = some apply)
    (command : String)
    (args : List String) :
    (apply command args).Accompanied := by
  have hall : ∀ entry ∈ patterns, (entry.2 command args).Accompanied := by
    simp only [patterns, List.forall_mem_cons, List.not_mem_nil, false_implies, implies_true,
      and_true]
    refine ⟨accompanied_login _ _, ?_, ?_, accompanied_thenCallback _ _,
      accompanied_directStatement _ _, accompanied_directStatement _ _,
      accompanied_directStatement _ _, accompanied_navigate _ _, accompanied_navigate _ _⟩
    · unfold selectDropdown
      split
      · exact accompanied_directStatement _ _
      · exact accompanied_missingArguments _ _
    · unfold uploadFile
      split
      · exact .note (accompanied_directStatement _ _) _
      · exact accompanied_missingArguments _ _
  obtain ⟨before, after, hsplit, -⟩ := List.lookup_eq_some_iff.mp h
  exact hall (name, apply) (by simp [hsplit])

/-! ### Bodies -/

theorem branchingStub_code
    (name function params : String)
    (lines : List String) :
    (branchingStub name function params lines).code =
      ("// TODO: Review custom command '" ++ name ++ "'; it branches or loops\n") ++
        helperHead function (afterComma params) ++
        (String.join ((lines.flatMap Text.linesOf).map fun row => "  // " ++ row ++ "\n") ++
          ("  throw new Error('" ++ function ++ " needs manual review');\n\x7d")) := by
  unfold branchingStub helperHead
  simp only [String.append_assoc]

theorem accompanied_branchingStub
    (name params : String)
    (lines : List String) :
    (branchingStub name (Literal.identifier name) params lines).Accompanied := by
  refine ⟨?_, fun _ => List.mem_singleton.mpr rfl, fun _ _ => ⟨?_, List.cons_ne_nil _ _⟩, ?_,
    List.nodup_singleton _, ?_⟩
  · rintro _ _ ⟨⟩
  · rw [branchingStub_code]
    exact occursIn_helperHead _ _ _ _
  · rintro ⟨⟩
  · have hline : Lowering.testImport ∉ [pageTypeImport] := by
      decide
    exact hline

/-- A body of three commands or more is no small one. -/
theorem accompanied_pageObjectMethod
    {body : Lowered}
    (h : 3 ≤ body.commands)
    (name method params : String) :
    (pageObjectMethod name method params body).Accompanied := by
  refine ⟨?_, ?_, ?_, ?_, List.nodup_nil, List.not_mem_nil⟩
  · simp [pageObjectMethod]
  · simp [pageObjectMethod]
  · simp [pageObjectMethod]
  · intro _
    have hlarge : ¬body.commands ≤ 2 := by
      omega
    unfold pageObjectMethod Complexity.ofOperations
    rw [if_neg hlarge]
    split_ifs
    · exact .inl rfl
    · exact .inr rfl

theorem accompanied_helperFunction
    (name function params : String)
    (body : Lowered) :
    (helperFunction name function params body).Accompanied := by
  exact .of_utility rfl rfl rfl

/-- The import lines and the remarks of a body are added to what it is shaped as. -/
theorem accompanied_shapeBody
    {body : Lowered}
    (hbody : ∀ line ∈ body.imports, line ∈ Lowering.ruleImports)
    (definition : Definition)
    (branching : Bool) :
    (shapeBody definition branching body).Accompanied := by
  have himports : ∀ line ∈ body.imports, line ≠ Lowering.testImport := by
    rintro line hline rfl
    exact Lowering.testImport_notMem_ruleImports (hbody _ hline)
  have hshaped : ∀ shaped : Classification, shaped.Accompanied → shaped.errors = [] →
      { body.imports.foldl Classification.require shaped with
        warnings := (body.imports.foldl Classification.require shaped).warnings ++
          body.diagnostics }.Accompanied := by
    intro shaped h herrors
    exact (h.foldl_require herrors himports).moreWarnings _
  unfold shapeBody
  dsimp only
  split_ifs with hbranching hpage
  · exact hshaped _ (accompanied_branchingStub _ _ _) rfl
  · rw [Bool.and_eq_true, decide_eq_true_eq] at hpage
    exact hshaped _ (accompanied_pageObjectMethod hpage.1 _ _ _) rfl
  · exact hshaped _ (accompanied_helperFunction _ _ _ _) rfl

theorem accompanied_lowerDefinition
    {definition : Definition}
    {c : Classification}
    (h : lowerDefinition definition = .ok (some c)) :
    c.Accompanied := by
  unfold lowerDefinition at h
  split at h
  · next snippet _ =>
      rw [Except.ok.injEq, Option.map_eq_some_iff] at h
      obtain ⟨body, hbody, rfl⟩ := h
      exact accompanied_shapeBody (imports_foldlM_addStatement (by simp) hbody) _ _
  · cases h
  · cases h

/-! ### Whole commands -/

theorem accompanied_classifyByName
    (definition : Definition) :
    (classifyByName definition).Accompanied := by
  unfold classifyByName
  split
  · next apply hpattern =>
      exact .note (accompanied_pattern hpattern _ _) _
  · exact accompanied_stub _ _ _

theorem consistent_classifyDefinition
    {definition : Definition}
    {c : Classification}
    (h : classifyDefinition definition = .ok c) :
    c.Consistent := by
  have hname : (classifyByName definition).checkIdentifier.Consistent :=
    .of_checkIdentifier (wellShaped_classifyByName definition)
      (accompanied_classifyByName definition)
  unfold classifyDefinition at h
  dsimp only at h
  split_ifs at h
  · cases h
    exact hname
  · obtain ⟨lowered, hlowered, h⟩ := Failure.bind_eq_ok.mp h
    cases lowered with
    | none =>
        cases h
        exact hname
    | some shaped =>
        cases h
        exact .of_checkIdentifier (wellShaped_lowerDefinition hlowered)
          (accompanied_lowerDefinition hlowered)

theorem consistent_classifyCall
    (source : List Char) :
    (classifyCall source).Consistent := by
  unfold classifyCall
  split
  · exact .failure _
  · dsimp only
    split
    · next apply hpattern =>
        exact .of_checkIdentifier (wellShaped_pattern hpattern _ _)
          (accompanied_pattern hpattern _ _)
    · exact .of_checkIdentifier (wellShaped_stub _ _ _) (accompanied_stub _ _ _)

theorem consistent_classify
    {source : String}
    {c : Classification}
    (h : classify source = .ok c) :
    c.Consistent := by
  unfold classify at h
  split at h
  · split at h
    · exact consistent_classifyDefinition h
    · cases h
      exact .failure _
  · cases h
    exact consistent_classifyCall _

/-! ### What can be classified -/

/-- The body is blank, or every statement in it is a command or text that can be shifted to the
left. -/
def IsReadableBody (body : String) : Prop :=
  (Text.trim body).isEmpty = true ∨
    ∀ tree, Script.parse? body = some tree → ∀ statement ∈ tree.children,
      (Spec.expressionOf? statement).bind Spec.unwind? = none →
        (Spec.dedentedText statement).isSome = true

theorem isSome_readStatement_iff
    {file : String}
    {statement : Script.Tree} :
    (Spec.readStatement file statement).isSome = true ↔
      ((Spec.expressionOf? statement).bind Spec.unwind? = none →
        (Spec.dedentedText statement).isSome = true) := by
  unfold Spec.readStatement
  cases (Spec.expressionOf? statement).bind Spec.unwind? with
  | none =>
      simp [Spec.rawStatement]
  | some command =>
      simp

theorem succeeds_lowerDefinition_iff
    {definition : Definition} :
    Failure.Succeeds (lowerDefinition definition) ↔
      ∀ tree, Script.parse? definition.body = some tree → ∀ statement ∈ tree.children,
        (Spec.expressionOf? statement).bind Spec.unwind? = none →
          (Spec.dedentedText statement).isSome = true := by
  have hsnippet : ∀ tree, (Spec.snippetOfTree tree).isSome = true ↔
      ∀ statement ∈ tree.children, (Spec.expressionOf? statement).bind Spec.unwind? = none →
        (Spec.dedentedText statement).isSome = true := by
    intro tree
    rw [Spec.snippetOfTree, Option.isSome_map, Failure.isSome_mapM, List.all_eq_true]
    exact forall₂_congr fun statement _ => isSome_readStatement_iff
  unfold lowerDefinition Snippet.ofSource
  cases hparse : Script.parse? definition.body with
  | none =>
      simp [Failure.succeeds_ok]
  | some tree =>
      simp only [Option.some.injEq, forall_eq', ← hsnippet]
      cases Spec.snippetOfTree tree with
      | none =>
          simp [Failure.Succeeds]
      | some snippet =>
          simp [Failure.succeeds_ok]

theorem succeeds_classifyDefinition_iff
    {definition : Definition} :
    Failure.Succeeds (classifyDefinition definition) ↔ IsReadableBody definition.body := by
  rw [IsReadableBody, ← succeeds_lowerDefinition_iff]
  unfold classifyDefinition
  dsimp only
  split_ifs with hblank
  · exact iff_of_true (Failure.succeeds_ok _) (.inl hblank)
  · rw [or_iff_right hblank]
    refine (Failure.succeeds_bind_iff_of_forall fun lowered => iff_true_intro ?_).trans
      (and_iff_left trivial)
    cases lowered with
    | none =>
        exact Failure.succeeds_ok _
    | some shaped =>
        exact Failure.succeeds_ok _

theorem succeeds_classify_iff
    {source : String} :
    Failure.Succeeds (classify source) ↔
      ∀ list definition, findRegistration? source.toList = some list →
        readRegistration list = .ok definition → IsReadableBody definition.body := by
  unfold classify
  cases hlist : findRegistration? source.toList with
  | none =>
      simp [Failure.succeeds_ok]
  | some list =>
      simp only [Option.some.injEq]
      rw [forall_comm]
      simp only [forall_eq']
      cases readRegistration list with
      | error reason =>
          simp [Failure.succeeds_ok]
      | ok definition =>
          simp [succeeds_classifyDefinition_iff]

/-- Every definition whose body can be read is classified, and so is every text unless it holds a
registration whose body cannot; and what they are classified as is consistent. -/
theorem classification_consistent :
    (∀ source : String,
      (Failure.Succeeds (classify source) ↔
        ∀ list definition, findRegistration? source.toList = some list →
          readRegistration list = .ok definition → IsReadableBody definition.body) ∧
      ∀ c, classify source = .ok c → c.Consistent) ∧
    ∀ definition : Definition,
      (Failure.Succeeds (classifyDefinition definition) ↔ IsReadableBody definition.body) ∧
      ∀ c, classifyDefinition definition = .ok c → c.Consistent := by
  refine ⟨fun source => ⟨succeeds_classify_iff, fun c hc => consistent_classify hc⟩,
    fun definition => ⟨succeeds_classifyDefinition_iff, fun c hc => ?_⟩⟩
  exact consistent_classifyDefinition hc

end CustomCommand
end SuiteShift
