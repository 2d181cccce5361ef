import SuiteShift.CustomCommand.Basic
import SuiteShift.Proofs.Failure
import SuiteShift.Proofs.Lowering.Imports
import SuiteShift.Proofs.Text.Search

/-!
# The shape of a custom command

Whichever way a custom command was classified, its code declares what a call of it refers to,
under the identifier of its name: a helper exports a function on a page, and a page method starts
with its own name.

- `WellShaped`: the declaration, and which import lines the code may need.
- `wellShaped_classifyDefinition`, `wellShaped_classify`: every classification is well shaped.
-/

namespace SuiteShift

/-- What the declaration of a helper function starts with. -/
def helperDeclaration (function : String) : String :=
  "export async function " ++ function ++ "(page: Page"

/-- What the declaration of a page method starts with. -/
def methodDeclaration (method : String) : String :=
  "async " ++ method ++ "("

namespace Classification

/-- The code declares what calls refer to, and needs no import lines but well-known ones. -/
structure WellShaped (c : Classification) : Prop where
  utility :
    c.strategy = .utility →
      occursIn (helperDeclaration (Literal.identifier c.name)) c.code = true
  pageObject :
    c.strategy = .pageObject →
      ∃ rest, c.code = methodDeclaration (Literal.identifier c.name) ++ rest
  imports :
    ∀ line ∈ c.imports, line = pageTypeImport ∨ line ∈ Lowering.ruleImports

namespace WellShaped

variable {c : Classification}

theorem note
    (h : c.WellShaped)
    (text : String) :
    (c.note text).WellShaped := by
  exact ⟨h.utility, h.pageObject, h.imports⟩

theorem warn
    (h : c.WellShaped)
    (text : String) :
    (c.warn text).WellShaped := by
  exact ⟨h.utility, h.pageObject, h.imports⟩

theorem require
    {line : String}
    (h : c.WellShaped)
    (hline : line = pageTypeImport ∨ line ∈ Lowering.ruleImports) :
    (c.require line).WellShaped := by
  unfold Classification.require
  split_ifs
  · exact h
  · refine ⟨h.utility, h.pageObject, ?_⟩
    intro other hother
    rcases List.mem_append.mp hother with hother | hother
    · exact h.imports other hother
    · rw [List.mem_singleton] at hother
      exact hother ▸ hline

theorem foldl_require
    {lines : List String}
    (h : c.WellShaped)
    (hlines : ∀ line ∈ lines, line ∈ Lowering.ruleImports) :
    (lines.foldl Classification.require c).WellShaped := by
  induction lines generalizing c with
  | nil =>
      exact h
  | cons line lines ih =>
      refine ih (h.require (.inr (hlines line List.mem_cons_self))) ?_
      intro other hother
      exact hlines other (List.mem_cons_of_mem _ hother)

theorem checkIdentifier
    (h : c.WellShaped) :
    c.checkIdentifier.WellShaped := by
  unfold Classification.checkIdentifier
  dsimp only
  split_ifs
  · exact h
  · exact h.warn _

/-- A statement at each call and a stub that is never called declare nothing. -/
theorem of_strategy
    (hutility : c.strategy ≠ .utility)
    (hpage : c.strategy ≠ .pageObject)
    (himports : c.imports = []) :
    c.WellShaped := by
  refine ⟨fun h => absurd h hutility, fun h => absurd h hpage, ?_⟩
  simp [himports]

theorem of_utility
    (hstrategy : c.strategy = .utility)
    (hcode : occursIn (helperDeclaration (Literal.identifier c.name)) c.code = true)
    (himports : ∀ line ∈ c.imports, line = pageTypeImport) :
    c.WellShaped := by
  refine ⟨fun _ => hcode, ?_, fun line hline => .inl (himports line hline)⟩
  rw [hstrategy]
  simp

theorem failure
    (name error : String) :
    (Classification.failure name error).WellShaped := by
  exact of_strategy (by simp [Classification.failure]) (by simp [Classification.failure]) rfl

end WellShaped
end Classification

namespace CustomCommand

open Classification (WellShaped)

theorem helperHead_eq
    (function params : String) :
    helperHead function params =
      helperDeclaration function ++ params ++ "): Promise<void> \x7b\n" := by
  rfl

theorem occursIn_helperHead
    (before function params after : String) :
    occursIn (helperDeclaration function)
      (before ++ helperHead function params ++ after) = true := by
  rw [occursIn_iff, helperHead_eq]
  refine ⟨before, params ++ "): Promise<void> \x7b\n" ++ after, ?_⟩
  simp only [String.append_assoc]

/-! ### Patterns and stubs -/

theorem wellShaped_directStatement
    (name code : String) :
    (directStatement name code).WellShaped := by
  exact .of_strategy (by simp [directStatement]) (by simp [directStatement]) rfl

theorem wellShaped_login
    (name : String)
    (args : List String) :
    (login name args).WellShaped := by
  refine .note (.require (.of_utility rfl ?_ (by simp)) (.inl rfl)) _
  have hhead := occursIn_helperHead "" (Literal.identifier name)
  simp only [String.empty_append] at hhead
  dsimp only
  simp only [String.append_assoc]
  exact hhead _ _

theorem wellShaped_stub
    (name : String)
    (args : List String)
    (body : Option String) :
    (stub name args body).WellShaped := by
  refine .warn (.require (.of_utility rfl ?_ (by simp)) (.inl rfl)) _
  dsimp only
  rw [String.append_assoc, String.append_assoc, String.append_assoc]
  exact occursIn_helperHead _ _ _ _

theorem wellShaped_missingArguments
    (name expected : String) :
    (missingArguments name expected).WellShaped := by
  exact .failure _ _

theorem wellShaped_thenCallback
    (name : String)
    (args : List String) :
    (thenCallback name args).WellShaped := by
  unfold thenCallback
  split
  · exact wellShaped_missingArguments _ _
  · exact .of_strategy (by simp) (by simp) rfl

theorem wellShaped_navigate
    (name : String)
    (args : List String) :
    (navigate name args).WellShaped := by
  unfold navigate
  split_ifs
  · exact wellShaped_missingArguments _ _
  · exact wellShaped_directStatement _ _

/-- Every pattern gives a well-shaped command. -/
theorem wellShaped_pattern
    {name : String}
    {apply : String → List String → Classification}
    (h : pattern? name = some apply)
    (command : String)
    (args : List String) :
    (apply command args).WellShaped := by
  have hall : ∀ entry ∈ patterns, (entry.2 command args).WellShaped := by
    simp only [patterns, List.forall_mem_cons, List.not_mem_nil, false_implies, implies_true,
      and_true]
    refine ⟨wellShaped_login _ _, ?_, ?_, wellShaped_thenCallback _ _,
      wellShaped_directStatement _ _, wellShaped_directStatement _ _,
      wellShaped_directStatement _ _, wellShaped_navigate _ _, wellShaped_navigate _ _⟩
    · unfold selectDropdown
      split
      · exact wellShaped_directStatement _ _
      · exact wellShaped_missingArguments _ _
    · unfold uploadFile
      split
      · exact .note (wellShaped_directStatement _ _) _
      · exact wellShaped_missingArguments _ _
  obtain ⟨before, after, hsplit, -⟩ := List.lookup_eq_some_iff.mp h
  exact hall (name, apply) (by simp [hsplit])

/-! ### Bodies -/

theorem mem_foldl_addImport
    {lines known : List String}
    {line : String}
    (h : line ∈ lines.foldl Lowered.addImport known) :
    line ∈ known ∨ line ∈ lines ∧ line ≠ Lowering.testImport := by
  induction lines generalizing known with
  | nil =>
      exact .inl h
  | cons other lines ih =>
      rcases ih h with h | ⟨h, hne⟩
      · unfold Lowered.addImport at h
        split_ifs at h with hskip
        · exact .inl h
        · rw [List.mem_append, List.mem_singleton] at h
          rcases h with h | rfl
          · exact .inl h
          · refine .inr ⟨List.mem_cons_self, ?_⟩
            rintro rfl
            simp at hskip
      · exact .inr ⟨List.mem_cons_of_mem _ h, hne⟩

/-- A gathered body needs import lines of rules alone. -/
theorem imports_addStatement
    {branching : Bool}
    {body next : Lowered}
    {statement : Statement}
    (hbody : ∀ line ∈ body.imports, line ∈ Lowering.ruleImports)
    (h : Lowered.addStatement branching body statement = some next) :
    ∀ line ∈ next.imports, line ∈ Lowering.ruleImports := by
  cases statement with
  | command command span =>
      simp only [Lowered.addStatement] at h
      split_ifs at h
      rw [Option.some.injEq] at h
      subst h
      intro line hline
      rcases mem_foldl_addImport hline with hline | ⟨hline, hne⟩
      · exact hbody line hline
      · exact (Lowering.mem_imports_lower hline).resolve_left hne
  | raw text span =>
      simp only [Lowered.addStatement] at h
      split_ifs at h
      rw [Option.some.injEq] at h
      subst h
      exact hbody

theorem imports_foldlM_addStatement
    {branching : Bool}
    {statements : List Statement}
    {body last : Lowered}
    (hbody : ∀ line ∈ body.imports, line ∈ Lowering.ruleImports)
    (h : statements.foldlM (Lowered.addStatement branching) body = some last) :
    ∀ line ∈ last.imports, line ∈ Lowering.ruleImports := by
  induction statements generalizing body with
  | nil =>
      rw [List.foldlM_nil, Option.pure_def, Option.some.injEq] at h
      exact h ▸ hbody
  | cons statement statements ih =>
      rw [List.foldlM_cons, Option.bind_eq_bind, Option.bind_eq_some_iff] at h
      obtain ⟨next, hnext, h⟩ := h
      exact ih (imports_addStatement hbody hnext) h

theorem helperFunction_code
    (name function params : String)
    (body : Lowered) :
    (helperFunction name function params body).code =
      helperDeclaration function ++ afterComma params ++ "): Promise<void> \x7b\n" ++
        indentLines ("\n".intercalate body.lines) ++ "\n\x7d" := by
  rfl

theorem pageObjectMethod_code
    (name method params : String)
    (body : Lowered) :
    (pageObjectMethod name method params body).code =
      methodDeclaration method ++ params ++ "): Promise<void> \x7b\n" ++
        indentLines ("\n".intercalate (body.lines.map rebindPage)) ++ "\n\x7d" := by
  rfl

theorem wellShaped_helperFunction
    (name params : String)
    (body : Lowered) :
    (helperFunction name (Literal.identifier name) params body).WellShaped := by
  refine .of_utility rfl ?_ (by simp [helperFunction])
  rw [helperFunction_code, occursIn_iff]
  refine ⟨"", afterComma params ++ "): Promise<void> \x7b\n" ++
    indentLines ("\n".intercalate body.lines) ++ "\n\x7d", ?_⟩
  simp only [String.empty_append, String.append_assoc]
  rfl

theorem wellShaped_pageObjectMethod
    (name params : String)
    (body : Lowered) :
    (pageObjectMethod name (Literal.identifier name) params body).WellShaped := by
  refine ⟨?_, ?_, ?_⟩
  · rintro ⟨⟩
  · intro _
    rw [pageObjectMethod_code]
    refine ⟨params ++ "): Promise<void> \x7b\n" ++
      indentLines ("\n".intercalate (body.lines.map rebindPage)) ++ "\n\x7d", ?_⟩
    simp only [String.append_assoc]
    rfl
  · rintro _ ⟨⟩

theorem wellShaped_branchingStub
    (name function params : String)
    (lines : List String) :
    (branchingStub name function params lines).WellShaped := by
  refine ⟨?_, ?_, ?_⟩
  · rintro ⟨⟩
  · rintro ⟨⟩
  · intro line hline
    exact .inl (List.mem_singleton.mp hline)

theorem wellShaped_shapeBody
    {body : Lowered}
    (hbody : ∀ line ∈ body.imports, line ∈ Lowering.ruleImports)
    (definition : Definition)
    (branching : Bool) :
    (shapeBody definition branching body).WellShaped := by
  have hshaped : ∀ shaped : Classification, shaped.WellShaped →
      { body.imports.foldl Classification.require shaped with
        warnings := (body.imports.foldl Classification.require shaped).warnings ++
          body.diagnostics }.WellShaped := by
    intro shaped h
    have hrequired := h.foldl_require hbody
    exact ⟨hrequired.utility, hrequired.pageObject, hrequired.imports⟩
  unfold shapeBody
  dsimp only
  split_ifs
  · exact hshaped _ (wellShaped_branchingStub _ _ _ _)
  · exact hshaped _ (wellShaped_pageObjectMethod _ _ _)
  · exact hshaped _ (wellShaped_helperFunction _ _ _)

theorem wellShaped_lowerDefinition
    {definition : Definition}
    {c : Classification}
    (h : lowerDefinition definition = .ok (some c)) :
    c.WellShaped := by
  unfold lowerDefinition at h
  split at h
  · next snippet _ =>
      rw [Except.ok.injEq, Option.map_eq_some_iff] at h
      obtain ⟨body, hbody, rfl⟩ := h
      refine wellShaped_shapeBody ?_ _ _
      exact imports_foldlM_addStatement (by simp) hbody
  · cases h
  · cases h

/-! ### Whole commands -/

theorem wellShaped_classifyByName
    (definition : Definition) :
    (classifyByName definition).WellShaped := by
  unfold classifyByName
  split
  · next apply hpattern =>
      exact .note (wellShaped_pattern hpattern _ _) _
  · exact wellShaped_stub _ _ _

/-- Every definition becomes a well-shaped command. -/
theorem wellShaped_classifyDefinition
    {definition : Definition}
    {c : Classification}
    (h : classifyDefinition definition = .ok c) :
    c.WellShaped := by
  have hname := (wellShaped_classifyByName definition).checkIdentifier
  unfold classifyDefinition at h
  dsimp only at h
  split_ifs at h
  · cases h
    exact hname
  · obtain ⟨lowered, hlowered, h⟩ := Failure.bind_eq_ok.mp h
    cases lowered with
    | none =>
        cases h
        exact hname
    | some shaped =>
        cases h
        exact (wellShaped_lowerDefinition hlowered).checkIdentifier

theorem wellShaped_classifyCall
    (source : List Char) :
    (classifyCall source).WellShaped := by
  unfold classifyCall
  split
  · exact .failure _ _
  · dsimp only
    split
    · next apply hpattern =>
        exact (wellShaped_pattern hpattern _ _).checkIdentifier
    · exact (wellShaped_stub _ _ _).checkIdentifier

/-- Every registration and every call becomes a well-shaped command. -/
theorem wellShaped_classify
    {source : String}
    {c : Classification}
    (h : classify source = .ok c) :
    c.WellShaped := by
  unfold classify at h
  split at h
  · split at h
    · exact wellShaped_classifyDefinition h
    · cases h
      exact .failure _ _
  · cases h
    exact wellShaped_classifyCall _

end CustomCommand
end SuiteShift
