import SuiteShift.Proofs.Lowering.Dispatch

/-!
# What lowered code needs

Lowered code needs the import line of every test file, and otherwise only lines that the rule of
its base asks for.

- `NeedsOnly`: a step asks for no other lines; it passes through `bind`.
- `mem_imports_lower`: the import lines of a lowered command.
-/

namespace SuiteShift
namespace Lowering

open Rule (CommandRule)

/-- All import lines that some rule asks for. -/
def ruleImports : List String :=
  Rule.commandRules.flatMap (·.imports)

theorem ruleImports_eq :
    ruleImports = ["import fs from 'fs';"] := by
  rfl

theorem testImport_notMem_ruleImports :
    testImport ∉ ruleImports := by
  rw [ruleImports_eq]
  decide

namespace Outcome

variable {α β : Type}

/-- The step asks for no other import lines than those of rules. -/
def NeedsOnly (outcome : Outcome α) : Prop :=
  ∀ line, .needs line ∈ outcome.notes → line ∈ ruleImports

theorem needsOnly_ok
    (value : α) :
    (ok value).NeedsOnly := by
  intro line h
  simp at h

theorem needsOnly_ofExcept
    (result : Except RuleError α) :
    (ofExcept result).NeedsOnly := by
  intro line h
  simp at h

theorem needsOnly_warn
    (diagnostic : Diagnostic) :
    (warn diagnostic).NeedsOnly := by
  intro line h
  simp at h

theorem needsOnly_need
    {rule : CommandRule}
    {name : String}
    (h : CommandRule.find? name = some rule) :
    (need rule.imports).NeedsOnly := by
  intro line hline
  rw [notes_need, List.mem_map] at hline
  obtain ⟨other, hother, heq⟩ := hline
  cases heq
  exact List.mem_flatMap.mpr ⟨rule, List.mem_of_find?_eq_some h, hother⟩

theorem needsOnly_bind
    {step : Outcome α}
    {next : α → Outcome β}
    (hstep : step.NeedsOnly)
    (hnext : ∀ value, (next value).NeedsOnly) :
    (step >>= next).NeedsOnly := by
  intro line h
  cases hresult : step.result with
  | error reason =>
      rw [notes_bind_of_error _ hresult] at h
      exact hstep line h
  | ok value =>
      rw [notes_bind_of_ok _ hresult, List.mem_append] at h
      rcases h with h | h
      · exact hstep line h
      · exact hnext value line h

end Outcome

open Outcome

theorem needsOnly_baseLocator
    (command : Command) :
    (baseLocator command).NeedsOnly := by
  unfold baseLocator
  split_ifs
  · exact needsOnly_ofExcept _
  · exact needsOnly_ofExcept _
  · exact needsOnly_ok _
  · split
    · next rule hrule =>
        exact needsOnly_bind (needsOnly_need hrule) fun _ => needsOnly_ofExcept _
    · exact needsOnly_ok _

theorem needsOnly_commandStatement
    (command : Command) :
    (commandStatement command).NeedsOnly := by
  unfold commandStatement
  split
  · exact needsOnly_bind (needsOnly_warn _) fun _ => needsOnly_ok _
  · next rule hrule =>
      have hcode : (do
          need rule.imports
          let text ← ofExcept (rule.code command.args)
          ok (Emitted.code text rule.suspends)).NeedsOnly := by
        refine needsOnly_bind (needsOnly_need hrule) fun _ => ?_
        exact needsOnly_bind (needsOnly_ofExcept _) fun _ => needsOnly_ok _
      split_ifs
      · split
        · exact needsOnly_bind (needsOnly_warn _) fun _ => hcode
        · exact needsOnly_bind (needsOnly_ok _) fun _ => hcode
      · exact hcode

theorem needsOnly_applyCall
    (locator : String)
    (call : Call) :
    (applyCall locator call).NeedsOnly := by
  unfold applyCall
  split
  · exact needsOnly_bind (needsOnly_warn _) fun _ => needsOnly_ok _
  · split
    · exact needsOnly_bind (needsOnly_ofExcept _) fun _ => needsOnly_ok _
    · exact needsOnly_bind (needsOnly_ofExcept _) fun _ => needsOnly_ok _
    · exact needsOnly_bind (needsOnly_warn _) fun _ => needsOnly_ok _

theorem needsOnly_pageAssertion
    (matcher subject key : String)
    (extra : List Value) :
    (pageAssertion matcher subject key extra).NeedsOnly := by
  cases extra with
  | nil =>
      rw [pageAssertion_nil]
      exact needsOnly_ofExcept _
  | cons expected extra =>
      obtain ⟨first, second, -, -, heq⟩ := pageAssertion_cons matcher subject key expected extra
      rw [heq]
      split_ifs
      · exact needsOnly_bind (needsOnly_warn _) fun _ => needsOnly_ok (some first)
      · exact needsOnly_ok _
      · exact needsOnly_bind (needsOnly_warn _) fun _ => needsOnly_ok none

theorem needsOnly_locatorAssertion
    (locator key : String)
    (extra : List Value) :
    (locatorAssertion locator key extra).NeedsOnly := by
  unfold locatorAssertion
  split
  · split
    · exact needsOnly_ok _
    · exact needsOnly_bind (needsOnly_ofExcept _) fun _ => needsOnly_ok _
  · exact needsOnly_bind (needsOnly_warn _) fun _ => needsOnly_ok _

theorem needsOnly_assertionStatement
    (command : Command)
    (locator : String)
    (call : Call) :
    (assertionStatement command locator call).NeedsOnly := by
  unfold assertionStatement
  split
  · split_ifs
    all_goals
      apply needsOnly_bind
      rotate_left
      · intro code
        cases code with
        | none =>
            exact needsOnly_ok _
        | some text =>
            exact needsOnly_ok _
    · exact needsOnly_pageAssertion _ _ _ _
    · exact needsOnly_pageAssertion _ _ _ _
    · exact needsOnly_locatorAssertion _ _ _
  · exact needsOnly_bind (needsOnly_warn _) fun _ => needsOnly_ok _

theorem needsOnly_chainStatements
    (command : Command)
    (locator : String)
    (calls : List Call) :
    (chainStatements command locator calls).NeedsOnly := by
  induction calls generalizing locator with
  | nil =>
      exact needsOnly_ok _
  | cons call calls ih =>
      unfold chainStatements
      split_ifs
      · refine needsOnly_bind (needsOnly_assertionStatement _ _ _) fun _ => ?_
        exact needsOnly_bind (ih locator) fun _ => needsOnly_ok _
      · refine needsOnly_bind (needsOnly_applyCall _ _) fun applied => ?_
        cases applied with
        | statement statement =>
            exact needsOnly_bind (ih locator) fun _ => needsOnly_ok _
        | refined narrowed =>
            exact ih narrowed
        | dropped =>
            exact ih locator

theorem needsOnly_statementList
    (command : Command) :
    (statementList command).NeedsOnly := by
  unfold statementList
  split_ifs
  · refine needsOnly_bind (needsOnly_commandStatement _) fun _ => ?_
    exact needsOnly_bind (needsOnly_chainStatements _ _ _) fun _ => needsOnly_ok _
  · exact needsOnly_bind (needsOnly_baseLocator _) fun _ => needsOnly_chainStatements _ _ _

theorem needsOnly_singleAction
    (command : Command)
    (call : Call) :
    (singleAction command call).NeedsOnly := by
  unfold singleAction
  refine needsOnly_bind (needsOnly_baseLocator _) fun _ => ?_
  refine needsOnly_bind (needsOnly_applyCall _ _) fun applied => ?_
  cases applied with
  | statement statement =>
      exact needsOnly_ok _
  | refined narrowed =>
      exact needsOnly_ok _
  | dropped =>
      exact needsOnly_ok _

theorem needsOnly_knownStatements
    (command : Command) :
    (knownStatements command).NeedsOnly := by
  unfold knownStatements
  split
  · exact needsOnly_bind (needsOnly_commandStatement _) fun _ => needsOnly_ok _
  · split_ifs
    · exact needsOnly_statementList _
    · refine needsOnly_bind (needsOnly_baseLocator _) fun _ => ?_
      exact needsOnly_bind (needsOnly_assertionStatement _ _ _) fun _ => needsOnly_ok _
    · exact needsOnly_bind (needsOnly_singleAction _ _) fun _ => needsOnly_ok _
  · exact needsOnly_statementList _

theorem needsOnly_statements
    (command : Command) :
    (statements command).NeedsOnly := by
  have hknown := needsOnly_knownStatements command
  unfold knownStatements at hknown
  unfold statements
  split
  · exact needsOnly_bind (needsOnly_warn _) fun _ => needsOnly_ok _
  · dsimp only
    split
    · exact needsOnly_bind (needsOnly_warn _) fun _ => hknown
    · exact needsOnly_bind (needsOnly_ok _) fun _ => hknown

namespace Context

theorem mem_imports_requireImport
    {context : Context}
    {line other : String} :
    other ∈ (context.requireImport line).imports ↔
      other ∈ context.imports ∨ other = line := by
  unfold requireImport
  split_ifs with hknown
  · constructor
    · exact .inl
    · rintro (h | rfl)
      · exact h
      · simpa using hknown
  · simp

theorem mem_imports_foldl_add
    {notes : List Note}
    {context : Context}
    {line : String} :
    line ∈ (notes.foldl add context).imports ↔
      line ∈ context.imports ∨ .needs line ∈ notes := by
  induction notes generalizing context with
  | nil =>
      simp
  | cons note notes ih =>
      rw [List.foldl_cons, ih, List.mem_cons]
      cases note with
      | needs other =>
          simp [add, mem_imports_requireImport, or_assoc]
      | warns diagnostic =>
          simp [add, diagnose]

end Context

/-- Lowered code needs the line of every test file and lines of rules. -/
theorem mem_imports_lower
    {command : Command}
    {line : String}
    (h : line ∈ command.lower.imports) :
    line = testImport ∨ line ∈ ruleImports := by
  have hneeds := needsOnly_statements command
  unfold Command.lower finish at h
  split at h
  · simp only [Context.ofNotes, Context.mem_imports_foldl_add, List.mem_singleton] at h
    exact h.imp_right (hneeds line)
  · simp only [Context.ofNotes, Context.mem_imports_foldl_add, List.mem_singleton,
      List.mem_append, reduceCtorEq, or_false] at h
    exact h.imp_right (hneeds line)

end Lowering
end SuiteShift
