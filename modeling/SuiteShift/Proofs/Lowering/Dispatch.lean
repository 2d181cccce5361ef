import SuiteShift.Proofs.Lowering.Chain

/-!
# Which way a command takes

`statements` chooses by the shape of the chain.

- `knownStatements`: the statements of a known base, without what is said about an alias that it
  reads; `statements_of_known`, `statements_of_unknown`.
- `chainStart`: what stands before the chained calls, and the locator that they begin with.
- `TakesList`: the chain becomes a list; `knownStatements_of_takesList`.
- `knownStatements_of_lone_condition`, `knownStatements_of_lone_action`: one call on a base.
-/

namespace SuiteShift
namespace Lowering

open Rule (CommandRule)

/-- What is said about a base that reads an alias. -/
def readWarnings (command : Command) : List Diagnostic :=
  (readAlias? command).toList.map .aliasRead

/-- The statements of a chain on a known base. -/
def knownStatements (command : Command) : Outcome (List Emitted) :=
  match command.calls with
  | [] => do
    let statement ← commandStatement command
    .ok [statement]
  | [call] =>
    if Rule.mustRunFirst command.name then
      statementList command
    else if isAssertion call || command.name == "url" || command.name == "title" then do
      let locator ← baseLocator command
      let statement ← assertionStatement command locator call
      .ok [statement]
    else do
      let statement ← singleAction command call
      .ok [statement]
  | _ => statementList command

theorem statements_of_unknown
    {command : Command}
    (h : CommandRule.find? command.name = none) :
    statements command =
      ⟨[.warns (.unknownCommand command.name)], .ok [.placeholder command.source]⟩ := by
  unfold statements
  simp [h]

/-- An alias that is read is mentioned before everything else. -/
theorem statements_of_known
    {command : Command}
    (h : (CommandRule.find? command.name).isSome = true) :
    warnings (statements command).notes =
      readWarnings command ++ warnings (knownStatements command).notes ∧
    (statements command).result = (knownStatements command).result := by
  obtain ⟨rule, hrule⟩ := Option.isSome_iff_exists.mp h
  unfold readWarnings
  cases halias : readAlias? command with
  | none =>
      have heq : statements command = (.ok () >>= fun _ => knownStatements command) := by
        rw [statements, hrule, halias]
        rfl
      simp [heq]
  | some name =>
      have heq : statements command =
          (.warn (.aliasRead name) >>= fun _ => knownStatements command) := by
        rw [statements, hrule, halias]
        rfl
      simp [heq]

/-! ### Chains with several statements -/

/-- The statements before the chained calls, and the locator that these begin with. -/
def chainStart (command : Command) : Outcome (List Emitted × String) :=
  if Rule.mustRunFirst command.name then do
    let base ← commandStatement command
    .ok ([base], "page")
  else do
    let locator ← baseLocator command
    .ok ([], locator)

theorem statementList_eq
    (command : Command) :
    statementList command =
      (chainStart command >>= fun start =>
        chainStatements command start.2 command.calls >>= fun rest =>
          .ok (start.1 ++ rest)) := by
  unfold statementList chainStart
  split_ifs
  · rw [Outcome.bind_assoc]
    rfl
  · rw [Outcome.bind_assoc]
    simp only [Outcome.ok_bind, List.nil_append, Outcome.bind_ok]

/-- The command is lowered to a list of statements: its base runs first and something follows, or
there are several calls. -/
def TakesList (command : Command) : Prop :=
  (CommandRule.find? command.name).isSome = true ∧
    (Rule.mustRunFirst command.name = true ∧ command.calls ≠ [] ∨ 2 ≤ command.calls.length)

/-- A chain is empty, a single call on a base that can wait, or becomes a list. -/
theorem calls_cases
    {command : Command}
    (h : (CommandRule.find? command.name).isSome = true) :
    command.calls = [] ∨
    (∃ call, command.calls = [call] ∧ Rule.mustRunFirst command.name = false) ∨
    TakesList command := by
  unfold TakesList
  rcases hcalls : command.calls with _ | ⟨first, _ | ⟨second, rest⟩⟩
  · exact .inl rfl
  · cases hfirst : Rule.mustRunFirst command.name with
    | false =>
        exact .inr (.inl ⟨first, rfl, rfl⟩)
    | true =>
        exact .inr (.inr ⟨h, .inl ⟨rfl, by simp⟩⟩)
  · exact .inr (.inr ⟨h, .inr (by simp)⟩)

theorem knownStatements_of_takesList
    {command : Command}
    (h : TakesList command) :
    knownStatements command = statementList command := by
  obtain ⟨-, h⟩ := h
  unfold knownStatements
  split
  · next hcalls =>
      simp [hcalls] at h
  · next call hcalls =>
      rw [hcalls, List.length_singleton] at h
      rcases h with ⟨hfirst, -⟩ | hmany
      · rw [if_pos hfirst]
      · omega
  · rfl

/-- Before the chained calls stands the code of the base, or nothing. -/
theorem mem_lead_of_chainStart
    {command : Command}
    {lead : List Emitted}
    {base : String}
    {statement : Emitted}
    (hknown : (CommandRule.find? command.name).isSome = true)
    (h : (chainStart command).result = .ok (lead, base))
    (hmem : statement ∈ lead) :
    ∃ text suspends, text ≠ "" ∧ statement = .code text suspends := by
  obtain ⟨rule, hrule⟩ := Option.isSome_iff_exists.mp hknown
  have hwrites := CommandRule.writes_code (List.mem_of_find?_eq_some hrule) command.args
  unfold chainStart at h
  split_ifs at h
  · rw [Outcome.result_bind_eq_ok] at h
    obtain ⟨first, hfirst, h⟩ := h
    cases h
    rw [List.mem_singleton] at hmem
    subst hmem
    rw [(commandStatement_of_known hrule).2] at hfirst
    cases hcode : rule.code command.args with
    | error reason =>
        simp [hcode, Except.map] at hfirst
    | ok text =>
        simp only [hcode, Except.map, Except.ok.injEq] at hfirst
        exact ⟨text, rule.suspends, hwrites text hcode, hfirst.symm⟩
  · rw [Outcome.result_bind_eq_ok] at h
    obtain ⟨locator, -, h⟩ := h
    cases h
    simp at hmem

/-- Nothing is said about the base of a chain but that it waits for an alias. -/
theorem warnings_chainStart
    {command : Command}
    (h : (CommandRule.find? command.name).isSome = true) :
    warnings (chainStart command).notes = waitWarnings command := by
  obtain ⟨rule, hrule⟩ := Option.isSome_iff_exists.mp h
  have hbase := (commandStatement_of_known hrule).1
  unfold chainStart
  split_ifs with hfirst
  · cases hresult : (commandStatement command).result with
    | error reason =>
        rw [Outcome.notes_bind_of_error _ hresult, hbase]
    | ok statement =>
        rw [Outcome.notes_bind_of_ok _ hresult, Outcome.notes_ok, List.append_nil, hbase]
  · -- A base that waits runs first.
    have hwait : (command.name == "wait") = false := by
      rw [beq_eq_false_iff_ne]
      rintro hname
      exact hfirst (hname ▸ rfl)
    rw [waitWarnings, hwait]
    cases hresult : (baseLocator command).result with
    | error reason =>
        rw [Outcome.notes_bind_of_error _ hresult, warnings_baseLocator]
        rfl
    | ok locator =>
        rw [Outcome.notes_bind_of_ok _ hresult, Outcome.notes_ok, List.append_nil,
          warnings_baseLocator]
        rfl

/-! ### One call on a base -/

namespace Applied

/-- The statement of a call that stands alone: a narrowed locator is still an expression. -/
def alone : Applied → Emitted
  | .statement made => made
  | .refined narrowed => .code narrowed false
  | .dropped => .code "" false

end Applied

/-- A lone call that is read as a condition, as every call on the address or title is. -/
theorem knownStatements_of_lone_condition
    {command : Command}
    {call : Call}
    (hcalls : command.calls = [call])
    (hfirst : Rule.mustRunFirst command.name = false)
    (h : isAssertion call = true ∨ isPageQuery command.name = true) :
    knownStatements command =
      (chainStart command >>= fun start =>
        assertionStatement command start.2 call >>= fun statement => .ok [statement]) := by
  have hcond : (isAssertion call || command.name == "url" || command.name == "title") = true := by
    rw [Bool.or_assoc, Bool.or_eq_true]
    exact h
  unfold knownStatements chainStart
  rw [hcalls, hfirst]
  simp only [Bool.false_eq_true, ↓reduceIte, hcond]
  rw [Outcome.bind_assoc]
  rfl

/-- Any other lone call. -/
theorem knownStatements_of_lone_action
    {command : Command}
    {call : Call}
    (hcalls : command.calls = [call])
    (hfirst : Rule.mustRunFirst command.name = false)
    (hcall : isAssertion call = false)
    (hquery : isPageQuery command.name = false) :
    knownStatements command =
      (chainStart command >>= fun start =>
        callOutcome command start.2 call >>= fun applied => .ok [applied.alone]) := by
  have hcond : (false || command.name == "url" || command.name == "title") = false := by
    exact hquery
  have hsingle : singleAction command call =
      (baseLocator command >>= fun base =>
        applyCall base call >>= fun applied => .ok applied.alone) := by
    unfold singleAction
    refine Outcome.bind_congr_of_ok fun base _ => ?_
    refine Outcome.bind_congr_of_ok fun applied _ => ?_
    cases applied <;> rfl
  unfold knownStatements chainStart callOutcome
  rw [hcalls, hfirst]
  simp only [Bool.false_eq_true, ↓reduceIte, hcond, hcall, hsingle]
  rw [Outcome.bind_assoc, Outcome.bind_assoc]
  refine Outcome.bind_congr_of_ok fun base _ => ?_
  rw [Outcome.bind_assoc]
  rfl

end Lowering
end SuiteShift
