import SuiteShift.Proofs.Lowering.Accounting

/-!
# Waiting for an alias

A base that waits for an alias is reported once, whatever follows it. No other step of a lowering
gives such a report, so a chained call that waits for an alias goes without one.

- `aliasWaits`: the places at which a command waits for an alias.
- `Outcome.Quiet`: a step without such a report; `quiet_callOutcome` for one call,
  `quiet_chainStatements` for a chain.
- `aliasReports_statements`: the reports of a whole command.
- `base_alias_wait_reported`: these are all that are due exactly if no chained call waits for an
  alias.
-/

namespace SuiteShift
namespace Lowering

open Rule (ChainRule CommandRule)

/-- The call waits for an alias. -/
def waitsForAlias (method : String) (args : List Value) : Bool :=
  method == "wait" && firstIsAlias args

/-- The number of places at which a command waits for an alias, its base included. -/
def aliasWaits (command : Command) : Nat :=
  (waitsForAlias command.name command.args).toNat +
    command.calls.countP fun call => waitsForAlias call.method call.args

/-- The message reports that an alias is waited for. -/
def isAliasReport (message : String) : Bool :=
  Text.startsWith "cy.wait('".toList message.toList

/-! ### Messages -/

theorem isAliasReport_append
    {front : String}
    (h : "cy.wait('".toList.length ≤ front.toList.length)
    (back : String) :
    isAliasReport (front ++ back) = isAliasReport front := by
  rw [isAliasReport, String.toList_append, Text.startsWith_append_of_le h]
  rfl

/-- The diagnostic makes such a report, by its kind or by a text of its own. -/
def Diagnostic.reportsAlias : Diagnostic → Bool
  | .aliasWait _ => true
  | .droppedCall reason => isAliasReport reason
  | .partialPattern subject => isAliasReport (Diagnostic.partialPattern subject).message
  | _ => false

theorem isAliasReport_message
    (diagnostic : Diagnostic) :
    isAliasReport diagnostic.message = diagnostic.reportsAlias := by
  cases diagnostic with
  | droppedCall reason =>
      rfl
  | partialPattern subject =>
      rfl
  | _ =>
      -- The fixed beginning of each message decides.
      unfold Diagnostic.message
      simp only [String.append_assoc]
      rw [isAliasReport_append (by decide)]
      rfl

/-! ### One call -/

theorem reportsAlias_of_mem_pageWarnings
    {subject key : String}
    {diagnostic : Diagnostic}
    (hsubject : isAliasReport (Diagnostic.partialPattern subject).message = false)
    (h : diagnostic ∈ pageWarnings subject key) :
    diagnostic.reportsAlias = false := by
  unfold pageWarnings at h
  split_ifs at h
  · rw [List.mem_singleton.mp h]
    exact hsubject
  · simp at h
  · rw [List.mem_singleton.mp h]
    rfl

theorem reportsAlias_of_mem_conditionWarnings
    {name : String}
    {call : Call}
    {diagnostic : Diagnostic}
    (h : diagnostic ∈ conditionWarnings name call) :
    diagnostic.reportsAlias = false := by
  unfold conditionWarnings at h
  split at h
  · split_ifs at h
    · exact reportsAlias_of_mem_pageWarnings (by decide) h
    · exact reportsAlias_of_mem_pageWarnings (by decide) h
    · simp at h
    · rw [List.mem_singleton.mp h]
      rfl
  · rw [List.mem_singleton.mp h]
    rfl

theorem reportsAlias_of_mem_methodWarnings
    {call : Call}
    {diagnostic : Diagnostic}
    (h : diagnostic ∈ methodWarnings call) :
    diagnostic.reportsAlias = false := by
  have hdropped : ∀ rule ∈ Rule.chainRules, ∀ reason,
      rule.kind = .drop reason → isAliasReport reason = false := by
    simp only [Rule.chainRules, List.forall_mem_cons, Rule.actionTransform, Rule.actionTemplate,
      reduceCtorEq, false_implies, implies_true, List.not_mem_nil, and_true, true_and,
      Rule.ChainKind.drop.injEq, forall_eq']
    decide
  unfold methodWarnings at h
  split at h
  · rw [List.mem_singleton.mp h]
    rfl
  · next method reason hrule =>
      rw [List.mem_singleton.mp h]
      exact hdropped _ (List.mem_of_find?_eq_some hrule) reason rfl
  · simp at h

theorem reportsAlias_of_mem_callWarnings
    {name : String}
    {call : Call}
    {diagnostic : Diagnostic}
    (h : diagnostic ∈ callWarnings name call) :
    diagnostic.reportsAlias = false := by
  unfold callWarnings at h
  split_ifs at h
  · exact reportsAlias_of_mem_conditionWarnings h
  · exact reportsAlias_of_mem_methodWarnings h

/-! ### Steps without a report -/

namespace Outcome

variable {α β : Type}

/-- The step does not report that an alias is waited for. -/
def Quiet (outcome : Outcome α) : Prop :=
  ∀ diagnostic ∈ warnings outcome.notes, diagnostic.reportsAlias = false

/-- The reports of a step. -/
def aliasReports (outcome : Outcome α) : List Diagnostic :=
  (warnings outcome.notes).filter Diagnostic.reportsAlias

theorem quiet_ok
    (value : α) :
    (ok value).Quiet := by
  intro diagnostic h
  simp at h

theorem quiet_bind
    {step : Outcome α}
    {next : α → Outcome β}
    (hstep : step.Quiet)
    (hnext : ∀ value, (next value).Quiet) :
    (step >>= next).Quiet := by
  intro diagnostic h
  cases hresult : step.result with
  | error reason =>
      rw [notes_bind_of_error _ hresult] at h
      exact hstep diagnostic h
  | ok value =>
      rw [notes_bind_of_ok _ hresult, warnings_append, List.mem_append] at h
      rcases h with h | h
      · exact hstep diagnostic h
      · exact hnext value diagnostic h

/-- Nothing is added to the reports by steps without any. -/
theorem aliasReports_bind
    {step : Outcome α}
    {next : α → Outcome β}
    (hnext : ∀ value, (next value).Quiet) :
    (step >>= next).aliasReports = step.aliasReports := by
  unfold aliasReports
  cases hresult : step.result with
  | error reason =>
      rw [notes_bind_of_error _ hresult]
  | ok value =>
      have hnone : (warnings (next value).notes).filter Diagnostic.reportsAlias = [] := by
        rw [List.filter_eq_nil_iff]
        intro diagnostic h
        simp [hnext value diagnostic h]
      rw [notes_bind_of_ok _ hresult, warnings_append, List.filter_append, hnone, List.append_nil]

end Outcome

open Outcome

theorem quiet_assertionStatement
    (command : Command)
    (locator : String)
    (call : Call) :
    (assertionStatement command locator call).Quiet := by
  have hstep := conditionStep_assertionStatement command locator call
  intro diagnostic h
  cases hresult : (assertionStatement command locator call).result with
  | error reason =>
      simp [hstep.warnings_of_error _ hresult] at h
  | ok statement =>
      rw [hstep.warnings_of_ok _ hresult] at h
      exact reportsAlias_of_mem_conditionWarnings h

theorem quiet_callOutcome
    (command : Command)
    (locator : String)
    (call : Call) :
    (callOutcome command locator call).Quiet := by
  intro diagnostic h
  cases hresult : (callOutcome command locator call).result with
  | error reason =>
      simp [warnings_callOutcome_of_error hresult] at h
  | ok applied =>
      rw [warnings_callOutcome_of_ok hresult] at h
      exact reportsAlias_of_mem_callWarnings h

/-- No call of a chain makes a report. -/
theorem quiet_chainStatements
    (command : Command)
    (locator : String)
    (calls : List Call) :
    (chainStatements command locator calls).Quiet := by
  induction calls generalizing locator with
  | nil =>
      exact quiet_ok []
  | cons call calls ih =>
      rw [chainStatements_cons]
      refine quiet_bind (quiet_callOutcome command locator call) fun applied => ?_
      exact quiet_bind (ih _) fun rest => quiet_ok _

/-! ### Whole commands -/

theorem aliasReports_chainStart
    {command : Command}
    (h : (CommandRule.find? command.name).isSome = true) :
    (chainStart command).aliasReports = waitWarnings command := by
  rw [aliasReports, warnings_chainStart h, List.filter_eq_self]
  intro diagnostic hmem
  unfold waitWarnings at hmem
  split_ifs at hmem
  · obtain ⟨reference, -, rfl⟩ := List.mem_map.mp hmem
    rfl
  · simp at hmem

theorem aliasReports_knownStatements
    {command : Command}
    (h : (CommandRule.find? command.name).isSome = true) :
    (knownStatements command).aliasReports = waitWarnings command := by
  rw [← aliasReports_chainStart h]
  rcases calls_cases h with hcalls | ⟨call, hcalls, hfirst⟩ | hpath
  · obtain ⟨rule, hrule⟩ := Option.isSome_iff_exists.mp h
    have hbase : (commandStatement command).aliasReports = (chainStart command).aliasReports := by
      rw [aliasReports, aliasReports, (commandStatement_of_known hrule).1, warnings_chainStart h]
    rw [knownStatements, hcalls, ← hbase]
    exact aliasReports_bind fun statement => quiet_ok _
  · by_cases hread : isAssertion call = true ∨ isPageQuery command.name = true
    · rw [knownStatements_of_lone_condition hcalls hfirst hread]
      refine aliasReports_bind fun start => ?_
      exact quiet_bind (quiet_assertionStatement _ _ _) fun statement => quiet_ok _
    · rw [not_or, Bool.not_eq_true, Bool.not_eq_true] at hread
      rw [knownStatements_of_lone_action hcalls hfirst hread.1 hread.2]
      refine aliasReports_bind fun start => ?_
      exact quiet_bind (quiet_callOutcome _ _ _) fun applied => quiet_ok _
  · rw [knownStatements_of_takesList hpath, statementList_eq]
    refine aliasReports_bind fun start => ?_
    exact quiet_bind (quiet_chainStatements _ _ _) fun rest => quiet_ok _

/-- The reports of a command are those about its base, also when a rule refuses. -/
theorem aliasReports_statements
    (command : Command) :
    (statements command).aliasReports = waitWarnings command := by
  cases hrule : CommandRule.find? command.name with
  | none =>
      have hwait : (command.name == "wait") = false := by
        rw [beq_eq_false_iff_ne]
        intro hname
        rw [hname] at hrule
        exact absurd hrule (by decide)
      rw [aliasReports, statements_of_unknown hrule, waitWarnings, hwait]
      rfl
  | some rule =>
      have hknown : (CommandRule.find? command.name).isSome = true := by
        rw [hrule]
        rfl
      have hread : (readWarnings command).filter Diagnostic.reportsAlias = [] := by
        rw [List.filter_eq_nil_iff]
        intro diagnostic hmem
        obtain ⟨name, -, rfl⟩ := List.mem_map.mp hmem
        simp [Diagnostic.reportsAlias]
      rw [aliasReports, (statements_of_known hknown).1, List.filter_append, hread, List.nil_append]
      exact aliasReports_knownStatements hknown

theorem filter_isAliasReport_map
    (diagnostics : List Diagnostic) :
    (diagnostics.map Diagnostic.message).filter isAliasReport =
      (diagnostics.filter Diagnostic.reportsAlias).map Diagnostic.message := by
  rw [List.filter_map]
  congr 1
  refine List.filter_congr fun diagnostic _ => ?_
  exact isAliasReport_message diagnostic

theorem filter_isAliasReport_lower
    (command : Command) :
    command.lower.diagnostics.filter isAliasReport =
      (waitWarnings command).map Diagnostic.message := by
  rw [← aliasReports_statements command, aliasReports, ← filter_isAliasReport_map]
  cases hresult : (statements command).result with
  | ok made =>
      rw [(lower_of_ok hresult).2]
  | error reason =>
      have hrefused := isAliasReport_message (.refused command.source reason)
      rw [(lower_of_error hresult).2.2, List.filter_append, List.filter_singleton]
      unfold Diagnostic.message at hrefused
      rw [hrefused]
      simp [Diagnostic.reportsAlias]

/-- A base that waits for an alias is reported once, with the alias, whatever is chained to it and
whether or not a rule refuses; nothing else is reported. So every place is reported exactly if no
chained call waits for an alias. -/
theorem base_alias_wait_reported
    (command : Command) :
    command.lower.diagnostics.filter isAliasReport =
      (waitWarnings command).map Diagnostic.message ∧
    command.lower.diagnostics.countP isAliasReport =
      (waitsForAlias command.name command.args).toNat ∧
    (command.lower.diagnostics.countP isAliasReport = aliasWaits command ↔
      ∀ call ∈ command.calls, waitsForAlias call.method call.args = false) := by
  have hreports := filter_isAliasReport_lower command
  have hcount : command.lower.diagnostics.countP isAliasReport =
      (waitsForAlias command.name command.args).toNat := by
    rw [List.countP_eq_length_filter, hreports, List.length_map, length_waitWarnings]
    rfl
  refine ⟨hreports, hcount, ?_⟩
  rw [hcount, aliasWaits]
  have hnone : (command.calls.countP fun call => waitsForAlias call.method call.args) = 0 ↔
      ∀ call ∈ command.calls, waitsForAlias call.method call.args = false := by
    simp [List.countP_eq_zero]
  rw [← hnone]
  omega

/-- A chained call that waits for an alias becomes a pause, and nothing is said about it. -/
theorem chained_alias_wait_unreported :
    aliasWaits ⟨"get", [.string "#a"], [⟨"click", []⟩, ⟨"wait", [.string "@save"]⟩]⟩ = 1 ∧
    (Command.lower ⟨"get", [.string "#a"], [⟨"click", []⟩, ⟨"wait", [.string "@save"]⟩]⟩).code =
      "await page.locator('#a').click();\nawait page.waitForTimeout('@save')" ∧
    (Command.lower ⟨"get", [.string "#a"],
      [⟨"click", []⟩, ⟨"wait", [.string "@save"]⟩]⟩).diagnostics = [] := by
  decide +kernel

end Lowering
end SuiteShift
