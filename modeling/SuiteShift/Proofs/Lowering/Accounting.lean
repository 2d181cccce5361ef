import SuiteShift.Proofs.Lowering.Dispatch
import SuiteShift.Proofs.Text.Split

/-!
# The account of a lowering

Every warning of a lowering has a cause that can be read off the command or seen in the
statements. If no rule refuses, the warnings are as many as the placeholders, the aliases that the
base reads or waits for, the dropped calls and the partial matches of the address or title. If a
rule refuses, nothing is kept of the statements, and the warnings up to that point are followed
by one about the whole command.

- `length_callWarnings`, `length_flatMap_callWarnings`: the account of a step and of a walk.
- `length_warnings_knownStatements`: the account of a command that goes through.
- `RefusedAfter`, `warnings_of_refused`: how far a refused command came.
- `lower_account`: both together, about the code and the messages.
-/

namespace SuiteShift
namespace Lowering

open Rule (CommandRule)

/-- The first argument is a reference to an alias. -/
def firstIsAlias : List Value → Bool
  | .string text :: _ => text.toList.head? == some '@'
  | _ => false

/-- The call is read as a condition: it states one, or stands alone on the address or title. -/
def isCondition (command : Command) (call : Call) : Bool :=
  isAssertion call || (isPageQuery command.name && command.calls.length == 1)

/-- The number of dropped calls; a base without a rule is not looked into. -/
def droppedCalls (command : Command) : Nat :=
  if (CommandRule.find? command.name).isSome then
    command.calls.countP fun call => call.method == "as" && !isCondition command call
  else 0

/-- The number of partial matches of the address or title. -/
def partialMatches (command : Command) : Nat :=
  command.calls.countP fun call =>
    isPageQuery command.name && isCondition command call && isPartialMatch call

/-! ### The base -/

theorem isSome_aliasOf?
    (text : String) :
    (Rule.aliasOf? text).isSome = (text.toList.head? == some '@') := by
  unfold Rule.aliasOf?
  split
  · next name h =>
      simp [h]
  · next h =>
      cases hlist : text.toList with
      | nil =>
          rfl
      | cons c cs =>
          have hne : c ≠ '@' := by
            rintro rfl
            exact h cs hlist
          simp [hne]

theorem length_readWarnings
    (command : Command) :
    (readWarnings command).length =
      (command.name == "get" && firstIsAlias command.args).toNat := by
  unfold readWarnings readAlias? firstIsAlias
  cases command.name == "get" with
  | false =>
      rfl
  | true =>
      rcases command.args with _ | ⟨value, rest⟩
      · rfl
      · cases value with
        | string text =>
            simp only [List.head?_cons, Option.bind_some, Value.asString?, ← isSome_aliasOf?]
            cases Rule.aliasOf? text <;> rfl
        | bool value =>
            rfl
        | number value =>
            rfl
        | raw source =>
            rfl

theorem length_waitWarnings
    (command : Command) :
    (waitWarnings command).length =
      (command.name == "wait" && firstIsAlias command.args).toNat := by
  unfold waitWarnings waitedAlias? firstIsAlias
  cases command.name == "wait" with
  | false =>
      rfl
  | true =>
      rcases command.args with _ | ⟨value, rest⟩
      · rfl
      · cases value with
        | string text =>
            simp only [List.head?_cons, Option.bind_some, Value.asString?, ← isSome_aliasOf?]
            cases Rule.aliasOf? text <;> rfl
        | bool value =>
            rfl
        | number value =>
            rfl
        | raw source =>
            rfl

/-- The base of a chain has no placeholder. -/
theorem countP_chainStart
    {command : Command}
    {lead : List Emitted}
    {base : String}
    (hknown : (CommandRule.find? command.name).isSome = true)
    (h : (chainStart command).result = .ok (lead, base)) :
    lead.countP Emitted.isPlaceholder = 0 := by
  rw [List.countP_eq_zero]
  intro statement hmem
  obtain ⟨text, suspends, -, rfl⟩ := mem_lead_of_chainStart hknown h hmem
  simp [Emitted.isPlaceholder]

/-! ### Calls -/

theorem ne_as_of_emits
    {call : Call}
    (h : emits call = true) :
    (call.method == "as" && !isAssertion call) = false := by
  rw [emits, Bool.or_eq_true] at h
  rcases h with h | h
  · simp [h]
  · have hne : (call.method == "as") = false := by
      rw [beq_eq_false_iff_ne]
      intro has
      rw [isActionOrUnknown, has] at h
      exact absurd h (by decide)
    simp [hne]

/-- The account of a step. -/
theorem length_callWarnings
    {command : Command}
    {locator : String}
    {call : Call}
    {applied : Applied}
    (h : (callOutcome command locator call).result = .ok applied) :
    (callWarnings command.name call).length =
      applied.emitted.countP Emitted.isPlaceholder +
        (call.method == "as" && !isAssertion call).toNat +
        (isPageQuery command.name && isAssertion call && isPartialMatch call).toNat := by
  rcases callOutcome_of_ok h with
    ⟨statement, rfl, hemits, -, hcount⟩ | ⟨narrow, narrowed, rfl, hemits, hnarrow, -, hnone⟩ |
      ⟨rfl, hemits, -, has, hone⟩
  · rw [hcount, ne_as_of_emits hemits]
    simp [Applied.emitted]
  · have hassert : isAssertion call = false := by
      exact (Bool.or_eq_false_iff.mp hemits).1
    have hne : (call.method == "as") = false := by
      rw [beq_eq_false_iff_ne]
      intro has
      have hrule : refinement? call = none := by
        rw [refinement?, has]
        rfl
      rw [hrule] at hnarrow
      cases hnarrow
    simp [hnone, hassert, hne, Applied.emitted]
  · have hassert : isAssertion call = false := by
      exact (Bool.or_eq_false_iff.mp hemits).1
    simp [hone, has, hassert, Applied.emitted]

/-- The account of a walk. -/
theorem length_flatMap_callWarnings
    {command : Command}
    {locator : String}
    {calls : List Call}
    {made : List Emitted}
    (h : (chainStatements command locator calls).result = .ok made) :
    (calls.flatMap (callWarnings command.name)).length =
      made.countP Emitted.isPlaceholder +
        calls.countP (fun call => call.method == "as" && !isAssertion call) +
        calls.countP (fun call =>
          isPageQuery command.name && isAssertion call && isPartialMatch call) := by
  induction calls generalizing locator made with
  | nil =>
      cases h
      rfl
  | cons call calls ih =>
      obtain ⟨applied, rest, happlied, hrest, rfl⟩ := chainStatements_cons_eq_ok.mp h
      have hstep := length_callWarnings happlied
      have hwalk := ih hrest
      have hcons : ∀ p : Call → Bool,
          (call :: calls).countP p = (p call).toNat + calls.countP p := by
        intro p
        rw [List.countP_cons]
        cases p call <;> simp [Nat.add_comm]
      rw [List.flatMap_cons, List.length_append, List.countP_append, hcons, hcons]
      omega

/-! ### Commands that go through -/

theorem isCondition_of_takesList
    {command : Command}
    (h : TakesList command) :
    isCondition command = isAssertion := by
  have hlone : (isPageQuery command.name && command.calls.length == 1) = false := by
    rcases h.2 with ⟨hfirst, -⟩ | hmany
    · have hquery : isPageQuery command.name = false := by
        rw [Rule.mustRunFirst, List.contains_iff_mem] at hfirst
        simp only [List.mem_cons, List.not_mem_nil, or_false] at hfirst
        rcases hfirst with hname | hname | hname <;>
        · rw [hname]
          rfl
      rw [hquery, Bool.false_and]
    · have hlength : (command.calls.length == 1) = false := by
        rw [beq_eq_false_iff_ne]
        omega
      rw [hlength, Bool.and_false]
  funext call
  rw [isCondition, hlone, Bool.or_false]

/-- The account of a chain with several statements. -/
theorem length_warnings_statementList
    {command : Command}
    {made : List Emitted}
    (hpath : TakesList command)
    (h : (statementList command).result = .ok made) :
    (warnings (statementList command).notes).length =
      made.countP Emitted.isPlaceholder + (waitWarnings command).length +
        droppedCalls command + partialMatches command := by
  rw [statementList_eq] at h ⊢
  rw [Outcome.result_bind_eq_ok] at h
  obtain ⟨⟨lead, base⟩, hstart, h⟩ := h
  rw [Outcome.result_bind_eq_ok] at h
  obtain ⟨rest, hrest, h⟩ := h
  cases h
  have hwalk := length_flatMap_callWarnings hrest
  rw [Outcome.notes_bind_of_ok _ hstart, Outcome.notes_bind_of_ok _ hrest, Outcome.notes_ok,
    List.append_nil, warnings_append, warnings_chainStart hpath.1,
    warnings_chainStatements_of_ok hrest, List.length_append, hwalk, List.countP_append,
    countP_chainStart hpath.1 hstart, droppedCalls, if_pos hpath.1, partialMatches,
    isCondition_of_takesList hpath]
  omega

/-- The account of a lone condition. -/
theorem length_warnings_lone_condition
    {command : Command}
    {call : Call}
    {made : List Emitted}
    (hknown : (CommandRule.find? command.name).isSome = true)
    (hcalls : command.calls = [call])
    (hfirst : Rule.mustRunFirst command.name = false)
    (hcondition : isCondition command call = true)
    (h : (knownStatements command).result = .ok made) :
    (warnings (knownStatements command).notes).length =
      made.countP Emitted.isPlaceholder + (waitWarnings command).length +
        droppedCalls command + partialMatches command := by
  have hread : isAssertion call = true ∨ isPageQuery command.name = true := by
    rw [isCondition, hcalls] at hcondition
    simpa using hcondition
  rw [knownStatements_of_lone_condition hcalls hfirst hread] at h ⊢
  rw [Outcome.result_bind_eq_ok] at h
  obtain ⟨⟨lead, base⟩, hstart, h⟩ := h
  rw [Outcome.result_bind_eq_ok] at h
  obtain ⟨statement, hstatement, h⟩ := h
  cases h
  have hstep := conditionStep_assertionStatement command base call
  rw [Outcome.notes_bind_of_ok _ hstart, Outcome.notes_bind_of_ok _ hstatement,
    Outcome.notes_ok, List.append_nil, warnings_append, warnings_chainStart hknown,
    hstep.warnings_of_ok _ hstatement, List.length_append, hstep.count _ hstatement,
    droppedCalls, if_pos hknown, partialMatches, hcalls]
  simp only [List.countP_singleton, hcondition, Bool.not_true, Bool.and_false, Bool.and_true,
    Bool.false_eq_true, ↓reduceIte]
  cases isPageQuery command.name && isPartialMatch call <;>
  · simp only [Bool.toNat_true, Bool.toNat_false, Bool.false_eq_true, ↓reduceIte]
    omega

/-- The account of any other lone call. -/
theorem length_warnings_lone_action
    {command : Command}
    {call : Call}
    {made : List Emitted}
    (hknown : (CommandRule.find? command.name).isSome = true)
    (hcalls : command.calls = [call])
    (hfirst : Rule.mustRunFirst command.name = false)
    (hcondition : isCondition command call = false)
    (h : (knownStatements command).result = .ok made) :
    (warnings (knownStatements command).notes).length =
      made.countP Emitted.isPlaceholder + (waitWarnings command).length +
        droppedCalls command + partialMatches command := by
  have hread : isAssertion call = false ∧ isPageQuery command.name = false := by
    rw [isCondition, hcalls] at hcondition
    simpa using hcondition
  rw [knownStatements_of_lone_action hcalls hfirst hread.1 hread.2] at h ⊢
  rw [Outcome.result_bind_eq_ok] at h
  obtain ⟨⟨lead, base⟩, hstart, h⟩ := h
  rw [Outcome.result_bind_eq_ok] at h
  obtain ⟨applied, happlied, h⟩ := h
  cases h
  have halone : [applied.alone].countP Emitted.isPlaceholder =
      applied.emitted.countP Emitted.isPlaceholder := by
    cases applied <;> rfl
  rw [Outcome.notes_bind_of_ok _ hstart, Outcome.notes_bind_of_ok _ happlied,
    Outcome.notes_ok, List.append_nil, warnings_append, warnings_chainStart hknown,
    warnings_callOutcome_of_ok happlied, List.length_append, length_callWarnings happlied,
    halone, droppedCalls, if_pos hknown, partialMatches, hcalls]
  simp only [List.countP_singleton, hcondition, hread, Bool.not_false, Bool.and_true,
    Bool.and_false, Bool.false_and, Bool.false_eq_true, ↓reduceIte, Bool.toNat_false]
  cases call.method == "as" <;>
  · simp only [Bool.toNat_true, Bool.toNat_false, Bool.false_eq_true, ↓reduceIte]
    omega

/-- The account of a known command. -/
theorem length_warnings_knownStatements
    {command : Command}
    {made : List Emitted}
    (hknown : (CommandRule.find? command.name).isSome = true)
    (h : (knownStatements command).result = .ok made) :
    (warnings (knownStatements command).notes).length =
      made.countP Emitted.isPlaceholder + (waitWarnings command).length +
        droppedCalls command + partialMatches command := by
  rcases calls_cases hknown with hcalls | ⟨call, hcalls, hfirst⟩ | hpath
  · obtain ⟨rule, hrule⟩ := Option.isSome_iff_exists.mp hknown
    obtain ⟨hwarnings, hresult⟩ := commandStatement_of_known hrule
    rw [knownStatements, hcalls] at h ⊢
    rw [Outcome.result_bind_eq_ok] at h
    obtain ⟨statement, hstatement, h⟩ := h
    cases h
    rw [Outcome.notes_bind_of_ok _ hstatement, Outcome.notes_ok, List.append_nil, hwarnings]
    rw [hresult] at hstatement
    cases hcode : rule.code command.args with
    | error reason =>
        simp [hcode, Except.map] at hstatement
    | ok text =>
        simp only [hcode, Except.map, Except.ok.injEq] at hstatement
        simp [← hstatement, Emitted.isPlaceholder, droppedCalls, partialMatches, hcalls]
  · cases hcondition : isCondition command call with
    | true =>
        exact length_warnings_lone_condition hknown hcalls hfirst hcondition h
    | false =>
        exact length_warnings_lone_action hknown hcalls hfirst hcondition h
  · rw [knownStatements_of_takesList hpath] at h ⊢
    exact length_warnings_statementList hpath h

/-! ### Refused commands -/

/-- A rule refuses after some of the calls went through. -/
inductive RefusedAfter (command : Command) (reason : RuleError) : List Call → Prop where
  /-- The rule of a base without calls. -/
  | bare
      (hcalls : command.calls = [])
      (h : (commandStatement command).result = .error reason) :
      RefusedAfter command reason []
  /-- The rule of a base with calls. -/
  | base
      (hcalls : command.calls ≠ [])
      (h : (chainStart command).result = .error reason) :
      RefusedAfter command reason []
  /-- A lone call that is read as a condition on the address or title. -/
  | condition
      {lead : List Emitted}
      {locator : String}
      {call : Call}
      (hcalls : command.calls = [call])
      (hquery : isPageQuery command.name = true)
      (hstart : (chainStart command).result = .ok (lead, locator))
      (h : (assertionStatement command locator call).result = .error reason) :
      RefusedAfter command reason []
  /-- Any other call, on the locator that the refinements before it lead to. -/
  | call
      {lead : List Emitted}
      {base locator : String}
      {before after : List Call}
      {failing : Call}
      (hcalls : command.calls = before ++ failing :: after)
      (hstart : (chainStart command).result = .ok (lead, base))
      (hlocator : locatorAfter base before = .ok locator)
      (h : (callOutcome command locator failing).result = .error reason) :
      RefusedAfter command reason before

/-- What is said about the base and some of the calls. -/
def warningsUpTo (command : Command) (before : List Call) : List Diagnostic :=
  waitWarnings command ++ before.flatMap (callWarnings command.name)

theorem warnings_statementList_of_refused
    {command : Command}
    {reason : RuleError}
    (hpath : TakesList command)
    (h : (statementList command).result = .error reason) :
    ∃ before,
      RefusedAfter command reason before ∧
      warnings (statementList command).notes = warningsUpTo command before := by
  have hcalls : command.calls ≠ [] := by
    rintro hnil
    rcases hpath.2 with ⟨-, hne⟩ | hmany
    · exact hne hnil
    · simp [hnil] at hmany
  rw [statementList_eq] at h ⊢
  rw [Outcome.result_bind_eq_error] at h
  rcases h with h | ⟨⟨lead, base⟩, hstart, h⟩
  · refine ⟨[], .base hcalls h, ?_⟩
    rw [Outcome.notes_bind_of_error _ h, warnings_chainStart hpath.1, warningsUpTo]
    simp
  · rw [Outcome.result_bind_eq_error] at h
    rcases h with h | ⟨_, -, h⟩
    · obtain ⟨before, failing, after, locator, hsplit, hlocator, hfailing, hwarnings⟩ :=
        chainStatements_of_error h
      refine ⟨before, .call hsplit hstart hlocator hfailing, ?_⟩
      rw [Outcome.notes_bind_of_ok _ hstart, Outcome.notes_bind_of_error _ h, warnings_append,
        warnings_chainStart hpath.1, hwarnings, warningsUpTo]
    · cases h

/-- A lone call is one step on the base, however it is read, and says nothing when refused. -/
theorem exists_lone_step
    {command : Command}
    {call : Call}
    (hcalls : command.calls = [call])
    (hfirst : Rule.mustRunFirst command.name = false) :
    ∃ step : String → Outcome (List Emitted),
      knownStatements command = (chainStart command >>= fun start => step start.2) ∧
      ∀ lead locator reason, (chainStart command).result = .ok (lead, locator) →
        (step locator).result = .error reason →
          RefusedAfter command reason [] ∧ warnings (step locator).notes = [] := by
  by_cases hread : isAssertion call = true ∨ isPageQuery command.name = true
  · refine ⟨fun locator => assertionStatement command locator call >>= fun statement =>
      .ok [statement], knownStatements_of_lone_condition hcalls hfirst hread, ?_⟩
    intro lead locator reason hstart herror
    rw [Outcome.result_bind_eq_error] at herror
    rcases herror with herror | ⟨_, -, herror⟩
    · have hcondition := conditionStep_assertionStatement command locator call
      refine ⟨?_, ?_⟩
      · rcases hread with hassert | hquery
        · refine .call (hcalls.trans (List.nil_append _).symm) hstart rfl ?_
          rw [callOutcome, if_pos hassert, Outcome.bind_of_error _ herror]
        · exact .condition hcalls hquery hstart herror
      · rw [Outcome.notes_bind_of_error _ herror]
        exact hcondition.warnings_of_error _ herror
    · cases herror
  · rw [not_or, Bool.not_eq_true, Bool.not_eq_true] at hread
    refine ⟨fun locator => callOutcome command locator call >>= fun applied =>
      .ok [applied.alone], knownStatements_of_lone_action hcalls hfirst hread.1 hread.2, ?_⟩
    intro lead locator reason hstart herror
    rw [Outcome.result_bind_eq_error] at herror
    rcases herror with herror | ⟨_, -, herror⟩
    · refine ⟨.call (hcalls.trans (List.nil_append _).symm) hstart rfl herror, ?_⟩
      rw [Outcome.notes_bind_of_error _ herror, warnings_callOutcome_of_error herror]
    · cases herror

theorem warnings_lone_of_refused
    {command : Command}
    {call : Call}
    {reason : RuleError}
    (hknown : (CommandRule.find? command.name).isSome = true)
    (hcalls : command.calls = [call])
    (hfirst : Rule.mustRunFirst command.name = false)
    (h : (knownStatements command).result = .error reason) :
    RefusedAfter command reason [] ∧
    warnings (knownStatements command).notes = warningsUpTo command [] := by
  obtain ⟨step, hstatements, hstep⟩ := exists_lone_step hcalls hfirst
  rw [hstatements] at h ⊢
  rw [Outcome.result_bind_eq_error] at h
  rw [warningsUpTo, List.flatMap_nil, List.append_nil]
  rcases h with h | ⟨⟨lead, locator⟩, hstart, h⟩
  · refine ⟨.base (by simp [hcalls]) h, ?_⟩
    rw [Outcome.notes_bind_of_error _ h, warnings_chainStart hknown]
  · obtain ⟨hrefused, hwarnings⟩ := hstep lead locator reason hstart h
    refine ⟨hrefused, ?_⟩
    rw [Outcome.notes_bind_of_ok _ hstart, warnings_append, warnings_chainStart hknown,
      hwarnings, List.append_nil]

/-- A refused command says what is read off its base and the calls before the refusal. -/
theorem warnings_of_refused
    {command : Command}
    {reason : RuleError}
    (h : (statements command).result = .error reason) :
    ∃ before,
      RefusedAfter command reason before ∧
      warnings (statements command).notes =
        readWarnings command ++ warningsUpTo command before := by
  have hknown : (CommandRule.find? command.name).isSome = true := by
    rw [Option.isSome_iff_ne_none]
    intro hnone
    rw [statements_of_unknown hnone] at h
    cases h
  obtain ⟨hwarnings, hresult⟩ := statements_of_known hknown
  rw [hresult] at h
  rw [hwarnings]
  rcases calls_cases hknown with hcalls | ⟨call, hcalls, hfirst⟩ | hpath
  · obtain ⟨rule, hrule⟩ := Option.isSome_iff_exists.mp hknown
    rw [knownStatements, hcalls] at h ⊢
    rw [Outcome.result_bind_eq_error] at h
    rcases h with h | ⟨_, -, h⟩
    · refine ⟨[], .bare hcalls h, ?_⟩
      rw [Outcome.notes_bind_of_error _ h, (commandStatement_of_known hrule).1, warningsUpTo]
      simp
    · cases h
  · obtain ⟨hrefused, hsaid⟩ := warnings_lone_of_refused hknown hcalls hfirst h
    exact ⟨[], hrefused, by rw [hsaid]⟩
  · rw [knownStatements_of_takesList hpath] at h ⊢
    obtain ⟨before, hrefused, hsaid⟩ := warnings_statementList_of_refused hpath h
    exact ⟨before, hrefused, by rw [hsaid]⟩

/-! ### The whole account -/

/-- The number of warnings of a command that is not refused. -/
theorem length_warnings_statements
    {command : Command}
    {made : List Emitted}
    (h : (statements command).result = .ok made) :
    (warnings (statements command).notes).length =
      made.countP Emitted.isPlaceholder +
        (command.name == "get" && firstIsAlias command.args).toNat +
        (command.name == "wait" && firstIsAlias command.args).toNat +
        droppedCalls command +
        partialMatches command := by
  rw [← length_readWarnings, ← length_waitWarnings]
  cases hrule : CommandRule.find? command.name with
  | none =>
      have hunknown : ∀ name, (CommandRule.find? name).isSome = true →
          (command.name == name) = false := by
        intro name hname
        rw [beq_eq_false_iff_ne]
        rintro rfl
        simp [hrule] at hname
      have hquery : isPageQuery command.name = false := by
        rw [isPageQuery, hunknown "url" (by decide), hunknown "title" (by decide)]
        rfl
      rw [statements_of_unknown hrule] at h ⊢
      cases h
      rw [readWarnings, readAlias?, hunknown "get" (by decide), waitWarnings,
        hunknown "wait" (by decide), droppedCalls, hrule, partialMatches, hquery]
      simp [Emitted.isPlaceholder]
  | some rule =>
      have hknown : (CommandRule.find? command.name).isSome = true := by
        rw [hrule]
        rfl
      obtain ⟨hwarnings, hresult⟩ := statements_of_known hknown
      rw [hresult] at h
      rw [hwarnings, List.length_append, length_warnings_knownStatements hknown h]
      omega

theorem lower_of_ok
    {command : Command}
    {made : List Emitted}
    (h : (statements command).result = .ok made) :
    command.lower.code = joinStatements made ∧
    command.lower.diagnostics =
      (warnings (statements command).notes).map Diagnostic.message := by
  rw [Command.lower, finish, h]
  exact ⟨rfl, Context.diagnostics_ofNotes _⟩

theorem lower_of_error
    {command : Command}
    {reason : RuleError}
    (h : (statements command).result = .error reason) :
    command.lower.code = "// TODO: Convert " ++ Literal.oneLine command.source ∧
    command.lower.suspends = false ∧
    command.lower.diagnostics =
      (warnings (statements command).notes).map Diagnostic.message ++
        ["Could not convert " ++ command.source ++ ": " ++ reason.message] := by
  rw [Command.lower, finish, h]
  refine ⟨Emitted.placeholderText_eq _, rfl, ?_⟩
  dsimp only
  rw [Context.diagnostics_ofNotes, warnings_append, List.map_append]
  rfl

/-- The messages of a command are accounted for. If no rule refuses, there is one for each
placeholder, for an alias that the base reads or waits for, for each dropped call and for each
partial match of the address or title. If a rule refuses, only a reminder of the whole command
is left, and its message follows those about what came before the refusal. -/
theorem lower_account
    (command : Command) :
    (∀ made, (statements command).result = .ok made →
      command.lower.code = joinStatements made ∧
      command.lower.diagnostics.length =
        made.countP Emitted.isPlaceholder +
          (command.name == "get" && firstIsAlias command.args).toNat +
          (command.name == "wait" && firstIsAlias command.args).toNat +
          droppedCalls command +
          partialMatches command) ∧
    (∀ reason, (statements command).result = .error reason →
      command.lower.code = "// TODO: Convert " ++ Literal.oneLine command.source ∧
      '\n' ∉ command.lower.code.toList ∧
      command.lower.suspends = false ∧
      ∃ before,
        RefusedAfter command reason before ∧
        command.lower.diagnostics =
          (readWarnings command ++ waitWarnings command ++
            before.flatMap (callWarnings command.name)).map Diagnostic.message ++
          ["Could not convert " ++ command.source ++ ": " ++ reason.message]) ∧
    (command.lower.diagnostics = [] →
      ∃ made,
        (statements command).result = .ok made ∧
        ∀ statement ∈ made, statement.isPlaceholder = false) := by
  cases hresult : (statements command).result with
  | ok made =>
      obtain ⟨hcode, hdiagnostics⟩ := lower_of_ok hresult
      have hcount := length_warnings_statements hresult
      refine ⟨?_, ?_, ?_⟩
      · rintro _ ⟨⟩
        rw [hdiagnostics, List.length_map]
        exact ⟨hcode, hcount⟩
      · rintro _ ⟨⟩
      · intro hnone
        rw [hdiagnostics, List.map_eq_nil_iff] at hnone
        rw [hnone, List.length_nil] at hcount
        have hzero : made.countP Emitted.isPlaceholder = 0 := by
          omega
        refine ⟨made, rfl, ?_⟩
        simpa [List.countP_eq_zero] using hzero
  | error reason =>
      obtain ⟨hcode, hsuspends, hdiagnostics⟩ := lower_of_error hresult
      obtain ⟨before, hrefused, hwarnings⟩ := warnings_of_refused hresult
      refine ⟨?_, ?_, ?_⟩
      · rintro _ ⟨⟩
      · rintro _ ⟨⟩
        refine ⟨hcode, ?_, hsuspends, before, hrefused, ?_⟩
        · rw [hcode, String.toList_append, List.mem_append]
          rintro (h | h)
          · exact absurd h (by decide)
          · exact Literal.not_mem_oneLine _ h
        · rw [hdiagnostics, hwarnings, warningsUpTo, List.append_assoc]
      · intro hnone
        rw [hdiagnostics] at hnone
        exact absurd hnone (by simp)

/-- An alias is read, a method is unknown, and a call is dropped. -/
theorem lower_account_three_messages :
    (Command.lower ⟨"get", [.string "@user"], [⟨"shake", []⟩, ⟨"as", [.string "u"]⟩]⟩
      ).diagnostics.length = 3 := by
  have hmade : (statements
      ⟨"get", [.string "@user"], [⟨"shake", []⟩, ⟨"as", [.string "u"]⟩]⟩).result =
        .ok [.placeholder "user.shake()"] := by
    rfl
  exact ((lower_account _).1 _ hmade).2

end Lowering
end SuiteShift
