import SuiteShift.Proofs.Lowering.Outcome
import SuiteShift.Proofs.Rule.Code
import SuiteShift.Proofs.Text.Search

/-!
# The steps of a lowering

What each step of a lowering warns of, and what it comes to.

- The base: `warnings_baseLocator`, `commandStatement_of_known`.
- A condition: `conditionWarnings` is read off its key and the name of the base alone;
  `assertionStatement_of_ok`, `warnings_assertionStatement_of_error`.
- Any other call: `methodWarnings` is read off its method alone; `warnings_applyCall`,
  `applyCall_of_ok`.

A statement that a step gives is never empty, since rules write something.
-/

namespace SuiteShift
namespace Lowering

open Rule (ChainRule ChainKind AssertionRule CommandRule Writes)

namespace Emitted

theorem placeholderText_eq
    (what : String) :
    placeholderText what =
      "// TODO: Convert " ++ Literal.oneLine what := by
  rfl

theorem isEmpty_placeholder
    (what : String) :
    (placeholder what).isEmpty = false := by
  rw [isEmpty, text, placeholderText_eq, beq_eq_false_iff_ne]
  simp only [ne_eq, String.append_eq_empty_iff, String.reduceEq, false_and, not_false_eq_true]

theorem isEmpty_code
    {written : String}
    (suspends : Bool)
    (h : written ≠ "") :
    (code written suspends).isEmpty = false := by
  simp [isEmpty, text, h]

end Emitted

/-! ### The base of a chain -/

/-- What is said about a base that waits for an alias. -/
def waitWarnings (command : Command) : List Diagnostic :=
  if command.name == "wait" then (waitedAlias? command.args).toList.map .aliasWait else []

theorem warnings_baseLocator
    (command : Command) :
    warnings (baseLocator command).notes = [] := by
  unfold baseLocator
  split_ifs
  · rfl
  · rfl
  · rfl
  · split
    · simp
    · rfl

/-- The base call as a statement, with what is said about it. -/
theorem commandStatement_of_known
    {command : Command}
    {rule : CommandRule}
    (h : CommandRule.find? command.name = some rule) :
    warnings (commandStatement command).notes = waitWarnings command ∧
    (commandStatement command).result =
      (rule.code command.args).map fun text => .code text rule.suspends := by
  unfold commandStatement waitWarnings
  rw [h]
  cases hwait : command.name == "wait" with
  | false =>
      cases hcode : rule.code command.args <;>
        simp [hcode, Except.map]
  | true =>
      cases halias : waitedAlias? command.args <;>
        cases hcode : rule.code command.args <;>
          simp [hcode, Except.map]

/-! ### Calls that state a condition -/

/-- The key of a condition without its negation. -/
def positiveKey (key : String) : String :=
  match Text.stripStart "not.".toList key.toList with
  | some rest => String.ofList rest
  | none => key

/-- Keys of conditions that the address or title holds a text. -/
def partialKeys : List String :=
  ["include", "contain", "contains"]

/-- Keys of conditions that the address or title is a text. -/
def exactKeys : List String :=
  ["eq", "equal", "equals", "match"]

/-- What is said about a condition on the address or title. -/
def pageWarnings (subject key : String) : List Diagnostic :=
  if partialKeys.contains (positiveKey key) then [.partialPattern subject]
  else if exactKeys.contains (positiveKey key) then []
  else [.unsupportedAssertion subject (positiveKey key)]

/-- What is said about a condition on the base of a name. -/
def conditionWarnings (name : String) (call : Call) : List Diagnostic :=
  match call.args with
  | .string key :: _ =>
    if name == "url" then pageWarnings "URL" key
    else if name == "title" then pageWarnings "title" key
    else if (AssertionRule.find? key).isSome then []
    else [.unknownAssertion key]
  | _ => [.callbackAssertion name]

/-- A condition on the address or title needs a text to compare with. -/
theorem pageAssertion_nil
    (matcher subject key : String) :
    pageAssertion matcher subject key [] =
      ⟨[], .error (.missingArgument "should" 1)⟩ := by
  simp [pageAssertion]

/-- A condition on the address or title is read by its key; the negation shows in the text
alone. -/
theorem pageAssertion_cons
    (matcher subject key : String)
    (expected : Value)
    (extra : List Value) :
    ∃ first second : String,
      first ≠ "" ∧
      second ≠ "" ∧
      pageAssertion matcher subject key (expected :: extra) =
        if partialKeys.contains (positiveKey key) then
          ⟨[.warns (.partialPattern subject)], .ok (some first)⟩
        else if exactKeys.contains (positiveKey key) then .ok (some second)
        else
          ⟨[.warns (.unsupportedAssertion subject (positiveKey key))], .ok none⟩ := by
  unfold pageAssertion positiveKey
  cases Text.stripStart "not.".toList key.toList with
  | none =>
      simp only [Outcome.ok_bind, Outcome.warn_bind, Outcome.notes_ok, Outcome.result_ok]
      refine ⟨_, _, ?_, ?_, rfl⟩ <;>
        simp only [ne_eq, String.append_eq_empty_iff, String.reduceEq, and_false,
          not_false_eq_true]
  | some rest =>
      simp only [Outcome.ok_bind, Outcome.warn_bind, Outcome.notes_ok, Outcome.result_ok]
      refine ⟨_, _, ?_, ?_, rfl⟩ <;>
        simp only [ne_eq, String.append_eq_empty_iff, String.reduceEq, and_false,
          not_false_eq_true]

/-- A condition becomes a statement or, without code, a placeholder for the call. -/
def conditionStatement (call : Call) (code : Option String) : Emitted :=
  match code with
  | some text => .code text true
  | none => .placeholder call.source

theorem assertionStatement_string
    (command : Command)
    (locator method key : String)
    (extra : List Value) :
    assertionStatement command locator ⟨method, .string key :: extra⟩ =
      ((if command.name == "url" then pageAssertion "toHaveURL" "URL" key extra
        else if command.name == "title" then pageAssertion "toHaveTitle" "title" key extra
        else locatorAssertion locator key extra) >>= fun code =>
          .ok (conditionStatement ⟨method, .string key :: extra⟩ code)) := by
  have hnext : (fun code : Option String =>
        match code with
        | some text => Outcome.ok (Emitted.code text true)
        | none => Outcome.ok (Emitted.placeholder
            (Call.mk method (.string key :: extra)).source)) =
      fun code => .ok (conditionStatement ⟨method, .string key :: extra⟩ code) := by
    funext code
    cases code <;> rfl
  rw [← hnext]
  unfold assertionStatement
  simp only
  split_ifs <;> rfl

/-- The statement of a condition, with what is said about it: one warning for a placeholder, and
one for a partial match of the address or title. -/
structure ConditionStep
    (expected : List Diagnostic)
    (isPartial : Bool)
    (outcome : Outcome Emitted) : Prop where
  warnings_of_ok :
    ∀ statement, outcome.result = .ok statement →
      warnings outcome.notes = expected
  warnings_of_error :
    ∀ reason, outcome.result = .error reason →
      warnings outcome.notes = []
  nonempty :
    ∀ statement, outcome.result = .ok statement →
      statement.isEmpty = false
  count :
    ∀ statement, outcome.result = .ok statement →
      expected.length = [statement].countP Emitted.isPlaceholder + isPartial.toNat

theorem conditionStep_page
    (matcher subject key : String)
    (extra : List Value)
    (call : Call) :
    ConditionStep (pageWarnings subject key) (partialKeys.contains (positiveKey key))
      (pageAssertion matcher subject key extra >>= fun code =>
        .ok (conditionStatement call code)) := by
  cases extra with
  | nil =>
      rw [pageAssertion_nil]
      constructor <;> simp [Outcome.bind_of_error]
  | cons expected extra =>
      obtain ⟨first, second, hfirst, hsecond, heq⟩ :=
        pageAssertion_cons matcher subject key expected extra
      rw [heq]
      unfold pageWarnings
      split_ifs with hpartial hexact
      · rw [hpartial]
        constructor <;>
          simp [Outcome.bind_of_ok, conditionStatement, Emitted.isPlaceholder,
            Emitted.isEmpty_code, hfirst]
      · rw [Bool.not_eq_true] at hpartial
        rw [hpartial]
        constructor <;>
          simp [Outcome.bind_of_ok, conditionStatement, Emitted.isPlaceholder,
            Emitted.isEmpty_code, hsecond]
      · rw [Bool.not_eq_true] at hpartial
        rw [hpartial]
        constructor <;>
          simp [Outcome.bind_of_ok, conditionStatement, Emitted.isPlaceholder,
            Emitted.isEmpty_placeholder]

theorem conditionStep_locator
    (locator key : String)
    (extra : List Value)
    (call : Call) :
    ConditionStep
      (if (AssertionRule.find? key).isSome then [] else [.unknownAssertion key]) false
      (locatorAssertion locator key extra >>= fun code =>
        .ok (conditionStatement call code)) := by
  unfold locatorAssertion
  cases hrule : AssertionRule.find? key with
  | none =>
      constructor <;>
        simp [Outcome.bind_of_ok, conditionStatement, Emitted.isPlaceholder,
          Emitted.isEmpty_placeholder]
  | some rule =>
      have hmem : rule ∈ Rule.assertionRules := List.mem_of_find?_eq_some hrule
      cases hbody : rule.body with
      | template matcher =>
          constructor <;>
            simp [hbody, conditionStatement, Emitted.isPlaceholder, Emitted.isEmpty_code]
      | transform apply =>
          have hwrites := AssertionRule.writes_transform hmem hbody locator extra
          cases hcode : apply locator extra with
          | error reason =>
              constructor <;> simp [hbody, hcode, Outcome.bind_of_error]
          | ok text =>
              constructor <;>
                simp [hbody, hcode, conditionStatement, Emitted.isPlaceholder,
                  Emitted.isEmpty_code, hwrites text hcode]

/-- The name of a query for the address or title of the page. -/
def isPageQuery (name : String) : Bool :=
  name == "url" || name == "title"

/-- Keys of conditions that the address or title holds a text, or does not. -/
def partialForms : List String :=
  partialKeys ++ partialKeys.map ("not." ++ ·)

/-- The condition is that something holds a text, or does not. -/
def isPartialMatch (call : Call) : Bool :=
  match call.args with
  | .string key :: _ => partialForms.contains key
  | _ => false

/-- A key asks for a partial match with or without a negation before it. -/
theorem partialKeys_contains_positiveKey
    (key : String) :
    partialKeys.contains (positiveKey key) =
      partialForms.contains key := by
  unfold positiveKey partialForms
  rw [Bool.eq_iff_iff, List.contains_iff_mem, List.contains_iff_mem, List.mem_append,
    List.mem_map]
  cases hstrip : Text.stripStart "not.".toList key.toList with
  | none =>
      have hne : ¬ ∃ rest ∈ partialKeys, "not." ++ rest = key := by
        rintro ⟨rest, -, rfl⟩
        simp [Text.stripStart] at hstrip
      simp only [hne, or_false]
  | some rest =>
      have hkey : key = "not." ++ String.ofList rest := by
        rw [← String.toList_inj]
        simpa using Text.stripStart_eq_some_iff.mp hstrip
      -- No key is itself the negation of something.
      have hhead : ∀ text ∈ partialKeys, text.toList.head? ≠ some 'n' := by
        decide
      have hnot : key ∉ partialKeys := by
        rw [hkey]
        intro hmem
        exact hhead _ hmem (by simp)
      simp only [hnot, false_or]
      constructor
      · intro hmem
        exact ⟨_, hmem, hkey.symm⟩
      · rintro ⟨other, hmem, hother⟩
        rw [hkey, String.append_right_inj] at hother
        exact hother ▸ hmem

theorem conditionStep_callback
    (onPage : Bool)
    (name source : String) :
    ConditionStep [.callbackAssertion name] (onPage && false)
      (do
        .warn (.callbackAssertion name)
        .ok (.placeholder source)) := by
  rw [Bool.and_false]
  constructor <;>
    simp [Emitted.isPlaceholder, Emitted.isEmpty_placeholder]

/-- A condition on the base of a command. -/
theorem conditionStep_assertionStatement
    (command : Command)
    (locator : String)
    (call : Call) :
    ConditionStep (conditionWarnings command.name call)
      (isPageQuery command.name && isPartialMatch call)
      (assertionStatement command locator call) := by
  obtain ⟨method, args⟩ := call
  rcases args with _ | ⟨value, extra⟩
  · exact conditionStep_callback (isPageQuery command.name) command.name _
  · cases value with
    | string key =>
        rw [assertionStatement_string]
        unfold conditionWarnings isPartialMatch isPageQuery
        dsimp only
        rw [← partialKeys_contains_positiveKey]
        cases hurl : command.name == "url" with
        | true =>
            exact conditionStep_page "toHaveURL" "URL" key extra _
        | false =>
            cases htitle : command.name == "title" with
            | true =>
                exact conditionStep_page "toHaveTitle" "title" key extra _
            | false =>
                exact conditionStep_locator locator key extra _
    | bool value =>
        exact conditionStep_callback (isPageQuery command.name) command.name _
    | number value =>
        exact conditionStep_callback (isPageQuery command.name) command.name _
    | raw source =>
        exact conditionStep_callback (isPageQuery command.name) command.name _

/-! ### Other calls -/

/-- What is said about a call that states no condition. -/
def methodWarnings (call : Call) : List Diagnostic :=
  match ChainRule.find? call.method with
  | none => [.unknownMethod call.method]
  | some ⟨_, .drop reason⟩ => [.droppedCall reason]
  | some _ => []

/-- How a refinement narrows a locator. -/
def refinement? (call : Call) : Option (String → Rule.Code) :=
  match ChainRule.find? call.method with
  | some ⟨_, .refine apply⟩ => some fun locator => apply locator call.args
  | _ => none

/-- The call is an action, or its method is unknown. -/
def isActionOrUnknown (call : Call) : Bool :=
  match ChainRule.find? call.method with
  | none => true
  | some ⟨_, .action _ _⟩ => true
  | some _ => false

/-- Only one method is dropped. -/
theorem method_eq_of_drop
    {name method reason : String}
    (h : ChainRule.find? name = some ⟨method, .drop reason⟩) :
    name = "as" := by
  have hmem : ChainRule.mk method (.drop reason) ∈ Rule.chainRules :=
    List.mem_of_find?_eq_some h
  have hname : method = name := by
    unfold ChainRule.find? at h
    simpa using List.find?_some h
  have hall : ∀ rule ∈ Rule.chainRules, ∀ reason,
      rule.kind = .drop reason → rule.method = "as" := by
    simp only [Rule.chainRules, List.forall_mem_cons, Rule.actionTransform, Rule.actionTemplate,
      reduceCtorEq, false_implies, implies_true, List.not_mem_nil, and_true]
  rw [← hname]
  exact hall _ hmem reason rfl

theorem warnings_applyCall
    (locator : String)
    (call : Call) :
    warnings (applyCall locator call).notes = methodWarnings call := by
  unfold applyCall methodWarnings
  cases hrule : ChainRule.find? call.method with
  | none =>
      simp
  | some rule =>
      obtain ⟨method, kind⟩ := rule
      cases kind with
      | action body suspends =>
          cases hcode : (ChainRule.mk method (.action body suspends)).apply locator call.args <;>
            simp [hcode]
      | refine apply =>
          cases hcode : (ChainRule.mk method (.refine apply)).apply locator call.args <;>
            simp [hcode]
      | drop reason =>
          simp

/-- Nothing is said about a call that is refused. -/
theorem methodWarnings_of_error
    {locator : String}
    {call : Call}
    {reason : RuleError}
    (h : (applyCall locator call).result = .error reason) :
    methodWarnings call = [] := by
  unfold applyCall at h
  unfold methodWarnings
  cases hrule : ChainRule.find? call.method with
  | none =>
      simp [hrule] at h
  | some rule =>
      obtain ⟨method, kind⟩ := rule
      cases kind with
      | action body suspends =>
          rfl
      | refine apply =>
          rfl
      | drop reason =>
          simp [hrule] at h

/-- Everything that a call without a condition can come to: a statement of an action or for an
unknown method, a narrowed locator, or nothing. -/
theorem applyCall_of_ok
    {locator : String}
    {call : Call}
    {applied : Applied}
    (h : (applyCall locator call).result = .ok applied) :
    (∃ statement,
        applied = .statement statement ∧
        isActionOrUnknown call = true ∧
        statement.isEmpty = false ∧
        (methodWarnings call).length = [statement].countP Emitted.isPlaceholder) ∨
    (∃ narrow narrowed,
        applied = .refined narrowed ∧
        isActionOrUnknown call = false ∧
        refinement? call = some narrow ∧
        narrow locator = .ok narrowed ∧
        methodWarnings call = []) ∨
    (applied = .dropped ∧
        isActionOrUnknown call = false ∧
        refinement? call = none ∧
        call.method = "as" ∧
        (methodWarnings call).length = 1) := by
  unfold applyCall at h
  unfold methodWarnings refinement? isActionOrUnknown
  cases hrule : ChainRule.find? call.method with
  | none =>
      simp only [hrule, Outcome.warn_bind, Outcome.result_ok, Except.ok.injEq] at h
      subst h
      refine .inl ⟨_, rfl, ?_⟩
      simp [Emitted.isEmpty_placeholder, Emitted.isPlaceholder]
  | some rule =>
      have hmem : rule ∈ Rule.chainRules := List.mem_of_find?_eq_some hrule
      obtain ⟨method, kind⟩ := rule
      cases kind with
      | action body suspends =>
          have hwrites := ChainRule.writes_apply hmem rfl locator call.args
          simp only [hrule, Outcome.result_bind_eq_ok, Outcome.result_ofExcept, Outcome.result_ok,
            Except.ok.injEq] at h
          obtain ⟨text, htext, rfl⟩ := h
          refine .inl ⟨_, rfl, ?_⟩
          simp [Emitted.isEmpty_code _ (hwrites text htext), Emitted.isPlaceholder]
      | refine apply =>
          simp only [hrule, Outcome.result_bind_eq_ok, Outcome.result_ofExcept, Outcome.result_ok,
            Except.ok.injEq] at h
          obtain ⟨narrowed, hnarrowed, rfl⟩ := h
          exact .inr (.inl ⟨_, narrowed, rfl, rfl, rfl, hnarrowed, rfl⟩)
      | drop reason =>
          simp only [hrule, Outcome.warn_bind, Outcome.result_ok, Except.ok.injEq] at h
          exact .inr (.inr ⟨h.symm, rfl, rfl, method_eq_of_drop hrule, rfl⟩)

end Lowering
end SuiteShift
