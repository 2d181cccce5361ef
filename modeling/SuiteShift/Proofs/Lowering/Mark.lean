import SuiteShift.Proofs.Lowering.Placeholder
import SuiteShift.Proofs.Rule.CallMark

/-!
# Where the mark of a placeholder comes from

The mark is searched for in the text of a whole command. It is there if a placeholder is left;
otherwise an argument has brought it in.

- `hasTodo_iff`: what the search finds, for any command.
- `Emitted.IsClean`, `Applied.IsClean`: code without the mark; `isClean_callOutcome` is one step of
  a chain and `isClean_chainStatements` the whole chain.
- `hasTodo_of_isUnmarked`: for arguments without the mark, the search finds placeholders and
  nothing else.
-/

namespace SuiteShift

/-- No argument of the call brings in a mark. -/
def Call.isUnmarked (call : Call) : Bool :=
  call.args.all Value.isUnmarked

/-- No argument of the command or of a chained call brings in a mark. -/
def Command.isUnmarked (command : Command) : Bool :=
  command.args.all Value.isUnmarked && command.calls.all Call.isUnmarked

namespace Lowering

open Rule (ChainRule AssertionRule CommandRule)
open Failure (Yields yields_ok yields_error yields_bind)
open Text (Unmarked unmarked_append_opening unmarked_append_closing unmarked_append_divider)

/-! ### What the search finds -/

/-- All statements are searched, each for itself. -/
theorem unmarked_joinStatements_iff
    {made : List Emitted} :
    Unmarked (joinStatements made) ↔ ∀ statement ∈ made, Unmarked statement.text := by
  have hrender : ∀ statement : Emitted,
      Unmarked statement.render ↔ Unmarked statement.text := by
    intro statement
    unfold Emitted.render
    split_ifs
    · rw [unmarked_append_opening (by decide)]
    · rfl
  rw [joinStatements, Text.unmarked_intercalate (by decide), List.forall_mem_map]
  simp only [List.mem_filter, and_imp, hrender]
  refine ⟨fun h statement hmem => ?_, fun h statement hmem _ => h statement hmem⟩
  -- A statement that is left out has no text and so no mark.
  cases hempty : statement.isEmpty with
  | false =>
      exact h statement hmem (by rw [hempty]; rfl)
  | true =>
      rw [Emitted.isEmpty, beq_iff_eq] at hempty
      rw [hempty]
      exact Text.unmarked_empty

theorem not_unmarked_placeholder
    (what : String) :
    ¬ Unmarked (Emitted.placeholderText what) := by
  have htext : Emitted.placeholderText what =
      "" ++ "// TODO" ++ (": Convert " ++ Literal.oneLine what) := by
    rw [Emitted.placeholderText_eq, ← String.append_assoc]
    rfl
  rw [Unmarked, htext, occursIn_between]
  exact Bool.false_ne_true.symm

/-- The search finds placeholders and what looks like one in code. -/
theorem hasTodo_iff
    (command : Command) :
    command.lower.hasTodo = true ↔
      leavesPlaceholder command = true ∨
      ∃ made text suspends,
        (statements command).result = .ok made ∧
        .code text suspends ∈ made ∧
        occursIn "// TODO" text = true := by
  have hsearch : command.lower.hasTodo = true ↔ ¬ Unmarked command.lower.code := by
    rw [Unmarked, Bool.not_eq_false]
    rfl
  rw [hsearch]
  unfold leavesPlaceholder
  cases hresult : (statements command).result with
  | error reason =>
      rw [(lower_of_error hresult).1, ← Emitted.placeholderText_eq]
      simpa using not_unmarked_placeholder command.source
  | ok made =>
      rw [(lower_of_ok hresult).1, unmarked_joinStatements_iff]
      constructor
      · intro h
        push Not at h
        obtain ⟨statement, hmem, hmark⟩ := h
        cases statement with
        | placeholder what =>
            exact .inl (List.any_eq_true.mpr ⟨_, hmem, rfl⟩)
        | code text suspends =>
            rw [Emitted.text, Unmarked, Bool.not_eq_false] at hmark
            exact .inr ⟨made, text, suspends, rfl, hmem, hmark⟩
      · rintro (hplaceholder | ⟨_, text, suspends, ⟨⟩, hmem, hmark⟩) hall
        · obtain ⟨statement, hmem, hstatement⟩ := List.any_eq_true.mp hplaceholder
          cases statement with
          | placeholder what =>
              have hunmarked := hall _ hmem
              rw [Emitted.text] at hunmarked
              exact not_unmarked_placeholder what hunmarked
          | code text suspends =>
              cases hstatement
        · have hunmarked := hall _ hmem
          rw [Emitted.text, Unmarked, hmark] at hunmarked
          cases hunmarked

/-! ### Steps -/

/-- Code has no mark; a placeholder has one. -/
def Emitted.IsClean : Emitted → Prop
  | .code text _ => Unmarked text
  | .placeholder _ => True

/-- What a call comes to has no mark, placeholders apart. -/
def Applied.IsClean : Applied → Prop
  | .statement made => made.IsClean
  | .refined narrowed => Unmarked narrowed
  | .dropped => True

theorem yields_result_bind
    {α β : Type}
    {P : β → Prop}
    {step : Outcome α}
    {next : α → Outcome β}
    (h : ∀ value, step.result = .ok value → Yields P (next value).result) :
    Yields P (step >>= next).result := by
  intro result hresult
  obtain ⟨value, hvalue, hnext⟩ := Outcome.result_bind_eq_ok.mp hresult
  exact h value hvalue result hnext

theorem unmarked_baseLocator
    {command : Command}
    (hargs : ∀ value ∈ command.args, value.isUnmarked = true) :
    Yields Unmarked (baseLocator command).result := by
  unfold baseLocator
  split_ifs
  · exact Rule.unmarked_selectorLocator hargs
  · exact Rule.unmarked_textLocator hargs
  · exact yields_ok (by decide)
  · split
    · next rule hrule =>
        refine yields_result_bind fun _ _ => ?_
        exact CommandRule.unmarked_code hargs (List.mem_of_find?_eq_some hrule)
    · exact yields_ok (by decide)

theorem isClean_commandStatement
    {command : Command}
    {rule : CommandRule}
    (hargs : ∀ value ∈ command.args, value.isUnmarked = true)
    (hrule : CommandRule.find? command.name = some rule) :
    Yields Emitted.IsClean (commandStatement command).result := by
  intro statement hstatement
  rw [(commandStatement_of_known hrule).2, Failure.map_eq_ok] at hstatement
  obtain ⟨text, htext, rfl⟩ := hstatement
  exact CommandRule.unmarked_code hargs (List.mem_of_find?_eq_some hrule) text htext

/-- The code of a condition, if there is any, has no mark. -/
def CodeIsClean (code : Option String) : Prop :=
  ∀ text, code = some text → Unmarked text

theorem isClean_pageAssertion
    {matcher : String}
    {extra : List Value}
    (hmatcher : Unmarked matcher)
    (hextra : ∀ value ∈ extra, value.isUnmarked = true)
    (subject key : String) :
    Yields CodeIsClean (pageAssertion matcher subject key extra).result := by
  cases extra with
  | nil =>
      rw [pageAssertion_nil]
      exact yields_error _
  | cons expected extra =>
      have hexpected := hextra expected List.mem_cons_self
      have hcall : ∀ subjectCall inside, Unmarked subjectCall → Unmarked inside →
          Unmarked (subjectCall ++ "." ++ matcher ++ "(" ++ inside ++ ")") := by
        intro subjectCall inside hsubject hinside
        simp (disch := decide) only [unmarked_append_closing, unmarked_append_divider, hsubject,
          hmatcher, hinside, and_self]
      have hcode := Value.unmarked_code hexpected
      unfold pageAssertion
      -- The negation shows in the subject alone.
      cases Text.stripStart "not.".toList key.toList <;>
      · simp only [Outcome.ok_bind, Bool.false_eq_true, ↓reduceIte]
        split_ifs
        · refine yields_result_bind fun _ _ => yields_ok ?_
          rintro _ ⟨⟩
          refine hcall _ _ (by decide) ?_
          split
          · exact Rule.unmarked_pattern (by decide) (by decide) _
          · exact Rule.unmarked_enclosed (by decide) (by decide) hcode
        · refine yields_ok ?_
          rintro _ ⟨⟩
          exact hcall _ _ (by decide) hcode
        · refine yields_result_bind fun _ _ => yields_ok ?_
          rintro _ ⟨⟩

theorem isClean_locatorAssertion
    {locator : String}
    {extra : List Value}
    (hlocator : Unmarked locator)
    (hextra : ∀ value ∈ extra, value.isUnmarked = true)
    (key : String) :
    Yields CodeIsClean (locatorAssertion locator key extra).result := by
  unfold locatorAssertion
  split
  · next rule hrule =>
      have hmem : rule ∈ Rule.assertionRules := List.mem_of_find?_eq_some hrule
      split
      · next matcher hbody =>
          have hmatcher := AssertionRule.unmarked_template hmem hbody
          refine yields_ok ?_
          rintro _ ⟨⟩
          simp (disch := decide) only [unmarked_append_closing, unmarked_append_divider,
            unmarked_append_opening, hlocator, hmatcher, Value.unmarked_codeList hextra, and_self]
      · next apply hbody =>
          refine yields_result_bind fun text htext => yields_ok ?_
          rintro _ ⟨⟩
          exact AssertionRule.unmarked_transform hlocator hextra hmem hbody text htext
  · refine yields_result_bind fun _ _ => yields_ok ?_
    rintro _ ⟨⟩

theorem isClean_assertionStatement
    {command : Command}
    {locator : String}
    {call : Call}
    (hlocator : Unmarked locator)
    (hcall : call.isUnmarked = true) :
    Yields Emitted.IsClean (assertionStatement command locator call).result := by
  obtain ⟨method, args⟩ := call
  have hargs : ∀ value ∈ args, value.isUnmarked = true := List.all_eq_true.mp hcall
  have hcallback : ∀ source : String,
      Yields Emitted.IsClean (do
        .warn (.callbackAssertion command.name)
        .ok (.placeholder source) : Outcome Emitted).result := by
    intro source
    exact yields_result_bind fun _ _ => yields_ok trivial
  rcases args with _ | ⟨value, extra⟩
  · exact hcallback _
  · cases value with
    | string key =>
        have hextra : ∀ value ∈ extra, value.isUnmarked = true := by
          exact fun value hvalue => hargs value (List.mem_cons_of_mem _ hvalue)
        rw [assertionStatement_string]
        refine yields_result_bind fun code hcode => yields_ok ?_
        have hclean : CodeIsClean code := by
          split_ifs at hcode
          · exact isClean_pageAssertion (by decide) hextra _ _ _ hcode
          · exact isClean_pageAssertion (by decide) hextra _ _ _ hcode
          · exact isClean_locatorAssertion hlocator hextra _ _ hcode
        cases code with
        | none =>
            trivial
        | some text =>
            exact hclean text rfl
    | bool value =>
        exact hcallback _
    | number value =>
        exact hcallback _
    | raw source =>
        exact hcallback _

theorem isClean_applyCall
    {locator : String}
    {call : Call}
    (hlocator : Unmarked locator)
    (hcall : call.isUnmarked = true) :
    Yields Applied.IsClean (applyCall locator call).result := by
  have hargs : ∀ value ∈ call.args, value.isUnmarked = true := List.all_eq_true.mp hcall
  unfold applyCall
  split
  · exact yields_result_bind fun _ _ => yields_ok trivial
  · next rule hrule =>
      have happly := ChainRule.unmarked_apply hlocator hargs (List.mem_of_find?_eq_some hrule)
      split
      · exact yields_result_bind fun text htext => yields_ok (happly text htext)
      · exact yields_result_bind fun narrowed hnarrowed => yields_ok (happly narrowed hnarrowed)
      · exact yields_result_bind fun _ _ => yields_ok trivial

/-- One call on a clean locator. -/
theorem isClean_callOutcome
    {command : Command}
    {locator : String}
    {call : Call}
    (hlocator : Unmarked locator)
    (hcall : call.isUnmarked = true) :
    Yields Applied.IsClean (callOutcome command locator call).result := by
  unfold callOutcome
  split_ifs
  · refine yields_result_bind fun statement hstatement => yields_ok ?_
    exact isClean_assertionStatement hlocator hcall statement hstatement
  · exact isClean_applyCall hlocator hcall

/-! ### Chains and whole commands -/

theorem unmarked_after
    {locator : String}
    {applied : Applied}
    (hlocator : Unmarked locator)
    (h : applied.IsClean) :
    Unmarked (applied.after locator) := by
  cases applied with
  | statement made =>
      exact hlocator
  | refined narrowed =>
      exact h
  | dropped =>
      exact hlocator

/-- The calls of a chain on a clean locator, one after another. -/
theorem isClean_chainStatements
    {command : Command}
    {locator : String}
    {calls : List Call}
    (hlocator : Unmarked locator)
    (hcalls : ∀ call ∈ calls, call.isUnmarked = true) :
    Yields (fun made => ∀ statement ∈ made, statement.IsClean)
      (chainStatements command locator calls).result := by
  induction calls generalizing locator with
  | nil =>
      exact yields_ok (by simp)
  | cons call calls ih =>
      rw [List.forall_mem_cons] at hcalls
      rw [chainStatements_cons]
      refine yields_result_bind fun applied happlied => ?_
      have hclean := isClean_callOutcome hlocator hcalls.1 applied happlied
      refine yields_result_bind fun rest hrest => yields_ok ?_
      have htail := ih (unmarked_after hlocator hclean) hcalls.2 rest hrest
      intro statement hmem
      rcases List.mem_append.mp hmem with hmem | hmem
      · cases applied with
        | statement made =>
            rw [List.mem_singleton.mp hmem]
            exact hclean
        | refined narrowed =>
            cases hmem
        | dropped =>
            cases hmem
      · exact htail statement hmem

theorem isClean_chainStart
    {command : Command}
    {rule : CommandRule}
    (hargs : ∀ value ∈ command.args, value.isUnmarked = true)
    (hrule : CommandRule.find? command.name = some rule) :
    Yields (fun start => (∀ statement ∈ start.1, statement.IsClean) ∧ Unmarked start.2)
      (chainStart command).result := by
  have hpage : Unmarked "page" := by
    decide
  unfold chainStart
  split_ifs
  · refine yields_result_bind fun statement hstatement => yields_ok ⟨?_, hpage⟩
    rw [List.forall_mem_singleton]
    exact isClean_commandStatement hargs hrule statement hstatement
  · refine yields_result_bind fun base hbase => yields_ok ⟨by simp, ?_⟩
    exact unmarked_baseLocator hargs base hbase

theorem isClean_knownStatements
    {command : Command}
    {rule : CommandRule}
    (hargs : ∀ value ∈ command.args, value.isUnmarked = true)
    (hcalls : ∀ call ∈ command.calls, call.isUnmarked = true)
    (hrule : CommandRule.find? command.name = some rule) :
    Yields (fun made => ∀ statement ∈ made, statement.IsClean)
      (knownStatements command).result := by
  have hknown : (CommandRule.find? command.name).isSome = true := by
    rw [hrule]
    rfl
  have hstart := isClean_chainStart hargs hrule
  rcases calls_cases hknown with hnone | ⟨call, hlone, hfirst⟩ | hpath
  · rw [knownStatements, hnone]
    refine yields_result_bind fun statement hstatement => yields_ok ?_
    rw [List.forall_mem_singleton]
    exact isClean_commandStatement hargs hrule statement hstatement
  · have hcall : call.isUnmarked = true := hcalls call (by simp [hlone])
    by_cases hcondition : isAssertion call = true ∨ isPageQuery command.name = true
    · rw [knownStatements_of_lone_condition hlone hfirst hcondition]
      refine yields_result_bind fun start hbase => ?_
      refine yields_result_bind fun statement hstatement => yields_ok ?_
      rw [List.forall_mem_singleton]
      exact isClean_assertionStatement (hstart start hbase).2 hcall statement hstatement
    · rw [not_or, Bool.not_eq_true, Bool.not_eq_true] at hcondition
      rw [knownStatements_of_lone_action hlone hfirst hcondition.1 hcondition.2]
      refine yields_result_bind fun start hbase => ?_
      refine yields_result_bind fun applied happlied => yields_ok ?_
      have hclean := isClean_callOutcome (hstart start hbase).2 hcall applied happlied
      rw [List.forall_mem_singleton]
      cases applied with
      | statement made =>
          exact hclean
      | refined narrowed =>
          exact hclean
      | dropped =>
          exact Text.unmarked_empty
  · rw [knownStatements_of_takesList hpath, statementList_eq]
    refine yields_result_bind fun start hbase => ?_
    obtain ⟨hlead, hlocator⟩ := hstart start hbase
    refine yields_result_bind fun rest hrest => yields_ok ?_
    have htail := isClean_chainStatements hlocator hcalls rest hrest
    intro statement hmem
    exact (List.mem_append.mp hmem).elim (hlead statement) (htail statement)

/-- The search is exact for a command whose arguments have no mark. -/
theorem hasTodo_of_isUnmarked
    {command : Command}
    (h : command.isUnmarked = true) :
    command.lower.hasTodo = leavesPlaceholder command := by
  rw [Command.isUnmarked, Bool.and_eq_true, List.all_eq_true, List.all_eq_true] at h
  rw [Bool.eq_iff_iff, hasTodo_iff, or_iff_left_iff_imp]
  rintro ⟨made, text, suspends, hmade, hmem, hmark⟩
  cases hrule : CommandRule.find? command.name with
  | none =>
      rw [statements_of_unknown hrule] at hmade
      cases hmade
      simp at hmem
  | some rule =>
      have hknown : (CommandRule.find? command.name).isSome = true := by
        rw [hrule]
        rfl
      rw [(statements_of_known hknown).2] at hmade
      have hclean : Unmarked text :=
        isClean_knownStatements h.1 h.2 hrule made hmade _ hmem
      rw [Unmarked, hmark] at hclean
      cases hclean

end Lowering
end SuiteShift
