import SuiteShift.Proofs.Lowering.ChainOrder
import SuiteShift.Proofs.Lowering.Placeholder
import SuiteShift.Proofs.Rule.Receiver
import SuiteShift.Proofs.Rule.Template

/-!
# What becomes of an effect on the page

A base whose code is awaited does something to the page. Its code is in the output when it runs
first, when it stands alone, when one of the calls makes a statement on it, or when it is narrowed
by the only call.

- `usesBase` is this condition, read off the command.
- `mentions_of_statement`, `extends_of_refined`: one step of a chain.
- `chainStatements_mention`, `chainStatements_pauses`: a whole chain.
- `effect_kept_or_reported`: the base is in the code or a placeholder is left; without a use of the
  base, only the pauses of the chain are left.
-/

namespace SuiteShift
namespace Lowering

open Rule (ChainRule AssertionRule CommandRule Extends)

/-- A call that pauses the page, whatever it is called on. -/
def isPause (call : Call) : Bool :=
  call.method == "wait"

/-- The code of a pause. -/
def pauseText (call : Call) : String :=
  "page.waitForTimeout(" ++ Value.codeList call.args ++ ")"

/-- The call makes a statement on what it is called on. -/
def usesLocator (call : Call) : Bool :=
  emits call && !isPause call

/-- The call narrows the locator. -/
def isRefinement (call : Call) : Bool :=
  (refinement? call).isSome

/-- The code of the base has a place in the code of the command. -/
def usesBase (command : Command) : Bool :=
  Rule.mustRunFirst command.name || command.calls.isEmpty || command.calls.any usesLocator ||
    (command.calls.length == 1 && command.calls.any isRefinement)

/-! ### One call -/

theorem callOutcome_of_isPause
    (command : Command)
    (locator : String)
    {call : Call}
    (h : isPause call = true) :
    (callOutcome command locator call).result =
      .ok (.statement (.code (pauseText call) true)) := by
  obtain ⟨method, args⟩ := call
  obtain rfl : method = "wait" := by
    simpa [isPause] using h
  have htext := Rule.renderTemplate_args "page.waitForTimeout(\x7bargs\x7d)"
    "page.waitForTimeout(" ")" (by decide) (by decide) (by decide) locator args
  unfold pauseText
  rw [← htext]
  rfl

theorem mentions_of_locatorAssertion
    {locator key text : String}
    {extra : List Value}
    (h : (locatorAssertion locator key extra).result = .ok (some text)) :
    occursIn locator text = true := by
  unfold locatorAssertion at h
  split at h
  · next rule hrule =>
      split at h
      · next matcher hbody =>
          cases h
          exact occursIn_append_right (occursIn_append_right (occursIn_append_right
            (occursIn_append_right (occursIn_between _ _ _) _) _) _) _
      · next apply hbody =>
          rw [Outcome.result_bind_eq_ok] at h
          obtain ⟨made, hmade, h⟩ := h
          cases h
          exact AssertionRule.mentions_transform (List.mem_of_find?_eq_some hrule) hbody
            locator extra _ hmade
  · simp at h

/-- A condition on a locator names it. -/
theorem mentions_of_assertionStatement
    {command : Command}
    {locator : String}
    {call : Call}
    {statement : Emitted}
    (hquery : isPageQuery command.name = false)
    (h : (assertionStatement command locator call).result = .ok statement) :
    statement.isPlaceholder = true ∨ occursIn locator statement.text = true := by
  obtain ⟨method, args⟩ := call
  rcases args with _ | ⟨value, extra⟩
  · cases h
    exact .inl rfl
  · cases value with
    | string key =>
        rw [isPageQuery, Bool.or_eq_false_iff] at hquery
        rw [assertionStatement_string, hquery.1, hquery.2, Outcome.result_bind_eq_ok] at h
        obtain ⟨code, hcode, h⟩ := h
        cases h
        simp only [Bool.false_eq_true, ↓reduceIte] at hcode
        cases code with
        | none =>
            exact .inl rfl
        | some text =>
            exact .inr (mentions_of_locatorAssertion hcode)
    | bool value =>
        cases h
        exact .inl rfl
    | number value =>
        cases h
        exact .inl rfl
    | raw source =>
        cases h
        exact .inl rfl

/-- The rule of an action or a refinement begins with the locator, unless it is a pause. -/
theorem extends_of_find?
    {locator text : String}
    {call : Call}
    {rule : ChainRule}
    (hpause : isPause call = false)
    (hrule : ChainRule.find? call.method = some rule)
    (hkind : ∀ reason, rule.kind ≠ .drop reason)
    (htext : rule.apply locator call.args = .ok text) :
    Extends locator text := by
  have hmem : rule ∈ Rule.chainRules := List.mem_of_find?_eq_some hrule
  have hmethod : rule.method = call.method := by
    unfold ChainRule.find? at hrule
    simpa using List.find?_some hrule
  refine ChainRule.extends_apply hmem ?_ ?_ locator call.args text htext
  · rw [hmethod]
    simpa [isPause] using hpause
  · intro has
    rw [← hmethod, has] at hrule
    cases hrule
    exact hkind _ rfl

/-- The statement of a call names the locator that the call works on. -/
theorem mentions_of_statement
    {command : Command}
    {locator : String}
    {call : Call}
    {statement : Emitted}
    (hquery : isPageQuery command.name = false)
    (hpause : isPause call = false)
    (h : (callOutcome command locator call).result = .ok (.statement statement)) :
    statement.isPlaceholder = true ∨ occursIn locator statement.text = true := by
  unfold callOutcome at h
  split_ifs at h with hassert
  · rw [Outcome.result_bind_eq_ok] at h
    obtain ⟨made, hmade, h⟩ := h
    cases h
    exact mentions_of_assertionStatement hquery hmade
  · unfold applyCall at h
    split at h
    · next hrule =>
        simp only [Outcome.warn_bind, Outcome.result_ok, Except.ok.injEq,
          Applied.statement.injEq] at h
        subst h
        exact .inl rfl
    · next rule hrule =>
        split at h
        · next body suspends hkind =>
            rw [Outcome.result_bind_eq_ok] at h
            obtain ⟨text, htext, h⟩ := h
            cases h
            refine .inr (extends_of_find? hpause hrule ?_ htext).occursIn
            simp [hkind]
        · simp [Outcome.result_bind_eq_ok] at h
        · simp at h

/-- A refinement goes on after the locator that it narrows. -/
theorem extends_of_refined
    {command : Command}
    {locator narrowed : String}
    {call : Call}
    (h : (callOutcome command locator call).result = .ok (.refined narrowed)) :
    Extends locator narrowed := by
  have hpause : isPause call = false := by
    rw [← Bool.not_eq_true]
    intro hpause
    rw [callOutcome_of_isPause command locator hpause] at h
    cases h
  unfold callOutcome at h
  split_ifs at h with hassert
  · simp [Outcome.result_bind_eq_ok] at h
  · unfold applyCall at h
    split at h
    · simp at h
    · next rule hrule =>
        split at h
        · simp [Outcome.result_bind_eq_ok] at h
        · next apply hkind =>
            rw [Outcome.result_bind_eq_ok] at h
            obtain ⟨text, htext, h⟩ := h
            cases h
            refine extends_of_find? hpause hrule ?_ htext
            simp [hkind]
        · simp at h

/-! ### Whole chains -/

/-- A chain with a call on the locator has a statement about it. -/
theorem chainStatements_mention
    {command : Command}
    {locator : String}
    {calls : List Call}
    {made : List Emitted}
    (hquery : isPageQuery command.name = false)
    (hcalls : calls.any usesLocator = true)
    (h : (chainStatements command locator calls).result = .ok made) :
    ∃ statement ∈ made,
      statement.isPlaceholder = true ∨ occursIn locator statement.text = true := by
  induction calls generalizing locator made with
  | nil =>
      cases hcalls
  | cons call calls ih =>
      obtain ⟨applied, rest, happlied, hrest, rfl⟩ := chainStatements_cons_eq_ok.mp h
      rw [List.any_cons, Bool.or_eq_true] at hcalls
      -- What holds of the calls after this one holds of its locator too.
      have hlater : ∀ next, applied.after locator = next →
          (∀ text, occursIn next text = true → occursIn locator text = true) →
          calls.any usesLocator = true →
          ∃ statement ∈ applied.emitted ++ rest,
            statement.isPlaceholder = true ∨ occursIn locator statement.text = true := by
        rintro next rfl hholds hany
        obtain ⟨statement, hmem, hstatement⟩ := ih hany hrest
        exact ⟨statement, List.mem_append_right _ hmem, hstatement.imp_right (hholds _)⟩
      rcases callOutcome_of_ok happlied with
        ⟨statement, rfl, -⟩ | ⟨_, narrowed, rfl, hemits, -⟩ | ⟨rfl, hemits, -⟩
      · rcases hcalls with huse | hany
        · simp only [usesLocator, Bool.and_eq_true, Bool.not_eq_true'] at huse
          exact ⟨statement, List.mem_append_left _ List.mem_cons_self,
            mentions_of_statement hquery huse.2 happlied⟩
        · exact hlater locator rfl (fun _ htext => htext) hany
      · have hany := hcalls.resolve_left (by simp [usesLocator, hemits])
        refine hlater narrowed rfl (fun text htext => ?_) hany
        exact occursIn_trans (extends_of_refined happlied).occursIn htext
      · have hany := hcalls.resolve_left (by simp [usesLocator, hemits])
        exact hlater locator rfl (fun _ htext => htext) hany

/-- A chain without a call on the locator leaves its pauses. -/
theorem chainStatements_pauses
    {command : Command}
    {locator : String}
    {calls : List Call}
    {made : List Emitted}
    (hcalls : calls.any usesLocator = false)
    (h : (chainStatements command locator calls).result = .ok made) :
    made = (calls.filter isPause).map fun call => .code (pauseText call) true := by
  induction calls generalizing locator made with
  | nil =>
      cases h
      rfl
  | cons call calls ih =>
      obtain ⟨applied, rest, happlied, hrest, rfl⟩ := chainStatements_cons_eq_ok.mp h
      rw [List.any_cons, Bool.or_eq_false_iff] at hcalls
      rw [ih hcalls.2 hrest]
      cases hpause : isPause call with
      | true =>
          rw [callOutcome_of_isPause command locator hpause] at happlied
          cases happlied
          rw [List.filter_cons_of_pos hpause]
          rfl
      | false =>
          rw [List.filter_cons_of_neg (by simp [hpause])]
          rcases callOutcome_of_ok happlied with
            ⟨_, rfl, hemits, -⟩ | ⟨_, _, rfl, -⟩ | ⟨rfl, -⟩
          · simp [usesLocator, hemits, hpause] at hcalls
          · rfl
          · rfl

/-! ### Whole commands -/

section Suspending

variable {command : Command} {rule : CommandRule}

/-- The address of the page is not awaited, so only its title can be a query here. -/
theorem isPageQuery_of_suspends
    (hrule : CommandRule.find? command.name = some rule)
    (hsuspends : rule.suspends = true)
    (htitle : command.name ≠ "title") :
    isPageQuery command.name = false := by
  have hurl : command.name ≠ "url" := by
    intro hname
    rw [hname] at hrule
    cases hrule
    cases hsuspends
  simp [isPageQuery, hurl, htitle]

/-- Queries are not awaited, so the locator of any other base is its own code. -/
theorem result_baseLocator_of_suspends
    (hrule : CommandRule.find? command.name = some rule)
    (hsuspends : rule.suspends = true) :
    (baseLocator command).result = rule.code command.args := by
  have hname : ∀ name, (CommandRule.find? name).map (·.suspends) = some false →
      command.name ≠ name := by
    rintro name hquery rfl
    simp [hrule, hsuspends] at hquery
  unfold baseLocator
  simp only [hname "get" rfl, hname "contains" rfl, hname "url" rfl, beq_iff_eq, ↓reduceIte,
    hrule]
  simp

theorem code_of_chainStart
    {lead : List Emitted}
    {base : String}
    (hrule : CommandRule.find? command.name = some rule)
    (hsuspends : rule.suspends = true)
    (hfirst : Rule.mustRunFirst command.name = false)
    (h : (chainStart command).result = .ok (lead, base)) :
    lead = [] ∧ rule.code command.args = .ok base := by
  unfold chainStart at h
  rw [hfirst, if_neg Bool.false_ne_true, Outcome.result_bind_eq_ok] at h
  obtain ⟨locator, hlocator, h⟩ := h
  rw [result_baseLocator_of_suspends hrule hsuspends] at hlocator
  cases h
  exact ⟨rfl, hlocator⟩

theorem code_of_commandStatement
    {statement : Emitted}
    (hrule : CommandRule.find? command.name = some rule)
    (h : (commandStatement command).result = .ok statement) :
    ∃ text, rule.code command.args = .ok text ∧ statement = .code text rule.suspends := by
  rw [(commandStatement_of_known hrule).2, Failure.map_eq_ok] at h
  obtain ⟨text, htext, rfl⟩ := h
  exact ⟨text, htext, rfl⟩

end Suspending

/-- The text of the pauses of a chain. -/
def pausesText (calls : List Call) : String :=
  ";\n".intercalate ((calls.filter isPause).map fun call => "await " ++ pauseText call)

/-- The code holds the text of the base or, if nothing uses the base, only pauses. -/
def KeepsBase (command : Command) (base code : String) : Prop :=
  if usesBase command then occursIn base code = true else code = pausesText command.calls

theorem joinStatements_pauses
    (calls : List Call) :
    joinStatements ((calls.filter isPause).map fun call => .code (pauseText call) true) =
      pausesText calls := by
  rw [joinStatements_of_nonempty, List.map_map]
  · rfl
  · intro statement hmem
    obtain ⟨call, -, rfl⟩ := List.mem_map.mp hmem
    have htext : pauseText call ≠ "" := by
      unfold pauseText
      simp only [ne_eq, String.append_eq_empty_iff, String.reduceEq, and_false, not_false_eq_true]
    exact Emitted.isEmpty_code true htext

section Suspending

variable {command : Command} {rule : CommandRule} {made : List Emitted}

/-- A base without calls is a statement of its own. -/
theorem code_of_alone
    (hrule : CommandRule.find? command.name = some rule)
    (hcalls : command.calls = [])
    (hmade : (knownStatements command).result = .ok made) :
    ∃ text, rule.code command.args = .ok text ∧ made = [.code text rule.suspends] := by
  rw [knownStatements, hcalls, Outcome.result_bind_eq_ok] at hmade
  obtain ⟨statement, hstatement, hmade⟩ := hmade
  cases hmade
  obtain ⟨text, htext, rfl⟩ := code_of_commandStatement hrule hstatement
  exact ⟨text, htext, rfl⟩

theorem keepsBase_of_alone
    (hrule : CommandRule.find? command.name = some rule)
    (hcalls : command.calls = [])
    (hmade : (knownStatements command).result = .ok made) :
    ∃ base,
      rule.code command.args = .ok base ∧
      KeepsBase command base (joinStatements made) := by
  have hwrites := CommandRule.writes_code (List.mem_of_find?_eq_some hrule) command.args
  obtain ⟨base, hbase, rfl⟩ := code_of_alone hrule hcalls hmade
  refine ⟨base, hbase, ?_⟩
  have huses : usesBase command = true := by
    simp [usesBase, hcalls]
  rw [KeepsBase, if_pos huses]
  exact occursIn_joinStatements (hwrites _ hbase) List.mem_cons_self (occursIn_self base)

/-- A single call on a base is one step on the code of the base. -/
theorem alone_of_lone
    {call : Call}
    (hquery : isPageQuery command.name = false)
    (hcalls : command.calls = [call])
    (hfirst : Rule.mustRunFirst command.name = false)
    (hmade : (knownStatements command).result = .ok made) :
    ∃ lead base applied,
      (chainStart command).result = .ok (lead, base) ∧
      (callOutcome command base call).result = .ok applied ∧
      made = [applied.alone] := by
  cases hassert : isAssertion call with
  | true =>
      rw [knownStatements_of_lone_condition hcalls hfirst (.inl hassert),
        Outcome.result_bind_eq_ok] at hmade
      obtain ⟨⟨lead, base⟩, hstart, hmade⟩ := hmade
      rw [Outcome.result_bind_eq_ok] at hmade
      obtain ⟨statement, hstatement, hmade⟩ := hmade
      cases hmade
      refine ⟨lead, base, .statement statement, hstart, ?_, rfl⟩
      rw [callOutcome, if_pos hassert, Outcome.result_bind_eq_ok]
      exact ⟨statement, hstatement, rfl⟩
  | false =>
      rw [knownStatements_of_lone_action hcalls hfirst hassert hquery,
        Outcome.result_bind_eq_ok] at hmade
      obtain ⟨⟨lead, base⟩, hstart, hmade⟩ := hmade
      rw [Outcome.result_bind_eq_ok] at hmade
      obtain ⟨applied, happlied, hmade⟩ := hmade
      cases hmade
      exact ⟨lead, base, applied, hstart, happlied, rfl⟩

theorem keepsBase_of_lone
    {call : Call}
    (hrule : CommandRule.find? command.name = some rule)
    (hsuspends : rule.suspends = true)
    (hquery : isPageQuery command.name = false)
    (hcalls : command.calls = [call])
    (hfirst : Rule.mustRunFirst command.name = false)
    (hmade : (knownStatements command).result = .ok made)
    (hcode : ∀ statement ∈ made, statement.isPlaceholder = false) :
    ∃ base,
      rule.code command.args = .ok base ∧
      KeepsBase command base (joinStatements made) := by
  have hwrites := CommandRule.writes_code (List.mem_of_find?_eq_some hrule) command.args
  obtain ⟨lead, base, applied, hstart, happlied, rfl⟩ :=
    alone_of_lone hquery hcalls hfirst hmade
  obtain ⟨-, hbase⟩ := code_of_chainStart hrule hsuspends hfirst hstart
  refine ⟨base, hbase, ?_⟩
  have huses : usesBase command = (usesLocator call || isRefinement call) := by
    simp [usesBase, hfirst, hcalls]
  unfold KeepsBase
  rw [huses, hcalls]
  rcases callOutcome_of_ok happlied with
    ⟨statement, rfl, hemits, -⟩ | ⟨narrow, narrowed, rfl, hemits, hnarrow, -⟩ |
      ⟨rfl, hemits, hnone, -⟩
  · have hrefine : isRefinement call = false := by
      rw [isRefinement, refinement?_eq_none_of_emits hemits]
      rfl
    cases hpause : isPause call with
    | true =>
        rw [callOutcome_of_isPause command base hpause] at happlied
        cases happlied
        rw [usesLocator, hpause, hrefine, Bool.not_true, Bool.and_false, Bool.or_false,
          if_neg Bool.false_ne_true, ← joinStatements_pauses, List.filter_cons_of_pos hpause]
        rfl
    | false =>
        rw [usesLocator, hemits, hpause, Bool.not_false, Bool.and_true, Bool.true_or, if_pos rfl]
        have hmention := mentions_of_statement hquery hpause happlied
        rw [hcode statement List.mem_cons_self] at hmention
        exact occursIn_joinStatements (hwrites _ hbase) List.mem_cons_self
          (hmention.resolve_left Bool.false_ne_true)
  · have hrefine : isRefinement call = true := by
      rw [isRefinement, hnarrow]
      rfl
    rw [hrefine, Bool.or_true, if_pos rfl]
    exact occursIn_joinStatements (hwrites _ hbase) List.mem_cons_self
      (extends_of_refined happlied).occursIn
  · have hrefine : isRefinement call = false := by
      rw [isRefinement, hnone]
      rfl
    have hpause : isPause call = false := by
      rw [← Bool.not_eq_true]
      intro hpause
      rw [callOutcome_of_isPause command base hpause] at happlied
      cases happlied
    rw [usesLocator, hemits, hrefine, Bool.false_and, Bool.or_false, if_neg Bool.false_ne_true,
      pausesText, List.filter_cons_of_neg (by simp [hpause])]
    rfl

/-- A chain that becomes a list. -/
theorem keepsBase_of_takesList
    (hrule : CommandRule.find? command.name = some rule)
    (hsuspends : rule.suspends = true)
    (hquery : isPageQuery command.name = false)
    (hpath : TakesList command)
    (hmade : (statements command).result = .ok made)
    (hcode : ∀ statement ∈ made, statement.isPlaceholder = false) :
    ∃ base,
      rule.code command.args = .ok base ∧
      KeepsBase command base (joinStatements made) := by
  have hwrites := CommandRule.writes_code (List.mem_of_find?_eq_some hrule) command.args
  obtain ⟨lead, base, chain, hstart, hchain, rfl⟩ := (statements_eq_ok_iff hpath).mp hmade
  cases hfirst : Rule.mustRunFirst command.name with
  | true =>
      rw [chainStart, if_pos hfirst, Outcome.result_bind_eq_ok] at hstart
      obtain ⟨statement, hstatement, hstart⟩ := hstart
      cases hstart
      obtain ⟨text, htext, rfl⟩ := code_of_commandStatement hrule hstatement
      refine ⟨text, htext, ?_⟩
      have huses : usesBase command = true := by
        simp [usesBase, hfirst]
      rw [KeepsBase, if_pos huses]
      exact occursIn_joinStatements (hwrites _ htext) List.mem_cons_self (occursIn_self text)
  | false =>
      obtain ⟨rfl, hbase⟩ := code_of_chainStart hrule hsuspends hfirst hstart
      refine ⟨base, hbase, ?_⟩
      -- There are several calls, so the base is not just narrowed once.
      have hmany : 2 ≤ command.calls.length := by
        rcases hpath.2 with ⟨hrun, -⟩ | hmany
        · simp [hfirst] at hrun
        · exact hmany
      have huses : usesBase command = command.calls.any usesLocator := by
        have hlength : (command.calls.length == 1) = false := by
          rw [beq_eq_false_iff_ne]
          omega
        have hcalls : command.calls.isEmpty = false := by
          rw [List.isEmpty_eq_false_iff, ← List.length_pos_iff]
          omega
        rw [usesBase, hfirst, hcalls, hlength, Bool.false_or, Bool.false_or, Bool.false_and,
          Bool.or_false]
      rw [List.nil_append] at hcode ⊢
      unfold KeepsBase
      rw [huses]
      split_ifs with hany
      · obtain ⟨statement, hmem, hstatement⟩ := chainStatements_mention hquery hany hchain
        rw [hcode statement hmem] at hstatement
        exact occursIn_joinStatements (hwrites _ hbase) hmem
          (hstatement.resolve_left Bool.false_ne_true)
      · rw [Bool.not_eq_true] at hany
        rw [chainStatements_pauses hany hchain, joinStatements_pauses]

/-- The effect of a base on the page is in the code, or a placeholder is left, whenever something
uses the base. If nothing does, the code is at most the pauses of the chain. -/
theorem effect_kept_or_reported
    (hrule : CommandRule.find? command.name = some rule)
    (hsuspends : rule.suspends = true)
    (htitle : command.name ≠ "title") :
    leavesPlaceholder command = true ∨
    ∃ base,
      rule.code command.args = .ok base ∧
      KeepsBase command base command.lower.code := by
  have hquery := isPageQuery_of_suspends hrule hsuspends htitle
  have hknown : (CommandRule.find? command.name).isSome = true := by
    rw [hrule]
    rfl
  cases hleaves : leavesPlaceholder command with
  | true =>
      exact .inl rfl
  | false =>
      obtain ⟨made, hmade, hcode⟩ := leavesPlaceholder_eq_false_iff.mp hleaves
      rw [(lower_of_ok hmade).1]
      have hmade' := hmade
      rw [(statements_of_known hknown).2] at hmade'
      right
      rcases calls_cases hknown with hcalls | ⟨call, hcalls, hfirst⟩ | hpath
      · exact keepsBase_of_alone hrule hcalls hmade'
      · exact keepsBase_of_lone hrule hsuspends hquery hcalls hfirst hmade' hcode
      · exact keepsBase_of_takesList hrule hsuspends hquery hpath hmade hcode

end Suspending

/-- A request on which a click is chained. -/
theorem effect_kept_or_reported_request :
    occursIn "page.request.get('/api/seed')"
      (Command.lower ⟨"request", [.string "/api/seed"], [⟨"first", []⟩, ⟨"click", []⟩]⟩).code =
        true := by
  have hkept := @effect_kept_or_reported
    ⟨"request", [.string "/api/seed"], [⟨"first", []⟩, ⟨"click", []⟩]⟩ _ rfl rfl (by decide)
  rcases hkept with hplaceholder | ⟨base, hbase, hkeeps⟩
  · exact absurd hplaceholder (by decide +kernel)
  · cases hbase
    exact hkeeps

/-- A reload before a pause is neither in the code nor reported. -/
theorem reload_lost_before_pause :
    (CommandRule.find? "reload").map (·.suspends) = some true ∧
    (CommandRule.find? "reload").map (·.code []) = some (.ok "page.reload()") ∧
    (Command.lower ⟨"reload", [], [⟨"wait", [.number (.ofNat 500)]⟩]⟩).code =
      "await page.waitForTimeout(500)" ∧
    occursIn "page.reload()" "await page.waitForTimeout(500)" = false ∧
    leavesPlaceholder ⟨"reload", [], [⟨"wait", [.number (.ofNat 500)]⟩]⟩ = false ∧
    (Command.lower ⟨"reload", [], [⟨"wait", [.number (.ofNat 500)]⟩]⟩).diagnostics = [] := by
  decide +kernel

end Lowering
end SuiteShift
