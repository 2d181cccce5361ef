import SuiteShift.Proofs.Lowering.Effect

/-!
# Commands that vanish

A command comes to nothing, without a word, exactly if all it does is to narrow a locator more
than once: a chain of several refinements has no statement.

- `OnlyRefines`: these commands.
- `chainStatements_silent_iff`: chains without statements and warnings.
- `lower_silent_iff`: whole commands.
-/

namespace SuiteShift
namespace Lowering

open Rule (ChainRule CommandRule)

/-- All that the command does is to narrow its base, more than once. -/
structure OnlyRefines (command : Command) : Prop where
  known : (CommandRule.find? command.name).isSome = true
  waits : Rule.mustRunFirst command.name = false
  several : 2 ≤ command.calls.length
  refines : ∀ call ∈ command.calls, isRefinement call = true
  /-- A base that reads an alias is reported. -/
  plain : readAlias? command = none
  /-- No rule refuses. -/
  accepted : ∃ base locator,
    (baseLocator command).result = .ok base ∧ locatorAfter base command.calls = .ok locator

/-! ### Chains -/

theorem callOutcome_of_refinement
    {command : Command}
    {locator narrowed : String}
    {call : Call}
    {narrow : String → Rule.Code}
    (h : refinement? call = some narrow)
    (hnarrow : narrow locator = .ok narrowed) :
    (callOutcome command locator call).result = .ok (.refined narrowed) := by
  unfold refinement? at h
  split at h
  · next method apply hrule =>
      cases h
      have hassert : isAssertion call = false := by
        rw [← Bool.not_eq_true]
        intro hassert
        rw [find?_eq_none_of_isAssertion hassert] at hrule
        cases hrule
      rw [callOutcome, hassert, if_neg Bool.false_ne_true, applyCall, hrule]
      simp only [Outcome.result_bind_eq_ok, Outcome.result_ofExcept, Outcome.result_ok]
      exact ⟨narrowed, hnarrow, rfl⟩
  · cases h

/-- A chain has no statement and no warning if it narrows the locator and does nothing else. -/
theorem chainStatements_silent_iff
    {command : Command}
    {base : String}
    {calls : List Call} :
    (chainStatements command base calls).result = .ok [] ∧
        calls.flatMap (callWarnings command.name) = [] ↔
      (∀ call ∈ calls, isRefinement call = true) ∧
        ∃ locator, locatorAfter base calls = .ok locator := by
  induction calls generalizing base with
  | nil =>
      simp [chainStatements, locatorAfter_nil]
  | cons call calls ih =>
      rw [List.flatMap_cons, List.append_eq_nil_iff, List.forall_mem_cons]
      constructor
      · rintro ⟨hmade, hwarnings, hrest⟩
        obtain ⟨applied, rest, happlied, hchain, hnil⟩ := chainStatements_cons_eq_ok.mp hmade
        rw [eq_comm, List.append_eq_nil_iff] at hnil
        obtain ⟨hemitted, rfl⟩ := hnil
        obtain ⟨hrefines, locator, hlocator⟩ := ih.mp ⟨hchain, hrest⟩
        rcases callOutcome_of_ok happlied with
          ⟨_, rfl, -⟩ | ⟨narrow, narrowed, rfl, -, hnarrow, -⟩ | ⟨rfl, -, -, -, hone⟩
        · cases hemitted
        · refine ⟨⟨by rw [isRefinement, hnarrow]; rfl, hrefines⟩, locator, ?_⟩
          rw [locatorAfter_cons_of_ok happlied]
          exact hlocator
        · rw [hwarnings] at hone
          cases hone
      · rintro ⟨⟨hcall, hrefines⟩, locator, hlocator⟩
        obtain ⟨narrow, hnarrow⟩ := Option.isSome_iff_exists.mp hcall
        obtain ⟨narrowed, hnarrowed⟩ : ∃ narrowed, narrow base = .ok narrowed := by
          rw [locatorAfter, List.filterMap_cons_some hnarrow, List.foldlM_cons,
            Failure.bind_eq_ok] at hlocator
          obtain ⟨narrowed, hnarrowed, -⟩ := hlocator
          exact ⟨narrowed, hnarrowed⟩
        have happlied := @callOutcome_of_refinement command _ _ _ _ hnarrow hnarrowed
        rw [locatorAfter_cons_of_ok happlied] at hlocator
        obtain ⟨hchain, hrest⟩ := ih.mpr ⟨hrefines, locator, hlocator⟩
        refine ⟨chainStatements_cons_eq_ok.mpr ⟨_, [], happlied, hchain, rfl⟩, ?_, hrest⟩
        rcases callOutcome_of_ok happlied with ⟨_, ⟨⟩, -⟩ | ⟨_, _, -, -, -, -, hnone⟩ | ⟨⟨⟩, -⟩
        exact hnone

/-! ### Whole commands -/

/-- A list of statements says what is read off its base and its calls. -/
theorem warnings_of_takesList
    {command : Command}
    {made : List Emitted}
    (hpath : TakesList command)
    (hmade : (statements command).result = .ok made) :
    warnings (statements command).notes =
      readWarnings command ++
        (waitWarnings command ++ command.calls.flatMap (callWarnings command.name)) := by
  obtain ⟨lead, base, chain, hstart, hchain, -⟩ := (statements_eq_ok_iff hpath).mp hmade
  rw [(statements_of_known hpath.1).1, knownStatements_of_takesList hpath, statementList_eq,
    Outcome.notes_bind_of_ok _ hstart, Outcome.notes_bind_of_ok _ hchain, Outcome.notes_ok,
    List.append_nil, warnings_append, warnings_chainStart hpath.1,
    warnings_chainStatements_of_ok hchain]

/-- A single call leaves text or a warning. -/
theorem lone_not_silent
    {command : Command}
    {call : Call}
    {made : List Emitted}
    (hknown : (CommandRule.find? command.name).isSome = true)
    (hcalls : command.calls = [call])
    (hfirst : Rule.mustRunFirst command.name = false)
    (hmade : (knownStatements command).result = .ok made)
    (hwarnings : warnings (knownStatements command).notes = []) :
    ∃ statement ∈ made, statement.isEmpty = false := by
  cases hcondition : isCondition command call with
  | true =>
      have hread : isAssertion call = true ∨ isPageQuery command.name = true := by
        simpa [isCondition, hcalls] using hcondition
      rw [knownStatements_of_lone_condition hcalls hfirst hread, Outcome.result_bind_eq_ok] at hmade
      obtain ⟨⟨lead, base⟩, -, hmade⟩ := hmade
      rw [Outcome.result_bind_eq_ok] at hmade
      obtain ⟨statement, hstatement, hmade⟩ := hmade
      cases hmade
      exact ⟨statement, List.mem_cons_self,
        (conditionStep_assertionStatement command base call).nonempty _ hstatement⟩
  | false =>
      have hread : isAssertion call = false ∧ isPageQuery command.name = false := by
        simpa [isCondition, hcalls] using hcondition
      have hcount := length_warnings_knownStatements hknown hmade
      obtain ⟨lead, base, applied, -, happlied, rfl⟩ :=
        alone_of_lone hread.2 hcalls hfirst hmade
      refine ⟨applied.alone, List.mem_cons_self, ?_⟩
      rcases callOutcome_of_ok happlied with
        ⟨statement, rfl, -, hne, -⟩ | ⟨_, narrowed, rfl, -⟩ | ⟨rfl, -, -, has, -⟩
      · exact hne
      · exact Emitted.isEmpty_code false (extends_of_refined happlied).ne_empty
      · -- A dropped call leaves no text, but a warning.
        have hdropped : droppedCalls command = 1 := by
          simp [droppedCalls, hknown, hcalls, has, hcondition]
        rw [hwarnings, hdropped, List.length_nil] at hcount
        omega

theorem OnlyRefines.takesList
    {command : Command}
    (h : OnlyRefines command) :
    TakesList command := by
  exact ⟨h.known, .inr h.several⟩

/-- A base that waits for an alias runs first. -/
theorem waitWarnings_of_not_first
    {command : Command}
    (h : Rule.mustRunFirst command.name = false) :
    waitWarnings command = [] := by
  have hwait : (command.name == "wait") = false := by
    rw [beq_eq_false_iff_ne]
    rintro hname
    rw [hname] at h
    cases h
  rw [waitWarnings, hwait, if_neg Bool.false_ne_true]

theorem lower_of_onlyRefines
    {command : Command}
    (h : OnlyRefines command) :
    command.lower.code = "" ∧ command.lower.diagnostics = [] := by
  obtain ⟨base, locator, hbase, hlocator⟩ := h.accepted
  obtain ⟨hchain, hwarnings⟩ :=
    (@chainStatements_silent_iff command _ _).mpr ⟨h.refines, locator, hlocator⟩
  have hstart : (chainStart command).result = .ok ([], base) := by
    rw [chainStart, h.waits, if_neg Bool.false_ne_true, Outcome.result_bind_eq_ok]
    exact ⟨base, hbase, rfl⟩
  have hmade : (statements command).result = .ok [] := by
    exact (statements_eq_ok_iff h.takesList).mpr ⟨[], base, [], hstart, hchain, rfl⟩
  obtain ⟨hcode, hdiagnostics⟩ := lower_of_ok hmade
  refine ⟨hcode, ?_⟩
  rw [hdiagnostics, warnings_of_takesList h.takesList hmade, waitWarnings_of_not_first h.waits,
    hwarnings, readWarnings, h.plain]
  rfl

/-- A list without text and warnings narrows its base and does nothing else. -/
theorem onlyRefines_of_takesList
    {command : Command}
    {made : List Emitted}
    (hpath : TakesList command)
    (hmade : (statements command).result = .ok made)
    (hempty : ∀ statement ∈ made, statement.isEmpty = true)
    (hwarnings : warnings (statements command).notes = []) :
    OnlyRefines command := by
  rw [warnings_of_takesList hpath hmade, List.append_eq_nil_iff, List.append_eq_nil_iff]
    at hwarnings
  obtain ⟨hread, -, hcalls⟩ := hwarnings
  obtain ⟨lead, base, chain, hstart, hchain, rfl⟩ := (statements_eq_ok_iff hpath).mp hmade
  obtain rfl : chain = [] := by
    refine List.eq_nil_iff_forall_not_mem.mpr fun statement hmem => ?_
    have hne := isEmpty_of_mem_chainStatements hchain statement hmem
    rw [hempty statement (List.mem_append_right _ hmem)] at hne
    cases hne
  have hfirst : Rule.mustRunFirst command.name = false := by
    rw [← Bool.not_eq_true]
    intro hfirst
    have hstart' := hstart
    rw [chainStart, if_pos hfirst, Outcome.result_bind_eq_ok] at hstart'
    obtain ⟨statement, -, hlead⟩ := hstart'
    cases hlead
    obtain ⟨text, suspends, hne, rfl⟩ :=
      mem_lead_of_chainStart hpath.1 hstart List.mem_cons_self
    have hempty := hempty _ (List.mem_append_left _ List.mem_cons_self)
    rw [Emitted.isEmpty_code suspends hne] at hempty
    cases hempty
  obtain ⟨hrefines, locator, hlocator⟩ := chainStatements_silent_iff.mp ⟨hchain, hcalls⟩
  refine
    { known := hpath.1
      waits := hfirst
      several := ?_
      refines := hrefines
      plain := ?_
      accepted := ⟨base, locator, ?_, hlocator⟩ }
  · rcases hpath.2 with ⟨hrun, -⟩ | hmany
    · rw [hfirst] at hrun
      cases hrun
    · exact hmany
  · simpa [readWarnings] using hread
  · rw [chainStart, hfirst, if_neg Bool.false_ne_true, Outcome.result_bind_eq_ok] at hstart
    obtain ⟨locator, hbase, hlead⟩ := hstart
    cases hlead
    exact hbase

/-- A command comes to nothing without a word exactly if it narrows its base more than once and
does nothing else. -/
theorem lower_silent_iff
    (command : Command) :
    command.lower.code = "" ∧ command.lower.diagnostics = [] ↔ OnlyRefines command := by
  refine ⟨?_, lower_of_onlyRefines⟩
  rintro ⟨hcode, hdiagnostics⟩
  cases hresult : (statements command).result with
  | error reason =>
      rw [(lower_of_error hresult).1] at hcode
      simp at hcode
  | ok made =>
      rw [(lower_of_ok hresult).1, joinStatements_eq_empty_iff] at hcode
      rw [(lower_of_ok hresult).2, List.map_eq_nil_iff] at hdiagnostics
      have hknown : (CommandRule.find? command.name).isSome = true := by
        rw [← Option.not_isNone, Bool.not_eq_true', ← Bool.not_eq_true, Option.isNone_iff_eq_none]
        intro hnone
        rw [statements_of_unknown hnone] at hdiagnostics
        cases hdiagnostics
      have hmade := hresult
      rw [(statements_of_known hknown).2] at hmade
      have hwarnings := hdiagnostics
      rw [(statements_of_known hknown).1, List.append_eq_nil_iff] at hwarnings
      rcases calls_cases hknown with hcalls | ⟨call, hcalls, hfirst⟩ | hpath
      · obtain ⟨rule, hrule⟩ := Option.isSome_iff_exists.mp hknown
        obtain ⟨text, htext, rfl⟩ := code_of_alone hrule hcalls hmade
        have hne := CommandRule.writes_code (List.mem_of_find?_eq_some hrule) _ _ htext
        have hempty := hcode _ List.mem_cons_self
        rw [Emitted.isEmpty_code rule.suspends hne] at hempty
        cases hempty
      · obtain ⟨statement, hmem, hne⟩ := lone_not_silent hknown hcalls hfirst hmade hwarnings.2
        rw [hcode statement hmem] at hne
        cases hne
      · exact onlyRefines_of_takesList hpath hresult hcode hdiagnostics

/-- Two refinements of a query vanish. -/
theorem refinements_vanish :
    (Command.lower ⟨"get", [.string ".row"], [⟨"first", []⟩, ⟨"find", [.string "a"]⟩]⟩).code = "" ∧
    (Command.lower
      ⟨"get", [.string ".row"], [⟨"first", []⟩, ⟨"find", [.string "a"]⟩]⟩).diagnostics = [] := by
  decide +kernel

end Lowering
end SuiteShift
