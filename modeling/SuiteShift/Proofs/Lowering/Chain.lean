import SuiteShift.Proofs.Lowering.Step

/-!
# Walking along a chain

`chainStatements` goes from call to call with the current locator. Every call is one step,
`callOutcome`, which gives a statement, another locator, or nothing.

- `callOutcome_of_ok`: all that a step can come to, by the kind of the call.
- `chainStatements_cons`: the walk, step by step. A statement of a step is never empty, so none is
  left out.
- `locatorAfter`: the locator after some calls; only refinements have a part in it.
- `chainStatements_append_eq_ok`: a walk along two stretches of a chain.
- `warnings_chainStatements_of_ok`, `chainStatements_of_error`: what a whole walk says, and where
  a refused one stops.
-/

namespace SuiteShift
namespace Lowering

open Rule (ChainRule)

namespace Applied

/-- The locator for the calls after this one. -/
def after (locator : String) : Applied → String
  | .refined narrowed => narrowed
  | .statement _ => locator
  | .dropped => locator

/-- The statements of this call. -/
def emitted : Applied → List Emitted
  | .statement made => [made]
  | .refined _ => []
  | .dropped => []

end Applied

/-- What a chained call comes to, whether it states a condition or not. -/
def callOutcome (command : Command) (locator : String) (call : Call) : Outcome Applied :=
  if isAssertion call then do
    let statement ← assertionStatement command locator call
    .ok (.statement statement)
  else applyCall locator call

/-- What is said about a call on the base of a name. -/
def callWarnings (name : String) (call : Call) : List Diagnostic :=
  if isAssertion call then conditionWarnings name call else methodWarnings call

/-- The call makes a statement: it states a condition, is an action, or has an unknown method. -/
def emits (call : Call) : Bool :=
  isAssertion call || isActionOrUnknown call

/-- No rule has the name of an assertion. -/
theorem find?_eq_none_of_isAssertion
    {call : Call}
    (h : isAssertion call = true) :
    ChainRule.find? call.method = none := by
  simp only [isAssertion, Bool.or_eq_true, beq_iff_eq] at h
  rcases h with h | h <;>
  · rw [h]
    rfl

/-- A call that makes a statement does not narrow the locator. -/
theorem refinement?_eq_none_of_emits
    {call : Call}
    (h : emits call = true) :
    refinement? call = none := by
  rw [emits, Bool.or_eq_true] at h
  unfold refinement?
  rcases h with h | h
  · rw [find?_eq_none_of_isAssertion h]
  · unfold isActionOrUnknown at h
    split at h <;> simp_all

/-- Everything that a call can come to. -/
theorem callOutcome_of_ok
    {command : Command}
    {locator : String}
    {call : Call}
    {applied : Applied}
    (h : (callOutcome command locator call).result = .ok applied) :
    (∃ statement,
        applied = .statement statement ∧
        emits call = true ∧
        statement.isEmpty = false ∧
        (callWarnings command.name call).length =
          [statement].countP Emitted.isPlaceholder +
            (isPageQuery command.name && isAssertion call && isPartialMatch call).toNat) ∨
    (∃ narrow narrowed,
        applied = .refined narrowed ∧
        emits call = false ∧
        refinement? call = some narrow ∧
        narrow locator = .ok narrowed ∧
        callWarnings command.name call = []) ∨
    (applied = .dropped ∧
        emits call = false ∧
        refinement? call = none ∧
        call.method = "as" ∧
        (callWarnings command.name call).length = 1) := by
  unfold callOutcome at h
  unfold emits callWarnings
  cases hassert : isAssertion call with
  | true =>
      have hstep := conditionStep_assertionStatement command locator call
      simp only [hassert, ↓reduceIte, Outcome.result_bind_eq_ok, Outcome.result_ok,
        Except.ok.injEq] at h
      obtain ⟨statement, hstatement, rfl⟩ := h
      refine .inl ⟨statement, rfl, rfl, hstep.nonempty _ hstatement, ?_⟩
      simpa using hstep.count _ hstatement
  | false =>
      simp only [hassert, Bool.false_eq_true, ↓reduceIte] at h
      simpa using applyCall_of_ok h

/-- A step that goes through says what is read off its call. -/
theorem warnings_callOutcome_of_ok
    {command : Command}
    {locator : String}
    {call : Call}
    {applied : Applied}
    (h : (callOutcome command locator call).result = .ok applied) :
    warnings (callOutcome command locator call).notes =
      callWarnings command.name call := by
  unfold callOutcome at h ⊢
  unfold callWarnings
  split_ifs at h ⊢
  · rw [Outcome.result_bind_eq_ok] at h
    obtain ⟨statement, hstatement, -⟩ := h
    rw [Outcome.notes_bind_of_ok _ hstatement, warnings_append, Outcome.notes_ok, warnings_nil,
      List.append_nil]
    exact (conditionStep_assertionStatement command locator call).warnings_of_ok _ hstatement
  · exact warnings_applyCall locator call

/-- A refused step says nothing. -/
theorem warnings_callOutcome_of_error
    {command : Command}
    {locator : String}
    {call : Call}
    {reason : RuleError}
    (h : (callOutcome command locator call).result = .error reason) :
    warnings (callOutcome command locator call).notes = [] := by
  unfold callOutcome at h ⊢
  split_ifs at h ⊢
  · rw [Outcome.result_bind_eq_error] at h
    rcases h with h | ⟨_, -, h⟩
    · rw [Outcome.notes_bind_of_error _ h]
      exact (conditionStep_assertionStatement command locator call).warnings_of_error _ h
    · simp at h
  · rw [warnings_applyCall]
    exact methodWarnings_of_error h

/-- The walk, step by step. -/
theorem chainStatements_cons
    (command : Command)
    (locator : String)
    (call : Call)
    (calls : List Call) :
    chainStatements command locator (call :: calls) =
      (callOutcome command locator call >>= fun applied =>
        chainStatements command (applied.after locator) calls >>= fun rest =>
          .ok (applied.emitted ++ rest)) := by
  rw [chainStatements, callOutcome]
  split_ifs with hassert
  · rw [Outcome.bind_assoc]
    rfl
  · refine Outcome.bind_congr_of_ok fun applied happlied => ?_
    cases applied with
    | statement statement =>
        -- A statement without text would be left out here.
        have hnonempty : statement.isEmpty = false := by
          rcases applyCall_of_ok happlied with
            ⟨made, hmade, -, hne, -⟩ | ⟨_, _, hmade, -⟩ | ⟨hmade, -⟩
          · cases hmade
            exact hne
          · cases hmade
          · cases hmade
        simp [Applied.after, Applied.emitted, hnonempty]
    | refined narrowed =>
        simp [Applied.after, Applied.emitted]
    | dropped =>
        simp [Applied.after, Applied.emitted]

/-- The locator after some calls: only refinements have a part in it. -/
def locatorAfter (base : String) (calls : List Call) : Rule.Code :=
  (calls.filterMap refinement?).foldlM (fun locator narrow => narrow locator) base

theorem locatorAfter_nil
    (base : String) :
    locatorAfter base [] = .ok base := by
  rfl

theorem locatorAfter_cons_of_emits
    {call : Call}
    (h : emits call = true)
    (base : String)
    (calls : List Call) :
    locatorAfter base (call :: calls) =
      locatorAfter base calls := by
  unfold locatorAfter
  rw [List.filterMap_cons_none (refinement?_eq_none_of_emits h)]

/-- One more call moves the locator as the step does. -/
theorem locatorAfter_cons_of_ok
    {command : Command}
    {base : String}
    {call : Call}
    {applied : Applied}
    (h : (callOutcome command base call).result = .ok applied)
    (calls : List Call) :
    locatorAfter base (call :: calls) =
      locatorAfter (applied.after base) calls := by
  rcases callOutcome_of_ok h with
    ⟨statement, rfl, hemits, -⟩ | ⟨narrow, narrowed, rfl, -, hnarrow, hnarrowed, -⟩ |
      ⟨rfl, -, hnone, -⟩
  · exact locatorAfter_cons_of_emits hemits base calls
  · unfold locatorAfter
    rw [List.filterMap_cons_some hnarrow, List.foldlM_cons, hnarrowed]
    rfl
  · unfold locatorAfter
    rw [List.filterMap_cons_none hnone]
    rfl

/-! ### Whole walks -/

theorem chainStatements_cons_eq_ok
    {command : Command}
    {locator : String}
    {call : Call}
    {calls : List Call}
    {statements : List Emitted} :
    (chainStatements command locator (call :: calls)).result = .ok statements ↔
      ∃ applied rest,
        (callOutcome command locator call).result = .ok applied ∧
        (chainStatements command (applied.after locator) calls).result = .ok rest ∧
        statements = applied.emitted ++ rest := by
  rw [chainStatements_cons, Outcome.result_bind_eq_ok]
  constructor
  · rintro ⟨applied, happlied, hrest⟩
    rw [Outcome.result_bind_eq_ok] at hrest
    obtain ⟨rest, hrest, hall⟩ := hrest
    rw [Outcome.result_ok, Except.ok.injEq] at hall
    exact ⟨applied, rest, happlied, hrest, hall.symm⟩
  · rintro ⟨applied, rest, happlied, hrest, rfl⟩
    refine ⟨applied, happlied, ?_⟩
    rw [Outcome.result_bind_eq_ok]
    exact ⟨rest, hrest, rfl⟩

/-- A walk along two stretches of a chain: the second one starts with the locator that the
refinements of the first one lead to. -/
theorem chainStatements_append_eq_ok
    {command : Command}
    {base : String}
    {front back : List Call}
    {statements : List Emitted} :
    (chainStatements command base (front ++ back)).result = .ok statements ↔
      ∃ first locator second,
        (chainStatements command base front).result = .ok first ∧
        locatorAfter base front = .ok locator ∧
        (chainStatements command locator back).result = .ok second ∧
        statements = first ++ second := by
  induction front generalizing base statements with
  | nil =>
      constructor
      · intro h
        exact ⟨[], base, statements, rfl, rfl, h, rfl⟩
      · rintro ⟨first, locator, second, hfirst, hlocator, hsecond, rfl⟩
        cases hfirst
        cases hlocator
        exact hsecond
  | cons call front ih =>
      rw [List.cons_append, chainStatements_cons_eq_ok]
      constructor
      · rintro ⟨applied, rest, happlied, hrest, rfl⟩
        obtain ⟨first, locator, second, hfirst, hlocator, hsecond, rfl⟩ := ih.mp hrest
        refine ⟨applied.emitted ++ first, locator, second, ?_, ?_, hsecond, ?_⟩
        · exact chainStatements_cons_eq_ok.mpr ⟨applied, first, happlied, hfirst, rfl⟩
        · rw [locatorAfter_cons_of_ok happlied]
          exact hlocator
        · rw [List.append_assoc]
      · rintro ⟨first, locator, second, hfirst, hlocator, hsecond, rfl⟩
        obtain ⟨applied, rest, happlied, hrest, rfl⟩ := chainStatements_cons_eq_ok.mp hfirst
        rw [locatorAfter_cons_of_ok happlied] at hlocator
        exact ⟨applied, rest ++ second, happlied,
          ih.mpr ⟨rest, locator, second, hrest, hlocator, hsecond, rfl⟩,
          List.append_assoc _ _ _⟩

/-- A walk that goes through says what is read off all its calls. -/
theorem warnings_chainStatements_of_ok
    {command : Command}
    {locator : String}
    {calls : List Call}
    {statements : List Emitted}
    (h : (chainStatements command locator calls).result = .ok statements) :
    warnings (chainStatements command locator calls).notes =
      calls.flatMap (callWarnings command.name) := by
  induction calls generalizing locator statements with
  | nil =>
      rfl
  | cons call calls ih =>
      obtain ⟨applied, rest, happlied, hrest, -⟩ := chainStatements_cons_eq_ok.mp h
      rw [chainStatements_cons, Outcome.notes_bind_of_ok _ happlied,
        Outcome.notes_bind_of_ok _ hrest, Outcome.notes_ok, List.append_nil, warnings_append,
        warnings_callOutcome_of_ok happlied, ih hrest, List.flatMap_cons]

/-- A refused walk says what is read off the calls before the one that refuses. -/
theorem chainStatements_of_error
    {command : Command}
    {base : String}
    {calls : List Call}
    {reason : RuleError}
    (h : (chainStatements command base calls).result = .error reason) :
    ∃ before failing after locator,
      calls = before ++ failing :: after ∧
      locatorAfter base before = .ok locator ∧
      (callOutcome command locator failing).result = .error reason ∧
      warnings (chainStatements command base calls).notes =
        before.flatMap (callWarnings command.name) := by
  induction calls generalizing base with
  | nil =>
      cases h
  | cons call calls ih =>
      rw [chainStatements_cons, Outcome.result_bind_eq_error] at h
      rw [chainStatements_cons]
      rcases h with h | ⟨applied, happlied, h⟩
      · refine ⟨[], call, calls, base, rfl, rfl, h, ?_⟩
        rw [Outcome.notes_bind_of_error _ h, warnings_callOutcome_of_error h]
        rfl
      · rw [Outcome.result_bind_eq_error] at h
        rcases h with h | ⟨_, -, h⟩
        · obtain ⟨before, failing, after, locator, rfl, hlocator, hfailing, hwarnings⟩ := ih h
          refine ⟨call :: before, failing, after, locator, rfl, ?_, hfailing, ?_⟩
          · rw [locatorAfter_cons_of_ok happlied]
            exact hlocator
          · rw [Outcome.notes_bind_of_ok _ happlied, Outcome.notes_bind_of_error _ h,
              warnings_append, warnings_callOutcome_of_ok happlied, hwarnings, List.flatMap_cons]
        · cases h

end Lowering
end SuiteShift
