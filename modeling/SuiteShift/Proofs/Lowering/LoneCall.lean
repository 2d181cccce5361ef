import SuiteShift.Proofs.Lowering.Silence

/-!
# A lone call as a chain of one

A chain with a single call is not lowered by the walk along longer chains, but by a way of its
own. Both ways agree, but for a refinement: alone it is still an expression.

- `asList`: a command lowered as a longer chain is.
- `loneStep`: the step that both ways have in common; `statements_of_lone`, `asList_of_lone`.
- `lone_call_as_list`: the two ways compared.
-/

namespace SuiteShift
namespace Lowering

open Rule (CommandRule)

/-- What is said first about a base that reads an alias. -/
def readNote (command : Command) : Outcome Unit :=
  match readAlias? command with
  | some name => .warn (.aliasRead name)
  | none => .ok ()

/-- The command as a list of statements, whatever the number of its calls. -/
def asList (command : Command) : Outcome (List Emitted) := do
  readNote command
  statementList command

/-- What a call on the base of a command comes to. -/
def loneStep (command : Command) (call : Call) : Outcome Applied := do
  readNote command
  let start ← chainStart command
  callOutcome command start.2 call

theorem statements_eq_of_known
    {command : Command}
    (h : (CommandRule.find? command.name).isSome = true) :
    statements command = (readNote command >>= fun _ => knownStatements command) := by
  obtain ⟨rule, hrule⟩ := Option.isSome_iff_exists.mp h
  rw [statements, hrule, readNote]
  cases readAlias? command <;> rfl

section Lone

variable {command : Command}
variable {call : Call}

/-- A lone call is one step, whether it states a condition or not. -/
theorem knownStatements_of_lone
    (hcalls : command.calls = [call])
    (hfirst : Rule.mustRunFirst command.name = false)
    (hread : isAssertion call = true ∨ isPageQuery command.name = false) :
    knownStatements command =
      (chainStart command >>= fun start =>
        callOutcome command start.2 call >>= fun applied => .ok [applied.alone]) := by
  cases hassert : isAssertion call with
  | true =>
      rw [knownStatements_of_lone_condition hcalls hfirst (.inl hassert)]
      refine Outcome.bind_congr_of_ok fun start _ => ?_
      rw [callOutcome, if_pos hassert, Outcome.bind_assoc]
      rfl
  | false =>
      have hquery : isPageQuery command.name = false := by
        simpa [hassert] using hread
      exact knownStatements_of_lone_action hcalls hfirst hassert hquery

theorem statements_of_lone
    (hcalls : command.calls = [call])
    (hknown : (CommandRule.find? command.name).isSome = true)
    (hfirst : Rule.mustRunFirst command.name = false)
    (hread : isAssertion call = true ∨ isPageQuery command.name = false) :
    statements command =
      (loneStep command call >>= fun applied => .ok [applied.alone]) := by
  rw [statements_eq_of_known hknown, knownStatements_of_lone hcalls hfirst hread, loneStep,
    Outcome.bind_assoc]
  simp only [Outcome.bind_assoc]

/-- The walk along a chain of one call makes the same step, and keeps its statements only. -/
theorem asList_of_lone
    (hcalls : command.calls = [call])
    (hfirst : Rule.mustRunFirst command.name = false) :
    asList command =
      (loneStep command call >>= fun applied => .ok applied.emitted) := by
  rw [asList, loneStep, Outcome.bind_assoc, statementList_eq, hcalls]
  simp only [Outcome.bind_assoc]
  refine Outcome.bind_congr_of_ok fun _ _ => ?_
  refine Outcome.bind_congr_of_ok fun start hstart => ?_
  -- Nothing stands before the call.
  have hlead : start.1 = [] := by
    rw [chainStart, hfirst, if_neg Bool.false_ne_true, Outcome.result_bind_eq_ok] at hstart
    obtain ⟨locator, -, hstart⟩ := hstart
    cases hstart
    rfl
  have hwalk : ∀ locator, chainStatements command locator [] = .ok [] := by
    intro locator
    rfl
  rw [hlead, chainStatements_cons, Outcome.bind_assoc]
  refine Outcome.bind_congr_of_ok fun applied _ => ?_
  simp [hwalk]

/-- The two ways after a step that goes through. -/
theorem lone_of_ok
    {applied : Applied}
    (hstep : (loneStep command call).result = .ok applied)
    (hcalls : command.calls = [call])
    (hknown : (CommandRule.find? command.name).isSome = true)
    (hfirst : Rule.mustRunFirst command.name = false)
    (hread : isAssertion call = true ∨ isPageQuery command.name = false) :
    statements command = ⟨(loneStep command call).notes, .ok [applied.alone]⟩ ∧
    asList command = ⟨(loneStep command call).notes, .ok applied.emitted⟩ := by
  rw [statements_of_lone hcalls hknown hfirst hread, asList_of_lone hcalls hfirst,
    Outcome.bind_of_ok _ hstep, Outcome.bind_of_ok _ hstep]
  simp

/-- The two ways after a step that is refused. -/
theorem lone_of_error
    {reason : RuleError}
    (hstep : (loneStep command call).result = .error reason)
    (hcalls : command.calls = [call])
    (hknown : (CommandRule.find? command.name).isSome = true)
    (hfirst : Rule.mustRunFirst command.name = false)
    (hread : isAssertion call = true ∨ isPageQuery command.name = false) :
    statements command = ⟨(loneStep command call).notes, .error reason⟩ ∧
    asList command = ⟨(loneStep command call).notes, .error reason⟩ := by
  rw [statements_of_lone hcalls hknown hfirst hread, asList_of_lone hcalls hfirst,
    Outcome.bind_of_error _ hstep, Outcome.bind_of_error _ hstep]
  exact ⟨rfl, rfl⟩

theorem result_readNote
    (command : Command) :
    (readNote command).result = .ok () := by
  unfold readNote
  cases readAlias? command <;> rfl

theorem result_loneStep
    (hfirst : Rule.mustRunFirst command.name = false)
    {applied : Applied} :
    (loneStep command call).result = .ok applied ↔
      ∃ base, (baseLocator command).result = .ok base ∧
        (callOutcome command base call).result = .ok applied := by
  rw [loneStep, Outcome.bind_of_ok _ (result_readNote command), chainStart, hfirst,
    if_neg Bool.false_ne_true, Outcome.bind_assoc]
  exact Outcome.result_bind_eq_ok

/-- A statement is kept, and a dropped call leaves no text, be it as a statement or as none. -/
theorem finish_of_not_refined
    {applied : Applied}
    (h : ∀ locator, applied ≠ .refined locator)
    (notes : List Note) :
    finish command ⟨notes, .ok [applied.alone]⟩ = finish command ⟨notes, .ok applied.emitted⟩ := by
  cases applied with
  | statement made =>
      rfl
  | dropped =>
      rfl
  | refined locator =>
      exact absurd rfl (h locator)

/-- A narrowed locator is all the code there is. -/
theorem finish_refined
    {locator : String}
    (h : locator ≠ "")
    (notes : List Note) :
    finish command ⟨notes, .ok [(Applied.refined locator).alone]⟩ =
      { finish command ⟨notes, .ok (Applied.refined locator).emitted⟩ with code := locator } := by
  simp [finish, Applied.alone, Applied.emitted, joinStatements, Emitted.isEmpty, Emitted.text,
    Emitted.render, Emitted.suspends, h]

/-- A lone call leaves the same notes in the same order, and is refused for the same reason, as in
the walk along a longer chain. The code that comes of it is the same, with all that goes with it,
unless the call narrows the locator: then the walk comes to nothing, and the call alone to the
narrowed locator. -/
theorem lone_call_as_list
    (hcalls : command.calls = [call])
    (hknown : (CommandRule.find? command.name).isSome = true)
    (hfirst : Rule.mustRunFirst command.name = false)
    (hread : isAssertion call = true ∨ isPageQuery command.name = false) :
    (statements command).notes = (asList command).notes ∧
    (∀ reason, (statements command).result = .error reason ↔
      (asList command).result = .error reason) ∧
    (isRefinement call = false → command.lower = finish command (asList command)) ∧
    (∀ reason, (statements command).result = .error reason →
      command.lower = finish command (asList command)) ∧
    (∀ narrow base locator,
      refinement? call = some narrow →
      (baseLocator command).result = .ok base →
      narrow base = .ok locator →
      locator ≠ base ∧
      (finish command (asList command)).code = "" ∧
      command.lower = { finish command (asList command) with code := locator }) := by
  cases hstep : (loneStep command call).result with
  | error reason =>
      obtain ⟨halone, hlist⟩ := lone_of_error hstep hcalls hknown hfirst hread
      rw [Command.lower, halone, hlist]
      refine ⟨rfl, fun _ => Iff.rfl, fun _ => rfl, fun _ _ => rfl, ?_⟩
      intro narrow base locator hnarrow hbase hlocator
      have happlied := @callOutcome_of_refinement command _ _ _ _ hnarrow hlocator
      rw [(result_loneStep hfirst).mpr ⟨base, hbase, happlied⟩] at hstep
      cases hstep
  | ok applied =>
      obtain ⟨halone, hlist⟩ := lone_of_ok hstep hcalls hknown hfirst hread
      obtain ⟨start, hstart, happlied⟩ := (result_loneStep hfirst).mp hstep
      rw [Command.lower, halone, hlist]
      refine ⟨rfl, fun _ => by simp, ?_, fun _ h => by simp at h, ?_⟩
      · intro hrefines
        refine finish_of_not_refined ?_ _
        rintro locator rfl
        rcases callOutcome_of_ok happlied with ⟨_, ⟨⟩, -⟩ | ⟨narrow, _, -, -, hnarrow, -⟩ | ⟨⟨⟩, -⟩
        rw [isRefinement, hnarrow] at hrefines
        cases hrefines
      · intro narrow base locator hnarrow hbase hlocator
        obtain rfl : start = base := by
          rw [hstart] at hbase
          exact Except.ok.inj hbase
        have hrefined := @callOutcome_of_refinement command _ _ _ _ hnarrow hlocator
        obtain rfl : applied = .refined locator := by
          rw [happlied] at hrefined
          exact Except.ok.inj hrefined
        have hextends := extends_of_refined happlied
        exact ⟨hextends.ne_self, rfl, finish_refined hextends.ne_empty _⟩

end Lone

/-- A query that reads an alias and takes the first of what it finds: as a chain it comes to
nothing, alone to an expression, and the alias is mentioned in both cases. -/
theorem lone_call_as_list_first :
    (Command.lower ⟨"get", [.string "@rows"], [⟨"first", []⟩]⟩).code = "rows.first()" ∧
    (finish ⟨"get", [.string "@rows"], [⟨"first", []⟩]⟩
      (asList ⟨"get", [.string "@rows"], [⟨"first", []⟩]⟩)).code = "" ∧
    (asList ⟨"get", [.string "@rows"], [⟨"first", []⟩]⟩).notes = [.warns (.aliasRead "rows")] := by
  obtain ⟨hnotes, -, -, -, hrefined⟩ :=
    @lone_call_as_list ⟨"get", [.string "@rows"], [⟨"first", []⟩]⟩ ⟨"first", []⟩ rfl
      (by decide) (by decide) (.inr (by decide))
  obtain ⟨-, hempty, hlower⟩ := hrefined _ "rows" "rows.first()" rfl (by decide) (by decide)
  refine ⟨by rw [hlower], hempty, hnotes.symm.trans ?_⟩
  decide +kernel

end Lowering
end SuiteShift
