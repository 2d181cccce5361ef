import SuiteShift.CustomCommand.Body
import SuiteShift.Proofs.Lowering.Mark
import SuiteShift.Proofs.Output.TestFile

/-!
# What is counted as converted

A test file counts its commands as converted, and the body of a custom command is lowered, by a
search for the mark of a placeholder.

- `isConverted`, `converted_ofSpec`: the count of a file, command by command.
- `CustomCommand.resists`, `CustomCommand.lowerDefinition_eq_none_iff`: the bodies that are given
  up.
- `todo_search_exact`: the search finds every placeholder, and nothing else where no argument has
  the mark; the count and the bodies follow.
-/

namespace SuiteShift

open Lowering (leavesPlaceholder)

/-! ### Bodies of custom commands -/

namespace CustomCommand

/-- The statement ends the reading of a body. -/
def stopsBody (branching : Bool) : Statement → Bool
  | .command command _ => command.lower.hasTodo && !branching
  | .raw text _ => !branching && (occursIn "cy." text || occursIn "Cypress." text)

/-- The statement cannot be lowered: its command leaves a placeholder, or it is text with calls on
the driver object inside. -/
def resists : Statement → Bool
  | .command command _ => leavesPlaceholder command
  | .raw text _ => occursIn "cy." text || occursIn "Cypress." text

theorem addStatement_eq_none_iff
    {branching : Bool}
    {body : Lowered}
    {statement : Statement} :
    body.addStatement branching statement = none ↔ stopsBody branching statement = true := by
  cases statement with
  | command command span =>
      unfold Lowered.addStatement stopsBody
      dsimp only
      split_ifs with hstops <;> simp [hstops]
  | raw text span =>
      unfold Lowered.addStatement stopsBody
      dsimp only
      split_ifs with hstops <;> simp [hstops]

/-- A body is given up at the first statement that ends its reading. -/
theorem foldlM_addStatement_eq_none_iff
    {branching : Bool}
    {body : Lowered}
    {statements : List Statement} :
    statements.foldlM (Lowered.addStatement branching) body = none ↔
      ∃ statement ∈ statements, stopsBody branching statement = true := by
  induction statements generalizing body with
  | nil =>
      simp
  | cons statement statements ih =>
      rw [List.foldlM_cons]
      cases hstep : body.addStatement branching statement with
      | none =>
          have hstops := addStatement_eq_none_iff.mp hstep
          simp [hstops]
      | some next =>
          have hgoes : stopsBody branching statement ≠ true := by
            rw [ne_eq, ← @addStatement_eq_none_iff branching body, hstep]
            simp
          simp [hgoes, ih]

theorem lowerDefinition_eq_none_iff
    {definition : Definition}
    {snippet : Snippet}
    (h : Snippet.ofSource definition.body = .ok snippet) :
    lowerDefinition definition = .ok none ↔
      ∃ statement ∈ snippet.statements, stopsBody snippet.branching statement = true := by
  rw [← @foldlM_addStatement_eq_none_iff snippet.branching {}, lowerDefinition, h]
  simp [Lowered.ofSnippet?]

/-- In a body without choices whose arguments have no mark, a statement ends the reading exactly
if it cannot be lowered. -/
theorem stopsBody_eq_resists
    {statement : Statement}
    (h : ∀ command, statement.command? = some command → command.isUnmarked = true) :
    stopsBody false statement = resists statement := by
  cases statement with
  | command command span =>
      simp [stopsBody, resists, Lowering.hasTodo_of_isUnmarked (h command rfl)]
  | raw text span =>
      simp [stopsBody, resists]

end CustomCommand

/-! ### Test files -/

namespace Output

/-- The command counts as converted: its code has no mark or, for a custom command, the call is
not left to a person. -/
def isConverted (registry : Registry) (command : Command) : Bool :=
  if (Rule.CommandRule.find? command.name).isSome then !command.lower.hasTodo
  else
    match registry.callSite? command with
    | .ok (some site) => site.converted
    | _ => !command.lower.hasTodo

/-- The count of converted commands is that of the commands in tests and hooks. -/
def CountsConverted (registry : Registry) (commands : List Command) (written : Written) : Prop :=
  written.converted = commands.countP (isConverted registry)

theorem converted_writeResult
    (depth : Nat)
    (span : Span)
    (result : Lowering.Result) :
    (writeResult depth span result).converted = if !result.hasTodo then 1 else 0 := by
  unfold writeResult
  cases result.code.isEmpty <;> rfl

theorem converted_writeSite
    (depth : Nat)
    (span : Span)
    (site : CallSite) :
    (writeSite depth span site).converted = if site.converted then 1 else 0 := by
  rfl

theorem converted_writeCommand
    {registry : Registry}
    {depth : Nat}
    {command : Command}
    {span : Span}
    {written : Written}
    (h : writeCommand registry depth command span = .ok written) :
    CountsConverted registry [command] written := by
  unfold writeCommand at h
  rw [CountsConverted, List.countP_singleton, isConverted]
  dsimp only at h
  by_cases hknown : (Rule.CommandRule.find? command.name).isSome = true
  · rw [if_pos hknown] at h ⊢
    cases h
    exact converted_writeResult depth span _
  · rw [if_neg hknown] at h ⊢
    obtain ⟨site?, hsite, h⟩ := Failure.bind_eq_ok.mp h
    rw [hsite]
    cases site? with
    | none =>
        cases h
        exact converted_writeResult depth span _
    | some site =>
        rw [← Except.ok.inj h]
        exact converted_writeSite depth span site

theorem additive_countsConverted
    (registry : Registry) :
    Additive registry (CountsConverted registry) where
  text := fun hwritten => hwritten.2.2
  append := by
    intro first second a b ha hb
    rw [CountsConverted, List.countP_append, ← ha, ← hb]
    rfl
  command := converted_writeCommand

theorem converted_ofSpec
    {registry : Registry}
    {spec : SpecFile}
    {output : List Path.Component}
    {file : TestFile}
    (h : TestFile.ofSpec spec output registry = .ok file) :
    file.converted = (TestNode.bodyCommandsOf spec.nodes).countP (isConverted registry) := by
  obtain ⟨written, hwritten, rfl⟩ := Failure.map_eq_ok.mp h
  exact (additive_countsConverted registry).writeNodes spec.nodes hwritten

/-! ### The search -/

/-- The search finds every placeholder, and else only a mark that code has in it. For arguments
without a mark it is exact: then a command with a mark has a message, a built-in command in a test
file counts as converted exactly if it leaves no placeholder, and a body without choices is given
up exactly if one of its statements cannot be lowered. -/
theorem todo_search_exact
    (command : Command)
    (spec : SpecFile)
    (output : List Path.Component)
    (registry : Registry)
    (definition : Definition) :
    (command.lower.hasTodo = true ↔
      leavesPlaceholder command = true ∨
      ∃ made text suspends,
        (Lowering.statements command).result = .ok made ∧
        .code text suspends ∈ made ∧
        occursIn "// TODO" text = true) ∧
    (command.isUnmarked = true →
      command.lower.hasTodo = leavesPlaceholder command ∧
      (command.lower.hasTodo = true → command.lower.diagnostics ≠ [])) ∧
    (∀ file, TestFile.ofSpec spec output registry = .ok file →
      file.converted = (TestNode.bodyCommandsOf spec.nodes).countP (isConverted registry) ∧
      ∀ command ∈ TestNode.bodyCommandsOf spec.nodes,
        (Rule.CommandRule.find? command.name).isSome = true →
        command.isUnmarked = true →
        isConverted registry command = !leavesPlaceholder command) ∧
    (∀ snippet, Snippet.ofSource definition.body = .ok snippet →
      snippet.branching = false →
      (∀ command ∈ snippet.statements.filterMap Statement.command?, command.isUnmarked = true) →
      (CustomCommand.lowerDefinition definition = .ok none ↔
        ∃ statement ∈ snippet.statements, CustomCommand.resists statement = true)) := by
  refine ⟨Lowering.hasTodo_iff command, ?_, ?_, ?_⟩
  · intro hunmarked
    have hexact := Lowering.hasTodo_of_isUnmarked hunmarked
    refine ⟨hexact, fun htodo => ?_⟩
    exact Lowering.diagnostics_ne_nil_of_leavesPlaceholder (hexact ▸ htodo)
  · intro file hfile
    refine ⟨converted_ofSpec hfile, ?_⟩
    intro command hcommand hknown hunmarked
    rw [isConverted, if_pos hknown, Lowering.hasTodo_of_isUnmarked hunmarked]
  · intro snippet hsnippet hbranching hunmarked
    rw [CustomCommand.lowerDefinition_eq_none_iff hsnippet, hbranching]
    have hsame : ∀ statement ∈ snippet.statements,
        CustomCommand.stopsBody false statement = CustomCommand.resists statement := by
      intro statement hstatement
      refine CustomCommand.stopsBody_eq_resists fun command hcommand => ?_
      exact hunmarked command (List.mem_filterMap.mpr ⟨statement, hstatement, hcommand⟩)
    constructor
    · rintro ⟨statement, hmem, hstops⟩
      exact ⟨statement, hmem, hsame statement hmem ▸ hstops⟩
    · rintro ⟨statement, hmem, hresists⟩
      exact ⟨statement, hmem, (hsame statement hmem).trans hresists⟩

/-- A test with a click and with a method that has no rule. -/
def shakeSpec : SpecFile :=
  { path := "a.cy.js"
    nodes :=
      [.test (.string "x") .none
        [.command ⟨"get", [.string "#a"], [⟨"click", []⟩]⟩ default,
         .command ⟨"get", [.string "#a"], [⟨"shake", []⟩]⟩ default] default] }

/-- A custom command with the same statements. -/
def shakeDefinition : Definition :=
  { name := "nudge", body := "cy.get('#a').click();\ncy.get('#a').shake();" }

theorem todo_search_exact_shake :
    (Command.lower ⟨"get", [.string "#a"], [⟨"shake", []⟩]⟩).hasTodo =
      leavesPlaceholder ⟨"get", [.string "#a"], [⟨"shake", []⟩]⟩ ∧
    (∃ file, TestFile.ofSpec shakeSpec [] {} = .ok file ∧ file.converted = 1) ∧
    CustomCommand.lowerDefinition shakeDefinition = .ok none := by
  obtain ⟨-, hcommand, hfile, hbody⟩ :=
    todo_search_exact ⟨"get", [.string "#a"], [⟨"shake", []⟩]⟩ shakeSpec [] {} shakeDefinition
  refine ⟨(hcommand (by decide +kernel)).1, ?_, ?_⟩
  · obtain ⟨file, hspec⟩ : ∃ file, TestFile.ofSpec shakeSpec [] {} = .ok file := by
      exact Failure.exists_of_isSome (by decide +kernel)
    refine ⟨file, hspec, (hfile _ hspec).1.trans ?_⟩
    decide +kernel
  · obtain ⟨snippet, hsnippet⟩ : ∃ snippet,
        Snippet.ofSource shakeDefinition.body = .ok snippet := by
      exact Failure.exists_of_isSome (by decide +kernel)
    have hfacts : (Snippet.ofSource shakeDefinition.body).toOption.map
        (fun snippet => (snippet.branching,
          (snippet.statements.filterMap Statement.command?).all Command.isUnmarked,
          snippet.statements.any CustomCommand.resists)) = some (false, true, true) := by
      decide +kernel
    rw [hsnippet] at hfacts
    simp only [Except.toOption, Option.map_some, Option.some.injEq, Prod.mk.injEq] at hfacts
    obtain ⟨hbranching, hunmarked, hresists⟩ := hfacts
    refine (hbody snippet hsnippet hbranching ?_).mpr (List.any_eq_true.mp hresists)
    exact List.all_eq_true.mp hunmarked

/-- A text that is written to the console looks like a placeholder. -/
theorem log_taken_for_placeholder :
    (Command.lower ⟨"log", [.string "// TODO: later"], []⟩).code =
      "console.log('// TODO: later')" ∧
    (Command.lower ⟨"log", [.string "// TODO: later"], []⟩).hasTodo = true ∧
    leavesPlaceholder ⟨"log", [.string "// TODO: later"], []⟩ = false ∧
    (Command.lower ⟨"log", [.string "// TODO: later"], []⟩).diagnostics = [] := by
  decide +kernel

end Output
end SuiteShift
