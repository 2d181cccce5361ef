import SuiteShift.Output.Basic
import SuiteShift.Proofs.Output.TodoCount
import Mathlib.Algebra.Order.BigOperators.Group.List
import Mathlib.Algebra.Order.Ring.Nat

/-!
# The numbers of a report

A report counts commands while tests are written. Two other walks over the same tree count them
without writing: the count of a source file, and the list of all its calls.

- `TestNode.commandCountOf_eq_length`: the count is the length of the list.
- `commands_writeNodes`: so is the number that was gathered while writing.
- `IsReadable`, `succeeds_ofSpec_iff`: which files can be written at all.
- `report_counts`: files and whole projects.
-/

namespace SuiteShift

namespace Statement

theorem isCommand_eq_isSome
    (statement : Statement) :
    statement.isCommand = statement.command?.isSome := by
  cases statement <;> rfl

theorem countP_isCommand
    (body : List Statement) :
    body.countP isCommand = (body.filterMap command?).length := by
  rw [List.length_filterMap_eq_countP]
  exact List.countP_congr fun statement _ => by rw [isCommand_eq_isSome]

end Statement

namespace TestNode

mutual

theorem commandCount_eq_length
    (node : TestNode) :
    node.commandCount = node.commands.length := by
  cases node with
  | suite title modifier children span =>
      rw [commandCount, commands, commandCountOf_eq_length children]
  | test title modifier body span =>
      rw [commandCount, commands, Statement.countP_isCommand]
  | hook kind body span =>
      rw [commandCount, commands, Statement.countP_isCommand]
  | statement loose =>
      rw [commandCount, commands]
      cases loose <;> rfl

/-- The count of a list of nodes is the number of commands that a walk over it meets. -/
theorem commandCountOf_eq_length
    (nodes : List TestNode) :
    commandCountOf nodes = (commandsOf nodes).length := by
  cases nodes with
  | nil =>
      rw [commandCountOf, commandsOf, List.length_nil]
  | cons node nodes =>
      rw [commandCountOf, commandsOf, List.length_append, commandCount_eq_length node,
        commandCountOf_eq_length nodes]

end

mutual

theorem bodyCommands_sublist
    (node : TestNode) :
    node.bodyCommands.Sublist node.commands := by
  cases node with
  | suite title modifier children span =>
      rw [bodyCommands, commands]
      exact bodyCommandsOf_sublist children
  | test title modifier body span =>
      rw [bodyCommands, commands]
  | hook kind body span =>
      rw [bodyCommands, commands]
  | statement loose =>
      rw [bodyCommands]
      exact List.nil_sublist _

/-- Tests and hooks hold some of the commands of a file. -/
theorem bodyCommandsOf_sublist
    (nodes : List TestNode) :
    (bodyCommandsOf nodes).Sublist (commandsOf nodes) := by
  cases nodes with
  | nil =>
      rw [bodyCommandsOf]
      exact List.nil_sublist _
  | cons node nodes =>
      rw [bodyCommandsOf, commandsOf]
      exact (bodyCommands_sublist node).append (bodyCommandsOf_sublist nodes)

end

end TestNode

namespace Output

/-! ### Commands that were written -/

namespace Written

@[simp] theorem commands_append
    (a b : Written) :
    (a ++ b).commands = a.commands + b.commands := by
  rfl

@[simp] theorem commands_line
    (depth : Nat)
    (text : String) :
    (line depth text).commands = 0 := by
  rfl

@[simp] theorem commands_block
    (depth : Nat)
    (code : String) :
    (block depth code).commands = 0 := by
  rfl

@[simp] theorem commands_warnings
    (span : Span)
    (messages : List String) :
    (warnings span messages).commands = 0 := by
  rfl

@[simp] theorem commands_counted
    (converted : Bool) :
    (counted converted).commands = 1 := by
  rfl

end Written

theorem commands_writeRaw
    (depth : Nat)
    (text : String)
    (span : Span) :
    (writeRaw depth text span).commands = 0 := by
  unfold writeRaw
  split_ifs <;> simp

theorem commands_writeLoose
    (depth : Nat)
    (statement : Statement) :
    (writeLoose depth statement).commands = if statement.isCommand then 1 else 0 := by
  cases statement with
  | raw text span =>
      exact commands_writeRaw depth text span
  | command command span =>
      simp [writeLoose, writeStray, Statement.isCommand]

variable {registry : Registry}

/-- A command as the call that was found for it, or as it is lowered. -/
def writeCalled (depth : Nat) (command : Command) (span : Span) : Option CallSite → Written
  | some site => writeSite depth span site
  | none => writeResult depth span command.lower

theorem writeCommand_eq
    (depth : Nat)
    (command : Command)
    (span : Span) :
    writeCommand registry depth command span =
      ((if (Rule.CommandRule.find? command.name).isSome then .ok none
        else registry.callSite? command).map (writeCalled depth command span)) := by
  unfold writeCommand
  split_ifs
  · rfl
  · cases registry.callSite? command with
    | error reason =>
        rfl
    | ok site? =>
        cases site? <;> rfl

/-- A command is counted once, whichever way it is written. -/
theorem commands_writeCommand
    {depth : Nat}
    {command : Command}
    {span : Span}
    {written : Written}
    (h : writeCommand registry depth command span = .ok written) :
    written.commands = 1 := by
  rw [writeCommand_eq, Failure.map_eq_ok] at h
  obtain ⟨site?, -, rfl⟩ := h
  cases site? with
  | none =>
      simp only [writeCalled, writeResult, Written.commands_append]
      split_ifs <;> simp
  | some site =>
      simp [writeCalled, writeSite]

theorem commands_writeStatement
    {depth : Nat}
    {statement : Statement}
    {written : Written}
    (h : writeStatement registry depth statement = .ok written) :
    written.commands = if statement.isCommand then 1 else 0 := by
  cases statement with
  | raw text span =>
      cases h
      exact commands_writeRaw depth text span
  | command command span =>
      exact commands_writeCommand h

theorem commands_writeBody
    {depth : Nat}
    {body : List Statement}
    {written : Written}
    (h : writeBody registry depth body = .ok written) :
    written.commands = body.countP Statement.isCommand := by
  induction body generalizing written with
  | nil =>
      cases h
      rfl
  | cons statement body ih =>
      obtain ⟨first, hfirst, h⟩ := Failure.bind_eq_ok.mp h
      obtain ⟨rest, hrest, h⟩ := Failure.bind_eq_ok.mp h
      cases h
      rw [Written.commands_append, commands_writeStatement hfirst, ih hrest, List.countP_cons,
        Nat.add_comm]

theorem commands_writeHook
    (depth : Nat)
    (kind : HookKind)
    (span : Span)
    (body : Written) :
    (writeHook depth kind span body).commands = body.commands := by
  cases kind <;> simp [writeHook, writeEach, writeOnce]

mutual

theorem commands_writeNode
    {depth : Nat}
    {written : Written}
    (node : TestNode)
    (h : writeNode registry depth node = .ok written) :
    written.commands = node.commandCount := by
  cases node with
  | suite title modifier children span =>
      rw [writeNode] at h
      obtain ⟨body, hbody, h⟩ := Failure.bind_eq_ok.mp h
      cases h
      simp [TestNode.commandCount, commands_writeNodes children hbody]
  | test title modifier statements span =>
      rw [writeNode] at h
      obtain ⟨body, hbody, h⟩ := Failure.bind_eq_ok.mp h
      cases h
      simp [TestNode.commandCount, commands_writeBody hbody]
  | hook kind statements span =>
      rw [writeNode] at h
      obtain ⟨body, hbody, h⟩ := Failure.bind_eq_ok.mp h
      cases h
      rw [TestNode.commandCount, commands_writeHook, commands_writeBody hbody]
  | statement loose =>
      rw [writeNode] at h
      cases h
      rw [TestNode.commandCount, commands_writeLoose]

/-- What is written for a list of nodes counts their commands, at any depth and also outside of
tests. -/
theorem commands_writeNodes
    {depth : Nat}
    {afterBlock afterText : Bool}
    {written : Written}
    (nodes : List TestNode)
    (h : writeNodes registry depth afterBlock afterText nodes = .ok written) :
    written.commands = TestNode.commandCountOf nodes := by
  cases nodes with
  | nil =>
      rw [writeNodes] at h
      cases h
      rw [TestNode.commandCountOf]
  | cons node nodes =>
      rw [writeNodes] at h
      obtain ⟨part, hpart, h⟩ := Failure.bind_eq_ok.mp h
      obtain ⟨rest, hrest, h⟩ := Failure.bind_eq_ok.mp h
      cases h
      rw [TestNode.commandCountOf, ← commands_writeNode node hpart,
        ← commands_writeNodes nodes hrest, Written.commands_append, Written.commands_append]
      split_ifs <;> simp

end

/-! ### Files that can be written -/

open Failure (Succeeds)

/-- A call that is written as the statement it is classified as can be read: if its text holds a
registration, so can the body of that. -/
def IsReadable (registry : Registry) (command : Command) : Prop :=
  Rule.CommandRule.find? command.name = none →
    registry.strategy? command.name = some .direct →
      Succeeds (CustomCommand.classify { command with calls := [] }.source)

theorem succeeds_callSite?_iff
    {command : Command} :
    Succeeds (registry.callSite? command) ↔
      (registry.strategy? command.name = some .direct →
        Succeeds (CustomCommand.classify { command with calls := [] }.source)) := by
  unfold Registry.callSite?
  cases hstrategy : registry.strategy? command.name with
  | none =>
      simp [Failure.succeeds_ok]
  | some strategy =>
      dsimp only
      rw [Failure.succeeds_map_iff]
      cases strategy with
      | direct =>
          rw [Registry.baseSite, Failure.succeeds_bind_ok_iff]
          simp
      | utility =>
          simp [Registry.baseSite, Failure.succeeds_ok]
      | pageObject =>
          simp [Registry.baseSite, Failure.succeeds_ok]
      | manual =>
          simp [Registry.baseSite, Failure.succeeds_ok]

theorem succeeds_writeCommand_iff
    {depth : Nat}
    {command : Command}
    {span : Span} :
    Succeeds (writeCommand registry depth command span) ↔ IsReadable registry command := by
  rw [writeCommand_eq, Failure.succeeds_map_iff, IsReadable]
  cases Rule.CommandRule.find? command.name with
  | some rule =>
      simp [Failure.succeeds_ok]
  | none =>
      simp [succeeds_callSite?_iff]

theorem succeeds_writeStatement_iff
    {depth : Nat}
    {statement : Statement} :
    Succeeds (writeStatement registry depth statement) ↔
      ∀ command ∈ statement.command?, IsReadable registry command := by
  cases statement with
  | raw text span =>
      simp [writeStatement, Statement.command?, Failure.succeeds_ok]
  | command command span =>
      simp [writeStatement, Statement.command?, succeeds_writeCommand_iff]

theorem succeeds_writeBody_iff
    {depth : Nat}
    {body : List Statement} :
    Succeeds (writeBody registry depth body) ↔
      ∀ command ∈ body.filterMap Statement.command?, IsReadable registry command := by
  induction body with
  | nil =>
      simp [writeBody, Failure.succeeds_ok]
  | cons statement body ih =>
      have hrest : ∀ first, Succeeds (writeBody registry depth body >>= fun rest =>
          (.ok (first ++ rest) : Except SourceError Written)) ↔
            ∀ command ∈ body.filterMap Statement.command?, IsReadable registry command := by
        intro first
        rw [Failure.succeeds_bind_ok_iff, ih]
      rw [writeBody, Failure.succeeds_bind_iff_of_forall hrest, succeeds_writeStatement_iff]
      cases hcommand : statement.command? with
      | none =>
          simp [List.filterMap_cons_none hcommand]
      | some command =>
          simp [List.filterMap_cons_some hcommand]

mutual

theorem succeeds_writeNode_iff
    (depth : Nat)
    (node : TestNode) :
    Succeeds (writeNode registry depth node) ↔
      ∀ command ∈ node.bodyCommands, IsReadable registry command := by
  cases node with
  | suite title modifier children span =>
      rw [writeNode, TestNode.bodyCommands, Failure.succeeds_bind_ok_iff,
        succeeds_writeNodes_iff children]
  | test title modifier body span =>
      rw [writeNode, TestNode.bodyCommands, Failure.succeeds_bind_ok_iff, succeeds_writeBody_iff]
  | hook kind body span =>
      rw [writeNode, TestNode.bodyCommands, Failure.succeeds_bind_ok_iff, succeeds_writeBody_iff]
  | statement loose =>
      simp [writeNode, TestNode.bodyCommands, Failure.succeeds_ok]

/-- A list of nodes can be written if the calls in its tests and hooks can be read. -/
theorem succeeds_writeNodes_iff
    {depth : Nat}
    {afterBlock afterText : Bool}
    (nodes : List TestNode) :
    Succeeds (writeNodes registry depth afterBlock afterText nodes) ↔
      ∀ command ∈ TestNode.bodyCommandsOf nodes, IsReadable registry command := by
  cases nodes with
  | nil =>
      simp [writeNodes, TestNode.bodyCommandsOf, Failure.succeeds_ok]
  | cons node nodes =>
      rw [writeNodes, TestNode.bodyCommandsOf, List.forall_mem_append,
        ← succeeds_writeNode_iff depth node]
      refine Failure.succeeds_bind_iff_of_forall fun part => ?_
      dsimp only
      rw [Failure.succeeds_bind_ok_iff, succeeds_writeNodes_iff nodes]

end

theorem succeeds_ofSpec_iff
    {spec : SpecFile}
    {output : List Path.Component} :
    Succeeds (TestFile.ofSpec spec output registry) ↔
      ∀ command ∈ TestNode.bodyCommandsOf spec.nodes, IsReadable registry command := by
  rw [TestFile.ofSpec, Failure.succeeds_map_iff, succeeds_writeNodes_iff]

/-- A project can be generated if its custom commands can be classified and the calls in its tests
and hooks can be read. -/
theorem succeeds_generate_iff
    {project : Project} :
    Succeeds (generate project) ↔
      ∃ commands, classifyAll project.definitions project.specs = .ok commands ∧
        ∀ spec ∈ project.specs, ∀ command ∈ TestNode.bodyCommandsOf spec.nodes,
          IsReadable (.ofClassifications commands) command := by
  rw [generate, Failure.succeeds_bind_iff]
  simp only [Failure.succeeds_bind_ok_iff, Failure.succeeds_mapM_iff, generateSpec,
    succeeds_ofSpec_iff]

/-! ### Reports -/

theorem counts_ofSpec
    {spec : SpecFile}
    {output : List Path.Component}
    {file : TestFile}
    (h : TestFile.ofSpec spec output registry = .ok file) :
    file.commands = spec.commandCount ∧ file.converted ≤ file.commands := by
  have hconverted := converted_ofSpec h
  obtain ⟨written, hwritten, rfl⟩ := Failure.map_eq_ok.mp h
  have hcommands := commands_writeNodes spec.nodes hwritten
  refine ⟨hcommands, ?_⟩
  calc (TestFile.ofWritten output written).converted
      _ = (TestNode.bodyCommandsOf spec.nodes).countP (isConverted registry) := hconverted
      _ ≤ (TestNode.bodyCommandsOf spec.nodes).length := List.countP_le_length
      _ ≤ (TestNode.commandsOf spec.nodes).length :=
        (TestNode.bodyCommandsOf_sublist spec.nodes).length_le
      _ = written.commands := by rw [hcommands, TestNode.commandCountOf_eq_length]

namespace Report

theorem total_eq_sum
    (count : FileReport → Nat)
    (report : Report) :
    report.total count = (report.files.map count).sum := by
  rw [total, List.sum_eq_foldr, List.foldr_map]

end Report

/-- The report on a file has the numbers of its source file. -/
def CountsSpec (spec : SpecFile) (file : FileReport) : Prop :=
  file.commands = spec.commandCount ∧ file.converted ≤ file.commands

theorem countsSpec_of_generateSpec
    {directory : String}
    {spec : SpecFile}
    {test : OutputFile × FileReport}
    (h : generateSpec directory registry spec = .ok test) :
    CountsSpec spec test.2 := by
  obtain ⟨file, hfile, h⟩ := Failure.bind_eq_ok.mp h
  cases h
  exact counts_ofSpec hfile

/-- A report has one entry for each source file, in order. -/
theorem forall₂_countsSpec
    {project : Project}
    {generated : Generated}
    (h : generate project = .ok generated) :
    List.Forall₂ CountsSpec project.specs generated.report.files := by
  obtain ⟨commands, -, h⟩ := Failure.bind_eq_ok.mp h
  obtain ⟨tests, htests, h⟩ := Failure.bind_eq_ok.mp h
  cases h
  rw [List.forall₂_map_right_iff]
  exact (Failure.forall₂_of_mapM htests).imp fun _ _ htest => countsSpec_of_generateSpec htest

/-- The totals of reports on source files. -/
theorem total_of_forall₂
    {specs : List SpecFile}
    {report : Report}
    (h : List.Forall₂ CountsSpec specs report.files) :
    report.files.length = specs.length ∧
    report.commandTotal = (specs.map SpecFile.commandCount).sum ∧
    report.convertedTotal ≤ report.commandTotal := by
  have hcounts : report.files.map (·.commands) = specs.map SpecFile.commandCount := by
    rw [← List.forall₂_eq_eq_eq, List.forall₂_map_left_iff, List.forall₂_map_right_iff]
    exact h.flip.imp fun _ _ hfile => hfile.1
  refine ⟨h.length_eq.symm, ?_, ?_⟩
  · rw [Report.commandTotal, Report.total_eq_sum, hcounts]
  · rw [Report.convertedTotal, Report.commandTotal, Report.total_eq_sum, Report.total_eq_sum]
    refine List.sum_le_sum fun file hfile => ?_
    obtain ⟨i, hi, rfl⟩ := List.getElem_of_mem hfile
    exact (h.get (h.length_eq ▸ hi) hi).2

/-- The commands of a generated test file are those that its source file counts, and those that a
walk over it meets; no more of them are converted. So the totals of a report are the sums over the
source files, one entry for each. Both are there whenever the calls can be read. -/
theorem report_counts
    (spec : SpecFile)
    (output : List Path.Component)
    (registry : Registry)
    (project : Project) :
    (Succeeds (TestFile.ofSpec spec output registry) ↔
      ∀ command ∈ TestNode.bodyCommandsOf spec.nodes, IsReadable registry command) ∧
    (∀ file, TestFile.ofSpec spec output registry = .ok file →
      file.commands = spec.commandCount ∧
      file.commands = (TestNode.commandsOf spec.nodes).length ∧
      file.converted ≤ file.commands) ∧
    (Succeeds (generate project) ↔
      ∃ commands, classifyAll project.definitions project.specs = .ok commands ∧
        ∀ spec ∈ project.specs, ∀ command ∈ TestNode.bodyCommandsOf spec.nodes,
          IsReadable (.ofClassifications commands) command) ∧
    (∀ generated, generate project = .ok generated →
      generated.report.files.length = project.specs.length ∧
      generated.report.commandTotal = (project.specs.map SpecFile.commandCount).sum ∧
      generated.report.convertedTotal ≤ generated.report.commandTotal ∧
      generated.report.diagnosticTotal =
        (generated.report.files.flatMap (·.diagnostics)).length) := by
  refine ⟨succeeds_ofSpec_iff, ?_, succeeds_generate_iff, ?_⟩
  · intro file hfile
    obtain ⟨hcommands, hconverted⟩ := counts_ofSpec hfile
    refine ⟨hcommands, ?_, hconverted⟩
    rw [hcommands, SpecFile.commandCount, TestNode.commandCountOf_eq_length]
  · intro generated hgenerated
    obtain ⟨hfiles, hcommands, hconverted⟩ := total_of_forall₂ (forall₂_countsSpec hgenerated)
    refine ⟨hfiles, hcommands, hconverted, ?_⟩
    rw [Report.diagnosticTotal, Report.total_eq_sum, List.length_flatMap]

/-- A hook and a test in nested suites, and a command outside of all tests. -/
def nestedSpec : SpecFile :=
  { path := "cypress/e2e/a.cy.js"
    nodes :=
      [.suite (.string "outer") .none
        [.hook .before [.command ⟨"visit", [.string "/"], []⟩ default] default,
         .suite (.string "inner") .skip
          [.test (.string "x") .none
            [.command ⟨"get", [.string "#a"], [⟨"click", []⟩]⟩ default,
             .command ⟨"task", [.string "seed"], []⟩ default,
             .raw "const n = 1;" default] default] default] default,
       .statement (.command ⟨"reload", [], []⟩ default)] }

theorem report_counts_nested :
    (∃ file, TestFile.ofSpec nestedSpec [] {} = .ok file ∧
      file.commands = 4 ∧ file.converted ≤ 4) ∧
    ∃ generated,
      generate { sourceDir := "cypress", specs := [nestedSpec, nestedSpec] } = .ok generated ∧
      generated.report.files.length = 2 ∧
      generated.report.commandTotal = 8 ∧
      generated.report.convertedTotal ≤ 8 := by
  obtain ⟨-, hfile, -, hgenerated⟩ :=
    report_counts nestedSpec [] {} { sourceDir := "cypress", specs := [nestedSpec, nestedSpec] }
  have hcount : nestedSpec.commandCount = 4 := by
    decide +kernel
  constructor
  · obtain ⟨file, hspec⟩ : ∃ file, TestFile.ofSpec nestedSpec [] {} = .ok file := by
      exact Failure.exists_of_isSome (by decide +kernel)
    obtain ⟨hcommands, -, hconverted⟩ := hfile file hspec
    rw [hcommands, hcount] at hconverted
    exact ⟨file, hspec, hcommands.trans hcount, hconverted⟩
  · obtain ⟨generated, hproject⟩ : ∃ generated,
        generate { sourceDir := "cypress", specs := [nestedSpec, nestedSpec] } =
          .ok generated := by
      exact Failure.exists_of_isSome (by decide +kernel)
    obtain ⟨hfiles, hcommands, hconverted, -⟩ := hgenerated generated hproject
    have htotal : generated.report.commandTotal = 8 := by
      rw [hcommands]
      simp [hcount]
    rw [htotal] at hconverted
    exact ⟨generated, hproject, hfiles, htotal, hconverted⟩

end Output
end SuiteShift
