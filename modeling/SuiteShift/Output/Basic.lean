import SuiteShift.Output.TestFile
import SuiteShift.Output.Report
import SuiteShift.Spec.Source

/-!
# Generated projects

- `classifyAll`: the custom commands of a project, those with a definition first, then those that
  are only called and have a well-known name.
- `generate`: all files of the generated project with a report; nothing is written to disk.
- `convertSource`: the tests of a single source file.
-/

namespace SuiteShift
namespace Output

/-- The name stands for a well-known custom command and not for a built-in one. -/
def isPatternCall (command : Command) : Bool :=
  (Rule.CommandRule.find? command.name).isNone && CustomCommand.hasPattern command.name

/-- The first call of each well-known command whose name is not known yet. -/
def firstCalls : (known : List String) → List Command → List Command
  | _, [] => []
  | known, command :: commands =>
    if isPatternCall command && !known.contains command.name then
      command :: firstCalls (command.name :: known) commands
    else firstCalls known commands

/-- The commands of a list of test files in source order. -/
def commandsIn (specs : List SpecFile) : List Command :=
  specs.flatMap fun spec => TestNode.commandsOf spec.nodes

/-- Classifies the custom commands of a project. -/
def classifyAll (definitions : List Definition) (specs : List SpecFile) :
    Except SourceError (List Classification) := do
  let defined ← definitions.mapM CustomCommand.classifyDefinition
  let calls := firstCalls (defined.map (·.name)) (commandsIn specs)
  let called ← calls.mapM fun command => CustomCommand.classify command.source
  .ok (defined ++ called)

/-- A generated file: its path below the output directory, and its text. -/
structure OutputFile where
  path : String
  text : String
deriving DecidableEq, Repr

/-- A generated project. -/
structure Generated where
  files : List OutputFile
  report : Report

/-- The report on a generated test file. -/
def TestFile.report (file : TestFile) (source output : String) : FileReport :=
  { source, output
    commands := file.commands
    converted := file.converted
    todos := file.todos
    diagnostics := file.diagnostics }

/-- Generates the tests of a source file. -/
def generateSpec (directory : String) (registry : Registry) (spec : SpecFile) :
    Except SourceError (OutputFile × FileReport) := do
  let relative := Path.componentsBelow directory spec.path
  let output := outputPath relative
  let file ← TestFile.ofSpec spec output registry
  let path := Path.joined output
  .ok (⟨path, file.code⟩, file.report (Path.joined relative) path)

/-- The support files of a project, and its configuration. -/
def sharedFiles (commands : List Classification) (baseUrl : Option String) : List OutputFile :=
  ((helpersText commands).map (OutputFile.mk helpersFile)).toList ++
  ((pageObjectText commands).map (OutputFile.mk pageObjectFile)).toList ++
  [⟨configFile, configText baseUrl⟩]

/-- Generates a project. -/
def generate (project : Project) : Except SourceError Generated := do
  let commands ← classifyAll project.definitions project.specs
  let registry := Registry.ofClassifications commands
  let specs ← project.specs.mapM (generateSpec project.sourceDir registry)
  .ok
    { files := specs.map Prod.fst ++ sharedFiles commands project.baseUrl
      report := ⟨specs.map Prod.snd, commands.map CommandReport.ofClassification⟩ }

/-- The tests of a single source file. -/
structure ConvertedSource where
  code : String
  report : FileReport
  commands : List Classification

/-- Converts a single source file; it knows only the custom commands that it registers itself. -/
def convertSource (path source : String) : Except SourceError ConvertedSource := do
  let spec ← SpecFile.ofSource path source
  let commands ← classifyAll spec.definitions [spec]
  let components := Path.components path
  let output :=
    outputPath (((Path.fileName? components).map fun name => [.name name]).getD components)
  let file ← TestFile.ofSpec spec output (Registry.ofClassifications commands)
  .ok { code := file.code, report := file.report path (Path.render output), commands }

end Output
end SuiteShift
