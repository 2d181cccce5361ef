import SuiteShift.Conversion.Config
import SuiteShift.Conversion.Discovery
import SuiteShift.Conversion.Validation
import SuiteShift.Output.Basic
import SuiteShift.Json.Printer

/-!
# Conversion of a project

- `prepare`: reads, checks and converts in memory.
- `check`: the report, without any change.
- `convert`: writes the generated files and the report. Nothing is written if `prepare` fails.
-/

namespace SuiteShift
namespace Conversion

open Output (Generated OutputFile Report)

/-- Reads a project and checks it. -/
def load (ws : Workspace) (config : Config) : Except ConvertError Project := do
  let project ← Discovery.loadProject ws config.language config.sourceDir
  if config.skipValidation then .ok project
  else
    Validation.check project
    .ok project

/-- Generates a project. -/
def generate (project : Project) : Except ConvertError Generated :=
  (Output.generate project).mapError (.ofSource project.sourceDir)

/-- Reads a project, checks it and converts it in memory. -/
def prepare (ws : Workspace) (config : Config) : Except ConvertError Generated := do
  generate (← load ws config)

/-- The report on a conversion that is not carried out. -/
def check (ws : Workspace) (config : Config) : Except ConvertError Report :=
  (prepare ws config).map Generated.report

/-- Words an access error with its path. -/
def withPath {α : Type} (path : String) (change : Workspace.Edit AccessError α) :
    Workspace.Edit ConvertError α :=
  ExceptT.adapt (ConvertError.access path) change

/-- Writes a file below the output directory. -/
def writeFile (outDir : String) (file : OutputFile) : Workspace.Edit ConvertError Unit := do
  let path := Path.join outDir file.path
  match Path.parent? path with
  | some directory => withPath directory (Workspace.makeDirectories directory)
  | none => pure ()
  withPath path (Workspace.writeText path file.text)

/-- Writes files below the output directory. -/
def writeFiles (outDir : String) (files : List OutputFile) :
    Workspace.Edit ConvertError Unit := do
  withPath outDir (Workspace.makeDirectories outDir)
  files.forM (writeFile outDir)

/-- Writes a report into the output directory. -/
def writeReport (outDir : String) (report : Report) : Workspace.Edit ConvertError Unit :=
  let path := Path.join outDir Report.fileName
  withPath path (Workspace.writeText path report.toJson.pretty)

/-- What a conversion did. -/
structure Summary where
  specFiles : Nat
  filesWritten : Nat
  report : Report

/-- Converts a project and writes the result. -/
def convert (config : Config) : Workspace.Edit ConvertError Summary := do
  match prepare (← get) config with
  | .error e => throw e
  | .ok generated =>
    writeFiles config.outDir generated.files
    if config.writeReport then writeReport config.outDir generated.report
    pure
      { specFiles := generated.report.files.length
        filesWritten := generated.files.length
        report := generated.report }

end Conversion
end SuiteShift
