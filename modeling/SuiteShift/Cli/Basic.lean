import SuiteShift.Cli.Arguments
import SuiteShift.Cli.Display
import SuiteShift.Conversion.Basic

/-!
# The command line

`run` carries out a command line on a workspace. It says what is printed, how the program ends
and which workspace it leaves; the outer layer does nothing but that.

- `convert`, `check`: a whole project.
- `file`: a single source file.
- `translate`, `classify`: a single command.
-/

namespace SuiteShift
namespace Cli

open Output (FileReport Report)

/-- Something printed. -/
inductive Printed where
  | text (text : String)
  /-- The time the program took. -/
  | elapsed
deriving DecidableEq, Repr

namespace Printed

/-- The printed text, given the time. -/
def render (elapsed : String) : List Printed → String
  | [] => ""
  | .text piece :: rest => piece ++ render elapsed rest
  | .elapsed :: rest => elapsed ++ render elapsed rest

end Printed

/-- How the program ends. -/
inductive Exit where
  | success
  /-- An error was reported. -/
  | failure
  /-- The command line makes no sense. -/
  | usage
  /-- Source text was met that cannot be handled. -/
  | abort
deriving DecidableEq, Repr

namespace Exit

/-- The code for the environment. -/
def code : Exit → Nat
  | .success => 0
  | .failure => 1
  | .usage => 2
  | .abort => 101

/-- How the program ends after an error. -/
def ofError : ConvertError → Exit
  | .splitBlank => .abort
  | _ => .failure

end Exit

/-- What a run of the program prints and leaves. -/
structure Run where
  exit : Exit
  stdout : List Printed := []
  stderr : List String := []
  workspace : Workspace

/-- The lines of an error. -/
def errorLines (e : ConvertError) : List String :=
  [e.code, e.message] ++ (e.help.map ("help: " ++ ·)).toList

/-- Ends with an error. -/
def fail (ws : Workspace) (stdout : List Printed) (e : ConvertError) : Run :=
  let refused := if Exit.ofError e = .abort then [] else [Printed.text refusal]
  { exit := .ofError e, stdout := stdout ++ refused, stderr := errorLines e, workspace := ws }

/-- Ends with an error before anything is printed. -/
def failQuietly (ws : Workspace) (e : ConvertError) : Run :=
  { exit := .ofError e, stderr := errorLines e, workspace := ws }

/-- Ends well. -/
def done (ws : Workspace) (stdout : List Printed) : Run :=
  { exit := .success, stdout, workspace := ws }

/-- The box above a conversion. -/
def header (config : Config) : String :=
  boxTop "◆ cy2pw" ++ boxLine (config.sourceDir ++ " ▸ " ++ config.outDir) ++ boxBottom ++ "\n"

/-- What is printed after a conversion. -/
def summaryText (config : Config) (summary : Conversion.Summary) : String :=
  let report := summary.report
  String.join (report.files.map fileLine) ++ commandList report.commands ++ divider ++
  success (toString summary.specFiles ++ " specs, " ++ toString summary.filesWritten ++
    " files written to " ++ config.outDir) ++
  totalsLine report ++
  (if 0 < report.todoTotal then
    remark ("Details in " ++ Path.join config.outDir Report.fileName)
  else "")

/-- Converts a project. -/
def convertProject (ws : Workspace) (config : Config) : Run :=
  match (Conversion.convert config).run.run ws with
  | (.error e, after) => fail after [.text (header config)] e
  | (.ok summary, after) =>
    done after
      [.text (header config), .text (summaryText config summary),
       .text "  ◇ Converted in ", .elapsed, .text "ms\n"]

/-- The lines of a file with its warnings. -/
def fileDetails (file : FileReport) : String :=
  fileLine file ++
    String.join (file.diagnostics.map fun diagnostic => printLine ("      " ++ diagnostic))

/-- What is printed after a check. -/
def checkText (report : Report) : String :=
  success "Looking good." ++ "\n" ++ String.join (report.files.map fileDetails) ++
    commandList report.commands ++ divider ++ totalsLine report

/-- Checks a project. -/
def checkProject (ws : Workspace) (config : Config) (json : Bool) : Run :=
  match Conversion.check ws config with
  | .error e => fail ws [] e
  | .ok report =>
    done ws [.text (if json then report.toJson.pretty ++ "\n" else checkText report)]

/-- Converts a file and prints or writes the result. -/
def convertFile (ws : Workspace) (path : String) (output : Option String) : Run :=
  match ws.readText path with
  | .error e => failQuietly ws (.access path e)
  | .ok source =>
    match Output.convertSource path source with
    | .error e => failQuietly ws (.ofSource path e)
    | .ok converted =>
      let warnings := converted.report.diagnostics.map fun diagnostic =>
        path ++ ": " ++ diagnostic
      let run :=
        match output with
        | none => done ws [.text converted.code]
        | some output =>
          match (Workspace.writeText output converted.code).run.run ws with
          | (.error e, after) => failQuietly after (.access output e)
          | (.ok (), after) => done after [.text (success ("Wrote " ++ output))]
      { run with stderr := warnings ++ run.stderr }

/-- Lowers a command given as JSON. -/
def lowerText (ws : Workspace) (json : String) : Run :=
  match Command.ofText? json with
  | some command => done ws [.text (command.lower.toJson.pretty ++ "\n")]
  | none =>
    { exit := .failure
      stderr := ["Expected command JSON: \x7b\"name\", \"args\", \"chainedCalls\"\x7d"]
      workspace := ws }

/-- The path stands for the standard input. -/
def isStdin (path : String) : Bool :=
  Path.components path == [.name "-"]

/-- Classifies a custom command in a file or in the standard input. -/
def classifyFile (ws : Workspace) (stdin path : String) : Run :=
  match if isStdin path then .ok stdin else ws.readText path with
  | .error e => failQuietly ws (.access path e)
  | .ok source =>
    match CustomCommand.classify source with
    | .error e => failQuietly ws (.ofSource path e)
    | .ok result => done ws [.text (result.toJson.pretty ++ "\n")]

/-- Where the source project is. -/
def sourceOption : OptionSpec :=
  { long := "source", short := some 's', value := some .path }

/-- Where results go. -/
def outputOption : OptionSpec :=
  { long := "output", short := some 'o', value := some .path }

/-- Which configuration file to use. -/
def configOption : OptionSpec :=
  { long := "config", short := some 'c', value := some .path }

/-- Which dialect the source has. -/
def languageOption : OptionSpec :=
  { long := "language", short := some 'l', value := some .text }

/-- Switch for a conversion without a report. -/
def noReportOption : OptionSpec :=
  { long := "no-report" }

/-- Switch for a conversion without validation. -/
def skipValidationOption : OptionSpec :=
  { long := "skip-validation" }

/-- Switch for a report in JSON. -/
def jsonOption : OptionSpec :=
  { long := "json" }

/-- The subcommands. -/
inductive Subcommand where
  | convert
  | check
  | file
  | translate
  | classify
deriving DecidableEq, Repr

namespace Subcommand

/-- All subcommands. -/
def all : List Subcommand :=
  [.convert, .check, .file, .translate, .classify]

/-- The name, options and operands of a subcommand. -/
def spec : Subcommand → CommandSpec
  | .convert =>
    { name := "convert"
      options := [sourceOption, outputOption, configOption, languageOption, noReportOption,
        skipValidationOption] }
  | .check => { name := "check", options := [sourceOption, configOption, jsonOption] }
  | .file => { name := "file", options := [outputOption], operands := [.path] }
  | .translate => { name := "translate", operands := [.text] }
  | .classify => { name := "classify", operands := [.path] }

end Subcommand

/-- The configuration that a subcommand starts from. -/
def loadConfig (ws : Workspace) (arguments : Arguments) : Except ConvertError Config :=
  match arguments.value? configOption.long with
  | some path => Config.load ws path
  | none => Config.discover ws "."

/-- The configuration with what the options say. -/
def withOptions (arguments : Arguments) (config : Config) : Config :=
  { sourceDir := (arguments.value? sourceOption.long).getD config.sourceDir
    outDir := (arguments.value? outputOption.long).getD config.outDir
    language := (arguments.value? languageOption.long).getD config.language
    writeReport := config.writeReport && !arguments.has noReportOption.long
    skipValidation := config.skipValidation || arguments.has skipValidationOption.long }

/-- Runs with the configuration for some options. -/
def withConfig (ws : Workspace) (arguments : Arguments) (run : Config → Run) : Run :=
  match loadConfig ws arguments with
  | .error e => failQuietly ws e
  | .ok config => run (withOptions arguments config)

/-- The version. -/
def versionText : String :=
  "cy2pw 0.1.0\n"

/-- The help text. -/
def helpText : String :=
  "Convert Cypress test suites to Playwright Test\n\n" ++
  "Usage: cy2pw [OPTIONS] <COMMAND>\n\nCommands:\n" ++
  String.join (Subcommand.all.map fun command => "  " ++ command.spec.name ++ "\n")

/-- The program ends because its command line makes no sense. -/
def misuse (ws : Workspace) : Run :=
  { exit := .usage, stderr := [helpText], workspace := ws }

/-- Carries out a subcommand. -/
def runCommand (ws : Workspace) (stdin : String) (command : Subcommand)
    (arguments : Arguments) : Run :=
  match command, arguments.operands with
  | .convert, _ => withConfig ws arguments (convertProject ws)
  | .check, _ =>
    withConfig ws arguments fun config => checkProject ws config (arguments.has jsonOption.long)
  | .file, [path] => convertFile ws path (arguments.value? outputOption.long)
  | .translate, [json] => lowerText ws json
  | .classify, [path] => classifyFile ws stdin path
  | _, _ => misuse ws

/-- Carries out a command line. -/
def run (ws : Workspace) (stdin : String) (arguments : List String) : Run :=
  match readCommand Subcommand.all Subcommand.spec {} arguments with
  | .ok (command, arguments) => runCommand ws stdin command arguments
  | .help => done ws [.text helpText]
  | .version => done ws [.text versionText]
  | .wrong => misuse ws

/-- The configuration file that a subcommand starts from. -/
def configPath (arguments : Arguments) : String :=
  (arguments.value? configOption.long).getD (Path.join "." Config.fileName)

/-- The paths that a subcommand looks at or writes below, as far as the workspace tells. -/
def reachOf (ws : Workspace) (command : Subcommand) (arguments : Arguments) : List String :=
  match command with
  | .translate => []
  | .classify => arguments.operands
  | .file => arguments.operands ++ (arguments.value? outputOption.long).toList
  | _ =>
    configPath arguments ::
      match loadConfig ws arguments with
      | .error _ => []
      | .ok config =>
        let config := withOptions arguments config
        config.sourceDir :: config.outDir ::
          (Discovery.configCandidates config.sourceDir).map Prod.snd

/-- The paths that a command line looks at or writes below, as far as the workspace tells. -/
def reach (ws : Workspace) (arguments : List String) : List String :=
  match readCommand Subcommand.all Subcommand.spec {} arguments with
  | .ok (command, arguments) => reachOf ws command arguments
  | _ => []

end Cli
end SuiteShift
