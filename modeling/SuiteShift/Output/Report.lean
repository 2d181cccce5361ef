import SuiteShift.CustomCommand.Classification
import SuiteShift.Number.Fixed

/-!
# Reports

A report lists the generated files and the custom commands with what there is to say about each,
and the totals. `Report.rate` is the share of commands that were converted, in percent.
-/

namespace SuiteShift
namespace Output

/-- What there is to say about a generated test file. -/
structure FileReport where
  source : String
  output : String
  commands : Nat
  converted : Nat
  todos : Nat
  diagnostics : List String
deriving DecidableEq, Repr

namespace FileReport

/-- The JSON form. -/
def toJson (file : FileReport) : Json :=
  .object
    [("source", .text file.source),
     ("output", .text file.output),
     ("commands", Json.ofNat file.commands),
     ("converted", Json.ofNat file.converted),
     ("todos", Json.ofNat file.todos),
     ("diagnostics", Json.ofTexts file.diagnostics)]

end FileReport

/-- What there is to say about a custom command. -/
structure CommandReport where
  name : String
  strategy : Strategy
  complexity : Complexity
  warnings : List String
deriving DecidableEq, Repr

namespace CommandReport

/-- The report on a classified command; errors follow the warnings. -/
def ofClassification (c : Classification) : CommandReport :=
  { name := c.name
    strategy := c.strategy
    complexity := c.complexity
    warnings := c.warnings ++ c.errors }

/-- The JSON form. -/
def toJson (command : CommandReport) : Json :=
  .object
    [("name", .text command.name),
     ("strategy", .text command.strategy.name),
     ("complexity", .text command.complexity.name),
     ("warnings", Json.ofTexts command.warnings)]

end CommandReport

/-- The report on a conversion. -/
structure Report where
  files : List FileReport
  commands : List CommandReport
deriving DecidableEq, Repr

namespace Report

/-- The sum of a count over all files. -/
def total (count : FileReport → Nat) (report : Report) : Nat :=
  report.files.foldr (fun file sum => count file + sum) 0

/-- Commands in all files. -/
def commandTotal : Report → Nat := total (·.commands)

/-- Converted commands in all files. -/
def convertedTotal : Report → Nat := total (·.converted)

/-- Placeholders in all files. -/
def todoTotal : Report → Nat := total (·.todos)

/-- Warnings in all files. -/
def diagnosticTotal : Report → Nat := total (·.diagnostics.length)

/-- Custom commands that are left to a person. -/
def manualTotal (report : Report) : Nat :=
  report.commands.countP fun command => command.strategy = .manual

/-- The share of converted commands in percent; without commands it is all of them. -/
def rate (report : Report) : Double :=
  if report.commandTotal = 0 then Double.ofNat 100
  else
    ((Double.ofNat report.convertedTotal).mul (Double.ofNat 100)).div
      (Double.ofNat report.commandTotal)

/-- The JSON form of the totals. -/
def totalsJson (report : Report) : Json :=
  .object
    [("files", Json.ofNat report.files.length),
     ("commands", Json.ofNat report.commandTotal),
     ("converted", Json.ofNat report.convertedTotal),
     ("todos", Json.ofNat report.todoTotal),
     ("diagnostics", Json.ofNat report.diagnosticTotal),
     ("customCommands", Json.ofNat report.commands.length),
     ("manualCustomCommands", Json.ofNat report.manualTotal)]

/-- The JSON form. -/
def toJson (report : Report) : Json :=
  .object
    [("totals", report.totalsJson),
     ("files", .array (report.files.map FileReport.toJson)),
     ("customCommands", .array (report.commands.map CommandReport.toJson))]

/-- The file of the report. -/
def fileName : String :=
  "conversion-report.json"

end Report
end Output
end SuiteShift
