import SuiteShift.Output.Report

/-!
# What the command line prints

Lines for reports: marks before messages, a box around the title, a bar for the share of
converted commands. Every function gives text with its line ends.
-/

namespace SuiteShift
namespace Cli

open Output (FileReport CommandReport Report)

/-- A text several times. -/
def repeated (count : Nat) (text : String) : String :=
  String.join (List.replicate count text)

/-- Blanks that fill a text up to a width. -/
def padding (width : Nat) (text : String) : String :=
  repeated (width - text.length) " "

/-- The text filled up on the right. -/
def padRight (width : Nat) (text : String) : String :=
  text ++ padding width text

/-- The text filled up on the left. -/
def padLeft (width : Nat) (text : String) : String :=
  padding width text ++ text

/-- A line behind the common margin. -/
def printLine (text : String) : String :=
  "  " ++ text ++ "\n"

/-- A message about success. -/
def success (message : String) : String :=
  printLine ("◉ " ++ message)

/-- A message about something to check. -/
def caution (message : String) : String :=
  printLine ("◆ " ++ message)

/-- A plain message. -/
def remark (message : String) : String :=
  printLine ("◇ " ++ message)

/-- A line of dashes between empty lines. -/
def divider : String :=
  "\n" ++ printLine (repeated 53 "╌") ++ "\n"

/-- The upper edge of a box with a title. -/
def boxTop (title : String) : String :=
  let padded := " " ++ title ++ " "
  printLine ("╭─" ++ padded ++ repeated (55 - min padded.length 51 - 4) "─" ++ "╮")

/-- A line in a box. -/
def boxLine (content : String) : String :=
  printLine ("│ " ++ padRight 53 content ++ "│")

/-- The lower edge of a box. -/
def boxBottom : String :=
  printLine ("╰" ++ repeated 53 "─" ++ "╯")

/-- The cells of a bar that are filled, of eight; with nothing to do all are. -/
def filledCells (converted total : Nat) : Nat :=
  if total = 0 then 8 else min 8 (converted * 8 / total)

/-- A bar of eight cells. -/
def bar (converted total : Nat) : String :=
  let filled := filledCells converted total
  repeated filled "▰" ++ repeated (8 - filled) "▱"

/-- The line of a generated file. -/
def fileLine (file : FileReport) : String :=
  let todos := if file.todos = 0 then "" else "   " ++ toString file.todos ++ " TODO"
  printLine ("▸   " ++ padRight 32 file.output ++ " " ++ padLeft 3 (toString file.converted) ++
    "/" ++ padRight 3 (toString file.commands) ++ " " ++ bar file.converted file.commands ++ todos)

/-- The line of a custom command in the list of all, and its warnings. -/
def commandLines (last : Bool) (command : CommandReport) : String :=
  let connector := if last then "╰──" else "├──"
  printLine ("  " ++ connector ++ "  " ++ command.name ++ "   " ++ command.strategy.name ++ " · " ++
    command.complexity.name) ++
  String.join (command.warnings.map fun warning => printLine ("        " ++ warning))

/-- The lines of custom commands. -/
def commandTree : List CommandReport → String
  | [] => ""
  | [command] => commandLines true command
  | command :: commands => commandLines false command ++ commandTree commands

/-- The list of all custom commands, if there are any. -/
def commandList (commands : List CommandReport) : String :=
  if commands.isEmpty then ""
  else "\n" ++ remark "Custom commands:" ++ commandTree commands

/-- The line with the totals. -/
def totalsLine (report : Report) : String :=
  let message :=
    toString report.convertedTotal ++ "/" ++ toString report.commandTotal ++
      " commands converted (" ++ report.rate.fixed 0 ++ "%) · " ++ toString report.todoTotal ++
      " TODO · " ++ toString report.diagnosticTotal ++ " diagnostics"
  if report.todoTotal = 0 then success message else caution message

/-- The message of a failed conversion. -/
def refusal : String :=
  "\n" ++ caution "Nope." ++ "\n"

end Cli
end SuiteShift
