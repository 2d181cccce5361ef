import SuiteShift.Lowering.Statement

/-!
# Lowering of a chain

`Command.lower` turns a command into code and never fails: an unknown name or a refused argument
becomes a placeholder and a warning. `statements` chooses by the shape of the chain:

- no chained call: the base call;
- one call on an ordinary base: an assertion or a single action;
- several calls, or a base that must run first: a list of statements.
-/

namespace SuiteShift
namespace Lowering

/-- A lone call on a base: a refinement is still an expression, a dropped call leaves nothing. -/
def singleAction (command : Command) (call : Call) : Outcome Emitted := do
  let base ← baseLocator command
  match ← applyCall base call with
  | .statement statement => .ok statement
  | .refined narrowed => .ok (.code narrowed false)
  | .dropped => .ok (.code "" false)

/-- The base call if it must run first, then the statements of all chained calls. -/
def statementList (command : Command) : Outcome (List Emitted) := do
  if Rule.mustRunFirst command.name then
    let base ← commandStatement command
    let statements ← chainStatements command "page" command.calls
    .ok (base :: statements)
  else
    let locator ← baseLocator command
    chainStatements command locator command.calls

/-- The alias that a query reads. -/
def readAlias? (command : Command) : Option String :=
  if command.name == "get" then
    (command.args.head?.bind Value.asString?).bind Rule.aliasOf?
  else none

/-- The statements of a chain. -/
def statements (command : Command) : Outcome (List Emitted) := do
  match Rule.CommandRule.find? command.name with
  | none =>
    .warn (.unknownCommand command.name)
    .ok [.placeholder command.source]
  | some _ =>
    match readAlias? command with
    | some name => .warn (.aliasRead name)
    | none => .ok ()
    match command.calls with
    | [] =>
      let statement ← commandStatement command
      .ok [statement]
    | [call] =>
      if Rule.mustRunFirst command.name then
        statementList command
      else if isAssertion call || command.name == "url" || command.name == "title" then
        let locator ← baseLocator command
        let statement ← assertionStatement command locator call
        .ok [statement]
      else
        let statement ← singleAction command call
        .ok [statement]
    | _ => statementList command

/-- Code with what it needs and what to check about it. -/
structure Result where
  code : String
  suspends : Bool
  imports : List String
  diagnostics : List String
deriving DecidableEq, Repr

namespace Result

/-- Somewhere in the code stands a placeholder's mark. -/
def hasTodo (result : Result) : Bool :=
  occursIn "// TODO" result.code

/-- The JSON form; warnings are left out when there are none. -/
def toJson (result : Result) : Json :=
  .object
    ([("code", .text result.code),
      ("requiresSuspension", .bool result.suspends),
      ("imports", Json.ofTexts result.imports)] ++
     (if result.diagnostics.isEmpty then []
      else [("diagnostics", Json.ofTexts result.diagnostics)]))

end Result

/-- The text of a list of statements; those without text are left out. -/
def joinStatements (statements : List Emitted) : String :=
  ";\n".intercalate ((statements.filter fun statement => !statement.isEmpty).map Emitted.render)

/-- The gathered result of an outcome for a command. -/
def finish (command : Command) (outcome : Outcome (List Emitted)) : Result :=
  match outcome.result with
  | .ok statements =>
    let context := Context.ofNotes outcome.notes
    { code := joinStatements statements
      suspends := statements.any Emitted.suspends
      imports := context.imports
      diagnostics := context.diagnostics }
  | .error reason =>
    let context :=
      Context.ofNotes (outcome.notes ++ [.warns (.refused command.source reason)])
    { code := Emitted.placeholderText command.source
      suspends := false
      imports := context.imports
      diagnostics := context.diagnostics }

end Lowering

/-- Lowers a command. -/
def Command.lower (command : Command) : Lowering.Result :=
  Lowering.finish command (Lowering.statements command)

end SuiteShift
