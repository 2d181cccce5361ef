import SuiteShift.Command.Basic
import SuiteShift.Script.Tree

/-!
# Test suites

The structure of a test file: suites, tests, hooks and loose statements, and the custom commands
that it registers.

- `SpecFile.commandCount` counts the commands of a file at any depth.
- `Definition.ofJson?` reads the JSON form of a definition.
-/

namespace SuiteShift

/-- Where something stands in which file. -/
structure Span where
  file : String
  extent : Script.Extent
deriving DecidableEq, Repr, Inhabited

namespace Span

/-- The line of the beginning, counted from one. -/
def line (span : Span) : Nat :=
  span.extent.start.row + 1

end Span

/-- A custom command that a suite registers. -/
structure Definition where
  name : String
  parameters : List String := []
  body : String := ""
  span : Option Span := none
deriving DecidableEq, Repr, Inhabited

namespace Definition

/-- Reads the JSON form. -/
def ofJson? (json : Json) : Option Definition :=
  match json.fields? .pass ["name", "parameters", "bodyText"] with
  | some [name, parameters, body] => do
    let name ← Json.required? Json.asText? name
    let parameters ← Json.default? [] (Json.listOf? Json.asText?) parameters
    let body ← Json.default? "" Json.asText? body
    pure { name, parameters, body }
  | _ => none

end Definition

/-- A suite or test that runs alone or not at all. -/
inductive Modifier where
  | none
  | only
  | skip
deriving DecidableEq, Repr, Inhabited

/-- When a hook runs. -/
inductive HookKind where
  | before
  | beforeEach
  | after
  | afterEach
deriving DecidableEq, Repr, Inhabited

namespace HookKind

/-- The name of the hook. -/
def name : HookKind → String
  | .before => "before"
  | .beforeEach => "beforeEach"
  | .after => "after"
  | .afterEach => "afterEach"

/-- The hook of a name. -/
def ofName? (name : String) : Option HookKind :=
  [HookKind.before, .beforeEach, .after, .afterEach].find? fun kind => kind.name == name

end HookKind

/-- A statement of a test or hook. -/
inductive Statement where
  | command (command : Command) (span : Span)
  /-- Any other statement, as text. -/
  | raw (text : String) (span : Span)
deriving DecidableEq, Repr, Inhabited

namespace Statement

/-- The statement is a command. -/
def isCommand : Statement → Bool
  | .command _ _ => true
  | .raw _ _ => false

/-- The command of a statement. -/
def command? : Statement → Option Command
  | .command call _ => some call
  | .raw _ _ => none

end Statement

/-- A part of a test file. -/
inductive TestNode where
  | suite (title : Value) (modifier : Modifier) (children : List TestNode) (span : Span)
  | test (title : Value) (modifier : Modifier) (body : List Statement) (span : Span)
  | hook (kind : HookKind) (body : List Statement) (span : Span)
  | statement (statement : Statement)
deriving Inhabited

namespace TestNode

mutual

/-- The commands of a node in source order. -/
def commands : TestNode → List Command
  | .suite _ _ children _ => commandsOf children
  | .test _ _ body _ => body.filterMap Statement.command?
  | .hook _ body _ => body.filterMap Statement.command?
  | .statement loose => loose.command?.toList

/-- The commands of a list of nodes in source order. -/
def commandsOf : List TestNode → List Command
  | [] => []
  | node :: nodes => node.commands ++ commandsOf nodes

end

mutual

/-- The number of commands of a node. -/
def commandCount : TestNode → Nat
  | .suite _ _ children _ => commandCountOf children
  | .test _ _ body _ => body.countP Statement.isCommand
  | .hook _ body _ => body.countP Statement.isCommand
  | .statement loose => if loose.isCommand then 1 else 0

/-- The number of commands of a list of nodes. -/
def commandCountOf : List TestNode → Nat
  | [] => 0
  | node :: nodes => node.commandCount + commandCountOf nodes

end

end TestNode

/-- A test file. -/
structure SpecFile where
  path : String
  nodes : List TestNode
  definitions : List Definition := []

namespace SpecFile

/-- The number of commands in a file. -/
def commandCount (spec : SpecFile) : Nat :=
  TestNode.commandCountOf spec.nodes

end SpecFile

/-- Loose statements. -/
structure Snippet where
  statements : List Statement
  /-- There is a choice or a loop somewhere in the text. -/
  branching : Bool
deriving Inhabited

/-- A suite of test files with what they share. -/
structure Project where
  sourceDir : String
  specs : List SpecFile := []
  definitions : List Definition := []
  baseUrl : Option String := none

end SuiteShift
