import SuiteShift.CustomCommand.Classification
import SuiteShift.Spec.Source
import SuiteShift.Lowering.Basic

/-!
# Bodies of custom commands

The body of a definition is read and each of its commands is lowered. What comes of it
decides the strategy:

- a choice or a loop anywhere: a stub with the lowered statements as comments;
- three or more commands, all of them on elements: a method of the page object;
- otherwise a helper function.

A body without choices that holds something that cannot be lowered has no result here.
-/

namespace SuiteShift
namespace CustomCommand

/-- A command that does something with an element. -/
def isInteraction (command : Command) : Bool :=
  ["get", "contains", "focused"].contains command.name &&
    command.calls.any fun call => !(["should", "and", "as"].contains call.method)

/-- What is gathered from the statements of a body. -/
structure Lowered where
  lines : List String := []
  imports : List String := []
  diagnostics : List String := []
  commands : Nat := 0
  interactions : Nat := 0
deriving DecidableEq, Repr

namespace Lowered

/-- Adds an import line unless it is there or every test file has it. -/
def addImport (imports : List String) (line : String) : List String :=
  if line == Lowering.testImport || imports.contains line then imports
  else imports ++ [line]

/-- Adds a lowered command. -/
def addCommand (body : Lowered) (command : Command) (result : Lowering.Result) : Lowered :=
  { lines := if result.code.isEmpty then body.lines else body.lines ++ [result.code ++ ";"]
    imports := result.imports.foldl addImport body.imports
    diagnostics := body.diagnostics ++ result.diagnostics
    commands := body.commands + 1
    interactions := body.interactions + (if isInteraction command then 1 else 0) }

/-- Adds a statement; without choices, what cannot be lowered ends the reading. -/
def addStatement (branching : Bool) (body : Lowered) : Statement → Option Lowered
  | .command command _ =>
    let result := command.lower
    if result.hasTodo && !branching then none else some (body.addCommand command result)
  | .raw text _ =>
    if !branching && (occursIn "cy." text || occursIn "Cypress." text) then none
    else some { body with lines := body.lines ++ [text] }

/-- Gathers the statements of a body. -/
def ofSnippet? (snippet : Snippet) : Option Lowered :=
  snippet.statements.foldlM (addStatement snippet.branching) {}

end Lowered

/-- Where a scan of code and literals stands: inside which literal, after a backslash or not. -/
structure CodeState where
  quote : Option Char := none
  escaped : Bool := false
deriving DecidableEq, Repr

namespace CodeState

/-- The state after a character. -/
def step (s : CodeState) (c : Char) : CodeState :=
  match s.quote with
  | some q =>
    if s.escaped then { s with escaped := false }
    else if c == '\\' then { s with escaped := true }
    else if c == q then { s with quote := none }
    else s
  | none => if Literal.isDelimiter c then { s with quote := some c } else s

end CodeState

/-- The name that is rebound starts here and ends at a word boundary. -/
def startsPage (cs : List Char) : Bool :=
  match Text.stripStart "page".toList cs with
  | some rest => !((rest.head?.map Text.isWord).getD false)
  | none => false

/-- A character before which a name starts afresh. -/
def isReceiverEdge (c : Char) : Bool :=
  !(c == '.' || c == '$' || Text.isWord c)

/-- Rebinds in the text after a character of the same code segment, if there is one. -/
def rebindAfter (s : CodeState) (before : Option Char) : List Char → List Char
  | [] => []
  | c :: cs =>
    let next := s.step c
    if s.quote.isNone then
      let opens := next.quote.isSome
      let rebound :=
        !opens && startsPage (c :: cs) && (before.map isReceiverEdge).getD true
      let rest := rebindAfter next (some c) cs
      if rebound then "this.".toList ++ c :: rest else c :: rest
    else
      c :: rebindAfter next none cs

/-- Makes the page a member of the page object, except in literals. -/
def rebindPage (line : String) : String :=
  String.ofList (rebindAfter {} none line.toList)

/-- Indents every line that is not empty. -/
def indentLines (code : String) : String :=
  "\n".intercalate ((Text.linesOf code).map fun line =>
    if line.isEmpty then line else "  " ++ line)

/-- Parameters of a generated function. -/
def parameterList (params : List String) : String :=
  ", ".intercalate (params.map (· ++ ": any"))

/-- Parameters after another one. -/
def afterComma (params : String) : String :=
  if params.isEmpty then "" else ", " ++ params

/-- The stub for a body with choices or loops. -/
def branchingStub (name function params : String) (lines : List String) : Classification :=
  let rows := lines.flatMap Text.linesOf
  let code :=
    "// TODO: Review custom command '" ++ name ++ "'; it branches or loops\n" ++
    "export async function " ++ function ++ "(page: Page" ++ afterComma params ++
      "): Promise<void> \x7b\n" ++
    String.join (rows.map fun row => "  // " ++ row ++ "\n") ++
    "  throw new Error('" ++ function ++ " needs manual review');\n\x7d"
  { name, strategy := .manual, complexity := .high, code
    warnings := ["'" ++ name ++
      "' contains conditional logic or loops; translated statements are kept as comments"]
    imports := [pageTypeImport] }

/-- The method of the page object for a body of interactions. -/
def pageObjectMethod (name function params : String) (body : Lowered) : Classification :=
  let code :=
    "async " ++ function ++ "(" ++ params ++ "): Promise<void> \x7b\n" ++
      indentLines ("\n".intercalate (body.lines.map rebindPage)) ++ "\n\x7d"
  { name, strategy := .pageObject, complexity := .ofOperations body.commands, code
    notes := [toString body.interactions ++
      " element interactions grouped as a page object method"] }

/-- The helper function for any other body. -/
def helperFunction (name function params : String) (body : Lowered) : Classification :=
  let code :=
    "export async function " ++ function ++ "(page: Page" ++ afterComma params ++
      "): Promise<void> \x7b\n" ++ indentLines ("\n".intercalate body.lines) ++ "\n\x7d"
  { name, strategy := .utility, complexity := .ofOperations body.commands, code
    imports := [pageTypeImport] }

/-- The shape of a command whose body was gathered. -/
def shapeBody (definition : Definition) (branching : Bool) (body : Lowered) : Classification :=
  let name := definition.name
  let function := Literal.identifier name
  let params := parameterList definition.parameters
  let shaped :=
    if branching then branchingStub name function params body.lines
    else if 3 ≤ body.commands && body.interactions == body.commands then
      pageObjectMethod name function params body
    else helperFunction name function params body
  let shaped := body.imports.foldl Classification.require shaped
  { shaped with warnings := shaped.warnings ++ body.diagnostics }

/-- The shape of a definition by its body, if the body can be lowered. A body with a syntax error
counts as one that cannot, where the tool lowers the statements that it recovers. -/
def lowerDefinition (definition : Definition) : Except SourceError (Option Classification) :=
  match Snippet.ofSource definition.body with
  | .ok snippet =>
    .ok ((Lowered.ofSnippet? snippet).map (shapeBody definition snippet.branching))
  | .error .malformed => .ok none
  | .error error => .error error

end CustomCommand
end SuiteShift
