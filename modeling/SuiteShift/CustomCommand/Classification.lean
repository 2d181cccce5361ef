import SuiteShift.Literal.Identifier
import SuiteShift.Json.Basic

/-!
# Classification of custom commands

A custom command takes one of four shapes in the generated suite, which `Strategy` names; a
`Classification` holds the generated code with remarks about it.
-/

namespace SuiteShift

/-- How a custom command is expressed in the generated suite. -/
inductive Strategy where
  /-- A statement at each call. -/
  | direct
  /-- A function in the helper module. -/
  | utility
  /-- A method of the page object. -/
  | pageObject
  /-- A stub for a person to complete. -/
  | manual
deriving DecidableEq, Repr, Inhabited

namespace Strategy

/-- The name of the strategy. -/
def name : Strategy → String
  | .direct => "direct"
  | .utility => "utility"
  | .pageObject => "pageObject"
  | .manual => "manual"

/-- Reads the name of a strategy. -/
def ofJson? : Json → Option Strategy :=
  Json.nameOf? ([direct, utility, pageObject, manual].map fun s => (s.name, s))

end Strategy

/-- How much a custom command does. -/
inductive Complexity where
  | low
  | medium
  | high
deriving DecidableEq, Repr, Inhabited

namespace Complexity

/-- The name of the degree. -/
def name : Complexity → String
  | .low => "low"
  | .medium => "medium"
  | .high => "high"

/-- The degree of a body with a number of operations. -/
def ofOperations (operations : Nat) : Complexity :=
  if operations ≤ 2 then .low else if operations ≤ 5 then .medium else .high

/-- Reads the name of a degree. -/
def ofJson? : Json → Option Complexity :=
  Json.nameOf? ([low, medium, high].map fun c => (c.name, c))

end Complexity

/-- The import line for the type of pages. -/
def pageTypeImport : String :=
  "import type \x7b Page \x7d from '@playwright/test';"

/-- A custom command in its generated shape. -/
structure Classification where
  name : String
  strategy : Strategy
  complexity : Complexity
  code : String
  notes : List String := []
  warnings : List String := []
  errors : List String := []
  imports : List String := []
deriving DecidableEq, Repr, Inhabited

namespace Classification

/-- The result for input that makes no sense. -/
def failure (name error : String) : Classification :=
  { name, strategy := .manual, complexity := .high, code := "// TODO: " ++ error
    errors := [error] }

/-- There was an error. -/
def isFailure (c : Classification) : Bool :=
  !c.errors.isEmpty

/-- Adds a note. -/
def note (c : Classification) (text : String) : Classification :=
  { c with notes := c.notes ++ [text] }

/-- Adds a warning. -/
def warn (c : Classification) (text : String) : Classification :=
  { c with warnings := c.warnings ++ [text] }

/-- Adds an import line unless it is there. -/
def require (c : Classification) (line : String) : Classification :=
  if c.imports.contains line then c else { c with imports := c.imports ++ [line] }

/-- Warns when generated code has to call the command by another name. -/
def checkIdentifier (c : Classification) : Classification :=
  let identifier := Literal.identifier c.name
  if c.name.isEmpty || identifier == c.name then c
  else
    c.warn ("Custom command '" ++ c.name ++
      "' is not a valid identifier; generated code calls it '" ++ identifier ++ "'")

/-- Reads the JSON form. -/
def ofJson? (json : Json) : Option Classification :=
  match json.fields? .pass
    ["name", "strategy", "complexity", "generatedCode", "notes", "warnings", "errors",
     "imports"] with
  | some [name, strategy, complexity, code, notes, warnings, errors, imports] => do
    let texts := Json.default? [] (Json.listOf? Json.asText?)
    let name ← Json.required? Json.asText? name
    let strategy ← Json.required? Strategy.ofJson? strategy
    let complexity ← Json.required? Complexity.ofJson? complexity
    let code ← Json.required? Json.asText? code
    let notes ← texts notes
    let warnings ← texts warnings
    let errors ← texts errors
    let imports ← texts imports
    pure { name, strategy, complexity, code, notes, warnings, errors, imports }
  | _ => none

/-- The JSON form. -/
def toJson (c : Classification) : Json :=
  .object
    [("name", .text c.name),
     ("strategy", .text c.strategy.name),
     ("complexity", .text c.complexity.name),
     ("generatedCode", .text c.code),
     ("notes", Json.ofTexts c.notes),
     ("warnings", Json.ofTexts c.warnings),
     ("errors", Json.ofTexts c.errors),
     ("imports", Json.ofTexts c.imports)]

end Classification
end SuiteShift
