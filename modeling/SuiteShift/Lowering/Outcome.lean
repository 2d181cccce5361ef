import SuiteShift.Rule.Basic

/-!
# Outcomes of a lowering step

A step leaves notes, import lines that the code needs and warnings for the reader, and ends with
a result or with the refusal of a rule. Notes made before a refusal are kept.

- `Diagnostic` lists the warnings, `Diagnostic.message` words them.
- `Outcome` is the monad of steps.
- `Context` gathers notes: every import line once, in the order of first need.
-/

namespace SuiteShift
namespace Lowering

/-- What a warning is about. -/
inductive Diagnostic where
  | unknownCommand (name : String)
  | aliasRead (name : String)
  | aliasWait (reference : String)
  | unknownMethod (method : String)
  | droppedCall (reason : String)
  | callbackAssertion (command : String)
  | unknownAssertion (key : String)
  | partialPattern (subject : String)
  | unsupportedAssertion (subject key : String)
  | refused (source : String) (reason : RuleError)
deriving DecidableEq, Repr

namespace Diagnostic

/-- The warning in words. -/
def message : Diagnostic → String
  | .unknownCommand name => "Unknown command: " ++ name
  | .aliasRead name =>
    "cy.get('@" ++ name ++ "') reads an alias; it now refers to a variable named '" ++ name ++
      "' that must be declared where the alias was created"
  | .aliasWait reference =>
    "cy.wait('" ++ reference ++ "') waits on an alias; converted to a network-idle wait, " ++
      "which is an approximation and may need manual adjustment (page.waitForResponse)"
  | .unknownMethod method => "Unknown chained method: ." ++ method ++ "()"
  | .droppedCall reason => reason
  | .callbackAssertion command =>
    "Callback assertion on cy." ++ command ++ "() needs manual conversion"
  | .unknownAssertion key => "Unknown assertion: " ++ key
  | .partialPattern subject =>
    subject ++ " substring assertion converted to a partial-match pattern; review the pattern"
  | .unsupportedAssertion subject key => "Unsupported " ++ subject ++ " assertion: " ++ key
  | .refused source reason => "Could not convert " ++ source ++ ": " ++ reason.message

end Diagnostic

/-- A note of a step. -/
inductive Note where
  | needs (line : String)
  | warns (diagnostic : Diagnostic)
deriving DecidableEq, Repr

/-- Notes, and a result or a refusal. -/
structure Outcome (α : Type) where
  notes : List Note
  result : Except RuleError α

namespace Outcome

variable {α β : Type}

/-- A result without notes. -/
def ok (value : α) : Outcome α :=
  ⟨[], .ok value⟩

/-- The result of a rule, without notes. -/
def ofExcept (result : Except RuleError α) : Outcome α :=
  ⟨[], result⟩

/-- A warning. -/
def warn (diagnostic : Diagnostic) : Outcome Unit :=
  ⟨[.warns diagnostic], .ok ()⟩

/-- The need of some import lines. -/
def need (lines : List String) : Outcome Unit :=
  ⟨lines.map .needs, .ok ()⟩

/-- Runs a step after another; the notes of both are kept in order. -/
def bind (step : Outcome α) (next : α → Outcome β) : Outcome β :=
  match step.result with
  | .ok value => ⟨step.notes ++ (next value).notes, (next value).result⟩
  | .error reason => ⟨step.notes, .error reason⟩

instance : Monad Outcome where
  pure := ok
  bind := bind

end Outcome

/-- The import line that every generated test file has. -/
def testImport : String :=
  "import \x7b test, expect \x7d from '@playwright/test';"

/-- Gathered import lines and warnings. -/
structure Context where
  imports : List String := [testImport]
  diagnostics : List String := []
deriving DecidableEq, Repr

namespace Context

/-- Adds an import line unless it is there. -/
def requireImport (context : Context) (line : String) : Context :=
  if context.imports.contains line then context
  else { context with imports := context.imports ++ [line] }

/-- Adds a warning. -/
def diagnose (context : Context) (message : String) : Context :=
  { context with diagnostics := context.diagnostics ++ [message] }

/-- Adds a note. -/
def add (context : Context) : Note → Context
  | .needs line => context.requireImport line
  | .warns diagnostic => context.diagnose diagnostic.message

/-- Gathers notes. -/
def ofNotes (notes : List Note) : Context :=
  notes.foldl add {}

end Context
end Lowering
end SuiteShift
