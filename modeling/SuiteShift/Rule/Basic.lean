import SuiteShift.Command.Value

/-!
# Rules

A rule produces the code for one name. Its body is a template with placeholders or a function of
the arguments.

- `RuleError` says why a rule refuses its arguments, `RuleError.message` in words.
- `renderTemplate` replaces both placeholders in one pass, so that text which comes from an
  argument is never read as a placeholder.
-/

namespace SuiteShift

/-- Why a rule refuses. -/
inductive RuleError where
  | missingArgument (command : String) (index : Nat)
  | invalidArgument (command : String) (index : Nat) (expected : String)
deriving DecidableEq, Repr, Inhabited

namespace RuleError

/-- The refusal in words. -/
def message : RuleError → String
  | .missingArgument command index =>
    command ++ "() requires argument #" ++ toString index
  | .invalidArgument command index expected =>
    command ++ "() argument #" ++ toString index ++ " must be " ++ expected

end RuleError

namespace Rule

/-- Code, or the reason why there is none. -/
abbrev Code := Except RuleError String

/-- How a rule produces code: a template or a function, never both. -/
inductive Body (Transform : Type) where
  | template (text : String)
  | transform (apply : Transform)

/-- The placeholder for the current locator. -/
def locatorMark : List Char := "\x7blocator\x7d".toList

/-- The placeholder for the argument list. -/
def argsMark : List Char := "\x7bargs\x7d".toList

/-- Replaces the placeholders from left to right; the number counts the characters of a
placeholder that are still to be skipped. -/
def renderFrom (locator args : List Char) : Nat → List Char → List Char
  | _, [] => []
  | skip + 1, _ :: cs => renderFrom locator args skip cs
  | 0, c :: cs =>
    if Text.startsWith locatorMark (c :: cs) then
      locator ++ renderFrom locator args (locatorMark.length - 1) cs
    else if Text.startsWith argsMark (c :: cs) then
      args ++ renderFrom locator args (argsMark.length - 1) cs
    else
      c :: renderFrom locator args 0 cs

/-- The template with the locator and the argument list filled in. -/
def renderTemplate (template locator : String) (args : List Value) : String :=
  String.ofList (renderFrom locator.toList (Value.codeList args).toList 0 template.toList)

/-- The argument at an index. -/
def required (args : List Value) (command : String) (index : Nat) : Except RuleError Value :=
  match args[index]? with
  | some value => .ok value
  | none => .error (.missingArgument command index)

/-- The contents of the string literal at an index. -/
def requiredString (args : List Value) (command : String) (index : Nat) :
    Except RuleError String := do
  match (← required args command index).asString? with
  | some text => .ok text
  | none => .error (.invalidArgument command index "a string")

/-- Source text whose first character that is not blank is `c`. -/
def opensWith (c : Char) (source : String) : Bool :=
  (Text.dropBlanks source.toList).head? == some c

/-- An object literal. -/
def isOptions : Value → Bool
  | .raw source => opensWith '\x7b' source
  | _ => false

/-- The object literals among the arguments. -/
def optionObjects (args : List Value) : List Value :=
  args.filter isOptions

end Rule
end SuiteShift
