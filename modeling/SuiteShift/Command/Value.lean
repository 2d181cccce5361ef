import SuiteShift.Literal.Quoted
import SuiteShift.Number.Decimal
import SuiteShift.Json.Basic

/-!
# Argument values

An argument of a call is a literal, or source text that is carried through unchanged.

- `Value.code` writes an argument in generated code, `Value.codeList` an argument list.
- `Value.isCallback` tells function expressions by their text.
- `Value.ofJson?` reads the untagged JSON form.
-/

namespace SuiteShift

/-- An argument of a call. -/
inductive Value where
  | bool (value : Bool)
  | number (value : Double)
  | string (value : String)
  /-- Source text of any other expression. -/
  | raw (source : String)
deriving DecidableEq, Repr, Inhabited

namespace Value

/-- The contents of a string literal. -/
def asString? : Value → Option String
  | .string value => some value
  | _ => none

/-- The value of a number literal. -/
def asNumber? : Value → Option Double
  | .number value => some value
  | _ => none

/-- Source text of a function: it starts with one of two keywords or holds an arrow. -/
def isCallbackText (source : String) : Bool :=
  let cs := Text.dropBlanks source.toList
  Text.startsWith "function".toList cs || Text.startsWith "async".toList cs ||
    Text.contains "=>".toList cs

/-- A function expression. -/
def isCallback : Value → Bool
  | .raw source => isCallbackText source
  | _ => false

/-- The argument in generated code. -/
def code : Value → String
  | .bool value => if value then "true" else "false"
  | .number value => value.unsignedZeroText
  | .string value => Literal.quote value
  | .raw source => source

/-- An argument list in generated code. -/
def codeList (args : List Value) : String :=
  ", ".intercalate (args.map code)

/-- Reads a boolean, a number, a string, or an object whose member `raw` is a string. -/
def ofJson? : Json → Option Value
  | .bool value => some (.bool value)
  | .text value => some (.string value)
  | .object members =>
    if Json.soundMembers Json.depthLimit members then
      match Json.fields? .pass ["raw"] (.object members) with
      | some [some (.text source)] => some (.raw source)
      | _ => none
    else none
  | other => other.asDouble?.map .number

end Value
end SuiteShift
