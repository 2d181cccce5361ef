import SuiteShift.Command.Value
import SuiteShift.Json.Reader

/-!
# Commands

A command is one chain of calls on the driver object: the base call and the calls chained to it
in source order.

- `Command.source` writes the chain back as source text.
- `Command.ofJson?` reads the JSON form, an object or an array with the fields in order.
-/

namespace SuiteShift

/-- A method invoked on the result of a command. -/
structure Call where
  method : String
  args : List Value := []
deriving DecidableEq, Repr, Inhabited

/-- A chain of calls on the driver object. -/
structure Command where
  name : String
  args : List Value := []
  calls : List Call := []
deriving DecidableEq, Repr, Inhabited

namespace Call

/-- The call as source text, with the dot before it. -/
def source (call : Call) : String :=
  "." ++ call.method ++ "(" ++ Value.codeList call.args ++ ")"

/-- Reads the JSON form. -/
def ofJson? (json : Json) : Option Call :=
  match json.fields? .pass ["method", "args"] with
  | some [method, args] => do
    let method ← Json.required? Json.asText? method
    let args ← Json.default? [] (Json.listOf? Value.ofJson?) args
    pure ⟨method, args⟩
  | _ => none

end Call

namespace Command

/-- The chain as source text on the driver object. -/
def source (command : Command) : String :=
  "cy." ++ command.name ++ "(" ++ Value.codeList command.args ++ ")" ++
    String.join (command.calls.map Call.source)

/-- Reads the JSON form. -/
def ofJson? (json : Json) : Option Command :=
  match json.fields? .pass ["name", "args", "chainedCalls"] with
  | some [name, args, calls] => do
    let name ← Json.required? Json.asText? name
    let args ← Json.default? [] (Json.listOf? Value.ofJson?) args
    let calls ← Json.default? [] (Json.listOf? Call.ofJson?) calls
    pure ⟨name, args, calls⟩
  | _ => none

/-- Reads the JSON form from text. -/
def ofText? (source : String) : Option Command :=
  (Json.read? source).bind ofJson?

end Command
end SuiteShift
