import SuiteShift.CustomCommand.Registration
import SuiteShift.CustomCommand.Pattern
import SuiteShift.CustomCommand.Body

/-!
# Custom commands

- `classifyDefinition`: a body that can be lowered decides; else the pattern of the name; else
  a stub.
- `classify`: the same for a registration given as text; a call is classified by its name.
-/

namespace SuiteShift
namespace CustomCommand

/-- The pattern of the name, or a stub. -/
def classifyByName (definition : Definition) : Classification :=
  match pattern? definition.name with
  | some apply =>
    (apply definition.name definition.parameters).note
      ("Generated from the '" ++ definition.name ++
        "' pattern; the original body was not translated")
  | none => stub definition.name definition.parameters (some definition.body)

/-- Classifies a definition. -/
def classifyDefinition (definition : Definition) : Except SourceError Classification := do
  let lowered ←
    if (Text.trim definition.body).isEmpty then .ok none else lowerDefinition definition
  match lowered with
  | some classification => .ok classification.checkIdentifier
  | none => .ok (classifyByName definition).checkIdentifier

/-- Classifies a call by its name and its arguments. -/
def classifyCall (source : List Char) : Classification :=
  match readCall source with
  | .error error => .failure "" error.message
  | .ok (name, inside) =>
    let name := String.ofList name
    let args := (Literal.argumentChars inside).map String.ofList
    match pattern? name with
    | some apply => (apply name args).checkIdentifier
    | none => (stub name args none).checkIdentifier

/-- Classifies a registration or a call. -/
def classify (source : String) : Except SourceError Classification :=
  match findRegistration? source.toList with
  | some list =>
    match readRegistration list with
    | .ok definition => classifyDefinition definition
    | .error error => .ok (.failure "" error.message)
  | none => .ok (classifyCall source.toList)

end CustomCommand
end SuiteShift
