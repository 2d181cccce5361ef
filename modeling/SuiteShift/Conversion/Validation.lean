import SuiteShift.Conversion.Error

/-!
# Validation

A project needs tests, and no name may be registered for two custom commands.
-/

namespace SuiteShift
namespace Validation

/-- The file in which a custom command is registered. -/
def fileOf (definition : Definition) : String :=
  (definition.span.map Span.file).getD ""

/-- The first definition whose name was given before, after the earliest with that name. -/
def firstClash? : (seen : List Definition) → List Definition → Option (Definition × Definition)
  | _, [] => none
  | seen, definition :: rest =>
    match seen.find? fun earlier => earlier.name == definition.name with
    | some earlier => some (earlier, definition)
    | none => firstClash? (seen ++ [definition]) rest

/-- Refuses a name with two definitions. -/
def checkUnique (definitions : List Definition) : Except ConvertError Unit :=
  match firstClash? [] definitions with
  | some (first, second) =>
    .error (.duplicateCommand second.name (fileOf first) (fileOf second))
  | none => .ok ()

/-- Refuses a project without tests, and a name with two definitions. -/
def check (project : Project) : Except ConvertError Unit :=
  if project.specs.isEmpty then .error (.noSpecFiles project.sourceDir)
  else checkUnique project.definitions

end Validation
end SuiteShift
