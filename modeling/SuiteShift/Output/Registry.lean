import SuiteShift.CustomCommand.Basic
import SuiteShift.Output.Support

/-!
# Calls of custom commands

A registry knows how each custom command is expressed; of several entries with one name the last
one counts. `Registry.callSite?` gives the code for a call.
-/

namespace SuiteShift
namespace Output

/-- What a call needs from the support files. -/
inductive HelperUse where
  | function (name : String)
  | pageObject
deriving DecidableEq, Repr

/-- The code for a call with what it needs. -/
structure CallSite where
  code : String
  imports : List String := []
  helper : Option HelperUse := none
  diagnostics : List String := []
  /-- The call was not left to a person. -/
  converted : Bool := true
deriving DecidableEq, Repr

/-- The comment that stands for a command. -/
def todoLine (command : Command) : String :=
  "// TODO: Convert " ++ Literal.oneLine command.source

namespace CallSite

/-- A call that is left to a person. -/
def todo (command : Command) (diagnostic : String) : CallSite :=
  { code := todoLine command, diagnostics := [diagnostic], converted := false }

/-- A call of a helper function. -/
def helperCall (function args : String) : CallSite :=
  { code :=
      if args.isEmpty then "await " ++ function ++ "(page)"
      else "await " ++ function ++ "(page, " ++ args ++ ")"
    helper := some (.function function) }

/-- A call of a method of the page object. -/
def methodCall (method args : String) : CallSite :=
  { code := "await new " ++ pageObjectClass ++ "(page)." ++ method ++ "(" ++ args ++ ")"
    helper := some .pageObject }

/-- The statement that a call is classified as. -/
def ofClassification (command : Command) (c : Classification) : CallSite :=
  if c.isFailure || (Text.trim c.code).isEmpty then
    todo command ("Could not convert cy." ++ command.name ++ "(): " ++
      c.errors.head?.getD "nothing to emit")
  else
    { code := c.code
      imports := c.imports.filter (· != pageTypeImport)
      diagnostics := c.warnings }

/-- Leaves the calls chained on a command to a person. -/
def withChain (command : Command) (site : CallSite) : CallSite :=
  if command.calls.isEmpty then site
  else
    { site with
      code := site.code ++ "\n" ++ todoLine command
      diagnostics := site.diagnostics ++
        ["Calls chained on custom command cy." ++ command.name ++ "() were not converted"]
      converted := false }

end CallSite

/-- The strategies of custom commands by name. -/
structure Registry where
  entries : List (String × Strategy) := []

namespace Registry

/-- The registry of classified commands; those without a name cannot be called. -/
def ofClassifications (commands : List Classification) : Registry :=
  ⟨(commands.filter fun c => !c.name.isEmpty).map fun c => (c.name, c.strategy)⟩

/-- The strategy of a name: that of its last entry. -/
def strategy? (registry : Registry) (name : String) : Option Strategy :=
  (registry.entries.reverse.find? fun entry => entry.1 == name).map Prod.snd

/-- The name has an entry. -/
def contains (registry : Registry) (name : String) : Bool :=
  (registry.strategy? name).isSome

/-- The code for the base call of a command. -/
def baseSite (strategy : Strategy) (command : Command) : Except SourceError CallSite := do
  let function := Literal.identifier command.name
  let args := Value.codeList command.args
  match strategy with
  | .utility => .ok (.helperCall function args)
  | .pageObject => .ok (.methodCall function args)
  | .direct =>
    let c ← CustomCommand.classify { command with calls := [] }.source
    .ok (.ofClassification command c)
  | .manual =>
    .ok (.todo command ("Custom command '" ++ command.name ++
      "' needs manual conversion; a stub is in " ++ helpersFile))

/-- The code for a call; none for a name without an entry. -/
def callSite? (registry : Registry) (command : Command) :
    Except SourceError (Option CallSite) :=
  match registry.strategy? command.name with
  | none => .ok none
  | some strategy => (baseSite strategy command).map fun site => some (site.withChain command)

end Registry
end Output
end SuiteShift
