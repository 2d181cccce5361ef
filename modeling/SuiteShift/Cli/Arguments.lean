import SuiteShift.Text.Basic

/-!
# Command-line arguments

A subcommand takes options and operands. An option is written in a long form with two dashes or
in a short form with one; short forms may share a dash. A value follows as the next argument or
behind an equals sign, or directly behind a short form.

- `readArguments`: the options and operands of a subcommand.
- `readCommand`: the subcommand with its arguments.
-/

namespace SuiteShift
namespace Cli

/-- What an option or operand stands for. -/
inductive ValueKind where
  /-- Any text. -/
  | text
  /-- A path, which cannot be empty. -/
  | path
deriving DecidableEq, Repr

namespace ValueKind

/-- The value is of this kind. -/
def accepts : ValueKind → String → Bool
  | .text, _ => true
  | .path, value => !value.isEmpty

end ValueKind

/-- An option of a subcommand. -/
structure OptionSpec where
  long : String
  short : Option Char := none
  /-- The kind of its value; none for a switch. -/
  value : Option ValueKind := none
  /-- It may be given more than once. -/
  repeats : Bool := false

/-- Switch for more messages. -/
def verboseOption : OptionSpec :=
  { long := "verbose", short := some 'v', repeats := true }

/-- Switch for the help text. -/
def helpOption : OptionSpec :=
  { long := "help", short := some 'h' }

/-- Switch for the version. -/
def versionOption : OptionSpec :=
  { long := "version", short := some 'V' }

/-- A subcommand. -/
structure CommandSpec where
  name : String
  options : List OptionSpec := []
  operands : List ValueKind := []

namespace CommandSpec

/-- The options of a subcommand with those that all have. -/
def allOptions (spec : CommandSpec) : List OptionSpec :=
  spec.options ++ [verboseOption, helpOption]

end CommandSpec

/-- Options with their values in the order given, and operands. -/
structure Arguments where
  options : List (String × String) := []
  operands : List String := []
deriving DecidableEq, Repr

namespace Arguments

/-- The value of an option. -/
def value? (arguments : Arguments) (long : String) : Option String :=
  arguments.options.lookup long

/-- A switch is given. -/
def has (arguments : Arguments) (long : String) : Bool :=
  (arguments.value? long).isSome

/-- Adds an option; none if it may not be given again or its value is of another kind. -/
def addOption? (arguments : Arguments) (option : OptionSpec) (value : String) :
    Option Arguments :=
  if arguments.has option.long && !option.repeats then none
  else if !((option.value.map (·.accepts value)).getD true) then none
  else some { arguments with options := arguments.options ++ [(option.long, value)] }

/-- Adds an operand; none if there are too many or it is of another kind. -/
def addOperand? (arguments : Arguments) (kinds : List ValueKind) (value : String) :
    Option Arguments :=
  match kinds[arguments.operands.length]? with
  | some kind =>
    if kind.accepts value then
      some { arguments with operands := arguments.operands ++ [value] }
    else none
  | none => none

/-- Adds operands. -/
def addOperands? (arguments : Arguments) (kinds : List ValueKind) (values : List String) :
    Option Arguments :=
  values.foldlM (fun arguments value => arguments.addOperand? kinds value) arguments

end Arguments

/-- An argument starts an option. A lone dash does not. -/
def isOption (argument : String) : Bool :=
  match argument.toList with
  | '-' :: _ :: _ => true
  | _ => false

/-- What reading one argument leads to. -/
inductive Reading where
  | done (arguments : Arguments)
  /-- The next argument is the value of an option. -/
  | wants (arguments : Arguments) (option : OptionSpec)
  | wrong

/-- Reads the long form of an option, without its dashes. -/
def readLong (options : List OptionSpec) (arguments : Arguments) (body : List Char) : Reading :=
  let (name, value) :=
    match Text.splitOnce ['='] body with
    | some (name, value) => (name, some (String.ofList value))
    | none => (body, none)
  match options.find? fun option => option.long == String.ofList name with
  | none => .wrong
  | some option =>
    match option.value, value with
    | some _, none => .wants arguments option
    | some _, some value => ((arguments.addOption? option value).map .done).getD .wrong
    | none, none => ((arguments.addOption? option "").map .done).getD .wrong
    | none, some _ => .wrong

/-- Reads short forms that share a dash. -/
def readShort (options : List OptionSpec) (arguments : Arguments) : List Char → Reading
  | [] => .done arguments
  | c :: rest =>
    match options.find? fun option => option.short == some c with
    | none => .wrong
    | some option =>
      match option.value with
      | none =>
        match arguments.addOption? option "" with
        | some arguments => readShort options arguments rest
        | none => .wrong
      | some _ =>
        match rest with
        | [] => .wants arguments option
        | '=' :: value =>
          ((arguments.addOption? option (String.ofList value)).map .done).getD .wrong
        | value => ((arguments.addOption? option (String.ofList value)).map .done).getD .wrong

/-- Reads one argument. -/
def readArgument (spec : CommandSpec) (arguments : Arguments) (argument : String) : Reading :=
  match argument.toList with
  | '-' :: '-' :: body => readLong spec.allOptions arguments body
  | '-' :: c :: rest => readShort spec.allOptions arguments (c :: rest)
  | _ => ((arguments.addOperand? spec.operands argument).map .done).getD .wrong

/-- What a command line asks for. -/
inductive Parsed (α : Type) where
  | ok (value : α)
  /-- It asks for the help text. -/
  | help
  /-- It asks for the version. -/
  | version
  | wrong

/-- Reads arguments of a subcommand after others; an option waits for its value. A request for
help ends the reading. -/
def readArguments (spec : CommandSpec) :
    Arguments → (waiting : Option OptionSpec) → List String → Parsed Arguments
  | _, some _, [] => .wrong
  | arguments, none, [] =>
    if arguments.operands.length = spec.operands.length then .ok arguments else .wrong
  | arguments, some option, value :: rest =>
    if isOption value then .wrong
    else
      match arguments.addOption? option value with
      | some arguments => readArguments spec arguments none rest
      | none => .wrong
  | arguments, none, argument :: rest =>
    if argument = "--" then
      match arguments.addOperands? spec.operands rest with
      | some arguments => readArguments spec arguments none []
      | none => .wrong
    else
      match readArgument spec arguments argument with
      | .done arguments =>
        if arguments.has helpOption.long then .help
        else readArguments spec arguments none rest
      | .wants arguments option => readArguments spec arguments (some option) rest
      | .wrong => .wrong
termination_by _ _ rest => rest.length

/-- Reads options before the subcommand, then the subcommand with its arguments. -/
def readCommand {α : Type} (commands : List α) (spec : α → CommandSpec) :
    Arguments → List String → Parsed (α × Arguments)
  | _, [] => .wrong
  | arguments, argument :: rest =>
    if isOption argument then
      match readArgument { name := "", options := [versionOption] } arguments argument with
      | .done arguments =>
        if arguments.has versionOption.long then .version
        else if arguments.has helpOption.long then .help
        else readCommand commands spec arguments rest
      | _ => .wrong
    else if argument = "help" then .help
    else
      match commands.find? fun command => (spec command).name == argument with
      | none => .wrong
      | some command =>
        match readArguments (spec command) {} none rest with
        | .ok arguments => .ok (command, arguments)
        | .help => .help
        | .version => .version
        | .wrong => .wrong

end Cli
end SuiteShift
