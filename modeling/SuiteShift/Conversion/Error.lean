import SuiteShift.Workspace.Basic
import SuiteShift.Spec.Source

/-!
# Errors of a conversion

`ConvertError` lists what can stop a conversion; `message`, `code` and `help` word it.
-/

namespace SuiteShift

/-- What stops a conversion. -/
inductive ConvertError where
  | access (path : String) (reason : AccessError)
  /-- A file has a syntax error, see `SourceError.malformed`. -/
  | malformed (path : String)
  /-- The indentation of some line would have to be cut inside a character. -/
  | splitBlank
  | invalidConfig (path : String)
  | noSpecFiles (directory : String)
  /-- A custom command is added in two places. -/
  | duplicateCommand (name first second : String)
  | unsupportedLanguage (language : String)
deriving DecidableEq, Repr, Inhabited

namespace ConvertError

/-- The error for the source text of a file. -/
def ofSource (path : String) : SourceError → ConvertError
  | .malformed => .malformed path
  | .splitBlank => .splitBlank

/-- The error in words. -/
def message : ConvertError → String
  | .access path reason => "Failed to access '" ++ path ++ "': " ++ reason.message
  | .malformed path => "Failed to parse file: " ++ path
  | .splitBlank => "The indentation of a line ends inside a character"
  | .invalidConfig path => "Invalid configuration in '" ++ path ++ "'"
  | .noSpecFiles directory => "No Cypress spec files found in " ++ directory
  | .duplicateCommand name first second =>
    "Custom command '" ++ name ++ "' is added more than once (" ++ first ++ " and " ++ second ++ ")"
  | .unsupportedLanguage language => "Unsupported source language: " ++ language

/-- The code of the error. -/
def code : ConvertError → String
  | .access _ _ => "cy2pw::io::access_failed"
  | .malformed _ => "cy2pw::parse::parse_failed"
  | .splitBlank => "cy2pw::parse::split_blank"
  | .invalidConfig _ => "cy2pw::config::invalid"
  | .noSpecFiles _ => "cy2pw::analysis::no_spec_files"
  | .duplicateCommand _ _ _ => "cy2pw::analysis::duplicate_custom_command"
  | .unsupportedLanguage _ => "cy2pw::frontend::unsupported_language"

/-- Advice on the error. -/
def help : ConvertError → Option String
  | .invalidConfig _ =>
    some "cy2pw.json accepts sourceDir, outDir, language, writeReport and skipValidation"
  | .noSpecFiles _ =>
    some "Spec files are named *.cy.js / *.cy.ts or live under e2e/ or integration/"
  | .duplicateCommand _ _ _ =>
    some ("Cypress keeps only the last Commands.add; " ++
      "use Commands.overwrite or rename one of them")
  | .unsupportedLanguage _ => some "The only supported source dialect is 'cypress'"
  | _ => none

end ConvertError
end SuiteShift
