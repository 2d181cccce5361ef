import SuiteShift.Conversion.Error
import SuiteShift.Json.Reader

/-!
# Configuration

A conversion is configured by a JSON file in which every key may be missing.

- `Config.load`: the configuration in a file.
- `Config.discover`: the configuration of a directory, or the defaults.
-/

namespace SuiteShift

/-- What to convert and how. -/
structure Config where
  sourceDir : String := "cypress"
  outDir : String := "tests"
  /-- The dialect of the source. -/
  language : String := "cypress"
  writeReport : Bool := true
  skipValidation : Bool := false
deriving DecidableEq, Repr, Inhabited

namespace Config

/-- The name of the configuration file. -/
def fileName : String :=
  "cy2pw.json"

/-- Reads the JSON form; other keys are refused. -/
def ofJson? (json : Json) : Option Config :=
  match json.fields? .refuse
    ["sourceDir", "outDir", "language", "writeReport", "skipValidation"] with
  | some [sourceDir, outDir, language, writeReport, skipValidation] => do
    let defaults : Config := {}
    let sourceDir ← Json.default? defaults.sourceDir Json.asText? sourceDir
    let outDir ← Json.default? defaults.outDir Json.asText? outDir
    let language ← Json.default? defaults.language Json.asText? language
    let writeReport ← Json.default? defaults.writeReport Json.asBool? writeReport
    let skipValidation ← Json.default? defaults.skipValidation Json.asBool? skipValidation
    pure { sourceDir, outDir, language, writeReport, skipValidation }
  | _ => none

/-- The JSON form. -/
def toJson (config : Config) : Json :=
  .object
    [("sourceDir", .text config.sourceDir),
     ("outDir", .text config.outDir),
     ("language", .text config.language),
     ("writeReport", .bool config.writeReport),
     ("skipValidation", .bool config.skipValidation)]

/-- Reads a configuration file. -/
def load (ws : Workspace) (path : String) : Except ConvertError Config := do
  let text ← (ws.readText path).mapError (.access path)
  match (Json.read? text).bind ofJson? with
  | some config => .ok config
  | none => .error (.invalidConfig path)

/-- Reads the configuration file of a directory if there is one. -/
def discover (ws : Workspace) (directory : String) : Except ConvertError Config :=
  let path := Path.join directory fileName
  if ws.isFile path then load ws path else .ok {}

end Config
end SuiteShift
