import SuiteShift.Conversion.Error
import SuiteShift.Json.Reader

/-!
# Source projects

- `FileKind.ofPath`: which files of a source project hold tests, and which only custom commands.
- `findBaseUrl`: the base address, from the first configuration file there is.
- `loadProject`: a source project with all its tests and custom commands.
-/

namespace SuiteShift
namespace Discovery

/-- What a source file is read for. -/
inductive FileKind where
  | spec
  /-- Only for the custom commands that it registers. -/
  | support
  | other
deriving DecidableEq, Repr, Inhabited

/-- The kind of a file by its path below the source directory. -/
def FileKind.ofPath (relative : List Path.Component) : FileKind :=
  let within (name : String) := relative.dropLast.contains (.name name)
  let name := (Path.fileName? relative).getD ""
  if within "support" then .support
  else if occursIn ".cy." name || occursIn ".spec." name || within "e2e" || within "integration"
  then .spec
  else .other

/-- Extensions of source files. -/
def sourceExtensions : List String :=
  ["js", "ts", "jsx", "tsx"]

/-- The name is that of a source file, and not of one that only declares types. -/
def isSourceName (name : String) : Bool :=
  !name.endsWith ".d.ts" &&
    ((Path.fileExtension? name).map sourceExtensions.contains).getD false

/-- The directory of installed packages is passed over. -/
def isSkipped (name : String) : Bool :=
  name == "node_modules"

/-- The files in a source directory, in the order of their names. -/
def filesIn (ws : Workspace) (directory : String) : List (String × Content) :=
  let name := (Path.fileName? (Path.components directory)).getD directory
  if isSkipped name then []
  else ((ws.find? directory).map (FileTree.walk isSkipped directory)).getD []

/-- A source file to be read. -/
structure SourceFile where
  path : String
  content : Content
  kind : FileKind

/-- The source files in a directory that are to be read. -/
def sourceFiles (ws : Workspace) (directory : String) : List SourceFile :=
  (filesIn ws directory).filterMap fun (path, content) =>
    let name := (Path.fileName? (Path.components path)).getD ""
    let kind := FileKind.ofPath (Path.componentsBelow directory path)
    if isSourceName name && kind ≠ .other then some ⟨path, content, kind⟩ else none

/-- The text of some content. -/
def textOf : Content → Except AccessError String
  | .text text => .ok text
  | .binary => .error .notText

/-- Reads a source file. -/
def readSource (file : SourceFile) : Except ConvertError SpecFile := do
  let text ← (textOf file.content).mapError (.access file.path)
  (SpecFile.ofSource file.path text).mapError (.ofSource file.path)

/-- A quote around the value of a key. -/
def isQuote (c : Char) : Bool :=
  c == '\'' || c == '"' || c == '\x60'

/-- The address after the key for it: a colon and a quoted text that is not empty. -/
def addressAfterKey? (rest : List Char) : Option (List Char) :=
  match Text.dropBlanks rest with
  | ':' :: rest =>
    match Text.dropBlanks rest with
    | quote :: rest =>
      let address := rest.takeWhile fun c => !isQuote c
      if isQuote quote && !address.isEmpty && address.length < rest.length then some address
      else none
    | [] => none
  | _ => none

/-- The first address after a key for it. -/
def addressIn? : List Char → Option (List Char)
  | [] => none
  | c :: cs =>
    match (Text.stripStart "baseUrl".toList (c :: cs)).bind addressAfterKey? with
    | some address => some address
    | none => addressIn? cs

/-- The configuration file that is JSON. -/
def jsonConfigFile : String :=
  "cypress.json"

/-- Configuration files of a source project, in the order in which they are tried. -/
def configFiles : List String :=
  ["cypress.config.ts", "cypress.config.js", "cypress.config.mjs", "cypress.config.cjs",
   jsonConfigFile]

/-- The address in a JSON configuration; none if the text is not JSON. -/
def addressInJson? (text : String) : Option (Option String) :=
  match Json.read? text with
  | some json =>
    if json.sound Json.depthLimit then some ((json.get? "baseUrl").bind Json.asText?) else none
  | none => none

/-- Names and paths of the configuration files for a source directory: in it, and one level up. -/
def configCandidates (directory : String) : List (String × String) :=
  (directory :: (Path.parent? directory).toList).flatMap fun base =>
    configFiles.map fun name => (name, Path.join base name)

/-- The base address in the first configuration file there is. -/
def findBaseUrl (ws : Workspace) (directory : String) : Except ConvertError (Option String) := do
  match (configCandidates directory).find? fun candidate => ws.isFile candidate.2 with
  | none => .ok none
  | some (name, path) =>
    let text ← (ws.readText path).mapError (.access path)
    if name == jsonConfigFile then
      match addressInJson? text with
      | some address => .ok address
      | none => .error (.invalidConfig path)
    else .ok ((addressIn? text.toList).map String.ofList)

/-- Names of the one dialect that is read. -/
def languages : List String :=
  ["cypress", "cy"]

/-- Loads a source project; custom commands belong to it and no longer to its files. -/
def loadProject (ws : Workspace) (language directory : String) :
    Except ConvertError Project := do
  if !languages.contains language then
    .error (.unsupportedLanguage language)
  else if !ws.isDirectory directory then
    .error (.access directory .noSourceDirectory)
  else
    let baseUrl ← findBaseUrl ws directory
    let files ← (sourceFiles ws directory).mapM fun file =>
      (readSource file).map fun spec => (file.kind, spec)
    .ok
      { sourceDir := directory
        specs := (files.filter fun file => file.1 = .spec).map fun file =>
          { file.2 with definitions := [] }
        definitions := files.flatMap fun file => file.2.definitions
        baseUrl }

end Discovery
end SuiteShift
