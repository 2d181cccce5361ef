import SuiteShift.Workspace.Tree

/-!
# Access to files

A workspace is a tree of files with a directory in which relative paths start.

- `locate`: where a path leads; every piece but the last must lead to a directory.
- `readText`, `isFile`, `isDirectory`: looking.
- `Edit`: changes, which stay when a later one fails: `makeDirectories`, `writeText`.
-/

namespace SuiteShift

/-- Why a file or directory cannot be used. -/
inductive AccessError where
  | missing
  | present
  | notDirectory
  | isDirectory
  | nameTooLong
  | nulInName
  | notText
  /-- The directory of the source project is none. -/
  | noSourceDirectory
deriving DecidableEq, Repr, Inhabited

namespace AccessError

/-- The error in words. -/
def message : AccessError → String
  | .missing => "No such file or directory (os error 2)"
  | .present => "File exists (os error 17)"
  | .notDirectory => "Not a directory (os error 20)"
  | .isDirectory => "Is a directory (os error 21)"
  | .nameTooLong => "File name too long (os error 36)"
  | .nulInName => "file name contained an unexpected NUL byte"
  | .notText => "stream did not contain valid UTF-8"
  | .noSourceDirectory => "not a directory"

end AccessError

/-- A tree of files, and the location at which relative paths start. -/
structure Workspace where
  root : FileTree
  workingDir : List String

namespace Workspace

/-- Bytes that a name may have. -/
def nameLimit : Nat := 255

/-- Bytes that a path may have. -/
def pathLimit : Nat := 4095

/-- The entries of the directory at a location. -/
def entriesAt (ws : Workspace) (location : List String) :
    Except AccessError (List (String × FileTree)) :=
  match ws.root.get? location with
  | some (.directory entries) => .ok entries
  | some (.file _) => .error .notDirectory
  | none => .error .missing

/-- Follows a piece of a path from a location. -/
def step (ws : Workspace) (location : List String) (piece : List Char) :
    Except AccessError (List String) := do
  let entries ← ws.entriesAt location
  match piece with
  | [] => .ok location
  | ['.'] => .ok location
  | ['.', '.'] => .ok location.dropLast
  | piece =>
    let name := String.ofList piece
    if nameLimit < Text.utf8Length piece then .error .nameTooLong
    else if (entries.lookup name).isSome then .ok (location ++ [name])
    else .error .missing

/-- Follows pieces of a path from a location. -/
def follow (ws : Workspace) (location : List String) (pieces : List (List Char)) :
    Except AccessError (List String) :=
  pieces.foldlM ws.step location

/-- The location at which a path starts; refuses what is no path at all. -/
def start (ws : Workspace) (path : String) : Except AccessError (List String) :=
  if path.isEmpty then .error .missing
  else if path.toList.contains '\x00' then .error .nulInName
  else if pathLimit < Text.utf8Length path.toList then .error .nameTooLong
  else .ok (if path.startsWith "/" then [] else ws.workingDir)

/-- Where a path leads. -/
def locate (ws : Workspace) (path : String) : Except AccessError (List String) := do
  ws.follow (← ws.start path) (Path.pieces path)

/-- The tree that a path leads to. -/
def find? (ws : Workspace) (path : String) : Option FileTree :=
  match ws.locate path with
  | .ok location => ws.root.get? location
  | .error _ => none

/-- The path leads to a directory. -/
def isDirectory (ws : Workspace) (path : String) : Bool :=
  match ws.find? path with
  | some (.directory _) => true
  | _ => false

/-- The path leads to a file. -/
def isFile (ws : Workspace) (path : String) : Bool :=
  match ws.find? path with
  | some (.file _) => true
  | _ => false

/-- The text of the file that a path leads to. -/
def readText (ws : Workspace) (path : String) : Except AccessError String := do
  match ws.root.get? (← ws.locate path) with
  | some (.file (.text text)) => .ok text
  | some (.file .binary) => .error .notText
  | some (.directory _) => .error .isDirectory
  | none => .error .missing

/-- The place of something new: its directory, its name, and whether it is written as a
directory. -/
structure Target where
  directory : List String
  name : List Char
  slash : Bool

/-- The place that a path names, whether or not something is there; none for the root. -/
def target (ws : Workspace) (path : String) : Except AccessError (Option Target) := do
  let location ← ws.start path
  let reversed := (Path.pieces path).reverse
  match reversed.dropWhile List.isEmpty with
  | [] => .ok none
  | name :: before =>
    let directory ← ws.follow location before.reverse
    let _ ← ws.entriesAt directory
    .ok (some ⟨directory, name, reversed.head? == some []⟩)

/-- The name is one of the two that every directory has for itself and the one above. -/
def isDots (name : List Char) : Bool :=
  name == ['.'] || name == ['.', '.']

/-- The location of a target with an ordinary name, and what is there. -/
def place (ws : Workspace) (target : Target) :
    Except AccessError (List String × Option FileTree) :=
  if nameLimit < Text.utf8Length target.name then .error .nameTooLong
  else
    let location := target.directory ++ [String.ofList target.name]
    .ok (location, ws.root.get? location)

/-- The workspace with a new directory. -/
def addDirectory (ws : Workspace) (path : String) : Except AccessError Workspace := do
  match ← ws.target path with
  | none => .error .present
  | some target =>
    if isDots target.name then .error .present
    else
      match ← ws.place target with
      | (_, some _) => .error .present
      | (location, none) => .ok { ws with root := ws.root.put location .empty }

/-- The workspace with a file of some text, new or in the place of another file. -/
def addText (ws : Workspace) (path text : String) : Except AccessError Workspace := do
  match ← ws.target path with
  | none => .error .isDirectory
  | some target =>
    if target.slash || isDots target.name then .error .isDirectory
    else
      match ← ws.place target with
      | (_, some (.directory _)) => .error .isDirectory
      | (location, _) => .ok { ws with root := ws.root.put location (.file (.text text)) }

/-- A change of the workspace. What was done stays when a later step fails. -/
abbrev Edit (ε α : Type) :=
  ExceptT ε (StateM Workspace) α

/-- Puts the result of a step in the place of the workspace. -/
def edit (change : Workspace → Except AccessError Workspace) : Edit AccessError Unit := do
  match change (← get) with
  | .ok ws => set ws
  | .error e => throw e

/-- Makes a directory, unless it is there. -/
def ensureDirectory (path : String) : Edit AccessError Unit := do
  try edit (addDirectory · path)
  catch e => if (← get).isDirectory path then pure () else throw e

/-- Makes the first of some directories, each of which is below the next; the last one is not
made. -/
def ensureChain : List String → Edit AccessError Unit
  | path :: above :: rest => do
    try ensureDirectory path
    catch
      | .missing => do
        ensureChain (above :: rest)
        ensureDirectory path
      | e => throw e
  | _ => pure ()

/-- Makes a directory and those above it. -/
def makeDirectories (path : String) : Edit AccessError Unit :=
  ensureChain (Path.ancestors path)

/-- Writes a file. -/
def writeText (path text : String) : Edit AccessError Unit :=
  edit (addText · path text)

/-- The location that a path names, whether or not something is there. -/
def lexical (ws : Workspace) (path : String) : List String :=
  (Path.components path).foldl (fun location component =>
    match component with
    | .root => []
    | .here => location
    | .up => location.dropLast
    | .name name => location ++ [name]) ws.workingDir

/-- The paths and texts of the files below a location that are new or have another content. -/
def changedFiles (old new : Workspace) (location : List String) : List (String × String) :=
  let filesOf (ws : Workspace) := ((ws.root.get? location).getD .empty).files
  let before := filesOf old
  (filesOf new).filterMap fun
    | (path, .text text) =>
      if before.lookup path == some (.text text) then none else some (path, text)
    | (_, .binary) => none

end Workspace
end SuiteShift
