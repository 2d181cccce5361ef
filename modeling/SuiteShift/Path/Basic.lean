import SuiteShift.Text.Basic

/-!
# Paths

A path is written as text, with a slash between its pieces. Its components are the pieces that
say something: repeated slashes, a slash at the end and a dot anywhere but at the start do not
count.

- `components`, `render`: a path as written, and as a list of components.
- `join`, `parent?`: a path below another one, and the path above; both keep what is written.
- `fileName?`, `fileExtension?`, `stripBase?`: questions about the components.
- `relative?`: the steps from one place to another.
-/

namespace SuiteShift
namespace Path

/-- A component of a path. -/
inductive Component where
  /-- The slash at the start of an absolute path. -/
  | root
  /-- A dot at the start of a path. -/
  | here
  /-- Two dots. -/
  | up
  | name (text : String)
deriving DecidableEq, Repr, Inhabited

namespace Component

/-- The component as it is written. -/
def text : Component → String
  | .root => "/"
  | .here => "."
  | .up => ".."
  | .name text => text

/-- The component of a piece after the first one. -/
def ofPiece? : List Char → Option Component
  | [] => none
  | ['.'] => none
  | ['.', '.'] => some .up
  | piece => some (.name (String.ofList piece))

/-- The component of the first piece, which is empty in an absolute path. -/
def ofFirstPiece? : List Char → Option Component
  | [] => some .root
  | ['.'] => some .here
  | piece => ofPiece? piece

end Component

/-- The pieces of a path between slashes. -/
def pieces (path : String) : List (List Char) :=
  Text.splitOn (· == '/') path.toList

/-- The components of a path. -/
def components (path : String) : List Component :=
  match pieces path with
  | [[]] => []
  | first :: rest =>
    (Component.ofFirstPiece? first).toList ++ rest.filterMap Component.ofPiece?
  | [] => []

/-- The texts of the components with a slash between any two. -/
def joined (components : List Component) : String :=
  "/".intercalate (components.map Component.text)

/-- The path with the given components. -/
def render : List Component → String
  | .root :: rest => "/" ++ joined rest
  | components => joined components

/-- The path starts at the root. -/
def isAbsolute (components : List Component) : Bool :=
  components.head? == some .root

/-- A path taken relative to a directory; an absolute path stays as it is. -/
def join (directory path : String) : String :=
  if path.startsWith "/" || directory.isEmpty then path
  else if directory.endsWith "/" then directory ++ path
  else directory ++ "/" ++ path

/-- The piece says nothing in a place after the first one. -/
def isVoidPiece (piece : List Char) : Bool :=
  (Component.ofPiece? piece).isNone

/-- Removes pieces at the end that say nothing. -/
def dropVoidEnd (pieces : List (List Char)) : List (List Char) :=
  (pieces.reverse.dropWhile isVoidPiece).reverse

/-- Removes the last piece that says something, and what says nothing around it. -/
def dropLastPiece (pieces : List (List Char)) : List (List Char) :=
  dropVoidEnd (dropVoidEnd pieces).dropLast

/-- Pieces with a slash between any two. -/
def joinPieces (pieces : List (List Char)) : String :=
  String.ofList (Text.joinChars ['/'] pieces)

/-- The path above, as written; the root and the empty path have none. -/
def parent? (path : String) : Option String :=
  match pieces path with
  | [] => none
  | [] :: rest =>
    if rest.all isVoidPiece then none else some ("/" ++ joinPieces (dropLastPiece rest))
  | first :: rest =>
    if rest.all isVoidPiece then some "" else some (joinPieces (first :: dropLastPiece rest))

/-- The path, the path above it and so on, at most `steps` times up. -/
def ancestorsUpTo : (steps : Nat) → String → List String
  | 0, path => [path]
  | steps + 1, path =>
    match parent? path with
    | some above => path :: ancestorsUpTo steps above
    | none => [path]

/-- The path and all paths above it; each step up removes a piece. -/
def ancestors (path : String) : List String :=
  ancestorsUpTo (pieces path).length path

/-- The name of the file that a path leads to. -/
def fileName? (components : List Component) : Option String :=
  match components.getLast? with
  | some (.name text) => some text
  | _ => none

/-- Splits a name at its last dot. -/
def splitLastDot? (name : List Char) : Option (List Char × List Char) :=
  match (name.reverse.takeWhile (· != '.')), (name.reverse.dropWhile (· != '.')) with
  | after, _ :: before => some (before.reverse, after.reverse)
  | _, [] => none

/-- What follows the last dot of a file name; a dot at the start does not count. -/
def fileExtension? (name : String) : Option String :=
  match splitLastDot? name.toList with
  | some (_ :: _, after) => some (String.ofList after)
  | _ => none

/-- The components after those of a base. -/
def stripBase? : (base : List Component) → List Component → Option (List Component)
  | [], path => some path
  | _ :: _, [] => none
  | b :: base, c :: path => if b = c then stripBase? base path else none

/-- The components of a path after those of a directory, or all of them if it lies elsewhere. -/
def componentsBelow (directory path : String) : List Component :=
  (stripBase? (components directory) (components path)).getD (components path)

/-- The steps from a directory to a target, when both are relative or both are absolute; the
flag says that a step was made. A directory that goes up cannot be left. -/
def stepsFrom (moved : Bool) : (directory target : List Component) → Option (List Component)
  | [], target => some target
  | directory, [] => some (directory.map fun _ => .up)
  | d :: directory, t :: target =>
    if !moved && t = d then stepsFrom false directory target
    else if d = .here then (stepsFrom true directory target).map (t :: ·)
    else if d = .up then none
    else some ((d :: directory).map (fun _ => .up) ++ t :: target)

/-- The steps from a directory to a target. -/
def relative? (directory target : List Component) : Option (List Component) :=
  if isAbsolute target = isAbsolute directory then stepsFrom false directory target
  else if isAbsolute target then some target
  else none

/-- Removes dots that stand anywhere but at the start. -/
def dropInnerDots : List Component → List Component
  | [] => []
  | first :: rest => first :: rest.filter fun c => c != .here

end Path
end SuiteShift
