import SuiteShift.Path.Basic

/-!
# Trees of files

A directory holds files and directories by name, in the order of their names.

- `FileTree.get?`, `FileTree.put`: the tree at a location, a list of names from the top.
- `FileTree.walk`: all files with their paths, directory by directory.
-/

namespace SuiteShift

/-- What a file holds. -/
inductive Content where
  | text (text : String)
  /-- Bytes that are not text in UTF-8. -/
  | binary
deriving DecidableEq, Repr, Inhabited

/-- A file, or a directory with its entries. -/
inductive FileTree where
  | file (content : Content)
  | directory (entries : List (String × FileTree))
deriving Inhabited

namespace FileTree

/-- A directory without entries. -/
def empty : FileTree :=
  .directory []

/-- The tree is a directory. -/
def isDirectory : FileTree → Bool
  | .directory _ => true
  | .file _ => false

/-- The tree at a location. -/
def get? : FileTree → (location : List String) → Option FileTree
  | tree, [] => some tree
  | .file _, _ :: _ => none
  | .directory entries, name :: location =>
    match entries.lookup name with
    | some tree => tree.get? location
    | none => none

/-- The entries with one added or replaced, in the order of their names. -/
def setEntry (name : String) (tree : FileTree) :
    List (String × FileTree) → List (String × FileTree)
  | [] => [(name, tree)]
  | (other, old) :: entries =>
    if name = other then (name, tree) :: entries
    else if name < other then (name, tree) :: (other, old) :: entries
    else (other, old) :: setEntry name tree entries

/-- The tree with another one put at a location; directories on the way are made. -/
def put : FileTree → (location : List String) → (new : FileTree) → FileTree
  | _, [], new => new
  | .directory entries, name :: location, new =>
    let old := (entries.lookup name).getD empty
    .directory (setEntry name (old.put location new) entries)
  | .file _, name :: location, new =>
    .directory [(name, empty.put location new)]

mutual

/-- All files at or below a path, but those whose own name or that of a directory on the way is
skipped; entries come in their order. -/
def walk (skipped : String → Bool) (path : String) : FileTree → List (String × Content)
  | .file content => [(path, content)]
  | .directory entries => walkEntries skipped path entries

/-- All files of some entries of the directory at a path. -/
def walkEntries (skipped : String → Bool) (path : String) :
    List (String × FileTree) → List (String × Content)
  | [] => []
  | (name, tree) :: entries =>
    (if skipped name then [] else walk skipped (Path.join path name) tree) ++
      walkEntries skipped path entries

end

/-- All files with their paths from the top. -/
def files (tree : FileTree) : List (String × Content) :=
  tree.walk (fun _ => false) ""

end FileTree
end SuiteShift
