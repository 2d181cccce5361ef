import SuiteShift.Cli.Basic

/-!
# The program

`main` takes a picture of the files that a command line can reach, carries the command line out
on it, prints what there is to print and writes the files that changed.
-/

namespace SuiteShift
namespace Cli

/-- Levels of nesting to which directories are read. -/
def pictureDepth : Nat := 64

/-- The content of a file on disk. -/
def readContent (path : String) : IO Content := do
  let bytes ← IO.FS.readBinFile path
  pure (((String.fromUTF8? bytes).map Content.text).getD .binary)

/-- The file or directory on disk at a path, if there is one; installed packages are left out. -/
def picture : (depth : Nat) → (path : String) → IO (Option FileTree)
  | 0, _ => pure none
  | depth + 1, path => do
    let place := (← IO.currentDir) / path
    if ← place.isDir then
      let mut tree := FileTree.empty
      for entry in ← place.readDir do
        if !Discovery.isSkipped entry.fileName then
          if let some below ← picture depth (Path.join path entry.fileName) then
            tree := tree.put [entry.fileName] below
      pure (some tree)
    else if ← place.pathExists then
      pure (some (.file (← readContent path)))
    else pure none

/-- The workspace with what is on disk at a path. -/
def loadPath (ws : Workspace) (path : String) : IO Workspace := do
  match ← picture pictureDepth path with
  | some tree => pure { ws with root := ws.root.put (ws.lexical path) tree }
  | none => pure ws

/-- The workspace for a command line. What the configuration names is known only after the
configuration has been read. -/
def loadWorkspace (arguments : List String) : IO Workspace := do
  let workingDir := (Path.pieces (← IO.currentDir).toString).filterMap fun piece =>
    if piece.isEmpty then none else some (String.ofList piece)
  let bare : Workspace := ⟨FileTree.empty.put workingDir .empty, workingDir⟩
  let configured ← (reach bare arguments).foldlM loadPath bare
  (reach configured arguments).foldlM loadPath bare

/-- Writes a file to disk, below directories that are made. -/
def writeFile (path text : String) : IO Unit := do
  match Path.parent? path with
  | some directory => IO.FS.createDirAll directory
  | none => pure ()
  IO.FS.writeFile path text

/-- Carries out a command line and gives the code of its end. -/
def carryOut (arguments : List String) : IO UInt32 := do
  let start ← IO.monoMsNow
  let ws ← loadWorkspace arguments
  let stdin ←
    if (reach ws arguments).any isStdin then (← IO.getStdin).readToEnd else pure ""
  let run := run ws stdin arguments
  for (path, text) in ws.changedFiles run.workspace [] do
    writeFile (Path.join "/" path) text
  for line in run.stderr do
    IO.eprintln line
  let stop ← IO.monoMsNow
  IO.print (Printed.render (toString (stop - start)) run.stdout)
  pure (UInt32.ofNat run.exit.code)

end Cli
end SuiteShift

/-- The program. -/
def main (arguments : List String) : IO UInt32 :=
  SuiteShift.Cli.carryOut arguments
