import SuiteShift.Script.Parse
import SuiteShift.Spec.Reader

/-!
# Test suites from source text

`SpecFile.ofSource` and `Snippet.ofSource` read source text by way of its syntax tree.

Only well-formed scripts are read. The tool that this library describes reads with a parser that
recovers from syntax errors: it warns at most, and goes on with the tree that was recovered. What
such a tree looks like is up to the heuristics of that parser, which are not described here. So a
syntax error anywhere in a text makes it `malformed`. The theorems on files hold of whatever trees
`Script.parse?` gives and do not depend on that choice.
-/

namespace SuiteShift

/-- Why source text cannot be read. -/
inductive SourceError where
  /-- The text has a syntax error. The tool itself does not refuse it but keeps what it recovers. -/
  | malformed
  /-- The indentation of some line would have to be cut inside a character. -/
  | splitBlank
deriving DecidableEq, Repr, Inhabited

/-- Reads a test or support file. One with a syntax error is refused, where the tool warns and keeps
the recovered tree. -/
def SpecFile.ofSource (path source : String) : Except SourceError SpecFile :=
  match Script.parse? source with
  | none => .error .malformed
  | some tree =>
    match Spec.ofTree path tree with
    | none => .error .splitBlank
    | some spec => .ok spec

/-- Reads loose statements. With a syntax error among them they are refused, where the tool does not
look for errors and reads whatever it recovers. -/
def Snippet.ofSource (source : String) : Except SourceError Snippet :=
  match Script.parse? source with
  | none => .error .malformed
  | some tree =>
    match Spec.snippetOfTree tree with
    | none => .error .splitBlank
    | some snippet => .ok snippet

end SuiteShift
