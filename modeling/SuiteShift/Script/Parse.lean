import SuiteShift.Script.Statement

/-!
# Reading scripts

`parse?` reads a whole script into a tree. The productions are tied together by recursion on a
bound for the depth of nesting, which the length of the script gives.
-/

namespace SuiteShift
namespace Script

open Scan

/-- The production of a goal, given the reader for all goals. -/
def production (self : Reader) : Reader
  | .statement => statement self
  | .block => block self
  | .sequence mode => sequence self mode
  | .expression mode => expression self mode
  | .binary mode level => binary self mode level
  | .operand mode => operand self mode
  | .object => objectLiteral self
  | .creation => creation self
  | .type => typeNode self

/-- The reader for all goals, up to a depth of nesting. -/
def reader : Nat → Reader
  | 0 => fun _ => failure
  | depth + 1 => production (reader depth)

/-- A line at the start that names an interpreter. -/
def hashBang : Scan Tree := do
  let a ← get
  match a.rest with
  | '#' :: '!' :: cs => do
    take ((cs.takeWhile fun c => !endsLine c).length + 2)
    close a .hashBang []
  | _ => failure

/-- A whole script. -/
def program (self : Reader) : Scan Tree := do
  let a ← get
  let first ← attempt hashBang
  let items ← blockItems self
  let stop ← start
  if stop.rest.isEmpty then close a .program (first.toList ++ items) else failure

/-- Reads a script; `none` if it is not well formed, as nothing is recovered from syntax errors. -/
def parse? (source : String) : Option Tree :=
  let cs := source.toList
  (program (reader (8 * cs.length + 16)) { rest := cs }).map Prod.fst

end Script
end SuiteShift
