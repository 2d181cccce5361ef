import SuiteShift.Text.Basic
import SuiteShift.Literal.Quoted

/-!
# Nesting of delimiters

Argument lists in source text hold objects, arrays and callbacks with commas of their own.
`Nesting` is the state of a scan: the open literal, and the depths of the three bracket kinds.

- `arguments` splits an argument list at the commas outside all nesting.
- `closingParen?` finds the parenthesis that closes the one at a byte position.
-/

namespace SuiteShift
namespace Literal

/-- Where a scan stands: inside which literal, and how deep in each kind of brackets. -/
structure Nesting where
  quote : Option Char := none
  escaped : Bool := false
  braces : Nat := 0
  brackets : Nat := 0
  parens : Nat := 0
deriving DecidableEq, Repr, Inhabited

namespace Nesting

/-- Outside all literals and brackets. -/
def isTop (n : Nesting) : Bool :=
  n.quote.isNone && n.braces == 0 && n.brackets == 0 && n.parens == 0

/-- The state after one more character; a closer without an opener is passed over. -/
def step (n : Nesting) (c : Char) : Nesting :=
  match n.quote with
  | some q =>
    if n.escaped then { n with escaped := false }
    else if c == '\\' then { n with escaped := true }
    else if c == q then { n with quote := none }
    else n
  | none =>
    if isDelimiter c then { n with quote := some c }
    else if c == '\x7b' then { n with braces := n.braces + 1 }
    else if c == '\x7d' then { n with braces := n.braces - 1 }
    else if c == '[' then { n with brackets := n.brackets + 1 }
    else if c == ']' then { n with brackets := n.brackets - 1 }
    else if c == '(' then { n with parens := n.parens + 1 }
    else if c == ')' then { n with parens := n.parens - 1 }
    else n

end Nesting

/-- The pieces between commas at top level, as written. -/
def splitTop (n : Nesting) : List Char → List (List Char)
  | [] => [[]]
  | c :: cs =>
    if c == ',' && n.isTop then
      [] :: splitTop n cs
    else
      match splitTop (n.step c) cs with
      | [] => [[c]]
      | piece :: pieces => (c :: piece) :: pieces

/-- Trims every piece and drops the last one if nothing is left of it. -/
def trimPieces : List (List Char) → List (List Char)
  | [] => []
  | [piece] =>
    let last := Text.trimChars piece
    if last.isEmpty then [] else [last]
  | piece :: pieces => Text.trimChars piece :: trimPieces pieces

/-- The trimmed arguments of an argument list. -/
def argumentChars (cs : List Char) : List (List Char) :=
  trimPieces (splitTop {} cs)

/-- The trimmed arguments of an argument list. -/
def arguments (s : String) : List String :=
  (argumentChars s.toList).map String.ofList

/-- Splits the text at the first closing parenthesis that ends at top level: the text before it
and the text after it. -/
def splitClosing (n : Nesting) : List Char → Option (List Char × List Char)
  | [] => none
  | c :: cs =>
    let next := n.step c
    if c == ')' && next.isTop then some ([], cs)
    else (splitClosing next cs).map fun (inside, after) => (c :: inside, after)

/-- The text between a parenthesis and its partner, and the text after the partner. -/
def parenthesized? : List Char → Option (List Char × List Char)
  | '(' :: cs => splitClosing (Nesting.step {} '(') cs
  | _ => none

/-- The byte position of the parenthesis that closes the one at the byte position `start`. -/
def closingParen? (s : String) (start : Nat) : Option Nat :=
  match Text.dropBytes start s.toList with
  | some cs =>
    (parenthesized? cs).map fun (inside, _) => start + 1 + Text.utf8Length inside
  | none => none

end Literal
end SuiteShift
