import SuiteShift.Script.Cursor
import SuiteShift.Text.Basic

/-!
# Scanning

A scan reads from a cursor and may fail; a failed alternative leaves the cursor where it was.

- `start` passes blanks and comments and gives the place where a node begins.
- `symbol`, `keyword`, `name` read one lexeme; `attempt`, `many`, `commaList` combine scans.
- `Goal` names the parts of the grammar that refer to each other; a production receives the
  reader for all goals as its first argument.
-/

namespace SuiteShift
namespace Script

/-- A scan: the next cursor and a result, or failure. -/
abbrev Scan := StateT Cursor Option

/-- How an expression may end and what it may hold. -/
structure Mode where
  /-- A line break may end the expression. -/
  statement : Bool := false
  /-- The operator `in` is allowed. -/
  allowIn : Bool := true
  /-- The expression stands between a question mark and a colon. -/
  consequent : Bool := false
deriving DecidableEq

/-- The mode of an expression inside brackets. -/
def Mode.inner : Mode := {}

/-- The mode of an expression that a line break may end. -/
def Mode.outer : Mode := { statement := true }

/-- The parts of the grammar that refer to each other. -/
inductive Goal where
  | statement
  | block
  | sequence (mode : Mode)
  | expression (mode : Mode)
  | binary (mode : Mode) (level : Nat)
  | operand (mode : Mode)
  | object
  | creation
  | type
deriving DecidableEq

/-- The reader for all goals. -/
abbrev Reader := Goal → Scan Tree

namespace Scan

variable {α β : Type}

/-- Passes blanks and comments; a node begins here. -/
def start : Scan Cursor := do
  modify Cursor.skipTrivia
  get

/-- The node from its beginning up to the last lexeme read. -/
def close (a : Cursor) (kind : Kind) (children : List Tree) : Scan Tree := do
  return a.node (← get) kind children

/-- The characters after blanks and comments. -/
def ahead : Scan (List Char) := do
  return (← get).skipTrivia.rest

/-- The text ahead starts with a symbol. -/
def sees (s : String) : Scan Bool := do
  return Text.startsWith s.toList (← ahead)

/-- A line break lies before the next lexeme. -/
def breaksLine : Scan Bool := do
  return (← get).breaksLine

/-- Passes a number of characters. -/
def take (n : Nat) : Scan Unit :=
  modify (·.advance n)

/-- Reads a symbol. -/
def symbol (s : String) : Scan Unit := do
  let c ← start
  if Text.startsWith s.toList c.rest then set (c.advance s.length) else failure

/-- Reads a symbol if it is there. -/
def symbol? (s : String) : Scan Bool := do
  if ← sees s then
    symbol s
    return true
  else return false

/-- The identifier or keyword ahead, empty if there is none. -/
def wordAhead : Scan String := do
  let cs ← ahead
  return String.ofList (cs.take (identifierLength cs))

/-- Reads a keyword. -/
def keyword (w : String) : Scan Unit := do
  if (← wordAhead) == w then
    let c ← start
    set (c.advance w.length)
  else failure

/-- Reads a keyword if it is there. -/
def keyword? (w : String) : Scan Bool := do
  if (← wordAhead) == w then
    keyword w
    return true
  else return false

/-- Reads an identifier or keyword as a node of a kind. -/
def name (kind : Kind) : Scan Tree := do
  let a ← start
  match identifierLength a.rest with
  | 0 => failure
  | n => do
    take n
    close a kind []

/-- Reads a lexeme that a function measures as a node of a kind. -/
def lexeme (kind : Kind) (length : List Char → Nat) : Scan Tree := do
  let a ← start
  match length a.rest with
  | 0 => failure
  | n => do
    take n
    close a kind []

/-- The scan if it succeeds. -/
def attempt (p : Scan α) : Scan (Option α) :=
  (some <$> p) <|> pure none

/-- The scan without its result. -/
def void (p : Scan α) : Scan Unit := do
  let _ ← p

/-- Succeeds without reading if the scan would succeed. -/
def lookahead (p : Scan Unit) : Scan Unit := do
  let c ← get
  p
  set c

/-- Repeats a scan as long as it succeeds, at most a number of times. -/
def manyFrom (p : Scan α) : Nat → Scan (List α)
  | 0 => pure []
  | n + 1 => do
    match ← attempt p with
    | some a => return a :: (← manyFrom p n)
    | none => return []

/-- Repeats a scan that reads at least one character as long as it succeeds. -/
def many (p : Scan α) : Scan (List α) := do
  manyFrom p ((← get).rest.length + 1)

/-- Repeats a scan on the value that it has built so far. -/
def iterateFrom (p : α → Scan α) : Nat → α → Scan α
  | 0, a => pure a
  | n + 1, a => do
    match ← attempt (p a) with
    | some b => iterateFrom p n b
    | none => return a

/-- Repeats a scan on the value that it has built so far as long as it succeeds. -/
def iterate (p : α → Scan α) (a : α) : Scan α := do
  iterateFrom p ((← get).rest.length + 1) a

/-- One or more items with commas between them. -/
def commaList (p : Scan α) : Scan (List α) := do
  let first ← p
  let rest ← many do
    symbol ","
    p
  return first :: rest

/-- A comment, if one comes next. -/
def comment : Scan Tree := do
  let c ← get
  let a := c.advance (gapLength c.rest)
  match commentLength a.rest with
  | 0 => failure
  | n => do
    set (a.advance n)
    close a .comment []

/-- Reads the end of a statement. -/
def semicolon (afterExpression : Bool) : Scan Unit := do
  if ← symbol? ";" then return
  let c ← get
  match autoSemicolon? afterExpression (c.rest.length + 1) c with
  | some stop => set stop
  | none => failure

/-- Reads the end of a statement that needs none, so that comments on the same line belong to
it as they do elsewhere. -/
def lineEnd : Scan Unit := do
  let c ← get
  match autoSemicolon? false (c.rest.length + 1) c with
  | some stop => set stop
  | none => return

end Scan

/-- Where a reader of balanced brackets stands. -/
structure Balance where
  depth : Nat := 0
  quote : Option Char := none
  comment : Gap := .between
  /-- Characters that belong to what was read before. -/
  skip : Nat := 0

namespace Balance

/-- The state after a character outside literals and comments, before `next`. -/
def code (b : Balance) (c : Char) (next : Option Char) : Balance :=
  if c == '/' && next == some '/' then { b with comment := .lineComment }
  else if c == '/' && next == some '*' then { b with comment := .blockComment, skip := 1 }
  else if c == '"' || c == '\'' || c == '\x60' then { b with quote := some c }
  else if c == '(' || c == '[' || c == '\x7b' then { b with depth := b.depth + 1 }
  else if c == ')' || c == ']' || c == '\x7d' then { b with depth := b.depth - 1 }
  else b

/-- The state after a character, before `next`. -/
def step (b : Balance) (c : Char) (next : Option Char) : Balance :=
  if 0 < b.skip then { b with skip := b.skip - 1 }
  else
    match b.comment, b.quote with
    | .lineComment, _ => if endsLine c then { b with comment := .between } else b
    | .blockComment, _ =>
      if c == '*' && next == some '/' then { b with comment := .between, skip := 1 } else b
    | .between, some q =>
      if c == '\\' then { b with skip := 1 }
      else if c == q then { b with quote := none }
      else b
    | .between, none => b.code c next

end Balance

/-- The number of characters from an opening bracket to its partner; literals and comments are
passed over. -/
def balancedLength (b : Balance) : List Char → Nat
  | [] => 0
  | c :: cs =>
    let next := b.step c cs.head?
    if next.depth == 0 then 1 else balancedLength next cs + 1

/-- Passes brackets with all that they hold. -/
def Scan.balanced (opening : String) : Scan Unit := do
  let c ← Scan.start
  if Text.startsWith opening.toList c.rest then
    set (c.advance (balancedLength {} c.rest))
  else failure

end Script
end SuiteShift
