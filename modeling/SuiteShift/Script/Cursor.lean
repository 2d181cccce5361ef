import SuiteShift.Script.Tree
import SuiteShift.Text.Letter

/-!
# Cursors and lexemes

A cursor is a place in a script: the characters still to be read and where the next one stands.

- `triviaLength` measures the blanks and comments ahead.
- `identifierLength`, `numberLength`, `stringLength`, `regexLength` measure lexemes.
- `autoSemicolon?` decides whether a statement may end without a semicolon.
-/

namespace SuiteShift
namespace Script

/-- A place in a script. -/
structure Cursor where
  rest : List Char
  /-- Characters read so far. -/
  index : Nat := 0
  row : Nat := 0
  column : Nat := 0
deriving Inhabited

namespace Cursor

/-- The row and column. -/
def point (c : Cursor) : Point :=
  ⟨c.row, c.column⟩

/-- Moves over one character. -/
def step (c : Cursor) : Cursor :=
  match c.rest with
  | [] => c
  | ch :: rest =>
    if ch == '\n' then ⟨rest, c.index + 1, c.row + 1, 0⟩
    else ⟨rest, c.index + 1, c.row, c.column + ch.utf8Size⟩

/-- Moves over a number of characters. -/
def advance (c : Cursor) : Nat → Cursor
  | 0 => c
  | n + 1 => c.step.advance n

/-- The text from a cursor up to a later one. -/
def textTo (a b : Cursor) : String :=
  String.ofList (a.rest.take (b.index - a.index))

/-- A node from a cursor up to a later one. -/
def node (a b : Cursor) (kind : Kind) (children : List Tree) : Tree :=
  .node kind .plain ⟨a.point, b.point⟩ (a.textTo b) children

end Cursor

/-- Blanks between lexemes. -/
def isGap (c : Char) : Bool :=
  let n := c.toNat
  (Nat.ble 9 n && Nat.ble n 13) || n == 32 || n == 160 || n == 5760 ||
    (Nat.ble 8192 n && Nat.ble n 8203) || n == 8232 || n == 8233 || n == 8239 || n == 8287 ||
    n == 8288 || n == 12288 || n == 65279

/-- ASCII blanks, which alone count in the search for the end of a statement. -/
def isPlainGap (c : Char) : Bool :=
  let n := c.toNat
  (Nat.ble 9 n && Nat.ble n 13) || n == 32

/-- Where a reader of blanks and comments stands. -/
inductive Gap where
  | between
  | lineComment
  | blockComment
deriving DecidableEq

/-- A line comment ends before these. -/
def endsLine (c : Char) : Bool :=
  c == '\n' || c == '\r' || c == '\u2028' || c == '\u2029'

/-- The number of characters of blanks and comments ahead, for a class of blanks. -/
def triviaLength (blank : Char → Bool) : Gap → List Char → Nat
  | _, [] => 0
  | .between, '/' :: '/' :: cs => triviaLength blank .lineComment cs + 2
  | .between, '/' :: '*' :: cs => triviaLength blank .blockComment cs + 2
  | .between, c :: cs => if blank c then triviaLength blank .between cs + 1 else 0
  | .lineComment, c :: cs =>
    if endsLine c then
      (if blank c then triviaLength blank .between cs + 1 else 0)
    else triviaLength blank .lineComment cs + 1
  | .blockComment, '*' :: '/' :: cs => triviaLength blank .between cs + 2
  | .blockComment, _ :: cs => triviaLength blank .blockComment cs + 1

/-- The number of characters of blanks ahead. -/
def gapLength (cs : List Char) : Nat :=
  (cs.takeWhile isGap).length

/-- The number of characters of a block comment up to its end, after its opening. -/
def blockCommentLength : List Char → Nat
  | [] => 0
  | '*' :: '/' :: _ => 2
  | _ :: cs => blockCommentLength cs + 1

/-- The number of characters of a comment that starts here; zero if none does. -/
def commentLength : List Char → Nat
  | '/' :: '/' :: cs => (cs.takeWhile fun c => !endsLine c).length + 2
  | '/' :: '*' :: cs => blockCommentLength cs + 2
  | _ => 0

/-- Characters that no identifier has. -/
def isPunctuation (c : Char) : Bool :=
  (":;\x60\"'@#.,|^&<=>+-*/\\%?!~()[]\x7b\x7d".toList).contains c

/-- Characters of identifiers. -/
def isNamePart (c : Char) : Bool :=
  !(c.toNat < 32 || isGap c || isPunctuation c)

/-- First characters of identifiers. -/
def isNameStart (c : Char) : Bool :=
  isNamePart c && !Text.isAsciiDigit c

/-- The number of characters of a character escape in an identifier; zero if there is none. -/
def nameEscapeLength : List Char → Nat
  | '\\' :: 'u' :: '\x7b' :: cs => (cs.takeWhile (· != '\x7d')).length + 4
  | '\\' :: 'u' :: _ :: _ :: _ :: _ :: _ => 6
  | _ => 0

/-- The number of identifier characters ahead, escapes included; the number counts the
characters of an escape that are still to be passed. -/
def namePartsLength : Nat → List Char → Nat
  | _, [] => 0
  | skip + 1, _ :: cs => namePartsLength skip cs + 1
  | 0, c :: cs =>
    if isNamePart c then namePartsLength 0 cs + 1
    else
      match nameEscapeLength (c :: cs) with
      | 0 => 0
      | n + 1 => namePartsLength n cs + 1

/-- The number of characters of an identifier; zero if none starts here. -/
def identifierLength : List Char → Nat
  | [] => 0
  | c :: cs =>
    if isNameStart c || nameEscapeLength (c :: cs) != 0 then namePartsLength 0 (c :: cs) else 0

/-- Digits of any base and digit separators. -/
def isDigitPart (c : Char) : Bool :=
  Text.isAsciiDigit c || c == '_'

/-- The number of characters of an exponent part; zero if there is none. -/
def exponentLength : List Char → Nat
  | e :: cs =>
    if e == 'e' || e == 'E' then
      let (sign, digits) :=
        match cs with
        | '+' :: rest => (1, rest)
        | '-' :: rest => (1, rest)
        | rest => (0, rest)
      match (digits.takeWhile isDigitPart).length with
      | 0 => 0
      | n + 1 => n + 2 + sign
    else 0
  | [] => 0

/-- One more character if it is the mark of a big integer. -/
def bigMarkLength : List Char → Nat
  | 'n' :: _ => 1
  | _ => 0

/-- The number of characters of a number; zero if none starts here. -/
def numberLength (cs : List Char) : Nat :=
  match cs with
  | '0' :: b :: rest =>
    if ['x', 'X', 'b', 'B', 'o', 'O'].contains b then
      let digits := (rest.takeWhile fun c => Text.isAsciiLetter c && c != 'n' || isDigitPart c).length
      2 + digits + bigMarkLength (rest.drop digits)
    else decimalLength cs
  | _ => decimalLength cs
where
  /-- A decimal number with optional fraction and exponent. -/
  decimalLength (cs : List Char) : Nat :=
    let whole := (cs.takeWhile isDigitPart).length
    match cs.drop whole with
    | '.' :: rest =>
      let fraction := (rest.takeWhile isDigitPart).length
      if whole == 0 && fraction == 0 then 0
      else whole + 1 + fraction + exponentLength (rest.drop fraction)
    | rest =>
      if whole == 0 then 0
      else whole + max (exponentLength rest) (bigMarkLength rest)

/-- The number of characters up to and with an unescaped closing quote. -/
def quotedLength (quote : Char) : Bool → List Char → Nat
  | _, [] => 0
  | true, _ :: cs => quotedLength quote false cs + 1
  | false, c :: cs =>
    if c == '\\' then quotedLength quote true cs + 1
    else if c == quote then 1
    else quotedLength quote false cs + 1

/-- The number of characters of a string literal; zero if none starts here. -/
def stringLength : List Char → Nat
  | c :: cs => if c == '"' || c == '\'' then quotedLength c false cs + 1 else 0
  | [] => 0

/-- Where a reader of a regular expression stands. -/
inductive RegexPart where
  | plain
  | inClass
  | escaped (inClass : Bool)
deriving DecidableEq

/-- The number of characters up to and with the closing slash. -/
def regexBodyLength : RegexPart → List Char → Nat
  | _, [] => 0
  | .escaped inClass, _ :: cs => regexBodyLength (if inClass then .inClass else .plain) cs + 1
  | .plain, c :: cs =>
    if c == '\\' then regexBodyLength (.escaped false) cs + 1
    else if c == '[' then regexBodyLength .inClass cs + 1
    else if c == '/' then 1
    else regexBodyLength .plain cs + 1
  | .inClass, c :: cs =>
    if c == '\\' then regexBodyLength (.escaped true) cs + 1
    else if c == ']' then regexBodyLength .plain cs + 1
    else regexBodyLength .inClass cs + 1

/-- The number of characters of a regular expression literal; zero if none starts here. -/
def regexLength : List Char → Nat
  | '/' :: cs =>
    let body := regexBodyLength .plain cs
    let flags := ((cs.drop body).takeWhile Text.isAsciiLetter).length
    1 + body + flags
  | _ => 0

namespace Cursor

/-- Passes blanks and comments. -/
def skipTrivia (c : Cursor) : Cursor :=
  c.advance (triviaLength isGap .between c.rest)

/-- Passes ASCII blanks and comments. -/
def skipPlainTrivia (c : Cursor) : Cursor :=
  c.advance (triviaLength isPlainGap .between c.rest)

/-- A line break lies in the blanks and comments ahead. -/
def breaksLine (c : Cursor) : Bool :=
  c.row != c.skipTrivia.row

/-- Passes ASCII blanks other than line breaks. -/
def skipPlainGap (c : Cursor) : Cursor :=
  c.advance (c.rest.takeWhile fun ch => isPlainGap ch && ch != '\n').length

end Cursor

/-- Characters that continue a statement on the next line. -/
def continuesLine (c : Char) : Bool :=
  ("\x60,.;*%><=?^|&/:".toList).contains c

/-- A letter, as far as it tells a keyword from a longer name. -/
def isNameLetter (c : Option Char) : Bool :=
  match c with
  | some c => Text.isAsciiLetter c
  | none => false

/-- The text after a line break does not continue the statement before it. -/
def startsStatement (afterExpression : Bool) : List Char → Bool
  | [] => true
  | '+' :: cs => cs.head? == some '+'
  | '-' :: cs => cs.head? == some '-'
  | '!' :: cs => cs.head? != some '='
  | 'i' :: 'n' :: cs =>
    let afterWord :=
      if cs.take 8 == "stanceof".toList then cs.drop 8 else cs
    isNameLetter afterWord.head?
  | c :: _ =>
    if c == '(' || c == '[' then !afterExpression
    else !continuesLine c

/-- The end of a statement without a semicolon: the end of the script, a closing brace, or a
line break before text that does not continue it. Comments on the same line belong to the
statement. The first argument bounds their number. -/
def autoSemicolon? (afterExpression : Bool) : Nat → Cursor → Option Cursor
  | 0, _ => none
  | fuel + 1, c =>
    let ahead := c.skipPlainGap
    match ahead.rest with
    | [] => some c
    | '\x7d' :: _ => some c
    | '\n' :: _ =>
      if startsStatement afterExpression ahead.skipPlainTrivia.rest then some c else none
    | rest =>
      match commentLength rest with
      | 0 => none
      | n + 1 => autoSemicolon? afterExpression fuel (ahead.advance (n + 1))

end Script
end SuiteShift
