import SuiteShift.Text.Basic

/-!
# Indentation

Source text that moves to another place loses the indentation it had. Indentation is counted in
bytes of UTF-8; a cut that would fall inside a blank of several bytes has no result.

- `dedent` shifts all lines but the first to the left.
- `dedentBlock` removes what all lines of a block are indented by, and blank edges.
-/

namespace SuiteShift
namespace Text

/-- The bytes of leading blanks. -/
def indentBytes (line : List Char) : Nat :=
  utf8Length (line.takeWhile isBlank)

/-- The line holds nothing but blanks. -/
def isBlankLine (line : List Char) : Bool :=
  line.all isBlank

/-- Removes leading blanks from a line, at most `column` bytes of them. -/
def dedentLine (column : Nat) (line : List Char) : Option (List Char) :=
  dropBytes (min (indentBytes line) column) line

/-- Shifts all lines after the first to the left by at most `column` bytes of blanks. -/
def dedent (column : Nat) (text : List Char) : Option (List Char) :=
  match lines text with
  | [] => some []
  | first :: rest =>
    (rest.mapM (dedentLine column)).map fun rest => joinChars ['\n'] (first :: rest)

/-- The least indentation of the lines that are not blank. -/
def commonIndent (rows : List (List Char)) : Nat :=
  (((rows.filter fun row => !isBlankLine row).map indentBytes).min?).getD 0

/-- Removes newlines at both ends. -/
def trimNewlines (cs : List Char) : List Char :=
  ((cs.dropWhile (· == '\n')).reverse.dropWhile (· == '\n')).reverse

/-- Cuts the common indentation off a line; a shorter line loses its leading blanks. -/
def cutIndent (indent : Nat) (line : List Char) : Option (List Char) :=
  if indent ≤ utf8Length line then dropBytes indent line else some (dropBlanks line)

/-- Removes the common indentation of all lines, and newlines at both ends. -/
def dedentBlock (text : List Char) : Option (List Char) :=
  let rows := lines text
  (rows.mapM (cutIndent (commonIndent rows))).map fun rows =>
    trimNewlines (joinChars ['\n'] rows)

end Text
end SuiteShift
