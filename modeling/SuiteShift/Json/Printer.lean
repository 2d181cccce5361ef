import SuiteShift.Json.Basic
import SuiteShift.Number.Decimal

/-!
# Writing JSON

- `Json.pretty`: one member or item a line, two blanks an level of nesting; empty arrays and
  objects on one line.
- `Json.compact`: no blanks at all.
-/

namespace SuiteShift
namespace Json

/-- A hexadecimal digit in lower case. -/
def hexChar (n : Nat) : Char :=
  Nat.digitChar (n % 16)

/-- How one character is written inside a string. -/
def escapeChar (c : Char) : List Char :=
  if c == '"' then ['\\', '"']
  else if c == '\\' then ['\\', '\\']
  else if c == '\n' then ['\\', 'n']
  else if c == '\r' then ['\\', 'r']
  else if c == '\t' then ['\\', 't']
  else if c == '\x08' then ['\\', 'b']
  else if c == '\x0c' then ['\\', 'f']
  else if c.toNat < 32 then ['\\', 'u', '0', '0', hexChar (c.toNat / 16), hexChar c.toNat]
  else [c]

/-- A string with its quotes. -/
def quoteText (s : String) : String :=
  "\"" ++ String.ofList (s.toList.flatMap escapeChar) ++ "\""

/-- The text of a value without parts. -/
def scalar : Json → String
  | .bool value => if value then "true" else "false"
  | .integer value => toString value
  | .real value => value.text
  | .text value => quoteText value
  | _ => "null"

/-- Blanks for a level of nesting. -/
def indentation (level : Nat) : String :=
  String.ofList (List.replicate (2 * level) ' ')

mutual

/-- The value at a level of nesting, without blanks in front of its first line. -/
def prettyAt (level : Nat) : Json → String
  | .array [] => "[]"
  | .object [] => "\x7b\x7d"
  | .array (item :: items) =>
    "[\n" ++ indentation (level + 1) ++ prettyAt (level + 1) item ++
      prettyItems (level + 1) items ++ "\n" ++ indentation level ++ "]"
  | .object ((name, value) :: members) =>
    "\x7b\n" ++ indentation (level + 1) ++ quoteText name ++ ": " ++ prettyAt (level + 1) value ++
      prettyMembers (level + 1) members ++ "\n" ++ indentation level ++ "\x7d"
  | other => other.scalar

/-- The items after the first one. -/
def prettyItems (level : Nat) : List Json → String
  | [] => ""
  | item :: items =>
    ",\n" ++ indentation level ++ prettyAt level item ++ prettyItems level items

/-- The members after the first one. -/
def prettyMembers (level : Nat) : List (String × Json) → String
  | [] => ""
  | (name, value) :: members =>
    ",\n" ++ indentation level ++ quoteText name ++ ": " ++ prettyAt level value ++
      prettyMembers level members

end

/-- The value over several lines. -/
def pretty (value : Json) : String :=
  value.prettyAt 0

mutual

/-- The value on one line. -/
def compact : Json → String
  | .array items => "[" ++ compactItems items ++ "]"
  | .object members => "\x7b" ++ compactMembers members ++ "\x7d"
  | other => other.scalar

/-- Items with commas between them. -/
def compactItems : List Json → String
  | [] => ""
  | [item] => item.compact
  | item :: items => item.compact ++ "," ++ compactItems items

/-- Members with commas between them. -/
def compactMembers : List (String × Json) → String
  | [] => ""
  | [(name, value)] => quoteText name ++ ":" ++ value.compact
  | (name, value) :: members =>
    quoteText name ++ ":" ++ value.compact ++ "," ++ compactMembers members

end

end Json
end SuiteShift
