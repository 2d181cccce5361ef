import SuiteShift.Text.Basic
import SuiteShift.Text.Letter
import SuiteShift.Text.LetterCase

/-!
# Identifiers of generated code

- `pascal` joins the words of a name, each with its first letter in upper case.
- `camel` is the same with the first letter of all in lower case.
- `identifier` keeps a name that already is an identifier and makes one of any other.
-/

namespace SuiteShift
namespace Literal

/-- A word with its first letter in upper case. -/
def capitalize : List Char → List Char
  | [] => []
  | c :: cs => Text.upper c ++ cs

/-- The words of a name, split at all that is no letter or number, each capitalized. -/
def pascalChars (cs : List Char) : List Char :=
  (Text.splitOn (fun c => !Text.isAlphanumeric c) cs).flatMap capitalize

/-- The name in pascal case. -/
def pascal (s : String) : String :=
  String.ofList (pascalChars s.toList)

/-- The name in camel case. -/
def camelChars (cs : List Char) : List Char :=
  match pascalChars cs with
  | [] => []
  | c :: rest => Text.lower c ++ rest

/-- The name in camel case. -/
def camel (s : String) : String :=
  String.ofList (camelChars s.toList)

/-- Characters that an identifier may have. -/
def isIdentifierChar (c : Char) : Bool :=
  Text.isAlphanumeric c || c == '_' || c == '$'

/-- The text starts with an ASCII digit. -/
def startsWithDigit : List Char → Bool
  | [] => false
  | c :: _ => Text.isAsciiDigit c

/-- The text can stand as an identifier. -/
def isIdentifier (cs : List Char) : Bool :=
  !cs.isEmpty && cs.all isIdentifierChar && !startsWithDigit cs

/-- An identifier for a name: the name itself if it is one, else its camel case, with an
underscore before a digit and a fixed word for nothing. -/
def identifierChars (cs : List Char) : List Char :=
  if isIdentifier cs then cs
  else
    let name := camelChars cs
    if name.isEmpty then "value".toList
    else if startsWithDigit name then '_' :: name
    else name

/-- An identifier for a name. -/
def identifier (s : String) : String :=
  String.ofList (identifierChars s.toList)

end Literal
end SuiteShift
