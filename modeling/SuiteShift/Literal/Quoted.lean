import SuiteShift.Text.Basic

/-!
# Quoted literals

String literals of generated code are written in single quotes; literals that are read may have
any of the three delimiters.

- `quote` writes a literal: backslash, quote and line breaks are escaped, nothing else.
- `unescape` resolves the escapes in the body of a literal.
- `isQuoted` tells a single literal from an expression that merely begins and ends with a quote.
- `requote` writes a literal that was read in the quotes of generated code and keeps all else.
-/

namespace SuiteShift
namespace Literal

/-- How one character is written between single quotes. -/
def encodeChar (c : Char) : List Char :=
  if c == '\\' then ['\\', '\\']
  else if c == '\'' then ['\\', '\'']
  else if c == '\n' then ['\\', 'n']
  else if c == '\r' then ['\\', 'r']
  else [c]

/-- The body of a literal in single quotes. -/
def encode (cs : List Char) : List Char :=
  cs.flatMap encodeChar

/-- A literal in single quotes. -/
def quote (s : String) : String :=
  String.ofList ('\'' :: encode s.toList ++ ['\''])

/-- The three delimiters of literals. -/
def isDelimiter (c : Char) : Bool :=
  c == '\'' || c == '"' || c == '\x60'

/-- Splits off the last character. -/
def unsnoc? : List Char → Option (List Char × Char)
  | [] => none
  | [c] => some ([], c)
  | c :: cs => (unsnoc? cs).map fun (body, last) => (c :: body, last)

/-- The delimiter and the body of a text between two equal delimiters. -/
def delimited? : List Char → Option (Char × List Char)
  | [] => none
  | q :: cs =>
    match unsnoc? cs with
    | some (body, last) => if isDelimiter q && last == q then some (q, body) else none
    | none => none

/-- The body of a text between two equal delimiters; any other text stays. -/
def stripChars (cs : List Char) : List Char :=
  match delimited? cs with
  | some (_, body) => body
  | none => cs

/-- Removes one pair of equal delimiters around a text. -/
def stripQuotes (s : String) : String :=
  String.ofList (stripChars s.toList)

/-- The delimiter does not occur in the body except after a backslash; the first argument tells
whether the next character is escaped. -/
def isPlainBody (delimiter : Char) : Bool → List Char → Bool
  | _, [] => true
  | true, _ :: cs => isPlainBody delimiter false cs
  | false, c :: cs =>
    if c == '\\' then isPlainBody delimiter true cs
    else if c == delimiter then false
    else isPlainBody delimiter false cs

/-- The text is one literal, not an expression between two of them. -/
def isQuotedChars (cs : List Char) : Bool :=
  match delimited? cs with
  | some (q, body) => isPlainBody q false body
  | none => false

/-- The text is one literal. -/
def isQuoted (s : String) : Bool :=
  isQuotedChars s.toList

/-- The character that a backslash and `c` stand for. -/
def escapedChar (c : Char) : Char :=
  if c == 'n' then '\n'
  else if c == 'r' then '\r'
  else if c == 't' then '\t'
  else if c == '0' then '\x00'
  else c

/-- Resolves escapes; a backslash at the end stays. -/
def decode : List Char → List Char
  | [] => []
  | [c] => [c]
  | c :: d :: cs => if c == '\\' then escapedChar d :: decode cs else c :: decode (d :: cs)

/-- Resolves the escapes of a literal's body. -/
def unescape (s : String) : String :=
  String.ofList (decode s.toList)

/-- A literal with other delimiters than backquotes is written in single quotes; any other
token stays, without the blanks around it. -/
def requote (token : String) : String :=
  let cs := Text.trimChars token.toList
  if isQuotedChars cs && cs.head? != some '\x60' then
    quote (String.ofList (decode (stripChars cs)))
  else
    String.ofList cs

/-- Characters with a meaning in a regular expression literal, its delimiter included. -/
def isRegexSpecial (c : Char) : Bool :=
  ['\\', '^', '$', '.', '|', '?', '*', '+', '(', ')', '[', ']', '\x7b', '\x7d', '/'].contains c

/-- The body of a regular expression literal that matches exactly the text. -/
def escapeRegex (s : String) : String :=
  String.ofList (s.toList.flatMap fun c => if isRegexSpecial c then ['\\', c] else [c])

/-- The text on one line: every run of blanks becomes one space, none stays at the ends. -/
def oneLine (s : String) : String :=
  String.ofList (Text.joinChars [' '] (Text.words s.toList))

end Literal
end SuiteShift
