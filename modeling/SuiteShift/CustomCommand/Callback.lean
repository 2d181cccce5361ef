import SuiteShift.Rule.Locator
import SuiteShift.Text.Letter

/-!
# Callback bodies line by line

Of a callback two kinds of lines are understood: a query with a check for visibility and a query
with a click. `scanCallback` gives the statements for those and the lines that were skipped.
-/

namespace SuiteShift
namespace CustomCommand

/-- Characters of a selector expression without quotes. -/
def isSelectorPart (c : Char) : Bool :=
  Text.isWord c || c == '$' || c == '.' || c == '[' || c == ']'

/-- Splits a literal's body and the text after its closing delimiter. -/
def splitLiteral (delimiter : Char) : List Char → Option (List Char × List Char)
  | [] => none
  | '\\' :: e :: cs =>
    if e == '\n' then none
    else (splitLiteral delimiter cs).map fun (body, rest) => ('\\' :: e :: body, rest)
  | c :: cs =>
    if c == delimiter then some ([], cs)
    else if c == '\\' then none
    else (splitLiteral delimiter cs).map fun (body, rest) => (c :: body, rest)

/-- A selector argument, a literal or a plain expression, and the text after it. -/
def selectorToken? : List Char → Option (List Char × List Char)
  | [] => none
  | c :: cs =>
    if Literal.isDelimiter c then
      (splitLiteral c cs).map fun (body, rest) => (c :: body ++ [c], rest)
    else
      let token := (c :: cs).takeWhile isSelectorPart
      if token.isEmpty then none else some (token, (c :: cs).dropWhile isSelectorPart)

/-- A fixed text after blanks. -/
def expect? (word : String) (cs : List Char) : Option (List Char) :=
  Text.stripStart word.toList (Text.dropBlanks cs)

/-- One of the two quotes of strings. -/
def quoteMark? : List Char → Option (List Char)
  | c :: cs => if c == '\'' || c == '"' then some cs else none
  | [] => none

/-- A query by selector: the selector and the text after the call. -/
def queryLine? (line : List Char) : Option (List Char × List Char) := do
  let cs ← Text.stripStart "cy".toList line
  let cs ← expect? "." cs
  let cs ← expect? "get(" cs
  let (token, cs) ← selectorToken? (Text.dropBlanks cs)
  let cs ← expect? ")" cs
  let cs ← expect? "." cs
  pure (token, Text.dropBlanks cs)

/-- The end of a line: an optional semicolon after blanks. -/
def endsStatement (cs : List Char) : Bool :=
  match Text.dropBlanks cs with
  | [] => true
  | rest => rest == [';']

/-- The check for visibility after a query. -/
def isVisibleCheck (cs : List Char) : Bool :=
  let rest : Option (List Char) := do
    let cs ← Text.stripStart "should(".toList cs
    let cs ← quoteMark? (Text.dropBlanks cs)
    let cs ← Text.stripStart "be.visible".toList cs
    let cs ← quoteMark? cs
    expect? ")" cs
  (rest.map endsStatement).getD false

/-- A click after a query. -/
def isClick (cs : List Char) : Bool :=
  let rest : Option (List Char) := do
    let cs ← Text.stripStart "click(".toList cs
    expect? ")" cs
  (rest.map endsStatement).getD false

/-- The locator for a selector token: a literal is read, an expression is passed on. -/
def tokenLocator (token : List Char) : String :=
  if Literal.isQuotedChars token && token.head? != some '\x60' then
    Rule.optimizeSelector (String.ofList (Literal.decode (Literal.stripChars token)))
  else "page.locator(" ++ String.ofList (Text.trimChars token) ++ ")"

/-- The statement for a line that is understood. -/
def lineStatement? (line : List Char) : Option String :=
  match queryLine? line with
  | some (token, rest) =>
    if isVisibleCheck rest then
      some ("await expect(" ++ tokenLocator token ++ ").toBeVisible();")
    else if isClick rest then some ("await " ++ tokenLocator token ++ ".click();")
    else none
  | none => none

/-- Lines that say nothing: blank ones, comments and brackets alone. -/
def isIdleLine (line : List Char) : Bool :=
  line.isEmpty || Text.startsWith "//".toList line ||
    ["\x7b", "\x7d", "\x7d);", "\x7d)"].contains (String.ofList line)

/-- Splits off what follows the last closing brace. -/
def beforeLastBrace? (cs : List Char) : Option (List Char) :=
  match cs.reverse.dropWhile (· != '\x7d') with
  | _ :: rest => some rest.reverse
  | [] => none

/-- The text between the outermost braces, or what follows the arrow. -/
def callbackBody (callback : List Char) : List Char :=
  let inBraces : Option (List Char) :=
    match callback.dropWhile (· != '\x7b') with
    | _ :: rest => beforeLastBrace? rest
    | [] => none
  match inBraces with
  | some body => body
  | none => ((Text.splitOnce "=>".toList callback).map Prod.snd).getD callback

/-- Statements for the lines that were understood, and the other lines. -/
structure CallbackScan where
  statements : List String := []
  skipped : List String := []
deriving DecidableEq, Repr

/-- Reads the body of a callback line by line. -/
def scanCallback (callback : List Char) : CallbackScan :=
  let rows := ((Text.lines (callbackBody callback)).map Text.trimChars).filter fun row =>
    !isIdleLine row
  { statements := rows.filterMap lineStatement?
    skipped := (rows.filter fun row => (lineStatement? row).isNone).map String.ofList }

end CustomCommand
end SuiteShift
