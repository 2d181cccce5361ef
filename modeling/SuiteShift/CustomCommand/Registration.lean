import SuiteShift.Literal.Nesting
import SuiteShift.Spec.Basic
import SuiteShift.Text.Indent
import SuiteShift.Text.Letter

/-!
# Registrations and calls as text

Custom commands can be given as text alone: a registration with its function, or a call.

- `findRegistration?` and `findCall?` find the first one in a text.
- `splitFunction?` takes a function apart into parameters and body.
- `readRegistration` and `readCall` put these together; `ExtractError` says what is missing.
-/

namespace SuiteShift
namespace CustomCommand

/-- What is wrong with a registration or a call. -/
inductive ExtractError where
  | noCall
  | unbalancedCall (name : String)
  | unbalancedRegistration
  | missingName
  | missingImplementation (name : String)
  | notAFunction (name : String)
deriving DecidableEq, Repr

namespace ExtractError

/-- The error in words. -/
def message : ExtractError → String
  | .noCall => "No recognizable call expression"
  | .unbalancedCall name => "Unbalanced parentheses in call to '" ++ name ++ "'"
  | .unbalancedRegistration => "Unbalanced parentheses in Commands.add"
  | .missingName => "Commands.add is missing a command name"
  | .missingImplementation name => "Commands.add('" ++ name ++ "') is missing its implementation"
  | .notAFunction name => "Implementation of '" ++ name ++ "' is not a function"

end ExtractError

/-- A fixed word and the blanks after it. -/
def wordAndBlanks? (word : String) (cs : List Char) : Option (List Char) :=
  (Text.stripStart word.toList cs).map Text.dropBlanks

/-- The opening parenthesis and all after it, if the text starts with one. -/
def atParen? : List Char → Option (List Char)
  | '(' :: cs => some ('(' :: cs)
  | _ => none

/-- The argument list of a registration that starts here. -/
def registrationHere? (cs : List Char) : Option (List Char) := do
  let cs ← wordAndBlanks? "Cypress" cs
  let cs ← wordAndBlanks? "." cs
  let cs ← wordAndBlanks? "Commands" cs
  let cs ← wordAndBlanks? "." cs
  let cs ← wordAndBlanks? "add" cs <|> wordAndBlanks? "overwrite" cs
  atParen? cs

/-- The argument list of the first registration, from its opening parenthesis on. -/
def findRegistration? : List Char → Option (List Char)
  | [] => none
  | c :: cs =>
    match registrationHere? (c :: cs) with
    | some list => some list
    | none => findRegistration? cs

/-- First characters of the name of a call. -/
def isCallStart (c : Char) : Bool :=
  Text.isAsciiLetter c || c == '_' || c == '$'

/-- Further characters of the name of a call. -/
def isCallPart (c : Char) : Bool :=
  Text.isWord c || c == '$'

/-- A name with an argument list after it. -/
def namedCall? : List Char → Option (List Char × List Char)
  | [] => none
  | c :: cs =>
    if isCallStart c then
      (atParen? (Text.dropBlanks (cs.dropWhile isCallPart))).map fun list =>
        (c :: cs.takeWhile isCallPart, list)
    else none

/-- A call on the driver object. -/
def driverCall? (cs : List Char) : Option (List Char × List Char) := do
  let cs ← wordAndBlanks? "cy" cs
  let cs ← wordAndBlanks? "." cs
  namedCall? cs

/-- The first call in a text, with the character before it: its name and its argument list from
the opening parenthesis on. A call on the driver object starts at a word boundary. -/
def findCallAfter? (before : Option Char) : List Char → Option (List Char × List Char)
  | [] => none
  | c :: cs =>
    let onDriver :=
      if (before.map Text.isWord).getD false then none else driverCall? (c :: cs)
    match onDriver <|> namedCall? (c :: cs) with
    | some call => some call
    | none => findCallAfter? (some c) cs

/-- The first call in a text. -/
def findCall? (cs : List Char) : Option (List Char × List Char) :=
  findCallAfter? none cs

/-- The name of the first call and the text between its parentheses. -/
def readCall (cs : List Char) : Except ExtractError (List Char × List Char) :=
  match findCall? cs with
  | none => .error .noCall
  | some (name, list) =>
    match Literal.parenthesized? list with
    | none => .error (.unbalancedCall (String.ofList name))
    | some (inside, _) => .ok (name, inside)

/-- The binding of a parameter: all before its type, its default or its mark. -/
def parameterName (param : List Char) : List Char :=
  Text.trimChars (param.takeWhile fun c => !(c == ':' || c == '=' || c == '?'))

/-- Cuts the common indentation off a line; where that is not possible, its leading blanks. -/
def cutOrTrim (indent : Nat) (line : List Char) : List Char :=
  (Text.dropBytes indent line).getD (Text.dropBlanks line)

/-- Removes the common indentation of all lines, and blanks at both ends. -/
def dedentTrimmed (text : List Char) : List Char :=
  let rows := Text.lines text
  Text.trimChars (Text.joinChars ['\n'] (rows.map (cutOrTrim (Text.commonIndent rows))))

/-- Removes semicolons at the end. -/
def dropSemicolons (cs : List Char) : List Char :=
  (cs.reverse.dropWhile (· == ';')).reverse

/-- The body of a function: what its braces hold, or the expression. -/
def functionBody (body : List Char) : List Char :=
  match (Text.stripStart ['\x7b'] body).bind (Text.stripEnd ['\x7d']) with
  | some block => dedentTrimmed block
  | none => dropSemicolons body

/-- The parameter list and the body of a function, as written. -/
def functionParts? (cs : List Char) : Option (List Char × List Char) :=
  match Text.stripStart "function".toList cs with
  | some rest => do
    let (params, body) ← Literal.parenthesized? (rest.dropWhile (· != '('))
    pure (params, Text.trimChars body)
  | none =>
    if cs.head? == some '(' then do
      let (params, rest) ← Literal.parenthesized? cs
      let (_, body) ← Text.splitOnce "=>".toList (Text.dropBlanks rest)
      pure (params, Text.trimChars body)
    else do
      let (param, body) ← Text.splitOnce "=>".toList cs
      pure (Text.trimChars param, Text.trimChars body)

/-- The parameters and the body of a function. -/
def splitFunction? (text : List Char) : Option (List (List Char) × List Char) := do
  let cs := Text.trimChars text
  let cs := ((Text.stripStart "async".toList cs).map Text.dropBlanks).getD cs
  let (params, body) ← functionParts? cs
  pure ((Literal.argumentChars params).map parameterName, functionBody body)

/-- The definition in an argument list from its opening parenthesis on. -/
def readRegistration (list : List Char) : Except ExtractError Definition := do
  let inside ← match Literal.parenthesized? list with
    | some (inside, _) => .ok inside
    | none => .error .unbalancedRegistration
  let args := Literal.argumentChars inside
  let name ← match args.head? with
    | some first =>
      if Literal.isQuotedChars first then
        .ok (String.ofList (Literal.decode (Literal.stripChars first)))
      else .error .missingName
    | none => .error .missingName
  let function ← match args with
    | _ :: second :: rest => .ok ((second :: rest).getLast (by simp))
    | _ => .error (.missingImplementation name)
  match splitFunction? function with
  | some (parameters, body) =>
    .ok { name, parameters := parameters.map String.ofList, body := String.ofList body }
  | none => .error (.notAFunction name)

end CustomCommand
end SuiteShift
