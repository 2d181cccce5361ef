import SuiteShift.CustomCommand.Classification
import SuiteShift.CustomCommand.Callback
import SuiteShift.Literal.Nesting

/-!
# Well-known custom commands

Some names of custom commands stand for well-known actions; a pattern gives their code from
argument tokens, which are parameter names in a definition and arguments in a call. Any other
command becomes a stub.
-/

namespace SuiteShift
namespace CustomCommand

/-- The token is a literal that generated code can quote anew. -/
def isPlainLiteral (token : String) : Bool :=
  Literal.isQuoted token && token.toList.head? != some '\x60'

/-- The contents of a literal token. -/
def literalContents (token : String) : String :=
  Literal.unescape (Literal.stripQuotes token)

/-- The locator for a selector token. -/
def locatorFor (token : String) : String :=
  tokenLocator token.toList

/-- The token is an identifier. -/
def isIdentifierToken (token : String) : Bool :=
  Literal.isIdentifier token.toList

/-- The failure of a pattern that lacks arguments. -/
def missingArguments (name expected : String) : Classification :=
  .failure name ("'" ++ name ++ "' expects " ++ expected)

/-- A parameter of a generated function with a comma before it. -/
def extraParameter (param : String) : String :=
  ", " ++ param ++ ": any"

/-- The first line of a generated helper function. -/
def helperHead (function params : String) : String :=
  "export async function " ++ function ++ "(page: Page" ++ params ++ "): Promise<void> \x7b\n"

/-- Navigates to a form, fills it in and submits it. -/
def login (name : String) (args : List String) : Classification :=
  let params :=
    match args with
    | _ :: _ :: _ => if args.all isIdentifierToken then args else ["email", "password"]
    | _ => ["email", "password"]
  let user := params[0]?.getD "email"
  let password := params[1]?.getD "password"
  let code :=
    helperHead (Literal.identifier name) (String.join (params.map extraParameter)) ++
    "  await page.goto('/login');\n" ++
    "  await page.locator('input[name=\"email\"], input[type=\"email\"], " ++
      "input[name=\"username\"]').fill(" ++ user ++ ");\n" ++
    "  await page.locator('input[type=\"password\"]').fill(" ++ password ++ ");\n" ++
    "  await page.locator('button[type=\"submit\"]').click();\n" ++
    "\x7d"
  let result : Classification := { name, strategy := .utility, complexity := .medium, code }
  (result.require pageTypeImport).note
    "Login selectors are generic; adjust them to the application's form"

/-- A statement at each call. -/
def directStatement (name code : String) : Classification :=
  { name, strategy := .direct, complexity := .low, code }

/-- Selects an option. -/
def selectDropdown (name : String) : List String → Classification
  | selector :: value :: _ =>
    directStatement name
      ("await " ++ locatorFor selector ++ ".selectOption(" ++ Literal.requote value ++ ");")
  | _ => missingArguments name "a selector and a value"

/-- The file of an upload: a bare name is a fixture. -/
def uploadPath (file : String) : String :=
  if isPlainLiteral file then
    let path := literalContents file
    if path.toList.contains '/' then Literal.requote file
    else Literal.quote ("cypress/fixtures/" ++ path)
  else Text.trim file

/-- Uploads a file. -/
def uploadFile (name : String) : List String → Classification
  | selector :: file :: _ =>
    (directStatement name
      ("await " ++ locatorFor selector ++ ".setInputFiles(" ++ uploadPath file ++ ");")).note
      "Bare file names are resolved against cypress/fixtures"
  | _ => missingArguments name "a selector and a file path"

/-- Converts a callback line by line. -/
def thenCallback (name : String) (args : List String) : Classification :=
  match args.getLast? with
  | none => missingArguments name "a callback"
  | some callback =>
    let scan := scanCallback callback.toList
    { name
      strategy := .direct
      complexity := if scan.skipped.isEmpty then .low else .medium
      code := "\n".intercalate scan.statements
      notes := ["Converted " ++ toString scan.statements.length ++
        " statement(s) from the callback"]
      warnings := scan.skipped.map ("Skipped unrecognized line in callback: " ++ ·) }

/-- Writes to the console. -/
def logMessage (name : String) (args : List String) : Classification :=
  directStatement name ("console.log(" ++ ", ".intercalate (args.map Literal.requote) ++ ");")

/-- Removes slashes at both ends. -/
def trimSlashes (cs : List Char) : List Char :=
  ((cs.dropWhile (· == '/')).reverse.dropWhile (· == '/')).reverse

/-- A segment of a path: the text of a literal, or a substitution. -/
def pathSegment (token : String) : String :=
  if isPlainLiteral token then String.ofList (trimSlashes (literalContents token).toList)
  else "$\x7b" ++ Text.trim token ++ "\x7d"

/-- The path of several segments: a literal if all of them are, else a template. -/
def joinSegments (args : List String) : String :=
  let path := "/" ++ "/".intercalate ((args.map pathSegment).filter fun s => !s.isEmpty)
  if args.all isPlainLiteral then Literal.quote path else "\x60" ++ path ++ "\x60"

/-- The address of segments: a single expression stays as it is. -/
def navigationUrl : List String → String
  | [single] => if Literal.isQuoted single then joinSegments [single] else Text.trim single
  | args => joinSegments args

/-- Navigates to a path. -/
def navigate (name : String) (args : List String) : Classification :=
  if args.isEmpty then missingArguments name "at least one path segment"
  else directStatement name ("await page.goto(" ++ navigationUrl args ++ ");")

/-- The patterns by name. -/
def patterns : List (String × (String → List String → Classification)) :=
  [("login", login),
   ("selectDropdown", selectDropdown),
   ("uploadFile", uploadFile),
   ("then", thenCallback),
   ("log", logMessage),
   ("logMessage", logMessage),
   ("logStep", logMessage),
   ("navigateTo", navigate),
   ("navigate", navigate)]

/-- The pattern of a name. -/
def pattern? (name : String) : Option (String → List String → Classification) :=
  patterns.lookup name

/-- The name has a pattern. -/
def hasPattern (name : String) : Bool :=
  (pattern? name).isSome

/-- A parameter for an argument token: its own name, or one by position. -/
def stubParameter (index : Nat) (token : String) : String :=
  if isIdentifierToken token then token else "arg" ++ toString index

/-- A line of a body as a comment, without a trailing blank after the mark. -/
def commentedLine (line : List Char) : String :=
  String.ofList (Text.replaceAll "  // \n".toList "  //\n".toList
    ("  // ".toList ++ line ++ ['\n']))

/-- The body of a command as comments. -/
def commentedBody (body : String) : String :=
  if (Text.trim body).isEmpty then ""
  else
    "  // Original Cypress implementation:\n" ++
      String.join ((Text.lines body.toList).map commentedLine)

/-- A stub that keeps the name, the parameters and the body of a command. -/
def stub (name : String) (args : List String) (body : Option String) : Classification :=
  let params := args.mapIdx stubParameter
  let function := Literal.identifier name
  let code :=
    "// TODO: Convert custom command cy." ++ Literal.oneLine name ++ "(" ++
      Literal.oneLine (", ".intercalate args) ++ ") manually\n" ++
    helperHead function (String.join (params.map extraParameter)) ++
    (body.map commentedBody).getD "" ++
    "  throw new Error('" ++ function ++ " is not converted yet');\n\x7d"
  let result : Classification := { name, strategy := .utility, complexity := .high, code }
  (result.require pageTypeImport).warn
    ("Custom command '" ++ name ++ "' requires manual conversion")

end CustomCommand
end SuiteShift
