import SuiteShift.Output.Layout
import SuiteShift.Output.Registry
import SuiteShift.Spec.Basic
import SuiteShift.Lowering.Basic

/-!
# Generated test files

The text of a test file is gathered bottom up: a statement, a block or a list of blocks each give
a `Written`, and these are put one after another.

- `writeStatement`, `writeNode`, `writeNodes`: the parts of a file.
- `TestFile.ofSpec`: the whole file with its import lines.
-/

namespace SuiteShift
namespace Output

/-- Text with what was noticed while it was written. -/
structure Written where
  /-- Pieces of text that each end their line. -/
  lines : List String := []
  imports : List String := []
  helpers : List HelperUse := []
  diagnostics : List String := []
  commands : Nat := 0
  converted : Nat := 0
deriving DecidableEq, Repr, Inhabited

namespace Written

/-- One after the other. -/
def append (a b : Written) : Written :=
  { lines := a.lines ++ b.lines
    imports := a.imports ++ b.imports
    helpers := a.helpers ++ b.helpers
    diagnostics := a.diagnostics ++ b.diagnostics
    commands := a.commands + b.commands
    converted := a.converted + b.converted }

instance : Append Written where
  append := append

/-- One line at a level of nesting; an empty line is not indented. -/
def line (depth : Nat) (text : String) : Written :=
  { lines := [if text.isEmpty then "" else String.ofList (List.replicate (2 * depth) ' ') ++ text] }

/-- The lines of some code at a level of nesting. -/
def block (depth : Nat) (code : String) : Written :=
  { lines := (Text.linesOf code).flatMap fun text => (line depth text).lines }

/-- Warnings about the place of a span. -/
def warnings (span : Span) (messages : List String) : Written :=
  { diagnostics := messages.map fun message =>
      "line " ++ toString span.line ++ ": " ++ message }

/-- A command, converted or not. -/
def counted (converted : Bool) : Written :=
  { commands := 1, converted := if converted then 1 else 0 }

/-- The pieces of text, each with its line end. -/
def text (written : Written) : String :=
  String.join (written.lines.map (· ++ "\n"))

end Written

/-- Ends code with a semicolon, unless its last line is empty, has one or is a comment. -/
def terminate (code : String) : String :=
  let last := Text.trimChars ((Text.lines code.toList).getLast?.getD [])
  if last.isEmpty || last.getLast? == some ';' || Text.startsWith "//".toList last then code
  else code ++ ";"

/-- A statement that is kept as it is. -/
def writeRaw (depth : Nat) (text : String) (span : Span) : Written :=
  (if occursIn "cy." text then
    Written.warnings span ["Cypress code nested in a callback or block was left as written"] ++
      Written.line depth "// TODO: Convert the nested Cypress calls below"
  else {}) ++
  Written.block depth text

/-- A command that stands outside of all tests. -/
def writeStray (depth : Nat) (command : Command) (span : Span) : Written :=
  let source := Literal.oneLine command.source
  Written.counted false ++
  Written.warnings span [source ++ " runs outside of a test"] ++
  Written.line depth ("// TODO: Move into a test: " ++ source)

/-- A call of a custom command. -/
def writeSite (depth : Nat) (span : Span) (site : CallSite) : Written :=
  Written.counted site.converted ++
  { imports := site.imports, helpers := site.helper.toList } ++
  Written.warnings span site.diagnostics ++
  Written.block depth (terminate site.code)

/-- A lowered command. -/
def writeResult (depth : Nat) (span : Span) (result : Lowering.Result) : Written :=
  Written.counted (!result.hasTodo) ++
  { imports := result.imports.filter (· != Lowering.testImport) } ++
  Written.warnings span result.diagnostics ++
  (if result.code.isEmpty then {} else Written.block depth (terminate result.code))

/-- A command inside a test: a custom command, unless the name has a rule. -/
def writeCommand (registry : Registry) (depth : Nat) (command : Command) (span : Span) :
    Except SourceError Written := do
  let site ←
    if (Rule.CommandRule.find? command.name).isSome then .ok none
    else registry.callSite? command
  match site with
  | some site => .ok (writeSite depth span site)
  | none => .ok (writeResult depth span command.lower)

/-- A statement of a test or hook. -/
def writeStatement (registry : Registry) (depth : Nat) : Statement → Except SourceError Written
  | .raw text span => .ok (writeRaw depth text span)
  | .command command span => writeCommand registry depth command span

/-- A statement outside of all tests. -/
def writeLoose (depth : Nat) : Statement → Written
  | .raw text span => writeRaw depth text span
  | .command command span => writeStray depth command span

/-- The statements of a test or hook. -/
def writeBody (registry : Registry) (depth : Nat) :
    List Statement → Except SourceError Written
  | [] => .ok {}
  | statement :: body => do
    let first ← writeStatement registry depth statement
    let rest ← writeBody registry depth body
    .ok (first ++ rest)

/-- The suffix of a modifier. -/
def modifierSuffix : Modifier → String
  | .none => ""
  | .only => ".only"
  | .skip => ".skip"

/-- The first line of a suite. -/
def suiteHead (title : Value) (modifier : Modifier) : String :=
  "test.describe" ++ modifierSuffix modifier ++ "(" ++ title.code ++ ", () => \x7b"

/-- The first line of a test. -/
def testHead (title : Value) (modifier : Modifier) : String :=
  "test" ++ modifierSuffix modifier ++ "(" ++ title.code ++ ", async (\x7b page \x7d) => \x7b"

/-- The last line of a block. -/
def blockEnd : String :=
  "\x7d);"

/-- A hook that runs for each test. -/
def writeEach (depth : Nat) (name : String) (body : Written) : Written :=
  Written.line depth ("test." ++ name ++ "(async (\x7b page \x7d) => \x7b") ++
  body ++
  Written.line depth blockEnd

/-- A hook that runs once, with a page of its own. -/
def writeOnce (depth : Nat) (source name : String) (span : Span) (body : Written) : Written :=
  Written.warnings span
    [source ++ "() became test." ++ name ++
      " with its own page; browser state does not carry over to tests"] ++
  Written.line depth ("test." ++ name ++ "(async (\x7b browser \x7d) => \x7b") ++
  Written.line (depth + 1) "const page = await browser.newPage();" ++
  body ++
  Written.line (depth + 1) "await page.close();" ++
  Written.line depth blockEnd

/-- A hook around its body. -/
def writeHook (depth : Nat) (kind : HookKind) (span : Span) (body : Written) : Written :=
  match kind with
  | .beforeEach => writeEach depth "beforeEach" body
  | .afterEach => writeEach depth "afterEach" body
  | .before => writeOnce depth "before" "beforeAll" span body
  | .after => writeOnce depth "after" "afterAll" span body

/-- The node is a block, not a loose statement. -/
def isBlock : TestNode → Bool
  | .statement _ => false
  | _ => true

mutual

/-- A part of a test file. -/
def writeNode (registry : Registry) (depth : Nat) : TestNode → Except SourceError Written
  | .suite title modifier children _ => do
    let body ← writeNodes registry (depth + 1) false false children
    .ok (Written.line depth (suiteHead title modifier) ++ body ++ Written.line depth blockEnd)
  | .test title modifier body _ => do
    let body ← writeBody registry (depth + 1) body
    .ok (Written.line depth (testHead title modifier) ++ body ++ Written.line depth blockEnd)
  | .hook kind body span => do
    let body ← writeBody registry (depth + 1) body
    .ok (writeHook depth kind span body)
  | .statement loose => .ok (writeLoose depth loose)

/-- Parts of a test file. An empty line goes before a block that follows a block, and at the top
level before a block that follows anything; the flags say that the part before was a block, and
that there is text before. -/
def writeNodes (registry : Registry) (depth : Nat) (afterBlock afterText : Bool) :
    List TestNode → Except SourceError Written
  | [] => .ok {}
  | node :: nodes => do
    let part ← writeNode registry depth node
    let gap := isBlock node && (afterBlock || (depth == 0 && afterText))
    let first := (if gap then Written.line 0 "" else {}) ++ part
    let rest ←
      writeNodes registry depth (isBlock node) (afterText || !first.lines.isEmpty) nodes
    .ok (first ++ rest)

end

/-- A path without its extension. -/
def dropExtension (path : String) : String :=
  match Path.splitLastDot? path.toList with
  | some (stem, _) => String.ofList stem
  | none => path

/-- The line that imports names from a support file. -/
def supportImport (output : List Path.Component) (names : List String) (file : String) : String :=
  "import \x7b " ++ ", ".intercalate names ++ " \x7d from '" ++
    importSpecifier output (Path.components (dropExtension file)) ++ "';"

/-- The helper functions in use, each once. -/
def helperNames (uses : List HelperUse) : List String :=
  addLines [] (uses.filterMap fun
    | .function name => some name
    | .pageObject => none)

/-- The import lines of a generated file. -/
def testImports (output : List Path.Component) (written : Written) : List String :=
  let names := helperNames written.helpers
  addLines [Lowering.testImport] written.imports ++
  (if names.isEmpty then [] else [supportImport output names helpersFile]) ++
  (if written.helpers.contains .pageObject then
    [supportImport output [pageObjectClass] pageObjectFile]
  else [])

/-- The line is a placeholder or the mark of one. -/
def isTodoLine (line : List Char) : Bool :=
  Text.startsWith "// TODO".toList (Text.dropBlanks line)

/-- The number of placeholders in some code. -/
def countTodos (code : String) : Nat :=
  (Text.lines code.toList).countP isTodoLine

/-- A generated test file. -/
structure TestFile where
  code : String
  commands : Nat
  converted : Nat
  todos : Nat
  diagnostics : List String
deriving DecidableEq, Repr

namespace TestFile

/-- The file of some text, which starts after its import lines. -/
def ofWritten (output : List Path.Component) (written : Written) : TestFile :=
  let body := String.ofList (written.text.toList.dropWhile (· == '\n'))
  let code := importBlock (testImports output written) ++ body
  { code
    commands := written.commands
    converted := written.converted
    todos := countTodos code
    diagnostics := written.diagnostics }

/-- The file for the tests of a source file, to be written at a path. -/
def ofSpec (spec : SpecFile) (output : List Path.Component) (registry : Registry) :
    Except SourceError TestFile :=
  (writeNodes registry 0 false false spec.nodes).map (ofWritten output)

end TestFile
end Output
end SuiteShift
