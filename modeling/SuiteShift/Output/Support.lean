import SuiteShift.CustomCommand.Classification
import SuiteShift.Text.Basic

/-!
# Support files

Custom commands that are shared between generated tests live in two files.

- `helpersText`: a function for each helper, stubs included.
- `pageObjectText`: a class with a method for each page action.

Either file is left out when no command belongs in it.
-/

namespace SuiteShift
namespace Output

/-- The file of the helper functions. -/
def helpersFile : String :=
  "support/helpers.ts"

/-- The file of the page object. -/
def pageObjectFile : String :=
  "support/custom-commands.ts"

/-- The class of the page object. -/
def pageObjectClass : String :=
  "CustomCommands"

/-- The import line for assertions. -/
def expectImport : String :=
  "import \x7b expect \x7d from '@playwright/test';"

/-- Adds a line unless it is there. -/
def addLine (known : List String) (line : String) : List String :=
  if known.contains line then known else known ++ [line]

/-- Adds every line that is not there, in order. -/
def addLines (known lines : List String) : List String :=
  lines.foldl addLine known

/-- The code makes an assertion. -/
def usesExpect (code : String) : Bool :=
  occursIn "expect(" code

/-- The command is a function of the helper file. -/
def isHelper (c : Classification) : Bool :=
  c.strategy = .utility || c.strategy = .manual

/-- The command is a method of the page object. -/
def isPageMethod (c : Classification) : Bool :=
  c.strategy = .pageObject

/-- Removes trailing blanks. -/
def trimEnd (s : String) : String :=
  String.ofList ((s.toList.reverse.dropWhile Text.isBlank).reverse)

/-- The functions of the helper file with an empty line between any two. -/
def helpersBody (helpers : List Classification) : String :=
  "\n\n".intercalate (helpers.map fun c => trimEnd c.code)

/-- The import lines of the helper file. -/
def helpersImports (helpers : List Classification) : List String :=
  addLines [] (helpers.flatMap (·.imports)) ++
    (if usesExpect (helpersBody helpers) then [expectImport] else [])

/-- Import lines and an empty line, or nothing. -/
def importBlock (imports : List String) : String :=
  if imports.isEmpty then "" else "\n".intercalate imports ++ "\n\n"

/-- The helper file. -/
def helpersText (commands : List Classification) : Option String :=
  let helpers := commands.filter isHelper
  if helpers.isEmpty then none
  else some (importBlock (helpersImports helpers) ++ helpersBody helpers ++ "\n")

/-- A line of a method inside the class. -/
def methodLine (line : String) : String :=
  if line.isEmpty then "\n" else "  " ++ line ++ "\n"

/-- A method inside the class, after an empty line. -/
def methodText (c : Classification) : String :=
  "\n" ++ String.join ((Text.linesOf c.code).map methodLine)

/-- A class with all page methods. -/
def classText (className : String) (commands : List Classification) : Option String :=
  let methods := commands.filter isPageMethod
  if methods.isEmpty then none
  else some (
    importBlock (addLines [pageTypeImport] (methods.flatMap (·.imports))) ++
    "export class " ++ className ++ " \x7b\n" ++
    "  constructor(private readonly page: Page) \x7b\x7d\n" ++
    String.join (methods.map methodText) ++
    "\x7d\n")

/-- The file of the page object. -/
def pageObjectText (commands : List Classification) : Option String :=
  (classText pageObjectClass commands).map fun code =>
    if usesExpect code then expectImport ++ "\n" ++ code else code

end Output
end SuiteShift
