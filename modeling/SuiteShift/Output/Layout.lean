import SuiteShift.Path.Basic
import SuiteShift.Literal.Quoted

/-!
# Layout of the generated project

- `outputPath`: where the tests of a source file go.
- `importSpecifier`: how a generated file refers to another one.
- `configText`: the configuration of the test runner.
-/

namespace SuiteShift
namespace Output

open SuiteShift.Path (Component)

/-- Directories that hold the tests of a source project and are not kept. -/
def specRoots : List String :=
  ["e2e", "integration"]

/-- Endings of a test file's name before its extension. -/
def specMarks : List String :=
  [".cy", ".spec", ".test"]

/-- Removes the first ending that the stem has. -/
def stripMark (stem : List Char) : List Char :=
  (specMarks.findSome? fun mark => Text.stripEnd mark.toList stem).getD stem

/-- The name without its extension and mark. -/
def specStem (name : List Char) : List Char :=
  match Path.splitLastDot? name with
  | some (stem, _) => stripMark stem
  | none => stripMark name

/-- The name of the generated file. -/
def specName (name : String) : String :=
  String.ofList (specStem name.toList) ++ ".spec.ts"

/-- Removes a leading directory of tests. -/
def dropSpecRoot : List Component → List Component
  | .name first :: next :: rest =>
    if specRoots.contains first then next :: rest else .name first :: next :: rest
  | components => components

/-- Where the tests of a source file go, both relative to their directories. -/
def outputPath (relative : List Component) : List Component :=
  let kept := dropSpecRoot relative
  match Path.fileName? relative with
  | some name => kept.dropLast ++ [.name (specName name)]
  | none => kept ++ [.name (specName "")]

/-- How the file at a path refers to a target. -/
def importSpecifier (source target : List Component) : String :=
  let steps := (Path.relative? source.dropLast target).getD target
  let specifier := Path.joined (Path.dropInnerDots steps)
  if specifier.startsWith ".." then specifier else "./" ++ specifier

/-- The line with the base address. -/
def baseUrlLine : Option String → String
  | some url => "    baseURL: " ++ Literal.quote url ++ ",\n"
  | none => "    // baseURL: 'http://localhost:3000',\n"

/-- The file of the test runner's configuration. -/
def configFile : String :=
  "playwright.config.ts"

/-- The configuration of the test runner. -/
def configText (baseUrl : Option String) : String :=
  "import \x7b defineConfig, devices \x7d from '@playwright/test';\n" ++
  "\n" ++
  "export default defineConfig(\x7b\n" ++
  "  testDir: '.',\n" ++
  "  fullyParallel: true,\n" ++
  "  retries: process.env.CI ? 2 : 0,\n" ++
  "  reporter: 'html',\n" ++
  "  use: \x7b\n" ++
  baseUrlLine baseUrl ++
  "    trace: 'on-first-retry',\n" ++
  "  \x7d,\n" ++
  "  projects: [\n" ++
  "    \x7b\n" ++
  "      name: 'chromium',\n" ++
  "      use: \x7b ...devices['Desktop Chrome'] \x7d,\n" ++
  "    \x7d,\n" ++
  "  ],\n" ++
  "\x7d);\n"

end Output
end SuiteShift
