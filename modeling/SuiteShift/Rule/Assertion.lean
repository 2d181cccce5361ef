import SuiteShift.Rule.Basic

/-!
# Assertion rules

The rules for the conditions of an assertion. A template is the bare name of a matcher, to be
called on the expectation about the locator with the remaining arguments; a function gives the
whole expectation.
-/

namespace SuiteShift
namespace Rule

/-- A rule for a condition. -/
structure AssertionRule where
  name : String
  body : Body (String → List Value → Code)

/-- There is no match. -/
def notExist (locator : String) (_ : List Value) : Code :=
  .ok ("expect(" ++ locator ++ ").toHaveCount(0)")

/-- A pattern for one class among several. -/
def classPattern (args : List Value) (command : String) : Code := do
  match ← required args command 0 with
  | .string name => .ok ("/(^|\\s)" ++ Literal.escapeRegex name ++ "(\\s|$)/")
  | other => .ok other.code

/-- The class is present. -/
def haveClass (locator : String) (args : List Value) : Code := do
  let pattern ← classPattern args "have.class"
  .ok ("expect(" ++ locator ++ ").toHaveClass(" ++ pattern ++ ")")

/-- The class is absent. -/
def notHaveClass (locator : String) (args : List Value) : Code := do
  let pattern ← classPattern args "not.have.class"
  .ok ("expect(" ++ locator ++ ").not.toHaveClass(" ++ pattern ++ ")")

/-- The number of matches compares with a bound. -/
def countComparison (command matcher locator : String) (args : List Value) : Code := do
  let bound ← required args command 0
  .ok ("expect(await " ++ locator ++ ".count())." ++ matcher ++ "(" ++ bound.code ++ ")")

/-- More matches than the bound. -/
def countGreater : String → List Value → Code :=
  countComparison "have.length.greaterThan" "toBeGreaterThan"

/-- At least as many matches as the bound. -/
def countAtLeast : String → List Value → Code :=
  countComparison "have.length.at.least" "toBeGreaterThanOrEqual"

/-- Fewer matches than the bound. -/
def countLess : String → List Value → Code :=
  countComparison "have.length.lessThan" "toBeLessThan"

/-- At most as many matches as the bound. -/
def countAtMost : String → List Value → Code :=
  countComparison "have.length.at.most" "toBeLessThanOrEqual"

/-- A condition with a matcher. -/
def matcher (name target : String) : AssertionRule :=
  ⟨name, .template target⟩

/-- A condition with a function. -/
def expectation (name : String) (apply : String → List Value → Code) : AssertionRule :=
  ⟨name, .transform apply⟩

/-- The table of assertion rules. -/
def assertionRules : List AssertionRule :=
  [matcher "be.visible" "toBeVisible",
   matcher "not.be.visible" "not.toBeVisible",
   matcher "be.hidden" "toBeHidden",
   matcher "exist" "toBeAttached",
   expectation "not.exist" notExist,
   matcher "contain" "toContainText",
   matcher "contain.text" "toContainText",
   matcher "include.text" "toContainText",
   matcher "not.contain" "not.toContainText",
   matcher "not.contain.text" "not.toContainText",
   matcher "have.text" "toHaveText",
   matcher "not.have.text" "not.toHaveText",
   matcher "match" "toHaveText",
   matcher "have.value" "toHaveValue",
   matcher "not.have.value" "not.toHaveValue",
   matcher "have.attr" "toHaveAttribute",
   matcher "not.have.attr" "not.toHaveAttribute",
   matcher "have.prop" "toHaveJSProperty",
   expectation "have.class" haveClass,
   expectation "not.have.class" notHaveClass,
   matcher "have.id" "toHaveId",
   matcher "have.css" "toHaveCSS",
   matcher "have.length" "toHaveCount",
   expectation "have.length.greaterThan" countGreater,
   expectation "have.length.gt" countGreater,
   expectation "have.length.above" countGreater,
   expectation "have.length.at.least" countAtLeast,
   expectation "have.length.gte" countAtLeast,
   expectation "have.length.lessThan" countLess,
   expectation "have.length.lt" countLess,
   expectation "have.length.below" countLess,
   expectation "have.length.at.most" countAtMost,
   expectation "have.length.lte" countAtMost,
   matcher "be.checked" "toBeChecked",
   matcher "not.be.checked" "not.toBeChecked",
   matcher "be.disabled" "toBeDisabled",
   matcher "not.be.disabled" "toBeEnabled",
   matcher "be.enabled" "toBeEnabled",
   matcher "not.be.enabled" "toBeDisabled",
   matcher "be.empty" "toBeEmpty",
   matcher "not.be.empty" "not.toBeEmpty",
   matcher "be.focused" "toBeFocused",
   matcher "have.focus" "toBeFocused",
   matcher "not.be.focused" "not.toBeFocused"]

namespace AssertionRule

/-- The rule of a condition. -/
def find? (name : String) : Option AssertionRule :=
  assertionRules.find? fun rule => rule.name == name

end AssertionRule
end Rule
end SuiteShift
