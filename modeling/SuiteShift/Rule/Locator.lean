import SuiteShift.Rule.Basic
import SuiteShift.Literal.Identifier

/-!
# Locators

A selector that names a test id, a role, a label or a placeholder by a single attribute becomes
the locator method for it; any other selector stays a selector.

- `attributeValue?` reads a selector of one attribute.
- `optimizeSelector` writes the locator expression.
- `selectorLocator` and `textLocator` are the base expressions of the two query commands.
-/

namespace SuiteShift
namespace Rule

/-- Attributes with a locator method of their own. -/
def semanticAttributes : List (String × String) :=
  [("data-testid", "getByTestId"),
   ("role", "getByRole"),
   ("aria-label", "getByLabel"),
   ("placeholder", "getByPlaceholder")]

/-- Characters of an attribute value without quotes. -/
def isBareChar (c : Char) : Bool :=
  !(c == ']' || c == '"' || c == '\'' || Text.isBlank c)

/-- Only blanks and the closing bracket are left. -/
def closesSelector (cs : List Char) : Bool :=
  Text.dropBlanks cs == [']']

/-- An attribute value and the end of the selector. -/
def selectorValue? : List Char → Option (List Char)
  | [] => none
  | q :: cs =>
    if q == '"' || q == '\'' then
      match cs.dropWhile (· != q) with
      | _ :: rest => if closesSelector rest then some (cs.takeWhile (· != q)) else none
      | [] => none
    else
      let value := (q :: cs).takeWhile isBareChar
      if !value.isEmpty && closesSelector ((q :: cs).dropWhile isBareChar) then some value
      else none

/-- The value of the attribute `name` in a selector that consists of this attribute alone. -/
def attributeValue? (name : List Char) : List Char → Option (List Char)
  | '[' :: cs =>
    match Text.stripStart name (Text.dropBlanks cs) with
    | some rest =>
      match Text.dropBlanks rest with
      | '=' :: rest => selectorValue? (Text.dropBlanks rest)
      | _ => none
    | none => none
  | _ => none

/-- The locator method and its argument, for a selector of one known attribute. -/
def semanticLocator? (cs : List Char) : Option (String × String) :=
  semanticAttributes.findSome? fun (name, method) =>
    (attributeValue? name.toList cs).map fun value => (method, String.ofList value)

/-- The locator expression for a selector. -/
def optimizeSelector (selector : String) : String :=
  match semanticLocator? (Text.trimChars selector.toList) with
  | some (method, value) => "page." ++ method ++ "(" ++ Literal.quote value ++ ")"
  | none => "page.locator(" ++ Literal.quote selector ++ ")"

/-- The alias that a selector refers to. -/
def aliasOf? (selector : String) : Option String :=
  match selector.toList with
  | '@' :: name => some (String.ofList name)
  | _ => none

/-- The base expression of a query by selector: a locator, or the variable for an alias. -/
def selectorLocator (args : List Value) : Code := do
  match ← required args "get" 0 with
  | .string selector =>
    match aliasOf? selector with
    | some name => .ok (Literal.identifier name)
    | none => .ok (optimizeSelector selector)
  | .raw source => .ok ("page.locator(" ++ source ++ ")")
  | _ => .error (.invalidArgument "get" 0 "a selector")

/-- The base expression of a query by text, with options or inside a selector. -/
def textLocator : List Value → Code
  | [] => .error (.missingArgument "contains" 0)
  | [text] => .ok ("page.getByText(" ++ text.code ++ ")")
  | first :: second :: rest =>
    if rest.isEmpty && isOptions second then
      .ok ("page.getByText(" ++ first.code ++ ")")
    else
      let base :=
        match first with
        | .string selector => optimizeSelector selector
        | other => "page.locator(" ++ other.code ++ ")"
      .ok (base ++ ".filter(\x7b hasText: " ++ second.code ++ " \x7d)")

end Rule
end SuiteShift
