import SuiteShift.Rule.Basic
import SuiteShift.Rule.Keystroke

/-!
# Chain rules

The rules for the calls chained on a base: an action makes a statement, a refinement narrows the
locator for the calls after it, and a dropped method leaves only a warning.
-/

namespace SuiteShift
namespace Rule

/-- What a chained call does. -/
inductive ChainKind where
  | action (body : Body (String → List Value → Code)) (suspends : Bool)
  | refine (apply : String → List Value → Code)
  | drop (reason : String)

/-- A rule for a chained call. -/
structure ChainRule where
  method : String
  kind : ChainKind

/-- A call that keeps only the option objects of its arguments. -/
def withOptions (method locator : String) (args : List Value) : Code :=
  .ok (locator ++ "." ++ method ++ "(" ++ Value.codeList (optionObjects args) ++ ")")

/-- The call for one segment of typed text; a literal run fills the field only at the start. -/
def strokeCall (locator : String) (isFirst : Bool) : Keystroke → String
  | .text chars =>
    let method := if isFirst then ".fill(" else ".pressSequentially("
    locator ++ method ++ Literal.quote (String.ofList chars) ++ ")"
  | .key _ key => locator ++ ".press(" ++ Literal.quote key ++ ")"

/-- The calls for all segments of typed text. -/
def strokeCalls (locator : String) : List Keystroke → List String
  | [] => []
  | first :: rest => strokeCall locator true first :: rest.map (strokeCall locator false)

/-- Types text: literal runs and key presses, one call each. -/
def typeText (locator : String) (args : List Value) : Code := do
  match ← required args "type" 0 with
  | .string text => .ok (";\nawait ".intercalate (strokeCalls locator (keystrokes text.toList)))
  | other => .ok (locator ++ ".fill(" ++ other.code ++ ")")

/-- Dispatches an event. -/
def trigger (locator : String) (args : List Value) : Code := do
  let event ← required args "trigger" 0
  .ok (locator ++ ".dispatchEvent(" ++ event.code ++ ")")

/-- Reads text, value, markup or an attribute. -/
def invoke (locator : String) (args : List Value) : Code := do
  let key ← requiredString args "invoke" 0
  if key == "text" then .ok (locator ++ ".textContent()")
  else if key == "val" then .ok (locator ++ ".inputValue()")
  else if key == "html" then .ok (locator ++ ".innerHTML()")
  else if key == "attr" || key == "prop" then do
    let name ← required args "invoke" 1
    .ok (locator ++ ".getAttribute(" ++ name.code ++ ")")
  else .error (.invalidArgument "invoke" 0 "'text', 'val', 'html' or 'attr'")

/-- Counts the matches. -/
def its (locator : String) (args : List Value) : Code := do
  let key ← requiredString args "its" 0
  if key == "length" then .ok (locator ++ ".count()")
  else .error (.invalidArgument "its" 0 "'length'")

/-- Descends to matches of a selector. -/
def find (locator : String) (args : List Value) : Code := do
  let selector ← required args "find" 0
  .ok (locator ++ ".locator(" ++ selector.code ++ ")")

/-- Takes the first match. -/
def first (locator : String) (_ : List Value) : Code :=
  .ok (locator ++ ".first()")

/-- Takes the last match. -/
def last (locator : String) (_ : List Value) : Code :=
  .ok (locator ++ ".last()")

/-- Takes the match at an index. -/
def nth (locator : String) (args : List Value) : Code := do
  match ← required args "eq" 0 with
  | .number index => .ok (locator ++ ".nth(" ++ (Value.number index).code ++ ")")
  | .raw source => .ok (locator ++ ".nth(" ++ source ++ ")")
  | _ => .error (.invalidArgument "eq" 0 "an index")

/-- Keeps the matches that also match a selector. -/
def filter (locator : String) (args : List Value) : Code := do
  let selector ← required args "filter" 0
  .ok (locator ++ ".and(page.locator(" ++ selector.code ++ "))")

/-- Ascends to the parent. -/
def parent (locator : String) (_ : List Value) : Code :=
  .ok (locator ++ ".locator('..')")

/-- Descends to the children, those of a selector if one is given. -/
def children (locator : String) : List Value → Code
  | .string selector :: _ =>
    .ok (locator ++ ".locator(" ++ Literal.quote (":scope > " ++ selector) ++ ")")
  | _ => .ok (locator ++ ".locator(':scope > *')")

/-- An action with a template. -/
def actionTemplate (method text : String) : ChainRule :=
  ⟨method, .action (.template text) true⟩

/-- An action with a function. -/
def actionTransform (method : String) (apply : String → List Value → Code) : ChainRule :=
  ⟨method, .action (.transform apply) true⟩

/-- The table of chain rules. -/
def chainRules : List ChainRule :=
  [actionTransform "click" (withOptions "click"),
   actionTemplate "dblclick" "\x7blocator\x7d.dblclick()",
   actionTemplate "rightclick" "\x7blocator\x7d.click(\x7b button: 'right' \x7d)",
   actionTransform "type" typeText,
   actionTemplate "clear" "\x7blocator\x7d.clear()",
   actionTransform "check" (withOptions "check"),
   actionTransform "uncheck" (withOptions "uncheck"),
   actionTemplate "select" "\x7blocator\x7d.selectOption(\x7bargs\x7d)",
   actionTemplate "focus" "\x7blocator\x7d.focus()",
   actionTemplate "blur" "\x7blocator\x7d.blur()",
   actionTemplate "hover" "\x7blocator\x7d.hover()",
   actionTransform "trigger" trigger,
   actionTemplate "scrollIntoView" "\x7blocator\x7d.scrollIntoViewIfNeeded()",
   actionTransform "invoke" invoke,
   actionTransform "its" its,
   actionTemplate "submit"
     "\x7blocator\x7d.evaluate(form => (form as HTMLFormElement).requestSubmit())",
   actionTemplate "wait" "page.waitForTimeout(\x7bargs\x7d)",
   ⟨"find", .refine find⟩,
   ⟨"first", .refine first⟩,
   ⟨"last", .refine last⟩,
   ⟨"eq", .refine nth⟩,
   ⟨"filter", .refine filter⟩,
   ⟨"parent", .refine parent⟩,
   ⟨"children", .refine children⟩,
   ⟨"as", .drop ("Alias '.as()' has no Playwright equivalent; " ++
     "assign the locator to a variable instead")⟩]

namespace ChainRule

/-- The rule of a method. -/
def find? (method : String) : Option ChainRule :=
  chainRules.find? fun rule => rule.method == method

/-- The statement of an action or the narrowed locator of a refinement; nothing if dropped. -/
def apply (rule : ChainRule) (locator : String) (args : List Value) : Code :=
  match rule.kind with
  | .action (.template text) _ => .ok (renderTemplate text locator args)
  | .action (.transform transform) _ => transform locator args
  | .refine transform => transform locator args
  | .drop _ => .ok ""

end ChainRule
end Rule
end SuiteShift
