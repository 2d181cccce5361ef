import SuiteShift.Command.Basic
import SuiteShift.Lowering.Outcome
import SuiteShift.Rule.Command
import SuiteShift.Rule.Chain
import SuiteShift.Rule.Assertion

/-!
# Statements of a chain

A chain becomes a list of statements, each with code or a placeholder for what could not be
lowered.

- `baseLocator` is the expression that chained calls work on.
- `commandStatement` is the base call as a statement of its own.
- `applyCall` and `assertionStatement` handle one chained call on the current locator.
- `chainStatements` threads the locator through the calls: refinements narrow it for the calls
  after them, actions and assertions leave it alone.
-/

namespace SuiteShift
namespace Lowering

/-- A statement of generated code. -/
inductive Emitted where
  | code (text : String) (suspends : Bool)
  /-- A reminder in place of code. -/
  | placeholder (what : String)
deriving DecidableEq, Repr

namespace Emitted

/-- The text of a placeholder: a comment on one line. -/
def placeholderText (what : String) : String :=
  "// TODO: Convert " ++ Literal.oneLine what

/-- The text before it is awaited. -/
def text : Emitted → String
  | .code text _ => text
  | .placeholder what => placeholderText what

/-- The statement has to be awaited. -/
def suspends : Emitted → Bool
  | .code _ suspends => suspends
  | .placeholder _ => false

/-- The statement is a placeholder. -/
def isPlaceholder : Emitted → Bool
  | .placeholder _ => true
  | .code _ _ => false

/-- There is no text. -/
def isEmpty (statement : Emitted) : Bool :=
  statement.text == ""

/-- The text of the statement. -/
def render (statement : Emitted) : String :=
  if statement.suspends then "await " ++ statement.text else statement.text

end Emitted

/-- The call states a condition. -/
def isAssertion (call : Call) : Bool :=
  call.method == "should" || call.method == "and"

/-- The expression that chained calls work on. -/
def baseLocator (command : Command) : Outcome String :=
  if command.name == "get" then .ofExcept (Rule.selectorLocator command.args)
  else if command.name == "contains" then .ofExcept (Rule.textLocator command.args)
  else if command.name == "url" then .ok "page.url()"
  else
    match Rule.CommandRule.find? command.name with
    | some rule => do
      .need rule.imports
      .ofExcept (rule.code command.args)
    | none => .ok "page"

/-- The alias that a base call waits for. -/
def waitedAlias? (args : List Value) : Option String :=
  match args.head?.bind Value.asString? with
  | some text => if (Rule.aliasOf? text).isSome then some text else none
  | none => none

/-- The base call as a statement of its own. -/
def commandStatement (command : Command) : Outcome Emitted :=
  match Rule.CommandRule.find? command.name with
  | none => do
    .warn (.unknownCommand command.name)
    .ok (.placeholder command.source)
  | some rule => do
    if command.name == "wait" then
      match waitedAlias? command.args with
      | some reference => .warn (.aliasWait reference)
      | none => .ok ()
    .need rule.imports
    let text ← .ofExcept (rule.code command.args)
    .ok (.code text rule.suspends)

/-- What a chained call comes to. -/
inductive Applied where
  | statement (emitted : Emitted)
  | refined (locator : String)
  | dropped
deriving DecidableEq, Repr

/-- Applies a chained call that states no condition to the current locator. -/
def applyCall (locator : String) (call : Call) : Outcome Applied :=
  match Rule.ChainRule.find? call.method with
  | none => do
    .warn (.unknownMethod call.method)
    .ok (.statement (.placeholder (locator ++ call.source)))
  | some rule =>
    match rule.kind with
    | .action _ suspends => do
      let text ← .ofExcept (rule.apply locator call.args)
      .ok (.statement (.code text suspends))
    | .refine _ => do
      let narrowed ← .ofExcept (rule.apply locator call.args)
      .ok (.refined narrowed)
    | .drop reason => do
      .warn (.droppedCall reason)
      .ok .dropped

/-- A condition on the address or the title of the page; `none` if it is not supported. -/
def pageAssertion (matcher subject key : String) (extra : List Value) :
    Outcome (Option String) := do
  let (negated, key) :=
    match Text.stripStart "not.".toList key.toList with
    | some rest => (true, String.ofList rest)
    | none => (false, key)
  let subjectCall := if negated then "expect(page).not" else "expect(page)"
  let expected ←
    match extra with
    | value :: _ => .ok value
    | [] => .ofExcept (.error (.missingArgument "should" 1))
  if ["include", "contain", "contains"].contains key then do
    .warn (.partialPattern subject)
    let pattern :=
      match expected with
      | .string text => "/.*" ++ Literal.escapeRegex text ++ ".*/"
      | other => "new RegExp(" ++ other.code ++ ")"
    .ok (some (subjectCall ++ "." ++ matcher ++ "(" ++ pattern ++ ")"))
  else if ["eq", "equal", "equals", "match"].contains key then
    .ok (some (subjectCall ++ "." ++ matcher ++ "(" ++ expected.code ++ ")"))
  else do
    .warn (.unsupportedAssertion subject key)
    .ok none

/-- A condition on what the locator finds; `none` if there is no rule for it. -/
def locatorAssertion (locator key : String) (extra : List Value) : Outcome (Option String) :=
  match Rule.AssertionRule.find? key with
  | some rule =>
    match rule.body with
    | .template matcher =>
      .ok (some ("expect(" ++ locator ++ ")." ++ matcher ++ "(" ++ Value.codeList extra ++ ")"))
    | .transform apply => do
      let text ← .ofExcept (apply locator extra)
      .ok (some text)
  | none => do
    .warn (.unknownAssertion key)
    .ok none

/-- A call that states a condition, as a statement that is awaited. -/
def assertionStatement (command : Command) (locator : String) (call : Call) :
    Outcome Emitted :=
  match call.args with
  | .string key :: extra => do
    let code ←
      if command.name == "url" then pageAssertion "toHaveURL" "URL" key extra
      else if command.name == "title" then pageAssertion "toHaveTitle" "title" key extra
      else locatorAssertion locator key extra
    match code with
    | some text => .ok (.code text true)
    | none => .ok (.placeholder call.source)
  | _ => do
    .warn (.callbackAssertion command.name)
    .ok (.placeholder call.source)

/-- The statements of the calls after a locator. -/
def chainStatements (command : Command) (locator : String) : List Call → Outcome (List Emitted)
  | [] => .ok []
  | call :: calls =>
    if isAssertion call then do
      let statement ← assertionStatement command locator call
      let statements ← chainStatements command locator calls
      .ok (statement :: statements)
    else do
      match ← applyCall locator call with
      | .statement statement =>
        let statements ← chainStatements command locator calls
        .ok (if statement.isEmpty then statements else statement :: statements)
      | .refined narrowed => chainStatements command narrowed calls
      | .dropped => chainStatements command locator calls

end Lowering
end SuiteShift
