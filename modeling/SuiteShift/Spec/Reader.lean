import SuiteShift.Spec.Basic
import SuiteShift.Script.Tree
import SuiteShift.Text.Indent

/-!
# Reading test suites off syntax trees

- `unwind?` reads a chain of calls on the driver object as a command.
- `shape` tells what a statement at block level is: a suite, a test, a hook, a registration of a
  custom command, or a plain statement.
- `readBlock` reads the statements of a program or a suite.

A reading has no result if the indentation of some source text cannot be removed.
-/

namespace SuiteShift
namespace Script
namespace Tree

/-- A child is smaller than its parent. -/
theorem sizeOf_lt_of_mem_children
    {tree child : Tree}
    (h : child ∈ tree.children) :
    sizeOf child < sizeOf tree := by
  cases tree with
  | node kind role extent text children =>
    have := List.sizeOf_lt_of_mem (show child ∈ children from h)
    simp only [Tree.node.sizeOf_spec]
    omega

/-- The child with a role is a child. -/
theorem mem_children_of_child?
    {tree child : Tree}
    {role : Role}
    (h : tree.child? role = some child) :
    child ∈ tree.children :=
  List.mem_of_find?_eq_some h

end Tree
end Script

namespace Spec

open Script (Tree Kind Role)

/-- Node kinds of choices and loops. -/
def branchingKinds : List Kind :=
  [.ifStatement, .switchStatement, .forStatement, .forInStatement, .whileStatement,
   .doStatement, .ternaryExpression]

/-- The expression of an expression statement. -/
def expressionOf? (statement : Tree) : Option Tree :=
  if statement.kind == .expressionStatement then statement.children.head? else none

/-- The arguments of a call, without comments. -/
def argumentNodes (list : Tree) : List Tree :=
  list.children.filter fun child => child.kind != .comment

/-- A function as an argument. -/
def isFunction (tree : Tree) : Bool :=
  tree.kind == .arrowFunction || tree.kind == .functionExpression

/-- The contents of a string literal. -/
def literalText (text : String) : String :=
  Literal.unescape (Literal.stripQuotes text)

/-- The value of a numeral, in which underscores do not count. -/
def numeralValue (text : String) : Value :=
  match Double.ofText? (text.toList.filter (· != '_')) with
  | some value => .number value
  | none => .raw text

/-- An argument as a value; all that is no literal is kept as text. -/
def valueOf (tree : Tree) : Value :=
  match tree.kind with
  | .string => .string (literalText tree.text)
  | .templateString =>
    if tree.containsKind [.templateSubstitution] then .raw tree.text
    else .string (literalText tree.text)
  | .number => numeralValue tree.text
  | .unaryExpression => numeralValue tree.text
  | .true => .bool true
  | .false => .bool false
  | _ => .raw tree.text

/-- The calls of a chain on the driver object, outermost first. -/
def chainCalls? (tree : Tree) : Option (List Call) :=
  if tree.kind != .callExpression then none
  else
    match h₁ : tree.child? .function, tree.child? .arguments with
    | some function, some list =>
      if function.kind != .memberExpression then none
      else
        match h₂ : function.child? .object, function.child? .property with
        | some object, some property =>
          let call : Call := ⟨property.text, (argumentNodes list).map valueOf⟩
          if object.kind == .identifier && object.text == "cy" then some [call]
          else
            have : sizeOf object < sizeOf tree :=
              Nat.lt_trans
                (Tree.sizeOf_lt_of_mem_children (Tree.mem_children_of_child? h₂))
                (Tree.sizeOf_lt_of_mem_children (Tree.mem_children_of_child? h₁))
            (chainCalls? object).map (call :: ·)
        | _, _ => none
    | _, _ => none
termination_by sizeOf tree

/-- A chain of calls on the driver object as a command. -/
def unwind? (tree : Tree) : Option Command :=
  match (chainCalls? tree).map List.reverse with
  | some (base :: calls) => some ⟨base.method, base.args, calls⟩
  | _ => none

/-- The text of a node, shifted left by its column. -/
def dedentedText (tree : Tree) : Option String :=
  (Text.dedent tree.extent.start.column tree.text.toList).map String.ofList

/-- A node as a statement of text. -/
def rawStatement (file : String) (tree : Tree) : Option Statement :=
  (dedentedText tree).map fun text => .raw text ⟨file, tree.extent⟩

/-- A statement: a command, or its text. -/
def readStatement (file : String) (tree : Tree) : Option Statement :=
  match (expressionOf? tree).bind unwind? with
  | some command => some (.command command ⟨file, tree.extent⟩)
  | none => rawStatement file tree

/-- An expression in place of a body: a command, or its text as a statement. -/
def readExpression (file : String) (tree : Tree) : Option Statement :=
  match unwind? tree with
  | some command => some (.command command ⟨file, tree.extent⟩)
  | none => (dedentedText tree).map fun text => .raw (text ++ ";") ⟨file, tree.extent⟩

/-- The statements of a test or hook. -/
def readBody (file : String) (callback : Tree) : Option (List Statement) :=
  match callback.child? .body with
  | none => some []
  | some body =>
    if body.kind == .statementBlock then body.children.mapM (readStatement file)
    else (readExpression file body).map fun statement => [statement]

/-- The text of one parameter: its pattern if it has one. -/
def parameterText (tree : Tree) : String :=
  ((tree.child? .pattern).getD tree).text

/-- The parameters of a function. -/
def parametersOf (function : Tree) : List String :=
  match function.child? .parameters with
  | some list => (argumentNodes list).map parameterText
  | none => ((function.child? .parameter).map Tree.text).toList

/-- The text between the braces of a block; any other text stays. -/
def insideBraces (cs : List Char) : List Char :=
  match Text.stripStart ['\x7b'] cs with
  | some rest => (Text.stripEnd ['\x7d'] rest).getD cs
  | none => cs

/-- The body of a function as text. -/
def bodyText (function : Tree) : Option String :=
  match function.child? .body with
  | none => some ""
  | some body =>
    if body.kind == .statementBlock then
      (Text.dedentBlock (insideBraces body.text.toList)).map String.ofList
    else some body.text

/-- What came of reading part of a file. -/
structure Reading where
  nodes : List TestNode := []
  definitions : List Definition := []

namespace Reading

/-- A single node. -/
def ofNode (node : TestNode) : Reading :=
  { nodes := [node] }

/-- Readings one after the other. -/
def concat (readings : List Reading) : Reading :=
  { nodes := readings.flatMap Reading.nodes
    definitions := readings.flatMap Reading.definitions }

end Reading

/-- The registration of a custom command: a name, options and a function. Without a literal name
or a function there is nothing to define. -/
def readDefinition (file : String) (call : Tree) : Option (List Definition) :=
  match call.child? .arguments with
  | none => some []
  | some list =>
    let args := argumentNodes list
    match args.head?.map valueOf, args.getLast? with
    | some (.string name), some function =>
      if isFunction function then
        (bodyText function).map fun body =>
          [{ name, parameters := parametersOf function, body
             span := some ⟨file, call.extent⟩ }]
      else some []
    | _, _ => some []

/-- The modules that only set up the driver. -/
def isSetupModule (module : String) : Bool :=
  let cs := module.toList
  Text.startsWith "cypress".toList cs || Text.startsWith "@cypress/".toList cs ||
    Text.startsWith "@testing-library/cypress".toList cs ||
    ["./commands", "./commands.js", "./commands.ts"].contains module

/-- An import that only sets up the driver. -/
def isSetupImport (tree : Tree) : Bool :=
  match tree.child? .source with
  | some source => isSetupModule (Literal.stripQuotes source.text)
  | none => false

/-- What a statement at block level is. -/
inductive Shape where
  | setup
  | registration (call : Tree)
  | suite (title : Value) (modifier : Modifier)
  | test (title : Value) (modifier : Modifier) (callback : Tree)
  | hook (kind : HookKind) (callback : Tree)
  | plain
  | text
deriving Inhabited

/-- The modifier that a property names. -/
def modifierOf? (property : String) : Option Modifier :=
  [("only", Modifier.only), ("skip", .skip)].lookup property

/-- The name and the modifier that a callee consists of. -/
def calleeParts? (callee : List Char) : Option (String × Modifier) :=
  match Text.splitOnce ['.'] callee with
  | some (base, property) =>
    (modifierOf? (String.ofList property)).map fun modifier => (String.ofList base, modifier)
  | none => some (String.ofList callee, .none)

/-- The function that is the last argument of a call. -/
def callbackOf? (call : Tree) : Option Tree :=
  match call.child? .arguments with
  | some list => (argumentNodes list).getLast?.filter isFunction
  | none => none

/-- The first argument of a call as a title. -/
def titleOf (call : Tree) : Value :=
  match ((call.child? .arguments).map argumentNodes).bind List.head? with
  | some first => valueOf first
  | none => .raw "''"

/-- What a call at block level is. -/
def callShape (call : Tree) (callee : List Char) : Shape :=
  if ["Cypress.Commands.add", "Cypress.Commands.overwrite"].contains (String.ofList callee) then
    .registration call
  else
    match calleeParts? callee, callbackOf? call with
    | some (base, modifier), some callback =>
      if base == "describe" || base == "context" then .suite (titleOf call) modifier
      else if base == "it" || base == "specify" then .test (titleOf call) modifier callback
      else if modifier = .none then
        match HookKind.ofName? base with
        | some kind => .hook kind callback
        | none => .plain
      else .plain
    | _, _ => .plain

/-- The call that an expression statement consists of. -/
def callOf? (statement : Tree) : Option Tree :=
  (expressionOf? statement).filter fun expression => expression.kind == .callExpression

/-- What a statement at block level is. -/
def shape (statement : Tree) : Shape :=
  match statement.kind with
  | .importStatement => if isSetupImport statement then .setup else .text
  | .comment =>
    if Text.startsWith "/// <reference".toList statement.text.toList then .setup else .text
  | .expressionStatement =>
    match callOf? statement with
    | some call =>
      match call.child? .function with
      | some callee => callShape call (Text.words callee.text.toList).flatten
      | none => .setup
    | none => .text
  | _ => .text

/-- The block of statements that a suite consists of. -/
def suiteBlock? (statement : Tree) : Option Tree :=
  match (callOf? statement).bind callbackOf? with
  | some callback => (callback.child? .body).filter fun body => body.kind == .statementBlock
  | none => none

/-- The expression of a statement is smaller than the statement. -/
theorem sizeOf_lt_of_callOf?
    {statement call : Tree}
    (h : callOf? statement = some call) :
    sizeOf call < sizeOf statement := by
  unfold callOf? expressionOf? at h
  split at h
  · rw [Option.filter_eq_some_iff] at h
    exact Tree.sizeOf_lt_of_mem_children (List.mem_of_head? h.1)
  · simp at h

/-- The callback of a call is smaller than the call. -/
theorem sizeOf_lt_of_callbackOf?
    {call callback : Tree}
    (h : callbackOf? call = some callback) :
    sizeOf callback < sizeOf call := by
  unfold callbackOf? at h
  split at h
  · rename_i list hlist
    rw [Option.filter_eq_some_iff] at h
    have hmem : callback ∈ argumentNodes list := List.mem_of_getLast? h.1
    have hchild : callback ∈ list.children := (List.mem_filter.1 hmem).1
    exact Nat.lt_trans
      (Tree.sizeOf_lt_of_mem_children hchild)
      (Tree.sizeOf_lt_of_mem_children (Tree.mem_children_of_child? hlist))
  · simp at h

/-- The block of a suite is smaller than its statement. -/
theorem sizeOf_lt_of_suiteBlock?
    {statement block : Tree}
    (h : suiteBlock? statement = some block) :
    sizeOf block < sizeOf statement := by
  unfold suiteBlock? at h
  split at h
  · rename_i callback hcallback
    rw [Option.bind_eq_some_iff] at hcallback
    obtain ⟨call, hcall, hcallback⟩ := hcallback
    rw [Option.filter_eq_some_iff] at h
    have hbody := Tree.sizeOf_lt_of_mem_children (Tree.mem_children_of_child? h.1)
    have := sizeOf_lt_of_callbackOf? hcallback
    have := sizeOf_lt_of_callOf? hcall
    omega
  · simp at h

/-- Reads the statements of a program or a suite. -/
def readBlock (file : String) (block : Tree) : Option Reading := do
  let readings ← block.children.attach.mapM
    fun (item : { child : Tree // child ∈ block.children }) =>
      let statement := item.val
      let span : Span := ⟨file, statement.extent⟩
      match shape statement with
      | .setup => some {}
      | .registration call => (readDefinition file call).map fun definitions => { definitions }
      | .suite title modifier =>
        match h : suiteBlock? statement with
        | some inner =>
          have : sizeOf inner < sizeOf block :=
            Nat.lt_trans (sizeOf_lt_of_suiteBlock? h) (Tree.sizeOf_lt_of_mem_children item.property)
          (readBlock file inner).map fun reading =>
            { reading with nodes := [.suite title modifier reading.nodes span] }
        | none => some (.ofNode (.suite title modifier [] span))
      | .test title modifier callback =>
        (readBody file callback).map fun body => .ofNode (.test title modifier body span)
      | .hook kind callback =>
        (readBody file callback).map fun body => .ofNode (.hook kind body span)
      | .plain => (readStatement file statement).map fun s => .ofNode (.statement s)
      | .text => (rawStatement file statement).map fun s => .ofNode (.statement s)
  some (Reading.concat readings)
termination_by sizeOf block

/-- Reads a test or support file. -/
def ofTree (file : String) (tree : Tree) : Option SpecFile :=
  (readBlock file tree).map fun reading =>
    { path := file, nodes := reading.nodes, definitions := reading.definitions }

/-- Reads loose statements. -/
def snippetOfTree (tree : Tree) : Option Snippet :=
  (tree.children.mapM (readStatement "<snippet>")).map fun statements =>
    { statements, branching := tree.containsKind branchingKinds }

end Spec
end SuiteShift
