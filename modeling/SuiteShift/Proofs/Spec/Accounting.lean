import SuiteShift.Spec.Source
import SuiteShift.Proofs.Failure
import SuiteShift.Proofs.Spec.Shape
import Mathlib.Algebra.BigOperators.Group.List.Basic
import Mathlib.Algebra.GroupWithZero.Nat

/-!
# What becomes of every statement

A file is read block by block. The statements of all blocks, in source order, are compared with
what the reading holds.

- `statements`: the statements of a block and of the blocks of the suites in it.
- `map_view_readBlock`: a view of a reading that adds up shows what the statements show, one after
  the other; the reading fails where one of them cannot be read.
- `asNode?`, `asDefinition?`: what a statement becomes. A registration without a literal name or
  without a function becomes neither.
- `testCount_eq`: a test is among the statements, or it stands behind an expression that a suite
  has in place of a block; there nothing is read.
- `statements_accounted` puts these together.
-/

namespace SuiteShift

/-- Where a statement stands. -/
def Statement.span : Statement → Span
  | .command _ span => span
  | .raw _ span => span

namespace TestNode

/-- Where a node stands. -/
def span : TestNode → Span
  | .suite _ _ _ span => span
  | .test _ _ _ span => span
  | .hook _ _ span => span
  | .statement loose => loose.span

/-- The node is a test. -/
def isTest : TestNode → Bool
  | .test _ _ _ _ => true
  | _ => false

mutual

/-- The node and all nodes below it, in source order. -/
def preorder : TestNode → List TestNode
  | .suite title modifier children span =>
    .suite title modifier children span :: preorderOf children
  | .test title modifier body span => [.test title modifier body span]
  | .hook kind body span => [.hook kind body span]
  | .statement loose => [.statement loose]

/-- The nodes of a list and all nodes below them, in source order. -/
def preorderOf : List TestNode → List TestNode
  | [] => []
  | node :: nodes => node.preorder ++ preorderOf nodes

end

theorem preorderOf_eq_flatMap
    (nodes : List TestNode) :
    preorderOf nodes = nodes.flatMap preorder := by
  induction nodes with
  | nil =>
      rfl
  | cons node nodes ih =>
      rw [preorderOf, ih, List.flatMap_cons]

end TestNode

namespace Spec

open Script (Tree Kind Role)

/-! ### Blocks -/

/-- A statement about blocks holds of all of them if it holds of a block whenever it holds of
the blocks of the suites in it. -/
theorem block_induction
    {P : Tree → Prop}
    (step : ∀ block, (∀ statement ∈ block.children, ∀ inner,
      suiteBlock? statement = some inner → P inner) → P block)
    (block : Tree) :
    P block := by
  refine step block fun statement hstatement inner hinner => ?_
  have : sizeOf inner < sizeOf block :=
    Nat.lt_trans (sizeOf_lt_of_suiteBlock? hinner) (Tree.sizeOf_lt_of_mem_children hstatement)
  exact block_induction step inner
termination_by sizeOf block

/-- The statements of a block and of the blocks of the suites in it, in source order. -/
def statements (block : Tree) : List Tree :=
  block.children.attach.flatMap fun (item : { child : Tree // child ∈ block.children }) =>
    item.val ::
      if isSuite item.val then
        match h : suiteBlock? item.val with
        | some inner =>
          have : sizeOf inner < sizeOf block :=
            Nat.lt_trans (sizeOf_lt_of_suiteBlock? h) (Tree.sizeOf_lt_of_mem_children item.property)
          statements inner
        | none => []
      else []
termination_by sizeOf block

/-- The statements in the block of a suite. -/
def inside (statement : Tree) : List Tree :=
  if isSuite statement then ((suiteBlock? statement).map statements).getD [] else []

theorem statements_eq
    (block : Tree) :
    statements block = block.children.flatMap fun statement => statement :: inside statement := by
  rw [statements]
  conv_rhs => rw [← List.attach_map_subtype_val block.children, List.flatMap_map]
  refine List.flatMap_congr fun item _ => ?_
  unfold inside
  split_ifs
  · split
    · next inner hinner =>
        simp [hinner]
    · next hinner =>
        simp [hinner]
  · rfl

/-- The reading of a statement, without what a suite holds. -/
def ownReading (file : String) (statement : Tree) : Option Reading :=
  match shape statement with
  | .setup => some {}
  | .registration call => (readDefinition file call).map fun definitions => { definitions }
  | .suite title modifier => some (.ofNode (.suite title modifier [] ⟨file, statement.extent⟩))
  | .test title modifier callback =>
    (readBody file callback).map fun body =>
      .ofNode (.test title modifier body ⟨file, statement.extent⟩)
  | .hook kind callback =>
    (readBody file callback).map fun body => .ofNode (.hook kind body ⟨file, statement.extent⟩)
  | .plain => (readStatement file statement).map fun s => .ofNode (.statement s)
  | .text => (rawStatement file statement).map fun s => .ofNode (.statement s)

/-- The reading of a suite, with what its block holds. -/
def Reading.inSuite (title : Value) (modifier : Modifier) (span : Span) (reading : Reading) :
    Reading :=
  { reading with nodes := [.suite title modifier reading.nodes span] }

/-- The reading of a statement. -/
def readItem (file : String) (statement : Tree) : Option Reading :=
  match shape statement, suiteBlock? statement with
  | .suite title modifier, some inner =>
    (readBlock file inner).map (Reading.inSuite title modifier ⟨file, statement.extent⟩)
  | _, _ => ownReading file statement

theorem readBlock_eq
    (file : String)
    (block : Tree) :
    readBlock file block = (block.children.mapM (readItem file)).map Reading.concat := by
  have hattach : block.children.mapM (readItem file) =
      block.children.attach.mapM fun item => readItem file item.val := by
    conv_lhs => rw [← List.attach_map_subtype_val block.children, List.mapM_map]
    rfl
  -- Membership is carried along for termination only.
  rw [readBlock, hattach, Option.map_eq_bind]
  refine congrArg₂ Option.bind (congrArg (List.mapM · _) (funext fun item => ?_)) rfl
  unfold readItem ownReading
  dsimp only
  cases shape item.val with
  | suite title modifier =>
      dsimp only
      split
      · next inner hinner =>
          simp only [hinner]
          rfl
      · next hinner =>
          simp only [hinner]
  | _ =>
      rfl

/-- Without a block there is nothing to read but the statement itself. -/
theorem readItem_eq_ownReading
    {statement : Tree}
    (h : isSuite statement = true → suiteBlock? statement = none)
    (file : String) :
    readItem file statement = ownReading file statement ∧ inside statement = [] := by
  have hsuite := (kinds_shape statement).2.1
  unfold readItem inside
  cases hkind : isSuite statement with
  | true =>
      rw [h hkind]
      refine ⟨?_, rfl⟩
      cases shape statement <;> rfl
  | false =>
      rw [hkind] at hsuite
      refine ⟨?_, rfl⟩
      cases hshape : shape statement with
      | suite title modifier =>
          rw [hshape] at hsuite
          cases hsuite
      | _ =>
          rfl

/-- A suite is read with its block. -/
theorem readItem_eq_inSuite
    {statement inner : Tree}
    (hsuite : isSuite statement = true)
    (hinner : suiteBlock? statement = some inner)
    (file : String) :
    inside statement = statements inner ∧
    ∃ title modifier,
      ownReading file statement =
        some (.ofNode (.suite title modifier [] ⟨file, statement.extent⟩)) ∧
      readItem file statement =
        (readBlock file inner).map (Reading.inSuite title modifier ⟨file, statement.extent⟩) := by
  have hshape := (kinds_shape statement).2.1
  rw [hsuite] at hshape
  refine ⟨by rw [inside, hsuite, hinner]; rfl, ?_⟩
  unfold readItem ownReading
  cases hkind : shape statement with
  | suite title modifier =>
      rw [hinner]
      exact ⟨title, modifier, rfl, rfl⟩
  | _ =>
      rw [hkind] at hshape
      cases hshape

/-! ### Views -/

/-- A view of readings that adds up: along a list, and from a suite to what is in it. -/
structure Additive {γ : Type} (view : Reading → List γ) : Prop where
  concat : ∀ readings, view (Reading.concat readings) = readings.flatMap view
  inSuite : ∀ title modifier span reading,
    view (Reading.inSuite title modifier span reading) =
      view (.ofNode (.suite title modifier [] span)) ++ view reading

variable {γ : Type} {view : Reading → List γ}

/-- Readings that agree with those of all parts agree along a list. -/
theorem map_view_mapM
    {file : String}
    {read : Tree → Option Reading}
    {parts : Tree → List Tree}
    {trees : List Tree}
    (h : ∀ tree ∈ trees,
      (read tree).map view = ((parts tree).mapM (ownReading file)).map (·.flatMap view)) :
    (trees.mapM read).map (·.flatMap view) =
      ((trees.flatMap parts).mapM (ownReading file)).map (·.flatMap view) := by
  induction trees with
  | nil =>
      rfl
  | cons tree trees ih =>
      have hrest := ih fun other hother => h other (List.mem_cons_of_mem _ hother)
      have htree := h tree List.mem_cons_self
      rw [List.mapM_cons, List.flatMap_cons, List.mapM_append]
      cases hread : read tree with
      | none =>
          rw [hread, Option.map_none, eq_comm, Option.map_eq_none_iff] at htree
          rw [htree]
          rfl
      | some reading =>
          rw [hread, Option.map_some, eq_comm, Option.map_eq_some_iff] at htree
          obtain ⟨own, hown, hownView⟩ := htree
          cases hreadings : trees.mapM read with
          | none =>
              rw [hreadings, Option.map_none, eq_comm, Option.map_eq_none_iff] at hrest
              rw [hown, hrest]
              rfl
          | some readings =>
              rw [hreadings, Option.map_some, eq_comm, Option.map_eq_some_iff] at hrest
              obtain ⟨others, hothers, hothersView⟩ := hrest
              rw [hown, hothers]
              simp [hownView, hothersView]

/-- A view of a block shows what the statements in it show, in source order. -/
theorem map_view_readBlock
    (hview : Additive view)
    (file : String)
    (block : Tree) :
    (readBlock file block).map view =
      ((statements block).mapM (ownReading file)).map (·.flatMap view) := by
  -- The induction goes through the blocks of suites: what is inside one comes after the suite
  -- itself on both sides.
  induction block using block_induction with
  | step block ih =>
      have hconcat : (readBlock file block).map view =
          (block.children.mapM (readItem file)).map (·.flatMap view) := by
        rw [readBlock_eq, Option.map_map]
        exact congrArg (Option.map · _) (funext hview.concat)
      rw [hconcat, statements_eq]
      refine map_view_mapM fun statement hstatement => ?_
      by_cases hblock : isSuite statement = true → suiteBlock? statement = none
      · obtain ⟨hread, hinside⟩ := readItem_eq_ownReading hblock file
        rw [hread, hinside, List.mapM_cons, List.mapM_nil]
        cases ownReading file statement <;> simp
      · obtain ⟨hsuite, hinner⟩ := Classical.not_imp.mp hblock
        obtain ⟨inner, hinner⟩ := Option.ne_none_iff_exists'.mp hinner
        obtain ⟨hinside, title, modifier, hown, hread⟩ := readItem_eq_inSuite hsuite hinner file
        have hlift : ((readBlock file inner).map
              (Reading.inSuite title modifier ⟨file, statement.extent⟩)).map view =
            ((readBlock file inner).map view).map
              (view (.ofNode (.suite title modifier [] ⟨file, statement.extent⟩)) ++ ·) := by
          cases readBlock file inner with
          | none =>
              rfl
          | some reading =>
              exact congrArg some (hview.inSuite title modifier _ reading)
        rw [hread, hinside, hlift, ih statement hstatement inner hinner, List.mapM_cons, hown]
        cases (statements inner).mapM (ownReading file) <;> simp

/-! ### Nodes and definitions -/

/-- The nodes of a reading at any depth: where each stands, and whether it is a test. -/
def nodeView (reading : Reading) : List (Span × Bool) :=
  (TestNode.preorderOf reading.nodes).map fun node => (node.span, node.isTest)

/-- The definitions of a reading: their names, and where they stand. -/
def definitionView (reading : Reading) : List (String × Option Span) :=
  reading.definitions.map fun definition => (definition.name, definition.span)

theorem additive_nodeView :
    Additive nodeView := by
  constructor
  · intro readings
    rw [nodeView, Reading.concat, TestNode.preorderOf_eq_flatMap, List.flatMap_assoc,
      List.map_flatMap]
    refine List.flatMap_congr fun reading _ => ?_
    rw [nodeView, TestNode.preorderOf_eq_flatMap]
  · intro title modifier span reading
    simp [nodeView, Reading.inSuite, Reading.ofNode, TestNode.preorderOf, TestNode.preorder,
      TestNode.span, TestNode.isTest]

theorem additive_definitionView :
    Additive definitionView := by
  constructor
  · intro readings
    rw [definitionView, Reading.concat, List.map_flatMap]
    rfl
  · intro title modifier span reading
    rfl

/-- The node that a statement should become: where it stands, and whether it is a test. -/
def asNode? (file : String) (statement : Tree) : Option (Span × Bool) :=
  if isSetup statement || isRegistration statement then none
  else some (⟨file, statement.extent⟩, isTest statement)

/-- The definition that a registration with a literal name and a function becomes. -/
def asDefinition? (file : String) (statement : Tree) : Option (String × Option Span) :=
  ((callOf? statement).filter (isCallOf registrationNames)).bind fun call =>
    if (callbackOf? call).isSome then
      (titleOf call).asString?.map fun name => (name, some ⟨file, call.extent⟩)
    else none

theorem span_rawStatement
    {file : String}
    {tree : Tree}
    {statement : Statement}
    (h : rawStatement file tree = some statement) :
    statement.span = ⟨file, tree.extent⟩ := by
  obtain ⟨text, -, rfl⟩ := Option.map_eq_some_iff.mp h
  rfl

theorem span_readStatement
    {file : String}
    {tree : Tree}
    {statement : Statement}
    (h : readStatement file tree = some statement) :
    statement.span = ⟨file, tree.extent⟩ := by
  unfold readStatement at h
  split at h
  · cases h
    rfl
  · exact span_rawStatement h

/-- A statement is left out, registers a command or becomes a node. -/
theorem nodeView_ownReading
    {file : String}
    {statement : Tree}
    {own : Reading}
    (hcallee : hasCallee statement = true)
    (h : ownReading file statement = some own) :
    nodeView own = (asNode? file statement).toList := by
  obtain ⟨hregistration, -, htest⟩ := kinds_shape statement
  rw [asNode?, ← isSetup_shape hcallee, ← hregistration, ← htest]
  unfold ownReading at h
  cases hshape : shape statement with
  | setup =>
      rw [hshape] at h
      cases h
      rfl
  | registration call =>
      rw [hshape] at h
      obtain ⟨definitions, -, rfl⟩ := Option.map_eq_some_iff.mp h
      rfl
  | suite title modifier =>
      rw [hshape] at h
      cases h
      rfl
  | test title modifier callback =>
      rw [hshape] at h
      obtain ⟨body, -, rfl⟩ := Option.map_eq_some_iff.mp h
      rfl
  | hook kind callback =>
      rw [hshape] at h
      obtain ⟨body, -, rfl⟩ := Option.map_eq_some_iff.mp h
      rfl
  | plain =>
      rw [hshape] at h
      obtain ⟨loose, hloose, rfl⟩ := Option.map_eq_some_iff.mp h
      simp [nodeView, Reading.ofNode, TestNode.preorderOf, TestNode.preorder, TestNode.span,
        TestNode.isTest, span_readStatement hloose, Shape.isSetup, Shape.isRegistration,
        Shape.isTest]
  | text =>
      rw [hshape] at h
      obtain ⟨loose, hloose, rfl⟩ := Option.map_eq_some_iff.mp h
      simp [nodeView, Reading.ofNode, TestNode.preorderOf, TestNode.preorder, TestNode.span,
        TestNode.isTest, span_rawStatement hloose, Shape.isSetup, Shape.isRegistration,
        Shape.isTest]

/-- The two parts without which a registration defines nothing: its name as a literal, and its
function. -/
theorem readDefinition_eq
    (file : String)
    (call : Tree) :
    readDefinition file call =
      match (titleOf call).asString?, callbackOf? call with
      | some name, some function =>
        (bodyText function).map fun body =>
          [{ name, parameters := parametersOf function, body, span := some ⟨file, call.extent⟩ }]
      | _, _ => some [] := by
  unfold readDefinition callbackOf? titleOf
  cases call.child? .arguments with
  | none =>
      rfl
  | some list =>
      dsimp only
      rw [Option.map_some, Option.bind_some]
      cases (argumentNodes list).head? with
      | none =>
          rfl
      | some first =>
          rw [Option.map_some]
          dsimp only
          cases valueOf first with
          | string name =>
              cases (argumentNodes list).getLast? with
              | none =>
                  rfl
              | some function =>
                  rw [Option.filter_some]
                  dsimp only
                  cases isFunction function <;> rfl
          | _ =>
              rfl

theorem map_readDefinition
    {file : String}
    {call : Tree}
    {definitions : List Definition}
    (h : readDefinition file call = some definitions) :
    definitions.map (fun definition => (definition.name, definition.span)) =
      (if (callbackOf? call).isSome then
        (titleOf call).asString?.map fun name => (name, some ⟨file, call.extent⟩)
      else none : Option (String × Option Span)).toList := by
  rw [readDefinition_eq] at h
  cases hname : (titleOf call).asString? with
  | none =>
      rw [hname] at h
      cases h
      cases (callbackOf? call).isSome <;> rfl
  | some name =>
      cases hcallback : callbackOf? call with
      | none =>
          rw [hname, hcallback] at h
          cases h
          rfl
      | some function =>
          rw [hname, hcallback] at h
          obtain ⟨body, -, rfl⟩ := Option.map_eq_some_iff.mp h
          rfl

theorem call_of_callShape
    {call other : Tree}
    {callee : List Char}
    (h : callShape call callee = .registration other) :
    call = other := by
  unfold callShape at h
  split_ifs at h
  · cases h
    rfl
  · split at h
    · split_ifs at h
      split at h <;> cases h
    · cases h

theorem callOf?_of_shape
    {statement call : Tree}
    (h : shape statement = .registration call) :
    callOf? statement = some call := by
  cases hcall : callOf? statement with
  | none =>
      rw [shape_of_callOf?_eq_none hcall] at h
      split_ifs at h
  | some other =>
      rw [shape_of_callOf? hcall] at h
      cases hfunction : other.child? .function with
      | none =>
          rw [hfunction] at h
          cases h
      | some callee =>
          rw [hfunction] at h
          rw [call_of_callShape h]

theorem asDefinition?_eq_none
    {statement : Tree}
    (h : isRegistration statement = false)
    (file : String) :
    asDefinition? file statement = none := by
  unfold asDefinition?
  unfold isRegistration at h
  cases hcall : callOf? statement with
  | none =>
      rfl
  | some call =>
      rw [hcall, Option.any_some] at h
      rw [Option.filter_some, h]
      rfl

theorem definitionView_ownReading
    {file : String}
    {statement : Tree}
    {own : Reading}
    (h : ownReading file statement = some own) :
    definitionView own = (asDefinition? file statement).toList := by
  have hregistration := (kinds_shape statement).1
  unfold ownReading at h
  cases hshape : shape statement with
  | registration call =>
      rw [hshape] at h
      obtain ⟨definitions, hdefinitions, rfl⟩ := Option.map_eq_some_iff.mp h
      rw [hshape, isRegistration, callOf?_of_shape hshape, Option.any_some] at hregistration
      rw [asDefinition?, callOf?_of_shape hshape, Option.filter_some, ← hregistration]
      exact map_readDefinition hdefinitions
  | setup =>
      rw [hshape] at h hregistration
      cases h
      rw [asDefinition?_eq_none hregistration.symm]
      rfl
  | suite title modifier =>
      rw [hshape] at h hregistration
      cases h
      rw [asDefinition?_eq_none hregistration.symm]
      rfl
  | _ =>
      rw [hshape] at h hregistration
      obtain ⟨_, -, rfl⟩ := Option.map_eq_some_iff.mp h
      rw [asDefinition?_eq_none hregistration.symm]
      rfl

/-! ### Tests -/

/-- The body of the function that a call ends with. -/
def callBody? (call : Tree) : Option Tree :=
  (callbackOf? call).bind fun callback => callback.child? .body

theorem sizeOf_lt_of_callBody?
    {call body : Tree}
    (h : callBody? call = some body) :
    sizeOf body < sizeOf call := by
  obtain ⟨callback, hcallback, hbody⟩ := Option.bind_eq_some_iff.mp h
  exact Nat.lt_trans (Tree.sizeOf_lt_of_mem_children (Tree.mem_children_of_child? hbody))
    (sizeOf_lt_of_callbackOf? hcallback)

/-- The tests that a call stands for: one if it is a test; if it is a suite, all that are reached
through its body, be that a block or an expression. -/
def testsOfCall (call : Tree) : Nat :=
  if isTestCall call then 1
  else if isSuiteCall call then
    match hbody : callBody? call with
    | some body =>
      have := sizeOf_lt_of_callBody? hbody
      if body.kind == .statementBlock then
        (body.children.attach.map fun (item : { child : Tree // child ∈ body.children }) =>
          match hcall : callOf? item.val with
          | some inner =>
            have := sizeOf_lt_of_callOf? hcall
            have := Tree.sizeOf_lt_of_mem_children item.property
            testsOfCall inner
          | none => 0).sum
      else if body.kind == .callExpression then testsOfCall body
      else 0
    | none => 0
  else 0
termination_by sizeOf call

/-- The tests that are reached from a statement. -/
def testsOfStatement (statement : Tree) : Nat :=
  ((callOf? statement).map testsOfCall).getD 0

/-- The tests that are reached from the statements of a block. -/
def testCount (block : Tree) : Nat :=
  (block.children.map testsOfStatement).sum

/-- The tests that are reached through an expression in place of a block. -/
def testsOfExpression (body : Tree) : Nat :=
  if body.kind == .callExpression then testsOfCall body else 0

theorem testsOfCall_eq
    (call : Tree) :
    testsOfCall call =
      if isTestCall call then 1
      else if isSuiteCall call then
        match callBody? call with
        | some body =>
          if body.kind == .statementBlock then testCount body else testsOfExpression body
        | none => 0
      else 0 := by
  rw [testsOfCall]
  split_ifs
  · rfl
  · split
    · next body hbody =>
        simp only [hbody]
        split_ifs
        · rw [testCount]
          conv_rhs => rw [← List.attach_map_subtype_val body.children, List.map_map]
          refine congrArg List.sum (List.map_congr_left fun item _ => ?_)
          simp only [Function.comp_apply, testsOfStatement]
          split
          · next inner hinner =>
              simp [hinner]
          · next hinner =>
              simp [hinner]
        · rw [testsOfExpression, if_pos (by assumption)]
        · rw [testsOfExpression, if_neg (by assumption)]
    · next hbody =>
        simp only [hbody]
  · rfl

/-- The tests behind the expression that a suite has in place of a block. -/
def hiddenTests (statement : Tree) : Nat :=
  match ((callOf? statement).filter isSuiteCall).bind callBody? with
  | some body => if body.kind == .statementBlock then 0 else testsOfExpression body
  | none => 0

theorem suiteBlock?_eq
    (statement : Tree) :
    suiteBlock? statement =
      ((callOf? statement).bind callBody?).filter fun body => body.kind == .statementBlock := by
  unfold suiteBlock? callBody?
  cases callOf? statement with
  | none =>
      rfl
  | some call =>
      rw [Option.bind_some, Option.bind_some]
      cases callbackOf? call <;> rfl

/-- No name is that of a test and of something else. -/
theorem not_isCallOf_of_isTestCall
    {call : Tree}
    (h : isTestCall call = true) :
    isSuiteCall call = false ∧ isCallOf registrationNames call = false := by
  have hothers : ∀ name ∈ testNames,
      suiteNames.contains name = false ∧ registrationNames.contains name = false := by
    decide
  simp only [isTestCall, isCallOf, Bool.and_eq_true, Option.any_eq_true] at h
  obtain ⟨⟨name, hname, htest⟩, -⟩ := h
  obtain ⟨hsuite, hregistration⟩ := hothers name (List.contains_iff_mem.mp htest)
  rw [isSuiteCall, isCallOf, isCallOf, hname, Option.any_some, Option.any_some, hsuite,
    hregistration]
  exact ⟨rfl, rfl⟩

/-- The tests that are reached from a statement: the statement itself, those behind an
expression, and those in its block. -/
theorem testsOfStatement_eq
    (statement : Tree) :
    testsOfStatement statement =
      (if isTest statement then 1 else 0) + hiddenTests statement +
        if isSuite statement then ((suiteBlock? statement).map testCount).getD 0 else 0 := by
  rw [suiteBlock?_eq]
  unfold testsOfStatement isTest isSuite hiddenTests
  cases callOf? statement with
  | none =>
      rfl
  | some call =>
      rw [Option.map_some, Option.any_some, Option.any_some, Option.filter_some, Option.bind_some,
        Option.getD_some, testsOfCall_eq]
      -- A test is no suite, so at most one of the three parts is not zero.
      cases htest : isTestCall call with
      | true =>
          rw [(not_isCallOf_of_isTestCall htest).1]
          rfl
      | false =>
          cases isSuiteCall call with
          | false =>
              rfl
          | true =>
              simp only [Bool.false_eq_true, if_false, if_true, Option.bind_some]
              cases callBody? call with
              | none =>
                  rfl
              | some body =>
                  by_cases hblock : body.kind = .statementBlock
                  · simp [hblock, Option.filter_some]
                  · simp [hblock, Option.filter_some]

/-- Every test that is reached from a block is one of its statements, or it stands behind an
expression in place of a suite's block. -/
theorem testCount_eq
    (block : Tree) :
    testCount block =
      (statements block).countP isTest + ((statements block).map hiddenTests).sum := by
  induction block using block_induction with
  | step block ih =>
      rw [testCount, statements_eq, List.countP_flatMap, List.map_flatMap, List.flatMap_def,
        List.sum_flatten, List.map_map, ← List.sum_map_add]
      refine congrArg List.sum (List.map_congr_left fun statement hstatement => ?_)
      have hinside : (if isSuite statement then ((suiteBlock? statement).map testCount).getD 0
          else 0) =
          (inside statement).countP isTest + ((inside statement).map hiddenTests).sum := by
        unfold inside
        split_ifs
        · cases hinner : suiteBlock? statement with
          | none =>
              rfl
          | some inner =>
              exact ih statement hstatement inner hinner
        · rfl
      rw [testsOfStatement_eq, hinside]
      simp only [Function.comp_apply, List.countP_cons, List.map_cons, List.sum_cons]
      omega

/-! ### Files -/

/-- A test is neither left out nor registered. -/
theorem getD_asNode?
    (file : String)
    (statement : Tree) :
    ((asNode? file statement).map Prod.snd).getD false = isTest statement := by
  unfold asNode?
  cases htest : isTest statement with
  | false =>
      cases isSetup statement || isRegistration statement <;> rfl
  | true =>
      obtain ⟨call, hcall, hcallTest⟩ := (Option.any_eq_true _ _).mp htest
      have hsetup : isSetup statement = false := by
        rw [isSetup, kind_of_callOf? hcall]
        rfl
      have hregistration : isRegistration statement = false := by
        rw [isRegistration, hcall, Option.any_some, (not_isCallOf_of_isTestCall hcallTest).2]
      rw [hsetup, hregistration]
      rfl

theorem eq_filterMap_of_readBlock
    {δ : Type}
    {view : Reading → List δ}
    (hview : Additive view)
    {file : String}
    {block : Tree}
    {reading : Reading}
    (h : readBlock file block = some reading)
    {becomes : Tree → Option δ}
    (hbecomes : ∀ statement ∈ statements block, ∀ own, ownReading file statement = some own →
      view own = (becomes statement).toList) :
    view reading = (statements block).filterMap becomes := by
  have hmap := map_view_readBlock hview file block
  rw [h, Option.map_some, eq_comm, Option.map_eq_some_iff] at hmap
  obtain ⟨owns, howns, hviews⟩ := hmap
  have hall := Failure.mapM_eq_some_iff.mp howns
  rw [← hviews]
  clear hviews howns h
  generalize statements block = trees at hall hbecomes
  induction hall with
  | nil =>
      rfl
  | cons hown hrest ih =>
      rw [List.flatMap_cons, hbecomes _ List.mem_cons_self _ hown, List.filterMap_cons,
        ih fun other hother => hbecomes other (List.mem_cons_of_mem _ hother)]
      cases becomes _ <;> rfl

/-- A file is read when every statement in it can be read. Then the nodes at all depths are the
statements of its blocks, in source order and each once, without those that set up the driver and
those that register commands; the definitions are the registrations with a literal name and a
function; and of all tests, those behind an expression in place of a block are missing. -/
theorem statements_accounted
    {file : String}
    {tree : Tree}
    (hcallee : ∀ statement ∈ statements tree, hasCallee statement = true) :
    (ofTree file tree).isSome =
      ((statements tree).all fun statement => (ownReading file statement).isSome) ∧
    ∀ spec, ofTree file tree = some spec →
      (TestNode.preorderOf spec.nodes).map (fun node => (node.span, node.isTest)) =
        (statements tree).filterMap (asNode? file) ∧
      spec.definitions.map (fun definition => (definition.name, definition.span)) =
        (statements tree).filterMap (asDefinition? file) ∧
      testCount tree =
        (TestNode.preorderOf spec.nodes).countP TestNode.isTest +
          ((statements tree).map hiddenTests).sum := by
  refine ⟨?_, ?_⟩
  · have hmap := congrArg Option.isSome (map_view_readBlock additive_nodeView file tree)
    rw [Option.isSome_map, Option.isSome_map, Failure.isSome_mapM] at hmap
    rw [ofTree, Option.isSome_map, hmap]
  · intro spec hspec
    obtain ⟨reading, hreading, rfl⟩ := Option.map_eq_some_iff.mp hspec
    have hnodes := eq_filterMap_of_readBlock additive_nodeView hreading
      fun statement hstatement own => nodeView_ownReading (hcallee statement hstatement)
    have hdefinitions := eq_filterMap_of_readBlock additive_definitionView hreading
      fun statement _ own => definitionView_ownReading
    refine ⟨hnodes, hdefinitions, ?_⟩
    have htests := congrArg (List.countP Prod.snd) hnodes
    rw [nodeView, List.countP_map, List.countP_filterMap] at htests
    simp only [getD_asNode?] at htests
    rw [testCount_eq, ← htests]
    rfl

/-- A suite with a test and with a suite that has an expression in place of a block. -/
def nestedSource : String :=
  "describe('a', () => \x7b it('b', x => \x7b\x7d); describe('c', () => it('d', x => x)) \x7d);"

theorem statements_accounted_nested :
    ∃ tree spec, Script.parse? nestedSource = some tree ∧
      (∀ statement ∈ statements tree, hasCallee statement = true) ∧
      (statements tree).length = 3 ∧ testCount tree = 2 ∧
      ofTree "a.cy.js" tree = some spec ∧
      (TestNode.preorderOf spec.nodes).map (fun node => (node.span, node.isTest)) =
        (statements tree).filterMap (asNode? "a.cy.js") ∧
      spec.definitions.map (fun definition => (definition.name, definition.span)) =
        (statements tree).filterMap (asDefinition? "a.cy.js") ∧
      testCount tree =
        (TestNode.preorderOf spec.nodes).countP TestNode.isTest +
          ((statements tree).map hiddenTests).sum := by
  have hfacts : (Script.parse? nestedSource).map (fun tree =>
      ((statements tree).all hasCallee, (statements tree).length, testCount tree,
        (ofTree "a.cy.js" tree).isSome)) = some (true, 3, 2, true) := by
    decide +kernel
  obtain ⟨tree, htree, hfacts⟩ := Option.map_eq_some_iff.mp hfacts
  simp only [Prod.mk.injEq, List.all_eq_true] at hfacts
  obtain ⟨hcallee, hlength, htests, hsome⟩ := hfacts
  obtain ⟨spec, hspec⟩ := Option.isSome_iff_exists.mp hsome
  exact ⟨tree, spec, htree, hcallee, hlength, htests, hspec,
    (statements_accounted hcallee).2 spec hspec⟩

/-- A suite with an expression in place of a block loses its test, and a registration whose
function is passed by name leaves nothing behind. -/
theorem test_and_registration_lost :
    ((Script.parse? "describe('a', () => it('b', () => \x7b cy.visit('/'); \x7d));").map testCount =
        some 1 ∧
      (SpecFile.ofSource "a.cy.js"
          "describe('a', () => it('b', () => \x7b cy.visit('/'); \x7d));").toOption.map
          (fun spec => (TestNode.preorderOf spec.nodes).countP TestNode.isTest) = some 0) ∧
    ((Script.parse? "Cypress.Commands.add('login', handler);").map
        (fun tree => (statements tree).map isRegistration) = some [true] ∧
      (SpecFile.ofSource "a.cy.js" "Cypress.Commands.add('login', handler);").toOption.map
          (fun spec => (spec.nodes.length, spec.definitions.length)) = some (0, 0)) := by
  refine ⟨⟨?_, ?_⟩, ?_, ?_⟩ <;> decide +kernel

end Spec
end SuiteShift
