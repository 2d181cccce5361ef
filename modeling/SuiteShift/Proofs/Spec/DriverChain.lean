import SuiteShift.Spec.Source
import Mathlib.Data.List.Chain

/-!
# Chains of calls on the driver object

A chain is walked from the outermost call inwards: from a call on a member to the object that has
the member, until that is the driver object.

- `receiver?`: the step inwards. Every step goes two levels down the tree, `height_receiver?`, so
  that the walk ends (`two_mul_length_lt_height`).
- `IsDriverCall`: a call on a member of the driver object or of such a call.
- `DriverChain`: such a call with the calls of its chain, the innermost first.
- `chainCalls?_eq_some_iff`, `unwind?_eq_some_iff`: the reader finds exactly these calls.
- `chain_unwound_in_order` puts these together.
-/

namespace SuiteShift
namespace Script
namespace Tree

mutual

/-- All nodes of a tree pass a test. -/
def allNodes (test : Tree → Bool) : Tree → Bool
  | .node kind role extent text children =>
    test (.node kind role extent text children) && allNodesOf test children

/-- All nodes of the trees of a list pass a test. -/
def allNodesOf (test : Tree → Bool) : List Tree → Bool
  | [] => Bool.true
  | tree :: trees => tree.allNodes test && allNodesOf test trees

end

mutual

/-- The number of levels of a tree. -/
def height : Tree → Nat
  | .node _ _ _ _ children => heightOf children + 1

/-- The number of levels of the highest tree of a list. -/
def heightOf : List Tree → Nat
  | [] => 0
  | tree :: trees => max tree.height (heightOf trees)

end

theorem allNodesOf_eq_all
    (test : Tree → Bool)
    (trees : List Tree) :
    allNodesOf test trees = trees.all (allNodes test) := by
  induction trees with
  | nil =>
      rfl
  | cons tree trees ih =>
      rw [allNodesOf, ih, List.all_cons]

theorem allNodes_iff
    {test : Tree → Bool}
    {tree : Tree} :
    tree.allNodes test = true ↔
      test tree = true ∧ ∀ child ∈ tree.children, child.allNodes test = true := by
  cases tree with
  | node kind role extent text children =>
      rw [allNodes, Bool.and_eq_true, allNodesOf_eq_all, List.all_eq_true]
      rfl

theorem height_le_heightOf
    {tree : Tree}
    {trees : List Tree}
    (h : tree ∈ trees) :
    tree.height ≤ heightOf trees := by
  induction trees with
  | nil =>
      cases h
  | cons first trees ih =>
      rw [heightOf]
      rcases List.mem_cons.mp h with rfl | h
      · exact Nat.le_max_left _ _
      · exact Nat.le_trans (ih h) (Nat.le_max_right _ _)

/-- A child has fewer levels than its parent. -/
theorem height_lt_of_child?
    {tree child : Tree}
    {role : Role}
    (h : tree.child? role = some child) :
    child.height < tree.height := by
  cases tree with
  | node kind role' extent text children =>
      exact Nat.lt_succ_of_le (height_le_heightOf (mem_children_of_child? h))

end Tree
end Script

namespace Spec

open Script (Tree Kind Role)

/-! ### One call -/

/-- The object on whose member a call is made. -/
def receiver? (tree : Tree) : Option Tree :=
  if tree.kind == .callExpression then
    ((tree.child? .function).filter fun function => function.kind == .memberExpression).bind
      fun function => function.child? .object
  else none

/-- The name of the member that is called, and the values of the arguments, without comments. -/
def methodCall? (tree : Tree) : Option Call :=
  ((tree.child? .function).bind fun function => function.child? .property).bind fun property =>
    (tree.child? .arguments).map fun list => ⟨property.text, (argumentNodes list).map valueOf⟩

/-- The driver object. -/
def isDriver (tree : Tree) : Bool :=
  tree.kind == .identifier && tree.text == "cy"

/-- A call has a function and arguments, and a member has an object and a property. -/
def hasParts (tree : Tree) : Bool :=
  match tree.kind with
  | .callExpression => (tree.child? .function).isSome && (tree.child? .arguments).isSome
  | .memberExpression => (tree.child? .object).isSome && (tree.child? .property).isSome
  | _ => true

theorem receiver?_eq_some_iff
    {tree object : Tree} :
    receiver? tree = some object ↔
      tree.kind = .callExpression ∧
      ∃ function, tree.child? .function = some function ∧
        function.kind = .memberExpression ∧ function.child? .object = some object := by
  simp [receiver?, Option.filter_eq_some_iff, Option.bind_eq_some_iff, and_assoc]

theorem exists_methodCall?
    {tree object : Tree}
    (hparts : tree.allNodes hasParts = true)
    (h : receiver? tree = some object) :
    (∃ call, methodCall? tree = some call) ∧ object.allNodes hasParts = true := by
  obtain ⟨hcall, function, hfunction, hmember, hobject⟩ := receiver?_eq_some_iff.mp h
  obtain ⟨htree, hchildren⟩ := Tree.allNodes_iff.mp hparts
  obtain ⟨hown, hinner⟩ :=
    Tree.allNodes_iff.mp (hchildren function (Tree.mem_children_of_child? hfunction))
  rw [hasParts, hcall] at htree
  rw [hasParts, hmember] at hown
  simp only [Bool.and_eq_true, Option.isSome_iff_exists] at htree hown
  obtain ⟨-, list, hlist⟩ := htree
  obtain ⟨-, property, hproperty⟩ := hown
  refine ⟨⟨⟨property.text, (argumentNodes list).map valueOf⟩, ?_⟩,
    hinner object (Tree.mem_children_of_child? hobject)⟩
  rw [methodCall?, hfunction, hlist, Option.bind_some, hproperty]
  rfl

/-! ### The walk inwards -/

/-- A step inwards goes two levels down. -/
theorem height_receiver?
    {tree object : Tree}
    (h : receiver? tree = some object) :
    object.height + 2 ≤ tree.height := by
  obtain ⟨-, function, hfunction, -, hobject⟩ := receiver?_eq_some_iff.mp h
  have hdown := Tree.height_lt_of_child? hfunction
  have hon := Tree.height_lt_of_child? hobject
  omega

/-- The walk inwards has no more steps than half the levels of the tree. -/
theorem two_mul_length_lt_height
    {tree : Tree}
    {inner : List Tree}
    (h : List.IsChain (fun outer object => receiver? outer = some object) (tree :: inner)) :
    2 * inner.length < tree.height := by
  induction inner generalizing tree with
  | nil =>
      cases tree
      exact Nat.succ_pos _
  | cons object inner ih =>
      obtain ⟨hstep, hrest⟩ := List.isChain_cons_cons.mp h
      have hobject := ih hrest
      have htree := height_receiver? hstep
      rw [List.length_cons]
      omega

/-- A statement about trees holds of all of them if it holds of a tree whenever it holds of the
object that the tree makes a call on. -/
theorem receiver_induction
    {P : Tree → Prop}
    (step : ∀ tree, (∀ object, receiver? tree = some object → P object) → P tree)
    (tree : Tree) :
    P tree := by
  refine step tree fun object hobject => ?_
  have hlevels := height_receiver? hobject
  exact receiver_induction step object
termination_by tree.height

/-- A call that has its parts is one on a member or on no member. -/
theorem receiver?_of_parts
    {tree function list : Tree}
    (hcall : tree.kind = .callExpression)
    (hfunction : tree.child? .function = some function)
    (hlist : tree.child? .arguments = some list) :
    receiver? tree =
      (if function.kind == .memberExpression then function.child? .object else none) ∧
    methodCall? tree =
      (function.child? .property).map fun property =>
        ⟨property.text, (argumentNodes list).map valueOf⟩ := by
  rw [receiver?, methodCall?, hcall, hfunction, hlist, Option.filter_some, Option.bind_some]
  refine ⟨?_, ?_⟩
  · cases function.kind == .memberExpression <;> rfl
  · cases function.child? .property <;> rfl

theorem receiver?_or_methodCall?_eq_none
    {tree : Tree}
    (h : ∀ function list, tree.child? .function = some function →
      tree.child? .arguments = some list → False) :
    receiver? tree = none ∨ methodCall? tree = none := by
  rw [receiver?, methodCall?]
  cases hfunction : tree.child? .function with
  | none =>
      exact .inl (by simp)
  | some function =>
      cases hlist : tree.child? .arguments with
      | none =>
          exact .inr (by simp)
      | some list =>
          exact (h function list hfunction hlist).elim

/-- One round of the reader: where it stops without a call, there is no object or no call. -/
theorem chainCalls?_eq
    (tree : Tree) :
    chainCalls? tree =
      (receiver? tree).bind fun object =>
        (methodCall? tree).bind fun call =>
          if isDriver object then some [call] else (chainCalls? object).map (call :: ·) := by
  rw [chainCalls?]
  split_ifs with hkind
  · rw [receiver?, if_neg (by simpa using hkind)]
    rfl
  · split
    · next function list hfunction hlist =>
        have hcall : tree.kind = .callExpression := by
          simpa using hkind
        obtain ⟨hreceiver, hmethod⟩ := receiver?_of_parts hcall hfunction hlist
        rw [hreceiver, hmethod]
        split_ifs with hmember hother hother
        · rw [bne_iff_ne] at hmember
          exact absurd (beq_iff_eq.mp hother) hmember
        · rfl
        · split
          · next object property hobject hproperty =>
              simp [hobject, hproperty, isDriver]
          · next hmissing =>
              cases hobject : function.child? .object with
              | none =>
                  rfl
              | some object =>
                  cases hproperty : function.child? .property with
                  | none =>
                      rfl
                  | some property =>
                      exact (hmissing object property hobject hproperty).elim
        · rw [bne_iff_ne, not_not] at hmember
          exact absurd (beq_iff_eq.mpr hmember) hother
    · next hmissing =>
        rcases receiver?_or_methodCall?_eq_none hmissing with hnone | hnone
        · rw [hnone]
          rfl
        · cases receiver? tree <;> simp [hnone]

/-! ### Chains -/

/-- A call on a member of the driver object, or of such a call. -/
inductive IsDriverCall : Tree → Prop
  | base
      {tree object : Tree}
      (hreceiver : receiver? tree = some object)
      (hdriver : isDriver object = true) :
      IsDriverCall tree
  | call
      {tree object : Tree}
      (hreceiver : receiver? tree = some object)
      (inner : IsDriverCall object) :
      IsDriverCall tree

/-- A tree with the calls of its chain, from the innermost to the outermost. -/
inductive DriverChain : Tree → List Call → Prop
  | base
      {tree object : Tree}
      {call : Call}
      (hreceiver : receiver? tree = some object)
      (hcall : methodCall? tree = some call)
      (hdriver : isDriver object = true) :
      DriverChain tree [call]
  | call
      {tree object : Tree}
      {call : Call}
      {calls : List Call}
      (hreceiver : receiver? tree = some object)
      (hcall : methodCall? tree = some call)
      (inner : DriverChain object calls) :
      DriverChain tree (calls ++ [call])

/-- The driver object is no call. -/
theorem isDriver_eq_false_of_receiver?
    {tree object : Tree}
    (h : receiver? tree = some object) :
    isDriver tree = false := by
  rw [isDriver, (receiver?_eq_some_iff.mp h).1]
  rfl

theorem DriverChain.isDriver_eq_false
    {tree : Tree}
    {calls : List Call}
    (h : DriverChain tree calls) :
    isDriver tree = false := by
  cases h with
  | base hreceiver hcall hdriver =>
      exact isDriver_eq_false_of_receiver? hreceiver
  | call hreceiver hcall inner =>
      exact isDriver_eq_false_of_receiver? hreceiver

theorem DriverChain.isDriverCall
    {tree : Tree}
    {calls : List Call}
    (h : DriverChain tree calls) :
    IsDriverCall tree := by
  induction h with
  | base hreceiver hcall hdriver =>
      exact .base hreceiver hdriver
  | call hreceiver hcall inner ih =>
      exact .call hreceiver ih

theorem DriverChain.ne_nil
    {tree : Tree}
    {calls : List Call}
    (h : DriverChain tree calls) :
    calls ≠ [] := by
  cases h <;> simp

/-- Where no call lacks a part, the calls on the driver object are the chains. -/
theorem exists_driverChain_iff
    {tree : Tree}
    (hparts : tree.allNodes hasParts = true) :
    (∃ calls, DriverChain tree calls) ↔ IsDriverCall tree := by
  constructor
  · rintro ⟨calls, h⟩
    exact h.isDriverCall
  · intro h
    induction h with
    | base hreceiver hdriver =>
        obtain ⟨⟨call, hcall⟩, -⟩ := exists_methodCall? hparts hreceiver
        exact ⟨[call], .base hreceiver hcall hdriver⟩
    | call hreceiver inner ih =>
        obtain ⟨⟨call, hcall⟩, hobject⟩ := exists_methodCall? hparts hreceiver
        obtain ⟨calls, hcalls⟩ := ih hobject
        exact ⟨calls ++ [call], .call hreceiver hcall hcalls⟩

/-! ### What the reader finds -/

theorem driverChain_of_chainCalls?
    {tree : Tree}
    {calls : List Call}
    (h : chainCalls? tree = some calls) :
    DriverChain tree calls.reverse := by
  induction tree using receiver_induction generalizing calls with
  | step tree ih =>
      rw [chainCalls?_eq, Option.bind_eq_some_iff] at h
      obtain ⟨object, hreceiver, h⟩ := h
      obtain ⟨call, hcall, h⟩ := Option.bind_eq_some_iff.mp h
      split_ifs at h with hdriver
      · cases h
        exact .base hreceiver hcall hdriver
      · obtain ⟨inner, hinner, rfl⟩ := Option.map_eq_some_iff.mp h
        rw [List.reverse_cons]
        exact .call hreceiver hcall (ih object hreceiver hinner)

theorem DriverChain.chainCalls?_eq
    {tree : Tree}
    {calls : List Call}
    (h : DriverChain tree calls) :
    chainCalls? tree = some calls.reverse := by
  induction h with
  | base hreceiver hcall hdriver =>
      rw [Spec.chainCalls?_eq, hreceiver, Option.bind_some, hcall, Option.bind_some, if_pos hdriver]
      rfl
  | call hreceiver hcall inner ih =>
      rw [Spec.chainCalls?_eq, hreceiver, Option.bind_some, hcall, Option.bind_some,
        if_neg (by simp [inner.isDriver_eq_false]), ih, List.reverse_append]
      rfl

theorem chainCalls?_eq_some_iff
    {tree : Tree}
    {calls : List Call} :
    chainCalls? tree = some calls ↔ DriverChain tree calls.reverse := by
  refine ⟨driverChain_of_chainCalls?, ?_⟩
  intro h
  rw [h.chainCalls?_eq, List.reverse_reverse]

theorem unwind?_eq_some_iff
    {tree : Tree}
    {command : Command} :
    unwind? tree = some command ↔
      DriverChain tree (⟨command.name, command.args⟩ :: command.calls) := by
  constructor
  · intro h
    unfold unwind? at h
    split at h
    · next base calls hcalls =>
        obtain ⟨outer, houter, hreverse⟩ := Option.map_eq_some_iff.mp hcalls
        cases h
        rw [← hreverse]
        exact chainCalls?_eq_some_iff.mp houter
    · cases h
  · intro h
    rw [unwind?, h.chainCalls?_eq, Option.map_some, List.reverse_reverse]

/-- A tree is read as a command exactly if it is a call on a member of the driver object or of such
a call, provided that no call in it lacks a part. The command is the innermost call, followed by the
other ones outwards, each with the values of its arguments. The walk inwards ends after at most half
as many steps as the tree has levels. -/
theorem chain_unwound_in_order
    (tree : Tree) :
    (tree.allNodes hasParts = true → ((unwind? tree).isSome = true ↔ IsDriverCall tree)) ∧
    (∀ command, unwind? tree = some command ↔
      DriverChain tree (⟨command.name, command.args⟩ :: command.calls)) ∧
    ∀ inner, List.IsChain (fun outer object => receiver? outer = some object) (tree :: inner) →
      2 * inner.length < tree.height := by
  refine ⟨?_, fun command => unwind?_eq_some_iff, fun inner => two_mul_length_lt_height⟩
  intro hparts
  rw [← exists_driverChain_iff hparts, Option.isSome_iff_exists]
  constructor
  · rintro ⟨command, h⟩
    exact ⟨_, unwind?_eq_some_iff.mp h⟩
  · rintro ⟨calls, h⟩
    obtain ⟨base, outer, rfl⟩ := List.exists_cons_of_ne_nil h.ne_nil
    exact ⟨⟨base.method, base.args, outer⟩, unwind?_eq_some_iff.mpr h⟩

/-- A chain of three calls, with a comment among the arguments. -/
def chainSource : String :=
  "cy.get('a', /* all */ true).find(\x60b\x60).click();"

theorem chain_unwound_in_order_click :
    ∃ tree,
      ((Script.parse? chainSource).bind fun program =>
        program.children.head?.bind expressionOf?) = some tree ∧
      tree.allNodes hasParts = true ∧
      IsDriverCall tree ∧
      DriverChain tree [⟨"get", [.string "a", .bool true]⟩, ⟨"find", [.string "b"]⟩, ⟨"click", []⟩] ∧
      tree.height = 7 := by
  have hfacts : ((Script.parse? chainSource).bind fun program =>
      program.children.head?.bind expressionOf?).map (fun tree =>
        (tree.allNodes hasParts, unwind? tree, tree.height)) =
      some (true, some ⟨"get", [.string "a", .bool true],
        [⟨"find", [.string "b"]⟩, ⟨"click", []⟩]⟩, 7) := by
    decide +kernel
  obtain ⟨tree, htree, hfacts⟩ := Option.map_eq_some_iff.mp hfacts
  simp only [Prod.mk.injEq] at hfacts
  obtain ⟨hparts, hcommand, hheight⟩ := hfacts
  obtain ⟨hread, hchain, -⟩ := chain_unwound_in_order tree
  exact ⟨tree, htree, hparts, (hread hparts).mp (by rw [hcommand]; rfl),
    (hchain _).mp hcommand, hheight⟩

end Spec
end SuiteShift
