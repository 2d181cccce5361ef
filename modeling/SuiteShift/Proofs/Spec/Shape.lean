import SuiteShift.Spec.Reader
import SuiteShift.Proofs.Text.Search
import Mathlib.Data.String.Basic

/-!
# What a statement at block level is

The reader tells suites, tests and registrations by the name that is called and by the function
that is passed last. Here the names are listed, and `shape` is compared with the lists.

- `calleeParts?_eq_some_iff`: which callees a name with its modifiers has.
- `isSuite`, `isTest`, `isRegistration`, `isSetup`: the kinds of statements by name.
- `kinds_shape`, `isSetup_shape`: the reader agrees with them.
-/

namespace SuiteShift
namespace Spec

open Script (Tree Kind Role)

/-! ### Names -/

/-- The callee for a name with a modifier. -/
def calleeWith (base : String) : Modifier → String
  | .none => base
  | .only => base ++ ".only"
  | .skip => base ++ ".skip"

/-- The callees for names, with and without modifiers. -/
def modified (bases : List String) : List String :=
  bases.flatMap fun base => [.none, .only, .skip].map (calleeWith base)

theorem modifierOf?_eq_some_iff
    {property : String}
    {modifier : Modifier} :
    modifierOf? property = some modifier ↔
      property = "only" ∧ modifier = .only ∨ property = "skip" ∧ modifier = .skip := by
  unfold modifierOf?
  by_cases honly : property = "only"
  · subst honly
    simp [eq_comm]
  · by_cases hskip : property = "skip"
    · subst hskip
      simp [List.lookup_cons, eq_comm]
    · simp [List.lookup_cons, honly, hskip, beq_eq_false_iff_ne.mpr honly,
        beq_eq_false_iff_ne.mpr hskip]

/-- A callee consists of a name without dots and a modifier in one way only. -/
theorem calleeParts?_eq_some_iff
    {base : String}
    (hbase : '.' ∉ base.toList)
    {callee : List Char}
    {modifier : Modifier} :
    calleeParts? callee = some (base, modifier) ↔ callee = (calleeWith base modifier).toList := by
  constructor
  · intro h
    unfold calleeParts? at h
    split at h
    · next before property hsplit =>
        rw [Option.map_eq_some_iff] at h
        obtain ⟨named, hnamed, h⟩ := h
        cases h
        rw [modifierOf?_eq_some_iff, String.ofList_eq, String.ofList_eq] at hnamed
        rw [Text.splitOnce_eq_append hsplit]
        rcases hnamed with ⟨rfl, rfl⟩ | ⟨rfl, rfl⟩ <;> simp [calleeWith]
    · cases h
      exact String.toList_ofList.symm
  · rintro rfl
    cases modifier with
    | none =>
        simp [calleeParts?, calleeWith, Text.splitOnce_singleton_of_not_mem hbase]
    | only =>
        have hcallee : (calleeWith base .only).toList = base.toList ++ '.' :: "only".toList := by
          simp [calleeWith]
        rw [calleeParts?, hcallee, Text.splitOnce_singleton_append hbase]
        simp [modifierOf?]
    | skip =>
        have hcallee : (calleeWith base .skip).toList = base.toList ++ '.' :: "skip".toList := by
          simp [calleeWith]
        rw [calleeParts?, hcallee, Text.splitOnce_singleton_append hbase]
        simp [modifierOf?, List.lookup_cons]

/-- A callee is listed if the name in it is. -/
theorem contains_modified
    {bases : List String}
    (hbases : ∀ base ∈ bases, '.' ∉ base.toList)
    (callee : List Char) :
    (modified bases).contains (String.ofList callee) =
      (calleeParts? callee).any fun parts => bases.contains parts.1 := by
  rw [Bool.eq_iff_iff, List.contains_iff_mem, Option.any_eq_true]
  constructor
  · intro h
    obtain ⟨base, hbase, h⟩ := List.mem_flatMap.mp h
    obtain ⟨modifier, -, h⟩ := List.mem_map.mp h
    exact ⟨(base, modifier),
      (calleeParts?_eq_some_iff (hbases base hbase)).mpr (String.ofList_eq.mp h.symm),
      List.contains_iff_mem.mpr hbase⟩
  · rintro ⟨⟨base, modifier⟩, h, hbase⟩
    rw [List.contains_iff_mem] at hbase
    rw [calleeParts?_eq_some_iff (hbases base hbase)] at h
    rw [h, String.ofList_toList, modified, List.mem_flatMap]
    refine ⟨base, hbase, List.mem_map_of_mem ?_⟩
    cases modifier <;> decide

/-! ### Calls -/

/-- The callee of a call, without blanks. -/
def callee? (call : Tree) : Option String :=
  (call.child? .function).map fun callee => String.ofList (Text.words callee.text.toList).flatten

/-- A call at block level has a callee, as every call has. -/
def hasCallee (statement : Tree) : Bool :=
  (callOf? statement).all fun call => (callee? call).isSome

/-- The names of suites. -/
def suiteNames : List String :=
  modified ["describe", "context"]

/-- The names of tests. -/
def testNames : List String :=
  modified ["it", "specify"]

/-- The names of the functions that register custom commands. -/
def registrationNames : List String :=
  ["Cypress.Commands.add", "Cypress.Commands.overwrite"]

/-- The two functions that register a custom command. -/
inductive Registrar where
  | add
  /-- Puts another command in the place of one that is there. -/
  | overwrite
deriving DecidableEq, Repr

/-- The name of the function. -/
def Registrar.callee : Registrar → String
  | .add => "Cypress.Commands.add"
  | .overwrite => "Cypress.Commands.overwrite"

/-- The call is of one of the names. -/
def isCallOf (names : List String) (call : Tree) : Bool :=
  (callee? call).any names.contains

/-- A call with a suite's name and a function. -/
def isSuiteCall (call : Tree) : Bool :=
  isCallOf suiteNames call && (callbackOf? call).isSome

/-- A call with a test's name and a function. -/
def isTestCall (call : Tree) : Bool :=
  isCallOf testNames call && (callbackOf? call).isSome

/-! ### Statements -/

/-- A suite. -/
def isSuite (statement : Tree) : Bool :=
  (callOf? statement).any isSuiteCall

/-- A test. -/
def isTest (statement : Tree) : Bool :=
  (callOf? statement).any isTestCall

/-- The registration of a custom command. -/
def isRegistration (statement : Tree) : Bool :=
  (callOf? statement).any (isCallOf registrationNames)

/-- An import or a comment that only sets up the driver. -/
def isSetup (statement : Tree) : Bool :=
  statement.kind == .importStatement && isSetupImport statement ||
    statement.kind == .comment &&
      Text.startsWith "/// <reference".toList statement.text.toList

namespace Shape

/-- The shape of a suite. -/
def isSuite : Shape → Bool
  | .suite _ _ => true
  | _ => false

/-- The shape of a test. -/
def isTest : Shape → Bool
  | .test _ _ _ => true
  | _ => false

/-- The shape of a registration. -/
def isRegistration : Shape → Bool
  | .registration _ => true
  | _ => false

/-- The shape of what is left out. -/
def isSetup : Shape → Bool
  | .setup => true
  | _ => false

end Shape

/-! ### Agreement -/

/-- The kinds of a call by its name and its last argument. -/
theorem kinds_callShape
    (call : Tree)
    (callee : List Char) :
    (callShape call callee).isRegistration = registrationNames.contains (String.ofList callee) ∧
    (callShape call callee).isSuite =
      (suiteNames.contains (String.ofList callee) && (callbackOf? call).isSome) ∧
    (callShape call callee).isTest =
      (testNames.contains (String.ofList callee) && (callbackOf? call).isSome) ∧
    (callShape call callee).isSetup = false := by
  cases hregistration : registrationNames.contains (String.ofList callee) with
  | true =>
      have hothers : ∀ name ∈ registrationNames,
          suiteNames.contains name = false ∧ testNames.contains name = false := by
        decide
      obtain ⟨hsuite, htest⟩ := hothers _ (List.contains_iff_mem.mp hregistration)
      have hshape : callShape call callee = .registration call := by
        unfold callShape
        exact if_pos hregistration
      rw [hshape, hsuite, htest]
      exact ⟨rfl, rfl, rfl, rfl⟩
  | false =>
      have hsuite := @contains_modified ["describe", "context"] (by decide) callee
      have htest := @contains_modified ["it", "specify"] (by decide) callee
      unfold registrationNames at hregistration
      rw [suiteNames, testNames, hsuite, htest]
      simp only [callShape, hregistration, Bool.false_eq_true, if_false]
      cases calleeParts? callee with
      | none =>
          exact ⟨rfl, rfl, rfl, rfl⟩
      | some parts =>
          obtain ⟨base, modifier⟩ := parts
          cases callbackOf? call with
          | none =>
              exact ⟨rfl, (Bool.and_false _).symm, (Bool.and_false _).symm, rfl⟩
          | some callback =>
              simp only [Option.any_some, List.contains_cons, List.contains_nil, Bool.or_false,
                Option.isSome_some, Bool.and_true]
              cases hdescribe : base == "describe" || base == "context" with
              | true =>
                  have hit : (base == "it" || base == "specify") = false := by
                    rw [Bool.or_eq_true, beq_iff_eq, beq_iff_eq] at hdescribe
                    rcases hdescribe with rfl | rfl <;> decide
                  rw [hit]
                  exact ⟨rfl, rfl, rfl, rfl⟩
              | false =>
                  cases base == "it" || base == "specify" with
                  | true =>
                      exact ⟨rfl, rfl, rfl, rfl⟩
                  | false =>
                      -- What is left is a hook or a plain call.
                      simp only [Bool.false_eq_true, if_false]
                      split_ifs
                      · cases HookKind.ofName? base <;> exact ⟨rfl, rfl, rfl, rfl⟩
                      · exact ⟨rfl, rfl, rfl, rfl⟩

theorem kind_of_callOf?
    {statement call : Tree}
    (h : callOf? statement = some call) :
    statement.kind = .expressionStatement := by
  unfold callOf? expressionOf? at h
  split_ifs at h with hkind
  · exact beq_iff_eq.mp hkind
  · cases h

theorem shape_of_callOf?
    {statement call : Tree}
    (h : callOf? statement = some call) :
    shape statement =
      match call.child? .function with
      | some callee => callShape call (Text.words callee.text.toList).flatten
      | none => .setup := by
  cases hfunction : call.child? .function <;> simp only [shape, kind_of_callOf? h, h, hfunction]

/-- A statement that is no call is left out, or it is kept as text. -/
theorem shape_of_callOf?_eq_none
    {statement : Tree}
    (h : callOf? statement = none) :
    shape statement = if isSetup statement then .setup else .text := by
  unfold shape isSetup
  generalize Text.startsWith "/// <reference".toList statement.text.toList = reference
  split
  · next hkind =>
      rw [hkind]
      cases isSetupImport statement <;> rfl
  · next hkind =>
      rw [hkind]
      cases reference <;> rfl
  · next hkind =>
      rw [hkind, h]
      rfl
  · next himport hcomment _ =>
      rw [beq_eq_false_iff_ne.mpr himport, beq_eq_false_iff_ne.mpr hcomment]
      rfl

/-- The reader tells registrations, suites and tests by their names. -/
theorem kinds_shape
    (statement : Tree) :
    (shape statement).isRegistration = isRegistration statement ∧
    (shape statement).isSuite = isSuite statement ∧
    (shape statement).isTest = isTest statement := by
  cases hcall : callOf? statement with
  | none =>
      rw [shape_of_callOf?_eq_none hcall, isRegistration, isSuite, isTest, hcall]
      cases isSetup statement <;> exact ⟨rfl, rfl, rfl⟩
  | some call =>
      rw [shape_of_callOf? hcall, isRegistration, isSuite, isTest, hcall]
      simp only [Option.any_some, isSuiteCall, isTestCall, isCallOf, callee?]
      cases call.child? .function with
      | none =>
          exact ⟨rfl, rfl, rfl⟩
      | some callee =>
          obtain ⟨hregistration, hsuite, htest, -⟩ :=
            kinds_callShape call (Text.words callee.text.toList).flatten
          simp only [Option.map_some, Option.any_some]
          exact ⟨hregistration, hsuite, htest⟩

/-- The reader leaves out what only sets up the driver, provided that every call has a callee. -/
theorem isSetup_shape
    {statement : Tree}
    (hcallee : hasCallee statement = true) :
    (shape statement).isSetup = isSetup statement := by
  cases hcall : callOf? statement with
  | none =>
      rw [shape_of_callOf?_eq_none hcall]
      cases isSetup statement <;> rfl
  | some call =>
      have hsetup : isSetup statement = false := by
        rw [isSetup, kind_of_callOf? hcall]
        rfl
      rw [hasCallee, hcall, Option.all_some, callee?] at hcallee
      rw [shape_of_callOf? hcall, hsetup]
      cases hfunction : call.child? .function with
      | none =>
          rw [hfunction] at hcallee
          cases hcallee
      | some callee =>
          exact (kinds_callShape call _).2.2.2

end Spec
end SuiteShift
