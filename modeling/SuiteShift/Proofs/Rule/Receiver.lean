import SuiteShift.Proofs.Rule.Code

/-!
# Calls keep their receiver

The code of a chained call begins with the locator that the call works on, and a condition names
the locator. Two methods are different: `wait` pauses the page whatever it is called on, and `as`
leaves nothing.

- `Extends`: text that goes on after a locator.
- `ChainRule.extends_apply`: actions and refinements.
- `AssertionRule.mentions_transform`: conditions.
-/

namespace SuiteShift
namespace Rule

open Failure (Yields yields_ok yields_error yields_bind)

/-- The text goes on after the locator. -/
def Extends (locator text : String) : Prop :=
  ∃ rest, rest ≠ "" ∧ text = locator ++ rest

namespace Extends

variable {locator text : String}

theorem append
    {rest : String}
    (h : rest ≠ "") :
    Extends locator (locator ++ rest) := by
  exact ⟨rest, h, rfl⟩

theorem append_right
    (h : Extends locator text)
    (rest : String) :
    Extends locator (text ++ rest) := by
  obtain ⟨middle, hmiddle, rfl⟩ := h
  refine ⟨middle ++ rest, ?_, String.append_assoc⟩
  simp [hmiddle]

/-- A call of something on the locator. -/
theorem call
    {opening : String}
    (h : opening ≠ "")
    (inside closing : String) :
    Extends locator (locator ++ opening ++ inside ++ closing) := by
  exact ((append h).append_right inside).append_right closing

theorem ne_empty
    (h : Extends locator text) :
    text ≠ "" := by
  obtain ⟨rest, hrest, rfl⟩ := h
  simp [hrest]

theorem ne_self
    (h : Extends locator text) :
    text ≠ locator := by
  obtain ⟨rest, hrest, rfl⟩ := h
  simpa using hrest

theorem occursIn
    (h : Extends locator text) :
    occursIn locator text = true := by
  obtain ⟨rest, -, rfl⟩ := h
  simpa using occursIn_between "" locator rest

end Extends

/-! ### Actions and refinements -/

/-- A template that opens with the locator's place and goes on to a parenthesis. -/
theorem extends_renderTemplate
    {template : String}
    (locator : String)
    (args : List Value)
    (hstart : Text.startsWith locatorMark template.toList = true)
    (hmore : '(' ∈ template.toList) :
    Extends locator (renderTemplate template locator args) := by
  unfold renderTemplate
  cases htemplate : template.toList with
  | nil =>
      simp [htemplate] at hmore
  | cons c cs =>
      rw [htemplate] at hstart hmore
      rw [renderFrom, if_pos hstart, String.ofList_append, String.ofList_toList]
      refine Extends.append fun hempty => ?_
      have hmem : '(' ∈ renderFrom locator.toList (Value.codeList args).toList
          (locatorMark.length - 1) cs := by
        refine mem_renderFrom _ _ (by decide) (by decide) _ _ ?_
        exact mem_drop_of_startsWith (by decide) (by decide) hstart hmore
      rw [String.ofList_eq_empty_iff] at hempty
      rw [hempty] at hmem
      simp at hmem

theorem extends_strokeCall
    (locator : String)
    (isFirst : Bool)
    (stroke : Keystroke) :
    Extends locator (strokeCall locator isFirst stroke) := by
  cases stroke with
  | text chars =>
      unfold strokeCall
      refine Extends.call ?_ _ _
      cases isFirst <;> simp
  | key written key =>
      exact Extends.call (by simp) _ _

/-- The first stroke is on the locator, so all of them together begin with it. -/
theorem extends_strokeCalls
    (locator : String)
    {strokes : List Keystroke}
    (h : strokes ≠ []) :
    Extends locator (";\nawait ".intercalate (strokeCalls locator strokes)) := by
  cases strokes with
  | nil =>
      exact absurd rfl h
  | cons first rest =>
      have hfirst := extends_strokeCall locator true first
      cases rest with
      | nil =>
          rw [strokeCalls, List.map_nil, String.intercalate_singleton]
          exact hfirst
      | cons second rest =>
          rw [strokeCalls, List.map_cons, String.intercalate_cons_cons]
          exact (hfirst.append_right _).append_right _

theorem extends_typeText
    (locator : String)
    (args : List Value) :
    Yields (Extends locator) (typeText locator args) := by
  refine yields_bind fun typed _ => ?_
  split
  · exact yields_ok (extends_strokeCalls locator (keystrokes_ne_nil _))
  · exact yields_ok (Extends.call (by simp) _ _)

theorem extends_invoke
    (locator : String)
    (args : List Value) :
    Yields (Extends locator) (invoke locator args) := by
  refine yields_bind fun key _ => ?_
  split_ifs
  · exact yields_ok (Extends.append (by simp))
  · exact yields_ok (Extends.append (by simp))
  · exact yields_ok (Extends.append (by simp))
  · refine yields_bind fun name _ => ?_
    exact yields_ok (Extends.call (by simp) _ _)
  · exact yields_error _

theorem extends_its
    (locator : String)
    (args : List Value) :
    Yields (Extends locator) (its locator args) := by
  refine yields_bind fun key _ => ?_
  split_ifs
  · exact yields_ok (Extends.append (by simp))
  · exact yields_error _

/-- A call with the code of one argument in it. -/
theorem extends_required
    {args : List Value}
    {command opening closing : String}
    {index : Nat}
    (locator : String)
    (h : opening ≠ "") :
    Yields (Extends locator) (do
      let value ← required args command index
      .ok (locator ++ opening ++ value.code ++ closing)) := by
  refine yields_bind fun value _ => ?_
  exact yields_ok (Extends.call h _ _)

theorem extends_nth
    (locator : String)
    (args : List Value) :
    Yields (Extends locator) (nth locator args) := by
  refine yields_bind fun index _ => ?_
  split
  · exact yields_ok (Extends.call (by simp) _ _)
  · exact yields_ok (Extends.call (by simp) _ _)
  · exact yields_error _

theorem extends_children
    (locator : String)
    (args : List Value) :
    Yields (Extends locator) (children locator args) := by
  unfold children
  split
  · exact yields_ok (Extends.call (by simp) _ _)
  · exact yields_ok (Extends.append (by simp))

/-- Every action and refinement works on the locator, except a pause of the page. -/
theorem ChainRule.extends_apply
    {rule : ChainRule}
    (h : rule ∈ chainRules)
    (hwait : rule.method ≠ "wait")
    (has : rule.method ≠ "as")
    (locator : String)
    (args : List Value) :
    Yields (Extends locator) (rule.apply locator args) := by
  have hplain : ∀ {rest : String}, rest ≠ "" →
      Yields (Extends locator) (.ok (locator ++ rest) : Code) := by
    intro rest hrest
    exact yields_ok (Extends.append hrest)
  have htemplate : ∀ {template : String}, Text.startsWith locatorMark template.toList = true →
      '(' ∈ template.toList →
      Yields (Extends locator) (.ok (renderTemplate template locator args) : Code) := by
    intro template hstart hmore
    exact yields_ok (extends_renderTemplate locator args hstart hmore)
  have hoptions : ∀ method, Yields (Extends locator) (withOptions method locator args) := by
    intro method
    exact yields_ok ((Extends.call (by simp) method "(").append_right _ |>.append_right _)
  have hall : ∀ rule ∈ chainRules, rule.method ≠ "wait" → rule.method ≠ "as" →
      Yields (Extends locator) (rule.apply locator args) := by
    simp only [chainRules, List.forall_mem_cons, actionTransform, actionTemplate,
      ChainRule.apply, List.not_mem_nil, false_implies, implies_true, and_true, ne_eq,
      String.reduceEq, not_false_eq_true, not_true_eq_false, forall_const, hoptions,
      extends_typeText, extends_invoke, extends_its, extends_nth, extends_children, true_and]
    refine ⟨?_, ?_, ?_, ?_, ?_, ?_, ?_, extends_required locator (by simp), ?_, ?_,
      extends_required locator (by simp), hplain (by simp), hplain (by simp),
      extends_required locator (by simp), hplain (by simp)⟩
    all_goals exact htemplate (by decide) (by decide)
  exact hall rule h hwait has

/-! ### Conditions -/

/-- Code that names the locator. -/
def Mentions (locator : String) (code : Code) : Prop :=
  Yields (fun text => occursIn locator text = true) code

theorem mentions_notExist
    (locator : String)
    (args : List Value) :
    Mentions locator (notExist locator args) := by
  exact yields_ok (occursIn_between _ _ _)

theorem mentions_haveClass
    (locator : String)
    (args : List Value) :
    Mentions locator (haveClass locator args) := by
  refine yields_bind fun pattern _ => yields_ok ?_
  exact occursIn_append_right (occursIn_append_right (occursIn_between _ _ _) _) _

theorem mentions_notHaveClass
    (locator : String)
    (args : List Value) :
    Mentions locator (notHaveClass locator args) := by
  refine yields_bind fun pattern _ => yields_ok ?_
  exact occursIn_append_right (occursIn_append_right (occursIn_between _ _ _) _) _

theorem mentions_countComparison
    (command matcher locator : String)
    (args : List Value) :
    Mentions locator (countComparison command matcher locator args) := by
  refine yields_bind fun bound _ => yields_ok ?_
  have hcount := occursIn_between "expect(await " locator ".count())."
  exact occursIn_append_right (occursIn_append_right (occursIn_append_right
    (occursIn_append_right hcount _) _) _) _

/-- Every condition with a function names the locator. -/
theorem AssertionRule.mentions_transform
    {rule : AssertionRule}
    {apply : String → List Value → Code}
    (h : rule ∈ assertionRules)
    (hbody : rule.body = .transform apply)
    (locator : String)
    (args : List Value) :
    Mentions locator (apply locator args) := by
  have hall : ∀ rule ∈ assertionRules, ∀ apply,
      rule.body = .transform apply → Mentions locator (apply locator args) := by
    simp only [assertionRules, List.forall_mem_cons, matcher, expectation, List.not_mem_nil,
      false_implies, implies_true, and_true, reduceCtorEq, Body.transform.injEq,
      forall_eq', mentions_notExist, mentions_haveClass, mentions_notHaveClass, countGreater,
      countAtLeast, countLess, countAtMost, mentions_countComparison]
  exact hall rule h apply hbody

end Rule
end SuiteShift
