import SuiteShift.Rule.Command
import SuiteShift.Rule.Chain
import SuiteShift.Rule.Assertion
import SuiteShift.Proofs.Failure
import SuiteShift.Proofs.Literal.Identifier
import SuiteShift.Proofs.Text.Search

/-!
# Rules write something

A rule that does not refuse its arguments gives code that is not empty.

- `Writes` is this property of a single code; it passes through `bind`.
- `mem_renderFrom`: a character of a template that belongs to no placeholder is kept.
- `CommandRule.writes_code`, `ChainRule.writes_apply`, `AssertionRule.writes_transform`: the three
  tables.
-/

namespace SuiteShift
namespace Rule

open Failure (Yields yields_ok yields_error yields_bind)

/-- Code that is refused or not empty. -/
def Writes (code : Code) : Prop :=
  Yields (· ≠ "") code

theorem writes_ok
    {text : String}
    (h : text ≠ "") :
    Writes (.ok text) := by
  exact yields_ok h

theorem writes_error
    (reason : RuleError) :
    Writes (.error reason) := by
  exact yields_error reason

theorem writes_bind
    {α : Type}
    {step : Except RuleError α}
    {next : α → Code}
    (h : ∀ value, Writes (next value)) :
    Writes (step >>= next) := by
  exact yields_bind fun value _ => h value

/-- What is left of a text after a placeholder at its beginning is skipped. -/
theorem drop_of_startsWith
    {mark template : List Char}
    {d : Char}
    (hmark : mark ≠ [])
    (h : Text.startsWith mark (d :: template) = true) :
    d :: template = mark ++ template.drop (mark.length - 1) := by
  obtain ⟨rest, hrest⟩ := Text.startsWith_iff.mp h
  cases mark with
  | nil =>
      exact absurd rfl hmark
  | cons p ps =>
      rw [List.cons_append, List.cons.injEq] at hrest
      obtain ⟨rfl, rfl⟩ := hrest
      simp

/-- A character that is not in a placeholder is in what follows it. -/
theorem mem_drop_of_startsWith
    {mark template : List Char}
    {c d : Char}
    (hc : c ∉ mark)
    (hmark : mark ≠ [])
    (h : Text.startsWith mark (d :: template) = true)
    (hmem : c ∈ d :: template) :
    c ∈ template.drop (mark.length - 1) := by
  rw [drop_of_startsWith hmark h] at hmem
  exact (List.mem_append.mp hmem).resolve_left hc

/-- Rendering keeps every character of the template that belongs to no placeholder. -/
theorem mem_renderFrom
    (locator args : List Char)
    {c : Char}
    (hlocator : c ∉ locatorMark)
    (hargs : c ∉ argsMark)
    (template : List Char)
    (skip : Nat)
    (h : c ∈ template.drop skip) :
    c ∈ renderFrom locator args skip template := by
  induction template generalizing skip with
  | nil =>
      simp at h
  | cons d template ih =>
      cases skip with
      | succ skip =>
          exact ih skip (by simpa using h)
      | zero =>
          rw [List.drop_zero] at h
          unfold renderFrom
          split_ifs with hl ha
          · exact List.mem_append_right _
              (ih _ (mem_drop_of_startsWith hlocator (by decide) hl h))
          · exact List.mem_append_right _
              (ih _ (mem_drop_of_startsWith hargs (by decide) ha h))
          · rcases List.mem_cons.mp h with rfl | h
            · exact List.mem_cons_self
            · exact List.mem_cons_of_mem _ (ih 0 h)

/-- A template with a parenthesis writes something. -/
theorem writes_renderTemplate
    {template : String}
    (locator : String)
    (args : List Value)
    (h : '(' ∈ template.toList) :
    Writes (.ok (renderTemplate template locator args)) := by
  refine writes_ok fun hempty => ?_
  have hmem : '(' ∈ (renderTemplate template locator args).toList := by
    rw [renderTemplate, String.toList_ofList]
    exact mem_renderFrom _ _ (by decide) (by decide) _ 0 (by simpa using h)
  rw [hempty] at hmem
  simp at hmem

/-! ### Command rules -/

theorem optimizeSelector_ne_empty
    (selector : String) :
    optimizeSelector selector ≠ "" := by
  unfold optimizeSelector
  split <;> simp

theorem writes_visit
    (args : List Value) :
    Writes (visit args) := by
  exact writes_bind fun url => writes_ok (by simp)

theorem writes_go
    (args : List Value) :
    Writes (go args) := by
  refine writes_bind fun step => ?_
  split
  · exact writes_ok (by simp)
  · exact writes_ok (by simp)
  · exact writes_error _

theorem writes_location
    (args : List Value) :
    Writes (location args) := by
  unfold location
  split
  · exact writes_ok (by simp)
  · exact writes_ok (by simp)
  · exact writes_error _

theorem writes_selectorLocator
    (args : List Value) :
    Writes (selectorLocator args) := by
  refine writes_bind fun selector => ?_
  split
  · split
    · exact writes_ok (Literal.identifier_ne_empty _)
    · exact writes_ok (optimizeSelector_ne_empty _)
  · exact writes_ok (by simp)
  · exact writes_error _

theorem writes_textLocator
    (args : List Value) :
    Writes (textLocator args) := by
  unfold textLocator
  split
  · exact writes_error _
  · exact writes_ok (by simp)
  · split_ifs
    · exact writes_ok (by simp)
    · exact writes_ok (by simp)

theorem writes_wait
    (args : List Value) :
    Writes (wait args) := by
  refine writes_bind fun time => ?_
  split
  · exact writes_ok (by simp)
  · split_ifs
    · exact writes_ok (by simp)
    · exact writes_error _
  · split_ifs
    · exact writes_ok (by simp)
    · exact writes_error _
  · exact writes_error _

theorem writes_intercept
    (args : List Value) :
    Writes (intercept args) := by
  unfold intercept
  exact writes_bind fun url => writes_ok (by simp)

theorem writes_request
    (args : List Value) :
    Writes (request args) := by
  unfold request
  split
  · exact writes_error _
  · split
    · split_ifs
      · exact writes_ok (by simp)
      · exact writes_ok (by simp)
    · exact writes_ok (by simp)
  · split
    · exact writes_ok (by simp)
    · exact writes_ok (by simp)

theorem writes_fixture
    (args : List Value) :
    Writes (fixture args) := by
  exact writes_bind fun name => writes_ok (by simp)

theorem viewportSize_ne_empty
    (width height : String) :
    viewportSize width height ≠ "" := by
  unfold viewportSize
  simp

theorem writes_viewport
    (args : List Value) :
    Writes (viewport args) := by
  unfold viewport
  split
  · exact writes_error _
  · exact writes_ok (viewportSize_ne_empty _ _)
  · split
    · split_ifs
      · exact writes_ok (viewportSize_ne_empty _ _)
      · exact writes_ok (viewportSize_ne_empty _ _)
    · exact writes_error _
  · exact writes_error _

theorem writes_getCookie
    (args : List Value) :
    Writes (getCookie args) := by
  exact writes_bind fun name => writes_ok (by simp)

theorem writes_setCookie
    (args : List Value) :
    Writes (setCookie args) := by
  exact writes_bind fun name => writes_bind fun value => writes_ok (by simp)

theorem scrollCall_ne_empty
    (x y : String) :
    scrollCall x y ≠ "" := by
  unfold scrollCall
  simp

theorem writes_scrollTo
    (args : List Value) :
    Writes (scrollTo args) := by
  unfold scrollTo
  split
  · split
    · exact writes_ok (scrollCall_ne_empty _ _)
    · exact writes_error _
  · exact writes_ok (scrollCall_ne_empty _ _)
  · exact writes_error _

theorem writes_clock
    (args : List Value) :
    Writes (clock args) := by
  unfold clock
  split
  · exact writes_ok (by simp)
  · exact writes_ok (by simp)

theorem writes_tick
    (args : List Value) :
    Writes (tick args) := by
  exact writes_bind fun time => writes_ok (by simp)

theorem writes_screenshot
    (args : List Value) :
    Writes (screenshot args) := by
  unfold screenshot
  split
  · exact writes_ok (by simp)
  · exact writes_ok (by simp)

/-- Every command rule writes something. -/
theorem CommandRule.writes_code
    {rule : CommandRule}
    (h : rule ∈ commandRules)
    (args : List Value) :
    Writes (rule.code args) := by
  have hall : ∀ rule ∈ commandRules, Writes (rule.code args) := by
    simp only [commandRules, List.forall_mem_cons, CommandRule.code, List.not_mem_nil,
      false_implies, implies_true, and_true]
    simp only [writes_visit, writes_go, writes_location, writes_selectorLocator,
      writes_textLocator, writes_wait, writes_intercept, writes_request, writes_fixture,
      writes_viewport, writes_getCookie, writes_setCookie, writes_scrollTo, writes_clock,
      writes_tick, writes_screenshot, true_and]
    refine ⟨?_, ?_, ?_, ?_, ?_, ?_, ?_, ?_, ?_, ?_, ?_, ?_, ?_, ?_⟩
    all_goals exact writes_renderTemplate _ _ (by decide)
  exact hall rule h

/-! ### Chain rules -/

theorem keystrokes_ne_nil
    (text : List Char) :
    keystrokes text ≠ [] := by
  unfold keystrokes
  split
  · simp
  · assumption

theorem strokeCall_ne_empty
    (locator : String)
    (isFirst : Bool)
    (stroke : Keystroke) :
    strokeCall locator isFirst stroke ≠ "" := by
  cases stroke <;> simp [strokeCall]

theorem strokeCalls_text_ne_empty
    (locator : String)
    {strokes : List Keystroke}
    (h : strokes ≠ []) :
    ";\nawait ".intercalate (strokeCalls locator strokes) ≠ "" := by
  cases strokes with
  | nil =>
      exact absurd rfl h
  | cons first rest =>
      have hfirst := strokeCall_ne_empty locator true first
      cases rest with
      | nil =>
          simpa [strokeCalls] using hfirst
      | cons second rest =>
          simp [strokeCalls, String.intercalate_cons_cons]

theorem writes_withOptions
    (method locator : String)
    (args : List Value) :
    Writes (withOptions method locator args) := by
  exact writes_ok (by simp)

theorem writes_typeText
    (locator : String)
    (args : List Value) :
    Writes (typeText locator args) := by
  refine writes_bind fun typed => ?_
  split
  · exact writes_ok (strokeCalls_text_ne_empty locator (keystrokes_ne_nil _))
  · exact writes_ok (by simp)

theorem writes_trigger
    (locator : String)
    (args : List Value) :
    Writes (trigger locator args) := by
  exact writes_bind fun event => writes_ok (by simp)

theorem writes_invoke
    (locator : String)
    (args : List Value) :
    Writes (invoke locator args) := by
  refine writes_bind fun key => ?_
  split_ifs
  · exact writes_ok (by simp)
  · exact writes_ok (by simp)
  · exact writes_ok (by simp)
  · exact writes_bind fun name => writes_ok (by simp)
  · exact writes_error _

theorem writes_its
    (locator : String)
    (args : List Value) :
    Writes (its locator args) := by
  refine writes_bind fun key => ?_
  split_ifs
  · exact writes_ok (by simp)
  · exact writes_error _

/-- Every action writes something. -/
theorem ChainRule.writes_apply
    {rule : ChainRule}
    {body : Body (String → List Value → Code)}
    {suspends : Bool}
    (h : rule ∈ chainRules)
    (hkind : rule.kind = .action body suspends)
    (locator : String)
    (args : List Value) :
    Writes (rule.apply locator args) := by
  have hall : ∀ rule ∈ chainRules, ∀ body suspends,
      rule.kind = .action body suspends → Writes (rule.apply locator args) := by
    simp only [chainRules, List.forall_mem_cons, actionTransform, actionTemplate,
      ChainRule.apply, List.not_mem_nil, false_implies, implies_true, and_true, reduceCtorEq,
      writes_withOptions, writes_typeText, writes_trigger, writes_invoke, writes_its, true_and]
    refine ⟨?_, ?_, ?_, ?_, ?_, ?_, ?_, ?_, ?_, ?_⟩
    all_goals
      intro _ _ _
      exact writes_renderTemplate _ _ (by decide)
  exact hall rule h body suspends hkind

/-! ### Assertion rules -/

theorem writes_notExist
    (locator : String)
    (args : List Value) :
    Writes (notExist locator args) := by
  exact writes_ok (by simp)

theorem writes_haveClass
    (locator : String)
    (args : List Value) :
    Writes (haveClass locator args) := by
  exact writes_bind fun pattern => writes_ok (by simp)

theorem writes_notHaveClass
    (locator : String)
    (args : List Value) :
    Writes (notHaveClass locator args) := by
  exact writes_bind fun pattern => writes_ok (by simp)

theorem writes_countComparison
    (command matcher locator : String)
    (args : List Value) :
    Writes (countComparison command matcher locator args) := by
  exact writes_bind fun bound => writes_ok (by simp)

/-- Every assertion rule with a function writes something. -/
theorem AssertionRule.writes_transform
    {rule : AssertionRule}
    {apply : String → List Value → Code}
    (h : rule ∈ assertionRules)
    (hbody : rule.body = .transform apply)
    (locator : String)
    (args : List Value) :
    Writes (apply locator args) := by
  have hall : ∀ rule ∈ assertionRules, ∀ apply,
      rule.body = .transform apply → Writes (apply locator args) := by
    simp only [assertionRules, List.forall_mem_cons, matcher, expectation, List.not_mem_nil,
      false_implies, implies_true, and_true, reduceCtorEq, Body.transform.injEq,
      forall_eq', writes_notExist, writes_haveClass, writes_notHaveClass, countGreater,
      countAtLeast, countLess, countAtMost, writes_countComparison]
  exact hall rule h apply hbody

end Rule
end SuiteShift
