import SuiteShift.Proofs.Rule.Mark

/-!
# Chained calls and the mark of a placeholder

What a chained call or a condition writes has the mark of a placeholder only if the locator or one
of the arguments has it.

- `flatMap_source_keystrokes`: the segments of typed text make up the text, so each of them is a
  part of it; `keyOf?_of_mem_keystrokes`: the keys among them have known names.
- `ChainRule.unmarked_apply`, `AssertionRule.unmarked_transform`: the tables.
-/

namespace SuiteShift
namespace Rule

open Failure (Yields yields_ok yields_error yields_bind)
open Text (Unmarked unmarked_append_opening unmarked_append_closing unmarked_append_divider)

/-! ### Typed text -/

theorem flatMap_source_literalRun
    (chars : List Char) :
    (literalRun chars).flatMap Keystroke.source = chars := by
  unfold literalRun
  split_ifs with hempty
  · rw [List.isEmpty_iff] at hempty
    rw [hempty]
    rfl
  · simp [Keystroke.source]

/-- A text is cut at the closing brace of a name. -/
theorem eq_append_of_dropWhile
    {cs rest : List Char}
    {close : Char}
    (h : cs.dropWhile (· != '\x7d') = close :: rest) :
    close = '\x7d' ∧ cs = cs.takeWhile (· != '\x7d') ++ '\x7d' :: rest := by
  have hclose : close = '\x7d' := by
    have hhead := List.head?_dropWhile_not (· != '\x7d') cs
    rw [h] at hhead
    simpa using hhead
  have hsplit := List.takeWhile_append_dropWhile (p := (· != '\x7d')) (l := cs)
  rw [h, hclose] at hsplit
  exact ⟨hclose, hsplit.symm⟩

theorem flatMap_source_segmentsAfter
    (run cs : List Char) :
    (segmentsAfter run cs).flatMap Keystroke.source = run ++ cs := by
  fun_induction segmentsAfter run cs with
  | case1 run =>
      rw [flatMap_source_literalRun, List.append_nil]
  | case2 run c cs hc hdrop =>
      exact flatMap_source_literalRun _
  | case3 run c cs hc close rest hdrop hlength name key hkey ih =>
      obtain ⟨-, hcs⟩ := eq_append_of_dropWhile hdrop
      rw [beq_iff_eq] at hc
      rw [List.flatMap_append, List.flatMap_cons, flatMap_source_literalRun, ih, hc]
      conv_rhs => rw [hcs]
      simp [Keystroke.source, name]
  | case4 run c cs hc close rest hdrop hlength name hkey ih =>
      obtain ⟨hclose, hcs⟩ := eq_append_of_dropWhile hdrop
      rw [ih, hclose]
      conv_rhs => rw [hcs]
      simp [name]
  | case5 run c cs hc ih =>
      rw [ih, List.append_assoc, List.singleton_append]

/-- The segments of typed text make up the text. -/
theorem flatMap_source_keystrokes
    (text : List Char) :
    (keystrokes text).flatMap Keystroke.source = text := by
  have hsegments := flatMap_source_segmentsAfter [] text
  unfold keystrokes
  split
  · next hnone =>
      rw [hnone] at hsegments
      exact hsegments
  · exact hsegments

/-- A key among the segments has a known name. -/
theorem keyOf?_of_mem_segmentsAfter
    {written : List Char}
    {key : String}
    (run cs : List Char)
    (h : .key written key ∈ segmentsAfter run cs) :
    keyOf? written = some key := by
  have hrun : ∀ chars, .key written key ∉ literalRun chars := by
    intro chars
    unfold literalRun
    split_ifs <;> simp
  fun_induction segmentsAfter run cs with
  | case1 run =>
      exact absurd h (hrun _)
  | case2 run c cs hc hdrop =>
      exact absurd h (hrun _)
  | case3 run c cs hc close rest hdrop hlength name found hfound ih =>
      rw [List.mem_append, List.mem_cons] at h
      rcases h with h | h | h
      · exact absurd h (hrun _)
      · rw [Keystroke.key.injEq] at h
        rw [h.1, h.2]
        exact hfound
      · exact ih h
  | case4 run c cs hc close rest hdrop hlength name hnone ih =>
      exact ih h
  | case5 run c cs hc ih =>
      exact ih h

theorem keyOf?_of_mem_keystrokes
    {text written : List Char}
    {key : String}
    (h : .key written key ∈ keystrokes text) :
    keyOf? written = some key := by
  unfold keystrokes at h
  split at h
  · simp at h
  · exact keyOf?_of_mem_segmentsAfter [] text h

theorem exists_of_mem_strokeCalls
    {locator part : String}
    {strokes : List Keystroke}
    (h : part ∈ strokeCalls locator strokes) :
    ∃ stroke isFirst, stroke ∈ strokes ∧ part = strokeCall locator isFirst stroke := by
  cases strokes with
  | nil =>
      simp [strokeCalls] at h
  | cons first rest =>
      rw [strokeCalls, List.mem_cons, List.mem_map] at h
      rcases h with rfl | ⟨stroke, hstroke, rfl⟩
      · exact ⟨first, true, List.mem_cons_self, rfl⟩
      · exact ⟨stroke, false, List.mem_cons_of_mem _ hstroke, rfl⟩

theorem unmarked_strokeCall
    {locator : String}
    {text : List Char}
    {stroke : Keystroke}
    (hlocator : Unmarked locator)
    (htext : Unmarked (String.ofList text))
    (hmem : stroke ∈ keystrokes text)
    (isFirst : Bool) :
    Unmarked (strokeCall locator isFirst stroke) := by
  cases stroke with
  | text chars =>
      have hpart : chars <:+: text := by
        have hflat := List.infix_of_mem_flatten (List.mem_map_of_mem (f := Keystroke.source) hmem)
        rwa [← List.flatMap_def, flatMap_source_keystrokes] at hflat
      have hquoted : Unmarked (Literal.quote (String.ofList chars)) := by
        refine Literal.unmarked_quote (htext.of_isInfix ?_)
        simpa using hpart
      cases isFirst <;>
        simp (disch := decide) only [strokeCall, unmarked_append_closing, unmarked_append_divider,
          Bool.false_eq_true, ↓reduceIte, hlocator, hquoted, and_self]
  | key written key =>
      have hkey : Unmarked key := of_lookup (keyOf?_of_mem_keystrokes hmem) (by decide)
      have hquoted := Literal.unmarked_quote hkey
      simp (disch := decide) only [strokeCall, unmarked_append_closing, unmarked_append_divider,
        hlocator, hquoted, and_self]

/-! ### Actions and refinements -/

section ChainRules

variable {locator : String} {args : List Value}
variable (hlocator : Unmarked locator)
variable (hargs : ∀ value ∈ args, value.isUnmarked = true)
include hlocator

/-- A call on the locator with something inside. -/
theorem unmarked_call
    {opening closing inside : String}
    (hopening : Text.divides opening.toList = true)
    (hclosing : Text.divides closing.toList = true)
    (hinside : Unmarked inside) :
    Unmarked (locator ++ opening ++ inside ++ closing) := by
  rw [unmarked_append_closing hclosing, unmarked_append_divider hopening]
  exact ⟨hlocator, hinside⟩

theorem unmarked_plainCall
    {rest : String}
    (h : Text.divides rest.toList = true) :
    Yields Unmarked (.ok (locator ++ rest) : Code) := by
  rw [← unmarked_append_closing h] at hlocator
  exact yields_ok hlocator

include hargs

theorem unmarked_withOptions
    {method : String}
    (hmethod : Unmarked method) :
    Yields Unmarked (withOptions method locator args) := by
  have hoptions : Unmarked (Value.codeList (optionObjects args)) := by
    exact Value.unmarked_codeList fun value hvalue => hargs value (List.mem_of_mem_filter hvalue)
  refine yields_ok ?_
  simp (disch := decide) only [unmarked_append_closing, unmarked_append_divider, hlocator, hmethod,
    hoptions, and_self]

theorem unmarked_typeText :
    Yields Unmarked (typeText locator args) := by
  refine unmarked_required hargs fun typed htyped => ?_
  split
  · next text =>
      refine yields_ok ?_
      rw [Text.unmarked_intercalate (by decide)]
      have htext : Unmarked (String.ofList text.toList) := by
        rw [String.ofList_toList]
        exact Value.unmarked_text htyped
      intro part hpart
      obtain ⟨stroke, isFirst, hstroke, rfl⟩ := exists_of_mem_strokeCalls hpart
      exact unmarked_strokeCall hlocator htext hstroke isFirst
  · exact yields_ok (unmarked_call hlocator (by decide) (by decide) (Value.unmarked_code htyped))

theorem unmarked_invoke :
    Yields Unmarked (invoke locator args) := by
  refine yields_bind fun key _ => ?_
  split_ifs
  · exact unmarked_plainCall hlocator (by decide)
  · exact unmarked_plainCall hlocator (by decide)
  · exact unmarked_plainCall hlocator (by decide)
  · refine unmarked_required hargs fun name hname => yields_ok ?_
    exact unmarked_call hlocator (by decide) (by decide) (Value.unmarked_code hname)
  · exact yields_error _

omit hargs in
theorem unmarked_its :
    Yields Unmarked (its locator args) := by
  refine yields_bind fun key _ => ?_
  split_ifs
  · exact unmarked_plainCall hlocator (by decide)
  · exact yields_error _

/-- A call with the code of one argument in it. -/
theorem unmarked_requiredCall
    {command opening closing : String}
    {index : Nat}
    (hopening : Text.divides opening.toList = true)
    (hclosing : Text.divides closing.toList = true) :
    Yields Unmarked (do
      let value ← required args command index
      .ok (locator ++ opening ++ value.code ++ closing)) := by
  refine unmarked_required hargs fun value hvalue => yields_ok ?_
  exact unmarked_call hlocator hopening hclosing (Value.unmarked_code hvalue)

theorem unmarked_nth :
    Yields Unmarked (nth locator args) := by
  refine unmarked_required hargs fun index hindex => ?_
  split
  · exact yields_ok (unmarked_call hlocator (by decide) (by decide) (Value.unmarked_code hindex))
  · exact yields_ok (unmarked_call hlocator (by decide) (by decide)
      (Value.unmarked_of_raw hindex))
  · exact yields_error _

theorem unmarked_children :
    Yields Unmarked (children locator args) := by
  unfold children
  split
  · next selector rest =>
      have hselector := Value.unmarked_text (hargs _ List.mem_cons_self)
      have hscoped : Unmarked (":scope > " ++ selector) := by
        rwa [unmarked_append_opening (by decide)]
      exact yields_ok (unmarked_call hlocator (by decide) (by decide)
        (Literal.unmarked_quote hscoped))
  · exact unmarked_plainCall hlocator (by decide)

/-- Every chain rule keeps the mark out. -/
theorem ChainRule.unmarked_apply
    {rule : ChainRule}
    (h : rule ∈ chainRules) :
    Yields Unmarked (rule.apply locator args) := by
  have hcodes := Value.unmarked_codeList hargs
  have htemplate : ∀ {template : String} (tail : String),
      template.toList = locatorMark ++ tail.toList → isPlain tail.toList = true →
      Text.divides tail.toList = true →
      Yields Unmarked (.ok (renderTemplate template locator args) : Code) := by
    intro template tail hstart hplain hdivides
    rw [renderTemplate_locator template tail hstart hplain]
    exact unmarked_plainCall hlocator hdivides
  have hselect : Yields Unmarked
      (.ok (renderTemplate "\x7blocator\x7d.selectOption(\x7bargs\x7d)" locator args) : Code) := by
    rw [renderTemplate_locator_args "\x7blocator\x7d.selectOption(\x7bargs\x7d)" ".selectOption("
      ")" (by decide) (by decide) (by decide)]
    exact yields_ok (unmarked_call hlocator (by decide) (by decide) hcodes)
  have hwait : Yields Unmarked
      (.ok (renderTemplate "page.waitForTimeout(\x7bargs\x7d)" locator args) : Code) := by
    rw [renderTemplate_args "page.waitForTimeout(\x7bargs\x7d)" "page.waitForTimeout(" ")"
      (by decide) (by decide) (by decide)]
    exact yields_ok (unmarked_enclosed (by decide) (by decide) hcodes)
  have hdropped : Yields Unmarked (.ok "" : Code) := by
    exact yields_ok Text.unmarked_empty
  have hall : ∀ rule ∈ chainRules, Yields Unmarked (rule.apply locator args) := by
    simp only [chainRules, List.forall_mem_cons, actionTransform, actionTemplate,
      ChainRule.apply, List.not_mem_nil, false_implies, implies_true, and_true,
      unmarked_typeText hlocator hargs, unmarked_invoke hlocator hargs, unmarked_its hlocator,
      unmarked_nth hlocator hargs, unmarked_children hlocator hargs, hselect, hwait, hdropped,
      true_and]
    refine ⟨unmarked_withOptions hlocator hargs (by decide), htemplate ".dblclick()" ?_ ?_ ?_,
      htemplate ".click(\x7b button: 'right' \x7d)" ?_ ?_ ?_, htemplate ".clear()" ?_ ?_ ?_,
      unmarked_withOptions hlocator hargs (by decide),
      unmarked_withOptions hlocator hargs (by decide), htemplate ".focus()" ?_ ?_ ?_,
      htemplate ".blur()" ?_ ?_ ?_, htemplate ".hover()" ?_ ?_ ?_,
      unmarked_requiredCall hlocator hargs ?_ ?_,
      htemplate ".scrollIntoViewIfNeeded()" ?_ ?_ ?_,
      htemplate ".evaluate(form => (form as HTMLFormElement).requestSubmit())" ?_ ?_ ?_,
      unmarked_requiredCall hlocator hargs ?_ ?_, unmarked_plainCall hlocator ?_,
      unmarked_plainCall hlocator ?_, unmarked_requiredCall hlocator hargs ?_ ?_,
      unmarked_plainCall hlocator ?_⟩
    all_goals decide
  exact hall rule h

end ChainRules

/-! ### Conditions -/

/-- A pattern for a text, between what is written around it. -/
theorem unmarked_pattern
    {opening closing : String}
    (hopening : Text.divides opening.toList = true)
    (hclosing : 'O' ∉ closing.toList)
    (text : String) :
    Unmarked (opening ++ Literal.escapeRegex text ++ closing) := by
  rw [Text.unmarked_append_ending hclosing, ← String.empty_append (s := opening),
    unmarked_append_divider hopening]
  exact ⟨Text.unmarked_empty, Literal.unmarked_escapeRegex text⟩

section AssertionRules

variable {locator : String} {args : List Value}
variable (hlocator : Unmarked locator)
variable (hargs : ∀ value ∈ args, value.isUnmarked = true)

include hargs in
theorem unmarked_classPattern
    (command : String) :
    Yields Unmarked (classPattern args command) := by
  refine unmarked_required hargs fun name hname => ?_
  split
  · exact yields_ok (unmarked_pattern (by decide) (by decide) _)
  · exact yields_ok (Value.unmarked_code hname)

include hlocator

theorem unmarked_notExist :
    Yields Unmarked (notExist locator args) := by
  refine yields_ok ?_
  rwa [unmarked_append_closing (by decide), unmarked_append_opening (by decide)]

include hargs

theorem unmarked_haveClass :
    Yields Unmarked (haveClass locator args) := by
  refine yields_bind fun pattern hpattern => yields_ok ?_
  have hpattern := unmarked_classPattern hargs _ _ hpattern
  simp (disch := decide) only [unmarked_append_closing, unmarked_append_divider,
    unmarked_append_opening, hlocator, hpattern, and_self]

theorem unmarked_notHaveClass :
    Yields Unmarked (notHaveClass locator args) := by
  refine yields_bind fun pattern hpattern => yields_ok ?_
  have hpattern := unmarked_classPattern hargs _ _ hpattern
  simp (disch := decide) only [unmarked_append_closing, unmarked_append_divider,
    unmarked_append_opening, hlocator, hpattern, and_self]

theorem unmarked_countComparison
    {matcher : String}
    (hmatcher : Unmarked matcher)
    (command : String) :
    Yields Unmarked (countComparison command matcher locator args) := by
  refine unmarked_required hargs fun bound hbound => yields_ok ?_
  simp (disch := decide) only [unmarked_append_closing, unmarked_append_divider,
    unmarked_append_opening, hlocator, hmatcher, Value.unmarked_code hbound, and_self]

/-- Every condition with a function keeps the mark out. -/
theorem AssertionRule.unmarked_transform
    {rule : AssertionRule}
    {apply : String → List Value → Code}
    (h : rule ∈ assertionRules)
    (hbody : rule.body = .transform apply) :
    Yields Unmarked (apply locator args) := by
  have hcount : ∀ command matcher, Unmarked matcher →
      Yields Unmarked (countComparison command matcher locator args) := by
    intro command matcher hmatcher
    exact unmarked_countComparison hlocator hargs hmatcher command
  have hall : ∀ rule ∈ assertionRules, ∀ apply,
      rule.body = .transform apply → Yields Unmarked (apply locator args) := by
    simp (disch := decide) only [assertionRules, List.forall_mem_cons, matcher, expectation,
      List.not_mem_nil, false_implies, implies_true, and_true, reduceCtorEq,
      Body.transform.injEq, forall_eq', unmarked_notExist hlocator,
      unmarked_haveClass hlocator hargs, unmarked_notHaveClass hlocator hargs, countGreater,
      countAtLeast, countLess, countAtMost, hcount]
  exact hall rule h apply hbody

end AssertionRules

/-- The names of matchers have no mark. -/
theorem AssertionRule.unmarked_template
    {rule : AssertionRule}
    {matcher : String}
    (h : rule ∈ assertionRules)
    (hbody : rule.body = .template matcher) :
    Unmarked matcher := by
  have hall : ∀ rule ∈ assertionRules, ∀ matcher,
      rule.body = .template matcher → Unmarked matcher := by
    simp only [assertionRules, List.forall_mem_cons, Rule.matcher, expectation, List.not_mem_nil,
      false_implies, implies_true, and_true, reduceCtorEq, Body.template.injEq, forall_eq', true_and]
    decide
  exact hall rule h matcher hbody

end Rule
end SuiteShift
