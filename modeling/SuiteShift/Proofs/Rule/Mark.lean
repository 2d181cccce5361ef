import SuiteShift.Proofs.Literal.Mark
import SuiteShift.Proofs.Rule.Template

/-!
# Rules and the mark of a placeholder

No rule of a command brings the mark of a placeholder into code: what it writes has a mark only if
one of its arguments has one.

- `unmarked_required`, `unmarked_requiredString`: the arguments that a rule asks for.
- `unmarked_optimizeSelector`: selectors, and the attributes that are read out of them.
- `CommandRule.unmarked_code`: the table of commands.
-/

namespace SuiteShift
namespace Rule

open Failure (Yields yields_ok yields_error yields_bind)
open Text (Unmarked unmarked_append_opening unmarked_append_closing unmarked_append_divider)

/-! ### Arguments -/

section Arguments

variable {args : List Value} {command : String} {index : Nat}

theorem mem_of_required
    {value : Value}
    (h : required args command index = .ok value) :
    value ∈ args := by
  unfold required at h
  split at h
  · next found hfound =>
      cases h
      exact List.mem_of_getElem? hfound
  · cases h

theorem mem_of_requiredString
    {text : String}
    (h : requiredString args command index = .ok text) :
    .string text ∈ args := by
  obtain ⟨value, hvalue, h⟩ := Failure.bind_eq_ok.mp h
  cases value with
  | string found =>
      cases h
      exact mem_of_required hvalue
  | bool value =>
      cases h
  | number value =>
      cases h
  | raw source =>
      cases h

variable (hargs : ∀ value ∈ args, value.isUnmarked = true)
include hargs

theorem unmarked_required
    {next : Value → Code}
    (h : ∀ value, value.isUnmarked = true → Yields Unmarked (next value)) :
    Yields Unmarked (required args command index >>= next) := by
  exact yields_bind fun value hvalue => h value (hargs value (mem_of_required hvalue))

theorem unmarked_requiredString
    {next : String → Code}
    (h : ∀ text, (Value.string text).isUnmarked = true → Yields Unmarked (next text)) :
    Yields Unmarked (requiredString args command index >>= next) := by
  exact yields_bind fun text htext => h text (hargs _ (mem_of_requiredString htext))

end Arguments

/-- What holds of all entries of a table holds of what is found in it. -/
theorem of_lookup
    {α : Type}
    {P : α → Prop}
    {table : List (String × α)}
    {name : String}
    {value : α}
    (h : table.lookup name = some value)
    (hall : ∀ entry ∈ table, P entry.2) :
    P value := by
  obtain ⟨before, after, rfl, -⟩ := List.lookup_eq_some_iff.mp h
  exact hall (name, value) (by simp)

/-- A text between two literals. -/
theorem unmarked_enclosed
    {opening closing text : String}
    (hopening : '/' ∉ opening.toList)
    (hclosing : Text.divides closing.toList = true)
    (h : Unmarked text) :
    Unmarked (opening ++ text ++ closing) := by
  rwa [unmarked_append_closing hclosing, unmarked_append_opening hopening]

/-! ### Command rules -/

/-- A request method is one of a few words. -/
theorem unmarked_httpMethod?
    {value : Value}
    {method : String}
    (h : httpMethod? value = some method) :
    Unmarked method := by
  have hall : ∀ method ∈ ["GET", "POST", "PUT", "PATCH", "DELETE", "HEAD", "OPTIONS"],
      Unmarked method := by
    decide
  unfold httpMethod? at h
  split at h
  · dsimp only at h
    split_ifs at h with hmem
    cases h
    exact hall _ (List.contains_iff_mem.mp hmem)
  · cases h

theorem unmarked_routeHandler
    {method : Option String}
    {response : Option Value}
    (hmethod : ∀ name, method = some name → Unmarked name)
    (hresponse : ∀ value, response = some value → value.isUnmarked = true) :
    Unmarked (routeHandler method response) := by
  have hhandler : Unmarked (routeHandler none response) := by
    cases response with
    | none =>
        decide
    | some value =>
        exact unmarked_enclosed (by decide) (by decide) (Value.unmarked_code (hresponse _ rfl))
  cases method with
  | none =>
      exact hhandler
  | some name =>
      have hname := Literal.unmarked_quote (hmethod name rfl)
      have hsome : routeHandler (some name) response =
          "route.request().method() === " ++ Literal.quote name ++ " ? " ++
            routeHandler none response ++ " : route.fallback()" := by
        rfl
      rw [hsome]
      simp (disch := decide) only [unmarked_append_closing, unmarked_append_divider,
        unmarked_append_opening, hname, hhandler, and_self]

section CommandRules

variable {args : List Value}
variable (hargs : ∀ value ∈ args, value.isUnmarked = true)
include hargs

theorem unmarked_visit :
    Yields Unmarked (visit args) := by
  refine unmarked_required hargs fun url hurl => yields_ok ?_
  exact unmarked_enclosed (by decide) (by decide) (Value.unmarked_code hurl)

omit hargs in
theorem unmarked_go :
    Yields Unmarked (go args) := by
  refine yields_bind fun step _ => ?_
  split
  · exact yields_ok (by decide)
  · exact yields_ok (by decide)
  · exact yields_error _

theorem unmarked_location :
    Yields Unmarked (location args) := by
  unfold location
  split
  · exact yields_ok (by decide)
  · next key rest =>
      refine yields_ok ?_
      rw [unmarked_append_opening (by decide)]
      exact Value.unmarked_text (hargs _ List.mem_cons_self)
  · exact yields_error _

theorem unmarked_intercept :
    Yields Unmarked (intercept args) := by
  -- The address and the response are arguments, with or without a method before them.
  have hroute : ∀ (method : Option String) (rest : List Value),
      (∀ name, method = some name → Unmarked name) →
      (∀ value ∈ rest, value.isUnmarked = true) →
      Yields Unmarked (do
        let url ← required rest "intercept" 0
        .ok ("page.route(" ++ url.code ++ ", route => " ++ routeHandler method rest[1]? ++ ")")) := by
    intro method rest hmethod hrest
    refine unmarked_required hrest fun url hurl => yields_ok ?_
    have hhandler := @unmarked_routeHandler method rest[1]? hmethod
      fun value hvalue => hrest value (List.mem_of_getElem? hvalue)
    simp (disch := decide) only [unmarked_append_closing, unmarked_append_divider,
      unmarked_append_opening, Value.unmarked_code hurl, hhandler, and_self]
  unfold intercept
  rcases args with _ | ⟨first, _ | ⟨second, rest⟩⟩
  · exact hroute none _ (by simp) hargs
  · exact hroute none _ (by simp) hargs
  · cases hmethod : httpMethod? first with
    | none =>
        simp only [hmethod]
        exact hroute none _ (by simp) hargs
    | some method =>
        simp only [hmethod]
        refine hroute (some method) (second :: rest) ?_ ?_
        · rintro _ ⟨⟩
          exact unmarked_httpMethod? hmethod
        · exact fun value hvalue => hargs value (List.mem_cons_of_mem _ hvalue)

theorem unmarked_request :
    Yields Unmarked (request args) := by
  unfold request
  split
  · exact yields_error _
  · next only =>
      have honly := hargs only List.mem_cons_self
      split
      · next source =>
          have hsource := Value.unmarked_of_raw honly
          split_ifs
          · refine yields_ok ?_
            simp (disch := decide) only [unmarked_append_closing, unmarked_append_divider,
              unmarked_append_opening, hsource, and_self]
          · exact yields_ok (unmarked_enclosed (by decide) (by decide) hsource)
      · exact yields_ok (unmarked_enclosed (by decide) (by decide) (Value.unmarked_code honly))
  · next first second rest =>
      have hfirst := Value.unmarked_code (hargs first (by simp))
      have hsecond := Value.unmarked_code (hargs second (by simp))
      split
      · next method hmethod =>
          have hquoted := Literal.unmarked_quote (unmarked_httpMethod? hmethod)
          refine yields_ok ?_
          cases rest with
          | nil =>
              simp (disch := decide) only [unmarked_append_closing, unmarked_append_divider,
                unmarked_append_opening, hsecond, hquoted, String.append_empty, and_self]
          | cons body rest =>
              have hbody := Value.unmarked_code (hargs body (by simp))
              dsimp only
              rw [← String.append_assoc]
              simp (disch := decide) only [unmarked_append_closing, unmarked_append_divider,
                unmarked_append_opening, hsecond, hquoted, hbody, and_self]
      · exact yields_ok (unmarked_enclosed (by decide) (by decide) hfirst)

theorem unmarked_fixture :
    Yields Unmarked (fixture args) := by
  refine unmarked_requiredString hargs fun name hname => yields_ok ?_
  have hfile : Unmarked ("/" ++ if name.toList.contains '.' then name else name ++ ".json") := by
    split_ifs
    · exact Value.unmarked_of_string hname
    · rw [← String.append_assoc, unmarked_append_closing (by decide)]
      exact Value.unmarked_of_string hname
  have hpath : ∀ file, "cypress/fixtures/" ++ file = "cypress/" ++ "fixtures" ++ ("/" ++ file) := by
    intro file
    rw [← String.append_assoc]
    rfl
  refine unmarked_enclosed (by decide) (by decide) (Literal.unmarked_quote ?_)
  rw [hpath, unmarked_append_divider (by decide)]
  exact ⟨by decide, hfile⟩

omit hargs in
theorem unmarked_viewportSize
    {width height : String}
    (hwidth : Unmarked width)
    (hheight : Unmarked height) :
    Unmarked (viewportSize width height) := by
  unfold viewportSize
  simp (disch := decide) only [unmarked_append_closing, unmarked_append_divider,
    unmarked_append_opening, hwidth, hheight, and_self]

omit hargs in
theorem unmarked_viewport :
    Yields Unmarked (viewport args) := by
  unfold viewport
  split
  · exact yields_error _
  · exact yields_ok (unmarked_viewportSize (Value.unmarked_code rfl) (Value.unmarked_code rfl))
  · split
    · split_ifs
      · exact yields_ok (unmarked_viewportSize (unmarked_toString _) (unmarked_toString _))
      · exact yields_ok (unmarked_viewportSize (unmarked_toString _) (unmarked_toString _))
    · exact yields_error _
  · exact yields_error _

theorem unmarked_getCookie :
    Yields Unmarked (getCookie args) := by
  refine unmarked_required hargs fun name hname => yields_ok ?_
  exact unmarked_enclosed (by decide) (by decide) (Value.unmarked_code hname)

theorem unmarked_setCookie :
    Yields Unmarked (setCookie args) := by
  refine unmarked_required hargs fun name hname => ?_
  refine unmarked_required hargs fun value hvalue => yields_ok ?_
  simp (disch := decide) only [unmarked_append_closing, unmarked_append_divider,
    unmarked_append_opening, Value.unmarked_code hname, Value.unmarked_code hvalue, and_self]

omit hargs in
theorem unmarked_scrollCall
    {x y : String}
    (hx : Unmarked x)
    (hy : Unmarked y) :
    Unmarked (scrollCall x y) := by
  unfold scrollCall
  simp (disch := decide) only [unmarked_append_closing, unmarked_append_divider,
    unmarked_append_opening, hx, hy, and_self]

omit hargs in
theorem unmarked_scrollPosition?
    {position x y : String}
    (h : scrollPosition? position = some (x, y)) :
    Unmarked x ∧ Unmarked y := by
  unfold scrollPosition? at h
  have hpair := of_lookup (P := fun pair => Unmarked pair.1 ∧ Unmarked pair.2) h (by decide)
  exact hpair

theorem unmarked_scrollTo :
    Yields Unmarked (scrollTo args) := by
  unfold scrollTo
  split
  · split
    · next hposition =>
        obtain ⟨hx, hy⟩ := unmarked_scrollPosition? hposition
        exact yields_ok (unmarked_scrollCall hx hy)
    · exact yields_error _
  · next x y rest _ =>
      exact yields_ok (unmarked_scrollCall (Value.unmarked_code (hargs x (by simp)))
        (Value.unmarked_code (hargs y (by simp))))
  · exact yields_error _

theorem unmarked_clock :
    Yields Unmarked (clock args) := by
  unfold clock
  split
  · exact yields_ok (by decide)
  · next time rest =>
      exact yields_ok (unmarked_enclosed (by decide) (by decide)
        (Value.unmarked_code (hargs time List.mem_cons_self)))

theorem unmarked_tick :
    Yields Unmarked (tick args) := by
  refine unmarked_required hargs fun time htime => yields_ok ?_
  exact unmarked_enclosed (by decide) (by decide) (Value.unmarked_code htime)

theorem unmarked_screenshot :
    Yields Unmarked (screenshot args) := by
  unfold screenshot
  split
  · next name rest =>
      have hname := Value.unmarked_of_string (hargs _ List.mem_cons_self)
      have hpath : "screenshots/" ++ name = "screenshots" ++ ("/" ++ name) := by
        rw [← String.append_assoc]
        rfl
      refine yields_ok (unmarked_enclosed (by decide) (by decide) (Literal.unmarked_quote ?_))
      rw [hpath, unmarked_append_closing (by decide), unmarked_append_opening (by decide)]
      exact hname
  · exact yields_ok (by decide)

omit hargs in
theorem unmarked_wait :
    Yields Unmarked (wait args) := by
  refine yields_bind fun time _ => ?_
  split
  · exact yields_ok (unmarked_enclosed (by decide) (by decide) (Value.unmarked_code rfl))
  · split_ifs
    · exact yields_ok (by decide)
    · exact yields_error _
  · split_ifs
    · exact yields_ok (by decide)
    · exact yields_error _
  · exact yields_error _

end CommandRules

/-! ### Locators -/

theorem selectorValue?_isInfix
    {cs value : List Char}
    (h : selectorValue? cs = some value) :
    value <:+: cs := by
  unfold selectorValue? at h
  split at h
  · cases h
  · next q cs =>
      split_ifs at h with hquote
      · split at h
        · split_ifs at h
          cases h
          exact ((List.takeWhile_prefix _).isInfix).trans (List.suffix_cons _ _).isInfix
        · cases h
      · dsimp only at h
        split_ifs at h
        cases h
        exact (List.takeWhile_prefix _).isInfix

theorem attributeValue?_isInfix
    {name cs value : List Char}
    (h : attributeValue? name cs = some value) :
    value <:+: cs := by
  unfold attributeValue? at h
  split at h
  · next cs =>
      split at h
      · next rest hrest =>
          split at h
          · next rest' hrest' =>
              have hblanks : ∀ cs : List Char, Text.dropBlanks cs <:+: cs := by
                intro cs
                exact (List.dropWhile_suffix _).isInfix
              have hvalue := selectorValue?_isInfix h
              have hafter : rest' <:+: rest := by
                refine List.IsInfix.trans (List.suffix_cons '=' rest').isInfix ?_
                rw [← hrest']
                exact hblanks rest
              have hname : rest <:+: Text.dropBlanks cs := by
                rw [Text.stripStart_eq_some_iff.mp hrest]
                exact (List.suffix_append _ _).isInfix
              calc
                value <:+: Text.dropBlanks rest' := hvalue
                _ <:+: rest' := hblanks rest'
                _ <:+: rest := hafter
                _ <:+: Text.dropBlanks cs := hname
                _ <:+: cs := hblanks cs
                _ <:+: '[' :: cs := (List.suffix_cons _ _).isInfix
          · cases h
      · cases h
  · cases h

theorem trimChars_isInfix
    (cs : List Char) :
    Text.trimChars cs <:+: cs := by
  have hback : Text.trimChars cs <+: cs.dropWhile Text.isBlank := by
    rw [Text.trimChars, ← List.reverse_suffix, List.reverse_reverse]
    exact List.dropWhile_suffix _
  exact hback.isInfix.trans (List.dropWhile_suffix _).isInfix

/-- The locator method of an attribute is one of a few words, and its argument a part of the
selector. -/
theorem semanticLocator?_eq_some
    {cs : List Char}
    {method value : String}
    (h : semanticLocator? cs = some (method, value)) :
    Unmarked method ∧ value.toList <:+: cs := by
  have hall : ∀ entry ∈ semanticAttributes, Unmarked entry.2 := by
    decide
  obtain ⟨⟨name, found⟩, hmem, hfound⟩ := List.exists_of_findSome?_eq_some h
  rw [Option.map_eq_some_iff] at hfound
  obtain ⟨chars, hchars, hpair⟩ := hfound
  cases hpair
  refine ⟨hall _ hmem, ?_⟩
  rw [String.toList_ofList]
  exact attributeValue?_isInfix hchars

theorem unmarked_optimizeSelector
    {selector : String}
    (h : Unmarked selector) :
    Unmarked (optimizeSelector selector) := by
  unfold optimizeSelector
  split
  · next method value hlocator =>
      obtain ⟨hmethod, hvalue⟩ := semanticLocator?_eq_some hlocator
      have hquoted := Literal.unmarked_quote (h.of_isInfix (hvalue.trans (trimChars_isInfix _)))
      simp (disch := decide) only [unmarked_append_closing, unmarked_append_divider,
        unmarked_append_opening, hmethod, hquoted, and_self]
  · exact unmarked_enclosed (by decide) (by decide) (Literal.unmarked_quote h)

section LocatorRules

variable {args : List Value}
variable (hargs : ∀ value ∈ args, value.isUnmarked = true)
include hargs

theorem unmarked_selectorLocator :
    Yields Unmarked (selectorLocator args) := by
  refine unmarked_required hargs fun selector hselector => ?_
  split
  · split
    · exact yields_ok (Literal.unmarked_identifier _)
    · exact yields_ok (unmarked_optimizeSelector (Value.unmarked_text hselector))
  · exact yields_ok (unmarked_enclosed (by decide) (by decide) (Value.unmarked_of_raw hselector))
  · exact yields_error _

theorem unmarked_textLocator :
    Yields Unmarked (textLocator args) := by
  unfold textLocator
  split
  · exact yields_error _
  · next text =>
      exact yields_ok (unmarked_enclosed (by decide) (by decide)
        (Value.unmarked_code (hargs text List.mem_cons_self)))
  · next first second rest =>
      have hfirst := hargs first (by simp)
      have hsecond := Value.unmarked_code (hargs second (by simp))
      split_ifs
      · exact yields_ok (unmarked_enclosed (by decide) (by decide) (Value.unmarked_code hfirst))
      · refine yields_ok ?_
        simp (disch := decide) only [unmarked_append_closing, unmarked_append_divider, hsecond,
          and_true]
        split
        · exact unmarked_optimizeSelector (Value.unmarked_text hfirst)
        · exact unmarked_enclosed (by decide) (by decide) (Value.unmarked_code hfirst)

/-- Every command rule keeps the mark out. -/
theorem CommandRule.unmarked_code
    {rule : CommandRule}
    (h : rule ∈ commandRules) :
    Yields Unmarked (rule.code args) := by
  have hplain : ∀ {template : String}, isPlain template.toList = true → Unmarked template →
      Yields Unmarked (.ok (renderTemplate template "" args) : Code) := by
    intro template htemplate hunmarked
    rw [renderTemplate_of_isPlain htemplate]
    exact yields_ok hunmarked
  have hlog : Yields Unmarked (.ok (renderTemplate "console.log(\x7bargs\x7d)" "" args) : Code) := by
    rw [renderTemplate_args "console.log(\x7bargs\x7d)" "console.log(" ")" (by decide) (by decide)
      (by decide)]
    exact yields_ok (unmarked_enclosed (by decide) (by decide) (Value.unmarked_codeList hargs))
  have hall : ∀ rule ∈ commandRules, Yields Unmarked (rule.code args) := by
    simp only [commandRules, List.forall_mem_cons, CommandRule.code, List.not_mem_nil,
      false_implies, implies_true, and_true]
    simp only [unmarked_visit hargs, unmarked_go, unmarked_location hargs,
      unmarked_selectorLocator hargs, unmarked_textLocator hargs, unmarked_wait,
      unmarked_intercept hargs, unmarked_request hargs, unmarked_fixture hargs, unmarked_viewport,
      unmarked_getCookie hargs, unmarked_setCookie hargs, unmarked_scrollTo hargs,
      unmarked_clock hargs, unmarked_tick hargs, unmarked_screenshot hargs, hlog, true_and]
    refine ⟨?_, ?_, ?_, ?_, ?_, ?_, ?_, ?_, ?_, ?_, ?_, ?_, ?_⟩
    all_goals exact hplain (by decide) (by decide)
  exact hall rule h

end LocatorRules

end Rule
end SuiteShift
