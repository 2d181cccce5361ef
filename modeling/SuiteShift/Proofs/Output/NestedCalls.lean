import SuiteShift.Proofs.Output.Placement
import SuiteShift.Proofs.Output.TodoCount
import SuiteShift.Script.Cursor

/-!
# Calls in statements that are kept as they are

A statement that is no command is copied. It may have calls on the driver object in it, and these
are looked for by a search for the name and a dot. Such a mention is a name of its own, outside of
literals and comments, and there may be blanks before the dot; so the search and the mentions part
in both directions.

What lies outside of literals and comments is left open: all statements hold for every marking
`inCode` of the positions of a text.

- `MentionAt`: a mention of a name at a place of a text.
- `Tight`, `Spaced`, `Stray`: mentions without and with blanks, and finds that are no mention.
- `contains_iff_found`, `mentions_iff`, `found_iff_mentions_iff`: search and mentions.
- `nested_calls_found_iff`: statements of tests and hooks, and bodies of custom commands.
-/

namespace SuiteShift

namespace Script

/-- A name is mentioned after `before`: it starts there, and after blanks comes a dot, all of it in
code. -/
structure MentionAt
    (inCode : Nat → Bool)
    (name text before gap after : List Char) : Prop where
  split : text = before ++ name ++ gap ++ '.' :: after
  starts : ∀ c, before.getLast? = some c → isNamePart c = false
  blank : ∀ c ∈ gap, isGap c = true
  code : ∀ i, before.length ≤ i → i ≤ before.length + name.length + gap.length → inCode i = true

/-- The text mentions the name. -/
def Mentions (inCode : Nat → Bool) (name text : List Char) : Prop :=
  ∃ before gap after, MentionAt inCode name text before gap after

/-- The text mentions the name with the dot right after it. -/
def Tight (inCode : Nat → Bool) (name text : List Char) : Prop :=
  ∃ before after, MentionAt inCode name text before [] after

/-- The text mentions the name with blanks before the dot. -/
def Spaced (inCode : Nat → Bool) (name text : List Char) : Prop :=
  ∃ before gap after, gap ≠ [] ∧ MentionAt inCode name text before gap after

/-- The name and a dot stand in the text where a longer name ends, or not in code. -/
def Stray (inCode : Nat → Bool) (name text : List Char) : Prop :=
  ∃ before after, text = before ++ name ++ '.' :: after ∧
    ((∃ c, before.getLast? = some c ∧ isNamePart c = true) ∨
      ∃ i, before.length ≤ i ∧ i ≤ before.length + name.length ∧ inCode i = false)

/-- The name and a dot stand in the text: it is mentioned so, or this is a stray find. -/
def Found (inCode : Nat → Bool) (name text : List Char) : Prop :=
  Tight inCode name text ∨ Stray inCode name text

variable {inCode : Nat → Bool} {name text : List Char}

theorem mentions_iff :
    Mentions inCode name text ↔ Tight inCode name text ∨ Spaced inCode name text := by
  constructor
  · rintro ⟨before, gap, after, h⟩
    by_cases hgap : gap = []
    · subst hgap
      exact .inl ⟨before, after, h⟩
    · exact .inr ⟨before, gap, after, hgap, h⟩
  · rintro (⟨before, after, h⟩ | ⟨before, gap, after, -, h⟩)
    · exact ⟨before, [], after, h⟩
    · exact ⟨before, gap, after, h⟩

/-- Where the name and a dot stand, there is a mention or a stray find. -/
theorem mentionAt_or_stray
    {before after : List Char}
    (h : text = before ++ name ++ '.' :: after) :
    MentionAt inCode name text before [] after ∨ Stray inCode name text := by
  by_cases hstarts : ∃ c, before.getLast? = some c ∧ isNamePart c = true
  · exact .inr ⟨before, after, h, .inl hstarts⟩
  by_cases hcode : ∃ i, before.length ≤ i ∧ i ≤ before.length + name.length ∧ inCode i = false
  · exact .inr ⟨before, after, h, .inr hcode⟩
  refine .inl ⟨by rw [h, List.append_nil], ?_, by simp, ?_⟩
  · intro c hc
    rw [← Bool.not_eq_true]
    intro hpart
    exact hstarts ⟨c, hc, hpart⟩
  · intro i hle hlt
    rw [← Bool.not_eq_false]
    intro hout
    exact hcode ⟨i, hle, hlt, hout⟩

/-- The search finds the mentions without blanks, and stray ones. -/
theorem contains_iff_found :
    Text.contains (name ++ ['.']) text = true ↔ Found inCode name text := by
  rw [Text.contains_iff]
  constructor
  · rintro ⟨before, after, h⟩
    have hsplit : text = before ++ name ++ '.' :: after := by
      rw [h]
      simp
    rcases mentionAt_or_stray hsplit with hmention | hstray
    · exact .inl ⟨before, after, hmention⟩
    · exact .inr hstray
  · rintro (⟨before, after, h⟩ | ⟨before, after, h, -⟩)
    · refine ⟨before, after, ?_⟩
      rw [h.split]
      simp
    · refine ⟨before, after, ?_⟩
      rw [h]
      simp

theorem occursIn_iff_found
    {needle name : String}
    (h : needle.toList = name.toList ++ ['.'])
    (inCode : Nat → Bool)
    (text : String) :
    occursIn needle text = true ↔ Found inCode name.toList text.toList := by
  rw [occursIn, h]
  exact contains_iff_found

theorem occursIn_cy_iff_found
    (inCode : Nat → Bool)
    (text : String) :
    occursIn "cy." text = true ↔ Found inCode "cy".toList text.toList := by
  have hcy : "cy.".toList = "cy".toList ++ ['.'] := by
    decide
  exact occursIn_iff_found hcy inCode text

/-- The search is right about a text if the name is mentioned without blanks, or if stray finds
make up for mentions with blanks. -/
theorem found_iff_mentions_iff :
    (Found inCode name text ↔ Mentions inCode name text) ↔
      Tight inCode name text ∨ (Stray inCode name text ↔ Spaced inCode name text) := by
  rw [Found, mentions_iff]
  tauto

/-- The name stands somewhere in the text where no longer name ends. -/
def hasStart (name text : List Char) : Bool :=
  text.inits.any fun before =>
    Text.startsWith name (text.drop before.length) &&
      before.getLast?.all fun c => !isNamePart c

theorem Mentions.hasStart
    (h : Mentions inCode name text) :
    hasStart name text = true := by
  obtain ⟨before, gap, after, h⟩ := h
  have hsplit := h.split
  rw [List.append_assoc, List.append_assoc] at hsplit
  rw [Script.hasStart, List.any_eq_true]
  refine ⟨before, List.mem_inits _ _ |>.mpr ⟨_, hsplit.symm⟩, ?_⟩
  rw [hsplit, List.drop_left, Bool.and_eq_true, Option.all_eq_true]
  refine ⟨Text.startsWith_iff.mpr ⟨_, rfl⟩, ?_⟩
  intro c hc
  rw [h.starts c hc]
  rfl

end Script

namespace CustomCommand

/-- A statement that is copied ends the reading of a body without choices if one of two names is
found in it. -/
theorem stopsBody_raw_iff
    (inCode : Nat → Bool)
    (text : String)
    (span : Span) :
    stopsBody false (.raw text span) = true ↔
      ∃ name ∈ ["cy", "Cypress"], Script.Found inCode name.toList text.toList := by
  have hcypress : "Cypress.".toList = "Cypress".toList ++ ['.'] := by
    decide
  rw [stopsBody, Bool.not_false, Bool.true_and, Bool.or_eq_true,
    Script.occursIn_cy_iff_found inCode, Script.occursIn_iff_found hcypress inCode]
  simp

end CustomCommand

namespace Output

/-- What is written before a statement in which calls were found. -/
def nestedWarning (depth : Nat) (span : Span) : Written :=
  Written.warnings span ["Cypress code nested in a callback or block was left as written"] ++
    Written.line depth "// TODO: Convert the nested Cypress calls below"

/-- The warning is written for a statement exactly if the search finds something in it. -/
theorem writeRaw_cases
    (inCode : Nat → Bool)
    (depth : Nat)
    (text : String)
    (span : Span) :
    (Script.Found inCode "cy".toList text.toList →
      writeRaw depth text span = nestedWarning depth span ++ Written.block depth text) ∧
    (¬Script.Found inCode "cy".toList text.toList →
      writeRaw depth text span = Written.block depth text) := by
  rw [← Script.occursIn_cy_iff_found]
  unfold writeRaw
  constructor
  · intro h
    rw [if_pos h]
    rfl
  · intro h
    rw [if_neg h, Written.empty_append]

/-- For every reading of what is code: the warning about nested calls is written for a statement of
a test or hook, and a statement ends the reading of a body without choices, exactly if a name is
mentioned in it without blanks before the dot, or found where it is not mentioned. That agrees with
the mentions in a text exactly if there is one without blanks, or if there are stray finds just when
there are mentions with blanks. -/
theorem nested_calls_found_iff
    (inCode : String → Nat → Bool)
    (spec : SpecFile)
    (output : List Path.Component)
    (registry : Registry)
    (definition : Definition) :
    (∀ file depth text span,
      TestFile.ofSpec spec output registry = .ok file →
      (depth, Statement.raw text span) ∈ TestNode.placedOf 0 spec.nodes →
      ∃ part whole,
        writeStatement registry depth (.raw text span) = .ok part ∧
        Written.PartOf part whole ∧
        file = TestFile.ofWritten output whole ∧
        (Script.Found (inCode text) "cy".toList text.toList →
          part = nestedWarning depth span ++ Written.block depth text) ∧
        (¬Script.Found (inCode text) "cy".toList text.toList →
          part = Written.block depth text)) ∧
    (∀ snippet, Snippet.ofSource definition.body = .ok snippet →
      snippet.branching = false →
      (CustomCommand.lowerDefinition definition = .ok none ↔
        (∃ command span, Statement.command command span ∈ snippet.statements ∧
          command.lower.hasTodo = true) ∨
        ∃ text span, Statement.raw text span ∈ snippet.statements ∧
          ∃ name ∈ ["cy", "Cypress"], Script.Found (inCode text) name.toList text.toList)) ∧
    (∀ name text : String,
      (Script.Found (inCode text) name.toList text.toList ↔
        Script.Mentions (inCode text) name.toList text.toList) ↔
      (Script.Tight (inCode text) name.toList text.toList ∨
        (Script.Stray (inCode text) name.toList text.toList ↔
          Script.Spaced (inCode text) name.toList text.toList))) := by
  refine ⟨?_, ?_, ?_⟩
  · intro file depth text span hfile hplaced
    obtain ⟨whole, hwhole, rfl⟩ := Failure.map_eq_ok.mp hfile
    obtain ⟨part, hpart, hin⟩ := partOf_writeNodes spec.nodes hwhole hplaced
    obtain rfl : writeRaw depth text span = part := Except.ok.inj hpart
    exact ⟨_, whole, rfl, hin, rfl, writeRaw_cases (inCode text) depth text span⟩
  · intro snippet hsnippet hbranching
    rw [CustomCommand.lowerDefinition_eq_none_iff hsnippet, hbranching]
    constructor
    · rintro ⟨statement, hmem, hstops⟩
      cases statement with
      | command command span =>
          refine .inl ⟨command, span, hmem, ?_⟩
          simpa [CustomCommand.stopsBody] using hstops
      | raw text span =>
          exact .inr ⟨text, span, hmem,
            (CustomCommand.stopsBody_raw_iff (inCode text) text span).mp hstops⟩
    · rintro (⟨command, span, hmem, htodo⟩ | ⟨text, span, hmem, hfound⟩)
      · exact ⟨_, hmem, by simp [CustomCommand.stopsBody, htodo]⟩
      · exact ⟨_, hmem, (CustomCommand.stopsBody_raw_iff (inCode text) text span).mpr hfound⟩
  · intro name text
    exact Script.found_iff_mentions_iff

/-- A statement with a call inside of a callback. -/
def callbackText : String :=
  "rows.forEach((row) => cy.get(row));"

/-- A test with such a statement. -/
def callbackSpec : SpecFile :=
  { path := "cypress/e2e/a.cy.js"
    nodes := [.test (.string "x") .none [.raw callbackText default] default] }

theorem found_callbackText
    (inCode : Nat → Bool) :
    Script.Found inCode "cy".toList callbackText.toList := by
  rw [← Script.occursIn_cy_iff_found]
  decide +kernel

theorem nested_calls_found_iff_callback :
    (∃ file, TestFile.ofSpec callbackSpec [] {} = .ok file ∧
      ∃ part whole, Written.PartOf part whole ∧ file = TestFile.ofWritten [] whole ∧
        part = nestedWarning 1 default ++ Written.block 1 callbackText) ∧
    CustomCommand.lowerDefinition { name := "pick", body := callbackText } = .ok none := by
  obtain ⟨hfile, hbody, -⟩ := nested_calls_found_iff (fun _ _ => true) callbackSpec [] {}
    { name := "pick", body := callbackText }
  constructor
  · obtain ⟨file, hspec⟩ : ∃ file, TestFile.ofSpec callbackSpec [] {} = .ok file := by
      exact Failure.exists_of_isSome (by decide +kernel)
    obtain ⟨part, whole, -, hin, hwhole, hfound, -⟩ :=
      hfile file 1 callbackText default hspec (by decide +kernel)
    exact ⟨file, hspec, part, whole, hin, hwhole, hfound (found_callbackText _)⟩
  · obtain ⟨snippet, hsnippet⟩ : ∃ snippet, Snippet.ofSource callbackText = .ok snippet := by
      exact Failure.exists_of_isSome (by decide +kernel)
    have hfacts : (Snippet.ofSource callbackText).toOption.map
        (fun snippet => (snippet.branching, snippet.statements)) =
          some (false, [.raw callbackText ⟨"<snippet>", ⟨⟨0, 0⟩, ⟨0, 35⟩⟩⟩]) := by
      decide +kernel
    rw [hsnippet] at hfacts
    simp only [Except.toOption, Option.map_some, Option.some.injEq, Prod.mk.injEq] at hfacts
    obtain ⟨hbranching, hstatements⟩ := hfacts
    have hmem : Statement.raw callbackText ⟨"<snippet>", ⟨⟨0, 0⟩, ⟨0, 35⟩⟩⟩ ∈
        snippet.statements := by
      rw [hstatements]
      exact List.mem_cons_self
    exact (hbody snippet hsnippet hbranching).mpr
      (.inr ⟨callbackText, _, hmem, "cy", List.mem_cons_self, found_callbackText _⟩)

/-- A statement with a call whose chain goes on in the next line. -/
def brokenText : String :=
  "const el = cy\n  .get('a');"

/-- A test with that statement after one with a name that ends like the driver object. -/
def policySpec : SpecFile :=
  { path := "cypress/e2e/a.cy.js"
    nodes :=
      [.test (.string "x") .none
        [.raw "policy.check();" ⟨"a.cy.js", ⟨⟨1, 2⟩, ⟨1, 17⟩⟩⟩,
         .raw brokenText ⟨"a.cy.js", ⟨⟨2, 2⟩, ⟨3, 14⟩⟩⟩] default] }

/-- A name that ends like the driver object is taken for a call on it, and a call whose chain goes
on in the next line is missed, in tests and in bodies. -/
theorem policy_taken_for_call :
    (TestFile.ofSpec policySpec [] {}).toOption.map (fun file => file.diagnostics) =
      some ["line 2: Cypress code nested in a callback or block was left as written"] ∧
    ((writeStatement {} 1 (.raw "policy.check();" default)).toOption.map (·.lines) =
      some ["  // TODO: Convert the nested Cypress calls below", "  policy.check();"]) ∧
    ((writeStatement {} 1 (.raw brokenText default)).toOption.map (·.lines) =
      some ["  const el = cy", "    .get('a');"]) ∧
    CustomCommand.lowerDefinition { name := "check", body := "policy.check();" } = .ok none ∧
    (CustomCommand.lowerDefinition { name := "pick", body := brokenText }).toOption.map
      Option.isSome = some true ∧
    (∀ inCode, ¬Script.Mentions inCode "cy".toList "policy.check();".toList) ∧
    (∀ inCode, ¬Script.Mentions inCode "Cypress".toList "policy.check();".toList) ∧
    ∀ inCode : Nat → Bool, (∀ i, inCode i = true) →
      Script.Mentions inCode "cy".toList brokenText.toList := by
  refine ⟨by decide +kernel, by decide +kernel, by decide +kernel, by decide +kernel,
    by decide +kernel, ?_, ?_, ?_⟩
  · intro inCode h
    exact absurd h.hasStart (by decide +kernel)
  · intro inCode h
    exact absurd h.hasStart (by decide +kernel)
  · intro inCode hall
    have hblank : "\n  ".toList.all Script.isGap = true := by
      decide +kernel
    refine ⟨"const el = ".toList, "\n  ".toList, "get('a');".toList, by decide +kernel, ?_,
      List.all_eq_true.mp hblank, fun i _ _ => hall i⟩
    intro c hc
    obtain rfl : ' ' = c := Option.some.inj (by simpa using hc)
    decide +kernel

end Output
end SuiteShift
