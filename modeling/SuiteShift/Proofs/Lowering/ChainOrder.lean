import SuiteShift.Proofs.Lowering.Dispatch
import Mathlib.Data.List.Forall2

/-!
# The order of statements

A chain that becomes a list of statements keeps the order of its calls.

- `StatesAt`: the statement of the call at a place, on the base with the refinements before that
  place and no other call.
- `forall₂_statesAt`: every call that makes a statement makes one, in order.
- `statements_without`: a call that makes a statement can be taken out without a change to the
  other statements.
- `statements_in_source_order`: all of it about whole commands.
-/

namespace SuiteShift
namespace Lowering

open Rule (CommandRule)

/-- The calls that make a statement, each with its place in the chain. -/
def statingCalls (calls : List Call) : List (Call × Nat) :=
  calls.zipIdx.filter fun entry => emits entry.1

/-- The statement of the call at a place of a chain: what the call comes to on the base with the
refinements before that place. -/
def StatesAt
    (command : Command)
    (base : String)
    (calls : List Call)
    (entry : Call × Nat)
    (statement : Emitted) : Prop :=
  ∃ locator,
    locatorAfter base (calls.take entry.2) = .ok locator ∧
    (callOutcome command locator entry.1).result = .ok (.statement statement)

theorem locatorAfter_append
    {base locator : String}
    {front : List Call}
    (h : locatorAfter base front = .ok locator)
    (back : List Call) :
    locatorAfter base (front ++ back) = locatorAfter locator back := by
  unfold locatorAfter at h ⊢
  rw [List.filterMap_append, List.foldlM_append, h]
  rfl

/-- A walk that has come to some place of a chain goes on in order. -/
theorem forall₂_statesAt_from
    {command : Command}
    {base locator : String}
    {seen calls : List Call}
    {made : List Emitted}
    (hlocator : locatorAfter base seen = .ok locator)
    (h : (chainStatements command locator calls).result = .ok made) :
    List.Forall₂ (StatesAt command base (seen ++ calls))
      ((calls.zipIdx seen.length).filter fun entry => emits entry.1) made := by
  induction calls generalizing seen locator made with
  | nil =>
      cases h
      exact .nil
  | cons call calls ih =>
      obtain ⟨applied, rest, happlied, hrest, rfl⟩ := chainStatements_cons_eq_ok.mp h
      have hafter : locatorAfter base (seen ++ [call]) = .ok (applied.after locator) := by
        rw [locatorAfter_append hlocator, locatorAfter_cons_of_ok happlied]
        rfl
      have htail := ih hafter hrest
      rw [List.append_assoc, List.singleton_append, List.length_append,
        List.length_singleton] at htail
      rw [List.zipIdx_cons]
      rcases callOutcome_of_ok happlied with
        ⟨statement, rfl, hemits, -⟩ | ⟨_, _, rfl, hemits, -⟩ | ⟨rfl, hemits, -⟩
      · rw [List.filter_cons_of_pos (by exact hemits)]
        refine .cons ⟨locator, ?_, happlied⟩ htail
        rw [List.take_left]
        exact hlocator
      · rw [List.filter_cons_of_neg (by simp [hemits])]
        exact htail
      · rw [List.filter_cons_of_neg (by simp [hemits])]
        exact htail

/-- Every call that makes a statement makes one, in order and on its own locator. -/
theorem forall₂_statesAt
    {command : Command}
    {base : String}
    {calls : List Call}
    {made : List Emitted}
    (h : (chainStatements command base calls).result = .ok made) :
    List.Forall₂ (StatesAt command base calls) (statingCalls calls) made := by
  exact forall₂_statesAt_from (locatorAfter_nil base) h

/-! ### No statement is empty -/

theorem isEmpty_of_mem_chainStatements
    {command : Command}
    {locator : String}
    {calls : List Call}
    {made : List Emitted}
    (h : (chainStatements command locator calls).result = .ok made) :
    ∀ statement ∈ made, statement.isEmpty = false := by
  induction calls generalizing locator made with
  | nil =>
      cases h
      simp
  | cons call calls ih =>
      obtain ⟨applied, rest, happlied, hrest, rfl⟩ := chainStatements_cons_eq_ok.mp h
      intro statement hmem
      rcases List.mem_append.mp hmem with hmem | hmem
      · rcases callOutcome_of_ok happlied with
          ⟨made, rfl, -, hne, -⟩ | ⟨_, _, rfl, -⟩ | ⟨rfl, -⟩
        · rw [Applied.emitted, List.mem_singleton] at hmem
          exact hmem ▸ hne
        · simp [Applied.emitted] at hmem
        · simp [Applied.emitted] at hmem
      · exact ih hrest statement hmem

theorem joinStatements_of_nonempty
    {made : List Emitted}
    (h : ∀ statement ∈ made, statement.isEmpty = false) :
    joinStatements made = ";\n".intercalate (made.map Emitted.render) := by
  unfold joinStatements
  rw [List.filter_eq_self.mpr]
  intro statement hmem
  rw [h statement hmem]
  rfl

/-! ### Taking a call out -/

/-- The chained calls have no part in the walk but as its argument. -/
theorem chainStatements_with_calls
    (command : Command)
    (others : List Call)
    (locator : String)
    (calls : List Call) :
    chainStatements { command with calls := others } locator calls =
      chainStatements command locator calls := by
  induction calls generalizing locator with
  | nil =>
      rfl
  | cons call calls ih =>
      simp only [chainStatements_cons, ih]
      rfl

/-- The chained calls have no part in what stands before them. -/
theorem chainStart_with_calls
    {command : Command}
    (hknown : (CommandRule.find? command.name).isSome = true)
    (others : List Call) :
    chainStart { command with calls := others } = chainStart command := by
  obtain ⟨rule, hrule⟩ := Option.isSome_iff_exists.mp hknown
  have hbase : commandStatement { command with calls := others } = commandStatement command := by
    unfold commandStatement
    simp only [hrule]
  unfold chainStart
  rw [hbase]
  rfl

/-- The statements of a list, after the base and along the chain. -/
theorem statements_eq_ok_iff
    {command : Command}
    {made : List Emitted}
    (hpath : TakesList command) :
    (statements command).result = .ok made ↔
      ∃ lead base chain,
        (chainStart command).result = .ok (lead, base) ∧
        (chainStatements command base command.calls).result = .ok chain ∧
        made = lead ++ chain := by
  rw [(statements_of_known hpath.1).2, knownStatements_of_takesList hpath, statementList_eq,
    Outcome.result_bind_eq_ok]
  constructor
  · rintro ⟨⟨lead, base⟩, hstart, h⟩
    rw [Outcome.result_bind_eq_ok] at h
    obtain ⟨chain, hchain, h⟩ := h
    cases h
    exact ⟨lead, base, chain, hstart, hchain, rfl⟩
  · rintro ⟨lead, base, chain, hstart, hchain, rfl⟩
    refine ⟨(lead, base), hstart, ?_⟩
    rw [Outcome.result_bind_eq_ok]
    exact ⟨chain, hchain, rfl⟩

/-- A call that makes a statement can be taken out of a walk, and nothing else changes. -/
theorem chainStatements_without
    {command : Command}
    {base : String}
    {before after : List Call}
    {call : Call}
    {made : List Emitted}
    (hemits : emits call = true)
    (h : (chainStatements command base (before ++ call :: after)).result = .ok made) :
    ∃ front statement back,
      made = front ++ statement :: back ∧
      StatesAt command base (before ++ call :: after) (call, before.length) statement ∧
      (chainStatements command base (before ++ after)).result = .ok (front ++ back) := by
  obtain ⟨front, locator, rest, hfront, hlocator, hrest, rfl⟩ :=
    chainStatements_append_eq_ok.mp h
  obtain ⟨applied, back, happlied, hback, rfl⟩ := chainStatements_cons_eq_ok.mp hrest
  -- The call leaves the locator as it is, so the calls after it never see that it is gone.
  obtain ⟨statement, rfl⟩ : ∃ statement, applied = .statement statement := by
    rcases callOutcome_of_ok happlied with ⟨statement, rfl, -⟩ | ⟨_, _, -, hno, -⟩ | ⟨-, hno, -⟩
    · exact ⟨statement, rfl⟩
    · rw [hemits] at hno
      cases hno
    · rw [hemits] at hno
      cases hno
  refine ⟨front, statement, back, rfl, ⟨locator, ?_, happlied⟩, ?_⟩
  · rw [List.take_left]
    exact hlocator
  · exact chainStatements_append_eq_ok.mpr ⟨front, locator, back, hfront, hlocator, hback, rfl⟩

/-- A call that makes a statement can be taken out of a command, and nothing else changes. -/
theorem statements_without
    {command : Command}
    {lead made : List Emitted}
    {base : String}
    {before after : List Call}
    {call : Call}
    (hpath : TakesList command)
    (hstart : (chainStart command).result = .ok (lead, base))
    (hcalls : command.calls = before ++ call :: after)
    (hemits : emits call = true)
    (hshorter : TakesList { command with calls := before ++ after })
    (hmade : (statements command).result = .ok made) :
    ∃ front statement back,
      made = lead ++ front ++ statement :: back ∧
      StatesAt command base command.calls (call, before.length) statement ∧
      (statements { command with calls := before ++ after }).result =
        .ok (lead ++ front ++ back) := by
  obtain ⟨lead, base, chain, hstart', hchain, rfl⟩ := (statements_eq_ok_iff hpath).mp hmade
  rw [hstart'] at hstart
  cases hstart
  rw [hcalls] at hchain ⊢
  obtain ⟨front, statement, back, rfl, hstates, hrest⟩ := chainStatements_without hemits hchain
  refine ⟨front, statement, back, (List.append_assoc _ _ _).symm, hstates, ?_⟩
  rw [statements_eq_ok_iff hshorter]
  refine ⟨lead, base, front ++ back, ?_, ?_, List.append_assoc _ _ _⟩
  · rw [chainStart_with_calls hpath.1]
    exact hstart'
  · rw [chainStatements_with_calls]
    exact hrest

/-- A command with one more call takes the same way. -/
theorem TakesList.insert
    {command : Command}
    {before after : List Call}
    (hpath : TakesList command)
    (hcalls : command.calls = before ++ after)
    (call : Call) :
    TakesList { command with calls := before ++ call :: after } := by
  refine ⟨hpath.1, ?_⟩
  rcases hpath.2 with ⟨hfirst, -⟩ | hmany
  · exact .inl ⟨hfirst, by simp⟩
  · right
    rw [hcalls, List.length_append] at hmany
    simp only [List.length_append, List.length_cons]
    omega

/-- The statements of a list stand in source order: the base if it runs first, then one for each
condition, action and unknown method, made on the base with the refinements before it. A call
that makes a statement can be taken out or put in without a change to the others. -/
theorem statements_in_source_order
    {command : Command}
    {made : List Emitted}
    (hpath : TakesList command)
    (hmade : (statements command).result = .ok made) :
    ∃ lead base chain,
      (chainStart command).result = .ok (lead, base) ∧
      made = lead ++ chain ∧
      List.Forall₂ (StatesAt command base command.calls) (statingCalls command.calls) chain ∧
      command.lower.code = ";\n".intercalate (made.map Emitted.render) ∧
      (∀ before call after,
        command.calls = before ++ call :: after →
        emits call = true →
        TakesList { command with calls := before ++ after } →
        ∃ front statement back,
          made = lead ++ front ++ statement :: back ∧
          StatesAt command base command.calls (call, before.length) statement ∧
          (statements { command with calls := before ++ after }).result =
            .ok (lead ++ front ++ back)) ∧
      (∀ before call after longer,
        command.calls = before ++ after →
        emits call = true →
        (statements { command with calls := before ++ call :: after }).result = .ok longer →
        ∃ front statement back,
          longer = lead ++ front ++ statement :: back ∧
          StatesAt command base (before ++ call :: after) (call, before.length) statement ∧
          made = lead ++ front ++ back) := by
  obtain ⟨lead, base, chain, hstart, hchain, hsplit⟩ := (statements_eq_ok_iff hpath).mp hmade
  refine ⟨lead, base, chain, hstart, hsplit, forall₂_statesAt hchain, ?_, ?_, ?_⟩
  · rw [Command.lower, finish, hmade]
    refine joinStatements_of_nonempty ?_
    intro statement hmem
    rw [hsplit, List.mem_append] at hmem
    rcases hmem with hmem | hmem
    · obtain ⟨text, suspends, hne, rfl⟩ := mem_lead_of_chainStart hpath.1 hstart hmem
      exact Emitted.isEmpty_code suspends hne
    · exact isEmpty_of_mem_chainStatements hchain statement hmem
  · intro before call after hcalls hemits hshorter
    exact statements_without hpath hstart hcalls hemits hshorter hmade
  · intro before call after longer hcalls hemits hlonger
    have hrestored : { command with calls := before ++ after } = command := by
      rw [← hcalls]
    rw [← chainStart_with_calls hpath.1 (before ++ call :: after)] at hstart
    obtain ⟨front, statement, back, hfront, hstates, hrest⟩ :=
      statements_without (hpath.insert hcalls call) hstart rfl hemits (hrestored ▸ hpath) hlonger
    refine ⟨front, statement, back, hfront, hstates, ?_⟩
    rw [hrestored, hmade] at hrest
    exact Except.ok.inj hrest

/-- A click between a refinement and a condition. -/
theorem statements_in_source_order_menu :
    (Command.lower ⟨"get", [.string "#menu"],
        [⟨"find", [.string ".item"]⟩, ⟨"click", []⟩, ⟨"should", [.string "be.visible"]⟩]⟩).code =
      "await page.locator('#menu').locator('.item').click();\n" ++
        "await expect(page.locator('#menu').locator('.item')).toBeVisible()" ∧
    ∃ front back,
      (statements ⟨"get", [.string "#menu"],
        [⟨"find", [.string ".item"]⟩, ⟨"should", [.string "be.visible"]⟩]⟩).result =
          .ok (front ++ back) := by
  have hmade :
      (statements ⟨"get", [.string "#menu"],
        [⟨"find", [.string ".item"]⟩, ⟨"click", []⟩, ⟨"should", [.string "be.visible"]⟩]⟩).result =
      .ok [.code "page.locator('#menu').locator('.item').click()" true,
        .code "expect(page.locator('#menu').locator('.item')).toBeVisible()" true] := by
    rfl
  obtain ⟨lead, base, chain, -, -, -, hcode, hwithout, -⟩ :=
    statements_in_source_order ⟨rfl, .inr (by decide)⟩ hmade
  obtain ⟨front, statement, back, -, -, hshorter⟩ :=
    hwithout [⟨"find", [.string ".item"]⟩] ⟨"click", []⟩ [⟨"should", [.string "be.visible"]⟩]
      rfl rfl ⟨rfl, .inr (by decide)⟩
  exact ⟨hcode, _, _, hshorter⟩

end Lowering
end SuiteShift
