import SuiteShift.Output.TestFile
import SuiteShift.Proofs.CustomCommand.Shape

/-!
# What a test file asks for

While a test file is written, it gathers what the calls in its tests and hooks need: one entry
for each call of a helper or a page method, in source order, and import lines of rules.

- `TestNode.bodyCommands`: the commands of tests and hooks.
- `Gathers`: what was gathered is what some commands need; it passes through `++`.
- `Additive`: a relation between commands and what is written for them that passes from the
  commands of a file to the file; `Additive.writeNodes`.
- `gathers_writeNodes`: a whole file.
-/

namespace SuiteShift

namespace TestNode

mutual

/-- The commands in tests and hooks, in source order; loose statements are not run. -/
def bodyCommands : TestNode → List Command
  | .suite _ _ children _ => bodyCommandsOf children
  | .test _ _ body _ => body.filterMap Statement.command?
  | .hook _ body _ => body.filterMap Statement.command?
  | .statement _ => []

/-- The commands in the tests and hooks of a list of nodes. -/
def bodyCommandsOf : List TestNode → List Command
  | [] => []
  | node :: nodes => node.bodyCommands ++ bodyCommandsOf nodes

end

end TestNode

namespace Output

/-- What a command in a test needs from the support files. -/
def helperUse? (registry : Registry) (command : Command) : Option HelperUse :=
  if (Rule.CommandRule.find? command.name).isSome then none
  else
    match registry.strategy? command.name with
    | some .utility => some (.function (Literal.identifier command.name))
    | some .pageObject => some .pageObject
    | _ => none

/-- What was gathered is what the commands need. -/
structure Gathers (registry : Registry) (commands : List Command) (written : Written) : Prop where
  helpers : written.helpers = commands.filterMap (helperUse? registry)
  imports : ∀ line ∈ written.imports, line ∈ Lowering.ruleImports

namespace Gathers

variable {registry : Registry}

theorem append
    {first second : List Command}
    {a b : Written}
    (ha : Gathers registry first a)
    (hb : Gathers registry second b) :
    Gathers registry (first ++ second) (a ++ b) := by
  refine ⟨?_, ?_⟩
  · rw [List.filterMap_append, ← ha.helpers, ← hb.helpers]
    rfl
  · intro line hline
    rcases List.mem_append.mp hline with hline | hline
    · exact ha.imports line hline
    · exact hb.imports line hline

/-- Text and warnings ask for nothing. -/
theorem of_nothing
    {written : Written}
    (hhelpers : written.helpers = [])
    (himports : written.imports = []) :
    Gathers registry [] written := by
  refine ⟨hhelpers, ?_⟩
  simp [himports]

theorem after_nothing
    {commands : List Command}
    {before body : Written}
    (hbefore : Gathers registry [] before)
    (hbody : Gathers registry commands body) :
    Gathers registry commands (before ++ body) := by
  exact hbefore.append hbody

theorem before_nothing
    {commands : List Command}
    {body after : Written}
    (hbody : Gathers registry commands body)
    (hafter : Gathers registry [] after) :
    Gathers registry commands (body ++ after) := by
  have hall := hbody.append hafter
  rwa [List.append_nil] at hall

end Gathers

variable {registry : Registry}

theorem gathers_block
    (depth : Nat)
    (code : String) :
    Gathers registry [] (Written.block depth code) := by
  exact .of_nothing rfl rfl

theorem gathers_warnings
    (span : Span)
    (messages : List String) :
    Gathers registry [] (Written.warnings span messages) := by
  exact .of_nothing rfl rfl

/-! ### Commands -/

/-- The code of a lowered command asks for import lines alone. -/
theorem gathers_writeResult
    (depth : Nat)
    (span : Span)
    (command : Command) :
    Gathers registry [] (writeResult depth span command.lower) := by
  have hneeds : Gathers registry []
      ({ imports := command.lower.imports.filter (· != Lowering.testImport) } : Written) := by
    refine ⟨rfl, ?_⟩
    intro line hline
    obtain ⟨hmem, hne⟩ := List.mem_filter.mp hline
    rw [bne_iff_ne] at hne
    exact (Lowering.mem_imports_lower hmem).resolve_left hne
  have hcode : Gathers registry [] (if command.lower.code.isEmpty then {}
      else Written.block depth (terminate command.lower.code)) := by
    split_ifs
    · exact .of_nothing rfl rfl
    · exact gathers_block _ _
  have hcounted : Gathers registry [] (Written.counted (!command.lower.hasTodo)) := by
    exact .of_nothing rfl rfl
  exact ((hcounted.append hneeds).append (gathers_warnings _ _)).append hcode

/-- What the code for a call needs. -/
theorem callSite?_needs
    {command : Command}
    {site : CallSite}
    (hname : (Rule.CommandRule.find? command.name).isSome = false)
    (h : registry.callSite? command = .ok (some site)) :
    site.helper = helperUse? registry command ∧
    ∀ line ∈ site.imports, line ∈ Lowering.ruleImports := by
  unfold Registry.callSite? at h
  unfold helperUse?
  rw [hname, if_neg Bool.false_ne_true]
  cases hstrategy : registry.strategy? command.name with
  | none =>
      rw [hstrategy] at h
      cases h
  | some strategy =>
      rw [hstrategy] at h
      obtain ⟨base, hbase, hsite⟩ := Failure.map_eq_ok.mp h
      rw [Option.some.injEq] at hsite
      -- Chained calls change neither the helper nor the import lines.
      have hchain : site.helper = base.helper ∧ site.imports = base.imports := by
        rw [← hsite, CallSite.withChain]
        split_ifs
        · exact ⟨rfl, rfl⟩
        · exact ⟨rfl, rfl⟩
      rw [hchain.1, hchain.2]
      cases strategy with
      | utility =>
          cases hbase
          exact ⟨rfl, List.forall_mem_nil _⟩
      | pageObject =>
          cases hbase
          exact ⟨rfl, List.forall_mem_nil _⟩
      | manual =>
          cases hbase
          exact ⟨rfl, List.forall_mem_nil _⟩
      | direct =>
          obtain ⟨c, hc, hbase⟩ := Failure.bind_eq_ok.mp hbase
          cases hbase
          have hshape := CustomCommand.wellShaped_classify hc
          unfold CallSite.ofClassification
          split_ifs
          · exact ⟨rfl, List.forall_mem_nil _⟩
          · refine ⟨rfl, ?_⟩
            intro line hline
            obtain ⟨hmem, hne⟩ := List.mem_filter.mp hline
            rw [bne_iff_ne] at hne
            exact (hshape.imports line hmem).resolve_left hne

theorem gathers_writeSite
    {command : Command}
    {site : CallSite}
    (hname : (Rule.CommandRule.find? command.name).isSome = false)
    (h : registry.callSite? command = .ok (some site))
    (depth : Nat)
    (span : Span) :
    Gathers registry [command] (writeSite depth span site) := by
  obtain ⟨hhelper, himports⟩ := callSite?_needs hname h
  have hneeds : Gathers registry [command]
      ({ imports := site.imports, helpers := site.helper.toList } : Written) := by
    refine ⟨?_, himports⟩
    dsimp only
    rw [hhelper]
    cases hneeds : helperUse? registry command with
    | none =>
        rw [List.filterMap_cons_none hneeds]
        rfl
    | some use =>
        rw [List.filterMap_cons_some hneeds]
        rfl
  have hcounted : Gathers registry [] (Written.counted site.converted) := by
    exact .of_nothing rfl rfl
  exact .before_nothing (.before_nothing (.after_nothing hcounted hneeds) (gathers_warnings _ _))
    (gathers_block _ _)

theorem helperUse?_of_known
    {command : Command}
    (h : (Rule.CommandRule.find? command.name).isSome = true) :
    helperUse? registry command = none := by
  rw [helperUse?, if_pos h]

theorem helperUse?_of_unregistered
    {command : Command}
    (h : registry.callSite? command = .ok none) :
    helperUse? registry command = none := by
  unfold Registry.callSite? at h
  unfold helperUse?
  cases hstrategy : registry.strategy? command.name with
  | none =>
      simp
  | some strategy =>
      rw [hstrategy] at h
      obtain ⟨base, -, hsite⟩ := Failure.map_eq_ok.mp h
      cases hsite

/-- A command that needs nothing may as well not be there. -/
theorem Gathers.cons_of_none
    {command : Command}
    {written : Written}
    (hnone : helperUse? registry command = none)
    (h : Gathers registry [] written) :
    Gathers registry [command] written := by
  refine ⟨?_, h.imports⟩
  rw [List.filterMap_cons_none hnone]
  exact h.helpers

theorem gathers_writeCommand
    {depth : Nat}
    {command : Command}
    {span : Span}
    {written : Written}
    (h : writeCommand registry depth command span = .ok written) :
    Gathers registry [command] written := by
  have hlowered := @gathers_writeResult registry depth span command
  unfold writeCommand at h
  dsimp only at h
  split_ifs at h with hknown
  · cases h
    exact hlowered.cons_of_none (helperUse?_of_known hknown)
  · rw [Bool.not_eq_true] at hknown
    obtain ⟨site?, hsite, h⟩ := Failure.bind_eq_ok.mp h
    cases site? with
    | none =>
        cases h
        exact hlowered.cons_of_none (helperUse?_of_unregistered hsite)
    | some site =>
        rw [← Except.ok.inj h]
        exact gathers_writeSite hknown hsite depth span

/-! ### Whole files -/

/-- A piece of a file with nothing in it that a command would leave. -/
def Written.IsText (written : Written) : Prop :=
  written.helpers = [] ∧ written.imports = [] ∧ written.converted = 0

theorem isText_writeRaw
    (depth : Nat)
    (text : String)
    (span : Span) :
    (writeRaw depth text span).IsText := by
  unfold writeRaw
  split_ifs
  · exact ⟨rfl, rfl, rfl⟩
  · exact ⟨rfl, rfl, rfl⟩

theorem isText_writeLoose
    (depth : Nat)
    (statement : Statement) :
    (writeLoose depth statement).IsText := by
  cases statement with
  | raw text span =>
      exact isText_writeRaw depth text span
  | command command span =>
      exact ⟨rfl, rfl, rfl⟩

/-- A relation between commands and what is written for them, which holds of a file if it holds of
text, of single commands, and of one piece after another. -/
structure Additive
    (registry : Registry)
    (R : List Command → Written → Prop) : Prop where
  text :
    ∀ {written}, written.IsText → R [] written
  append :
    ∀ {first second a b}, R first a → R second b → R (first ++ second) (a ++ b)
  command :
    ∀ {depth command span written},
      writeCommand registry depth command span = .ok written → R [command] written

namespace Additive

variable {R : List Command → Written → Prop}

theorem around
    (h : Additive registry R)
    {commands : List Command}
    {before body after : Written}
    (hbefore : before.IsText)
    (hbody : R commands body)
    (hafter : after.IsText) :
    R commands (before ++ body ++ after) := by
  have hall := h.append (h.append (h.text hbefore) hbody) (h.text hafter)
  rwa [List.nil_append, List.append_nil] at hall

theorem writeStatement
    (h : Additive registry R)
    {depth : Nat}
    {statement : Statement}
    {written : Written}
    (hwritten : writeStatement registry depth statement = .ok written) :
    R statement.command?.toList written := by
  cases statement with
  | raw text span =>
      cases hwritten
      exact h.text (isText_writeRaw depth text span)
  | command command span =>
      exact h.command hwritten

theorem writeBody
    (h : Additive registry R)
    {depth : Nat}
    {body : List Statement}
    {written : Written}
    (hwritten : writeBody registry depth body = .ok written) :
    R (body.filterMap Statement.command?) written := by
  induction body generalizing written with
  | nil =>
      cases hwritten
      exact h.text ⟨rfl, rfl, rfl⟩
  | cons statement body ih =>
      obtain ⟨first, hfirst, hwritten⟩ := Failure.bind_eq_ok.mp hwritten
      obtain ⟨rest, hrest, hwritten⟩ := Failure.bind_eq_ok.mp hwritten
      cases hwritten
      have hall := h.append (h.writeStatement hfirst) (ih hrest)
      cases hcommand : statement.command? with
      | none =>
          rw [List.filterMap_cons_none hcommand]
          rw [hcommand] at hall
          exact hall
      | some command =>
          rw [List.filterMap_cons_some hcommand]
          rw [hcommand] at hall
          exact hall

theorem writeHook
    (h : Additive registry R)
    {commands : List Command}
    {body : Written}
    (hbody : R commands body)
    (depth : Nat)
    (kind : HookKind)
    (span : Span) :
    R commands (writeHook depth kind span body) := by
  have hlast : ∀ inner, R commands inner → R commands (inner ++ Written.line depth blockEnd) := by
    intro inner hinner
    have hend : R [] (Written.line depth blockEnd) := h.text ⟨rfl, rfl, rfl⟩
    have hall := h.append hinner hend
    rwa [List.append_nil] at hall
  have honce : ∀ source name, R commands (writeOnce depth source name span body) := by
    intro source name
    unfold writeOnce
    exact hlast _ (h.around ⟨rfl, rfl, rfl⟩ hbody ⟨rfl, rfl, rfl⟩)
  cases kind with
  | before =>
      exact honce _ _
  | after =>
      exact honce _ _
  | beforeEach =>
      exact h.around ⟨rfl, rfl, rfl⟩ hbody ⟨rfl, rfl, rfl⟩
  | afterEach =>
      exact h.around ⟨rfl, rfl, rfl⟩ hbody ⟨rfl, rfl, rfl⟩

mutual

theorem writeNode
    (h : Additive registry R)
    {depth : Nat}
    {written : Written}
    (node : TestNode)
    (hwritten : writeNode registry depth node = .ok written) :
    R node.bodyCommands written := by
  cases node with
  | suite title modifier children span =>
      rw [Output.writeNode] at hwritten
      obtain ⟨body, hbody, hwritten⟩ := Failure.bind_eq_ok.mp hwritten
      cases hwritten
      rw [TestNode.bodyCommands]
      exact h.around ⟨rfl, rfl, rfl⟩ (h.writeNodes children hbody) ⟨rfl, rfl, rfl⟩
  | test title modifier statements span =>
      rw [Output.writeNode] at hwritten
      obtain ⟨body, hbody, hwritten⟩ := Failure.bind_eq_ok.mp hwritten
      cases hwritten
      rw [TestNode.bodyCommands]
      exact h.around ⟨rfl, rfl, rfl⟩ (h.writeBody hbody) ⟨rfl, rfl, rfl⟩
  | hook kind statements span =>
      rw [Output.writeNode] at hwritten
      obtain ⟨body, hbody, hwritten⟩ := Failure.bind_eq_ok.mp hwritten
      cases hwritten
      rw [TestNode.bodyCommands]
      exact h.writeHook (h.writeBody hbody) depth kind span
  | statement loose =>
      rw [Output.writeNode] at hwritten
      cases hwritten
      rw [TestNode.bodyCommands]
      exact h.text (isText_writeLoose depth loose)

/-- The relation holds of the commands in the tests and hooks of a file. -/
theorem writeNodes
    (h : Additive registry R)
    {depth : Nat}
    {afterBlock afterText : Bool}
    {written : Written}
    (nodes : List TestNode)
    (hwritten : writeNodes registry depth afterBlock afterText nodes = .ok written) :
    R (TestNode.bodyCommandsOf nodes) written := by
  cases nodes with
  | nil =>
      rw [Output.writeNodes] at hwritten
      cases hwritten
      rw [TestNode.bodyCommandsOf]
      exact h.text ⟨rfl, rfl, rfl⟩
  | cons node nodes =>
      rw [Output.writeNodes] at hwritten
      obtain ⟨part, hpart, hwritten⟩ := Failure.bind_eq_ok.mp hwritten
      obtain ⟨rest, hrest, hwritten⟩ := Failure.bind_eq_ok.mp hwritten
      cases hwritten
      rw [TestNode.bodyCommandsOf]
      have hgap : ∀ gap : Bool, R [] (if gap then Written.line 0 "" else {}) := by
        intro gap
        cases gap with
        | false =>
            exact h.text ⟨rfl, rfl, rfl⟩
        | true =>
            exact h.text ⟨rfl, rfl, rfl⟩
      exact h.append (h.append (hgap _) (h.writeNode node hpart)) (h.writeNodes nodes hrest)

end

end Additive

theorem additive_gathers :
    Additive registry (Gathers registry) where
  text := fun hwritten => .of_nothing hwritten.1 hwritten.2.1
  append := Gathers.append
  command := gathers_writeCommand

/-- A file asks for what the commands of its tests and hooks need. -/
theorem gathers_writeNodes
    {depth : Nat}
    {afterBlock afterText : Bool}
    {written : Written}
    (nodes : List TestNode)
    (h : writeNodes registry depth afterBlock afterText nodes = .ok written) :
    Gathers registry (TestNode.bodyCommandsOf nodes) written := by
  exact additive_gathers.writeNodes nodes h

end Output
end SuiteShift
