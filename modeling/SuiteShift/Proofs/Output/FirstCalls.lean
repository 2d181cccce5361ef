import SuiteShift.Proofs.Output.SpecOrder

/-!
# Commands that are only called

A well-known command that is called somewhere, though nothing registers it and no rule of its own
translates it, is classified once, by the first of its calls.

- `TestNode.Calls`: where in a part of a test file a command may stand.
- `find?_of_mem_firstCalls`: what is listed as a first call is the first call of its name.
- `pairwise_firstCalls`: first calls are listed in source order.
- `classified_once`: the custom commands of a whole project.
-/

namespace SuiteShift

namespace TestNode

/-- The command stands in the part: in a test, in a hook, outside of both, or in a suite with such
a part, however deep. -/
inductive Calls : TestNode → Command → Prop
  | suite
      {title : Value}
      {modifier : Modifier}
      {children : List TestNode}
      {span : Span}
      {child : TestNode}
      {command : Command}
      (hchild : child ∈ children)
      (hcalls : child.Calls command) :
      Calls (.suite title modifier children span) command
  | test
      {title : Value}
      {modifier : Modifier}
      {body : List Statement}
      {span place : Span}
      {command : Command}
      (hbody : .command command place ∈ body) :
      Calls (.test title modifier body span) command
  | hook
      {kind : HookKind}
      {body : List Statement}
      {span place : Span}
      {command : Command}
      (hbody : .command command place ∈ body) :
      Calls (.hook kind body span) command
  | loose
      {place : Span}
      {command : Command} :
      Calls (.statement (.command command place)) command

theorem mem_filterMap_command?_iff
    {body : List Statement}
    {command : Command} :
    command ∈ body.filterMap Statement.command? ↔ ∃ place, .command command place ∈ body := by
  rw [List.mem_filterMap]
  constructor
  · rintro ⟨statement, hmem, hcommand⟩
    cases statement with
    | command call place =>
        cases hcommand
        exact ⟨place, hmem⟩
    | raw text place =>
        cases hcommand
  · rintro ⟨place, hmem⟩
    exact ⟨_, hmem, rfl⟩

mutual

/-- The commands of a part are those that stand in it. -/
theorem mem_commands_iff
    (node : TestNode)
    {command : Command} :
    command ∈ node.commands ↔ node.Calls command := by
  cases node with
  | suite title modifier children span =>
      rw [commands, mem_commandsOf_iff children]
      constructor
      · rintro ⟨child, hchild, hcalls⟩
        exact .suite hchild hcalls
      · rintro ⟨⟩
        exact ⟨_, ‹_›, ‹_›⟩
  | test title modifier body span =>
      rw [commands, mem_filterMap_command?_iff]
      constructor
      · rintro ⟨place, hbody⟩
        exact .test hbody
      · rintro ⟨⟩
        exact ⟨_, ‹_›⟩
  | hook kind body span =>
      rw [commands, mem_filterMap_command?_iff]
      constructor
      · rintro ⟨place, hbody⟩
        exact .hook hbody
      · rintro ⟨⟩
        exact ⟨_, ‹_›⟩
  | statement loose =>
      rw [commands, Option.mem_toList]
      constructor
      · intro hcommand
        cases loose with
        | command call place =>
            cases hcommand
            exact .loose
        | raw text place =>
            cases hcommand
      · rintro ⟨⟩
        rfl

theorem mem_commandsOf_iff
    (nodes : List TestNode)
    {command : Command} :
    command ∈ commandsOf nodes ↔ ∃ node ∈ nodes, node.Calls command := by
  cases nodes with
  | nil =>
      simp [commandsOf]
  | cons node nodes =>
      rw [commandsOf, List.mem_append, mem_commands_iff node, mem_commandsOf_iff nodes,
        List.exists_mem_cons_iff]

end

end TestNode

namespace Output

theorem mem_commandsIn_iff
    {specs : List SpecFile}
    {command : Command} :
    command ∈ commandsIn specs ↔ ∃ spec ∈ specs, ∃ node ∈ spec.nodes, node.Calls command := by
  rw [commandsIn, List.mem_flatMap]
  simp only [TestNode.mem_commandsOf_iff]

/-! ### First calls in a list of commands -/

/-- A call that is passed over has another name than all first calls after it. -/
theorem name_ne_of_mem_firstCalls
    {known : List String}
    {commands : List Command}
    {head command : Command}
    (hskipped : ¬(isPatternCall head && !known.contains head.name) = true)
    (h : command ∈ firstCalls known commands) :
    head.name ≠ command.name := by
  intro hname
  obtain ⟨-, hpattern, hnew⟩ := of_mem_firstCalls h
  rw [isPatternCall, ← hname, ← isPatternCall] at hpattern
  rw [← hname] at hnew
  simp [hpattern, hnew] at hskipped

/-- What is listed as a first call is the first call of its name. -/
theorem find?_of_mem_firstCalls
    {known : List String}
    {commands : List Command}
    {command : Command}
    (h : command ∈ firstCalls known commands) :
    commands.find? (fun call => call.name == command.name) = some command := by
  induction commands generalizing known with
  | nil =>
      simp [firstCalls] at h
  | cons head commands ih =>
      rw [firstCalls] at h
      split_ifs at h with htaken
      · rcases List.mem_cons.mp h with rfl | h
        · exact List.find?_cons_of_pos (by simp)
        · have hne : head.name ≠ command.name := by
            intro hname
            exact (of_mem_firstCalls h).2.2 (hname ▸ List.mem_cons_self)
          rw [List.find?_cons_of_neg (by simpa using hne), ih h]
      · rw [List.find?_cons_of_neg (by simpa using name_ne_of_mem_firstCalls htaken h), ih h]

/-- The place of the first call of a name. -/
def placeIn (commands : List Command) (name : String) : Nat :=
  commands.findIdx fun call => call.name == name

theorem placeIn_cons_self
    (head : Command)
    (commands : List Command) :
    placeIn (head :: commands) head.name = 0 := by
  simp [placeIn, List.findIdx_cons]

theorem placeIn_cons_of_ne
    {head : Command}
    {name : String}
    (h : head.name ≠ name)
    (commands : List Command) :
    placeIn (head :: commands) name = placeIn commands name + 1 := by
  have hne : (head.name == name) = false := by
    simpa using h
  rw [placeIn, List.findIdx_cons, hne]
  rfl

/-- First calls are listed in source order. -/
theorem pairwise_firstCalls
    (known : List String)
    (commands : List Command) :
    (firstCalls known commands).Pairwise fun first second =>
      placeIn commands first.name < placeIn commands second.name := by
  induction commands generalizing known with
  | nil =>
      exact .nil
  | cons head commands ih =>
      have hshift : ∀ known,
          (∀ command ∈ firstCalls known commands, head.name ≠ command.name) →
            (firstCalls known commands).Pairwise fun first second =>
              placeIn (head :: commands) first.name < placeIn (head :: commands) second.name := by
        intro known hne
        refine (ih known).imp_of_mem ?_
        intro first second hfirst hsecond hlt
        rw [placeIn_cons_of_ne (hne first hfirst), placeIn_cons_of_ne (hne second hsecond)]
        exact Nat.succ_lt_succ hlt
      rw [firstCalls]
      split_ifs with htaken
      · have hne : ∀ command ∈ firstCalls (head.name :: known) commands,
            head.name ≠ command.name := by
          intro command hcommand hname
          exact (of_mem_firstCalls hcommand).2.2 (hname ▸ List.mem_cons_self)
        refine List.pairwise_cons.mpr ⟨?_, hshift _ hne⟩
        intro command hcommand
        rw [placeIn_cons_self, placeIn_cons_of_ne (hne command hcommand)]
        exact Nat.succ_pos _
      · exact hshift known fun command hcommand => name_ne_of_mem_firstCalls htaken hcommand

/-! ### Commands of a project -/

/-- A well-known command that is called in some file, though no rule of its own translates it and
no definition registers it. -/
structure IsOnlyCalled
    (definitions : List Definition)
    (specs : List SpecFile)
    (name : String) : Prop where
  called :
    ∃ spec ∈ specs, ∃ node ∈ spec.nodes, ∃ command, node.Calls command ∧ command.name = name
  pattern : CustomCommand.hasPattern name = true
  noRule : Rule.CommandRule.find? name = none
  notDefined : ∀ definition ∈ definitions, definition.name ≠ name

theorem isOnlyCalled_iff
    {definitions : List Definition}
    {specs : List SpecFile}
    {name : String} :
    IsOnlyCalled definitions specs name ↔
      ∃ command ∈ firstCalls (definitions.map (·.name)) (commandsIn specs),
        command.name = name := by
  constructor
  · rintro ⟨⟨spec, hspec, node, hnode, command, hcalls, rfl⟩, hpattern, hrule, hdefined⟩
    refine exists_firstCall (mem_commandsIn_iff.mpr ⟨spec, hspec, node, hnode, hcalls⟩) ?_ ?_
    · rw [isPatternCall, hrule, hpattern]
      rfl
    · intro hmem
      obtain ⟨definition, hdefinition, hname⟩ := List.mem_map.mp hmem
      exact hdefined definition hdefinition hname
  · rintro ⟨command, hcommand, rfl⟩
    obtain ⟨hmem, hpattern, hnew⟩ := of_mem_firstCalls hcommand
    obtain ⟨spec, hspec, node, hnode, hcalls⟩ := mem_commandsIn_iff.mp hmem
    rw [isPatternCall, Bool.and_eq_true, Option.isNone_iff_eq_none] at hpattern
    refine ⟨⟨spec, hspec, node, hnode, command, hcalls, rfl⟩, hpattern.2, hpattern.1, ?_⟩
    intro definition hdefinition hname
    exact hnew (List.mem_map.mpr ⟨definition, hdefinition, hname⟩)

theorem classifyAll_eq_ok_iff
    {definitions : List Definition}
    {specs : List SpecFile}
    {results : List Classification} :
    classifyAll definitions specs = .ok results ↔
      ∃ defined called,
        definitions.mapM CustomCommand.classifyDefinition = .ok defined ∧
        classifyCalls (firstCalls (definitions.map (·.name)) (commandsIn specs)) = .ok called ∧
        results = defined ++ called := by
  constructor
  · intro h
    obtain ⟨defined, hdefined, h⟩ := Failure.bind_eq_ok.mp h
    obtain ⟨called, hcalled, h⟩ := Failure.bind_eq_ok.mp h
    rw [CustomCommand.names_of_classifyDefinitions hdefined] at hcalled
    cases h
    exact ⟨defined, called, hdefined, hcalled, rfl⟩
  · rintro ⟨defined, called, hdefined, hcalled, rfl⟩
    rw [← CustomCommand.names_of_classifyDefinitions hdefined] at hcalled
    exact Failure.bind_eq_ok.mpr ⟨defined, hdefined,
      Failure.bind_eq_ok.mpr ⟨called, hcalled, rfl⟩⟩

/-- The first call of a name in a list of files. -/
def firstCall? (specs : List SpecFile) (name : String) : Option Command :=
  (commandsIn specs).find? fun call => call.name == name

theorem classifyCalls_firstCalls_iff
    {known : List String}
    {specs : List SpecFile}
    {called : List Classification} :
    classifyCalls (firstCalls known (commandsIn specs)) = .ok called ↔
      List.Forall₂
        (fun name c => ∃ command,
          firstCall? specs name = some command ∧
          CustomCommand.classify command.source = .ok c)
        ((firstCalls known (commandsIn specs)).map (·.name)) called := by
  have hfirst : ∀ command ∈ firstCalls known (commandsIn specs),
      firstCall? specs command.name = some command := by
    intro command hcommand
    exact find?_of_mem_firstCalls hcommand
  rw [classifyCalls, Failure.mapM_eq_ok_iff, List.forall₂_map_left_iff]
  constructor
  · intro h
    refine ((List.forall₂_and_left _ _).mpr ⟨hfirst, h⟩).imp ?_
    rintro command c ⟨hcommand, hc⟩
    exact ⟨command, hcommand, hc⟩
  · intro h
    refine ((List.forall₂_and_left _ _).mpr ⟨hfirst, h⟩).imp ?_
    rintro command c ⟨hcommand, first, hsame, hc⟩
    rw [hcommand, Option.some_inj] at hsame
    exact hsame ▸ hc

/-- A project is classified when each of its definitions is, and the first call of each well-known
command that is only called. The results are those of the definitions in their order and with their
names, then those of the calls, one for each name, in the order of the first calls. -/
theorem classified_once
    (definitions : List Definition)
    (specs : List SpecFile) :
    ∃ names : List String,
      (∀ name, name ∈ names ↔ IsOnlyCalled definitions specs name) ∧
      names.Nodup ∧
      names.Pairwise (fun first second =>
        placeIn (commandsIn specs) first < placeIn (commandsIn specs) second) ∧
      ∀ results, classifyAll definitions specs = .ok results ↔
        ∃ defined called,
          results = defined ++ called ∧
          List.Forall₂
            (fun definition c =>
              CustomCommand.classifyDefinition definition = .ok c ∧ c.name = definition.name)
            definitions defined ∧
          List.Forall₂
            (fun name c => ∃ command,
              firstCall? specs name = some command ∧
              CustomCommand.classify command.source = .ok c)
            names called := by
  have hordered : ((firstCalls (definitions.map (·.name)) (commandsIn specs)).map (·.name)).Pairwise
      fun first second =>
        placeIn (commandsIn specs) first < placeIn (commandsIn specs) second :=
    List.pairwise_map.mpr (pairwise_firstCalls _ _)
  refine ⟨_, fun name => ?_, ?_, hordered, fun results => ?_⟩
  · rw [isOnlyCalled_iff, List.mem_map]
  · exact hordered.imp fun hlt => by
      rintro rfl
      exact absurd hlt (Nat.lt_irrefl _)
  · rw [classifyAll_eq_ok_iff]
    simp only [classifyCalls_firstCalls_iff, Failure.mapM_eq_ok_iff]
    constructor
    · rintro ⟨defined, called, hdefined, hcalled, rfl⟩
      refine ⟨defined, called, rfl, hdefined.imp ?_, hcalled⟩
      intro definition c hc
      exact ⟨hc, CustomCommand.name_classifyDefinition hc⟩
    · rintro ⟨defined, called, rfl, hdefined, hcalled⟩
      refine ⟨defined, called, hdefined.imp ?_, hcalled, rfl⟩
      rintro definition c ⟨hc, -⟩
      exact hc

end Output
end SuiteShift
