import SuiteShift.Proofs.CustomCommand.Name
import SuiteShift.Proofs.Output.ImportClosure

/-!
# The order of the source files

A well-known command that no definition registers is classified once, by the first of its calls
in the project. Which call that is depends on the order of the source files; the generated tests
do not, as long as the calls that may come first are classified alike.

- `mem_firstCalls_commandsIn`: a first call of the project is a first call of its file.
- `exists_firstCall_of_perm`: files in another order have first calls of the same names.
- `strategy?_classifyAll_perm`: the registry gives every name the same strategy.
- `generateSpec_congr`: the tests of a file depend on the strategies alone.
- `tests_independent_of_order`: the whole project.
-/

namespace SuiteShift
namespace Output

/-! ### First calls -/

theorem of_mem_firstCalls
    {known : List String}
    {commands : List Command}
    {command : Command}
    (h : command ∈ firstCalls known commands) :
    command ∈ commands ∧ isPatternCall command = true ∧ command.name ∉ known := by
  induction commands generalizing known with
  | nil =>
      simp [firstCalls] at h
  | cons first commands ih =>
      rw [firstCalls] at h
      split_ifs at h with htaken
      · rw [Bool.and_eq_true, Bool.not_eq_true', List.contains_eq_mem,
          decide_eq_false_iff_not] at htaken
        rcases List.mem_cons.mp h with rfl | h
        · exact ⟨List.mem_cons_self, htaken⟩
        · obtain ⟨hmem, hpattern, hname⟩ := ih h
          exact ⟨List.mem_cons_of_mem _ hmem, hpattern, fun hknown =>
            hname (List.mem_cons_of_mem _ hknown)⟩
      · obtain ⟨hmem, hpattern⟩ := ih h
        exact ⟨List.mem_cons_of_mem _ hmem, hpattern⟩

/-- A call that comes first among more known names comes first among fewer. -/
theorem firstCalls_mono
    {known more : List String}
    {commands : List Command}
    {command : Command}
    (hsubset : known ⊆ more)
    (h : command ∈ firstCalls more commands) :
    command ∈ firstCalls known commands := by
  induction commands generalizing known more with
  | nil =>
      simp [firstCalls] at h
  | cons first commands ih =>
      rw [firstCalls] at h ⊢
      by_cases hpattern : isPatternCall first = true
      · by_cases hmore : first.name ∈ more
        · -- Passed over among more names: the name is known there.
          have h : command ∈ firstCalls more commands := by
            simpa [hpattern, hmore] using h
          by_cases hknown : first.name ∈ known
          · simpa [hpattern, hknown] using ih hsubset h
          · simpa [hpattern, hknown] using
              .inr (ih (List.cons_subset.mpr ⟨hmore, hsubset⟩) h)
        · have hknown : first.name ∉ known := fun hknown => hmore (hsubset hknown)
          have h : command = first ∨ command ∈ firstCalls (first.name :: more) commands := by
            simpa [hpattern, hmore] using h
          have hrest := h.imp_right (ih (List.cons_subset_cons _ hsubset))
          simpa [hpattern, hknown] using hrest
      · simpa [hpattern] using ih hsubset (by simpa [hpattern] using h)

theorem mem_firstCalls_append
    {known : List String}
    {before after : List Command}
    {command : Command}
    (h : command ∈ firstCalls known (before ++ after)) :
    command ∈ firstCalls known before ∨ command ∈ firstCalls known after := by
  induction before generalizing known with
  | nil =>
      exact .inr h
  | cons first before ih =>
      rw [List.cons_append, firstCalls] at h
      rw [firstCalls]
      split_ifs at h ⊢ with htaken
      · rcases List.mem_cons.mp h with rfl | h
        · exact .inl List.mem_cons_self
        · rcases ih h with h | h
          · exact .inl (List.mem_cons_of_mem _ h)
          · exact .inr (firstCalls_mono (List.subset_cons_self _ _) h)
      · exact ih h

/-- A first call of the project is a first call of its file. -/
theorem mem_firstCalls_commandsIn
    {known : List String}
    {specs : List SpecFile}
    {command : Command}
    (h : command ∈ firstCalls known (commandsIn specs)) :
    ∃ spec ∈ specs, command ∈ firstCalls known (TestNode.commandsOf spec.nodes) := by
  induction specs with
  | nil =>
      simp [commandsIn, firstCalls] at h
  | cons spec specs ih =>
      rcases mem_firstCalls_append h with h | h
      · exact ⟨spec, List.mem_cons_self, h⟩
      · obtain ⟨other, hother, h⟩ := ih h
        exact ⟨other, List.mem_cons_of_mem _ hother, h⟩

/-- Every well-known name that is called and not known has a first call. -/
theorem exists_firstCall
    {known : List String}
    {commands : List Command}
    {command : Command}
    (hmem : command ∈ commands)
    (hpattern : isPatternCall command = true)
    (hname : command.name ∉ known) :
    ∃ first ∈ firstCalls known commands, first.name = command.name := by
  induction commands generalizing known with
  | nil =>
      simp at hmem
  | cons head commands ih =>
      rw [firstCalls]
      split_ifs with htaken
      · by_cases hhead : head.name = command.name
        · exact ⟨head, List.mem_cons_self, hhead⟩
        · have hrest : command ∈ commands := by
            exact List.mem_of_ne_of_mem (fun heq => hhead (heq ▸ rfl)) hmem
          have hnew : command.name ∉ head.name :: known := by
            simp [hname, Ne.symm hhead]
          obtain ⟨first, hfirst, heq⟩ := ih hrest hnew
          exact ⟨first, List.mem_cons_of_mem _ hfirst, heq⟩
      · have hrest : command ∈ commands := by
          refine List.mem_of_ne_of_mem ?_ hmem
          rintro rfl
          simp [hpattern, hname] at htaken
        exact ih hrest hname

/-- Files in another order have first calls of the same names. -/
theorem exists_firstCall_of_perm
    {known : List String}
    {specs others : List SpecFile}
    {command : Command}
    (hperm : specs.Perm others)
    (h : command ∈ firstCalls known (commandsIn specs)) :
    ∃ first ∈ firstCalls known (commandsIn others), first.name = command.name := by
  obtain ⟨hmem, hpattern, hname⟩ := of_mem_firstCalls h
  have hcommands : (commandsIn specs).Perm (commandsIn others) := hperm.flatMap_right _
  exact exists_firstCall (hcommands.subset hmem) hpattern hname

/-! ### Calls that agree -/

/-- The name and the strategy that a call is classified as. -/
def registeredAs? (command : Command) : Option (String × Strategy) :=
  (CustomCommand.classify command.source).toOption.map fun c => (c.name, c.strategy)

/-- The first calls of well-known commands that a project does not define, in a given order of
its source files. -/
def undefinedCalls (project : Project) (specs : List SpecFile) : List Command :=
  firstCalls (project.definitions.map (·.name)) (commandsIn specs)

/-- Classifies calls, each by itself. -/
def classifyCalls (calls : List Command) : Except SourceError (List Classification) :=
  calls.mapM fun command => CustomCommand.classify command.source

/-- The calls that may come first in some order of the source files: the first ones of each. -/
def candidates (project : Project) : List Command :=
  project.specs.flatMap fun spec =>
    firstCalls (project.definitions.map (·.name)) (TestNode.commandsOf spec.nodes)

/-- The calls that may come first are classified alike when they have one name, and when they
are registered under one name. -/
def CallsAgree (project : Project) : Prop :=
  ∀ c ∈ candidates project, ∀ d ∈ candidates project,
    c.name = d.name ∨ (registeredAs? c).map Prod.fst = (registeredAs? d).map Prod.fst →
      registeredAs? c = registeredAs? d

instance (project : Project) : Decidable (CallsAgree project) :=
  inferInstanceAs (Decidable (∀ c ∈ candidates project, ∀ d ∈ candidates project, _ → _))

theorem mem_candidates
    {project : Project}
    {specs : List SpecFile}
    {command : Command}
    (hperm : specs.Perm project.specs)
    (h : command ∈ undefinedCalls project specs) :
    command ∈ candidates project := by
  obtain ⟨spec, hspec, h⟩ := mem_firstCalls_commandsIn h
  exact List.mem_flatMap.mpr ⟨spec, hperm.subset hspec, h⟩

/-- Files in another order have first calls that are classified alike. -/
theorem exists_alike_of_perm
    {project : Project}
    {specs others : List SpecFile}
    {command : Command}
    (hagree : CallsAgree project)
    (hspecs : specs.Perm project.specs)
    (hothers : others.Perm project.specs)
    (h : command ∈ undefinedCalls project specs) :
    ∃ first ∈ undefinedCalls project others,
      registeredAs? first = registeredAs? command := by
  obtain ⟨first, hfirst, hname⟩ := exists_firstCall_of_perm (hspecs.trans hothers.symm) h
  refine ⟨first, hfirst, hagree _ ?_ _ ?_ (.inl hname)⟩
  · exact mem_candidates hothers hfirst
  · exact mem_candidates hspecs h

/-! ### Registries -/

namespace Registry

/-- Entries with one name have one strategy. -/
def Functional (registry : Registry) : Prop :=
  ∀ a ∈ registry.entries, ∀ b ∈ registry.entries, a.1 = b.1 → a = b

/-- Where entries do not differ, the last one of a name is any one of it. -/
theorem strategy?_eq_some_iff
    {registry : Registry}
    {name : String}
    {strategy : Strategy}
    (h : registry.Functional) :
    registry.strategy? name = some strategy ↔ (name, strategy) ∈ registry.entries := by
  constructor
  · intro hfound
    rw [strategy?, Option.map_eq_some_iff] at hfound
    obtain ⟨entry, hentry, rfl⟩ := hfound
    have hname : entry.1 = name := by
      simpa using List.find?_some hentry
    rw [← hname]
    exact List.mem_reverse.mp (List.mem_of_find?_eq_some hentry)
  · intro hmem
    have hsome : (registry.entries.reverse.find? fun entry => entry.1 == name).isSome = true := by
      rw [List.find?_isSome]
      exact ⟨_, List.mem_reverse.mpr hmem, by simp⟩
    obtain ⟨entry, hentry⟩ := Option.isSome_iff_exists.mp hsome
    have hname : entry.1 = name := by
      simpa using List.find?_some hentry
    have heq : entry = (name, strategy) := by
      exact h _ (List.mem_reverse.mp (List.mem_of_find?_eq_some hentry)) _ hmem hname
    rw [strategy?, hentry, heq, Option.map_some]

/-- Registries with the same entries, in whichever order, give the same strategies. -/
theorem strategy?_eq_of_entries
    {a b : Registry}
    (ha : a.Functional)
    (hsame : ∀ entry, entry ∈ a.entries ↔ entry ∈ b.entries) :
    a.strategy? = b.strategy? := by
  have hb : b.Functional := by
    intro first hfirst second hsecond
    exact ha _ ((hsame first).mpr hfirst) _ ((hsame second).mpr hsecond)
  funext name
  ext strategy
  rw [strategy?_eq_some_iff ha, strategy?_eq_some_iff hb, hsame]

/-- Of two lists of commands, the second one counts first. -/
theorem strategy?_append
    (defined called : List Classification)
    (name : String) :
    (ofClassifications (defined ++ called)).strategy? name =
      ((ofClassifications called).strategy? name).or
        ((ofClassifications defined).strategy? name) := by
  simp [ofClassifications, strategy?, List.find?_append, Option.map_or]

end Registry

/-- The registry of calls holds what they are classified as. -/
theorem mem_entries_called
    {calls : List Command}
    {called : List Classification}
    {entry : String × Strategy}
    (h : classifyCalls calls = .ok called) :
    entry ∈ (Registry.ofClassifications called).entries ↔
      entry.1 ≠ "" ∧ ∃ command ∈ calls, registeredAs? command = some entry := by
  rw [Registry.ofClassifications, List.mem_map]
  constructor
  · rintro ⟨c, hc, rfl⟩
    rw [List.mem_filter] at hc
    obtain ⟨command, hcommand, hclassified⟩ := Failure.exists_of_mem_mapM h hc.1
    refine ⟨by simpa using hc.2, command, hcommand, ?_⟩
    rw [registeredAs?, hclassified]
    rfl
  · rintro ⟨hname, command, hcommand, hentry⟩
    obtain ⟨i, hi⟩ := List.mem_iff_getElem?.mp hcommand
    obtain ⟨c, hc, hclassified⟩ := Failure.getElem?_mapM h hi
    rw [registeredAs?, hclassified] at hentry
    obtain rfl := Option.some.inj hentry
    exact ⟨c, List.mem_filter.mpr ⟨List.mem_of_getElem? hc, by simpa using hname⟩, rfl⟩

section Order

variable {project : Project}
variable {specs : List SpecFile}
variable {called others : List Classification}

/-- Files in another order can be classified as well: their first calls are classified like those
of this order. -/
theorem exists_called_of_perm
    (hperm : specs.Perm project.specs)
    (hagree : CallsAgree project)
    (hcalled : classifyCalls (undefinedCalls project project.specs) = .ok called) :
    ∃ others, classifyCalls (undefinedCalls project specs) = .ok others := by
  refine Failure.exists_mapM_eq_ok fun command hcommand => ?_
  obtain ⟨first, hfirst, halike⟩ := exists_alike_of_perm hagree hperm (.refl _) hcommand
  obtain ⟨i, hi⟩ := List.mem_iff_getElem?.mp hfirst
  obtain ⟨c, -, hclassified⟩ := Failure.getElem?_mapM hcalled hi
  rw [registeredAs?, hclassified] at halike
  refine Failure.exists_of_isSome ?_
  rw [← Option.isSome_map, ← registeredAs?, ← halike]
  rfl

theorem functional_called
    (hperm : specs.Perm project.specs)
    (hagree : CallsAgree project)
    (hothers : classifyCalls (undefinedCalls project specs) = .ok others) :
    (Registry.ofClassifications others).Functional := by
  intro a ha b hb hname
  obtain ⟨-, c, hc, hca⟩ := (mem_entries_called hothers).mp ha
  obtain ⟨-, d, hd, hdb⟩ := (mem_entries_called hothers).mp hb
  have hregistered : (registeredAs? c).map Prod.fst = (registeredAs? d).map Prod.fst := by
    rw [hca, hdb, Option.map_some, Option.map_some, hname]
  have halike :=
    hagree c (mem_candidates hperm hc) d (mem_candidates hperm hd) (.inr hregistered)
  rw [hca, hdb] at halike
  exact Option.some.inj halike

theorem strategy?_called_perm
    (hperm : specs.Perm project.specs)
    (hagree : CallsAgree project)
    (hcalled : classifyCalls (undefinedCalls project project.specs) = .ok called)
    (hothers : classifyCalls (undefinedCalls project specs) = .ok others) :
    (Registry.ofClassifications others).strategy? =
      (Registry.ofClassifications called).strategy? := by
  refine Registry.strategy?_eq_of_entries (functional_called hperm hagree hothers) ?_
  intro entry
  rw [mem_entries_called hothers, mem_entries_called hcalled]
  refine and_congr_right fun _ => ⟨?_, ?_⟩
  · rintro ⟨command, hcommand, hentry⟩
    obtain ⟨first, hfirst, halike⟩ := exists_alike_of_perm hagree hperm (.refl _) hcommand
    exact ⟨first, hfirst, halike.trans hentry⟩
  · rintro ⟨command, hcommand, hentry⟩
    obtain ⟨first, hfirst, halike⟩ := exists_alike_of_perm hagree (.refl _) hperm hcommand
    exact ⟨first, hfirst, halike.trans hentry⟩

/-- Files in another order: the registry gives every name the same strategy. -/
theorem strategy?_classifyAll_perm
    {commands : List Classification}
    (hperm : specs.Perm project.specs)
    (hagree : CallsAgree project)
    (h : classifyAll project.definitions project.specs = .ok commands) :
    ∃ others,
      classifyAll project.definitions specs = .ok others ∧
      (Registry.ofClassifications others).strategy? =
        (Registry.ofClassifications commands).strategy? := by
  obtain ⟨defined, hdefined, h⟩ := Failure.bind_eq_ok.mp h
  obtain ⟨called, hcalled, h⟩ := Failure.bind_eq_ok.mp h
  cases h
  have hnames := CustomCommand.names_of_classifyDefinitions hdefined
  rw [hnames, ← undefinedCalls, ← classifyCalls] at hcalled
  obtain ⟨others, hothers⟩ := exists_called_of_perm hperm hagree hcalled
  refine ⟨defined ++ others, Failure.bind_eq_ok.mpr ⟨defined, hdefined, ?_⟩, ?_⟩
  · rw [undefinedCalls, ← hnames] at hothers
    exact Failure.bind_eq_ok.mpr ⟨others, hothers, rfl⟩
  · funext name
    rw [Registry.strategy?_append, Registry.strategy?_append,
      strategy?_called_perm hperm hagree hcalled hothers]

end Order

/-! ### Tests -/

section Congruence

variable {a b : Registry}

theorem writeCommand_congr
    (h : a.strategy? = b.strategy?)
    (depth : Nat)
    (command : Command)
    (span : Span) :
    writeCommand a depth command span = writeCommand b depth command span := by
  have hsite : a.callSite? command = b.callSite? command := by
    rw [Registry.callSite?, Registry.callSite?, h]
  rw [writeCommand, writeCommand, hsite]

theorem writeBody_congr
    (h : a.strategy? = b.strategy?)
    (depth : Nat)
    (body : List Statement) :
    writeBody a depth body = writeBody b depth body := by
  induction body with
  | nil =>
      rfl
  | cons statement body ih =>
      have hfirst : writeStatement a depth statement = writeStatement b depth statement := by
        cases statement with
        | command command span =>
            exact writeCommand_congr h depth command span
        | raw text span =>
            rfl
      rw [writeBody, writeBody, hfirst, ih]

mutual

theorem writeNode_congr
    (h : a.strategy? = b.strategy?)
    (depth : Nat)
    (node : TestNode) :
    writeNode a depth node = writeNode b depth node := by
  cases node with
  | suite title modifier children span =>
      rw [writeNode, writeNode, writeNodes_congr h]
  | test title modifier body span =>
      rw [writeNode, writeNode, writeBody_congr h]
  | hook kind body span =>
      rw [writeNode, writeNode, writeBody_congr h]
  | statement loose =>
      rw [writeNode, writeNode]

theorem writeNodes_congr
    (h : a.strategy? = b.strategy?)
    (depth : Nat)
    (afterBlock afterText : Bool)
    (nodes : List TestNode) :
    writeNodes a depth afterBlock afterText nodes =
      writeNodes b depth afterBlock afterText nodes := by
  cases nodes with
  | nil =>
      rw [writeNodes, writeNodes]
  | cons node nodes =>
      rw [writeNodes, writeNodes, writeNode_congr h]
      simp only [writeNodes_congr h depth _ _ nodes]

end

/-- The tests of a file depend on the strategies of custom commands alone. -/
theorem generateSpec_congr
    (h : a.strategy? = b.strategy?)
    (directory : String)
    (spec : SpecFile) :
    generateSpec directory a spec = generateSpec directory b spec := by
  rw [generateSpec, generateSpec, TestFile.ofSpec, TestFile.ofSpec, writeNodes_congr h]

end Congruence

/-- The generated file at a place, and the report on it. -/
structure Generated.HasTest
    (generated : Generated)
    (i : Nat)
    (file : OutputFile)
    (report : FileReport) : Prop where
  file : generated.files[i]? = some file
  report : generated.report.files[i]? = some report

/-- A project has the tests of its source files, each at the place of its file. -/
theorem hasTest_of_generate
    {project : Project}
    {commands : List Classification}
    {generated : Generated}
    {i : Nat}
    {spec : SpecFile}
    (hcommands : classifyAll project.definitions project.specs = .ok commands)
    (h : generate project = .ok generated)
    (hspec : project.specs[i]? = some spec) :
    ∃ test,
      generateSpec project.sourceDir (Registry.ofClassifications commands) spec = .ok test ∧
      generated.HasTest i test.1 test.2 := by
  obtain ⟨same, hsame, h⟩ := Failure.bind_eq_ok.mp h
  obtain rfl : same = commands := by
    rw [hcommands] at hsame
    exact (Except.ok.inj hsame).symm
  obtain ⟨tests, htests, h⟩ := Failure.bind_eq_ok.mp h
  cases h
  obtain ⟨test, htest, hmade⟩ := Failure.getElem?_mapM htests hspec
  refine ⟨test, hmade, getElem?_files htest _, ?_⟩
  rw [List.getElem?_map, htest, Option.map_some]

/-- Where the calls that may come first agree, the order of the source files does not matter: a
project with its files in another order is generated as well, and each file has the same tests
and the same report. -/
theorem tests_independent_of_order
    {project : Project}
    {specs : List SpecFile}
    {generated : Generated}
    (hperm : specs.Perm project.specs)
    (hagree : CallsAgree project)
    (h : generate project = .ok generated) :
    ∃ other,
      generate { project with specs } = .ok other ∧
      ∀ (i j : Nat) (spec : SpecFile),
        project.specs[i]? = some spec →
        specs[j]? = some spec →
        ∃ file report, generated.HasTest i file report ∧ other.HasTest j file report := by
  obtain ⟨commands, hcommands, -⟩ := Failure.bind_eq_ok.mp h
  obtain ⟨others, hothers, hstrategy⟩ := strategy?_classifyAll_perm hperm hagree hcommands
  obtain ⟨tests, htests⟩ : ∃ tests,
      specs.mapM (generateSpec project.sourceDir (Registry.ofClassifications others)) =
        .ok tests := by
    refine Failure.exists_mapM_eq_ok fun spec hspec => ?_
    obtain ⟨i, hi⟩ := List.mem_iff_getElem?.mp (hperm.subset hspec)
    obtain ⟨test, htest, -⟩ := hasTest_of_generate hcommands h hi
    exact ⟨test, (generateSpec_congr hstrategy _ _).trans htest⟩
  obtain ⟨other, hother⟩ : ∃ other, generate { project with specs } = .ok other := by
    exact ⟨_, Failure.bind_eq_ok.mpr ⟨others, hothers,
      Failure.bind_eq_ok.mpr ⟨tests, htests, rfl⟩⟩⟩
  refine ⟨other, hother, ?_⟩
  intro i j spec hi hj
  obtain ⟨test, htest, hhere⟩ := hasTest_of_generate hcommands h hi
  obtain ⟨same, hsame, hthere⟩ := hasTest_of_generate hothers hother hj
  have heq : same = test := by
    rw [generateSpec_congr hstrategy, htest] at hsame
    exact (Except.ok.inj hsame).symm
  exact ⟨test.1, test.2, hhere, heq ▸ hthere⟩

/-- A file with one test that calls a well-known command. -/
def dropdownSpec (path : String) (args : List Value) : SpecFile :=
  { path
    nodes := [.test (.string "selects") .none
      [.command ⟨"selectDropdown", args, []⟩ default] default] }

/-- A file whose call has a value, and one that is read before or after it. -/
def dropdownProject (args : List Value) : Project :=
  { sourceDir := "/p"
    specs :=
      [dropdownSpec "/p/a.cy.js" args,
       dropdownSpec "/p/b.cy.js" [.string "#b", .string "US"]] }

theorem tests_independent_of_order_dropdown :
    ∃ generated other file report,
      generate (dropdownProject [.string "#a", .string "DE"]) = .ok generated ∧
      generate
        { dropdownProject [.string "#a", .string "DE"] with
          specs := (dropdownProject [.string "#a", .string "DE"]).specs.reverse } = .ok other ∧
      generated.HasTest 1 file report ∧
      other.HasTest 0 file report ∧
      report.converted = 1 := by
  obtain ⟨generated, hgenerated⟩ : ∃ generated,
      generate (dropdownProject [.string "#a", .string "DE"]) = .ok generated := by
    exact Failure.exists_of_isSome (by decide +kernel)
  obtain ⟨other, hother, htests⟩ :=
    tests_independent_of_order (List.reverse_perm _) (by decide +kernel) hgenerated
  obtain ⟨file, report, hhere, hthere⟩ := htests 1 0 _ rfl rfl
  have hconverted : (generate (dropdownProject [.string "#a", .string "DE"])).toOption.bind
      (fun generated => generated.report.files[1]?.map (·.converted)) = some 1 := by
    decide +kernel
  refine ⟨generated, other, file, report, hgenerated, hother, hhere, hthere, ?_⟩
  rw [hgenerated] at hconverted
  change generated.report.files[1]?.map (·.converted) = some 1 at hconverted
  rw [hhere.report] at hconverted
  exact Option.some.inj hconverted

/-- A call without a value decides for all files when its own file is read first: then the other
file is not converted. -/
theorem order_matters_without_value :
    (generate (dropdownProject [.string "#a"])).toOption.map
        (fun generated => generated.report.files.map fun file => (file.source, file.converted)) =
      some [("a.cy.js", 0), ("b.cy.js", 0)] ∧
    (generate
        { dropdownProject [.string "#a"] with
          specs := (dropdownProject [.string "#a"]).specs.reverse }).toOption.map
        (fun generated => generated.report.files.map fun file => (file.source, file.converted)) =
      some [("b.cy.js", 1), ("a.cy.js", 0)] := by
  decide +kernel

end Output
end SuiteShift
