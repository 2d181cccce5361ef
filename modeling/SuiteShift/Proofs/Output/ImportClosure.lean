import SuiteShift.Output.Basic
import SuiteShift.Proofs.Output.ImportLine
import SuiteShift.Proofs.Output.TestFile

/-!
# Imports of a generated project are closed

Every name that a generated test imports from a support file is declared in that file, and the
file is found where the import line says.

- `registered`: a registered strategy comes from a classification.
- `headLines_ofWritten`: the import lines at the head of a test file.
- `generated_test`: the test of a source file among the generated files.
- `imports_closed`: the whole project.
-/

namespace SuiteShift
namespace Output

open SuiteShift.Path (Component)

/-! ### The registry -/

/-- A registered strategy comes from a classification. -/
theorem registered
    {commands : List Classification}
    {name : String}
    {strategy : Strategy}
    (h : (Registry.ofClassifications commands).strategy? name = some strategy) :
    ∃ c ∈ commands, c.name = name ∧ c.strategy = strategy := by
  rw [Registry.strategy?, Option.map_eq_some_iff] at h
  obtain ⟨entry, hentry, rfl⟩ := h
  have hname : entry.1 = name := by
    simpa using List.find?_some hentry
  have hmem := List.mem_of_find?_eq_some hentry
  rw [List.mem_reverse, Registry.ofClassifications, List.mem_map] at hmem
  obtain ⟨c, hc, rfl⟩ := hmem
  exact ⟨c, List.mem_of_mem_filter hc, hname, rfl⟩

theorem wellShaped_of_classifyAll
    {definitions : List Definition}
    {specs : List SpecFile}
    {commands : List Classification}
    (h : classifyAll definitions specs = .ok commands) :
    ∀ c ∈ commands, c.WellShaped := by
  obtain ⟨defined, hdefined, h⟩ := Failure.bind_eq_ok.mp h
  obtain ⟨called, hcalled, h⟩ := Failure.bind_eq_ok.mp h
  cases h
  intro c hc
  rcases List.mem_append.mp hc with hc | hc
  · obtain ⟨definition, -, hclassified⟩ := Failure.exists_of_mem_mapM hdefined hc
    exact CustomCommand.wellShaped_classifyDefinition hclassified
  · obtain ⟨command, -, hclassified⟩ := Failure.exists_of_mem_mapM hcalled hc
    exact CustomCommand.wellShaped_classify hclassified

theorem function_of_helperUse?
    {registry : Registry}
    {command : Command}
    {name : String}
    (h : helperUse? registry command = some (.function name)) :
    name = Literal.identifier command.name ∧
    registry.strategy? command.name = some .utility := by
  unfold helperUse? at h
  split_ifs at h
  split at h
  · next hstrategy =>
      cases h
      exact ⟨rfl, hstrategy⟩
  · cases h
  · cases h

theorem pageObject_of_helperUse?
    {registry : Registry}
    {command : Command}
    (h : helperUse? registry command = some .pageObject) :
    (Rule.CommandRule.find? command.name).isNone = true ∧
    registry.strategy? command.name = some .pageObject := by
  unfold helperUse? at h
  split_ifs at h with hknown
  refine ⟨by simpa using hknown, ?_⟩
  split at h
  · cases h
  · next hstrategy =>
      exact hstrategy
  · cases h

/-! ### Import lines of a test file -/

theorem mem_helperNames
    {uses : List HelperUse}
    {name : String} :
    name ∈ helperNames uses ↔ .function name ∈ uses := by
  unfold helperNames
  rw [mem_addLines, List.mem_filterMap]
  constructor
  · rintro (h | ⟨use, huse, h⟩)
    · simp at h
    · cases use with
      | function other =>
          cases h
          exact huse
      | pageObject =>
          cases h
  · intro h
    exact .inr ⟨_, h, rfl⟩

theorem isListed_of_mem_helperNames
    {registry : Registry}
    {commands : List Command}
    {written : Written}
    {name : String}
    (hgathers : Gathers registry commands written)
    (h : name ∈ helperNames written.helpers) :
    IsListed name := by
  rw [mem_helperNames, hgathers.helpers, List.mem_filterMap] at h
  obtain ⟨command, -, huse⟩ := h
  rw [(function_of_helperUse? huse).1]
  exact isListed_identifier _

/-- A file that other generated files refer to, by its path without the extension. -/
structure IsSupport (file : String) : Prop where
  isName : ∀ c ∈ Path.components (dropExtension file), c.IsName
  newline_not_mem : ∀ c ∈ Path.components (dropExtension file), '\n' ∉ c.text.toList

theorem isSupport_of_components
    {file name : String}
    (hfile : Path.components (dropExtension file) = [.name "support", .name name])
    (hline : '\n' ∉ name.toList) :
    IsSupport file := by
  refine ⟨?_, ?_⟩
  · intro c hc
    have hordinary : ∀ text, .name text ∈ Path.components (dropExtension file) →
        Path.IsOrdinary text := by
      intro text htext
      exact Path.isOrdinary_of_mem_components htext
    rw [hfile] at hc hordinary
    simp only [List.mem_cons, List.not_mem_nil, or_false] at hc
    rcases hc with rfl | rfl
    · exact hordinary _ (by simp)
    · exact hordinary _ (by simp)
  · intro c hc
    rw [hfile] at hc
    simp only [List.mem_cons, List.not_mem_nil, or_false] at hc
    rcases hc with rfl | rfl
    · decide
    · exact hline

theorem isSupport_helpersFile :
    IsSupport helpersFile := by
  exact isSupport_of_components components_helpersFile (by decide)

theorem isSupport_pageObjectFile :
    IsSupport pageObjectFile := by
  exact isSupport_of_components components_pageObjectFile (by decide)

theorem isListed_pageObjectClass :
    IsListed pageObjectClass := by
  unfold IsListed
  decide

/-- An import line of a test file is a plain one, or names what comes from a support file. -/
theorem mem_testImports
    {output : List Component}
    {written : Written}
    {line : String} :
    line ∈ testImports output written ↔
      line = Lowering.testImport ∨
      line ∈ written.imports ∨
      (helperNames written.helpers ≠ [] ∧
        line = supportImport output (helperNames written.helpers) helpersFile) ∨
      (.pageObject ∈ written.helpers ∧
        line = supportImport output [pageObjectClass] pageObjectFile) := by
  unfold testImports
  dsimp only
  rw [List.mem_append, List.mem_append, mem_addLines, List.mem_singleton, or_assoc, or_assoc]
  refine or_congr Iff.rfl (or_congr Iff.rfl (or_congr ?_ ?_))
  · split_ifs with hempty
    · simp [List.isEmpty_iff.mp hempty]
    · rw [List.isEmpty_iff] at hempty
      simp [hempty]
  · split_ifs with huse
    · rw [List.contains_iff_mem] at huse
      simp [huse]
    · rw [List.contains_iff_mem] at huse
      simp [huse]

/-- The import lines are what stands at the head of the file. -/
theorem headLines_ofWritten
    {registry : Registry}
    {commands : List Command}
    {output : List Component}
    {written : Written}
    (houtput : ∀ c ∈ output, c.IsName)
    (hgathers : Gathers registry commands written) :
    headLines (TestFile.ofWritten output written).code = testImports output written := by
  have hsupport : ∀ names file, IsSupport file → (∀ name ∈ names, IsListed name) →
      supportImport output names file ≠ "" ∧
      '\n' ∉ (supportImport output names file).toList := by
    intro names file hfile hnames
    refine ⟨supportImport_ne_empty _ _ _, newline_not_mem_supportImport hnames ?_⟩
    exact newline_not_mem_importSpecifier houtput hfile.isName hfile.newline_not_mem
  have hlines : ∀ line ∈ testImports output written, line ≠ "" ∧ '\n' ∉ line.toList := by
    intro line hline
    rcases mem_testImports.mp hline with rfl | hline | ⟨-, rfl⟩ | ⟨-, rfl⟩
    · decide
    · have hrule := hgathers.imports line hline
      rw [Lowering.ruleImports_eq, List.mem_singleton] at hrule
      rw [hrule]
      decide
    · refine hsupport _ _ isSupport_helpersFile ?_
      intro name hname
      exact isListed_of_mem_helperNames hgathers hname
    · refine hsupport _ _ isSupport_pageObjectFile ?_
      intro name hname
      rw [List.mem_singleton.mp hname]
      exact isListed_pageObjectClass
  have hne : testImports output written ≠ [] := by
    exact List.ne_nil_of_mem (mem_testImports.mpr (.inl rfl))
  exact headLines_importBlock hne hlines _

/-! ### Generated projects -/

/-- The file holds the tests of a source file. -/
structure IsTest
    (registry : Registry)
    (directory : String)
    (spec : SpecFile)
    (file : OutputFile)
    (written : Written) : Prop where
  path : file.path = Path.joined (outputPath (Path.componentsBelow directory spec.path))
  text :
    file.text =
      (TestFile.ofWritten (outputPath (Path.componentsBelow directory spec.path)) written).code
  gathers : Gathers registry (TestNode.bodyCommandsOf spec.nodes) written

/-- The test files come first among the generated files. -/
theorem getElem?_files
    {tests : List (OutputFile × FileReport)}
    {test : OutputFile × FileReport}
    {i : Nat}
    (h : tests[i]? = some test)
    (shared : List OutputFile) :
    (tests.map Prod.fst ++ shared)[i]? = some test.1 := by
  have hi : i < (tests.map Prod.fst).length := by
    rw [List.length_map]
    exact (List.getElem?_eq_some_iff.mp h).1
  rw [List.getElem?_append_left hi, List.getElem?_map, h, Option.map_some]

/-- The tests of a source file stand at the same place among the generated files. -/
theorem generated_test
    {project : Project}
    {generated : Generated}
    (h : generate project = .ok generated) :
    ∃ commands,
      classifyAll project.definitions project.specs = .ok commands ∧
      (∀ file ∈ sharedFiles commands project.baseUrl, file ∈ generated.files) ∧
      ∀ (i : Nat) (spec : SpecFile),
        project.specs[i]? = some spec →
        ∃ file written,
          generated.files[i]? = some file ∧
          IsTest (Registry.ofClassifications commands) project.sourceDir spec file written := by
  obtain ⟨commands, hcommands, h⟩ := Failure.bind_eq_ok.mp h
  obtain ⟨tests, htests, h⟩ := Failure.bind_eq_ok.mp h
  cases h
  refine ⟨commands, hcommands, fun file hfile => List.mem_append_right _ hfile, ?_⟩
  intro i spec hspec
  obtain ⟨made, hat, hmade⟩ := Failure.getElem?_mapM htests hspec
  obtain ⟨test, htest, hpair⟩ := Failure.bind_eq_ok.mp hmade
  obtain ⟨written, hwritten, rfl⟩ := Failure.map_eq_ok.mp htest
  cases hpair
  exact ⟨_, written, getElem?_files hat _, rfl, rfl, gathers_writeNodes _ hwritten⟩

/-- Where a specifier leads from the directory of a file. -/
def importTarget (path specifier : String) : List Component :=
  Path.resolve (Path.components path).dropLast (Path.components specifier)

/-- The calls of page methods in the tests and hooks of a source file. -/
def pageCalls (registry : Registry) (spec : SpecFile) : List Command :=
  (TestNode.bodyCommandsOf spec.nodes).filter fun command =>
    (Rule.CommandRule.find? command.name).isNone &&
      registry.strategy? command.name == some .pageObject

/-- All names are exported by the helper file, and the specifier leads to it. -/
structure HelperImport
    (files : List OutputFile)
    (file : OutputFile)
    (names : List String)
    (specifier : String) : Prop where
  leads : importTarget file.path specifier = Path.components "support/helpers"
  exports :
    ∃ support ∈ files,
      support.path = "support/helpers.ts" ∧
      ∀ name ∈ names,
        occursIn ("export async function " ++ name ++ "(page: Page") support.text = true

/-- The class of the page object is exported by its file, the specifier leads to it, and it has a
method for every call. -/
structure PageImport
    (files : List OutputFile)
    (calls : List Command)
    (file : OutputFile)
    (names : List String)
    (specifier : String) : Prop where
  names_eq : names = ["CustomCommands"]
  leads : importTarget file.path specifier = Path.components "support/custom-commands"
  declares :
    ∃ support ∈ files,
      support.path = "support/custom-commands.ts" ∧
      occursIn "export class CustomCommands" support.text = true ∧
      ∀ command ∈ calls,
        occursIn ("async " ++ Literal.identifier command.name ++ "(") support.text = true

theorem importTarget_supportImport
    {registry : Registry}
    {directory : String}
    {spec : SpecFile}
    {file : OutputFile}
    {written : Written}
    {target : String}
    (hbelow : LiesBelow directory spec.path)
    (htest : IsTest registry directory spec file written)
    (htarget : IsSupport target) :
    importTarget file.path
      (importSpecifier (outputPath (Path.componentsBelow directory spec.path))
        (Path.components (dropExtension target))) =
      Path.components (dropExtension target) := by
  unfold importTarget
  rw [htest.path, components_joined_outputPath hbelow.isName]
  exact resolve_importSpecifier (isName_of_mem_outputPath hbelow.isName) htarget.isName

theorem helpersFile_mem_sharedFiles
    {commands : List Classification}
    {text : String}
    (h : helpersText commands = some text)
    (baseUrl : Option String) :
    ⟨helpersFile, text⟩ ∈ sharedFiles commands baseUrl := by
  simp [sharedFiles, h]

theorem pageObjectFile_mem_sharedFiles
    {commands : List Classification}
    {text : String}
    (h : pageObjectText commands = some text)
    (baseUrl : Option String) :
    ⟨pageObjectFile, text⟩ ∈ sharedFiles commands baseUrl := by
  simp [sharedFiles, h]

section Test

variable {commands : List Classification}
variable {baseUrl : Option String}
variable {files : List OutputFile}
variable {directory : String}
variable {spec : SpecFile}
variable {file : OutputFile}
variable {written : Written}

/-- The helper file exports every function that a test file uses. -/
theorem helpersText_exports
    (hshape : ∀ c ∈ commands, c.WellShaped)
    (htest : IsTest (Registry.ofClassifications commands) directory spec file written)
    (hne : helperNames written.helpers ≠ []) :
    ∃ text,
      helpersText commands = some text ∧
      ∀ name ∈ helperNames written.helpers, occursIn (helperDeclaration name) text = true := by
  have hdeclares : ∀ name ∈ helperNames written.helpers,
      ∃ text, helpersText commands = some text ∧
        occursIn (helperDeclaration name) text = true := by
    intro name hname
    rw [mem_helperNames, htest.gathers.helpers, List.mem_filterMap] at hname
    obtain ⟨command, -, huse⟩ := hname
    obtain ⟨rfl, hstrategy⟩ := function_of_helperUse? huse
    obtain ⟨c, hc, hname, hutility⟩ := registered hstrategy
    rw [← hname]
    exact helpersText_declares hc (hshape c hc) hutility
  obtain ⟨first, rest, hfirst⟩ := List.exists_cons_of_ne_nil hne
  obtain ⟨text, htext, -⟩ := hdeclares first (by simp [hfirst])
  refine ⟨text, htext, ?_⟩
  intro name hname
  obtain ⟨other, hother, hoccurs⟩ := hdeclares name hname
  rw [htext, Option.some.injEq] at hother
  exact hother ▸ hoccurs

/-- The class of the page object has every method that a test file calls. -/
theorem pageObjectText_exports
    (hshape : ∀ c ∈ commands, c.WellShaped)
    (htest : IsTest (Registry.ofClassifications commands) directory spec file written)
    (huse : .pageObject ∈ written.helpers) :
    ∃ text,
      pageObjectText commands = some text ∧
      occursIn ("export class " ++ pageObjectClass) text = true ∧
      ∀ command ∈ pageCalls (Registry.ofClassifications commands) spec,
        occursIn (methodDeclaration (Literal.identifier command.name)) text = true := by
  have hdeclares : ∀ command : Command,
      (Registry.ofClassifications commands).strategy? command.name = some .pageObject →
      ∃ text, pageObjectText commands = some text ∧
        occursIn ("export class " ++ pageObjectClass) text = true ∧
        occursIn (methodDeclaration (Literal.identifier command.name)) text = true := by
    intro command hstrategy
    obtain ⟨c, hc, hname, hpage⟩ := registered hstrategy
    rw [← hname]
    exact pageObjectText_declares hc (hshape c hc) hpage
  rw [htest.gathers.helpers, List.mem_filterMap] at huse
  obtain ⟨command, -, huse⟩ := huse
  obtain ⟨text, htext, hclass, -⟩ := hdeclares command (pageObject_of_helperUse? huse).2
  refine ⟨text, htext, hclass, ?_⟩
  intro other hother
  have hstrategy := (List.mem_filter.mp hother).2
  rw [Bool.and_eq_true, beq_iff_eq] at hstrategy
  obtain ⟨same, hsame, -, hmethod⟩ := hdeclares other hstrategy.2
  rw [htext, Option.some.injEq] at hsame
  exact hsame ▸ hmethod

/-- Every import line of a test file is a plain one, or names what a support file declares. -/
theorem import_closed
    {line : String}
    {names : List String}
    {specifier : String}
    (hshape : ∀ c ∈ commands, c.WellShaped)
    (hshared : ∀ file ∈ sharedFiles commands baseUrl, file ∈ files)
    (hbelow : LiesBelow directory spec.path)
    (htest : IsTest (Registry.ofClassifications commands) directory spec file written)
    (hline : line ∈ headLines file.text)
    (hread : readImport? line = some (names, specifier)) :
    specifier = "@playwright/test" ∨
    HelperImport files file names specifier ∨
    PageImport files (pageCalls (Registry.ofClassifications commands) spec) file names
      specifier := by
  rw [htest.text, headLines_ofWritten (isName_of_mem_outputPath hbelow.isName) htest.gathers,
    mem_testImports] at hline
  rcases hline with rfl | hline | ⟨hne, rfl⟩ | ⟨huse, rfl⟩
  · have htest : readImport? Lowering.testImport =
        some (["test", "expect"], "@playwright/test") := by
      decide
    rw [htest] at hread
    cases hread
    exact .inl rfl
  · have hrule := htest.gathers.imports line hline
    rw [Lowering.ruleImports_eq, List.mem_singleton] at hrule
    have hplain : readImport? "import fs from 'fs';" = none := by
      decide
    rw [hrule, hplain] at hread
    cases hread
  · have hlisted : ∀ name ∈ helperNames written.helpers, IsListed name := by
      intro name hname
      exact isListed_of_mem_helperNames htest.gathers hname
    rw [readImport?_supportImport hne hlisted] at hread
    cases hread
    obtain ⟨text, htext, hexports⟩ := helpersText_exports hshape htest hne
    refine .inr (.inl ⟨importTarget_supportImport hbelow htest isSupport_helpersFile, ?_⟩)
    exact ⟨_, hshared _ (helpersFile_mem_sharedFiles htext baseUrl), rfl, hexports⟩
  · have hlisted : ∀ name ∈ [pageObjectClass], IsListed name := by
      intro name hname
      rw [List.mem_singleton.mp hname]
      exact isListed_pageObjectClass
    rw [readImport?_supportImport (by simp) hlisted] at hread
    cases hread
    obtain ⟨text, htext, hclass, hmethods⟩ := pageObjectText_exports hshape htest huse
    refine .inr (.inr ⟨rfl, importTarget_supportImport hbelow htest isSupport_pageObjectFile, ?_⟩)
    exact ⟨_, hshared _ (pageObjectFile_mem_sharedFiles htext baseUrl), rfl, hclass, hmethods⟩

/-- A test file imports the function of every helper that it calls. -/
theorem helper_imported
    {command : Command}
    {name : String}
    (hbelow : LiesBelow directory spec.path)
    (htest : IsTest (Registry.ofClassifications commands) directory spec file written)
    (hcommand : command ∈ TestNode.bodyCommandsOf spec.nodes)
    (huse : helperUse? (Registry.ofClassifications commands) command = some (.function name)) :
    ∃ line ∈ headLines file.text,
      ∃ names specifier, readImport? line = some (names, specifier) ∧ name ∈ names := by
  have hname : name ∈ helperNames written.helpers := by
    rw [mem_helperNames, htest.gathers.helpers, List.mem_filterMap]
    exact ⟨command, hcommand, huse⟩
  have hlisted : ∀ name ∈ helperNames written.helpers, IsListed name := by
    intro name hname
    exact isListed_of_mem_helperNames htest.gathers hname
  have hne := List.ne_nil_of_mem hname
  rw [htest.text, headLines_ofWritten (isName_of_mem_outputPath hbelow.isName) htest.gathers]
  exact ⟨_, mem_testImports.mpr (.inr (.inr (.inl ⟨hne, rfl⟩))), _, _,
    readImport?_supportImport hne hlisted, hname⟩

/-- A test file that calls a page method imports the class of the page object. -/
theorem pageObject_imported
    {command : Command}
    (hbelow : LiesBelow directory spec.path)
    (htest : IsTest (Registry.ofClassifications commands) directory spec file written)
    (hcommand : command ∈ TestNode.bodyCommandsOf spec.nodes)
    (huse : helperUse? (Registry.ofClassifications commands) command = some .pageObject) :
    ∃ line ∈ headLines file.text,
      ∃ specifier, readImport? line = some (["CustomCommands"], specifier) := by
  have hmem : .pageObject ∈ written.helpers := by
    rw [htest.gathers.helpers, List.mem_filterMap]
    exact ⟨command, hcommand, huse⟩
  have hlisted : ∀ name ∈ [pageObjectClass], IsListed name := by
    intro name hname
    rw [List.mem_singleton.mp hname]
    exact isListed_pageObjectClass
  rw [htest.text, headLines_ofWritten (isName_of_mem_outputPath hbelow.isName) htest.gathers]
  exact ⟨_, mem_testImports.mpr (.inr (.inr (.inr ⟨hmem, rfl⟩))), _,
    readImport?_supportImport (by simp) hlisted⟩

end Test

/-- Imports of a generated project are closed. What a test file imports from a support file is
declared there, and the file is found where the line says; what its calls need is imported. -/
theorem imports_closed
    {project : Project}
    {generated : Generated}
    (hbelow : ∀ spec ∈ project.specs, LiesBelow project.sourceDir spec.path)
    (h : generate project = .ok generated) :
    ∃ commands,
      classifyAll project.definitions project.specs = .ok commands ∧
      ∀ (i : Nat) (spec : SpecFile),
        project.specs[i]? = some spec →
        ∃ file,
          generated.files[i]? = some file ∧
          (∀ line ∈ headLines file.text,
            ∀ names specifier,
              readImport? line = some (names, specifier) →
              specifier = "@playwright/test" ∨
              HelperImport generated.files file names specifier ∨
              PageImport generated.files (pageCalls (Registry.ofClassifications commands) spec)
                file names specifier) ∧
          (∀ command ∈ TestNode.bodyCommandsOf spec.nodes,
            ∀ name,
              helperUse? (Registry.ofClassifications commands) command = some (.function name) →
              ∃ line ∈ headLines file.text,
                ∃ names specifier, readImport? line = some (names, specifier) ∧ name ∈ names) ∧
          (∀ command ∈ TestNode.bodyCommandsOf spec.nodes,
            helperUse? (Registry.ofClassifications commands) command = some .pageObject →
            ∃ line ∈ headLines file.text,
              ∃ specifier, readImport? line = some (["CustomCommands"], specifier)) := by
  obtain ⟨commands, hcommands, hshared, htests⟩ := generated_test h
  have hshape := wellShaped_of_classifyAll hcommands
  refine ⟨commands, hcommands, ?_⟩
  intro i spec hspec
  have hspecBelow := hbelow spec (List.mem_of_getElem? hspec)
  obtain ⟨file, written, hfile, htest⟩ := htests i spec hspec
  refine ⟨file, hfile, ?_, ?_, ?_⟩
  · intro line hline names specifier hread
    exact import_closed hshape hshared hspecBelow htest hline hread
  · intro command hcommand name huse
    exact helper_imported hspecBelow htest hcommand huse
  · intro command hcommand huse
    exact pageObject_imported hspecBelow htest hcommand huse

/-- A project with one test, two directories deep, that calls a helper. -/
def loginProject : Project :=
  { sourceDir := "/p"
    specs :=
      [{ path := "/p/e2e/cart/pay.cy.js"
         nodes := [.test (.string "pays") .none
           [.command ⟨"login", [.string "a"], []⟩ default] default] }] }

theorem imports_closed_login :
    ∃ generated file line names specifier,
      generate loginProject = .ok generated ∧
      generated.files[0]? = some file ∧
      line ∈ headLines file.text ∧
      readImport? line = some (names, specifier) ∧
      "login" ∈ names := by
  have hbelow : ∀ spec ∈ loginProject.specs, LiesBelow loginProject.sourceDir spec.path := by
    intro spec hspec
    rw [List.mem_singleton.mp hspec]
    exact ⟨[.name "e2e", .name "cart", .name "pay.cy.js"], rfl, by simp⟩
  have hsome : (generate loginProject).toOption.isSome = true := by
    decide +kernel
  obtain ⟨generated, hgenerated⟩ := Failure.exists_of_isSome hsome
  obtain ⟨commands, hcommands, htests⟩ := imports_closed hbelow hgenerated
  obtain ⟨file, hfile, -, hhelpers, -⟩ := htests 0 _ rfl
  have huse : (classifyAll loginProject.definitions loginProject.specs).toOption.map (fun commands =>
      helperUse? (Registry.ofClassifications commands) ⟨"login", [.string "a"], []⟩) =
        some (some (.function "login")) := by
    decide +kernel
  rw [hcommands] at huse
  obtain ⟨line, hline, names, specifier, hread, hname⟩ :=
    hhelpers ⟨"login", [.string "a"], []⟩ (List.mem_singleton.mpr rfl) "login" (Option.some.inj huse)
  exact ⟨generated, file, line, names, specifier, hgenerated, hfile, hline, hread, hname⟩

end Output
end SuiteShift
