import SuiteShift.Output.Basic
import SuiteShift.Proofs.Failure
import SuiteShift.Proofs.Output.Layout
import SuiteShift.Proofs.Path.Join

/-!
# Paths of generated files

- `testPath`: where the tests of a source file go. Two source files share it exactly if they agree
  in what `testKey` keeps of their paths, `testPath_eq_iff`.
- `paths_generated`: the paths of a generated project, those of the tests first.
- `nodup_paths_iff`: no two generated files share a path exactly if no two source files share what
  is kept of their paths.
-/

namespace SuiteShift
namespace Output

open SuiteShift.Path (Component)

/-- Where the tests of the source file at a path go. -/
def testPath (directory path : String) : String :=
  Path.joined (outputPath (Path.componentsBelow directory path))

/-- What is kept of the path of a source file: its directory without a leading directory of tests,
and its name without extension and mark. -/
def testKey (directory path : String) : List Component × List Char :=
  let relative := Path.componentsBelow directory path
  (outputDirectory relative, specStem (sourceName relative).toList)

theorem isBelow_testPath
    {directory path : String}
    (h : LiesBelow directory path) :
    Path.IsBelow (testPath directory path) := by
  refine Path.isBelow_joined ?_ (isName_of_mem_outputPath h.isName)
  rw [outputPath_eq h.isName]
  simp

theorem specName_inj
    {name other : String} :
    specName name = specName other ↔ specStem name.toList = specStem other.toList := by
  rw [← String.toList_inj, toList_specName, toList_specName, List.append_cancel_right_eq]

/-- Source files share a path for their tests exactly if they agree in what is kept. -/
theorem testPath_eq_iff
    {directory path other : String}
    (h : LiesBelow directory path)
    (hother : LiesBelow directory other) :
    testPath directory path = testPath directory other ↔
      testKey directory path = testKey directory other := by
  have hjoined : testPath directory path = testPath directory other ↔
      outputPath (Path.componentsBelow directory path) =
        outputPath (Path.componentsBelow directory other) := by
    constructor
    · intro hpath
      rw [← components_joined_outputPath h.isName, ← components_joined_outputPath hother.isName]
      exact congrArg Path.components hpath
    · intro houtput
      rw [testPath, testPath, houtput]
  rw [hjoined, outputPath_eq h.isName, outputPath_eq hother.isName, List.append_singleton_inj,
    Component.name.injEq, specName_inj, testKey, testKey, Prod.mk.injEq]

/-! ### All paths of a project -/

theorem paths_of_mapM
    {directory : String}
    {registry : Registry}
    {specs : List SpecFile}
    {tests : List (OutputFile × FileReport)}
    (h : specs.mapM (generateSpec directory registry) = .ok tests) :
    (tests.map Prod.fst).map OutputFile.path =
      specs.map fun spec => testPath directory spec.path := by
  have hall := Failure.forall₂_of_mapM h
  clear h
  induction hall with
  | nil =>
      rfl
  | cons hmade _ ih =>
      obtain ⟨test, -, hpair⟩ := Failure.bind_eq_ok.mp hmade
      rw [List.map_cons, List.map_cons, List.map_cons, ih, ← Except.ok.inj hpair]
      rfl

theorem paths_generated
    {project : Project}
    {generated : Generated}
    (h : generate project = .ok generated) :
    ∃ commands,
      generated.files.map OutputFile.path =
        (project.specs.map fun spec => testPath project.sourceDir spec.path) ++
          (sharedFiles commands project.baseUrl).map OutputFile.path := by
  obtain ⟨commands, -, h⟩ := Failure.bind_eq_ok.mp h
  obtain ⟨tests, htests, h⟩ := Failure.bind_eq_ok.mp h
  cases h
  exact ⟨commands, by rw [List.map_append, paths_of_mapM htests]⟩

/-- The paths of the files that belong to no single test. -/
def sharedPaths : List String :=
  [helpersFile, pageObjectFile, configFile]

theorem sharedFiles_sublist
    (commands : List Classification)
    (baseUrl : Option String) :
    ((sharedFiles commands baseUrl).map OutputFile.path).Sublist sharedPaths := by
  have hoption : ∀ (path : String) (text : Option String),
      ((text.map (OutputFile.mk path)).toList.map OutputFile.path).Sublist [path] := by
    intro path text
    cases text with
    | none =>
        exact List.nil_sublist _
    | some text =>
        exact List.Sublist.refl _
  unfold sharedFiles
  rw [List.map_append, List.map_append]
  exact ((hoption helpersFile _).append (hoption pageObjectFile _)).append (List.Sublist.refl _)

theorem fileName?_testPath
    {directory path : String}
    (h : LiesBelow directory path) :
    ∃ name, Path.fileName? (Path.components (testPath directory path)) = some (specName name) := by
  refine ⟨sourceName (Path.componentsBelow directory path), ?_⟩
  rw [testPath, components_joined_outputPath h.isName, outputPath_eq h.isName, Path.fileName?,
    List.getLast?_concat]

/-- The name of the file has another ending than that of a generated test. -/
def IsOther (path : String) : Prop :=
  ∃ name,
    Path.fileName? (Path.components path) = some name ∧
    ¬ ".spec.ts".toList <:+ name.toList

theorem testPath_ne_of_isOther
    {directory path other : String}
    (h : LiesBelow directory path)
    (hother : IsOther other) :
    testPath directory path ≠ other := by
  rintro rfl
  obtain ⟨name, hname, hending⟩ := hother
  obtain ⟨source, hsource⟩ := fileName?_testPath h
  rw [hsource, Option.some.injEq] at hname
  rw [← hname, toList_specName] at hending
  exact hending (List.suffix_append _ _)

theorem isOther_of_mem_sharedPaths
    {path : String}
    (h : path ∈ sharedPaths) :
    IsOther path := by
  simp only [sharedPaths, List.mem_cons, List.not_mem_nil, or_false] at h
  rcases h with rfl | rfl | rfl
  · exact ⟨"helpers.ts", rfl, by decide⟩
  · exact ⟨"custom-commands.ts", rfl, by decide⟩
  · exact ⟨"playwright.config.ts", rfl, by decide⟩

theorem nodup_testPaths_iff
    {directory : String}
    {specs : List SpecFile}
    (hbelow : ∀ spec ∈ specs, LiesBelow directory spec.path) :
    (specs.map fun spec => testPath directory spec.path).Nodup ↔
      (specs.map fun spec => testKey directory spec.path).Nodup := by
  rw [List.Nodup, List.Nodup, List.pairwise_map, List.pairwise_map]
  refine List.Pairwise.iff_of_mem ?_
  intro spec other hspec hother
  exact not_congr (testPath_eq_iff (hbelow spec hspec) (hbelow other hother))

/-- No two generated files share a path exactly if no two source files share what is kept of
theirs. -/
theorem nodup_paths_iff
    {project : Project}
    {generated : Generated}
    (hbelow : ∀ spec ∈ project.specs, LiesBelow project.sourceDir spec.path)
    (h : generate project = .ok generated) :
    (generated.files.map OutputFile.path).Nodup ↔
      (project.specs.map fun spec => testKey project.sourceDir spec.path).Nodup := by
  obtain ⟨commands, hpaths⟩ := paths_generated h
  have hshared := sharedFiles_sublist commands project.baseUrl
  have hnodup : sharedPaths.Nodup := by
    decide
  rw [hpaths, List.nodup_append, nodup_testPaths_iff hbelow]
  constructor
  · intro hall
    exact hall.1
  · intro hkeys
    refine ⟨hkeys, hnodup.sublist hshared, ?_⟩
    intro path hpath other hother
    obtain ⟨spec, hspec, rfl⟩ := List.mem_map.mp hpath
    exact testPath_ne_of_isOther (hbelow spec hspec)
      (isOther_of_mem_sharedPaths (hshared.mem hother))

theorem isBelow_sharedPaths :
    ∀ path ∈ sharedPaths, Path.IsBelow path := by
  decide

/-- Every generated file lies below the output directory, beside the report. -/
theorem isBelow_generated
    {project : Project}
    {generated : Generated}
    (hbelow : ∀ spec ∈ project.specs, LiesBelow project.sourceDir spec.path)
    (h : generate project = .ok generated) :
    ∀ file ∈ generated.files, Path.IsBelow file.path ∧ file.path ≠ Report.fileName := by
  intro file hfile
  obtain ⟨commands, hpaths⟩ := paths_generated h
  have hmem : file.path ∈ generated.files.map OutputFile.path := List.mem_map_of_mem hfile
  rw [hpaths, List.mem_append] at hmem
  rcases hmem with hmem | hmem
  · obtain ⟨spec, hspec, hpath⟩ := List.mem_map.mp hmem
    rw [← hpath]
    exact ⟨isBelow_testPath (hbelow spec hspec),
      testPath_ne_of_isOther (hbelow spec hspec) ⟨Report.fileName, rfl, by decide⟩⟩
  · have hshared := (sharedFiles_sublist commands project.baseUrl).mem hmem
    refine ⟨isBelow_sharedPaths _ hshared, ?_⟩
    rintro heq
    rw [heq] at hshared
    exact absurd hshared (by decide)

end Output
end SuiteShift
