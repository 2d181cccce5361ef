import SuiteShift.Proofs.Conversion.Writing
import SuiteShift.Proofs.Output.Paths
import Mathlib.Data.List.Dedup

/-!
# Files that do not overwrite each other

- `filesOnDisk`: where the generated files are after a conversion.
- `files_kept_apart`: a conversion leaves as many files as it says exactly if no two source files
  agree in what is kept of their paths; then every generated file is read back.
- `twins_overwritten`: the tests of two source files that differ only in their extensions share a
  path.
-/

namespace SuiteShift
namespace Conversion

open Output (Generated OutputFile Report testKey)

/-- The location of a generated file that is on disk. -/
def placeOf? (ws : Workspace) (outDir : String) (file : OutputFile) : Option (List String) :=
  let path := Path.join outDir file.path
  if ws.isFile path then (ws.locate path).toOption else none

/-- The locations of generated files on disk, each of them once. -/
def filesOnDisk (ws : Workspace) (outDir : String) (files : List OutputFile) :
    List (List String) :=
  (files.filterMap (placeOf? ws outDir)).dedup

theorem length_dedup_eq_iff
    {α : Type}
    [DecidableEq α]
    {values : List α} :
    values.dedup.length = values.length ↔ values.Nodup := by
  rw [← List.dedup_eq_self]
  constructor
  · exact (List.dedup_sublist values).eq_of_length
  · intro heq
    rw [heq]

/-- Files that are all there have as many locations as there are files exactly if no two of them
share a path. -/
theorem length_filesOnDisk_iff
    {ws : Workspace}
    {outDir : String}
    {files : List OutputFile}
    (hbelow : ∀ file ∈ files, Path.IsBelow file.path)
    (h : HoldsLast ws outDir files) :
    (filesOnDisk ws outDir files).length = files.length ↔
      (files.map OutputFile.path).Nodup := by
  have hplace : ∀ file ∈ files, ∃ location,
      ws.locate (Path.join outDir file.path) = .ok location ∧
      placeOf? ws outDir file = some location := by
    intro file hfile
    obtain ⟨location, text, hlocate, -, hholds⟩ := h file hfile
    refine ⟨location, hlocate, ?_⟩
    rw [placeOf?, if_pos (Workspace.isFile_of_locate hlocate hholds), hlocate]
    rfl
  have hlength : (files.filterMap (placeOf? ws outDir)).length = files.length := by
    rw [List.filterMap_length_eq_length]
    intro file hfile
    obtain ⟨location, -, hlocation⟩ := hplace file hfile
    rw [hlocation]
    rfl
  rw [filesOnDisk, ← hlength, length_dedup_eq_iff, List.Nodup, List.Nodup, List.pairwise_filterMap,
    List.pairwise_map]
  refine List.Pairwise.iff_of_mem ?_
  intro file other hfile hother
  obtain ⟨location, hlocate, hlocation⟩ := hplace file hfile
  obtain ⟨otherLocation, hotherLocate, hotherLocation⟩ := hplace other hother
  rw [hlocation, hotherLocation]
  constructor
  · intro hne hpath
    rw [hpath, hotherLocate] at hlocate
    exact hne location rfl otherLocation rfl (Except.ok.inj hlocate).symm
  · rintro hne _ ⟨⟩ _ ⟨⟩ rfl
    exact hne (Workspace.locate_join_inj (hbelow file hfile) (hbelow other hother) hlocate
      hotherLocate)

theorem mem_of_lastText?
    {files : List OutputFile}
    {path text : String}
    (h : lastText? files path = some text) :
    ∃ file ∈ files, file.path = path ∧ file.text = text := by
  rw [lastText?, Option.map_eq_some_iff] at h
  obtain ⟨file, hfind, htext⟩ := h
  have hpath := List.find?_some hfind
  exact ⟨file, List.mem_reverse.mp (List.mem_of_find?_eq_some hfind), by simpa using hpath, htext⟩

/-- Files that share no path are read back. -/
theorem readText_of_nodup
    {ws : Workspace}
    {outDir : String}
    {files : List OutputFile}
    (h : HoldsLast ws outDir files)
    (hnodup : (files.map OutputFile.path).Nodup) :
    ∀ file ∈ files, ws.readText (Path.join outDir file.path) = .ok file.text := by
  intro file hfile
  obtain ⟨location, text, hlocate, hlast, hholds⟩ := h file hfile
  obtain ⟨last, hmem, hpath, htext⟩ := mem_of_lastText? hlast
  have heq : last = file := List.inj_on_of_nodup_map hnodup hmem hfile hpath
  rw [heq] at htext
  rw [htext]
  exact Workspace.readText_of_locate hlocate hholds

theorem prepare_of_load
    {ws : Workspace}
    {config : Config}
    {project : Project}
    {generated : Generated}
    (hload : load ws config = .ok project)
    (h : Output.generate project = .ok generated) :
    prepare ws config = .ok generated := by
  refine Failure.bind_eq_ok.mpr ⟨project, hload, ?_⟩
  rw [generate, h]
  rfl

section Converted

variable {project : Project} {generated : Generated} {config : Config}
variable {ws after : Workspace} {summary : Summary}

theorem holdsLast_convert
    (hbelow : ∀ spec ∈ project.specs, Output.LiesBelow project.sourceDir spec.path)
    (h : Output.generate project = .ok generated)
    (hload : load ws config = .ok project)
    (hconvert : (convert config).run.run ws = (.ok summary, after)) :
    summary.filesWritten = generated.files.length ∧
    HoldsLast after config.outDir generated.files := by
  have hfiles := Output.isBelow_generated hbelow h
  exact convert_written (prepare_of_load hload h) (fun file hfile => (hfiles file hfile).1)
    (fun file hfile => (hfiles file hfile).2) hconvert

theorem length_filesOnDisk_convert
    (hbelow : ∀ spec ∈ project.specs, Output.LiesBelow project.sourceDir spec.path)
    (h : Output.generate project = .ok generated)
    (hload : load ws config = .ok project)
    (hconvert : (convert config).run.run ws = (.ok summary, after)) :
    (filesOnDisk after config.outDir generated.files).length = summary.filesWritten ↔
      (project.specs.map fun spec => testKey project.sourceDir spec.path).Nodup := by
  obtain ⟨hwritten, hholds⟩ := holdsLast_convert hbelow h hload hconvert
  have hfiles := Output.isBelow_generated hbelow h
  rw [hwritten, ← Output.nodup_paths_iff hbelow h]
  exact length_filesOnDisk_iff (fun file hfile => (hfiles file hfile).1) hholds

/-- A conversion with a result has read and generated a project. -/
theorem exists_of_convert
    (h : ((convert config).run.run ws).1.toOption.isSome = true) :
    ∃ project generated summary after,
      load ws config = .ok project ∧
      Output.generate project = .ok generated ∧
      (convert config).run.run ws = (.ok summary, after) := by
  obtain ⟨summary, hsummary⟩ := Failure.exists_of_isSome h
  have hrun : (convert config).run.run ws = (.ok summary, ((convert config).run.run ws).2) :=
    Prod.ext hsummary rfl
  obtain ⟨_, start, hget, hprepare⟩ := Workspace.run_bind_eq_ok.mp hrun
  cases hget
  cases hgenerated : prepare ws config with
  | error reason =>
      rw [hgenerated] at hprepare
      cases hprepare
  | ok generated =>
      obtain ⟨project, hload, hgenerate⟩ := Failure.bind_eq_ok.mp hgenerated
      cases houtput : Output.generate project with
      | error reason =>
          rw [generate, houtput] at hgenerate
          cases hgenerate
      | ok generated =>
          exact ⟨project, generated, summary, _, hload, houtput, hrun⟩

end Converted

/-- Generated files are kept apart exactly if no two source files agree in what is kept of their
paths: then, and only then, there are as many files on disk as the summary says. -/
theorem files_kept_apart
    {project : Project}
    {generated : Generated}
    (hbelow : ∀ spec ∈ project.specs, Output.LiesBelow project.sourceDir spec.path)
    (h : Output.generate project = .ok generated) :
    ((generated.files.map OutputFile.path).Nodup ↔
      (project.specs.map fun spec => testKey project.sourceDir spec.path).Nodup) ∧
    ∀ (config : Config) (ws after : Workspace) (summary : Summary),
      load ws config = .ok project →
      (convert config).run.run ws = (.ok summary, after) →
      ((filesOnDisk after config.outDir generated.files).length = summary.filesWritten ↔
        (project.specs.map fun spec => testKey project.sourceDir spec.path).Nodup) ∧
      ((project.specs.map fun spec => testKey project.sourceDir spec.path).Nodup →
        ∀ file ∈ generated.files,
          after.readText (Path.join config.outDir file.path) = .ok file.text) := by
  have hpaths := Output.nodup_paths_iff hbelow h
  refine ⟨hpaths, ?_⟩
  intro config ws after summary hload hconvert
  refine ⟨length_filesOnDisk_convert hbelow h hload hconvert, ?_⟩
  intro hkeys
  obtain ⟨-, hholds⟩ := holdsLast_convert hbelow h hload hconvert
  exact readText_of_nodup hholds (hpaths.mpr hkeys)

/-- A workspace with two source files in one directory. -/
def pairWorkspace : Workspace :=
  { root := .directory [("c", .directory
      [("a.cy.js", .file (.text "it('x', () => \x7b\x7d);")),
       ("b.cy.ts", .file (.text "it('y', () => \x7b\x7d);"))])]
    workingDir := [] }

def pairConfig : Config :=
  { sourceDir := "c", outDir := "t" }

theorem files_kept_apart_pair :
    ∃ project generated summary after,
      load pairWorkspace pairConfig = .ok project ∧
      Output.generate project = .ok generated ∧
      (convert pairConfig).run.run pairWorkspace = (.ok summary, after) ∧
      (filesOnDisk after "t" generated.files).length = summary.filesWritten ∧
      ∀ file ∈ generated.files, after.readText (Path.join "t" file.path) = .ok file.text := by
  obtain ⟨hsome, hread⟩ :
      ((convert pairConfig).run.run pairWorkspace).1.toOption.isSome = true ∧
      (load pairWorkspace pairConfig).toOption.map (fun project =>
        (project.sourceDir, project.specs.map SpecFile.path)) =
        some ("c", ["c/a.cy.js", "c/b.cy.ts"]) := by
    decide +kernel
  obtain ⟨project, generated, summary, after, hload, h, hconvert⟩ := exists_of_convert hsome
  rw [hload] at hread
  obtain ⟨hdirectory, hpaths⟩ := Prod.mk.inj (Option.some.inj hread)
  have hbelow : ∀ spec ∈ project.specs, Output.LiesBelow project.sourceDir spec.path := by
    intro spec hspec
    have hmem : spec.path ∈ ["c/a.cy.js", "c/b.cy.ts"] := hpaths ▸ List.mem_map_of_mem hspec
    rw [hdirectory]
    simp only [List.mem_cons, List.not_mem_nil, or_false] at hmem
    rcases hmem with hpath | hpath
    · rw [hpath]
      exact ⟨[.name "a.cy.js"], rfl, by simp⟩
    · rw [hpath]
      exact ⟨[.name "b.cy.ts"], rfl, by simp⟩
  have hkeys : (project.specs.map fun spec => testKey project.sourceDir spec.path).Nodup := by
    have hmap : (project.specs.map fun spec => testKey project.sourceDir spec.path) =
        (project.specs.map SpecFile.path).map (testKey project.sourceDir) := by
      rw [List.map_map]
      rfl
    rw [hmap, hpaths, hdirectory]
    decide
  obtain ⟨-, hdisk⟩ := files_kept_apart hbelow h
  obtain ⟨hcount, htexts⟩ := hdisk _ _ after summary hload hconvert
  exact ⟨project, generated, summary, after, hload, h, hconvert, hcount.mpr hkeys, htexts hkeys⟩

/-- A project with two source files that differ only in their extensions. -/
def twinProject : Project :=
  { sourceDir := "c"
    specs :=
      [{ path := "c/e2e/a.cy.js", nodes := [.test (.string "x") .none [] default] },
       { path := "c/e2e/a.cy.ts", nodes := [.test (.string "y") .none [] default] }] }

/-- The tests of the first source file are overwritten by those of the second. -/
theorem twins_overwritten :
    (twinProject.specs.map SpecFile.path).Nodup ∧
    (∀ spec ∈ twinProject.specs, Output.LiesBelow twinProject.sourceDir spec.path) ∧
    ∃ generated,
      Output.generate twinProject = .ok generated ∧
      ¬ (generated.files.map OutputFile.path).Nodup := by
  have hbelow : ∀ spec ∈ twinProject.specs,
      Output.LiesBelow twinProject.sourceDir spec.path := by
    intro spec hspec
    simp only [twinProject, List.mem_cons, List.not_mem_nil, or_false] at hspec
    rcases hspec with rfl | rfl
    · exact ⟨[.name "e2e", .name "a.cy.js"], rfl, by simp⟩
    · exact ⟨[.name "e2e", .name "a.cy.ts"], rfl, by simp⟩
  have hsome : (Output.generate twinProject).toOption.isSome = true := by
    decide +kernel
  obtain ⟨generated, hgenerated⟩ := Failure.exists_of_isSome hsome
  refine ⟨by decide, hbelow, generated, hgenerated, ?_⟩
  rw [Output.nodup_paths_iff hbelow hgenerated]
  decide

end Conversion
end SuiteShift
