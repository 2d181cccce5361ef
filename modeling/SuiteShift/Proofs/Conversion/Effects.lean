import SuiteShift.Cli.Basic
import SuiteShift.Proofs.Conversion.Discovery
import SuiteShift.Proofs.Conversion.Distinct
import SuiteShift.Proofs.Workspace.Refusal

/-!
# What a conversion does to a workspace

- `ConvertError.isOfChange`: the errors of writing. A conversion that ends with another one changes
  nothing, `convert_unchanged`.
- `writtenFiles`: what a conversion writes, the report only if it is wanted.
- `Leaves`: a workspace after a conversion against the one before it.
- `conversion_effects`: a check changes nothing, a conversion that fails to read its project changes
  nothing, and one that succeeds changes only its own files and reports what a check reports.
-/

namespace SuiteShift

/-- The error is one of writing. -/
def ConvertError.isOfChange : ConvertError → Bool
  | .access _ reason => reason.isOfChange
  | _ => false

namespace Conversion

open Output (Generated OutputFile Report)
open Workspace (Keeps RefusedBy refusedBy_bind refusedBy_pure)

/-! ### Errors -/

theorem refusedBy_withPath
    {α : Type}
    {change : Workspace.Edit AccessError α}
    (path : String)
    (h : RefusedBy (·.isOfChange = true) change) :
    RefusedBy (·.isOfChange = true) (withPath path change) := by
  intro ws reason hreason
  have hrun : ((withPath path change).run.run ws).1 =
      (change.run.run ws).1.mapError (.access path) := by
    rfl
  rw [hrun] at hreason
  cases houtcome : (change.run.run ws).1 with
  | ok value =>
      rw [houtcome] at hreason
      cases hreason
  | error access =>
      rw [houtcome] at hreason
      cases hreason
      exact h ws access houtcome

theorem refusedBy_writeFile
    (outDir : String)
    (file : OutputFile) :
    RefusedBy (·.isOfChange = true) (writeFile outDir file) := by
  have hwrite : RefusedBy (·.isOfChange = true)
      (withPath (Path.join outDir file.path)
        (Workspace.writeText (Path.join outDir file.path) file.text)) :=
    refusedBy_withPath _ (Workspace.refusedBy_writeText _ _)
  unfold writeFile
  dsimp only
  split
  · exact refusedBy_bind (refusedBy_withPath _ (Workspace.refusedBy_makeDirectories _))
      fun _ => hwrite
  · exact hwrite

theorem refusedBy_writeFiles
    (outDir : String)
    (files : List OutputFile) :
    RefusedBy (·.isOfChange = true) (writeFiles outDir files) := by
  refine refusedBy_bind (refusedBy_withPath _ (Workspace.refusedBy_makeDirectories _)) ?_
  rintro ⟨⟩
  induction files with
  | nil =>
      exact refusedBy_pure ()
  | cons file files ih =>
      exact refusedBy_bind (refusedBy_writeFile outDir file) fun _ => ih

theorem refusedBy_writeGenerated
    (config : Config)
    (generated : Generated) :
    RefusedBy (·.isOfChange = true) (writeGenerated config generated) := by
  refine refusedBy_bind (refusedBy_writeFiles _ _) ?_
  intro _
  split_ifs
  · exact refusedBy_bind (refusedBy_withPath _ (Workspace.refusedBy_writeText _ _))
      fun _ => refusedBy_pure _
  · exact refusedBy_pure _

/-- Nothing is written before an error that is not one of writing. -/
theorem convert_unchanged
    {config : Config}
    {ws after : Workspace}
    {reason : ConvertError}
    (h : (convert config).run.run ws = (.error reason, after))
    (hreason : reason.isOfChange = false) :
    after = ws := by
  rw [run_convert] at h
  cases hprepare : prepare ws config with
  | error other =>
      rw [hprepare] at h
      exact (Prod.mk.inj h).2.symm
  | ok generated =>
      rw [hprepare] at h
      have hrefused : reason.isOfChange = true :=
        refusedBy_writeGenerated config generated ws reason (congrArg Prod.fst h)
      rw [hreason] at hrefused
      cases hrefused

/-! ### Written files -/

/-- The report as a file. -/
def reportFile (report : Report) : OutputFile :=
  ⟨Report.fileName, report.toJson.pretty⟩

/-- The files that a conversion writes, in their order. -/
def writtenFiles (config : Config) (generated : Generated) : List OutputFile :=
  generated.files ++ if config.writeReport then [reportFile generated.report] else []

/-- The location of a path of names below a location. -/
def placeBelow (base : List String) (path : String) : List String :=
  base ++ (Path.components path).map Path.Component.text

/-- What a conversion leaves, with the output directory at a location. -/
structure Leaves (config : Config) (generated : Generated) (base : List String)
    (ws after : Workspace) : Prop where
  located : after.locateDirectory config.outDir = .ok base
  /-- Files are changed only where the conversion writes. -/
  kept :
    Keeps (fun location => ∃ file ∈ writtenFiles config generated,
      location = placeBelow base file.path) ws after
  /-- Of the generated files for one path the last one is read back. -/
  last :
    ∀ file ∈ generated.files, ∃ text,
      lastText? generated.files file.path = some text ∧
      after.readText (Path.join config.outDir file.path) = .ok text
  report :
    config.writeReport = true →
      after.readText (Path.join config.outDir Report.fileName) =
        .ok generated.report.toJson.pretty

section Converted

variable {config : Config} {generated : Generated} {ws middle after : Workspace}

theorem isBelow_writtenFiles
    (hbelow : ∀ file ∈ generated.files, Path.IsBelow file.path) :
    ∀ file ∈ writtenFiles config generated, Path.IsBelow file.path := by
  intro file hfile
  rw [writtenFiles, List.mem_append] at hfile
  rcases hfile with hfile | hfile
  · exact hbelow file hfile
  · split_ifs at hfile
    · rw [List.mem_singleton] at hfile
      rw [hfile]
      exact isBelow_reportFile
    · cases hfile

/-- What is written after the generated files is the report. -/
theorem keeps_of_report
    (hkept : Keeps (IsPlace middle config.outDir generated.files) ws middle)
    (h : if config.writeReport then
        (writeReport config.outDir generated.report).run.run middle = (.ok (), after)
      else after = middle) :
    Keeps (IsPlace after config.outDir (writtenFiles config generated)) ws after := by
  unfold writtenFiles
  split_ifs at h with hreport
  · obtain ⟨place, hplace, -, hkeeps⟩ := writeText_written h
    rw [if_pos hreport]
    refine (hkept.mono ?_).trans (hkeeps.mono ?_)
    · rintro location ⟨file, hfile, hlocate⟩
      exact ⟨file, List.mem_append_left _ hfile, hkeeps.locate hlocate⟩
    · rintro _ rfl
      exact ⟨reportFile generated.report, List.mem_append_right _ List.mem_cons_self, hplace⟩
  · rw [if_neg hreport, List.append_nil, h]
    exact hkept

/-- The locations of files below the output directory are known by its own. -/
theorem placeBelow_of_isPlace
    {outDir : String}
    {files : List OutputFile}
    {base : List String}
    (hbelow : ∀ file ∈ files, Path.IsBelow file.path)
    (hbase : ws.locateDirectory outDir = .ok base) :
    ∀ location, IsPlace ws outDir files location →
      ∃ file ∈ files, location = placeBelow base file.path := by
  rintro location ⟨file, hfile, hlocate⟩
  obtain ⟨other, hother, hlocation⟩ := Workspace.locate_join (hbelow file hfile) hlocate
  rw [hbase] at hother
  cases hother
  exact ⟨file, hfile, hlocation⟩

theorem leaves_of_convert
    {summary : Summary}
    (hprepare : prepare ws config = .ok generated)
    (hne : generated.files ≠ [])
    (hbelow : ∀ file ∈ generated.files, Path.IsBelow file.path)
    (hreport : ∀ file ∈ generated.files, file.path ≠ Report.fileName)
    (h : (convert config).run.run ws = (.ok summary, after)) :
    ∃ base, Leaves config generated base ws after := by
  have hholds := (convert_written hprepare hbelow hreport h).2
  obtain ⟨-, middle, hfiles, hlast⟩ := convert_eq_ok hprepare h
  have hkept := keeps_of_report (writeFiles_written hbelow hfiles).1 hlast
  -- Any generated file tells where the output directory is.
  obtain ⟨first, hfirst⟩ := List.exists_mem_of_ne_nil _ hne
  obtain ⟨location, _, hlocate, -, -⟩ := hholds first hfirst
  obtain ⟨base, hbase, -⟩ := Workspace.locate_join (hbelow first hfirst) hlocate
  refine ⟨base, hbase, ?_, ?_, ?_⟩
  · exact hkept.mono (placeBelow_of_isPlace (isBelow_writtenFiles hbelow) hbase)
  · intro file hfile
    obtain ⟨place, text, hplace, htext, hcontent⟩ := hholds file hfile
    exact ⟨text, htext, Workspace.readText_of_locate hplace hcontent⟩
  · intro hwanted
    rw [if_pos hwanted] at hlast
    obtain ⟨place, hplace, hcontent, -⟩ := writeText_written hlast
    exact Workspace.readText_of_locate hplace hcontent

end Converted

namespace Leaves

variable {config : Config} {generated : Generated} {base : List String} {ws after : Workspace}

/-- Nothing outside of the output directory is changed. -/
theorem outside
    (h : Leaves config generated base ws after)
    {location : List String}
    (hlocation : ¬ base <+: location)
    (content : Content) :
    after.HoldsFile location content ↔ ws.HoldsFile location content := by
  refine h.kept.content location ?_ content
  rintro ⟨file, -, rfl⟩
  exact hlocation (List.prefix_append _ _)

/-- A report that is not wanted is not written. -/
theorem no_report
    (h : Leaves config generated base ws after)
    (hbelow : ∀ file ∈ generated.files, Path.IsBelow file.path)
    (hreport : ∀ file ∈ generated.files, file.path ≠ Report.fileName)
    (hwanted : config.writeReport = false)
    (content : Content) :
    after.HoldsFile (placeBelow base Report.fileName) content ↔
      ws.HoldsFile (placeBelow base Report.fileName) content := by
  refine h.kept.content _ ?_ content
  rintro ⟨file, hfile, hplace⟩
  rw [writtenFiles, hwanted, if_neg Bool.false_ne_true, List.append_nil] at hfile
  have htexts := List.append_cancel_left hplace
  exact hreport file hfile ((hbelow file hfile).eq_of_texts isBelow_reportFile htexts.symm)

end Leaves

theorem files_ne_nil
    {project : Project}
    {generated : Generated}
    (h : Output.generate project = .ok generated) :
    generated.files ≠ [] := by
  obtain ⟨commands, -, h⟩ := Failure.bind_eq_ok.mp h
  obtain ⟨tests, -, h⟩ := Failure.bind_eq_ok.mp h
  cases h
  simp [Output.sharedFiles]

theorem loadProject_of_load
    {ws : Workspace}
    {config : Config}
    {project : Project}
    (h : load ws config = .ok project) :
    Discovery.loadProject ws config.language config.sourceDir = .ok project := by
  obtain ⟨loaded, hloaded, h⟩ := Failure.bind_eq_ok.mp h
  split_ifs at h
  · cases h
    exact hloaded
  · obtain ⟨_, -, h⟩ := Failure.bind_eq_ok.mp h
    cases h
    exact hloaded

theorem prepare_of_load_error
    {ws : Workspace}
    {config : Config}
    {reason : ConvertError}
    (h : load ws config = .error reason) :
    prepare ws config = .error reason := by
  rw [prepare, h]
  rfl

/-- A check changes nothing. A conversion changes nothing when its project cannot be read or is
refused, or for any other reason but one of writing. When it succeeds, it changes only its own files
below the output directory, and it reports what a check reports. -/
theorem conversion_effects
    (ws : Workspace)
    (config : Config)
    (hnamed : ws.root.named = true) :
    (∀ json, (Cli.checkProject ws config json).workspace = ws) ∧
    (∀ reason, load ws config = .error reason →
      check ws config = .error reason ∧
      (convert config).run.run ws = (.error reason, ws)) ∧
    (∀ reason after, (convert config).run.run ws = (.error reason, after) →
      reason.isOfChange = false →
      after = ws) ∧
    ∀ summary after, (convert config).run.run ws = (.ok summary, after) →
      check ws config = .ok summary.report ∧
      ∃ generated base,
        prepare ws config = .ok generated ∧
        Leaves config generated base ws after ∧
        (∀ location, ¬ base <+: location →
          ∀ content, after.HoldsFile location content ↔ ws.HoldsFile location content) ∧
        (config.writeReport = false →
          ∀ content,
            after.HoldsFile (placeBelow base Report.fileName) content ↔
              ws.HoldsFile (placeBelow base Report.fileName) content) := by
  refine ⟨?_, ?_, fun _ _ => convert_unchanged, ?_⟩
  · intro json
    unfold Cli.checkProject
    split
    · rfl
    · rfl
  · intro reason hload
    have hprepare := prepare_of_load_error hload
    rw [check, run_convert, hprepare]
    exact ⟨rfl, rfl⟩
  · intro summary after h
    have hsome : ((convert config).run.run ws).1.toOption.isSome = true := by
      rw [h]
      rfl
    obtain ⟨project, generated, _, _, hload, hgenerate, -⟩ := exists_of_convert hsome
    have hprepare := prepare_of_load hload hgenerate
    have hfiles := Output.isBelow_generated
      (Discovery.specs_liesBelow hnamed (loadProject_of_load hload)) hgenerate
    have hbelow := fun file hfile => (hfiles file hfile).1
    have hreport := fun file hfile => (hfiles file hfile).2
    obtain ⟨base, hleaves⟩ :=
      leaves_of_convert hprepare (files_ne_nil hgenerate) hbelow hreport h
    refine ⟨?_, generated, base, hprepare, hleaves, ?_, ?_⟩
    · rw [check, hprepare, (convert_eq_ok hprepare h).1]
      rfl
    · intro location hlocation
      exact hleaves.outside hlocation
    · intro hwanted
      exact hleaves.no_report hbelow hreport hwanted

/-- The output goes into the directory of the source. -/
def nestedConfig : Config :=
  { sourceDir := "c", outDir := "c/out" }

theorem conversion_effects_nested :
    pairWorkspace.root.named = true ∧
    (Cli.checkProject pairWorkspace nestedConfig true).workspace = pairWorkspace ∧
    ∃ summary after generated base,
      (convert nestedConfig).run.run pairWorkspace = (.ok summary, after) ∧
      check pairWorkspace nestedConfig = .ok summary.report ∧
      Leaves nestedConfig generated base pairWorkspace after := by
  have hnamed : pairWorkspace.root.named = true := by
    decide
  have hsome : ((convert nestedConfig).run.run pairWorkspace).1.toOption.isSome = true := by
    decide +kernel
  obtain ⟨_, _, summary, after, -, -, hconvert⟩ := exists_of_convert hsome
  obtain ⟨hcheck, -, -, heffect⟩ := conversion_effects pairWorkspace nestedConfig hnamed
  obtain ⟨hreport, generated, base, -, hleaves, -⟩ := heffect summary after hconvert
  exact ⟨hnamed, hcheck true, summary, after, generated, base, hconvert, hreport, hleaves⟩

end Conversion
end SuiteShift
