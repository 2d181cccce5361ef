import SuiteShift.Conversion.Basic
import SuiteShift.Proofs.Workspace.Edit

/-!
# Written files

- `writeFile_written`: what one file that was written leaves.
- `writeAll_written`: what a list of files leaves. Every path holds the text of the last file for
  it, and only the paths of the list are changed.
- `run_convert`: a conversion prepares everything before it writes. One with a result leaves all
  generated files, `convert_written`.
-/

namespace SuiteShift
namespace Conversion

open Output (Generated OutputFile Report)
open Workspace (Keeps Spares run_bind_eq_ok)

theorem run_withPath_eq_ok
    {α : Type}
    {path : String}
    {change : Workspace.Edit AccessError α}
    {ws after : Workspace}
    {result : α} :
    (withPath path change).run.run ws = (.ok result, after) ↔
      change.run.run ws = (.ok result, after) := by
  have hrun : (withPath path change).run.run ws =
      ((change.run.run ws).1.mapError (.access path), (change.run.run ws).2) := by
    rfl
  rw [hrun]
  rcases change.run.run ws with ⟨outcome, last⟩
  cases outcome with
  | ok value =>
      constructor
      · intro h
        cases h
        rfl
      · intro h
        cases h
        rfl
  | error reason =>
      constructor
      · intro h
        cases h
      · intro h
        cases h

theorem makeDirectories_kept
    {path : String}
    {ws after : Workspace}
    {result : Unit}
    (h : (withPath path (Workspace.makeDirectories path)).run.run ws = (.ok result, after)) :
    Keeps (fun _ => False) ws after := by
  rw [run_withPath_eq_ok] at h
  have hkept := Workspace.spares_makeDirectories path ws
  rw [h] at hkept
  exact hkept

/-- The file is where its path leads, and every other file is kept. -/
def Written (path text : String) (ws after : Workspace) : Prop :=
  ∃ location,
    after.locate path = .ok location ∧
    after.HoldsFile location (.text text) ∧
    Keeps (· = location) ws after

theorem writeText_written
    {path text : String}
    {ws after : Workspace}
    {result : Unit}
    (h : (withPath path (Workspace.writeText path text)).run.run ws = (.ok result, after)) :
    Written path text ws after := by
  rw [run_withPath_eq_ok, Workspace.writeText, Workspace.run_edit] at h
  cases hadd : ws.addText path text with
  | ok last =>
      rw [hadd] at h
      cases h
      exact Workspace.addText_written hadd
  | error reason =>
      rw [hadd] at h
      cases h

theorem Written.of_kept
    {path text : String}
    {ws middle after : Workspace}
    (hkept : Keeps (fun _ => False) ws middle)
    (h : Written path text middle after) :
    Written path text ws after := by
  obtain ⟨location, hlocate, hholds, hkeeps⟩ := h
  exact ⟨location, hlocate, hholds, (hkept.mono fun _ hno => hno.elim).trans hkeeps⟩

theorem writeFile_written
    {outDir : String}
    {file : OutputFile}
    {ws after : Workspace}
    {result : Unit}
    (h : (writeFile outDir file).run.run ws = (.ok result, after)) :
    Written (Path.join outDir file.path) file.text ws after := by
  unfold writeFile at h
  dsimp only at h
  split at h
  · rw [run_bind_eq_ok] at h
    obtain ⟨_, middle, hdirectories, hwrite⟩ := h
    exact (writeText_written hwrite).of_kept (makeDirectories_kept hdirectories)
  · exact writeText_written h

/-- The text of the last file for a path. -/
def lastText? (files : List OutputFile) (path : String) : Option String :=
  (files.reverse.find? fun file => file.path == path).map OutputFile.text

theorem lastText?_cons
    (file : OutputFile)
    (files : List OutputFile)
    (path : String) :
    lastText? (file :: files) path =
      (lastText? files path).or (if file.path = path then some file.text else none) := by
  unfold lastText?
  rw [List.reverse_cons, List.find?_append]
  cases files.reverse.find? fun other => other.path == path with
  | some other =>
      rfl
  | none =>
      by_cases hpath : file.path = path
      · simp [hpath]
      · simp [hpath]

theorem lastText?_eq_none
    {files : List OutputFile}
    {path : String}
    (h : ∀ file ∈ files, file.path ≠ path) :
    lastText? files path = none := by
  simpa [lastText?] using h

/-- The places of some files below the output directory. -/
def IsPlace (ws : Workspace) (outDir : String) (files : List OutputFile)
    (location : List String) : Prop :=
  ∃ file ∈ files, ws.locate (Path.join outDir file.path) = .ok location

/-- Every path of the list leads to a file with the last text for it. -/
def HoldsLast (ws : Workspace) (outDir : String) (files : List OutputFile) : Prop :=
  ∀ file ∈ files, ∃ location text,
    ws.locate (Path.join outDir file.path) = .ok location ∧
    lastText? files file.path = some text ∧
    ws.HoldsFile location (.text text)

/-- Of the files for one path the last one stays, and files elsewhere are kept. -/
theorem writeAll_written
    {outDir : String}
    {files : List OutputFile}
    {ws after : Workspace}
    {result : Unit}
    (hbelow : ∀ file ∈ files, Path.IsBelow file.path)
    (h : (files.forM (writeFile outDir)).run.run ws = (.ok result, after)) :
    Keeps (IsPlace after outDir files) ws after ∧ HoldsLast after outDir files := by
  induction files generalizing ws with
  | nil =>
      cases h
      exact ⟨.refl _ after, by simp [HoldsLast]⟩
  | cons file files ih =>
      rw [List.forM, run_bind_eq_ok] at h
      obtain ⟨_, middle, hfile, hrest⟩ := h
      obtain ⟨location, hlocate, hholds, hkeeps⟩ := writeFile_written hfile
      have hfiles : ∀ other ∈ files, Path.IsBelow other.path := by
        intro other hother
        exact hbelow other (List.mem_cons_of_mem _ hother)
      obtain ⟨hkept, hwritten⟩ := ih hfiles hrest
      have hplace := hkept.locate hlocate
      constructor
      · refine (hkeeps.mono ?_).trans (hkept.mono ?_)
        · rintro _ rfl
          exact ⟨file, List.mem_cons_self, hplace⟩
        · rintro place ⟨other, hother, hlocated⟩
          exact ⟨other, List.mem_cons_of_mem _ hother, hlocated⟩
      · intro other hother
        rw [lastText?_cons]
        by_cases hlater : ∃ later ∈ files, later.path = other.path
        · obtain ⟨later, hlater, hpath⟩ := hlater
          obtain ⟨place, text, hlocated, htext, hcontent⟩ := hwritten later hlater
          rw [hpath] at hlocated htext
          exact ⟨place, text, hlocated, by rw [htext, Option.some_or], hcontent⟩
        · have hnone : ∀ later ∈ files, later.path ≠ other.path := by
            intro later hmem hpath
            exact hlater ⟨later, hmem, hpath⟩
          have heq : other = file := by
            rcases List.mem_cons.mp hother with heq | hmem
            · exact heq
            · exact absurd rfl (hnone other hmem)
          subst heq
          refine ⟨location, other.text, hplace, ?_, ?_⟩
          · rw [lastText?_eq_none hnone, Option.none_or, if_pos rfl]
          · -- A later file at this location would have the same path.
            refine (hkept.content location ?_ (.text other.text)).mpr hholds
            rintro ⟨later, hmem, hlocated⟩
            exact hnone later hmem (Workspace.locate_join_inj (hfiles later hmem)
              (hbelow other List.mem_cons_self) hlocated hplace)

theorem writeFiles_written
    {outDir : String}
    {files : List OutputFile}
    {ws after : Workspace}
    {result : Unit}
    (hbelow : ∀ file ∈ files, Path.IsBelow file.path)
    (h : (writeFiles outDir files).run.run ws = (.ok result, after)) :
    Keeps (IsPlace after outDir files) ws after ∧ HoldsLast after outDir files := by
  rw [writeFiles, run_bind_eq_ok] at h
  obtain ⟨_, middle, hdirectories, hfiles⟩ := h
  obtain ⟨hkept, hholds⟩ := writeAll_written hbelow hfiles
  exact ⟨((makeDirectories_kept hdirectories).mono fun _ hno => hno.elim).trans hkept, hholds⟩

/-- A file beside the others leaves them as they are. -/
theorem HoldsLast.of_written
    {outDir path text : String}
    {files : List OutputFile}
    {ws after : Workspace}
    (h : HoldsLast ws outDir files)
    (hbelow : ∀ file ∈ files, Path.IsBelow file.path)
    (hpath : Path.IsBelow path)
    (hne : ∀ file ∈ files, file.path ≠ path)
    (hwritten : Written (Path.join outDir path) text ws after) :
    HoldsLast after outDir files := by
  obtain ⟨place, hplace, -, hkeeps⟩ := hwritten
  intro file hfile
  obtain ⟨location, last, hlocate, hlast, hholds⟩ := h file hfile
  have hlocated := hkeeps.locate hlocate
  refine ⟨location, last, hlocated, hlast, (hkeeps.content location ?_ _).mpr hholds⟩
  rintro rfl
  exact hne file hfile (Workspace.locate_join_inj (hbelow file hfile) hpath hlocated hplace)

theorem isBelow_reportFile :
    Path.IsBelow Report.fileName := by
  decide

/-- What is left of a conversion when everything is prepared. -/
def writeGenerated (config : Config) (generated : Generated) :
    Workspace.Edit ConvertError Summary := do
  writeFiles config.outDir generated.files
  if config.writeReport then writeReport config.outDir generated.report
  pure
    { specFiles := generated.report.files.length
      filesWritten := generated.files.length
      report := generated.report }

/-- A conversion prepares everything before it writes. -/
theorem run_convert
    (config : Config)
    (ws : Workspace) :
    (convert config).run.run ws =
      match prepare ws config with
      | .error reason => (.error reason, ws)
      | .ok generated => (writeGenerated config generated).run.run ws := by
  rw [convert, Workspace.run_bind]
  show StateT.run (ExceptT.run (match prepare ws config with | .error e => _ | .ok _ => _)) ws = _
  cases prepare ws config with
  | error reason =>
      rfl
  | ok generated =>
      rfl

/-- A conversion writes the generated files and then, if it is wanted, the report. -/
theorem convert_eq_ok
    {config : Config}
    {ws after : Workspace}
    {summary : Summary}
    {generated : Generated}
    (hprepare : prepare ws config = .ok generated)
    (h : (convert config).run.run ws = (.ok summary, after)) :
    summary =
      { specFiles := generated.report.files.length
        filesWritten := generated.files.length
        report := generated.report } ∧
    ∃ middle,
      (writeFiles config.outDir generated.files).run.run ws = (.ok (), middle) ∧
      if config.writeReport then
        (writeReport config.outDir generated.report).run.run middle = (.ok (), after)
      else after = middle := by
  rw [run_convert, hprepare] at h
  dsimp only at h
  rw [writeGenerated, run_bind_eq_ok] at h
  obtain ⟨_, middle, hfiles, h⟩ := h
  split_ifs at h with hreport
  · rw [run_bind_eq_ok] at h
    obtain ⟨_, last, hwrite, hsummary⟩ := h
    cases hsummary
    exact ⟨rfl, middle, hfiles, by rwa [if_pos hreport]⟩
  · cases h
    exact ⟨rfl, after, hfiles, by rw [if_neg hreport]⟩

/-- The generated files are on disk after a conversion, the report beside them. -/
theorem convert_written
    {config : Config}
    {ws after : Workspace}
    {summary : Summary}
    {generated : Generated}
    (hprepare : prepare ws config = .ok generated)
    (hbelow : ∀ file ∈ generated.files, Path.IsBelow file.path)
    (hreport : ∀ file ∈ generated.files, file.path ≠ Report.fileName)
    (h : (convert config).run.run ws = (.ok summary, after)) :
    summary.filesWritten = generated.files.length ∧
    HoldsLast after config.outDir generated.files := by
  obtain ⟨rfl, middle, hfiles, h⟩ := convert_eq_ok hprepare h
  have hholds := (writeFiles_written hbelow hfiles).2
  refine ⟨rfl, ?_⟩
  split_ifs at h
  · exact hholds.of_written hbelow isBelow_reportFile hreport (writeText_written h)
  · rw [h]
    exact hholds

end Conversion
end SuiteShift
