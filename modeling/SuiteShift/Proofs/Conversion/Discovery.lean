import SuiteShift.Conversion.Basic
import SuiteShift.Proofs.Failure
import SuiteShift.Proofs.Output.Layout
import SuiteShift.Proofs.Path.Join

/-!
# Files found below a directory

- `FileTree.named`: every entry of a tree has a name that can stand between slashes.
- `extends_of_mem_walk`: the files found in such a tree lie below the path at which the search
  starts.
- `loadProject_eq_ok`: a project that was loaded holds what was read from its source files. Its
  test files lie below its directory, `specs_liesBelow`.
-/

namespace SuiteShift

namespace FileTree

mutual

/-- Every entry has a name that can stand between slashes. -/
def named : FileTree → Bool
  | .file _ => true
  | .directory entries => namedEntries entries

/-- The entries have such names, and so have all entries below them. -/
def namedEntries : List (String × FileTree) → Bool
  | [] => true
  | (name, tree) :: entries =>
    decide (Path.IsOrdinary name) && tree.named && namedEntries entries

end

theorem named_of_lookup
    {entries : List (String × FileTree)}
    {name : String}
    {tree : FileTree}
    (h : namedEntries entries = true)
    (hlookup : entries.lookup name = some tree) :
    tree.named = true := by
  induction entries with
  | nil =>
      cases hlookup
  | cons entry entries ih =>
      obtain ⟨other, found⟩ := entry
      rw [namedEntries, Bool.and_eq_true, Bool.and_eq_true] at h
      rw [List.lookup_cons] at hlookup
      split at hlookup
      · cases hlookup
        exact h.1.2
      · exact ih h.2 hlookup

theorem named_of_get?
    {tree found : FileTree}
    {location : List String}
    (h : tree.named = true)
    (hget : tree.get? location = some found) :
    found.named = true := by
  fun_induction get? tree location with
  | case1 tree =>
      cases hget
      exact h
  | case2 content name location =>
      cases hget
  | case3 entries name location next hlookup ih =>
      rw [named] at h
      exact ih (named_of_lookup h hlookup) hget
  | case4 entries name location hlookup =>
      cases hget

/-- The components of the path are those of the directory and names after them. -/
def Extends (directory path : String) : Prop :=
  ∃ names : List String,
    Path.components path = Path.components directory ++ names.map .name

theorem Extends.of_join
    {directory name path : String}
    (hname : Path.IsOrdinary name)
    (h : Extends (Path.join directory name) path) :
    Extends directory path := by
  obtain ⟨names, hnames⟩ := h
  refine ⟨name :: names, ?_⟩
  rw [hnames, Path.components_join directory hname, List.append_assoc]
  rfl

mutual

/-- A search goes down only. -/
theorem extends_of_mem_walk
    {skipped : String → Bool}
    {directory : String} :
    {tree : FileTree} →
    tree.named = true →
    ∀ file ∈ tree.walk skipped directory, Extends directory file.1
  | .file content => by
      intro h file hfile
      rw [walk, List.mem_singleton] at hfile
      rw [hfile]
      exact ⟨[], by simp⟩
  | .directory entries => by
      intro h file hfile
      rw [named] at h
      rw [walk] at hfile
      exact extends_of_mem_walkEntries h file hfile

theorem extends_of_mem_walkEntries
    {skipped : String → Bool}
    {directory : String} :
    {entries : List (String × FileTree)} →
    namedEntries entries = true →
    ∀ file ∈ walkEntries skipped directory entries, Extends directory file.1
  | [] => by
      intro h file hfile
      rw [walkEntries] at hfile
      cases hfile
  | (name, tree) :: entries => by
      intro h file hfile
      rw [namedEntries, Bool.and_eq_true, Bool.and_eq_true, decide_eq_true_eq] at h
      rw [walkEntries, List.mem_append] at hfile
      rcases hfile with hfile | hfile
      · split_ifs at hfile
        · cases hfile
        · exact (extends_of_mem_walk h.1.2 file hfile).of_join h.1.1
      · exact extends_of_mem_walkEntries h.2 file hfile

end

end FileTree

namespace Discovery

open FileTree (Extends)
open Output (LiesBelow)

theorem stripBase?_append
    (base rest : List Path.Component) :
    Path.stripBase? base (base ++ rest) = some rest := by
  induction base with
  | nil =>
      rfl
  | cons b base ih =>
      rw [List.cons_append, Path.stripBase?, if_pos rfl, ih]

theorem liesBelow_of_extends
    {directory path : String}
    (h : Extends directory path) :
    LiesBelow directory path := by
  obtain ⟨names, hnames⟩ := h
  refine ⟨names.map .name, ?_, ?_⟩
  · rw [hnames, stripBase?_append]
  · intro c hc
    obtain ⟨text, -, rfl⟩ := List.mem_map.mp hc
    exact ⟨text, rfl⟩

theorem liesBelow_of_mem_filesIn
    {ws : Workspace}
    {directory : String}
    (h : ws.root.named = true)
    {file : String × Content}
    (hfile : file ∈ filesIn ws directory) :
    LiesBelow directory file.1 := by
  unfold filesIn at hfile
  dsimp only at hfile
  split_ifs at hfile
  · cases hfile
  · unfold Workspace.find? at hfile
    split at hfile
    · next location hlocate =>
        cases hget : ws.root.get? location with
        | none =>
            rw [hget] at hfile
            cases hfile
        | some tree =>
            rw [hget] at hfile
            exact liesBelow_of_extends
              (FileTree.extends_of_mem_walk (FileTree.named_of_get? h hget) file hfile)
    · cases hfile

/-! ### A project that was loaded -/

/-- A source file that was read has a text and a tree. -/
theorem readSource_eq_ok
    {file : SourceFile}
    {spec : SpecFile}
    (h : readSource file = .ok spec) :
    ∃ text tree reading,
      file.content = .text text ∧
      Script.parse? text = some tree ∧
      Spec.readBlock file.path tree = some reading ∧
      spec =
        { path := file.path, nodes := reading.nodes, definitions := reading.definitions } := by
  obtain ⟨text, htext, h⟩ := Failure.bind_eq_ok.mp h
  have hcontent : file.content = .text text := by
    cases hfile : file.content with
    | text other =>
        rw [hfile] at htext
        cases htext
        rfl
    | binary =>
        rw [hfile] at htext
        cases htext
  unfold SpecFile.ofSource at h
  cases htree : Script.parse? text with
  | none =>
      rw [htree] at h
      cases h
  | some tree =>
      rw [htree] at h
      dsimp only at h
      rw [Spec.ofTree] at h
      cases hreading : Spec.readBlock file.path tree with
      | none =>
          rw [hreading] at h
          cases h
      | some reading =>
          rw [hreading] at h
          cases h
          exact ⟨text, tree, reading, hcontent, htree, hreading, rfl⟩

/-- A project that was loaded holds what was read from its files. -/
theorem loadProject_eq_ok
    {ws : Workspace}
    {language directory : String}
    {project : Project}
    (h : loadProject ws language directory = .ok project) :
    ∃ files,
      (sourceFiles ws directory).mapM (fun file =>
        (readSource file).map fun spec => (file.kind, spec)) = .ok files ∧
      project.sourceDir = directory ∧
      project.specs = ((files.filter fun file => file.1 = .spec).map fun file =>
        { file.2 with definitions := [] }) ∧
      project.definitions = files.flatMap fun file => file.2.definitions := by
  unfold loadProject at h
  split_ifs at h
  obtain ⟨baseUrl, -, h⟩ := Failure.bind_eq_ok.mp h
  obtain ⟨files, hfiles, h⟩ := Failure.bind_eq_ok.mp h
  cases h
  exact ⟨files, hfiles, rfl, rfl, rfl⟩

theorem mem_filesIn_of_mem_sourceFiles
    {ws : Workspace}
    {directory : String}
    {file : SourceFile}
    (h : file ∈ sourceFiles ws directory) :
    (file.path, file.content) ∈ filesIn ws directory := by
  rw [sourceFiles, List.mem_filterMap] at h
  obtain ⟨⟨path, content⟩, hmem, hfile⟩ := h
  dsimp only at hfile
  split_ifs at hfile
  cases hfile
  exact hmem

/-- The test files of a project lie below its directory. -/
theorem specs_liesBelow
    {ws : Workspace}
    {language directory : String}
    {project : Project}
    (hnamed : ws.root.named = true)
    (h : loadProject ws language directory = .ok project) :
    ∀ spec ∈ project.specs, LiesBelow project.sourceDir spec.path := by
  obtain ⟨files, hfiles, hdirectory, hspecs, -⟩ := loadProject_eq_ok h
  intro spec hspec
  rw [hspecs, List.mem_map] at hspec
  obtain ⟨file, hfile, rfl⟩ := hspec
  obtain ⟨source, hsource, hread⟩ :=
    Failure.exists_of_mem_mapM hfiles (List.mem_of_mem_filter hfile)
  obtain ⟨spec, hspec, rfl⟩ := Failure.map_eq_ok.mp hread
  obtain ⟨text, tree, reading, -, -, -, rfl⟩ := readSource_eq_ok hspec
  rw [hdirectory]
  exact liesBelow_of_mem_filesIn hnamed (mem_filesIn_of_mem_sourceFiles hsource)

end Discovery
end SuiteShift
