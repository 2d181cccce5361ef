import SuiteShift.Workspace.Basic
import SuiteShift.Proofs.Failure
import SuiteShift.Proofs.Path.Join
import SuiteShift.Proofs.Text.Bytes
import SuiteShift.Proofs.Workspace.Tree

/-!
# Where paths lead

- `HoldsDirectory`, `HoldsFile`: what is at a location.
- `step_eq_ok`: a piece of a path is followed from a directory; a name leads on only if
  something is there.
- `locate_join`: a path of names below a directory leads to the location of the directory
  followed by the names. So two such paths that lead to one location are the same,
  `locate_join_inj`.
-/

namespace SuiteShift
namespace Workspace

open SuiteShift.Path (Component)

/-- A directory is at the location. -/
def HoldsDirectory (ws : Workspace) (location : List String) : Prop :=
  ∃ entries, ws.root.get? location = some (.directory entries)

/-- A file with the content is at the location. -/
def HoldsFile (ws : Workspace) (location : List String) (content : Content) : Prop :=
  ws.root.get? location = some (.file content)

/-- Something is below a location only if a directory is there. -/
theorem get?_below_of_not_holdsDirectory
    {ws : Workspace}
    {location rest : List String}
    (h : ¬ ws.HoldsDirectory location)
    (hne : rest ≠ []) :
    ws.root.get? (location ++ rest) = none := by
  obtain ⟨name, rest, rfl⟩ := List.exists_cons_of_ne_nil hne
  rw [FileTree.get?_append]
  cases hget : ws.root.get? location with
  | none =>
      rfl
  | some tree =>
      cases tree with
      | file content =>
          exact FileTree.get?_cons_file content name rest
      | directory entries =>
          exact absurd ⟨entries, hget⟩ h

/-- What is above a directory is a directory. -/
theorem HoldsDirectory.above
    {ws : Workspace}
    {location rest : List String}
    (h : ws.HoldsDirectory (location ++ rest)) :
    ws.HoldsDirectory location := by
  by_contra hno
  obtain ⟨entries, hentries⟩ := h
  by_cases hnil : rest = []
  · subst hnil
    rw [List.append_nil] at hentries
    exact hno ⟨entries, hentries⟩
  · rw [get?_below_of_not_holdsDirectory hno hnil] at hentries
    cases hentries

theorem entriesAt_eq_ok
    {ws : Workspace}
    {location : List String}
    {entries : List (String × FileTree)} :
    ws.entriesAt location = .ok entries ↔
      ws.root.get? location = some (.directory entries) := by
  unfold entriesAt
  cases ws.root.get? location with
  | none =>
      simp
  | some tree =>
      cases tree with
      | file content =>
          simp
      | directory others =>
          simp

theorem isSome_lookup
    {ws : Workspace}
    {location : List String}
    {entries : List (String × FileTree)}
    (h : ws.root.get? location = some (.directory entries))
    (name : String) :
    (entries.lookup name).isSome = (ws.root.get? (location ++ [name])).isSome := by
  rw [FileTree.get?_append, h, Option.bind_some, FileTree.get?_cons_directory]
  cases entries.lookup name with
  | none =>
      rfl
  | some tree =>
      rw [Option.bind_some, FileTree.get?]

/-- A piece leads from a directory at the location to the next one. -/
def LeadsTo (ws : Workspace) (location : List String) (piece : List Char)
    (next : List String) : Prop :=
  match Component.ofPiece? piece with
  | none => next = location
  | some .up => next = location.dropLast
  | some (.name name) =>
    Text.utf8Length piece ≤ nameLimit ∧
      (ws.root.get? (location ++ [name])).isSome ∧ next = location ++ [name]
  | some _ => False

theorem step_eq_ok
    {ws : Workspace}
    {location next : List String}
    {piece : List Char} :
    ws.step location piece = .ok next ↔
      ws.HoldsDirectory location ∧ ws.LeadsTo location piece next := by
  unfold step LeadsTo Component.ofPiece?
  rw [Failure.bind_eq_ok]
  constructor
  · rintro ⟨entries, hentries, h⟩
    rw [entriesAt_eq_ok] at hentries
    refine ⟨⟨entries, hentries⟩, ?_⟩
    split at h
    · exact (Except.ok.inj h).symm
    · exact (Except.ok.inj h).symm
    · exact (Except.ok.inj h).symm
    · dsimp only at h
      split_ifs at h with hlimit hsome
      simp only
      refine ⟨Nat.le_of_not_lt hlimit, ?_, (Except.ok.inj h).symm⟩
      rw [← isSome_lookup hentries]
      exact hsome
  · rintro ⟨⟨entries, hentries⟩, h⟩
    refine ⟨entries, entriesAt_eq_ok.mpr hentries, ?_⟩
    split
    · rw [h]
    · rw [h]
    · rw [h]
    · simp only at h
      obtain ⟨hlimit, hsome, rfl⟩ := h
      rw [← isSome_lookup hentries] at hsome
      rw [if_neg (Nat.not_lt.mpr hlimit), if_pos hsome]

theorem follow_nil
    (ws : Workspace)
    (location : List String) :
    ws.follow location [] = .ok location := by
  rfl

theorem follow_cons_eq_ok
    {ws : Workspace}
    {location last : List String}
    {piece : List Char}
    {pieces : List (List Char)} :
    ws.follow location (piece :: pieces) = .ok last ↔
      ∃ next, ws.step location piece = .ok next ∧ ws.follow next pieces = .ok last := by
  unfold follow
  rw [List.foldlM_cons, Failure.bind_eq_ok]

theorem follow_append_eq_ok
    {ws : Workspace}
    {location last : List String}
    {first second : List (List Char)} :
    ws.follow location (first ++ second) = .ok last ↔
      ∃ next, ws.follow location first = .ok next ∧ ws.follow next second = .ok last := by
  unfold follow
  rw [List.foldlM_append, Failure.bind_eq_ok]

/-- Names lead down. -/
theorem follow_names
    {ws : Workspace}
    {location last : List String}
    {names : List Component}
    (hnames : ∀ c ∈ names, c.IsName)
    (h : ws.follow location (names.map fun c => c.text.toList) = .ok last) :
    last = location ++ names.map Component.text := by
  induction names generalizing location with
  | nil =>
      cases h
      simp
  | cons c names ih =>
      rw [List.map_cons, follow_cons_eq_ok] at h
      obtain ⟨next, hstep, hrest⟩ := h
      have hnext : next = location ++ [c.text] := by
        obtain ⟨text, rfl, hordinary⟩ := (hnames c List.mem_cons_self).exists_text
        have hleads := (step_eq_ok.mp hstep).2
        rw [LeadsTo, Component.text, Component.ofPiece?_of_isOrdinary hordinary] at hleads
        exact hleads.2.2
      have hlast := ih (fun d hd => hnames d (List.mem_cons_of_mem _ hd)) hrest
      rw [hlast, hnext, List.map_cons, List.append_assoc, List.singleton_append]

/-- The text is taken for a path. -/
def IsPathText (path : String) : Prop :=
  path.isEmpty = false ∧ '\x00' ∉ path.toList ∧ Text.utf8Length path.toList ≤ pathLimit

theorem start_eq_ok
    {ws : Workspace}
    {path : String}
    {location : List String} :
    ws.start path = .ok location ↔
      IsPathText path ∧ location = if path.startsWith "/" then [] else ws.workingDir := by
  unfold start IsPathText
  generalize (if path.startsWith "/" then [] else ws.workingDir) = origin
  constructor
  · intro h
    split_ifs at h with hempty hnul hlimit
    refine ⟨⟨by simpa using hempty, by simpa using hnul, Nat.le_of_not_lt hlimit⟩, ?_⟩
    exact (Except.ok.inj h).symm
  · rintro ⟨⟨hempty, hnul, hlimit⟩, rfl⟩
    rw [if_neg (by simp [hempty]), if_neg (by simpa using hnul), if_neg (Nat.not_lt.mpr hlimit)]

/-- Where a directory is. The empty path stands for the one in which relative paths start. -/
def locateDirectory (ws : Workspace) (directory : String) : Except AccessError (List String) :=
  if directory.isEmpty then .ok ws.workingDir else ws.locate directory

/-- A directory before a path is a path as well. -/
theorem IsPathText.of_join
    {directory path : String}
    (hne : directory.isEmpty = false)
    (hpath : path.startsWith "/" = false)
    (h : IsPathText (Path.join directory path)) :
    IsPathText directory := by
  obtain ⟨rest, hjoin⟩ : ∃ rest, Path.join directory path = directory ++ rest := by
    unfold Path.join
    rw [hpath, hne]
    split_ifs with hnever hend
    · cases hnever
    · exact ⟨path, rfl⟩
    · exact ⟨"/" ++ path, String.append_assoc⟩
  obtain ⟨-, hnul, hlimit⟩ := h
  rw [hjoin, String.toList_append] at hnul hlimit
  rw [Text.utf8Length_append] at hlimit
  exact ⟨hne, fun hmem => hnul (List.mem_append_left _ hmem),
    (Nat.le_add_right _ _).trans hlimit⟩

/-- A path of names below a directory leads to the location of the directory followed by the
names. -/
theorem locate_join
    {ws : Workspace}
    {directory path : String}
    {location : List String}
    (hpath : Path.IsBelow path)
    (h : ws.locate (Path.join directory path) = .ok location) :
    ∃ base,
      ws.locateDirectory directory = .ok base ∧
      location = base ++ (Path.components path).map Component.text := by
  obtain ⟨origin, horigin, hfollow⟩ := Failure.bind_eq_ok.mp h
  rw [start_eq_ok, Path.startsWith_join hpath.not_startsWith] at horigin
  obtain ⟨htext, horigin⟩ := horigin
  rw [Path.pieces_join directory hpath.not_startsWith, follow_append_eq_ok] at hfollow
  obtain ⟨base, hbase, hnames⟩ := hfollow
  rw [hpath.pieces_eq] at hnames
  refine ⟨base, ?_, follow_names hpath.2.1 hnames⟩
  unfold locateDirectory
  cases hempty : directory.isEmpty with
  | true =>
      rw [Path.leading, if_pos hempty, follow_nil, Except.ok.injEq] at hbase
      rw [String.isEmpty_iff.mp hempty] at horigin
      rw [if_pos rfl, ← hbase, horigin]
      rfl
  | false =>
      refine Failure.bind_eq_ok.mpr ⟨origin, ?_, ?_⟩
      · exact start_eq_ok.mpr ⟨htext.of_join hempty hpath.not_startsWith, horigin⟩
      · rcases Path.pieces_eq_leading hempty with hpieces | hpieces
        · rw [hpieces, hbase]
        · -- The first name leads on from a directory.
          obtain ⟨c, names, hcomponents⟩ := List.exists_cons_of_ne_nil hpath.1
          rw [hcomponents, List.map_cons, follow_cons_eq_ok] at hnames
          obtain ⟨next, hstep, -⟩ := hnames
          rw [hpieces, follow_append_eq_ok]
          refine ⟨base, hbase, follow_cons_eq_ok.mpr ⟨base, ?_, follow_nil _ _⟩⟩
          exact step_eq_ok.mpr ⟨(step_eq_ok.mp hstep).1, rfl⟩

/-- Paths of names below one directory that lead to one location are the same. -/
theorem locate_join_inj
    {ws : Workspace}
    {directory path other : String}
    {location : List String}
    (hpath : Path.IsBelow path)
    (hother : Path.IsBelow other)
    (h : ws.locate (Path.join directory path) = .ok location)
    (h' : ws.locate (Path.join directory other) = .ok location) :
    path = other := by
  obtain ⟨base, hbase, hlocation⟩ := locate_join hpath h
  obtain ⟨base', hbase', hlocation'⟩ := locate_join hother h'
  rw [hbase] at hbase'
  cases hbase'
  rw [hlocation] at hlocation'
  have htexts := List.append_cancel_left hlocation'
  exact hpath.eq_of_texts hother htexts

theorem isFile_of_locate
    {ws : Workspace}
    {path : String}
    {location : List String}
    {content : Content}
    (hlocate : ws.locate path = .ok location)
    (hholds : ws.HoldsFile location content) :
    ws.isFile path = true := by
  rw [HoldsFile] at hholds
  unfold isFile find?
  rw [hlocate]
  dsimp only
  rw [hholds]

theorem readText_of_locate
    {ws : Workspace}
    {path text : String}
    {location : List String}
    (hlocate : ws.locate path = .ok location)
    (hholds : ws.HoldsFile location (.text text)) :
    ws.readText path = .ok text := by
  rw [HoldsFile] at hholds
  refine Failure.bind_eq_ok.mpr ⟨location, hlocate, ?_⟩
  rw [hholds]

end Workspace
end SuiteShift
