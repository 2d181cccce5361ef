import SuiteShift.Proofs.Workspace.Location

/-!
# What changes of a workspace keep

- `Keeps`: directories and files stay what they are, and files outside of a set of locations keep
  their content; none is added there. Paths lead where they led, `Keeps.locate`.
- `keeps_makeDirectories`: making directories keeps every file, also when it fails.
- `writeText_written`: a file that was written is read back, and every other one is kept.
-/

namespace SuiteShift
namespace Workspace

open SuiteShift.Path (Component)

/-- The change keeps what it finds, but for the contents of files at the changed locations. -/
structure Keeps (changed : List String → Prop) (before after : Workspace) : Prop where
  workingDir : after.workingDir = before.workingDir
  directory :
    ∀ location, before.HoldsDirectory location → after.HoldsDirectory location
  file :
    ∀ location content, before.HoldsFile location content →
      ∃ other, after.HoldsFile location other
  content :
    ∀ location, ¬ changed location →
      ∀ content, after.HoldsFile location content ↔ before.HoldsFile location content

namespace Keeps

variable {changed : List String → Prop} {before middle after : Workspace}

theorem refl
    (changed : List String → Prop)
    (ws : Workspace) :
    Keeps changed ws ws where
  workingDir := rfl
  directory _ h := h
  file _ content h := ⟨content, h⟩
  content _ _ _ := Iff.rfl

theorem trans
    (h : Keeps changed before middle)
    (h' : Keeps changed middle after) :
    Keeps changed before after where
  workingDir := h'.workingDir.trans h.workingDir
  directory location hlocation := h'.directory location (h.directory location hlocation)
  file location content hfile := by
    obtain ⟨other, hother⟩ := h.file location content hfile
    exact h'.file location other hother
  content location hlocation content :=
    (h'.content location hlocation content).trans (h.content location hlocation content)

theorem mono
    {wider : List String → Prop}
    (hwider : ∀ location, changed location → wider location)
    (h : Keeps changed before after) :
    Keeps wider before after where
  workingDir := h.workingDir
  directory := h.directory
  file := h.file
  content location hlocation := h.content location fun hchanged =>
    hlocation (hwider location hchanged)

theorem isSome_get?
    {location : List String}
    (h : Keeps changed before after)
    (hsome : (before.root.get? location).isSome) :
    (after.root.get? location).isSome := by
  obtain ⟨tree, htree⟩ := Option.isSome_iff_exists.mp hsome
  cases tree with
  | file content =>
      obtain ⟨other, hother⟩ := h.file location content htree
      rw [hother]
      rfl
  | directory entries =>
      obtain ⟨others, hothers⟩ := h.directory location ⟨entries, htree⟩
      rw [hothers]
      rfl

theorem step
    {location next : List String}
    {piece : List Char}
    (h : Keeps changed before after)
    (hstep : before.step location piece = .ok next) :
    after.step location piece = .ok next := by
  rw [step_eq_ok] at hstep ⊢
  obtain ⟨hdirectory, hleads⟩ := hstep
  refine ⟨h.directory location hdirectory, ?_⟩
  unfold LeadsTo at hleads ⊢
  split at hleads
  · exact hleads
  · exact hleads
  · exact ⟨hleads.1, h.isSome_get? hleads.2.1, hleads.2.2⟩
  · exact hleads

theorem follow
    {location last : List String}
    {pieces : List (List Char)}
    (h : Keeps changed before after)
    (hfollow : before.follow location pieces = .ok last) :
    after.follow location pieces = .ok last := by
  induction pieces generalizing location with
  | nil =>
      exact hfollow
  | cons piece pieces ih =>
      rw [follow_cons_eq_ok] at hfollow ⊢
      obtain ⟨next, hstep, hrest⟩ := hfollow
      exact ⟨next, h.step hstep, ih hrest⟩

theorem start_eq
    (h : Keeps changed before after)
    (path : String) :
    after.start path = before.start path := by
  unfold start
  rw [h.workingDir]

/-- A path leads where it led. -/
theorem locate
    {path : String}
    {location : List String}
    (h : Keeps changed before after)
    (hlocate : before.locate path = .ok location) :
    after.locate path = .ok location := by
  obtain ⟨origin, horigin, hfollow⟩ := Failure.bind_eq_ok.mp hlocate
  refine Failure.bind_eq_ok.mpr ⟨origin, ?_, h.follow hfollow⟩
  rw [h.start_eq, horigin]

end Keeps

/-! ### Something new in a directory -/

theorem get?_put_cases
    (ws : Workspace)
    (new : FileTree)
    {directory other : List String}
    {name : String}
    (hne : other ≠ directory ++ [name])
    (hdirectory : ws.HoldsDirectory directory)
    (hfree : ¬ ws.HoldsDirectory (directory ++ [name]))
    (hnew : ∀ rest, rest ≠ [] → new.get? rest = none) :
    (∃ entries others,
      (ws.root.put (directory ++ [name]) new).get? other = some (.directory entries) ∧
      ws.root.get? other = some (.directory others)) ∨
    (ws.root.put (directory ++ [name]) new).get? other = ws.root.get? other := by
  by_cases habove : other <+: directory ++ [name]
  · rcases List.prefix_concat_iff.mp habove with heq | ⟨rest, hrest⟩
    · exact absurd heq hne
    · subst hrest
      obtain ⟨others, hothers⟩ := hdirectory.above
      have hput := FileTree.get?_put_above ws.root new other (by simp : rest ++ [name] ≠ [])
      obtain ⟨entries, hentries⟩ := hput
      rw [← List.append_assoc] at hentries
      exact .inl ⟨entries, others, hentries, hothers⟩
  · by_cases hbelow : directory ++ [name] <+: other
    · obtain ⟨rest, rfl⟩ := hbelow
      have hrest : rest ≠ [] := by
        rintro rfl
        simp at hne
      right
      rw [FileTree.get?_put_below, hnew rest hrest, get?_below_of_not_holdsDirectory hfree hrest]
    · exact .inr (FileTree.get?_put_aside ws.root new habove hbelow)

/-- Something new in a directory, or in the place of a file, leaves the rest as it is. -/
theorem keeps_put
    {changed : List String → Prop}
    {ws : Workspace}
    {new : FileTree}
    {directory : List String}
    {name : String}
    (hdirectory : ws.HoldsDirectory directory)
    (hfree : ¬ ws.HoldsDirectory (directory ++ [name]))
    (hnew : ∀ rest, rest ≠ [] → new.get? rest = none)
    (hfile : ∀ content, ws.HoldsFile (directory ++ [name]) content → ∃ other, new = .file other)
    (hcontent : ¬ changed (directory ++ [name]) →
      ∀ content, new = .file content ↔ ws.HoldsFile (directory ++ [name]) content) :
    Keeps changed ws { ws with root := ws.root.put (directory ++ [name]) new } where
  workingDir := rfl
  directory other hother := by
    by_cases hne : other = directory ++ [name]
    · exact absurd (hne ▸ hother) hfree
    · rcases get?_put_cases ws new hne hdirectory hfree hnew with
        ⟨entries, -, hentries, -⟩ | hsame
      · exact ⟨entries, hentries⟩
      · obtain ⟨entries, hentries⟩ := hother
        exact ⟨entries, hsame.trans hentries⟩
  file other content hother := by
    by_cases hne : other = directory ++ [name]
    · subst hne
      obtain ⟨written, rfl⟩ := hfile content hother
      exact ⟨written, FileTree.get?_put_self _ _ _⟩
    · rcases get?_put_cases ws new hne hdirectory hfree hnew with
        ⟨-, others, -, hothers⟩ | hsame
      · rw [HoldsFile, hothers] at hother
        cases hother
      · exact ⟨content, hsame.trans hother⟩
  content other hother content := by
    by_cases hne : other = directory ++ [name]
    · subst hne
      rw [← hcontent hother content, HoldsFile, FileTree.get?_put_self, Option.some.injEq]
    · rcases get?_put_cases ws new hne hdirectory hfree hnew with
        ⟨entries, others, hentries, hothers⟩ | hsame
      · simp [HoldsFile, hentries, hothers]
      · rw [HoldsFile, HoldsFile, hsame]

theorem get?_file_below
    (content : Content)
    {rest : List String}
    (hne : rest ≠ []) :
    (FileTree.file content).get? rest = none := by
  obtain ⟨name, rest, rfl⟩ := List.exists_cons_of_ne_nil hne
  exact FileTree.get?_cons_file content name rest

theorem get?_empty_below
    {rest : List String}
    (hne : rest ≠ []) :
    FileTree.empty.get? rest = none := by
  obtain ⟨name, rest, rfl⟩ := List.exists_cons_of_ne_nil hne
  exact FileTree.get?_cons_directory [] name rest

/-- The directory of a target is there, and its last piece that is not empty is the name. -/
theorem target_eq_ok
    {ws : Workspace}
    {path : String}
    {target : Target}
    (h : ws.target path = .ok (some target)) :
    ws.HoldsDirectory target.directory ∧
    target.name ≠ [] ∧
    (target.slash = false →
      ∃ origin front,
        ws.start path = .ok origin ∧
        Path.pieces path = front ++ [target.name] ∧
        ws.follow origin front = .ok target.directory) := by
  obtain ⟨origin, horigin, h⟩ := Failure.bind_eq_ok.mp h
  dsimp only at h
  split at h
  · cases h
  · next name before hdrop =>
      obtain ⟨directory, hdirectory, h⟩ := Failure.bind_eq_ok.mp h
      obtain ⟨entries, hentries, h⟩ := Failure.bind_eq_ok.mp h
      cases h
      have hname : name ≠ [] := by
        have hhead := List.head?_dropWhile_not List.isEmpty (Path.pieces path).reverse
        rw [hdrop] at hhead
        simpa using hhead
      refine ⟨⟨entries, entriesAt_eq_ok.mp hentries⟩, hname, ?_⟩
      intro hslash
      refine ⟨origin, before.reverse, horigin, ?_, hdirectory⟩
      cases hpieces : (Path.pieces path).reverse with
      | nil =>
          rw [hpieces] at hdrop
          cases hdrop
      | cons last rest =>
          rw [hpieces] at hdrop hslash
          have hlast : last.isEmpty = false := by
            simpa using hslash
          rw [List.dropWhile_cons_of_neg (by simp [hlast])] at hdrop
          obtain ⟨rfl, rfl⟩ := List.cons.inj hdrop
          rw [← List.reverse_cons, ← hpieces, List.reverse_reverse]

theorem place_eq_ok
    {ws : Workspace}
    {target : Target}
    {location : List String}
    {found : Option FileTree}
    (h : ws.place target = .ok (location, found)) :
    Text.utf8Length target.name ≤ nameLimit ∧
    location = target.directory ++ [String.ofList target.name] ∧
    found = ws.root.get? location := by
  unfold place at h
  split_ifs at h with hlimit
  cases h
  exact ⟨Nat.le_of_not_lt hlimit, rfl, rfl⟩

/-- The location of a target. -/
def Target.location (target : Target) : List String :=
  target.directory ++ [String.ofList target.name]

theorem addDirectory_eq_ok
    {ws after : Workspace}
    {path : String}
    (h : ws.addDirectory path = .ok after) :
    ∃ target,
      ws.target path = .ok (some target) ∧
      ws.root.get? target.location = none ∧
      after = { ws with root := ws.root.put target.location .empty } := by
  obtain ⟨target?, htarget, h⟩ := Failure.bind_eq_ok.mp h
  cases target? with
  | none =>
      cases h
  | some target =>
      dsimp only at h
      split_ifs at h
      obtain ⟨⟨location, found⟩, hplace, h⟩ := Failure.bind_eq_ok.mp h
      obtain ⟨-, rfl, hfound⟩ := place_eq_ok hplace
      cases found with
      | some tree =>
          cases h
      | none =>
          exact ⟨target, htarget, hfound.symm, (Except.ok.inj h).symm⟩

theorem addText_eq_ok
    {ws after : Workspace}
    {path text : String}
    (h : ws.addText path text = .ok after) :
    ∃ target,
      ws.target path = .ok (some target) ∧
      target.slash = false ∧
      isDots target.name = false ∧
      Text.utf8Length target.name ≤ nameLimit ∧
      ¬ ws.HoldsDirectory target.location ∧
      after = { ws with root := ws.root.put target.location (.file (.text text)) } := by
  obtain ⟨target?, htarget, h⟩ := Failure.bind_eq_ok.mp h
  cases target? with
  | none =>
      cases h
  | some target =>
      dsimp only at h
      split_ifs at h with hdots
      rw [Bool.not_eq_true, Bool.or_eq_false_iff] at hdots
      obtain ⟨⟨location, found⟩, hplace, h⟩ := Failure.bind_eq_ok.mp h
      obtain ⟨hlimit, rfl, hfound⟩ := place_eq_ok hplace
      refine ⟨target, htarget, hdots.1, hdots.2, hlimit, ?_, ?_⟩
      · rintro ⟨entries, hentries⟩
        rw [Target.location, ← hfound] at hentries
        subst hentries
        cases h
      · split at h
        · cases h
        · next heq =>
            cases heq
            exact (Except.ok.inj h).symm

theorem keeps_addDirectory
    {ws after : Workspace}
    {path : String}
    (h : ws.addDirectory path = .ok after) :
    Keeps (fun _ => False) ws after := by
  obtain ⟨target, htarget, hnone, rfl⟩ := addDirectory_eq_ok h
  obtain ⟨hdirectory, -, -⟩ := target_eq_ok htarget
  have hnoFile : ∀ content, ¬ ws.HoldsFile target.location content := by
    intro content hfile
    rw [HoldsFile, hnone] at hfile
    cases hfile
  refine keeps_put hdirectory ?_ (fun rest hne => get?_empty_below hne) ?_ ?_
  · rintro ⟨entries, hentries⟩
    have hsome := hnone.symm.trans hentries
    cases hsome
  · intro content hfile
    exact absurd hfile (hnoFile content)
  · intro _ content
    constructor
    · intro hempty
      cases hempty
    · intro hfile
      exact absurd hfile (hnoFile content)

theorem ofPiece?_of_not_isDots
    {piece : List Char}
    (hne : piece ≠ [])
    (hdots : isDots piece = false) :
    Component.ofPiece? piece = some (.name (String.ofList piece)) := by
  unfold Component.ofPiece?
  split
  · exact absurd rfl hne
  · cases hdots
  · cases hdots
  · rfl

/-- A file that was written is where its path leads, and nothing else is changed. -/
theorem addText_written
    {ws after : Workspace}
    {path text : String}
    (h : ws.addText path text = .ok after) :
    ∃ location,
      after.locate path = .ok location ∧
      after.HoldsFile location (.text text) ∧
      Keeps (· = location) ws after := by
  obtain ⟨target, htarget, hslash, hdots, hlimit, hfree, hafter⟩ := addText_eq_ok h
  obtain ⟨hdirectory, hname, hpieces⟩ := target_eq_ok htarget
  obtain ⟨origin, front, horigin, hpieces, hfollow⟩ := hpieces hslash
  have hholds : after.HoldsFile target.location (.text text) := by
    rw [hafter]
    exact FileTree.get?_put_self _ _ _
  have hkeeps : Keeps (· = target.location) ws after := by
    rw [hafter]
    refine keeps_put hdirectory hfree (fun rest hne => get?_file_below _ hne) ?_ ?_
    · intro content _
      exact ⟨.text text, rfl⟩
    · intro hne
      exact absurd rfl hne
  refine ⟨target.location, ?_, hholds, hkeeps⟩
  refine Failure.bind_eq_ok.mpr ⟨origin, ?_, ?_⟩
  · rw [hkeeps.start_eq, horigin]
  · rw [hpieces, follow_append_eq_ok]
    refine ⟨target.directory, hkeeps.follow hfollow, ?_⟩
    rw [follow_cons_eq_ok]
    refine ⟨target.location, step_eq_ok.mpr ⟨hkeeps.directory _ hdirectory, ?_⟩, follow_nil _ _⟩
    rw [LeadsTo, ofPiece?_of_not_isDots hname hdots]
    refine ⟨hlimit, ?_, rfl⟩
    rw [HoldsFile, Target.location] at hholds
    rw [hholds]
    rfl

end Workspace
end SuiteShift
