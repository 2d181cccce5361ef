import SuiteShift.Output.TestFile
import SuiteShift.Proofs.Path.Components
import SuiteShift.Proofs.Text.Search

/-!
# Where generated files lie

For a source file with ordinary names below its directory, `LiesBelow`:

- `outputPath_eq`, `isName_of_mem_outputPath`: the output path is made of ordinary names, and its
  last one is that of a generated test.
- `resolve?_importSpecifier`: what a generated file refers to is found from the directory of that
  file, below the directory of all.
- `support_specifier_resolved`: the same for the support files, which tests refer to by a path that
  is relative as written.
-/

namespace SuiteShift
namespace Output

open SuiteShift.Path (Component IsOrdinary)

/-! ### Names of generated tests -/

theorem stripEnd_eq_some
    {ending cs rest : List Char}
    (h : Text.stripEnd ending cs = some rest) :
    cs = rest ++ ending := by
  rw [Text.stripEnd, Option.map_eq_some_iff] at h
  obtain ⟨reversed, hreversed, rfl⟩ := h
  rw [Text.stripStart_eq_some_iff] at hreversed
  have hcs := congrArg List.reverse hreversed
  simpa using hcs

theorem mem_of_mem_stripMark
    {stem : List Char}
    {c : Char}
    (h : c ∈ stripMark stem) :
    c ∈ stem := by
  unfold stripMark at h
  cases hfind : specMarks.findSome? fun mark => Text.stripEnd mark.toList stem with
  | none =>
      rw [hfind] at h
      exact h
  | some rest =>
      rw [hfind] at h
      obtain ⟨mark, -, hmark⟩ := List.exists_of_findSome?_eq_some hfind
      rw [stripEnd_eq_some hmark]
      exact List.mem_append_left _ h

theorem mem_of_splitLastDot?
    {name stem extension : List Char}
    {c : Char}
    (hsplit : Path.splitLastDot? name = some (stem, extension))
    (h : c ∈ stem) :
    c ∈ name := by
  unfold Path.splitLastDot? at hsplit
  split at hsplit
  · next dot before hdrop =>
      simp only [Option.some.injEq, Prod.mk.injEq] at hsplit
      obtain ⟨rfl, -⟩ := hsplit
      rw [List.mem_reverse] at h
      have hmem : c ∈ name.reverse.dropWhile (· != '.') := by
        rw [hdrop]
        exact List.mem_cons_of_mem _ h
      exact List.mem_reverse.mp ((List.dropWhile_sublist _).mem hmem)
  · cases hsplit

theorem mem_of_mem_specStem
    {name : List Char}
    {c : Char}
    (h : c ∈ specStem name) :
    c ∈ name := by
  unfold specStem at h
  split at h
  · next stem extension hsplit =>
      exact mem_of_splitLastDot? hsplit (mem_of_mem_stripMark h)
  · exact mem_of_mem_stripMark h

theorem toList_specName
    (name : String) :
    (specName name).toList = specStem name.toList ++ ".spec.ts".toList := by
  rw [specName, String.toList_append, String.toList_ofList]

theorem isOrdinary_specName
    {name : String}
    (h : '/' ∉ name.toList) :
    IsOrdinary (specName name) := by
  have hlength : 8 ≤ (specName name).toList.length := by
    rw [toList_specName, List.length_append]
    exact Nat.le_add_left _ _
  refine ⟨?_, ?_, ?_, ?_⟩
  · intro heq
    rw [heq] at hlength
    exact absurd hlength (by decide)
  · intro heq
    rw [heq] at hlength
    exact absurd hlength (by decide)
  · intro heq
    rw [heq] at hlength
    exact absurd hlength (by decide)
  · rw [toList_specName, List.mem_append]
    rintro (hmem | hmem)
    · exact h (mem_of_mem_specStem hmem)
    · exact absurd hmem (by decide)

/-! ### Output paths -/

theorem dropSpecRoot_suffix
    (relative : List Component) :
    dropSpecRoot relative <:+ relative := by
  unfold dropSpecRoot
  split
  · split_ifs
    · exact List.suffix_cons _ _
    · exact List.suffix_rfl
  · exact List.suffix_rfl

/-- The file name of a path below a directory. -/
def sourceName (relative : List Component) : String :=
  (Path.fileName? relative).getD ""

/-- The directory of the tests of a source file. -/
def outputDirectory (relative : List Component) : List Component :=
  (dropSpecRoot relative).dropLast

/-- A path of names has no file name only when it is empty. -/
theorem outputPath_eq
    {relative : List Component}
    (h : ∀ c ∈ relative, c.IsName) :
    outputPath relative =
      outputDirectory relative ++ [.name (specName (sourceName relative))] := by
  unfold outputPath outputDirectory sourceName
  dsimp only
  cases hname : Path.fileName? relative with
  | some name =>
      rfl
  | none =>
      have hnil : relative = [] := by
        rcases List.eq_nil_or_concat relative with hnil | ⟨front, last, rfl⟩
        · exact hnil
        · obtain ⟨text, rfl, -⟩ := (h last (by simp)).exists_text
          rw [Path.fileName?, List.concat_eq_append, List.getLast?_concat] at hname
          cases hname
      rw [hnil]
      rfl

theorem not_mem_sourceName
    {relative : List Component}
    (h : ∀ c ∈ relative, c.IsName) :
    '/' ∉ (sourceName relative).toList := by
  unfold sourceName Path.fileName?
  cases hlast : relative.getLast? with
  | none =>
      simp
  | some last =>
      obtain ⟨text, rfl, hordinary⟩ := (h last (List.mem_of_getLast? hlast)).exists_text
      exact hordinary.2.2.2

theorem isName_of_mem_outputDirectory
    {relative : List Component}
    (h : ∀ c ∈ relative, c.IsName) :
    ∀ c ∈ outputDirectory relative, c.IsName := by
  intro c hc
  exact h c ((dropSpecRoot_suffix relative).subset ((List.dropLast_sublist _).mem hc))

theorem isName_of_mem_outputPath
    {relative : List Component}
    (h : ∀ c ∈ relative, c.IsName) :
    ∀ c ∈ outputPath relative, c.IsName := by
  intro c hc
  rw [outputPath_eq h, List.mem_append, List.mem_singleton] at hc
  rcases hc with hc | rfl
  · exact isName_of_mem_outputDirectory h c hc
  · exact isOrdinary_specName (not_mem_sourceName h)

/-- The output path is read back from the text of it. -/
theorem components_joined_outputPath
    {relative : List Component}
    (h : ∀ c ∈ relative, c.IsName) :
    Path.components (Path.joined (outputPath relative)) = outputPath relative := by
  refine Path.components_joined ?_ ?_
  · rw [outputPath_eq h]
    simp
  · intro c hc
    exact (isName_of_mem_outputPath h c hc).isStep

/-! ### Source files below a directory -/

/-- A file below a directory, all names on the way. -/
def LiesBelow (directory path : String) : Prop :=
  ∃ relative,
    Path.stripBase? (Path.components directory) (Path.components path) = some relative ∧
    ∀ c ∈ relative, ∃ text, c = .name text

theorem append_of_stripBase?
    {base path rest : List Component}
    (h : Path.stripBase? base path = some rest) :
    path = base ++ rest := by
  induction base generalizing path with
  | nil =>
      simpa [Path.stripBase?] using h
  | cons b base ih =>
      cases path with
      | nil =>
          simp [Path.stripBase?] at h
      | cons c path =>
          rw [Path.stripBase?] at h
          split_ifs at h with heq
          rw [ih h, heq, List.cons_append]

theorem LiesBelow.isName
    {directory path : String}
    (h : LiesBelow directory path) :
    ∀ c ∈ Path.componentsBelow directory path, c.IsName := by
  obtain ⟨relative, hrelative, hnames⟩ := h
  intro c hc
  rw [Path.componentsBelow, hrelative, Option.getD_some] at hc
  obtain ⟨text, rfl⟩ := hnames c hc
  have hmem : .name text ∈ Path.components path := by
    rw [append_of_stripBase? hrelative]
    exact List.mem_append_right _ hc
  exact Path.isOrdinary_of_mem_components hmem

/-! ### References between generated files -/

theorem importSpecifier_eq
    {output target : List Component}
    (houtput : ∀ c ∈ output, c.IsName)
    (htarget : ∀ c ∈ target, c.IsName) :
    ∃ steps,
      (∀ c ∈ steps, c = .up ∨ c ∈ target) ∧
      Path.resolve? output.dropLast steps = some target ∧
      (importSpecifier output target = Path.joined steps ∧
          (Path.joined steps).startsWith ".." = true ∨
        importSpecifier output target = "./" ++ Path.joined steps) := by
  have hdirectory : ∀ c ∈ output.dropLast, c.IsName := by
    intro c hc
    exact houtput c ((List.dropLast_sublist _).mem hc)
  obtain ⟨steps, hsteps, hkind, hplace⟩ := Path.exists_relative? hdirectory htarget
  have hstep : ∀ c ∈ steps, c.IsStep := by
    intro c hc
    rcases hkind c hc with rfl | hc
    · exact trivial
    · exact (htarget c hc).isStep
  refine ⟨steps, hkind, hplace, ?_⟩
  unfold importSpecifier
  dsimp only
  rw [hsteps, Option.getD_some, Path.dropInnerDots_of_steps hstep]
  split_ifs with hup
  · exact .inl ⟨rfl, hup⟩
  · exact .inr rfl

/-- The components of a reference are a dot and steps, or only steps; they lead to the file that is
referred to. -/
theorem components_importSpecifier
    {output target : List Component}
    (houtput : ∀ c ∈ output, c.IsName)
    (htarget : ∀ c ∈ target, c.IsName) :
    ∃ steps,
      (∀ c ∈ steps, c = .up ∨ c ∈ target) ∧
      Path.resolve? output.dropLast steps = some target ∧
      (Path.components (importSpecifier output target) = steps ∧
          (Path.joined steps).startsWith ".." = true ∨
        Path.components (importSpecifier output target) = .here :: steps) := by
  obtain ⟨steps, hkind, hplace, hspecifier⟩ := importSpecifier_eq houtput htarget
  have hstep : ∀ c ∈ steps, c.IsStep := by
    intro c hc
    rcases hkind c hc with rfl | hc
    · exact trivial
    · exact (htarget c hc).isStep
  refine ⟨steps, hkind, hplace, ?_⟩
  rcases hspecifier with ⟨hspecifier, hup⟩ | hspecifier
  · have hne : steps ≠ [] := by
      rintro rfl
      exact absurd hup (by decide)
    rw [hspecifier]
    exact .inl ⟨Path.components_joined hne hstep, hup⟩
  · rw [hspecifier]
    exact .inr (Path.components_here_joined hstep)

/-- A file that is referred to is found from the directory of the file that refers to it, and the way
there does not leave the generated project. -/
theorem resolve?_importSpecifier
    {output target : List Component}
    (houtput : ∀ c ∈ output, c.IsName)
    (htarget : ∀ c ∈ target, c.IsName) :
    Path.resolve? output.dropLast (Path.components (importSpecifier output target)) =
      some target := by
  obtain ⟨steps, -, hplace, hspecifier⟩ := components_importSpecifier houtput htarget
  rcases hspecifier with ⟨hspecifier, -⟩ | hspecifier
  · rw [hspecifier, hplace]
  · rw [hspecifier, Path.resolve?_cons]
    exact hplace

theorem resolve_importSpecifier
    {output target : List Component}
    (houtput : ∀ c ∈ output, c.IsName)
    (htarget : ∀ c ∈ target, c.IsName) :
    Path.resolve output.dropLast (Path.components (importSpecifier output target)) = target := by
  exact Path.resolve_of_resolve? (resolve?_importSpecifier houtput htarget)

/-! ### References to the support files -/

/-- The support files as tests refer to them, without their extensions. -/
def supportTargets : List (List Component) :=
  [[.name "support", .name "helpers"], [.name "support", .name "custom-commands"]]

theorem components_helpersFile :
    Path.components (dropExtension helpersFile) = [.name "support", .name "helpers"] := by
  rfl

theorem components_pageObjectFile :
    Path.components (dropExtension pageObjectFile) =
      [.name "support", .name "custom-commands"] := by
  rfl

/-- The names on the way to a support file do not begin with a dot. -/
theorem names_of_mem_supportTargets :
    ∀ target ∈ supportTargets, ∀ c ∈ target,
      c.IsName ∧ c.text.toList.head?.any (· != '.') = true := by
  decide

/-- The text of steps begins with that of the first one. -/
theorem startsWith_text_of_joined
    {c : Component}
    {steps : List Component}
    (h : (Path.joined (c :: steps)).startsWith ".." = true) :
    c.text.toList.head?.all (· == '.') = true := by
  rw [String.startsWith_string_iff, Path.toList_joined, List.map_cons] at h
  obtain ⟨tail, htail⟩ := h
  have hhead := congrArg List.head? htail
  cases htext : c.text.toList with
  | nil =>
      rfl
  | cons d more =>
      rw [htext] at hhead
      have hd : some '.' = some d := by
        cases steps <;> exact hhead
      rw [← Option.some.inj hd]
      rfl

/-- A reference to a support file goes up or stays, and leads to that file from the directory of the
file that refers to it, without leaving the generated project on the way. -/
theorem support_specifier_resolved
    {output target : List Component}
    (houtput : ∀ c ∈ output, c.IsName)
    (htarget : target ∈ supportTargets) :
    supportTargets =
      [helpersFile, pageObjectFile].map (fun file => Path.components (dropExtension file)) ∧
    ((importSpecifier output target).startsWith "./" = true ∨
      (importSpecifier output target).startsWith ".." = true) ∧
    ((Path.components (importSpecifier output target)).head? = some .here ∨
      (Path.components (importSpecifier output target)).head? = some .up) ∧
    Path.resolve? output.dropLast (Path.components (importSpecifier output target)) =
      some target := by
  have hnames : ∀ c ∈ target, c.IsName := by
    intro c hc
    exact (names_of_mem_supportTargets target htarget c hc).1
  refine ⟨rfl, ?_, ?_, resolve?_importSpecifier houtput hnames⟩
  · obtain ⟨steps, -, -, hspecifier⟩ := importSpecifier_eq houtput hnames
    rcases hspecifier with ⟨hspecifier, hup⟩ | hspecifier
    · rw [hspecifier]
      exact .inr hup
    · rw [hspecifier, String.startsWith_string_iff, String.toList_append]
      exact .inl (List.prefix_append _ _)
  · obtain ⟨steps, hkind, -, hspecifier⟩ := components_importSpecifier houtput hnames
    rcases hspecifier with ⟨hspecifier, hup⟩ | hspecifier
    · rw [hspecifier]
      cases steps with
      | nil =>
          exact absurd hup (by decide)
      | cons c steps =>
          -- A name that begins with a dot could be taken for a step up, but there is none.
          rcases hkind c List.mem_cons_self with rfl | hc
          · exact .inr rfl
          · have hdot := startsWith_text_of_joined hup
            obtain ⟨-, hplain⟩ := names_of_mem_supportTargets target htarget c hc
            rw [Option.any_eq_true] at hplain
            obtain ⟨d, hhead, hd⟩ := hplain
            rw [hhead, Option.all_some, beq_iff_eq] at hdot
            exact absurd hdot (bne_iff_ne.mp hd)
    · rw [hspecifier]
      exact .inl rfl

/-- From a directory below that of the support files, the reference goes up once and never names the
shared directory. -/
theorem support_specifier_resolved_nested :
    (∀ c ∈ [Component.name "support", .name "e2e", .name "login.spec.ts"], c.IsName) ∧
    [Component.name "support", .name "custom-commands"] ∈ supportTargets ∧
    importSpecifier [.name "support", .name "e2e", .name "login.spec.ts"]
      [.name "support", .name "custom-commands"] = "../custom-commands" ∧
    Path.resolve? [.name "support", .name "e2e"] (Path.components "../custom-commands") =
      some [.name "support", .name "custom-commands"] := by
  have houtput :
      ∀ c ∈ [Component.name "support", .name "e2e", .name "login.spec.ts"], c.IsName := by
    decide
  have htarget : [Component.name "support", .name "custom-commands"] ∈ supportTargets := by
    decide
  have htext :
      importSpecifier [.name "support", .name "e2e", .name "login.spec.ts"]
        [.name "support", .name "custom-commands"] = "../custom-commands" := by
    decide +kernel
  obtain ⟨-, -, -, hplace⟩ := support_specifier_resolved houtput htarget
  rw [htext] at hplace
  exact ⟨houtput, htarget, htext, hplace⟩

end Output
end SuiteShift
