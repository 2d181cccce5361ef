import SuiteShift.Proofs.Conversion.Discovery
import SuiteShift.Proofs.Conversion.Validation
import SuiteShift.Proofs.Spec.Accounting

/-!
# Names that are registered twice

A custom command is added, or it is overwritten when it is there already. The reader keeps no
difference between the two, and validation counts both.

- `asRegistration?`: what a statement registers, and with which function.
- `names_of_loadProject`: the names in a project are those of all registrations in its sources.
- `repeated_name_refused_iff`: a project is refused for a name exactly if the name is registered
  twice, with whichever function. So it is refused for two additions only, as it should, exactly if
  no overwritten name is registered elsewhere, or two additions share a name.
-/

namespace SuiteShift

namespace Spec

open Script (Tree)

/-- The function with which a call registers a custom command. -/
def registrarOf? (call : Tree) : Option Registrar :=
  (callee? call).bind fun callee =>
    [Registrar.add, .overwrite].find? fun registrar => callee == registrar.callee

/-- What a statement registers: with which function, and under which literal name. -/
def asRegistration? (statement : Tree) : Option (Registrar × String) :=
  (callOf? statement).bind fun call =>
    (registrarOf? call).bind fun registrar =>
      if (callbackOf? call).isSome then
        (titleOf call).asString?.map fun name => (registrar, name)
      else none

theorem isSome_registrarOf?
    (call : Tree) :
    (registrarOf? call).isSome = isCallOf registrationNames call := by
  unfold registrarOf? isCallOf
  cases callee? call with
  | none =>
      rfl
  | some callee =>
      rw [Option.bind_some, Option.any_some, List.isSome_find?, Bool.eq_iff_iff]
      simp [registrationNames, Registrar.callee]

/-- A definition has the name of a registration. -/
theorem map_name_asDefinition?
    (file : String)
    (statement : Tree) :
    (asDefinition? file statement).map Prod.fst = (asRegistration? statement).map Prod.snd := by
  unfold asDefinition? asRegistration?
  cases callOf? statement with
  | none =>
      rfl
  | some call =>
      rw [Option.filter_some, Option.bind_some, ← isSome_registrarOf?]
      cases registrarOf? call with
      | none =>
          rfl
      | some registrar =>
          rw [Option.isSome_some, if_pos rfl, Option.bind_some, Option.bind_some]
          split_ifs
          · rw [Option.map_map, Option.map_map]
            rfl
          · rfl

theorem names_of_readBlock
    {file : String}
    {tree : Tree}
    {reading : Reading}
    (h : readBlock file tree = some reading) :
    reading.definitions.map (·.name) =
      ((statements tree).filterMap asRegistration?).map Prod.snd := by
  have hdefinitions := eq_filterMap_of_readBlock additive_definitionView h
    fun statement _ own => definitionView_ownReading
  have hnames := congrArg (List.map Prod.fst) hdefinitions
  rw [definitionView, List.map_map, List.map_filterMap] at hnames
  rw [List.map_filterMap]
  simpa only [Function.comp_def, map_name_asDefinition?] using hnames

end Spec

namespace Discovery

open Spec (Registrar asRegistration?)

/-- The registrations in a source file. -/
def registrationsIn (file : SourceFile) : List (Registrar × String) :=
  match file.content with
  | .text text =>
    ((Script.parse? text).map fun tree => (Spec.statements tree).filterMap asRegistration?).getD []
  | .binary => []

/-- The registrations in the source files of a directory, file by file. -/
def registrations (ws : Workspace) (directory : String) : List (Registrar × String) :=
  (sourceFiles ws directory).flatMap registrationsIn

theorem names_of_readSource
    {file : SourceFile}
    {spec : SpecFile}
    (h : readSource file = .ok spec) :
    spec.definitions.map (·.name) = (registrationsIn file).map Prod.snd := by
  obtain ⟨text, tree, reading, hcontent, htree, hreading, rfl⟩ := readSource_eq_ok h
  rw [registrationsIn, hcontent]
  dsimp only
  rw [htree, Option.map_some, Option.getD_some]
  exact Spec.names_of_readBlock hreading

/-- The names of a project are those of all registrations. -/
theorem names_of_loadProject
    {ws : Workspace}
    {language directory : String}
    {project : Project}
    (h : loadProject ws language directory = .ok project) :
    project.definitions.map (·.name) = (registrations ws directory).map Prod.snd := by
  obtain ⟨files, hfiles, -, -, hdefinitions⟩ := loadProject_eq_ok h
  rw [hdefinitions, registrations, List.map_flatMap, List.map_flatMap]
  have hall := Failure.forall₂_of_mapM hfiles
  clear hfiles hdefinitions h
  generalize sourceFiles ws directory = sources at hall ⊢
  induction hall with
  | nil =>
      rfl
  | cons hread _ ih =>
      obtain ⟨spec, hspec, rfl⟩ := Failure.map_eq_ok.mp hread
      rw [List.flatMap_cons, List.flatMap_cons, ih, names_of_readSource hspec]

/-- The names that are registered with a function. -/
def namesBy (registrar : Registrar) (registered : List (Registrar × String)) : List String :=
  (registered.filter fun entry => entry.1 = registrar).map Prod.snd

theorem count_names
    (registered : List (Registrar × String))
    (name : String) :
    (registered.map Prod.snd).count name =
      (namesBy .add registered).count name + (namesBy .overwrite registered).count name := by
  induction registered with
  | nil =>
      rfl
  | cons entry registered ih =>
      obtain ⟨registrar, other⟩ := entry
      cases registrar with
      | add =>
          simp only [namesBy] at ih ⊢
          simp [List.count_cons, ih]
          omega
      | overwrite =>
          simp only [namesBy] at ih ⊢
          simp [List.count_cons, ih]
          omega

/-- No name is repeated if none is added twice and every overwritten one is registered once. -/
theorem nodup_names_iff
    (registered : List (Registrar × String)) :
    (registered.map Prod.snd).Nodup ↔
      (namesBy .add registered).Nodup ∧
      ∀ name ∈ namesBy .overwrite registered, (registered.map Prod.snd).count name = 1 := by
  rw [List.nodup_iff_count_le_one, List.nodup_iff_count_le_one]
  constructor
  · intro h
    refine ⟨?_, ?_⟩
    · intro name
      have hcount := count_names registered name
      have hle := h name
      omega
    · intro name hname
      have hcount := count_names registered name
      have hpos := List.count_pos_iff.mpr hname
      have hle := h name
      omega
  · rintro ⟨hadded, honce⟩ name
    by_cases hname : name ∈ namesBy .overwrite registered
    · exact (honce name hname).le
    · rw [count_names, List.count_eq_zero_of_not_mem hname, Nat.add_zero]
      exact hadded name

/-- A project is refused for a repeated name exactly if one is registered twice, with whichever
function. That agrees with refusing two additions of one name exactly if, unless there are such two,
every overwritten name is registered once only. -/
theorem repeated_name_refused_iff
    {ws : Workspace}
    {language directory : String}
    {project : Project}
    (h : loadProject ws language directory = .ok project) :
    (Validation.check project = .ok () ↔
      project.specs ≠ [] ∧ ((registrations ws directory).map Prod.snd).Nodup) ∧
    ((∃ name first second,
        Validation.check project = .error (.duplicateCommand name first second)) ↔
      project.specs ≠ [] ∧ ¬ ((registrations ws directory).map Prod.snd).Nodup) ∧
    (project.specs ≠ [] →
      ((Validation.check project = .ok () ↔
          (namesBy .add (registrations ws directory)).Nodup) ↔
        ((namesBy .add (registrations ws directory)).Nodup →
          ∀ name ∈ namesBy .overwrite (registrations ws directory),
            ((registrations ws directory).map Prod.snd).count name = 1))) := by
  rw [Validation.check_eq_ok_iff, Validation.check_duplicate_iff, names_of_loadProject h]
  refine ⟨Iff.rfl, Iff.rfl, ?_⟩
  intro hspecs
  rw [nodup_names_iff]
  constructor
  · intro hagree hadded
    exact (hagree.mpr hadded).2.2
  · intro honce
    exact ⟨fun haccepted => haccepted.2.1, fun hadded => ⟨hspecs, hadded, honce hadded⟩⟩

/-- A workspace with a test, where a command is added and another name is overwritten. -/
def overwriteWorkspace (name : String) : Workspace :=
  { root := .directory [("c", .directory
      [("e2e", .directory [("a.cy.js", .file (.text "it('x', () => \x7b\x7d);"))]),
       ("support", .directory [("commands.js", .file (.text
          ("Cypress.Commands.add('login', () => \x7b\x7d);\n" ++
            "Cypress.Commands.overwrite('" ++ name ++ "', () => \x7b\x7d);\n")))])])]
    workingDir := [] }

theorem repeated_name_refused_iff_visit :
    ∃ project,
      loadProject (overwriteWorkspace "visit") "cypress" "c" = .ok project ∧
      registrations (overwriteWorkspace "visit") "c" =
        [(.add, "login"), (.overwrite, "visit")] ∧
      Validation.check project = .ok () := by
  obtain ⟨hspecs, hregistrations⟩ :
      (loadProject (overwriteWorkspace "visit") "cypress" "c").toOption.map
        (fun project => project.specs.length) = some 1 ∧
      registrations (overwriteWorkspace "visit") "c" =
        [(.add, "login"), (.overwrite, "visit")] := by
    decide +kernel
  obtain ⟨project, hload, hlength⟩ := Failure.exists_of_map_eq_some hspecs
  refine ⟨project, hload, hregistrations, (repeated_name_refused_iff hload).1.mpr ⟨?_, ?_⟩⟩
  · exact List.ne_nil_of_length_pos (by rw [hlength]; decide)
  · rw [hregistrations]
    decide

/-- A command that is added once and overwritten is refused. -/
theorem overwritten_command_refused :
    ∃ project,
      loadProject (overwriteWorkspace "login") "cypress" "c" = .ok project ∧
      project.specs ≠ [] ∧
      (namesBy .add (registrations (overwriteWorkspace "login") "c")).Nodup ∧
      ∃ name first second,
        Validation.check project = .error (.duplicateCommand name first second) := by
  obtain ⟨hspecs, hregistrations⟩ :
      (loadProject (overwriteWorkspace "login") "cypress" "c").toOption.map
        (fun project => project.specs.length) = some 1 ∧
      registrations (overwriteWorkspace "login") "c" =
        [(.add, "login"), (.overwrite, "login")] := by
    decide +kernel
  obtain ⟨project, hload, hlength⟩ := Failure.exists_of_map_eq_some hspecs
  have hne : project.specs ≠ [] := List.ne_nil_of_length_pos (by rw [hlength]; decide)
  refine ⟨project, hload, hne, ?_, Validation.check_duplicate_iff.mpr ⟨hne, ?_⟩⟩
  · rw [hregistrations]
    decide
  · rw [names_of_loadProject hload, hregistrations]
    decide

end Discovery
end SuiteShift
