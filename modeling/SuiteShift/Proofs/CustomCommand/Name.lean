import SuiteShift.CustomCommand.Basic
import SuiteShift.Proofs.Failure

/-!
# The name of a custom command

Whichever way a definition is classified, the command keeps its name.

- `name_pattern`: a pattern names its command as it is told to.
- `name_classifyDefinition`: a classified definition has the name of the definition.
-/

namespace SuiteShift

namespace Classification

variable (c : Classification)

@[simp] theorem name_note
    (text : String) :
    (c.note text).name = c.name := by
  rfl

@[simp] theorem name_warn
    (text : String) :
    (c.warn text).name = c.name := by
  rfl

@[simp] theorem name_require
    (line : String) :
    (c.require line).name = c.name := by
  unfold require
  split_ifs
  · rfl
  · rfl

@[simp] theorem name_foldl_require
    (lines : List String) :
    (lines.foldl require c).name = c.name := by
  induction lines generalizing c with
  | nil =>
      rfl
  | cons line lines ih =>
      rw [List.foldl_cons, ih, name_require]

@[simp] theorem name_checkIdentifier :
    c.checkIdentifier.name = c.name := by
  unfold checkIdentifier
  dsimp only
  split_ifs
  · rfl
  · rfl

end Classification

namespace CustomCommand

@[simp] theorem name_stub
    (name : String)
    (args : List String)
    (body : Option String) :
    (stub name args body).name = name := by
  simp [stub]

/-- A pattern names its command as it is told to. -/
theorem name_pattern
    {name : String}
    {apply : String → List String → Classification}
    (h : pattern? name = some apply)
    (command : String)
    (args : List String) :
    (apply command args).name = command := by
  have hall : ∀ entry ∈ patterns, (entry.2 command args).name = command := by
    simp only [patterns, List.forall_mem_cons, List.not_mem_nil, false_implies, implies_true,
      and_true]
    have hlogin : (login command args).name = command := by
      exact (Classification.name_note _ _).trans (Classification.name_require _ _)
    have hselect : (selectDropdown command args).name = command := by
      unfold selectDropdown
      split <;> rfl
    have hupload : (uploadFile command args).name = command := by
      unfold uploadFile
      split <;> rfl
    have hthen : (thenCallback command args).name = command := by
      unfold thenCallback
      split <;> rfl
    have hnavigate : (navigate command args).name = command := by
      unfold navigate
      split_ifs <;> rfl
    exact ⟨hlogin, hselect, hupload, hthen, rfl, rfl, rfl, hnavigate, hnavigate⟩
  obtain ⟨before, after, hsplit, -⟩ := List.lookup_eq_some_iff.mp h
  exact hall (name, apply) (by simp [hsplit])

@[simp] theorem name_shapeBody
    (definition : Definition)
    (branching : Bool)
    (body : Lowered) :
    (shapeBody definition branching body).name = definition.name := by
  unfold shapeBody
  dsimp only
  rw [Classification.name_foldl_require]
  split_ifs
  · rfl
  · rfl
  · rfl

@[simp] theorem name_classifyByName
    (definition : Definition) :
    (classifyByName definition).name = definition.name := by
  unfold classifyByName
  split
  · next apply hpattern =>
      rw [Classification.name_note, name_pattern hpattern]
  · rw [name_stub]

theorem name_lowerDefinition
    {definition : Definition}
    {c : Classification}
    (h : lowerDefinition definition = .ok (some c)) :
    c.name = definition.name := by
  unfold lowerDefinition at h
  split at h
  · rw [Except.ok.injEq, Option.map_eq_some_iff] at h
    obtain ⟨body, -, rfl⟩ := h
    rw [name_shapeBody]
  · cases h
  · cases h

/-- A classified definition has the name of the definition. -/
theorem name_classifyDefinition
    {definition : Definition}
    {c : Classification}
    (h : classifyDefinition definition = .ok c) :
    c.name = definition.name := by
  unfold classifyDefinition at h
  dsimp only at h
  split_ifs at h
  · cases h
    simp
  · obtain ⟨lowered, hlowered, h⟩ := Failure.bind_eq_ok.mp h
    cases lowered with
    | none =>
        cases h
        simp
    | some shaped =>
        cases h
        rw [Classification.name_checkIdentifier, name_lowerDefinition hlowered]

/-- Classified definitions have the names of the definitions. -/
theorem names_of_classifyDefinitions
    {definitions : List Definition}
    {defined : List Classification}
    (h : definitions.mapM classifyDefinition = .ok defined) :
    defined.map (·.name) = definitions.map (·.name) := by
  have hall := Failure.forall₂_of_mapM h
  clear h
  induction hall with
  | nil =>
      rfl
  | cons hclassified _ ih =>
      rw [List.map_cons, List.map_cons, ih, name_classifyDefinition hclassified]

end CustomCommand
end SuiteShift
