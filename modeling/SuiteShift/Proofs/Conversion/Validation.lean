import SuiteShift.Conversion.Validation
import Mathlib.Data.List.Nodup
import Mathlib.Order.Bounds.Basic

/-!
# Accepted projects

- `firstClash?_eq_none_iff`: there is no clash exactly if no name is repeated.
- `check_eq_ok_iff`, `check_duplicate_iff`: a project is accepted if it has tests and no name is
  repeated, and if it has tests, a repeated name is the only reason to refuse it.
- `placesOf`, `repeatedPlaces`: where a name is given, and where a name was given before.
- `clash_reported_exactly`: the clash that is reported is the one at the first repeated place, and
  it names the earliest definition with that name.
-/

namespace SuiteShift
namespace Validation

theorem firstClash?_eq_none_iff
    {seen definitions : List Definition}
    (hseen : (seen.map (·.name)).Nodup) :
    firstClash? seen definitions = none ↔ ((seen ++ definitions).map (·.name)).Nodup := by
  induction definitions generalizing seen with
  | nil =>
      rw [List.append_nil]
      exact ⟨fun _ => hseen, fun _ => rfl⟩
  | cons definition definitions ih =>
      have hfind : (seen.find? fun earlier => earlier.name == definition.name) = none ↔
          definition.name ∉ seen.map (·.name) := by
        simp [List.find?_eq_none]
      have hnext : ((seen ++ [definition]).map (·.name)).Nodup ↔
          definition.name ∉ seen.map (·.name) := by
        rw [List.map_append, List.map_singleton, ← List.concat_eq_append, List.nodup_concat]
        exact and_iff_left hseen
      rw [List.append_cons, firstClash?]
      cases hclash : seen.find? fun earlier => earlier.name == definition.name with
      | none =>
          exact ih (hnext.mpr (hfind.mp hclash))
      | some earlier =>
          -- The repeated name is still there when the rest has been added.
          refine iff_of_false (by simp) ?_
          intro hnodup
          rw [List.map_append] at hnodup
          rw [hfind.mpr (hnext.mp hnodup.of_append_left)] at hclash
          cases hclash

theorem checkUnique_eq_ok_iff
    {definitions : List Definition} :
    checkUnique definitions = .ok () ↔ (definitions.map (·.name)).Nodup := by
  have hiff := @firstClash?_eq_none_iff [] definitions List.nodup_nil
  rw [List.nil_append] at hiff
  rw [← hiff, checkUnique]
  cases firstClash? [] definitions with
  | none =>
      simp
  | some clash =>
      simp

/-- A project is accepted if it has tests and no name is repeated. -/
theorem check_eq_ok_iff
    {project : Project} :
    check project = .ok () ↔
      project.specs ≠ [] ∧ (project.definitions.map (·.name)).Nodup := by
  rw [check, ← checkUnique_eq_ok_iff]
  cases project.specs with
  | nil =>
      simp
  | cons spec specs =>
      simp

/-- A project with tests is refused only for a repeated name. -/
theorem check_duplicate_iff
    {project : Project} :
    (∃ name first second, check project = .error (.duplicateCommand name first second)) ↔
      project.specs ≠ [] ∧ ¬ (project.definitions.map (·.name)).Nodup := by
  rw [check, ← checkUnique_eq_ok_iff, checkUnique]
  cases project.specs with
  | nil =>
      simp
  | cons spec specs =>
      cases firstClash? [] project.definitions with
      | none =>
          simp
      | some clash =>
          simp

/-! ### The clash that is reported -/

/-- The places of the definitions with a name. -/
def placesOf (definitions : List Definition) (name : String) : Set Nat :=
  {i | ∃ definition ∈ definitions[i]?, definition.name = name}

/-- The places of definitions whose name was given before. -/
def repeatedPlaces (definitions : List Definition) : Set Nat :=
  {j | ∃ definition ∈ definitions[j]?, ∃ i < j, i ∈ placesOf definitions definition.name}

theorem nodup_iff_repeatedPlaces
    {definitions : List Definition} :
    (definitions.map (·.name)).Nodup ↔ repeatedPlaces definitions = ∅ := by
  rw [List.Nodup, List.pairwise_map, List.pairwise_iff_getElem, Set.eq_empty_iff_forall_notMem]
  constructor
  · rintro h j ⟨second, hsecond, i, hij, first, hfirst, hname⟩
    obtain ⟨hj, rfl⟩ := List.getElem?_eq_some_iff.mp hsecond
    obtain ⟨hi, rfl⟩ := List.getElem?_eq_some_iff.mp hfirst
    exact h i j hi hj hij hname
  · intro h i j hi hj hij hname
    exact h j ⟨definitions[j], List.getElem?_eq_getElem hj, i, hij,
      definitions[i], List.getElem?_eq_getElem hi, hname⟩

/-- A clash comes after definitions of distinct names, and with the first of them that has the
name. -/
theorem exists_of_firstClash?
    {seen definitions : List Definition}
    {first second : Definition}
    (hseen : (seen.map (·.name)).Nodup)
    (h : firstClash? seen definitions = some (first, second)) :
    ∃ before after,
      seen ++ definitions = before ++ second :: after ∧
      (before.map (·.name)).Nodup ∧
      before.find? (fun earlier => earlier.name == second.name) = some first := by
  induction definitions generalizing seen with
  | nil =>
      cases h
  | cons definition definitions ih =>
      rw [firstClash?] at h
      cases hclash : seen.find? fun earlier => earlier.name == definition.name with
      | some earlier =>
          rw [hclash] at h
          cases h
          exact ⟨seen, definitions, rfl, hseen, hclash⟩
      | none =>
          rw [hclash] at h
          have hnew : definition.name ∉ seen.map (·.name) := by
            simpa [List.find?_eq_none] using hclash
          have hnext : ((seen ++ [definition]).map (·.name)).Nodup := by
            rw [List.map_append, List.map_singleton, ← List.concat_eq_append, List.nodup_concat]
            exact ⟨hnew, hseen⟩
          rw [List.append_cons]
          exact ih hnext h

/-- After distinct names, the first one that was given before is the first repeated one. -/
theorem isLeast_repeatedPlaces
    {before : List Definition}
    {second : Definition}
    (hbefore : (before.map (·.name)).Nodup)
    (hsecond : second.name ∈ before.map (·.name))
    (after : List Definition) :
    IsLeast (repeatedPlaces (before ++ second :: after)) before.length := by
  constructor
  · obtain ⟨first, hfirst, hname⟩ := List.mem_map.mp hsecond
    obtain ⟨i, hi⟩ := List.mem_iff_getElem?.mp hfirst
    have hlt : i < before.length := (List.getElem?_eq_some_iff.mp hi).1
    refine ⟨second, by simp, i, hlt, first, ?_, hname⟩
    rw [List.getElem?_append_left hlt]
    exact hi
  · rintro j ⟨other, hother, i, hij, first, hfirst, hname⟩
    by_contra hlt
    rw [Nat.not_le] at hlt
    -- A place before that would be a repeated one among the distinct names.
    have hplace : j ∈ repeatedPlaces before := by
      rw [List.getElem?_append_left hlt] at hother
      rw [List.getElem?_append_left (Nat.lt_trans hij hlt)] at hfirst
      exact ⟨other, hother, i, hij, first, hfirst, hname⟩
    rw [nodup_iff_repeatedPlaces.mp hbefore] at hplace
    exact hplace

theorem exists_isLeast_placesOf
    {before : List Definition}
    {first : Definition}
    {name : String}
    (h : before.find? (fun earlier => earlier.name == name) = some first)
    (after : List Definition) :
    ∃ i, IsLeast (placesOf (before ++ after) name) i ∧ (before ++ after)[i]? = some first := by
  obtain ⟨hname, i, hi, hfirst, hleast⟩ := List.find?_eq_some_iff_getElem.mp h
  have hplace : (before ++ after)[i]? = some first := by
    rw [List.getElem?_append_left hi, List.getElem?_eq_getElem hi, hfirst]
  refine ⟨i, ⟨⟨first, hplace, by simpa using hname⟩, ?_⟩, hplace⟩
  rintro k ⟨other, hother, hsame⟩
  by_contra hlt
  rw [Nat.not_le] at hlt
  have hk := Nat.lt_trans hlt hi
  rw [List.getElem?_append_left hk, Option.mem_def, List.getElem?_eq_getElem hk,
    Option.some.injEq] at hother
  have hno := hleast k hlt
  simp [hother, hsame] at hno

/-- What a refusal for a repeated name reports. -/
structure IsFirstClash (definitions : List Definition) (first second : Definition) : Prop where
  /-- The later definition stands at the first place where a name is repeated. -/
  later : ∃ j, IsLeast (repeatedPlaces definitions) j ∧ definitions[j]? = some second
  /-- The earlier one is the first of all with that name. -/
  earlier : ∃ i, IsLeast (placesOf definitions second.name) i ∧ definitions[i]? = some first

theorem isFirstClash_of_firstClash?
    {definitions : List Definition}
    {first second : Definition}
    (h : firstClash? [] definitions = some (first, second)) :
    IsFirstClash definitions first second := by
  obtain ⟨before, after, hsplit, hnodup, hfind⟩ :=
    @exists_of_firstClash? [] definitions first second List.nodup_nil h
  rw [List.nil_append] at hsplit
  subst hsplit
  have hmem : second.name ∈ before.map (·.name) := by
    have hname := List.find?_some hfind
    rw [beq_iff_eq] at hname
    exact List.mem_map.mpr ⟨first, List.mem_of_find?_eq_some hfind, hname⟩
  exact ⟨⟨before.length, isLeast_repeatedPlaces hnodup hmem after, by simp⟩,
    exists_isLeast_placesOf hfind (second :: after)⟩

theorem IsFirstClash.unique
    {definitions : List Definition}
    {first second first' second' : Definition}
    (h : IsFirstClash definitions first second)
    (h' : IsFirstClash definitions first' second') :
    first = first' ∧ second = second' := by
  obtain ⟨⟨j, hj, hsecond⟩, i, hi, hfirst⟩ := h
  obtain ⟨⟨j', hj', hsecond'⟩, i', hi', hfirst'⟩ := h'
  rw [hj.unique hj', hsecond', Option.some.injEq] at hsecond
  subst hsecond
  rw [hi.unique hi', hfirst', Option.some.injEq] at hfirst
  exact ⟨hfirst.symm, rfl⟩

theorem firstClash?_eq_some_iff
    {definitions : List Definition}
    {first second : Definition} :
    firstClash? [] definitions = some (first, second) ↔
      IsFirstClash definitions first second := by
  refine ⟨isFirstClash_of_firstClash?, ?_⟩
  intro h
  cases hclash : firstClash? [] definitions with
  | some clash =>
      obtain ⟨rfl, rfl⟩ := h.unique (isFirstClash_of_firstClash? hclash)
      rfl
  | none =>
      have hnodup := (@firstClash?_eq_none_iff [] definitions List.nodup_nil).mp hclash
      rw [List.nil_append, nodup_iff_repeatedPlaces] at hnodup
      obtain ⟨⟨j, hj, -⟩, -⟩ := h
      have hplace := hj.1
      rw [hnodup] at hplace
      exact hplace.elim

/-- Definitions pass if their names are pairwise distinct. Else the error is about the first clash,
and reports the file of each of the two definitions, or the empty path where nothing tells it. -/
theorem clash_reported_exactly
    (definitions : List Definition) :
    (checkUnique definitions = .ok () ↔ definitions.Pairwise fun a b => a.name ≠ b.name) ∧
    (∀ error, checkUnique definitions = .error error ↔
      ∃ first second, IsFirstClash definitions first second ∧
        error = .duplicateCommand second.name (fileOf first) (fileOf second)) ∧
    ∀ definition, fileOf definition =
      match definition.span with
      | some span => span.file
      | none => "" := by
  refine ⟨?_, ?_, ?_⟩
  · rw [checkUnique_eq_ok_iff, List.Nodup, List.pairwise_map]
  · intro error
    rw [checkUnique]
    constructor
    · intro h
      cases hclash : firstClash? [] definitions with
      | none =>
          rw [hclash] at h
          cases h
      | some clash =>
          rw [hclash] at h
          cases h
          exact ⟨clash.1, clash.2, firstClash?_eq_some_iff.mp hclash, rfl⟩
    · rintro ⟨first, second, hclash, rfl⟩
      rw [firstClash?_eq_some_iff.mpr hclash]
  · intro definition
    rw [fileOf]
    cases definition.span <;> rfl

end Validation
end SuiteShift
