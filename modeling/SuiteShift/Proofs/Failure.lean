import Mathlib.Data.List.Forall2

/-!
# Steps that may fail

- `bind_eq_ok`, `map_eq_ok`: a run of two steps has a result when both have one.
- `forall₂_of_mapM`, `exists_mapM_eq_ok`: a list of steps has a result when every step has one.
- `Yields`: what holds of every result of a step; it passes through `bind`.
- `mapM_eq_some_iff`: the same for steps without a reason to fail.
- `Succeeds`: a step has a result; `succeeds_bind_iff`, `succeeds_mapM_iff` say when a run has one.
-/

namespace SuiteShift
namespace Failure

variable {ε α β : Type}

theorem bind_eq_ok
    {step : Except ε α}
    {next : α → Except ε β}
    {value : β} :
    step >>= next = .ok value ↔
      ∃ first, step = .ok first ∧ next first = .ok value := by
  cases step with
  | error reason =>
      simp [bind, Except.bind]
  | ok first =>
      simp [bind, Except.bind]

theorem map_eq_ok
    {step : Except ε α}
    {f : α → β}
    {value : β} :
    step.map f = .ok value ↔
      ∃ first, step = .ok first ∧ f first = value := by
  cases step with
  | error reason =>
      simp [Except.map]
  | ok first =>
      simp [Except.map]

theorem exists_of_isSome
    {step : Except ε α}
    (h : step.toOption.isSome = true) :
    ∃ value, step = .ok value := by
  cases step with
  | error reason =>
      cases h
  | ok value =>
      exact ⟨value, rfl⟩

theorem exists_of_map_eq_some
    {step : Except ε α}
    {f : α → β}
    {value : β}
    (h : step.toOption.map f = some value) :
    ∃ first, step = .ok first ∧ f first = value := by
  cases step with
  | error reason =>
      cases h
  | ok first =>
      exact ⟨first, rfl, Option.some.inj h⟩

/-- Every result has the property. -/
def Yields (P : α → Prop) (step : Except ε α) : Prop :=
  ∀ value, step = .ok value → P value

theorem yields_ok
    {P : α → Prop}
    {value : α}
    (h : P value) :
    Yields P (.ok value : Except ε α) := by
  rintro _ ⟨⟩
  exact h

theorem yields_error
    {P : α → Prop}
    (reason : ε) :
    Yields P (.error reason) := by
  rintro _ ⟨⟩

theorem yields_bind
    {P : β → Prop}
    {step : Except ε α}
    {next : α → Except ε β}
    (h : ∀ value, step = .ok value → Yields P (next value)) :
    Yields P (step >>= next) := by
  intro result hresult
  obtain ⟨value, hvalue, hnext⟩ := bind_eq_ok.mp hresult
  exact h value hvalue result hnext

theorem forall₂_of_mapM
    {step : α → Except ε β}
    {values : List α}
    {results : List β}
    (h : values.mapM step = .ok results) :
    List.Forall₂ (fun value result => step value = .ok result) values results := by
  induction values generalizing results with
  | nil =>
      rw [List.mapM_nil] at h
      cases h
      exact .nil
  | cons value values ih =>
      rw [List.mapM_cons, bind_eq_ok] at h
      obtain ⟨result, hresult, h⟩ := h
      rw [bind_eq_ok] at h
      obtain ⟨rest, hrest, h⟩ := h
      cases h
      exact .cons hresult (ih hrest)

theorem mapM_eq_ok_iff
    {step : α → Except ε β}
    {values : List α}
    {results : List β} :
    values.mapM step = .ok results ↔
      List.Forall₂ (fun value result => step value = .ok result) values results := by
  refine ⟨forall₂_of_mapM, fun h => ?_⟩
  induction h with
  | nil =>
      rfl
  | cons hstep _ ih =>
      rw [List.mapM_cons, hstep, ih]
      rfl

theorem exists_of_mem_mapM
    {step : α → Except ε β}
    {values : List α}
    {results : List β}
    {result : β}
    (h : values.mapM step = .ok results)
    (hmem : result ∈ results) :
    ∃ value ∈ values, step value = .ok result := by
  have hall := forall₂_of_mapM h
  clear h
  induction hall with
  | nil =>
      simp at hmem
  | cons hstep _ ih =>
      rcases List.mem_cons.mp hmem with rfl | hmem
      · exact ⟨_, List.mem_cons_self, hstep⟩
      · obtain ⟨value, hvalue, heq⟩ := ih hmem
        exact ⟨value, List.mem_cons_of_mem _ hvalue, heq⟩

/-- Lists that correspond do so at every place. -/
theorem exists_getElem?_of_forall₂
    {R : α → β → Prop}
    {values : List α}
    {results : List β}
    (h : List.Forall₂ R values results)
    {i : Nat}
    {value : α}
    (hvalue : values[i]? = some value) :
    ∃ result, results[i]? = some result ∧ R value result := by
  obtain ⟨hi, rfl⟩ := List.getElem?_eq_some_iff.mp hvalue
  have hi' : i < results.length := by
    rw [← h.length_eq]
    exact hi
  exact ⟨results[i], List.getElem?_eq_getElem hi', h.get hi hi'⟩

/-- A step stands where its result does. -/
theorem getElem?_mapM
    {step : α → Except ε β}
    {values : List α}
    {results : List β}
    {i : Nat}
    {value : α}
    (h : values.mapM step = .ok results)
    (hvalue : values[i]? = some value) :
    ∃ result, results[i]? = some result ∧ step value = .ok result := by
  exact exists_getElem?_of_forall₂ (forall₂_of_mapM h) hvalue

theorem exists_mapM_eq_ok
    {step : α → Except ε β}
    {values : List α}
    (h : ∀ value ∈ values, ∃ result, step value = .ok result) :
    ∃ results, values.mapM step = .ok results := by
  induction values with
  | nil =>
      exact ⟨[], rfl⟩
  | cons value values ih =>
      obtain ⟨result, hresult⟩ := h value List.mem_cons_self
      obtain ⟨results, hresults⟩ := ih fun other hother => h other (List.mem_cons_of_mem _ hother)
      refine ⟨result :: results, ?_⟩
      rw [List.mapM_cons, hresult, hresults]
      rfl

theorem mapM_eq_some_iff
    {step : α → Option β}
    {values : List α}
    {results : List β} :
    values.mapM step = some results ↔
      List.Forall₂ (fun value result => step value = some result) values results := by
  induction values generalizing results with
  | nil =>
      rw [List.mapM_nil, List.forall₂_nil_left_iff, Option.pure_def, Option.some_inj, eq_comm]
  | cons value values ih =>
      rw [List.mapM_cons, Option.bind_eq_bind, Option.bind_eq_some_iff,
        List.forall₂_cons_left_iff]
      constructor
      · rintro ⟨result, hresult, h⟩
        obtain ⟨rest, hrest, h⟩ := Option.bind_eq_some_iff.mp h
        cases h
        exact ⟨result, rest, hresult, ih.mp hrest, rfl⟩
      · rintro ⟨result, rest, hresult, hrest, rfl⟩
        refine ⟨result, hresult, ?_⟩
        rw [ih.mpr hrest]
        rfl

theorem isSome_mapM
    (step : α → Option β)
    (values : List α) :
    (values.mapM step).isSome = values.all fun value => (step value).isSome := by
  induction values with
  | nil =>
      rfl
  | cons value values ih =>
      rw [List.mapM_cons, List.all_cons, ← ih]
      cases step value with
      | none =>
          rfl
      | some result =>
          cases values.mapM step <;> rfl

/-- The step has a result. -/
def Succeeds (step : Except ε α) : Prop :=
  ∃ value, step = .ok value

theorem succeeds_ok
    (value : α) :
    Succeeds (.ok value : Except ε α) := by
  exact ⟨value, rfl⟩

theorem succeeds_bind_iff
    {step : Except ε α}
    {next : α → Except ε β} :
    Succeeds (step >>= next) ↔ ∃ first, step = .ok first ∧ Succeeds (next first) := by
  constructor
  · rintro ⟨value, h⟩
    obtain ⟨first, hfirst, hnext⟩ := bind_eq_ok.mp h
    exact ⟨first, hfirst, value, hnext⟩
  · rintro ⟨first, hfirst, value, hnext⟩
    exact ⟨value, bind_eq_ok.mpr ⟨first, hfirst, hnext⟩⟩

/-- Where the second step has a result whatever the first one has, that one decides, or the
other way round. -/
theorem succeeds_bind_iff_of_forall
    {step : Except ε α}
    {next : α → Except ε β}
    {P : Prop}
    (h : ∀ first, Succeeds (next first) ↔ P) :
    Succeeds (step >>= next) ↔ Succeeds step ∧ P := by
  rw [succeeds_bind_iff]
  simp only [h]
  constructor
  · rintro ⟨first, hfirst, hP⟩
    exact ⟨⟨first, hfirst⟩, hP⟩
  · rintro ⟨⟨first, hfirst⟩, hP⟩
    exact ⟨first, hfirst, hP⟩

theorem succeeds_bind_ok_iff
    {step : Except ε α}
    {f : α → β} :
    Succeeds (step >>= fun value => .ok (f value)) ↔ Succeeds step := by
  rw [succeeds_bind_iff_of_forall fun value => iff_true_intro (succeeds_ok (f value)), and_true]

theorem succeeds_map_iff
    {step : Except ε α}
    {f : α → β} :
    Succeeds (step.map f) ↔ Succeeds step := by
  constructor
  · rintro ⟨value, h⟩
    obtain ⟨first, hfirst, -⟩ := map_eq_ok.mp h
    exact ⟨first, hfirst⟩
  · rintro ⟨first, hfirst⟩
    exact ⟨f first, map_eq_ok.mpr ⟨first, hfirst, rfl⟩⟩

theorem succeeds_mapM_iff
    {step : α → Except ε β}
    {values : List α} :
    Succeeds (values.mapM step) ↔ ∀ value ∈ values, Succeeds (step value) := by
  refine ⟨?_, exists_mapM_eq_ok⟩
  rintro ⟨results, h⟩ value hvalue
  obtain ⟨i, hi⟩ := List.mem_iff_getElem?.mp hvalue
  obtain ⟨result, -, hresult⟩ := getElem?_mapM h hi
  exact ⟨result, hresult⟩

end Failure
end SuiteShift
