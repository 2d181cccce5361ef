import SuiteShift.Lowering.Basic
import Mathlib.Data.List.Basic

/-!
# Outcomes step by step

How a run of two steps splits into its parts.

- `result_bind_eq_ok`, `result_bind_eq_error`: when a run ends with a result, and when it is
  refused.
- `warnings`: the diagnostics among the notes of a step; `notes` of a run are those of its steps
  one after another, so the warnings are.
- `diagnostics_ofNotes`: the gathered messages are the worded warnings, in order.
-/

namespace SuiteShift
namespace Lowering

/-- The diagnostics among some notes. -/
def warnings (notes : List Note) : List Diagnostic :=
  notes.filterMap fun
    | .warns diagnostic => some diagnostic
    | .needs _ => none

@[simp] theorem warnings_nil :
    warnings [] = [] := by
  rfl

@[simp] theorem warnings_append
    (first second : List Note) :
    warnings (first ++ second) =
      warnings first ++ warnings second := by
  simp [warnings]

@[simp] theorem warnings_warns_cons
    (diagnostic : Diagnostic)
    (notes : List Note) :
    warnings (.warns diagnostic :: notes) =
      diagnostic :: warnings notes := by
  rfl

@[simp] theorem warnings_needs
    (lines : List String) :
    warnings (lines.map .needs) = [] := by
  induction lines with
  | nil =>
      rfl
  | cons line lines =>
      simp [warnings]

namespace Outcome

variable {α β : Type}

@[simp] theorem notes_ok
    (value : α) :
    (ok value).notes = [] := by
  rfl

@[simp] theorem result_ok
    (value : α) :
    (ok value).result = .ok value := by
  rfl

@[simp] theorem notes_ofExcept
    (result : Except RuleError α) :
    (ofExcept result).notes = [] := by
  rfl

@[simp] theorem result_ofExcept
    (result : Except RuleError α) :
    (ofExcept result).result = result := by
  rfl

@[simp] theorem notes_warn
    (diagnostic : Diagnostic) :
    (warn diagnostic).notes = [.warns diagnostic] := by
  rfl

@[simp] theorem result_warn
    (diagnostic : Diagnostic) :
    (warn diagnostic).result = .ok () := by
  rfl

@[simp] theorem notes_need
    (lines : List String) :
    (need lines).notes = lines.map .needs := by
  rfl

@[simp] theorem result_need
    (lines : List String) :
    (need lines).result = .ok () := by
  rfl

@[simp] theorem pure_eq_ok
    (value : α) :
    (pure value : Outcome α) = ok value := by
  rfl

/-- After a step with a result the next step runs on it. -/
theorem bind_of_ok
    {step : Outcome α}
    {value : α}
    (next : α → Outcome β)
    (hstep : step.result = .ok value) :
    step >>= next =
      ⟨step.notes ++ (next value).notes, (next value).result⟩ := by
  change step.bind next = _
  simp [Outcome.bind, hstep]

/-- A refused step ends the run; its notes stay. -/
theorem bind_of_error
    {step : Outcome α}
    {reason : RuleError}
    (next : α → Outcome β)
    (hstep : step.result = .error reason) :
    step >>= next = ⟨step.notes, .error reason⟩ := by
  change step.bind next = _
  simp [Outcome.bind, hstep]

@[simp] theorem ok_bind
    (value : α)
    (next : α → Outcome β) :
    ok value >>= next = next value := by
  rw [bind_of_ok next (result_ok value)]
  simp

@[simp] theorem warn_bind
    (diagnostic : Diagnostic)
    (next : Unit → Outcome β) :
    warn diagnostic >>= next =
      ⟨.warns diagnostic :: (next ()).notes, (next ()).result⟩ := by
  rw [bind_of_ok next (result_warn diagnostic)]
  simp

@[simp] theorem need_bind
    (lines : List String)
    (next : Unit → Outcome β) :
    need lines >>= next =
      ⟨lines.map .needs ++ (next ()).notes, (next ()).result⟩ := by
  rw [bind_of_ok next (result_need lines)]
  simp

@[simp] theorem ofExcept_ok_bind
    (value : α)
    (next : α → Outcome β) :
    ofExcept (.ok value) >>= next = next value := by
  exact ok_bind value next

@[simp] theorem ofExcept_error_bind
    (reason : RuleError)
    (next : α → Outcome β) :
    ofExcept (.error reason) >>= next = ⟨[], .error reason⟩ := by
  rw [bind_of_error next (result_ofExcept (.error reason))]
  simp

theorem bind_assoc
    {γ : Type}
    (step : Outcome α)
    (next : α → Outcome β)
    (last : β → Outcome γ) :
    step >>= next >>= last =
      step >>= fun value => next value >>= last := by
  cases hstep : step.result with
  | error reason =>
      rw [bind_of_error next hstep, bind_of_error _ hstep, bind_of_error last rfl]
  | ok value =>
      rw [bind_of_ok next hstep, bind_of_ok _ hstep]
      cases hnext : (next value).result with
      | error reason =>
          rw [bind_of_error last rfl, bind_of_error last hnext]
      | ok second =>
          rw [bind_of_ok last rfl, bind_of_ok last hnext]
          simp

/-- Steps that agree on the result of the first one make the same run. -/
theorem bind_congr_of_ok
    {step : Outcome α}
    {next other : α → Outcome β}
    (h : ∀ value, step.result = .ok value → next value = other value) :
    step >>= next = step >>= other := by
  cases hstep : step.result with
  | error reason =>
      rw [bind_of_error next hstep, bind_of_error other hstep]
  | ok value =>
      rw [bind_of_ok next hstep, bind_of_ok other hstep, h value hstep]

@[simp] theorem bind_ok
    (step : Outcome α) :
    (step >>= fun value => ok value) = step := by
  cases hstep : step.result with
  | error reason =>
      rw [bind_of_error _ hstep, ← hstep]
  | ok value =>
      rw [bind_of_ok _ hstep, notes_ok, result_ok, ← hstep, List.append_nil]

/-- A run has a result when both steps have one. -/
theorem result_bind_eq_ok
    {step : Outcome α}
    {next : α → Outcome β}
    {value : β} :
    (step >>= next).result = .ok value ↔
      ∃ first,
        step.result = .ok first ∧
        (next first).result = .ok value := by
  cases hstep : step.result with
  | ok first =>
      simp [bind_of_ok next hstep]
  | error reason =>
      simp [bind_of_error next hstep]

/-- A run is refused by its first step, or by its second one on the result of the first. -/
theorem result_bind_eq_error
    {step : Outcome α}
    {next : α → Outcome β}
    {reason : RuleError} :
    (step >>= next).result = .error reason ↔
      step.result = .error reason ∨
      ∃ first,
        step.result = .ok first ∧
        (next first).result = .error reason := by
  cases hstep : step.result with
  | ok first =>
      simp [bind_of_ok next hstep]
  | error other =>
      simp [bind_of_error next hstep]

/-- The notes of a run whose first step has a result. -/
theorem notes_bind_of_ok
    {step : Outcome α}
    {value : α}
    (next : α → Outcome β)
    (hstep : step.result = .ok value) :
    (step >>= next).notes =
      step.notes ++ (next value).notes := by
  rw [bind_of_ok next hstep]

/-- The notes of a run whose first step is refused. -/
theorem notes_bind_of_error
    {step : Outcome α}
    {reason : RuleError}
    (next : α → Outcome β)
    (hstep : step.result = .error reason) :
    (step >>= next).notes = step.notes := by
  rw [bind_of_error next hstep]

end Outcome

namespace Context

@[simp] theorem diagnostics_requireImport
    (context : Context)
    (line : String) :
    (context.requireImport line).diagnostics =
      context.diagnostics := by
  unfold requireImport
  split <;> rfl

/-- Gathering adds the worded warnings in their order. -/
theorem diagnostics_foldl_add
    (notes : List Note)
    (context : Context) :
    (notes.foldl add context).diagnostics =
      context.diagnostics ++
        (warnings notes).map Diagnostic.message := by
  induction notes generalizing context with
  | nil =>
      simp
  | cons note notes ih =>
      cases note with
      | needs line =>
          simp [ih, add, warnings]
      | warns diagnostic =>
          simp [ih, add, diagnose, warnings]

/-- The gathered messages are the worded warnings. -/
theorem diagnostics_ofNotes
    (notes : List Note) :
    (ofNotes notes).diagnostics =
      (warnings notes).map Diagnostic.message := by
  unfold ofNotes
  rw [diagnostics_foldl_add]
  simp

end Context
end Lowering
end SuiteShift
