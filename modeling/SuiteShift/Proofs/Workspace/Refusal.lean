import SuiteShift.Proofs.Workspace.Edit

/-!
# Why changes are refused

- `FailsBy`: every reason for which a step fails has a property; it passes through `bind`.
- `RefusedBy`: the same for every run of an edit; it passes through `bind` and `tryCatch`.
- `AccessError.isOfChange`: the reasons for which a directory or a file is not written. No other
  reason is given, `refusedBy_makeDirectories`, `refusedBy_writeText`.
-/

namespace SuiteShift

namespace Failure

variable {ε α β : Type}

/-- Every reason to fail has the property. -/
def FailsBy (P : ε → Prop) (step : Except ε α) : Prop :=
  ∀ reason, step = .error reason → P reason

theorem failsBy_ok
    {P : ε → Prop}
    (value : α) :
    FailsBy P (.ok value : Except ε α) := by
  rintro _ ⟨⟩

theorem failsBy_error
    {P : ε → Prop}
    {reason : ε}
    (h : P reason) :
    FailsBy P (.error reason : Except ε α) := by
  rintro _ ⟨⟩
  exact h

theorem failsBy_bind
    {P : ε → Prop}
    {step : Except ε α}
    {next : α → Except ε β}
    (hstep : FailsBy P step)
    (hnext : ∀ value, FailsBy P (next value)) :
    FailsBy P (step >>= next) := by
  cases step with
  | ok value =>
      exact hnext value
  | error reason =>
      exact failsBy_error (hstep reason rfl)

theorem failsBy_foldlM
    {P : ε → Prop}
    {step : β → α → Except ε β}
    (hstep : ∀ state value, FailsBy P (step state value))
    (values : List α)
    (state : β) :
    FailsBy P (values.foldlM step state) := by
  induction values generalizing state with
  | nil =>
      exact failsBy_ok state
  | cons value values ih =>
      rw [List.foldlM_cons]
      exact failsBy_bind (hstep state value) ih

end Failure

/-- The reason is one for which a directory or a file is not written. -/
def AccessError.isOfChange : AccessError → Bool
  | .notText => false
  | .noSourceDirectory => false
  | _ => true

namespace Workspace

open Failure (FailsBy failsBy_ok failsBy_error failsBy_bind failsBy_foldlM)

section Steps

variable (ws : Workspace)

theorem failsBy_entriesAt
    (location : List String) :
    FailsBy (·.isOfChange = true) (ws.entriesAt location) := by
  unfold entriesAt
  split
  · exact failsBy_ok _
  · exact failsBy_error rfl
  · exact failsBy_error rfl

theorem failsBy_step
    (location : List String)
    (piece : List Char) :
    FailsBy (·.isOfChange = true) (ws.step location piece) := by
  refine failsBy_bind (ws.failsBy_entriesAt location) ?_
  intro entries
  split
  · exact failsBy_ok _
  · exact failsBy_ok _
  · exact failsBy_ok _
  · dsimp only
    split_ifs
    · exact failsBy_error rfl
    · exact failsBy_ok _
    · exact failsBy_error rfl

theorem failsBy_start
    (path : String) :
    FailsBy (·.isOfChange = true) (ws.start path) := by
  unfold start
  split_ifs
  · exact failsBy_error rfl
  · exact failsBy_error rfl
  · exact failsBy_error rfl
  · exact failsBy_ok _
  · exact failsBy_ok _

theorem failsBy_target
    (path : String) :
    FailsBy (·.isOfChange = true) (ws.target path) := by
  refine failsBy_bind (ws.failsBy_start path) ?_
  intro location
  dsimp only
  split
  · exact failsBy_ok _
  · refine failsBy_bind (failsBy_foldlM ws.failsBy_step _ location) ?_
    intro directory
    exact failsBy_bind (ws.failsBy_entriesAt directory) fun _ => failsBy_ok _

theorem failsBy_place
    (target : Target) :
    FailsBy (·.isOfChange = true) (ws.place target) := by
  unfold place
  split_ifs
  · exact failsBy_error rfl
  · exact failsBy_ok _

theorem failsBy_addDirectory
    (path : String) :
    FailsBy (·.isOfChange = true) (ws.addDirectory path) := by
  refine failsBy_bind (ws.failsBy_target path) ?_
  intro target
  split
  · exact failsBy_error rfl
  · split_ifs
    · exact failsBy_error rfl
    · refine failsBy_bind (ws.failsBy_place _) ?_
      intro found
      split
      · exact failsBy_error rfl
      · exact failsBy_ok _

theorem failsBy_addText
    (path text : String) :
    FailsBy (·.isOfChange = true) (ws.addText path text) := by
  refine failsBy_bind (ws.failsBy_target path) ?_
  intro target
  split
  · exact failsBy_error rfl
  · split_ifs
    · exact failsBy_error rfl
    · refine failsBy_bind (ws.failsBy_place _) ?_
      intro found
      split
      · exact failsBy_error rfl
      · exact failsBy_ok _

end Steps

/-! ### Runs -/

variable {ε α β : Type} {P : ε → Prop}

/-- Every reason for which a run of the edit fails has the property. -/
def RefusedBy (P : ε → Prop) (change : Edit ε α) : Prop :=
  ∀ ws, FailsBy P (change.run.run ws).1

theorem refusedBy_pure
    (value : α) :
    RefusedBy P (pure value : Edit ε α) := by
  intro ws
  exact failsBy_ok value

theorem refusedBy_throw
    {reason : ε}
    (h : P reason) :
    RefusedBy P (throw reason : Edit ε α) := by
  intro ws
  exact failsBy_error h

theorem refusedBy_bind
    {first : Edit ε α}
    {next : α → Edit ε β}
    (hfirst : RefusedBy P first)
    (hnext : ∀ value, RefusedBy P (next value)) :
    RefusedBy P (first >>= next) := by
  intro ws
  have hreasons := hfirst ws
  rw [run_bind]
  rcases hrun : first.run.run ws with ⟨result, after⟩
  rw [hrun] at hreasons
  cases result with
  | ok value =>
      exact hnext value after
  | error reason =>
      exact failsBy_error (hreasons reason rfl)

theorem refusedBy_tryCatch
    {first : Edit ε α}
    {handler : ε → Edit ε α}
    (hfirst : RefusedBy P first)
    (hhandler : ∀ reason, P reason → RefusedBy P (handler reason)) :
    RefusedBy P (tryCatch first handler) := by
  intro ws
  have hreasons := hfirst ws
  rw [run_tryCatch]
  rcases hrun : first.run.run ws with ⟨result, after⟩
  rw [hrun] at hreasons
  cases result with
  | ok value =>
      exact failsBy_ok value
  | error reason =>
      exact hhandler reason (hreasons reason rfl) after

theorem refusedBy_edit
    {P : AccessError → Prop}
    {change : Workspace → Except AccessError Workspace}
    (h : ∀ ws, FailsBy P (change ws)) :
    RefusedBy P (edit change) := by
  intro ws
  have hreasons := h ws
  rw [run_edit]
  cases hchange : change ws with
  | ok after =>
      exact failsBy_ok ()
  | error reason =>
      exact failsBy_error (hreasons reason hchange)

theorem refusedBy_ensureDirectory
    (path : String) :
    RefusedBy (·.isOfChange = true) (ensureDirectory path) := by
  refine refusedBy_tryCatch (refusedBy_edit fun ws => ws.failsBy_addDirectory path) ?_
  intro reason hreason
  refine refusedBy_bind (fun ws => failsBy_ok _) ?_
  intro ws
  split_ifs
  · exact refusedBy_pure ()
  · exact refusedBy_throw hreason

theorem refusedBy_ensureChain
    (paths : List String) :
    RefusedBy (·.isOfChange = true) (ensureChain paths) := by
  induction paths with
  | nil =>
      exact refusedBy_pure ()
  | cons path paths ih =>
      cases paths with
      | nil =>
          exact refusedBy_pure ()
      | cons above rest =>
          refine refusedBy_tryCatch (refusedBy_ensureDirectory path) ?_
          intro reason hreason
          split
          · exact refusedBy_bind ih fun _ => refusedBy_ensureDirectory path
          · exact refusedBy_throw hreason

theorem refusedBy_makeDirectories
    (path : String) :
    RefusedBy (·.isOfChange = true) (makeDirectories path) := by
  exact refusedBy_ensureChain (Path.ancestors path)

theorem refusedBy_writeText
    (path text : String) :
    RefusedBy (·.isOfChange = true) (writeText path text) := by
  exact refusedBy_edit fun ws => ws.failsBy_addText path text

end Workspace
end SuiteShift
