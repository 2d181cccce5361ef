import SuiteShift.Proofs.Lowering.Accounting

/-!
# Commands that leave a placeholder

- `leavesPlaceholder`: a rule refuses, or some statement of the command is a placeholder.
- `leavesPlaceholder_eq_false_iff`: otherwise all statements are code.
- `diagnostics_ne_nil_of_leavesPlaceholder`: a placeholder never comes without a message.
- `occursIn_joinStatements`, `joinStatements_eq_empty_iff`: statements and the text they make.
-/

namespace SuiteShift
namespace Lowering

/-- A rule refuses, or some statement is a placeholder. -/
def leavesPlaceholder (command : Command) : Bool :=
  match (statements command).result with
  | .ok made => made.any Emitted.isPlaceholder
  | .error _ => true

theorem leavesPlaceholder_eq_false_iff
    {command : Command} :
    leavesPlaceholder command = false ↔
      ∃ made,
        (statements command).result = .ok made ∧
        ∀ statement ∈ made, statement.isPlaceholder = false := by
  unfold leavesPlaceholder
  cases hresult : (statements command).result with
  | ok made =>
      simp
  | error reason =>
      simp

theorem diagnostics_ne_nil_of_leavesPlaceholder
    {command : Command}
    (h : leavesPlaceholder command = true) :
    command.lower.diagnostics ≠ [] := by
  unfold leavesPlaceholder at h
  cases hresult : (statements command).result with
  | error reason =>
      rw [(lower_of_error hresult).2.2]
      simp
  | ok made =>
      rw [hresult, List.any_eq_true] at h
      have hplaceholder : 0 < made.countP Emitted.isPlaceholder := by
        exact List.countP_pos_iff.mpr h
      have hcount := length_warnings_statements hresult
      rw [(lower_of_ok hresult).2, ← List.length_pos_iff, List.length_map]
      omega

/-- What a statement holds, the text of all statements holds. -/
theorem occursIn_joinStatements
    {needle : String}
    {statement : Emitted}
    {made : List Emitted}
    (hneedle : needle ≠ "")
    (hmem : statement ∈ made)
    (h : occursIn needle statement.text = true) :
    occursIn needle (joinStatements made) = true := by
  have hnonempty : statement.isEmpty = false := by
    rw [Emitted.isEmpty, beq_eq_false_iff_ne]
    intro hempty
    obtain ⟨before, after, htext⟩ := occursIn_iff.mp h
    rw [hempty, eq_comm, String.append_eq_empty_iff, String.append_eq_empty_iff] at htext
    exact hneedle htext.1.2
  refine occursIn_intercalate (List.mem_map_of_mem (List.mem_filter.mpr ⟨hmem, ?_⟩)) ?_ _
  · simp [hnonempty]
  · unfold Emitted.render
    split_ifs
    · exact occursIn_append_left h _
    · exact h

theorem joinStatements_eq_empty_iff
    {made : List Emitted} :
    joinStatements made = "" ↔ ∀ statement ∈ made, statement.isEmpty = true := by
  constructor
  · intro hempty statement hmem
    rw [Emitted.isEmpty, beq_iff_eq]
    by_contra hne
    obtain ⟨before, after, hjoin⟩ :=
      occursIn_iff.mp (occursIn_joinStatements hne hmem (occursIn_self _))
    rw [hempty, eq_comm, String.append_eq_empty_iff, String.append_eq_empty_iff] at hjoin
    exact hne hjoin.1.2
  · intro hall
    have hnone : made.filter (fun statement => !statement.isEmpty) = [] := by
      simpa using hall
    rw [joinStatements, hnone]
    rfl

end Lowering
end SuiteShift
