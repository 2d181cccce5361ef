import SuiteShift.Text.Letter
import SuiteShift.Text.LetterCase
import Mathlib.Data.List.Basic
import Mathlib.Data.List.TakeWhile

/-!
# Looking characters up

- `inRanges_of_within`, `inRanges_of_avoids`: a whole interval of code points is in a table, or
  out of it.
- `exists_of_covered`, `inRanges_of_gaps`: many intervals against an ascending table.
- `of_toNat_lt`: what holds of each character below a code point.
- `mapCase_cases`: a character is mapped as a sequence says, as a run says, or to itself.
-/

namespace SuiteShift
namespace Text

/-- One range of the table holds the whole interval. -/
def within (ranges : List CodeRange) (low high : Nat) : Bool :=
  ranges.any fun range => Nat.ble range.1 low && Nat.ble high range.2

/-- No range of the table meets the interval. -/
def avoids (ranges : List CodeRange) (low high : Nat) : Bool :=
  ranges.all fun range => Nat.blt range.2 low || Nat.blt high range.1

section Intervals

variable {ranges : List CodeRange} {low high n : Nat}

theorem mem_inRanges_iff :
    inRanges ranges n = true ↔ ∃ range ∈ ranges, range.1 ≤ n ∧ n ≤ range.2 := by
  simp [inRanges]

theorem inRanges_of_within
    (h : within ranges low high = true)
    (hlow : low ≤ n)
    (hhigh : n ≤ high) :
    inRanges ranges n = true := by
  obtain ⟨range, hrange, hin⟩ := List.any_eq_true.mp h
  simp only [Bool.and_eq_true, Nat.ble_eq] at hin
  exact mem_inRanges_iff.mpr ⟨range, hrange, by omega, by omega⟩

theorem inRanges_of_avoids
    (h : avoids ranges low high = true)
    (hlow : low ≤ n)
    (hhigh : n ≤ high) :
    inRanges ranges n = false := by
  rw [← Bool.not_eq_true, mem_inRanges_iff]
  rintro ⟨range, hrange, hfirst, hlast⟩
  have hout := List.all_eq_true.mp h range hrange
  simp only [Bool.or_eq_true, Nat.blt_eq] at hout
  omega

/-- Every block lies in a range, where both lists ascend. -/
def covered : List CodeRange → List CodeRange → Bool
  | [], blocks => blocks.isEmpty
  | range :: ranges, blocks =>
    covered ranges
      (blocks.dropWhile fun block => Nat.ble range.1 block.1 && Nat.ble block.2 range.2)

/-- The intervals before, between and after the ranges. -/
def gaps : Nat → List CodeRange → List CodeRange
  | start, [] => [(start, 1114111)]
  | start, range :: ranges => (start, range.1 - 1) :: gaps (range.2 + 1) ranges

/-- The ranges ascend, each after a gap. -/
def ascends : Nat → List CodeRange → Bool
  | _, [] => true
  | start, range :: ranges =>
    Nat.blt start range.1 && Nat.ble range.1 range.2 && ascends (range.2 + 1) ranges

theorem exists_of_covered
    {blocks : List CodeRange}
    {block : CodeRange}
    (h : covered ranges blocks = true)
    (hblock : block ∈ blocks) :
    ∃ range ∈ ranges, range.1 ≤ block.1 ∧ block.2 ≤ range.2 := by
  induction ranges generalizing blocks with
  | nil =>
      rw [covered, List.isEmpty_iff] at h
      simp [h] at hblock
  | cons range ranges ih =>
      rw [covered] at h
      rw [← List.takeWhile_append_dropWhile (p := fun block : CodeRange =>
        Nat.ble range.1 block.1 && Nat.ble block.2 range.2) (l := blocks),
        List.mem_append] at hblock
      rcases hblock with htaken | hleft
      · have hin := List.mem_takeWhile_imp htaken
        rw [Bool.and_eq_true, Nat.ble_eq, Nat.ble_eq] at hin
        exact ⟨range, List.mem_cons_self, hin⟩
      · obtain ⟨other, hother, hin⟩ := ih h hleft
        exact ⟨other, List.mem_cons_of_mem _ hother, hin⟩

theorem le_of_ascends
    {start : Nat}
    {range : CodeRange}
    (h : ascends start ranges = true)
    (hrange : range ∈ ranges) :
    start ≤ range.1 := by
  induction ranges generalizing start with
  | nil =>
      cases hrange
  | cons first ranges ih =>
      simp only [ascends, Bool.and_eq_true, Nat.blt_eq, Nat.ble_eq] at h
      obtain ⟨⟨hstart, hfirst⟩, hrest⟩ := h
      rcases List.mem_cons.mp hrange with rfl | hrange
      · omega
      · have hle := ih hrest hrange
        omega

theorem inRanges_cons
    {range : CodeRange} :
    inRanges (range :: ranges) n = false ↔
      (n < range.1 ∨ range.2 < n) ∧ inRanges ranges n = false := by
  rw [inRanges, List.any_cons, Bool.or_eq_false_iff, Bool.and_eq_false_iff, ← Bool.not_eq_true,
    ← Bool.not_eq_true, Nat.ble_eq, Nat.ble_eq, Nat.not_le, Nat.not_le]
  rfl

/-- What lies in a gap is in no range. -/
theorem inRanges_of_gaps
    {start : Nat}
    {gap : CodeRange}
    (h : ascends start ranges = true)
    (hgap : gap ∈ gaps start ranges)
    (hlow : gap.1 ≤ n)
    (hhigh : n ≤ gap.2) :
    start ≤ gap.1 ∧ inRanges ranges n = false := by
  induction ranges generalizing start with
  | nil =>
      rw [gaps, List.mem_singleton] at hgap
      subst hgap
      exact ⟨Nat.le_refl _, rfl⟩
  | cons range ranges ih =>
      simp only [ascends, Bool.and_eq_true, Nat.blt_eq, Nat.ble_eq] at h
      obtain ⟨⟨hstart, hrange⟩, hrest⟩ := h
      rw [gaps, List.mem_cons] at hgap
      rw [inRanges_cons]
      rcases hgap with rfl | hgap
      · have hbelow : n < range.1 := by
          have hhigh : n ≤ range.1 - 1 := hhigh
          omega
        refine ⟨Nat.le_refl _, .inl hbelow, ?_⟩
        rw [← Bool.not_eq_true, mem_inRanges_iff]
        rintro ⟨other, hother, hin, -⟩
        have hle := le_of_ascends hrest hother
        omega
      · obtain ⟨hle, hnone⟩ := ih hrest hgap
        exact ⟨by omega, .inr (by omega), hnone⟩

end Intervals

theorem toNat_ofNat
    {n : Nat}
    (h : n.isValidChar) :
    (Char.ofNat n).toNat = n := by
  unfold Char.ofNat
  rw [dif_pos h]
  rfl

/-- A property of all characters below a code point, checked one by one. -/
theorem of_toNat_lt
    {P : Char → Prop}
    {bound : Nat}
    (h : ∀ n < bound, P (Char.ofNat n))
    {c : Char}
    (hc : c.toNat < bound) :
    P c := by
  have hP := h c.toNat hc
  rwa [Char.ofNat_toNat] at hP

/-- A character is mapped as a sequence says, as a run says, or to itself. -/
theorem mapCase_cases
    {sequences : List (Nat × List Nat)}
    {runs : List CaseRun}
    {c : Char}
    {P : List Char → Prop}
    (hsequence : ∀ codes, (c.toNat, codes) ∈ sequences → P (codes.map Char.ofNat))
    (hrun : ∀ run ∈ runs, run.covers c.toNat = true →
      P [Char.ofNat (Int.toNat (c.toNat + run.shift))])
    (hsame : P [c]) :
    P (mapCase sequences runs c) := by
  unfold mapCase
  split
  · next codes hlookup =>
      obtain ⟨before, after, hsplit, -⟩ := List.lookup_eq_some_iff.mp hlookup
      exact hsequence codes (by simp [hsplit])
  · split
    · next run hfind =>
        exact hrun run (List.mem_of_find?_eq_some hfind) (by simpa using List.find?_some hfind)
    · exact hsame

end Text
end SuiteShift
