import SuiteShift.CustomCommand.Body
import SuiteShift.Proofs.Text.Indent
import SuiteShift.Proofs.Text.Search

/-!
# The page in a method

In a method the name of the page is rebound wherever it stands in code, whoever wrote it there.

- `Scan`: where the rebinding stands in a line.
- `isReceiver`: the name is rebound here.
- `rebound`: what becomes of a piece of a line, with the line after it. `rebindAfter_append` puts
  pieces together.
- `rebound_eq_self_iff`, `reindent_rebound_eq_self_iff`: a piece is kept, and it is kept in an
  indented line, exactly if the name is not rebound in it and, for the latter, it has one line.
-/

namespace SuiteShift
namespace CustomCommand

/-- Where a rebinding stands: in which literal, and after which character of the code between two
literals. -/
structure Scan where
  state : CodeState := {}
  before : Option Char := none

namespace Scan

/-- After a character. -/
def step (s : Scan) (c : Char) : Scan :=
  { state := s.state.step c
    before := if s.state.quote.isNone then some c else none }

/-- After a text. -/
def run (s : Scan) (cs : List Char) : Scan :=
  cs.foldl step s

end Scan

/-- The name of the page starts here in code, neither as a property nor in a longer name. -/
def isReceiver (s : Scan) (cs : List Char) : Bool :=
  s.state.quote.isNone && startsPage cs && (s.before.map isReceiverEdge).getD true

/-- What stands before a name that is rebound. -/
def thisMark (s : Scan) (cs : List Char) : List Char :=
  if isReceiver s cs then "this.".toList else []

/-- What becomes of a piece of a line, given what follows it there. -/
def rebound (s : Scan) (after : List Char) : List Char → List Char
  | [] => []
  | c :: cs => thisMark s (c :: cs ++ after) ++ c :: rebound (s.step c) after cs

/-- The name is rebound somewhere in a piece of a line. -/
def HasReceiver (s : Scan) (cs after : List Char) : Prop :=
  ∃ front back, cs = front ++ back ∧ back ≠ [] ∧ isReceiver (s.run front) (back ++ after) = true

theorem startsPage_cons
    {c : Char}
    {cs : List Char}
    (h : startsPage (c :: cs) = true) :
    c = 'p' := by
  unfold startsPage at h
  split at h
  · next rest hrest =>
      exact (List.cons.inj (Text.stripStart_eq_some_iff.mp hrest)).1
  · cases h

theorem rebindAfter_cons
    (s : Scan)
    (c : Char)
    (cs : List Char) :
    rebindAfter s.state s.before (c :: cs) =
      thisMark s (c :: cs) ++ c :: rebindAfter (s.step c).state (s.step c).before cs := by
  rw [rebindAfter, thisMark, isReceiver, Scan.step]
  cases hquote : s.state.quote with
  | some q =>
      rfl
  | none =>
      cases hpage : startsPage (c :: cs) with
      | false =>
          simp
      | true =>
          -- The first letter of the name opens no literal.
          obtain rfl := startsPage_cons hpage
          have hopens : (s.state.step 'p').quote = none := by
            rw [CodeState.step, hquote]
            exact hquote
          rw [hopens]
          cases (s.before.map isReceiverEdge).getD true <;> rfl

/-- A line is rebound piece by piece. -/
theorem rebindAfter_append
    (s : Scan)
    (cs after : List Char) :
    rebindAfter s.state s.before (cs ++ after) =
      rebound s after cs ++ rebindAfter (s.run cs).state (s.run cs).before after := by
  induction cs generalizing s with
  | nil =>
      rfl
  | cons c cs ih =>
      rw [List.cons_append, rebindAfter_cons, ih, rebound, List.append_assoc]
      rfl

theorem rebound_append
    (s : Scan)
    (after front back : List Char) :
    rebound s after (front ++ back) =
      rebound s (back ++ after) front ++ rebound (s.run front) after back := by
  induction front generalizing s with
  | nil =>
      rfl
  | cons c front ih =>
      rw [List.cons_append, rebound, ih, rebound, List.append_assoc]
      simp only [List.cons_append, List.append_assoc]
      rfl

/-! ### Pieces that are kept -/

theorem hasReceiver_cons
    {s : Scan}
    {c : Char}
    {cs after : List Char} :
    HasReceiver s (c :: cs) after ↔
      isReceiver s (c :: cs ++ after) = true ∨ HasReceiver (s.step c) cs after := by
  constructor
  · rintro ⟨front, back, hcs, hne, hreceiver⟩
    cases front with
    | nil =>
        rw [List.nil_append] at hcs
        exact .inl (by rw [hcs]; exact hreceiver)
    | cons d front =>
        rw [List.cons_append, List.cons.injEq] at hcs
        obtain ⟨rfl, rfl⟩ := hcs
        exact .inr ⟨front, back, rfl, hne, hreceiver⟩
  · rintro (hreceiver | ⟨front, back, rfl, hne, hreceiver⟩)
    · exact ⟨[], c :: cs, rfl, by simp, hreceiver⟩
    · exact ⟨c :: front, back, rfl, hne, hreceiver⟩

theorem length_le_rebound
    (s : Scan)
    (after cs : List Char) :
    cs.length ≤ (rebound s after cs).length := by
  induction cs generalizing s with
  | nil =>
      exact Nat.le_refl 0
  | cons c cs ih =>
      have hrest := ih (s.step c)
      rw [rebound, List.length_append, List.length_cons, List.length_cons]
      omega

/-- A piece is kept exactly if the name is not rebound in it. -/
theorem rebound_eq_self_iff
    {s : Scan}
    {after cs : List Char} :
    rebound s after cs = cs ↔ ¬ HasReceiver s cs after := by
  induction cs generalizing s with
  | nil =>
      refine iff_of_true rfl ?_
      rintro ⟨front, back, hnil, hne, -⟩
      exact hne (List.append_eq_nil_iff.mp hnil.symm).2
  | cons c cs ih =>
      rw [rebound, thisMark, hasReceiver_cons, not_or, ← ih]
      split_ifs with hreceiver
      · refine iff_of_false ?_ fun hnone => hnone.1 hreceiver
        intro heq
        have hlength := congrArg List.length heq
        have hrest := length_le_rebound (s.step c) after cs
        rw [List.length_append, List.length_cons, List.length_cons] at hlength
        have hmark : "this.".toList.length = 5 := by
          decide
        omega
      · rw [List.nil_append, List.cons.injEq]
        exact ⟨fun heq => ⟨hreceiver, heq.2⟩, fun hkept => ⟨rfl, hkept.2⟩⟩

theorem not_mem_rebound
    {s : Scan}
    {after cs : List Char}
    (h : '\n' ∉ cs) :
    '\n' ∉ rebound s after cs := by
  induction cs generalizing s with
  | nil =>
      exact h
  | cons c cs ih =>
      rw [List.mem_cons, not_or] at h
      have hmark : '\n' ∉ thisMark s (c :: cs ++ after) := by
        unfold thisMark
        split_ifs <;> decide
      rw [rebound, List.mem_append, List.mem_cons]
      rintro (hmem | rfl | hmem)
      · exact hmark hmem
      · exact h.1 rfl
      · exact ih h.2 hmem

/-- Rebinding leaves the line ends where they are. -/
theorem rebound_append_newline
    (s : Scan)
    (after front last : List Char) :
    ∃ moved next,
      rebound s after (front ++ '\n' :: last) = moved ++ '\n' :: rebound next after last := by
  refine ⟨rebound s ('\n' :: last ++ after) front, (s.run front).step '\n', ?_⟩
  have hmark : thisMark (s.run front) ('\n' :: last ++ after) = [] := by
    refine if_neg ?_
    intro hreceiver
    rw [isReceiver, Bool.and_eq_true, Bool.and_eq_true] at hreceiver
    exact absurd (startsPage_cons hreceiver.1.2) (by decide)
  rw [rebound_append, rebound, hmark]
  rfl

theorem isRun_rebound
    {cs : List Char}
    (h : Text.IsRun cs)
    (s : Scan)
    (after : List Char) :
    Text.IsRun (rebound s after cs) := by
  refine ⟨?_, ?_, ?_⟩
  · obtain ⟨c, inside, rfl, -⟩ := h.exists_cons
    simp [rebound]
  · obtain ⟨c, inside, rfl, hc⟩ := h.exists_cons
    rw [rebound, thisMark]
    split_ifs
    · rintro d ⟨⟩
      rfl
    · rintro d ⟨⟩
      exact hc
  · obtain ⟨inside, c, rfl, hc⟩ := h.exists_concat
    rw [rebound_append, rebound, rebound, ← List.append_assoc]
    intro d hd
    rw [List.getLast?_concat] at hd
    cases hd
    exact hc

/-- In an indented line, a piece is kept exactly if it has one line and the name is not rebound in
it. -/
theorem reindent_rebound_eq_self_iff
    {depth : Nat}
    {s : Scan}
    {after cs : List Char}
    (hdepth : 0 < depth)
    (h : Text.IsRun cs) :
    Text.reindent depth (rebound s after cs) = cs ↔ '\n' ∉ cs ∧ ¬ HasReceiver s cs after := by
  have hrun := isRun_rebound h s after
  by_cases hmem : '\n' ∈ cs
  · refine iff_of_false ?_ fun hkept => hkept.1 hmem
    obtain ⟨front, last, rfl, hne, hlast⟩ := h.exists_last_line hmem
    obtain ⟨moved, next, hmoved⟩ := rebound_append_newline s after front last
    have hlonger := length_le_rebound next after last
    have hrest : rebound next after last ≠ [] := by
      rintro hnil
      rw [hnil] at hlonger
      exact hne (List.length_eq_zero_iff.mp (Nat.le_zero.mp hlonger))
    obtain ⟨shifted, hshifted⟩ :=
      Text.exists_reindent_append_newline hrest (not_mem_rebound hlast) depth moved
    intro heq
    -- The last line would be longer by the blanks before it.
    have hread := Text.getLast?_lines hne hlast front
    rw [← heq, hmoved, hshifted, Text.getLast?_lines (by simp [hrest])
      (by simp [not_mem_rebound hlast]), Option.some.injEq] at hread
    have hlength := congrArg List.length hread
    rw [List.length_append, List.length_replicate] at hlength
    omega
  · rw [(hrun.reindent_eq_self_iff hdepth).mpr (not_mem_rebound hmem), rebound_eq_self_iff]
    simp [hmem]

end CustomCommand
end SuiteShift
