import SuiteShift.Text.Basic
import Mathlib.Data.List.Basic

/-!
# Positions in bytes

- `utf8Length_append`, `utf8Length_toList`: the bytes of a text add up, to its size as a string.
- `dropBytes_eq_some_iff`: what is left after some bytes is what stands behind a beginning of as many
  bytes.
- `dropBytes_eq_none_iff`: within the text, a cut fails exactly if it falls inside a character.
-/

namespace SuiteShift
namespace Text

@[simp] theorem utf8Length_nil :
    utf8Length [] = 0 := by
  rfl

theorem foldl_utf8Size
    (n : Nat)
    (cs : List Char) :
    cs.foldl (fun n c => n + c.utf8Size) n = n + utf8Length cs := by
  induction cs generalizing n with
  | nil =>
      rfl
  | cons c cs ih =>
      rw [utf8Length, List.foldl_cons, List.foldl_cons, ih, ih (0 + c.utf8Size)]
      omega

@[simp] theorem utf8Length_cons
    (c : Char)
    (cs : List Char) :
    utf8Length (c :: cs) = c.utf8Size + utf8Length cs := by
  rw [utf8Length, List.foldl_cons, foldl_utf8Size, Nat.zero_add]

@[simp] theorem utf8Length_append
    (first second : List Char) :
    utf8Length (first ++ second) = utf8Length first + utf8Length second := by
  rw [utf8Length, List.foldl_append, foldl_utf8Size]
  rfl

theorem utf8Length_toList
    (s : String) :
    utf8Length s.toList = s.utf8ByteSize := by
  have hbytes : ∀ cs : List Char, (String.ofList cs).utf8ByteSize = utf8Length cs := by
    intro cs
    induction cs with
    | nil =>
        rfl
    | cons c cs ih =>
        rw [← List.singleton_append, String.ofList_append, String.utf8ByteSize_append, ih,
          ← String.singleton_eq_ofList, String.utf8ByteSize_singleton, utf8Length_append,
          utf8Length_cons, utf8Length_nil, Nat.add_zero]
  rw [← hbytes, String.ofList_toList]

theorem dropBytes_append
    (front rest : List Char) :
    dropBytes (utf8Length front) (front ++ rest) = some rest := by
  induction front with
  | nil =>
      rw [utf8Length_nil, List.nil_append, dropBytes]
  | cons c front ih =>
      obtain ⟨n, hn⟩ : ∃ n, utf8Length (c :: front) = n + 1 := by
        rw [utf8Length_cons]
        exact ⟨_, (Nat.succ_pred_eq_of_pos (Nat.add_pos_left c.utf8Size_pos _)).symm⟩
      have hsum := hn
      rw [utf8Length_cons] at hsum
      have hleft : n + 1 - c.utf8Size = utf8Length front := by
        omega
      rw [hn, List.cons_append, dropBytes, if_pos (by omega), hleft, ih]

/-- What is left after some bytes stands behind a beginning of as many bytes. -/
theorem dropBytes_eq_some_iff
    {offset : Nat}
    {cs rest : List Char} :
    dropBytes offset cs = some rest ↔
      ∃ front, cs = front ++ rest ∧ utf8Length front = offset := by
  constructor
  · intro h
    fun_induction dropBytes offset cs with
    | case1 cs =>
        cases h
        exact ⟨[], rfl, rfl⟩
    | case2 n =>
        cases h
    | case3 n c cs hc ih =>
        obtain ⟨front, rfl, hfront⟩ := ih h
        refine ⟨c :: front, rfl, ?_⟩
        rw [utf8Length_cons]
        omega
    | case4 n c cs hc =>
        cases h
  · rintro ⟨front, rfl, rfl⟩
    exact dropBytes_append front rest

/-- The cut falls inside a character. -/
def FallsInside (offset : Nat) (cs : List Char) : Prop :=
  ∃ front c rest, cs = front ++ c :: rest ∧
    utf8Length front < offset ∧ offset < utf8Length front + c.utf8Size

/-- Within a text, a cut fails exactly if it falls inside a character. -/
theorem dropBytes_eq_none_iff
    {offset : Nat}
    {cs : List Char}
    (h : offset ≤ utf8Length cs) :
    dropBytes offset cs = none ↔ FallsInside offset cs := by
  constructor
  · intro hnone
    fun_induction dropBytes offset cs with
    | case1 cs =>
        cases hnone
    | case2 n =>
        exact absurd h (by simp)
    | case3 n c cs hc ih =>
        rw [utf8Length_cons] at h
        obtain ⟨front, d, rest, rfl, hfront, hd⟩ := ih (by omega) hnone
        refine ⟨c :: front, d, rest, rfl, ?_, ?_⟩
        · rw [utf8Length_cons]
          omega
        · rw [utf8Length_cons]
          omega
    | case4 n c cs hc =>
        refine ⟨[], c, cs, rfl, Nat.succ_pos n, ?_⟩
        rw [utf8Length_nil]
        omega
  · rintro ⟨front, c, rest, rfl, hfront, hc⟩
    rw [Option.eq_none_iff_forall_ne_some]
    intro after hafter
    -- A beginning of as many bytes would end before or after the character.
    obtain ⟨before, hsplit, hbefore⟩ := dropBytes_eq_some_iff.mp hafter
    rcases List.append_eq_append_iff.mp hsplit with ⟨more, rfl, hmore⟩ | ⟨more, rfl, -⟩
    · rw [utf8Length_append] at hbefore
      cases more with
      | nil =>
          rw [utf8Length_nil] at hbefore
          omega
      | cons d more =>
          obtain ⟨rfl, -⟩ := List.cons.inj hmore
          rw [utf8Length_cons] at hbefore
          omega
    · rw [utf8Length_append] at hfront
      omega

end Text
end SuiteShift
