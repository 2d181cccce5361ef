import SuiteShift.Proofs.Rule.Skeleton

/-!
# Placeholders are filled in at once

A template can be filled in by a search that goes from one opening brace to the next. What it writes
is not searched again.

- `Placeholder.opening?`: the placeholder at the beginning of a text.
- `Filling.next?`: one pass of the search; `Filling.next?_eq_none`, `Filling.exists_next?`: when there
  is none, and what one keeps.
- `Filling.exists_passes`: the search ends after as many passes as the template has opening braces,
  with the rendered text.
- `placeholders_filled_at_once`: the template is cut at its placeholders in one way, the rendered text
  has the values between the same texts, and the search comes to it.
-/

namespace SuiteShift
namespace Rule

namespace Placeholder

variable {hole : Placeholder} {cs after : List Char}

/-- The placeholder at the beginning of a text, and what follows it. -/
def opening? (cs : List Char) : Option (Placeholder × List Char) :=
  match Text.stripStart locatorMark cs with
  | some after => some (.locator, after)
  | none => (Text.stripStart argsMark cs).map fun after => (.args, after)

theorem eq_append_of_opening?
    (h : opening? cs = some (hole, after)) :
    cs = hole.mark ++ after := by
  unfold opening? at h
  split at h
  · next rest hlocator =>
      obtain ⟨rfl, rfl⟩ := Prod.mk.inj (Option.some.inj h)
      exact Text.stripStart_eq_some_iff.mp hlocator
  · obtain ⟨rest, hargs, hparts⟩ := Option.map_eq_some_iff.mp h
    obtain ⟨rfl, rfl⟩ := Prod.mk.inj hparts
    exact Text.stripStart_eq_some_iff.mp hargs

theorem startsWith_of_opening?_eq_none
    (h : opening? cs = none)
    (hole : Placeholder) :
    Text.startsWith hole.mark cs = false := by
  unfold opening? at h
  split at h
  · cases h
  · next hlocator =>
      cases hole with
      | locator =>
          rw [mark, Text.startsWith, hlocator]
          rfl
      | args =>
          rw [mark, Text.startsWith, Option.map_eq_none_iff.mp h]
          rfl

end Placeholder

/-- A template that is being filled in: what is written, and what is left of the template. -/
structure Filling where
  written : List Char
  rest : List Char
deriving DecidableEq, Repr

namespace Filling

variable {locator args : List Char} {state : Filling}

/-- One pass of the search: up to the next opening brace, and over the placeholder that it opens, or
over the brace alone. -/
def next? (value : Placeholder → List Char) (state : Filling) : Option Filling :=
  (Text.splitOnce ['\x7b'] state.rest).map fun (front, tail) =>
    match Placeholder.opening? ('\x7b' :: tail) with
    | some (hole, after) => ⟨state.written ++ front ++ value hole, after⟩
    | none => ⟨state.written ++ front ++ ['\x7b'], tail⟩

/-- A search of so many passes; the last state allows no other. -/
inductive Passes (value : Placeholder → List Char) : Nat → Filling → Filling → Prop
  | done
      {state : Filling}
      (hend : state.next? value = none) :
      Passes value 0 state state
  | pass
      {count : Nat}
      {state next last : Filling}
      (hnext : state.next? value = some next)
      (more : Passes value count next last) :
      Passes value (count + 1) state last

theorem next?_eq_none
    {value : Placeholder → List Char}
    (h : '\x7b' ∉ state.rest) :
    state.next? value = none := by
  rw [next?, Text.splitOnce_singleton_of_not_mem h, Option.map_none]

/-- A pass takes one opening brace from the template; what is written, together with the rendered
rest, stays the same. -/
theorem exists_next?
    (h : '\x7b' ∈ state.rest) :
    ∃ next,
      state.next? (Placeholder.value locator args) = some next ∧
      state.rest.count '\x7b' = next.rest.count '\x7b' + 1 ∧
      next.written ++ renderFrom locator args 0 next.rest =
        state.written ++ renderFrom locator args 0 state.rest := by
  obtain ⟨written, rest⟩ := state
  obtain ⟨front, tail, rfl, hfront⟩ := List.eq_append_cons_of_mem h
  have hcount := List.count_eq_zero_of_not_mem hfront
  have hsplit := Text.splitOnce_singleton_append hfront tail
  cases hopening : Placeholder.opening? ('\x7b' :: tail) with
  | some parts =>
      obtain ⟨hole, after⟩ := parts
      have htail := Placeholder.eq_append_of_opening? hopening
      refine ⟨⟨written ++ front ++ Placeholder.value locator args hole, after⟩, ?_, ?_, ?_⟩
      · simp only [next?, hsplit, Option.map_some, hopening]
      · rw [htail, List.count_append, List.count_append, hcount, hole.count_brace_mark,
          Nat.zero_add, Nat.add_comm]
      · rw [htail, renderFrom_append _ _ hfront, renderFrom_mark]
        simp only [List.append_assoc]
  | none =>
      have hbare := Placeholder.startsWith_of_opening?_eq_none hopening
      refine ⟨⟨written ++ front ++ ['\x7b'], tail⟩, ?_, ?_, ?_⟩
      · simp only [next?, hsplit, Option.map_some, hopening]
      · rw [List.count_append, hcount, List.count_cons_self, Nat.zero_add]
      · rw [renderFrom_append _ _ hfront, renderFrom_cons _ _ hbare]
        simp only [List.append_assoc, List.singleton_append]

/-- The search makes as many passes as the template has opening braces, whatever it writes, and then
the text is the rendered one. -/
theorem exists_passes
    (locator args : List Char)
    (state : Filling) :
    ∃ last,
      Passes (Placeholder.value locator args) (state.rest.count '\x7b') state last ∧
      last.written ++ last.rest = state.written ++ renderFrom locator args 0 state.rest := by
  generalize hcount : state.rest.count '\x7b' = count
  induction count generalizing state with
  | zero =>
      have hbrace : '\x7b' ∉ state.rest := List.count_eq_zero.mp hcount
      refine ⟨state, .done (next?_eq_none hbrace), ?_⟩
      have hrest := renderFrom_append locator args hbrace []
      rw [List.append_nil, renderFrom, List.append_nil] at hrest
      rw [hrest]
  | succ count ih =>
      have hbrace : '\x7b' ∈ state.rest := List.count_pos_iff.mp (by omega)
      obtain ⟨next, hnext, hbraces, hrendered⟩ := @exists_next? locator args state hbrace
      obtain ⟨last, hpasses, htext⟩ := ih next (by omega)
      exact ⟨last, .pass hnext hpasses, htext.trans hrendered⟩

end Filling

/-- Every template is cut at its placeholders in exactly one way. Its places are all placeholders
that occur in it, and the rendered text is the same texts with the values in those places. So a
template in which each placeholder is replaced by itself stays as it is. A search from one opening
brace to the next ends at the rendered text, after as many passes as the template has of them. -/
theorem placeholders_filled_at_once
    (template : String) :
    (∃! skeleton : Skeleton, skeleton.IsCutOf template.toList) ∧
    (∀ skeleton : Skeleton, skeleton.IsCutOf template.toList →
      (∀ before hole after,
        template.toList = before ++ (Placeholder.mark hole ++ after) ↔
          ∃ front back : Skeleton,
            skeleton = front.plug hole back ∧ front.fill Placeholder.mark = before ∧
            back.fill Placeholder.mark = after) ∧
      ∀ (locator : String) (args : List Value),
        (renderTemplate template locator args).toList =
          skeleton.fill (Placeholder.value locator.toList (Value.codeList args).toList)) ∧
    renderTemplate template "\x7blocator\x7d" [.raw "\x7bargs\x7d"] = template ∧
    ∀ (locator : String) (args : List Value),
      ∃ last : Filling,
        Filling.Passes (Placeholder.value locator.toList (Value.codeList args).toList)
          (template.toList.count '\x7b') ⟨[], template.toList⟩ last ∧
        (renderTemplate template locator args).toList = last.written ++ last.rest := by
  have hfill : ∀ skeleton : Skeleton, skeleton.IsCutOf template.toList →
      ∀ (locator : String) (args : List Value),
        (renderTemplate template locator args).toList =
          skeleton.fill (Placeholder.value locator.toList (Value.codeList args).toList) := by
    intro skeleton h locator args
    rw [renderTemplate, String.toList_ofList, renderFrom_eq_fill _ _ h]
  have hcut := Skeleton.isCutOf_cut template.toList
  refine ⟨⟨_, hcut, fun other hother => hother.unique hcut⟩, ?_, ?_, ?_⟩
  · intro skeleton h
    exact ⟨fun before hole after => h.occurs_iff, hfill skeleton h⟩
  · have hmark : Placeholder.value "\x7blocator\x7d".toList
        (Value.codeList [.raw "\x7bargs\x7d"]).toList = Placeholder.mark := by
      funext hole
      cases hole <;> rfl
    rw [← String.toList_inj, hfill _ hcut, hmark, hcut.whole]
  · intro locator args
    obtain ⟨last, hpasses, htext⟩ := Filling.exists_passes locator.toList
      (Value.codeList args).toList ⟨[], template.toList⟩
    refine ⟨last, hpasses, ?_⟩
    rw [renderTemplate, String.toList_ofList, htext, List.nil_append]

/-- Braces that open nothing, before and between the placeholders, and values that look like
placeholders. -/
theorem placeholders_filled_at_once_braces :
    (Skeleton.place "\x7b\x7b a: ".toList .args
        (.place "\x7d".toList .locator (.text "\x7barg\x7d".toList))).IsCutOf
      "\x7b\x7b a: \x7bargs\x7d\x7d\x7blocator\x7d\x7barg\x7d".toList ∧
    (renderTemplate "\x7b\x7b a: \x7bargs\x7d\x7d\x7blocator\x7d\x7barg\x7d" "\x7bargs\x7d"
        [.string "\x7blocator\x7d", .raw "\x7b"]).toList =
      "\x7b\x7b a: '\x7blocator\x7d', \x7b\x7d\x7bargs\x7d\x7barg\x7d".toList := by
  have hcut : (Skeleton.place "\x7b\x7b a: ".toList .args
        (.place "\x7d".toList .locator (.text "\x7barg\x7d".toList))).IsCutOf
      "\x7b\x7b a: \x7bargs\x7d\x7d\x7blocator\x7d\x7barg\x7d".toList := by
    refine ⟨⟨?_, ?_, ?_⟩, by decide⟩ <;> intro hole <;> cases hole <;> decide
  obtain ⟨-, hfilled, -⟩ := placeholders_filled_at_once
    "\x7b\x7b a: \x7bargs\x7d\x7d\x7blocator\x7d\x7barg\x7d"
  refine ⟨hcut, ?_⟩
  rw [(hfilled _ hcut).2]
  decide

end Rule
end SuiteShift
