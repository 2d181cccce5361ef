import SuiteShift.Proofs.Rule.Template

/-!
# Templates cut at their placeholders

A template is text with placeholders between; a skeleton is the same text, cut at the placeholders.

- `Placeholder.mark`: a placeholder as it is written. No two of them overlap, since each has a brace
  at its beginning and no other, `Placeholder.mark_append_inj`, `Placeholder.mark_append_eq`.
- `Skeleton.fill`: some text in each place; with the placeholders there, it is the template.
- `Skeleton.IsCutOf`: no placeholder is left in the text between the places.
- `Skeleton.IsCutOf.occurs_iff`: every placeholder of the template is one of the places.
- `Skeleton.cut`: a template has one such skeleton, `Skeleton.IsCutOf.unique`, and the rendered text
  is that skeleton with the values in its places, `renderFrom_eq_fill`.
-/

namespace SuiteShift
namespace Rule

/-- What a template leaves open. -/
inductive Placeholder where
  | locator
  | args
deriving DecidableEq, Repr

namespace Placeholder

variable {hole other : Placeholder}

/-- The placeholder in a template. -/
def mark : Placeholder → List Char
  | .locator => locatorMark
  | .args => argsMark

/-- The text that takes the place of a placeholder. -/
def value (locator args : List Char) : Placeholder → List Char
  | .locator => locator
  | .args => args

/-- A placeholder has a brace at its beginning and no other. -/
theorem exists_mark_eq_cons
    (hole : Placeholder) :
    ∃ tail, hole.mark = '\x7b' :: tail ∧ '\x7b' ∉ tail := by
  cases hole with
  | locator =>
      exact ⟨_, rfl, by decide⟩
  | args =>
      exact ⟨_, rfl, by decide⟩

theorem count_brace_mark
    (hole : Placeholder) :
    hole.mark.count '\x7b' = 1 := by
  cases hole <;> decide

/-- The placeholder at the beginning of a text is told by its second character. -/
theorem mark_append_inj
    {after rest : List Char}
    (h : hole.mark ++ after = other.mark ++ rest) :
    hole = other ∧ after = rest := by
  by_cases heq : hole = other
  · subst heq
    exact ⟨rfl, List.append_cancel_left h⟩
  · have hlocator : locator.mark = '\x7b' :: 'l' :: "ocator\x7d".toList := by
      decide
    have hargs : args.mark = '\x7b' :: 'a' :: "rgs\x7d".toList := by
      decide
    cases hole <;> cases other <;> simp [hlocator, hargs] at h heq

/-- A placeholder that begins before another one also ends before it. -/
theorem mark_append_eq
    {after front rest : List Char}
    (h : hole.mark ++ after = front ++ (other.mark ++ rest))
    (hfront : front ≠ []) :
    ∃ more, front = hole.mark ++ more ∧ after = more ++ (other.mark ++ rest) := by
  rcases List.append_eq_append_iff.mp h with ⟨more, rfl, hafter⟩ | ⟨more, hmark, hrest⟩
  · exact ⟨more, rfl, hafter⟩
  · cases more with
    | nil =>
        rw [List.append_nil] at hmark
        exact ⟨[], by rw [hmark, List.append_nil], hrest.symm⟩
    | cons c more =>
        -- The brace of the second placeholder would be inside of the first.
        obtain ⟨tail, htail, hbrace⟩ := hole.exists_mark_eq_cons
        obtain ⟨otherTail, hother, -⟩ := other.exists_mark_eq_cons
        obtain ⟨d, front, rfl⟩ := List.exists_cons_of_ne_nil hfront
        rw [hother, List.cons_append, List.cons_append] at hrest
        rw [htail, List.cons_append] at hmark
        rw [(List.cons.inj hmark).2, ← (List.cons.inj hrest).1] at hbrace
        simp at hbrace

end Placeholder

/-- Text with places between. -/
inductive Skeleton where
  | text (last : List Char)
  | place (before : List Char) (hole : Placeholder) (rest : Skeleton)
deriving DecidableEq, Repr

namespace Skeleton

variable {skeleton front back : Skeleton} {hole : Placeholder} {before after template : List Char}

/-- The skeleton with a text in each place. -/
def fill (value : Placeholder → List Char) : Skeleton → List Char
  | .text last => last
  | .place before hole rest => before ++ (value hole ++ rest.fill value)

/-- No placeholder is left in the text between the places. -/
def IsPlain : Skeleton → Prop
  | .text last => ∀ hole : Placeholder, Text.contains hole.mark last = false
  | .place before _ rest =>
    (∀ hole : Placeholder, Text.contains hole.mark before = false) ∧ rest.IsPlain

/-- The skeleton is the template, cut at its placeholders. -/
structure IsCutOf (skeleton : Skeleton) (template : List Char) : Prop where
  plain : skeleton.IsPlain
  whole : skeleton.fill Placeholder.mark = template

/-- One skeleton after another, with a place between them. -/
def plug : Skeleton → Placeholder → Skeleton → Skeleton
  | .text last, hole, back => .place last hole back
  | .place before other rest, hole, back => .place before other (rest.plug hole back)

@[simp] theorem fill_plug
    (value : Placeholder → List Char)
    (hole : Placeholder)
    (front back : Skeleton) :
    (front.plug hole back).fill value =
      front.fill value ++ (value hole ++ back.fill value) := by
  induction front with
  | text last =>
      rfl
  | place before other rest ih =>
      simp [plug, fill, ih]

theorem isPlain_plug_iff :
    (front.plug hole back).IsPlain ↔ front.IsPlain ∧ back.IsPlain := by
  induction front with
  | text last =>
      rfl
  | place before other rest ih =>
      rw [plug, IsPlain, IsPlain, ih, and_assoc]

/-- A placeholder in a template is one of the places. -/
theorem exists_plug
    (h : skeleton.IsPlain)
    (hoccurs : skeleton.fill Placeholder.mark = before ++ (hole.mark ++ after)) :
    ∃ front back : Skeleton,
      skeleton = front.plug hole back ∧ front.fill Placeholder.mark = before ∧
      back.fill Placeholder.mark = after := by
  induction skeleton generalizing before with
  | text last =>
      rw [fill, ← List.append_assoc] at hoccurs
      have hcontains := h hole
      rw [hoccurs, Text.contains_append] at hcontains
      cases hcontains
  | place first other rest ih =>
      obtain ⟨hfirst, hrest⟩ := h
      rw [fill] at hoccurs
      rcases List.append_eq_append_iff.mp hoccurs with ⟨more, rfl, hmore⟩ | ⟨more, rfl, hmore⟩
      · cases more with
        | nil =>
            rw [List.nil_append] at hmore
            obtain ⟨rfl, hafter⟩ := Placeholder.mark_append_inj hmore
            exact ⟨.text first, rest, rfl, by rw [fill, List.append_nil], hafter⟩
        | cons c more =>
            -- The placeholder is behind the first place.
            obtain ⟨between, hbetween, hfill⟩ :=
              Placeholder.mark_append_eq hmore (List.cons_ne_nil c more)
            obtain ⟨front, back, rfl, hfront, hback⟩ := ih hrest hfill
            exact ⟨.place first other front, back, rfl, by rw [fill, hfront, hbetween], hback⟩
      · cases more with
        | nil =>
            rw [List.nil_append] at hmore
            obtain ⟨rfl, hafter⟩ := Placeholder.mark_append_inj hmore
            exact ⟨.text before, rest, by rw [plug, List.append_nil], rfl, hafter.symm⟩
        | cons c more =>
            -- It would be in the text before the first place.
            obtain ⟨between, hbetween, -⟩ :=
              Placeholder.mark_append_eq hmore (List.cons_ne_nil c more)
            have hcontains := hfirst hole
            rw [hbetween, ← List.append_assoc, Text.contains_append] at hcontains
            cases hcontains

/-- Every placeholder of the template is one of the places, and every place is one of them. -/
theorem IsCutOf.occurs_iff
    (h : skeleton.IsCutOf template) :
    template = before ++ (hole.mark ++ after) ↔
      ∃ front back : Skeleton,
        skeleton = front.plug hole back ∧ front.fill Placeholder.mark = before ∧
        back.fill Placeholder.mark = after := by
  constructor
  · rintro rfl
    exact exists_plug h.plain h.whole
  · rintro ⟨front, back, rfl, rfl, rfl⟩
    rw [← h.whole, fill_plug]

/-- A template can be cut in one way only. -/
theorem eq_of_fill_mark
    {other : Skeleton}
    (h : skeleton.IsPlain)
    (hother : other.IsPlain)
    (hfill : skeleton.fill Placeholder.mark = other.fill Placeholder.mark) :
    skeleton = other := by
  induction skeleton generalizing other with
  | text last =>
      cases other with
      | text otherLast =>
          exact congrArg Skeleton.text hfill
      | place before hole rest =>
          obtain ⟨front, back, hplug, -, -⟩ := exists_plug h hfill
          cases front <;> cases hplug
  | place before hole rest ih =>
      obtain ⟨front, back, rfl, hfront, hback⟩ := exists_plug hother hfill.symm
      obtain ⟨-, hplain⟩ := isPlain_plug_iff.mp hother
      obtain rfl := ih h.2 hplain hback.symm
      cases front with
      | text last =>
          exact congrArg (Skeleton.place · hole rest) hfront.symm
      | place first earlier more =>
          have hcontains := h.1 earlier
          rw [← hfront, fill, ← List.append_assoc, Text.contains_append] at hcontains
          cases hcontains

theorem IsCutOf.unique
    {other : Skeleton}
    (h : skeleton.IsCutOf template)
    (hother : other.IsCutOf template) :
    skeleton = other := by
  exact eq_of_fill_mark h.plain hother.plain (h.whole.trans hother.whole.symm)

/-! ### Cutting a template -/

/-- A character before the first text. -/
def cons (c : Char) : Skeleton → Skeleton
  | .text last => .text (c :: last)
  | .place before hole rest => .place (c :: before) hole rest

/-- Cuts a template at its placeholders; the number counts the characters of a placeholder that are
still to be skipped. -/
def cut : Nat → List Char → Skeleton
  | _, [] => .text []
  | skip + 1, _ :: cs => cut skip cs
  | 0, c :: cs =>
    if Text.startsWith locatorMark (c :: cs) then
      .place [] .locator (cut (locatorMark.length - 1) cs)
    else if Text.startsWith argsMark (c :: cs) then
      .place [] .args (cut (argsMark.length - 1) cs)
    else
      (cut 0 cs).cons c

@[simp] theorem fill_cons
    (value : Placeholder → List Char)
    (c : Char)
    (skeleton : Skeleton) :
    (skeleton.cons c).fill value = c :: skeleton.fill value := by
  cases skeleton <;> rfl

theorem isPlain_cons
    {c : Char}
    (h : skeleton.IsPlain)
    (hstart : ∀ hole : Placeholder,
      Text.startsWith hole.mark (c :: skeleton.fill Placeholder.mark) = false) :
    (skeleton.cons c).IsPlain := by
  have hcons : ∀ {text rest : List Char} {hole : Placeholder},
      Text.contains hole.mark text = false →
      Text.startsWith hole.mark (c :: (text ++ rest)) = false →
      Text.contains hole.mark (c :: text) = false := by
    intro text rest hole htext hbegin
    rw [Bool.eq_false_iff, ne_eq, Text.contains_cons_iff]
    rintro (hfirst | hlater)
    · rw [← List.cons_append, Text.startsWith_append hfirst rest] at hbegin
      cases hbegin
    · rw [htext] at hlater
      cases hlater
  cases skeleton with
  | text last =>
      intro hole
      refine @hcons last [] hole (h hole) ?_
      rw [List.append_nil]
      exact hstart hole
  | place before other rest =>
      exact ⟨fun hole => hcons (h.1 hole) (hstart hole), h.2⟩

theorem fill_cut
    (skip : Nat)
    (template : List Char) :
    (cut skip template).fill Placeholder.mark = template.drop skip := by
  induction template generalizing skip with
  | nil =>
      simp [cut, fill]
  | cons c cs ih =>
      cases skip with
      | succ skip =>
          exact ih skip
      | zero =>
          unfold cut
          split_ifs with hlocator hargs
          · rw [fill, ih, List.drop_zero, drop_of_startsWith (by decide) hlocator]
            rfl
          · rw [fill, ih, List.drop_zero, drop_of_startsWith (by decide) hargs]
            rfl
          · rw [fill_cons, ih, List.drop_zero, List.drop_zero]

theorem isPlain_cut
    (skip : Nat)
    (template : List Char) :
    (cut skip template).IsPlain := by
  have hnil : ∀ hole : Placeholder, Text.contains hole.mark [] = false := by
    intro hole
    cases hole <;> rfl
  induction template generalizing skip with
  | nil =>
      exact hnil
  | cons c cs ih =>
      cases skip with
      | succ skip =>
          exact ih skip
      | zero =>
          unfold cut
          split_ifs with hlocator hargs
          · exact ⟨hnil, ih _⟩
          · exact ⟨hnil, ih _⟩
          · refine isPlain_cons (ih 0) fun hole => ?_
            rw [fill_cut, List.drop_zero]
            cases hole with
            | locator =>
                exact Bool.eq_false_iff.mpr hlocator
            | args =>
                exact Bool.eq_false_iff.mpr hargs

/-- Every template can be cut. -/
theorem isCutOf_cut
    (template : List Char) :
    (cut 0 template).IsCutOf template := by
  exact ⟨isPlain_cut 0 template, fill_cut 0 template⟩

end Skeleton

/-! ### Rendering -/

section Rendering

variable (locator args : List Char)

theorem renderFrom_mark
    (hole : Placeholder)
    (rest : List Char) :
    renderFrom locator args 0 (hole.mark ++ rest) =
      Placeholder.value locator args hole ++ renderFrom locator args 0 rest := by
  cases hole with
  | locator =>
      exact renderFrom_locatorMark locator args rest
  | args =>
      exact renderFrom_argsMark locator args rest

/-- A character at which no placeholder begins is kept. -/
theorem renderFrom_cons
    {c : Char}
    {cs : List Char}
    (h : ∀ hole : Placeholder, Text.startsWith hole.mark (c :: cs) = false) :
    renderFrom locator args 0 (c :: cs) = c :: renderFrom locator args 0 cs := by
  have hlocator : Text.startsWith locatorMark (c :: cs) = false := h .locator
  have hargs : Text.startsWith argsMark (c :: cs) = false := h .args
  rw [renderFrom, hlocator, hargs]
  rfl

/-- Rendering puts the values into the places. -/
theorem renderFrom_eq_fill_cut
    (skip : Nat)
    (template : List Char) :
    renderFrom locator args skip template =
      (Skeleton.cut skip template).fill (Placeholder.value locator args) := by
  induction template generalizing skip with
  | nil =>
      simp [renderFrom, Skeleton.cut, Skeleton.fill]
  | cons c cs ih =>
      cases skip with
      | succ skip =>
          exact ih skip
      | zero =>
          unfold renderFrom Skeleton.cut
          split_ifs
          · rw [ih]
            rfl
          · rw [ih]
            rfl
          · rw [ih, Skeleton.fill_cons]

theorem renderFrom_eq_fill
    {skeleton : Skeleton}
    {template : List Char}
    (h : skeleton.IsCutOf template) :
    renderFrom locator args 0 template =
      skeleton.fill (Placeholder.value locator args) := by
  rw [renderFrom_eq_fill_cut, h.unique (Skeleton.isCutOf_cut template)]

end Rendering

end Rule
end SuiteShift
