import SuiteShift.Proofs.Rule.Code

/-!
# Rendered templates

A template is text with the place of the locator at its beginning, the place of the arguments
inside, or neither. The equations give the rendered text.

- `isPlain`: no placeholder starts anywhere; `renderTemplate_of_isPlain`.
- `renderTemplate_locator`: text after the locator.
- `renderTemplate_args`, `renderTemplate_locator_args`: text around the arguments.
-/

namespace SuiteShift
namespace Rule

/-- No placeholder starts in the text. -/
def isPlain : List Char → Bool
  | [] => true
  | c :: cs =>
    !Text.startsWith locatorMark (c :: cs) && !Text.startsWith argsMark (c :: cs) && isPlain cs

section Rendering

variable (locator args : List Char)

theorem renderFrom_of_isPlain
    {text : List Char}
    (h : isPlain text = true) :
    renderFrom locator args 0 text = text := by
  induction text with
  | nil =>
      rfl
  | cons c cs ih =>
      simp only [isPlain, Bool.and_eq_true, Bool.not_eq_true'] at h
      obtain ⟨⟨hlocator, hargs⟩, hrest⟩ := h
      rw [renderFrom, hlocator, hargs, ih hrest]
      simp

theorem renderFrom_locatorMark
    (text : List Char) :
    renderFrom locator args 0 (locatorMark ++ text) =
      locator ++ renderFrom locator args 0 text := by
  rfl

theorem renderFrom_argsMark
    (text : List Char) :
    renderFrom locator args 0 (argsMark ++ text) =
      args ++ renderFrom locator args 0 text := by
  rfl

/-- Both placeholders start with a brace, so text without one is kept. -/
theorem renderFrom_append
    {front : List Char}
    (h : '\x7b' ∉ front)
    (text : List Char) :
    renderFrom locator args 0 (front ++ text) =
      front ++ renderFrom locator args 0 text := by
  induction front with
  | nil =>
      rfl
  | cons c cs ih =>
      rw [List.mem_cons, not_or] at h
      have hplain : ∀ mark : List Char, mark.head? = some '\x7b' →
          Text.startsWith mark (c :: (cs ++ text)) = false := by
        intro mark hmark
        rw [← Bool.not_eq_true, Text.startsWith_iff]
        rintro ⟨rest, hrest⟩
        cases mark with
        | nil =>
            cases hmark
        | cons d ds =>
            cases hmark
            exact h.1 (List.cons.inj hrest).1.symm
      rw [List.cons_append, renderFrom, hplain locatorMark rfl, hplain argsMark rfl, ih h.2]
      rfl

end Rendering

theorem renderTemplate_of_isPlain
    {template : String}
    (h : isPlain template.toList = true)
    (locator : String)
    (args : List Value) :
    renderTemplate template locator args = template := by
  rw [renderTemplate, renderFrom_of_isPlain _ _ h, String.ofList_toList]

theorem renderTemplate_locator
    (template tail : String)
    (htemplate : template.toList = locatorMark ++ tail.toList)
    (htail : isPlain tail.toList = true)
    (locator : String)
    (args : List Value) :
    renderTemplate template locator args = locator ++ tail := by
  rw [renderTemplate, htemplate, renderFrom_locatorMark, renderFrom_of_isPlain _ _ htail,
    ← String.toList_append, String.ofList_toList]

theorem renderTemplate_args
    (template opening closing : String)
    (htemplate : template.toList = opening.toList ++ (argsMark ++ closing.toList))
    (hopening : '\x7b' ∉ opening.toList)
    (hclosing : isPlain closing.toList = true)
    (locator : String)
    (args : List Value) :
    renderTemplate template locator args =
      opening ++ Value.codeList args ++ closing := by
  rw [renderTemplate, htemplate, renderFrom_append _ _ hopening, renderFrom_argsMark,
    renderFrom_of_isPlain _ _ hclosing, ← List.append_assoc, ← String.toList_append,
    ← String.toList_append, String.ofList_toList]

theorem renderTemplate_locator_args
    (template opening closing : String)
    (htemplate :
      template.toList = locatorMark ++ (opening.toList ++ (argsMark ++ closing.toList)))
    (hopening : '\x7b' ∉ opening.toList)
    (hclosing : isPlain closing.toList = true)
    (locator : String)
    (args : List Value) :
    renderTemplate template locator args =
      locator ++ opening ++ Value.codeList args ++ closing := by
  rw [renderTemplate, htemplate, renderFrom_locatorMark, renderFrom_append _ _ hopening,
    renderFrom_argsMark, renderFrom_of_isPlain _ _ hclosing, ← List.append_assoc,
    ← List.append_assoc, ← String.toList_append, ← String.toList_append, ← String.toList_append,
    String.ofList_toList]

end Rule
end SuiteShift
