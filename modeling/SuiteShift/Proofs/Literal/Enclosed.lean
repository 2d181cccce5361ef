import SuiteShift.Proofs.Literal.Arguments
import SuiteShift.Proofs.Literal.Quoted

/-!
# Text between brackets

- `PassedOver`: a scan comes back to where it began and meets no comma outside of all nesting. Such
  texts can be put one after another, `PassedOver.append`.
- `run_within`, `strayFree_within`, `commaFree_within`: a text without stray closing brackets,
  scanned inside of brackets that are open already.
- `passedOver_enclosed`: brackets of any kind around well nested text are passed over as a whole.
- `isQuotedChars_quote`: a literal that was written is told from an expression.
-/

namespace SuiteShift
namespace Literal

namespace Nesting

/-! ### Inside of open brackets -/

theorem isStray_within
    {n : Nesting}
    {c : Char}
    (h : n.isStray c = false)
    (outer : Nesting) :
    (within outer n).isStray c = false := by
  simp only [isStray, within, Bool.and_eq_false_imp, Bool.or_eq_false_iff, beq_iff_eq,
    beq_eq_false_iff_ne] at h ⊢
  intro hquote
  obtain ⟨⟨hbrace, hbracket⟩, hparen⟩ := h hquote
  refine ⟨⟨?_, ?_⟩, ?_⟩
  · intro hc
    have hopen := hbrace hc
    omega
  · intro hc
    have hopen := hbracket hc
    omega
  · intro hc
    have hopen := hparen hc
    omega

/-- Text without stray closing brackets moves a scan inside of brackets as it does outside. -/
theorem run_within
    {n : Nesting}
    {cs : List Char}
    (h : n.strayFree cs = true)
    (outer : Nesting) :
    (within outer n).run cs = within outer (n.run cs) := by
  induction cs generalizing n with
  | nil =>
      rfl
  | cons c cs ih =>
      simp only [strayFree, Bool.and_eq_true, Bool.not_eq_true'] at h
      rw [run_cons, run_cons, step_within outer h.1, ih h.2]

theorem strayFree_within
    {n : Nesting}
    {cs : List Char}
    (h : n.strayFree cs = true)
    (outer : Nesting) :
    (within outer n).strayFree cs = true := by
  induction cs generalizing n with
  | nil =>
      rfl
  | cons c cs ih =>
      simp only [strayFree, Bool.and_eq_true, Bool.not_eq_true'] at h ⊢
      rw [step_within outer h.1]
      exact ⟨isStray_within h.1 outer, ih h.2⟩

/-- Inside of brackets no comma is outside of all nesting. -/
theorem commaFree_within
    {n : Nesting}
    {cs : List Char}
    (h : n.strayFree cs = true)
    {outer : Nesting}
    (houter : 0 < outer.braces + outer.brackets + outer.parens) :
    (within outer n).commaFree cs = true := by
  induction cs generalizing n with
  | nil =>
      rfl
  | cons c cs ih =>
      simp only [strayFree, Bool.and_eq_true, Bool.not_eq_true'] at h
      have hdeep : (within outer n).isTop = false := by
        rw [Bool.eq_false_iff]
        intro htop
        simp only [isTop, within, Bool.and_eq_true, beq_iff_eq] at htop
        omega
      rw [commaFree, hdeep, Bool.and_false, step_within outer h.1, ih h.2]
      rfl

end Nesting

/-! ### Passing over a text -/

/-- A scan passes over the text: it comes back to where it began, and finds nothing to close and
nothing to separate. -/
structure PassedOver (cs : List Char) : Prop where
  back : Nesting.run {} cs = {}
  strayFree : Nesting.strayFree {} cs = true
  commaFree : Nesting.commaFree {} cs = true

instance (cs : List Char) : Decidable (PassedOver cs) :=
  decidable_of_iff (Nesting.run {} cs = {} ∧ Nesting.strayFree {} cs = true ∧
      Nesting.commaFree {} cs = true)
    ⟨fun h => ⟨h.1, h.2.1, h.2.2⟩, fun h => ⟨h.back, h.strayFree, h.commaFree⟩⟩

namespace PassedOver

variable {cs ds : List Char}

theorem append
    (h : PassedOver cs)
    (h' : PassedOver ds) :
    PassedOver (cs ++ ds) := by
  refine ⟨?_, ?_, ?_⟩
  · rw [Nesting.run_append, h.back, h'.back]
  · rw [Nesting.strayFree_append, h.strayFree, h.back, h'.strayFree]
    rfl
  · rw [Nesting.commaFree_append, h.commaFree, h.back, h'.commaFree]
    rfl

theorem wellNested
    (h : PassedOver cs) :
    WellNested cs := by
  exact ⟨h.strayFree, by rw [h.back]; rfl⟩

theorem isArgument
    (h : PassedOver cs)
    (hne : cs ≠ [])
    (htrimmed : Text.trimChars cs = cs) :
    IsArgument cs := by
  exact ⟨hne, htrimmed, h.commaFree, by rw [h.back]; rfl⟩

end PassedOver

theorem passedOver_of_isBlank
    {cs : List Char}
    (h : ∀ c ∈ cs, Text.isBlank c = true) :
    PassedOver cs := by
  induction cs with
  | nil =>
      decide
  | cons c cs ih =>
      have hactive := Nesting.isActive_of_isBlank (h c List.mem_cons_self)
      have hcomma : (c == ',') = false := by
        rw [beq_eq_false_iff_ne]
        rintro rfl
        exact absurd (h ',' List.mem_cons_self) (by decide)
      have hrest := ih fun d hd => h d (List.mem_cons_of_mem _ hd)
      refine @PassedOver.append [c] cs ?_ hrest
      simp only [Nesting.isActive, Bool.or_eq_false_iff, beq_eq_false_iff_ne] at hactive
      refine ⟨?_, ?_, ?_⟩
      · simp [Nesting.run_cons, Nesting.step, hactive]
      · simp [Nesting.strayFree, Nesting.isStray, hactive]
      · simp [Nesting.commaFree, hcomma]

/-- Brackets around well nested text are passed over: inside of them nothing is at top level, and
at the end the scan stands where the opening bracket left it. -/
theorem passedOver_enclosed
    {opening closing : Char}
    {outer : Nesting}
    (hopen : Nesting.step {} opening = .within outer {})
    (houter : 0 < outer.braces + outer.brackets + outer.parens)
    (hclose : Nesting.step (.within outer {}) closing = {})
    (hplain : Nesting.isStray {} opening = false ∧
      Nesting.isStray (.within outer {}) closing = false ∧
      (opening == ',') = false ∧ (closing == ',') = false)
    {cs : List Char}
    (h : WellNested cs) :
    PassedOver (opening :: cs ++ [closing]) := by
  obtain ⟨hfree, hend, hfirst, hlast⟩ := hplain
  have hrun : Nesting.run {} (opening :: cs) = .within outer {} := by
    rw [Nesting.run_cons, hopen, Nesting.run_within h.strayFree, Nesting.run_eq_start h.closed]
  refine ⟨?_, ?_, ?_⟩
  · rw [Nesting.run_append, hrun, Nesting.run_cons, hclose, Nesting.run_nil]
  · rw [Nesting.strayFree_append, hrun, Nesting.strayFree, hopen, hfree,
      Nesting.strayFree_within h.strayFree, Nesting.strayFree, hend]
    rfl
  · rw [Nesting.commaFree_append, hrun, Nesting.commaFree, hopen, hfirst,
      Nesting.commaFree_within h.strayFree houter, Nesting.commaFree, hlast]
    rfl

theorem passedOver_braces
    {cs : List Char}
    (h : WellNested cs) :
    PassedOver ('\x7b' :: cs ++ ['\x7d']) := by
  have houter : Nesting.step {} '\x7b' = .within { braces := 1 } {} := by
    decide
  exact passedOver_enclosed houter (by decide) (by decide) (by decide) h

theorem passedOver_brackets
    {cs : List Char}
    (h : WellNested cs) :
    PassedOver ('[' :: cs ++ [']']) := by
  have houter : Nesting.step {} '[' = .within { brackets := 1 } {} := by
    decide
  exact passedOver_enclosed houter (by decide) (by decide) (by decide) h

theorem passedOver_parens
    {cs : List Char}
    (h : WellNested cs) :
    PassedOver ('(' :: cs ++ [')']) := by
  have houter : Nesting.step {} '(' = .within { parens := 1 } {} := by
    decide
  exact passedOver_enclosed houter (by decide) (by decide) (by decide) h

/-! ### Literals -/

theorem isPlainBody_encodeChar_append
    (c : Char)
    (rest : List Char) :
    isPlainBody '\'' false (encodeChar c ++ rest) = isPlainBody '\'' false rest := by
  unfold encodeChar
  split_ifs with hback hquote hline hreturn
  · rfl
  · rfl
  · rfl
  · rfl
  · simp [isPlainBody, hback, hquote]

theorem isPlainBody_encode
    (cs : List Char) :
    isPlainBody '\'' false (encode cs) = true := by
  induction cs with
  | nil =>
      rfl
  | cons c cs ih =>
      rw [encode_cons, isPlainBody_encodeChar_append, ih]

/-- A literal that was written is recognized as one. -/
theorem isQuotedChars_quote
    (s : String) :
    isQuotedChars (quote s).toList = true := by
  rw [quote, String.toList_ofList, isQuotedChars_quoted rfl, isPlainBody_encode]

end Literal
end SuiteShift
