import SuiteShift.Proofs.Literal.Enclosed

/-!
# Written literals

Whatever text it is written for, a literal is one line, and is read as that text by all that read
literals.

- `not_mem_quote`: the line ends of the text are escaped.
- `quote_within`: a scan is inside of the literal from its first character to its last.
- `requote_quote`, `requote_requote`: what was written once is not changed by writing it again.
- `quote_round_trip`: all of it together.
-/

namespace SuiteShift
namespace Literal

/-! ### Line ends -/

theorem not_mem_encodeChar
    {lineEnd : Char}
    (h : lineEnd = '\n' ∨ lineEnd = '\r')
    (c : Char) :
    lineEnd ∉ encodeChar c := by
  unfold encodeChar
  split_ifs with hback hquote hline hreturn
  · rcases h with rfl | rfl <;> decide
  · rcases h with rfl | rfl <;> decide
  · rcases h with rfl | rfl <;> decide
  · rcases h with rfl | rfl <;> decide
  · rw [List.mem_singleton]
    rintro rfl
    rcases h with rfl | rfl
    · exact hline rfl
    · exact hreturn rfl

/-- A written literal is one line. -/
theorem not_mem_quote
    {lineEnd : Char}
    (h : lineEnd = '\n' ∨ lineEnd = '\r')
    (s : String) :
    lineEnd ∉ (quote s).toList := by
  have hbody : lineEnd ∉ encode s.toList := by
    intro hmem
    obtain ⟨c, -, hc⟩ := List.mem_flatMap.mp hmem
    exact not_mem_encodeChar h c hc
  have hdelimiter : lineEnd ≠ '\'' := by
    rcases h with rfl | rfl <;> decide
  rw [quote, String.toList_ofList]
  simp [hbody, hdelimiter]

/-! ### Inside of a literal -/

/-- Within the one or two characters that stand for a character, the literal is still open. -/
theorem run_prefix_encodeChar
    {c : Char}
    {front : List Char}
    (h : front <+: encodeChar c) :
    (betweenQuotes.run front).quote = some '\'' := by
  have hwhole := (scan_encodeChar c).1
  obtain ⟨rear, hsplit⟩ := h
  cases front with
  | nil =>
      rfl
  | cons d front =>
      cases rear with
      | nil =>
          rw [List.append_nil] at hsplit
          rw [hsplit, hwhole]
          rfl
      | cons e rear =>
          -- With something left after it, the first character was a backslash.
          rcases encodeChar_cases c with hchar | ⟨escaped, -, hchar⟩
          · simp [hchar] at hsplit
          · rw [hchar, List.cons_append, List.cons.injEq, List.append_eq_singleton_iff] at hsplit
            obtain ⟨rfl, ⟨rfl, -⟩ | ⟨-, hnil⟩⟩ := hsplit
            · rfl
            · cases hnil

theorem run_prefix_encode
    {cs front rear : List Char}
    (h : encode cs = front ++ rear) :
    (betweenQuotes.run front).quote = some '\'' := by
  induction cs generalizing front with
  | nil =>
      obtain ⟨rfl, -⟩ := List.append_eq_nil_iff.mp h.symm
      rfl
  | cons c cs ih =>
      rw [encode_cons] at h
      rcases List.append_eq_append_iff.mp h with ⟨more, rfl, hrest⟩ | ⟨more, hchar, -⟩
      · rw [Nesting.run_append, (scan_encodeChar c).1]
        exact ih hrest
      · exact run_prefix_encodeChar ⟨more, hchar.symm⟩

/-- A scan at top level enters a literal with its first character and leaves it with its last. -/
theorem quote_within
    {before : List Char}
    (h : (Nesting.run {} before).isTop = true)
    (s : String) :
    (∀ front rear, (quote s).toList = front ++ rear → front ≠ [] → rear ≠ [] →
      (Nesting.run {} (before ++ front)).quote = some '\'') ∧
    (Nesting.run {} (before ++ (quote s).toList)).isTop = true := by
  have hstart := Nesting.run_eq_start h
  refine ⟨?_, ?_⟩
  · intro front rear hsplit hfront hrear
    obtain ⟨first, front, rfl⟩ := List.exists_cons_of_ne_nil hfront
    obtain ⟨rear, last, rfl⟩ := (List.eq_nil_or_concat rear).resolve_left hrear
    rw [quote, String.toList_ofList, List.concat_eq_append, List.cons_append, List.cons_append,
      List.cons.injEq, ← List.append_assoc] at hsplit
    obtain ⟨rfl, hbody⟩ := hsplit
    have hopen : Nesting.step {} '\'' = betweenQuotes := by
      rfl
    rw [Nesting.run_append, hstart, Nesting.run_cons, hopen]
    exact run_prefix_encode (List.append_inj' hbody rfl).1
  · rw [Nesting.run_append, hstart, (scan_quote s).1]
    rfl

/-! ### Writing again -/

theorem quote_injective : Function.Injective quote := by
  exact Function.LeftInverse.injective (g := fun text => unescape (stripQuotes text))
    unescape_stripQuotes_quote

theorem requote_quote
    (s : String) :
    requote (quote s) = quote s := by
  have hhead : ((quote s).toList.head? != some '\x60') = true := by
    rw [quote, String.toList_ofList]
    rfl
  unfold requote
  dsimp only
  rw [(isArgument_quote s).trimmed, isQuotedChars_quote, hhead, decode_stripChars_quote,
    String.ofList_toList]
  rfl

/-- Writing a token again changes nothing more: a literal was written already, and any other token
has no blanks at its ends. -/
theorem requote_requote
    (token : String) :
    requote (requote token) = requote token := by
  by_cases hliteral : (isQuotedChars (Text.trimChars token.toList) &&
      (Text.trimChars token.toList).head? != some '\x60') = true
  · have hquoted : requote token =
        quote (String.ofList (decode (stripChars (Text.trimChars token.toList)))) := by
      unfold requote
      exact if_pos hliteral
    rw [hquoted, requote_quote]
  · have hkept : requote token = String.ofList (Text.trimChars token.toList) := by
      unfold requote
      exact if_neg hliteral
    rw [hkept]
    unfold requote
    rw [String.toList_ofList, Text.trimChars_trimChars]
    exact if_neg hliteral

/-- A written literal is read back, is recognized as one literal on one line, encloses its text for
a scan that meets it at top level, and is not changed by writing it again. -/
theorem quote_round_trip :
    (∀ s : String,
      unescape (stripQuotes (quote s)) = s ∧
      isQuoted (quote s) = true ∧
      '\n' ∉ (quote s).toList ∧ '\r' ∉ (quote s).toList ∧
      requote (quote s) = quote s) ∧
    (∀ (s : String) (before : List Char), (Nesting.run {} before).isTop = true →
      (∀ front rear, (quote s).toList = front ++ rear → front ≠ [] → rear ≠ [] →
        (Nesting.run {} (before ++ front)).quote = some '\'') ∧
      (Nesting.run {} (before ++ (quote s).toList)).isTop = true) ∧
    Function.Injective quote ∧
    ∀ token : String, requote (requote token) = requote token := by
  refine ⟨?_, ?_, quote_injective, requote_requote⟩
  · intro s
    exact ⟨unescape_stripQuotes_quote s, isQuotedChars_quote s, not_mem_quote (.inl rfl) s,
      not_mem_quote (.inr rfl) s, requote_quote s⟩
  · intro s before hbefore
    exact quote_within hbefore s

/-- A text of quotes and backslashes, after an argument that is closed. -/
theorem quote_round_trip_backslashes :
    (Nesting.run {} "f('(', x), ".toList).isTop = true ∧
    quote "\\'\n\\" = "'\\\\\\'\\n\\\\'" ∧
    unescape (stripQuotes "'\\\\\\'\\n\\\\'") = "\\'\n\\" ∧
    (Nesting.run {} "f('(', x), '\\\\\\'\\n\\\\".toList).quote = some '\'' ∧
    (Nesting.run {} "f('(', x), '\\\\\\'\\n\\\\'".toList).isTop = true := by
  have htop : (Nesting.run {} "f('(', x), ".toList).isTop = true := by
    decide
  have hquote : quote "\\'\n\\" = "'\\\\\\'\\n\\\\'" := by
    decide
  obtain ⟨hread, hscan, -, -⟩ := quote_round_trip
  obtain ⟨hinside, hback⟩ := hscan "\\'\n\\" "f('(', x), ".toList htop
  rw [hquote] at hinside hback
  refine ⟨htop, hquote, hquote ▸ (hread "\\'\n\\").1, ?_, hback⟩
  exact hinside "'\\\\\\'\\n\\\\".toList ['\''] rfl (by decide) (by decide)

end Literal
end SuiteShift
