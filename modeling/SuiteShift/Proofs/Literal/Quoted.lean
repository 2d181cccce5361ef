import SuiteShift.Proofs.Literal.Nesting

/-!
# Literals in single quotes

- `decode_encode`, `unescape_stripQuotes_quote`: a literal that was written is read back.
- `wellNested_quote`, `isArgument_quote`: a scan passes over a literal as a whole, whatever
  characters it holds.
-/

namespace SuiteShift
namespace Literal

/-! ### Reading back -/

@[simp] theorem encode_cons
    (c : Char)
    (cs : List Char) :
    encode (c :: cs) = encodeChar c ++ encode cs := by
  rfl

/-- A character stays as it is or becomes a backslash and no slash. -/
theorem encodeChar_cases
    (c : Char) :
    encodeChar c = [c] ∨ ∃ escaped, '/' ≠ escaped ∧ encodeChar c = ['\\', escaped] := by
  unfold encodeChar
  split_ifs
  · exact .inr ⟨'\\', by decide, rfl⟩
  · exact .inr ⟨'\'', by decide, rfl⟩
  · exact .inr ⟨'n', by decide, rfl⟩
  · exact .inr ⟨'r', by decide, rfl⟩
  · exact .inl rfl

theorem decode_cons_of_ne
    {c : Char}
    (h : c ≠ '\\')
    (cs : List Char) :
    decode (c :: cs) = c :: decode cs := by
  cases cs with
  | nil =>
      rfl
  | cons d cs =>
      simp [decode, h]

theorem decode_encodeChar_append
    (c : Char)
    (rest : List Char) :
    decode (encodeChar c ++ rest) = c :: decode rest := by
  unfold encodeChar
  split_ifs with hback hquote hline hreturn
  · rw [beq_iff_eq.mp hback]
    rfl
  · rw [beq_iff_eq.mp hquote]
    rfl
  · rw [beq_iff_eq.mp hline]
    rfl
  · rw [beq_iff_eq.mp hreturn]
    rfl
  · exact decode_cons_of_ne (fun hc => hback (beq_iff_eq.mpr hc)) rest

theorem decode_encode
    (cs : List Char) :
    decode (encode cs) = cs := by
  induction cs with
  | nil =>
      rfl
  | cons c cs ih =>
      rw [encode_cons, decode_encodeChar_append, ih]

theorem unsnoc?_append_singleton
    (cs : List Char)
    (last : Char) :
    unsnoc? (cs ++ [last]) = some (cs, last) := by
  induction cs with
  | nil =>
      rfl
  | cons c cs ih =>
      cases cs with
      | nil =>
          rfl
      | cons d cs =>
          rw [List.cons_append, List.cons_append, unsnoc?, ← List.cons_append, ih]
          · rfl
          · simp

theorem delimited?_quoted
    {q : Char}
    (h : isDelimiter q = true)
    (body : List Char) :
    delimited? (q :: body ++ [q]) = some (q, body) := by
  rw [List.cons_append, delimited?, unsnoc?_append_singleton]
  simp [h]

theorem stripChars_quoted
    {q : Char}
    (h : isDelimiter q = true)
    (body : List Char) :
    stripChars (q :: body ++ [q]) = body := by
  rw [stripChars, delimited?_quoted h]

theorem isQuotedChars_quoted
    {q : Char}
    (h : isDelimiter q = true)
    (body : List Char) :
    isQuotedChars (q :: body ++ [q]) = isPlainBody q false body := by
  rw [isQuotedChars, delimited?_quoted h]

theorem trimChars_quoted
    {q : Char}
    (h : isDelimiter q = true)
    (body : List Char) :
    Text.trimChars (q :: body ++ [q]) = q :: body ++ [q] := by
  have hblank : Text.isBlank q = false :=
    Text.isBlank_eq_false (by decide +kernel) h
  refine Text.trimChars_eq_self ?_ ?_
  · intro c hc
    rw [List.cons_append, List.head?_cons, Option.mem_some] at hc
    rw [← hc, hblank]
  · intro c hc
    rw [List.getLast?_concat, Option.mem_some] at hc
    rw [← hc, hblank]

theorem decode_stripChars_quote
    (s : String) :
    decode (stripChars (quote s).toList) = s.toList := by
  rw [quote, String.toList_ofList, stripChars_quoted rfl, decode_encode]

/-- A literal that was written is read back. -/
theorem unescape_stripQuotes_quote
    (s : String) :
    unescape (stripQuotes (quote s)) = s := by
  rw [stripQuotes, unescape, String.toList_ofList, decode_stripChars_quote, String.ofList_toList]

/-! ### Passing over -/

/-- The scan stands between the quotes of a literal. -/
def betweenQuotes : Nesting :=
  { quote := some '\'' }

/-- An encoded character does not end the literal. -/
theorem scan_encodeChar
    (c : Char) :
    betweenQuotes.run (encodeChar c) = betweenQuotes ∧
    betweenQuotes.strayFree (encodeChar c) = true ∧
    betweenQuotes.commaFree (encodeChar c) = true := by
  unfold encodeChar
  split_ifs with hback hquote hline hreturn
  · decide
  · decide
  · decide
  · decide
  · simp only [beq_iff_eq] at hback hquote
    have hstep : betweenQuotes.step c = betweenQuotes := by
      simp [Nesting.step, betweenQuotes, hback, hquote]
    refine ⟨hstep, ?_, ?_⟩
    · simp [Nesting.strayFree, Nesting.isStray, betweenQuotes]
    · simp [Nesting.commaFree, Nesting.isTop, betweenQuotes]

theorem scan_encode
    (cs : List Char) :
    betweenQuotes.run (encode cs) = betweenQuotes ∧
    betweenQuotes.strayFree (encode cs) = true ∧
    betweenQuotes.commaFree (encode cs) = true := by
  induction cs with
  | nil =>
      exact ⟨rfl, rfl, rfl⟩
  | cons c cs ih =>
      obtain ⟨hrun, hstray, hcomma⟩ := scan_encodeChar c
      simp [hrun, hstray, hcomma, ih]

/-- The quotes open and close the literal. -/
theorem scan_quote
    (s : String) :
    Nesting.run {} (quote s).toList = {} ∧
    Nesting.strayFree {} (quote s).toList = true ∧
    Nesting.commaFree {} (quote s).toList = true := by
  obtain ⟨hrun, hstray, hcomma⟩ := scan_encode s.toList
  have hopen : Nesting.step {} '\'' = betweenQuotes := by
    rfl
  have hclose : betweenQuotes.step '\'' = {} := by
    rfl
  rw [quote, String.toList_ofList]
  refine ⟨?_, ?_, ?_⟩
  · simp [hopen, hrun, hclose]
  · simp [Nesting.strayFree, hopen, hrun, hstray]
    decide
  · simp [Nesting.commaFree, hopen, hrun, hcomma]

theorem wellNested_quote
    (s : String) :
    WellNested (quote s).toList := by
  obtain ⟨hrun, hstray, -⟩ := scan_quote s
  exact ⟨hstray, by rw [hrun]; rfl⟩

theorem isArgument_quote
    (s : String) :
    IsArgument (quote s).toList := by
  obtain ⟨hrun, -, hcomma⟩ := scan_quote s
  refine ⟨?_, ?_, hcomma, by rw [hrun]; rfl⟩
  · simp [quote]
  · rw [quote, String.toList_ofList]
    exact trimChars_quoted rfl (encode s.toList)

end Literal
end SuiteShift
