import SuiteShift.Proofs.Literal.Quoted
import SuiteShift.Proofs.Script.StringLiteral
import SuiteShift.Spec.Reader

/-!
# The values of string literals

What decoding makes of a string literal, against the value that the literal has.

- `decode_bodyText`: decoding goes through a literal element by element.
- `Escape.isReadAs_units`: an escape is read as what it means, or as something that is not shorter.
- `StringLiteral.utf16_unescape_iff`: so a literal keeps its value exactly if each of its escapes is
  one of those that decoding knows.
- `StringLiteral.ofText`: a literal that was written has the value of its text.
- `string_value_kept_iff`: the same for arguments that are read, and for tokens written again.
-/

namespace SuiteShift
namespace Literal

/-! ### Decoding -/

theorem decode_append_of_not_mem
    {cs : List Char}
    (h : '\\' ∉ cs)
    (rest : List Char) :
    decode (cs ++ rest) = cs ++ decode rest := by
  induction cs with
  | nil =>
      rfl
  | cons c cs ih =>
      rw [List.mem_cons, not_or] at h
      rw [List.cons_append, decode_cons_of_ne (Ne.symm h.1), ih h.2, List.cons_append]

/-- A backslash and the character after it become one character. -/
theorem decode_escape
    {c : Char}
    {cs : List Char}
    (h : '\\' ∉ cs)
    (rest : List Char) :
    decode ('\\' :: c :: cs ++ rest) = escapedChar c :: cs ++ decode rest := by
  rw [List.cons_append, List.cons_append, decode, if_pos (beq_self_eq_true _),
    decode_append_of_not_mem h, List.cons_append]

end Literal

namespace Text

/-! ### Code units -/

theorem length_codeUnits
    (point : Nat) :
    1 ≤ (codeUnits point).length ∧ (codeUnits point).length ≤ 2 := by
  unfold codeUnits
  split_ifs <;> simp

theorem length_le_charUnits
    (cs : List Char) :
    cs.length ≤ (charUnits cs).length := by
  induction cs with
  | nil =>
      exact Nat.le_refl 0
  | cons c cs ih =>
      have hunits := (length_codeUnits c.toNat).1
      rw [charUnits, List.flatMap_cons, List.length_append, ← charUnits, List.length_cons]
      omega

end Text

namespace Script

open Text (charUnits codeUnits)

/-- Something is read as what it means, or as something else that is not shorter; the first
argument tells which. -/
def IsReadAs (known : Bool) (read meant : List Nat) : Prop :=
  (read = meant ∧ known = true) ∨
  (read ≠ meant ∧ meant.length ≤ read.length ∧ known = false)

instance (known : Bool) (read meant : List Nat) : Decidable (IsReadAs known read meant) :=
  inferInstanceAs (Decidable (_ ∨ _))

theorem IsReadAs.length_le
    {known : Bool}
    {read meant : List Nat}
    (h : IsReadAs known read meant) :
    meant.length ≤ read.length := by
  rcases h with ⟨rfl, -⟩ | ⟨-, hle, -⟩
  · exact Nat.le_refl _
  · exact hle

theorem IsReadAs.eq_iff
    {known : Bool}
    {read meant : List Nat}
    (h : IsReadAs known read meant) :
    read = meant ↔ known = true := by
  rcases h with ⟨heq, hknown⟩ | ⟨hne, -, hknown⟩
  · exact iff_of_true heq hknown
  · exact iff_of_false hne (by simp [hknown])

/-! ### Escapes -/

namespace Escape

/-- What decoding makes of the escape: it looks at the first character only. -/
def readAs (e : Escape) : List Char :=
  match e.text with
  | [] => []
  | c :: cs => Literal.escapedChar c :: cs

theorem readAs_eq
    {e : Escape}
    {c : Char}
    {cs : List Char}
    (h : e.text = c :: cs) :
    e.readAs = Literal.escapedChar c :: cs := by
  rw [readAs, h]

theorem length_readAs
    (e : Escape) :
    e.readAs.length = e.text.length := by
  unfold readAs
  split <;> simp_all

/-- Decoding knows the escape: one character that stands for itself, or for a quote, a backslash, a
tab or a line end, or for null; the old form of zero before eight or nine is null as well. -/
def isKnown : Escape → Bool
  | single c => !(c == 'b' || c == 'f' || c == 'v')
  | plain _ => true
  | null => true
  | octal digits => digits == ['0']
  | decimal _ => true
  | hex _ => false
  | unicode _ => false
  | codePoint _ => false
  | continuation _ => false

/-- A character that ends no literal and escapes nothing. -/
def isQuiet (c : Char) : Bool :=
  c != '\\' && !Literal.isDelimiter c

theorem isQuiet_of_octal :
    ∀ c ∈ octalDigits, isQuiet c = true := by
  exact List.all_eq_true.mp (by decide)

theorem isQuiet_of_hex :
    ∀ c ∈ hexDigits, isQuiet c = true := by
  exact List.all_eq_true.mp (by decide)

theorem isQuiet_of_all
    {digits : List Char}
    (h : digits.all hexDigits.contains = true) :
    ∀ c ∈ digits, isQuiet c = true := by
  intro c hc
  exact isQuiet_of_hex c (List.contains_iff_mem.mp (List.all_eq_true.mp h c hc))

/-- After its first character an escape has digits, braces and a line feed at most. -/
theorem exists_text
    {e : Escape}
    {next : Option Char}
    (h : e.isValid next = true) :
    ∃ c cs, e.text = c :: cs ∧ ∀ d ∈ cs, isQuiet d = true := by
  cases e with
  | single c =>
      exact ⟨c, [], rfl, by simp⟩
  | plain c =>
      exact ⟨c, [], rfl, by simp⟩
  | null =>
      exact ⟨'0', [], rfl, by simp⟩
  | octal digits =>
      have hdigits := octal_of_isOctalForm h
      cases digits with
      | nil =>
          cases h
      | cons c digits =>
          exact ⟨c, digits, rfl, fun d hd =>
            isQuiet_of_octal d (hdigits d (List.mem_cons_of_mem _ hd))⟩
  | decimal c =>
      exact ⟨c, [], rfl, by simp⟩
  | hex digits =>
      rw [isValid, Bool.and_eq_true] at h
      exact ⟨'x', digits, rfl, isQuiet_of_all h.2⟩
  | unicode digits =>
      rw [isValid, Bool.and_eq_true] at h
      exact ⟨'u', digits, rfl, isQuiet_of_all h.2⟩
  | codePoint digits =>
      rw [isValid, Bool.and_eq_true, Bool.and_eq_true] at h
      refine ⟨'u', '\x7b' :: digits ++ ['\x7d'], rfl, ?_⟩
      have hdigits := isQuiet_of_all h.1.2
      intro d hd
      rw [List.cons_append, List.mem_cons, List.mem_append, List.mem_singleton] at hd
      rcases hd with rfl | hd | rfl
      · rfl
      · exact hdigits d hd
      · rfl
  | continuation lineEnd =>
      simp only [isValid, Bool.or_eq_true, Bool.and_eq_true, beq_iff_eq] at h
      rcases h with (((rfl | rfl) | rfl) | rfl) | ⟨rfl, -⟩
      · exact ⟨'\r', ['\n'], rfl, List.forall_mem_singleton.mpr rfl⟩
      all_goals exact ⟨_, [], rfl, by simp⟩

/-- An escape that is read as a longer text is not known. -/
theorem isReadAs_of_length_lt
    {e : Escape}
    (h : e.units.length < e.text.length)
    (hknown : e.isKnown = false) :
    IsReadAs e.isKnown (charUnits e.readAs) e.units := by
  have hlength := Text.length_le_charUnits e.readAs
  rw [length_readAs] at hlength
  refine .inr ⟨?_, by omega, hknown⟩
  intro heq
  rw [heq] at hlength
  omega

theorem isReadAs_single :
    ∀ entry ∈ singleEscapes,
      IsReadAs (single entry.1).isKnown (charUnits (single entry.1).readAs) [entry.2] := by
  decide

theorem isReadAs_octal :
    ∀ c ∈ octalDigits,
      IsReadAs (octal [c]).isKnown (charUnits (octal [c]).readAs) (octal [c]).units := by
  have hall : octalDigits.all (fun c =>
      IsReadAs (octal [c]).isKnown (charUnits (octal [c]).readAs) (octal [c]).units) = true := by
    decide
  intro c hc
  exact of_decide_eq_true (List.all_eq_true.mp hall c hc)

theorem escapedChar_of_plain
    {c : Char}
    {next : Option Char}
    (h : (plain c).isValid next = true) :
    Literal.escapedChar c = c := by
  have hother : ∀ d : Char, (plain d).isValid next = false → c ≠ d := by
    rintro d hd rfl
    rw [h] at hd
    cases hd
  simp [Literal.escapedChar, hother 'n' rfl, hother 'r' rfl, hother 't' rfl, hother '0' rfl]

/-- An escape is read as what it means if it is known, and else as something that is not shorter. -/
theorem isReadAs_units
    {e : Escape}
    {next : Option Char}
    (h : e.isValid next = true) :
    IsReadAs e.isKnown (charUnits e.readAs) e.units := by
  cases e with
  | single c =>
      obtain ⟨unit, hunit⟩ := Option.isSome_iff_exists.mp h
      obtain ⟨before, after, hsplit, -⟩ := List.lookup_eq_some_iff.mp hunit
      have hread := isReadAs_single (c, unit) (by simp [hsplit])
      rwa [units, hunit]
  | plain c =>
      refine .inl ⟨?_, rfl⟩
      rw [@readAs_eq (plain c) c [] rfl, escapedChar_of_plain h, units]
      simp [charUnits]
  | null =>
      exact .inl ⟨rfl, rfl⟩
  | octal digits =>
      have hdigits := octal_of_isOctalForm h
      match digits, h with
      | [c], _ =>
          exact isReadAs_octal c (hdigits c List.mem_cons_self)
      | c :: d :: digits, _ =>
          exact isReadAs_of_length_lt (by simp [units, text]) (by simp [isKnown])
  | decimal c =>
      rw [isValid, Bool.or_eq_true, beq_iff_eq, beq_iff_eq] at h
      rcases h with rfl | rfl <;> exact .inl ⟨rfl, rfl⟩
  | hex digits =>
      rw [isValid, Bool.and_eq_true, beq_iff_eq] at h
      exact isReadAs_of_length_lt (by simp [units, text, h.1]) rfl
  | unicode digits =>
      rw [isValid, Bool.and_eq_true, beq_iff_eq] at h
      exact isReadAs_of_length_lt (by simp [units, text, h.1]) rfl
  | codePoint digits =>
      have hunits := (Text.length_codeUnits (numeral 16 digits)).2
      refine isReadAs_of_length_lt ?_ rfl
      simp only [units, text, List.length_cons, List.length_append]
      omega
  | continuation lineEnd =>
      obtain ⟨c, cs, htext, -⟩ := exists_text h
      exact isReadAs_of_length_lt (by simp [units, htext]) rfl

end Escape

/-! ### Elements -/

namespace Element

/-- What decoding makes of the element. -/
def readAs : Element → List Char
  | char c => [c]
  | escape e => e.readAs

/-- Decoding knows the element. -/
def isKnown : Element → Bool
  | char _ => true
  | escape e => e.isKnown

variable {delimiter : Char} {next : Option Char} {element : Element}

theorem isReadAs_units
    (h : element.isValid delimiter next = true) :
    IsReadAs element.isKnown (charUnits element.readAs) element.units := by
  cases element with
  | char c =>
      refine .inl ⟨?_, rfl⟩
      simp [readAs, units, charUnits]
  | escape e =>
      exact Escape.isReadAs_units h

/-- Decoding reads one element and goes on. -/
theorem decode_text_append
    (h : element.isValid delimiter next = true)
    (rest : List Char) :
    Literal.decode (element.text ++ rest) = element.readAs ++ Literal.decode rest := by
  cases element with
  | char c =>
      simp only [isValid, Bool.and_eq_true, bne_iff_ne] at h
      exact Literal.decode_cons_of_ne h.1.1.2 rest
  | escape e =>
      obtain ⟨c, cs, htext, hquiet⟩ := Escape.exists_text h
      have hback : '\\' ∉ cs := by
        intro hmem
        cases hquiet '\\' hmem
      rw [text, htext, Literal.decode_escape hback, readAs, Escape.readAs_eq htext]

end Element

theorem isPlainBody_append
    {delimiter : Char}
    (hdelimiter : Literal.isDelimiter delimiter = true)
    {cs : List Char}
    (h : ∀ c ∈ cs, Escape.isQuiet c = true)
    (rest : List Char) :
    Literal.isPlainBody delimiter false (cs ++ rest) =
      Literal.isPlainBody delimiter false rest := by
  induction cs with
  | nil =>
      rfl
  | cons c cs ih =>
      have hc := h c List.mem_cons_self
      rw [Escape.isQuiet, Bool.and_eq_true, bne_iff_ne, Bool.not_eq_true'] at hc
      have hopen : c ≠ delimiter := by
        rintro rfl
        rw [hc.2] at hdelimiter
        cases hdelimiter
      rw [← ih fun d hd => h d (List.mem_cons_of_mem _ hd)]
      simp [Literal.isPlainBody, hc.1, hopen]

/-- An element does not end the literal. -/
theorem isPlainBody_element
    {delimiter : Char}
    (hdelimiter : Literal.isDelimiter delimiter = true)
    {element : Element}
    {next : Option Char}
    (h : element.isValid delimiter next = true)
    (rest : List Char) :
    Literal.isPlainBody delimiter false (element.text ++ rest) =
      Literal.isPlainBody delimiter false rest := by
  cases element with
  | char c =>
      simp only [Element.isValid, Bool.and_eq_true, bne_iff_ne] at h
      simp [Element.text, Literal.isPlainBody, h.1.1.1, h.1.1.2]
  | escape e =>
      obtain ⟨c, cs, htext, hquiet⟩ := Escape.exists_text h
      rw [Element.text, htext, ← isPlainBody_append hdelimiter hquiet rest]
      rfl

section Bodies

variable {delimiter : Char} {elements : List Element}

theorem exists_isValid_of_mem
    (h : isBody delimiter elements = true)
    {element : Element}
    (hmem : element ∈ elements) :
    ∃ next, element.isValid delimiter next = true := by
  induction elements with
  | nil =>
      cases hmem
  | cons first elements ih =>
      rw [isBody, Bool.and_eq_true] at h
      rcases List.mem_cons.mp hmem with rfl | hmem
      · exact ⟨_, h.1⟩
      · exact ih h.2 hmem

/-- Decoding goes through a literal element by element. -/
theorem decode_bodyText
    (h : isBody delimiter elements = true) :
    Literal.decode (bodyText elements) = elements.flatMap Element.readAs := by
  induction elements with
  | nil =>
      rfl
  | cons element elements ih =>
      rw [isBody, Bool.and_eq_true] at h
      rw [bodyText_cons, element.decode_text_append h.1, ih h.2, List.flatMap_cons]

theorem isPlainBody_bodyText
    (hdelimiter : Literal.isDelimiter delimiter = true)
    (h : isBody delimiter elements = true) :
    Literal.isPlainBody delimiter false (bodyText elements) = true := by
  induction elements with
  | nil =>
      rfl
  | cons element elements ih =>
      rw [isBody, Bool.and_eq_true] at h
      rw [bodyText_cons, isPlainBody_element hdelimiter h.1, ih h.2]

/-- A text is decoded to what it means exactly if all that is in it is known. -/
theorem charUnits_decode_iff
    (h : isBody delimiter elements = true) :
    charUnits (Literal.decode (bodyText elements)) = elements.flatMap Element.units ↔
      elements.all Element.isKnown = true := by
  have hread : ∀ element ∈ elements,
      IsReadAs element.isKnown (charUnits element.readAs) element.units := by
    intro element hmem
    obtain ⟨next, hvalid⟩ := exists_isValid_of_mem h hmem
    exact element.isReadAs_units hvalid
  rw [decode_bodyText h, charUnits, List.flatMap_assoc, List.all_eq_true]
  refine (Text.flatMap_eq_iff_of_length_le fun element hmem => (hread element hmem).length_le).trans
    (forall₂_congr fun element hmem => (hread element hmem).eq_iff)

end Bodies

/-! ### Literals -/

/-- How a character is written in a literal in single quotes. -/
def writtenElement (c : Char) : Element :=
  if c == '\\' then .escape (.single '\\')
  else if c == '\'' then .escape (.single '\'')
  else if c == '\n' then .escape (.single 'n')
  else if c == '\r' then .escape (.single 'r')
  else .char c

theorem text_writtenElement
    (c : Char) :
    (writtenElement c).text = Literal.encodeChar c := by
  unfold writtenElement Literal.encodeChar
  split_ifs <;> rfl

theorem units_writtenElement
    (c : Char) :
    (writtenElement c).units = codeUnits c.toNat := by
  unfold writtenElement
  split_ifs with hback hquote hline hreturn
  · rw [beq_iff_eq.mp hback]
    rfl
  · rw [beq_iff_eq.mp hquote]
    rfl
  · rw [beq_iff_eq.mp hline]
    rfl
  · rw [beq_iff_eq.mp hreturn]
    rfl
  · rfl

theorem isValid_writtenElement
    (c : Char)
    (next : Option Char) :
    (writtenElement c).isValid '\'' next = true := by
  unfold writtenElement
  split_ifs with hback hquote hline hreturn
  · rfl
  · rfl
  · rfl
  · rfl
  · simp [Element.isValid, bne, hback, hquote, hline, hreturn]

theorem isBody_written
    (cs : List Char) :
    isBody '\'' (cs.map writtenElement) = true := by
  induction cs with
  | nil =>
      rfl
  | cons c cs ih =>
      rw [List.map_cons, isBody, isValid_writtenElement, ih]
      rfl

namespace StringLiteral

/-- The literal that is written for a text. -/
def ofText (s : String) : StringLiteral where
  delimiter := '\''
  elements := s.toList.map writtenElement
  quoted := .inl rfl
  body := isBody_written s.toList

theorem text_ofText
    (s : String) :
    (ofText s).text = Literal.quote s := by
  rw [text, Literal.quote, ofText, bodyText, List.flatMap_map, Literal.encode]
  simp only [text_writtenElement]

theorem value_ofText
    (s : String) :
    (ofText s).value = Text.utf16 s := by
  rw [value, ofText, List.flatMap_map, Text.utf16, charUnits]
  simp only [units_writtenElement]

/-- Decoding knows all that is in the literal. -/
def isKnown (literal : StringLiteral) : Bool :=
  literal.elements.all Element.isKnown

variable (literal : StringLiteral)

theorem isDelimiter_delimiter :
    Literal.isDelimiter literal.delimiter = true := by
  rcases literal.quoted with h | h <;> rw [h] <;> rfl

theorem unescape_eq :
    Literal.unescape (Literal.stripQuotes literal.text) =
      String.ofList (Literal.decode (bodyText literal.elements)) := by
  rw [Literal.unescape, Literal.stripQuotes, text, String.toList_ofList, String.toList_ofList,
    Literal.stripChars_quoted literal.isDelimiter_delimiter]

/-- A literal is decoded to its value exactly if all that is in it is known. -/
theorem utf16_unescape_iff :
    Text.utf16 (Literal.unescape (Literal.stripQuotes literal.text)) = literal.value ↔
      literal.isKnown = true := by
  rw [unescape_eq, Text.utf16, String.toList_ofList]
  exact charUnits_decode_iff literal.body

/-- A literal is written again as what it was decoded to. -/
theorem requote_eq :
    Literal.requote literal.text =
      Literal.quote (Literal.unescape (Literal.stripQuotes literal.text)) := by
  have hdelimiter := literal.isDelimiter_delimiter
  have hquoted : Literal.isQuotedChars literal.text.toList = true := by
    rw [text, String.toList_ofList, Literal.isQuotedChars_quoted hdelimiter,
      isPlainBody_bodyText hdelimiter literal.body]
  have htrimmed : Text.trimChars literal.text.toList = literal.text.toList := by
    rw [text, String.toList_ofList, Literal.trimChars_quoted hdelimiter]
  have hhead : (literal.text.toList.head? != some '\x60') = true := by
    rw [text, String.toList_ofList, List.cons_append, List.head?_cons]
    rcases literal.quoted with h | h <;> rw [h] <;> rfl
  rw [Literal.requote, htrimmed, hquoted, hhead, Literal.unescape, Literal.stripQuotes,
    String.toList_ofList]
  rfl

end StringLiteral
end Script

namespace Spec

open Script (StringLiteral Tree)

/-! ### Arguments -/

/-- A string literal keeps its value, as an argument that is read and as a token that is written
again, exactly if decoding knows all of its escapes. -/
theorem string_value_kept_iff
    (literal : StringLiteral) :
    (Text.utf16 (Literal.unescape (Literal.stripQuotes literal.text)) = literal.value ↔
      literal.isKnown = true) ∧
    (∀ tree : Tree, tree.kind = .string → tree.text = literal.text →
      ∃ s, valueOf tree = .string s ∧
        (Text.utf16 s = literal.value ↔ literal.isKnown = true)) ∧
    (∃ written : StringLiteral, written.text = Literal.requote literal.text) ∧
    ∀ written : StringLiteral, written.text = Literal.requote literal.text →
      (written.value = literal.value ↔ literal.isKnown = true) := by
  have hwritten := StringLiteral.text_ofText
    (Literal.unescape (Literal.stripQuotes literal.text))
  rw [← literal.requote_eq] at hwritten
  refine ⟨literal.utf16_unescape_iff, ?_, ⟨_, hwritten⟩, ?_⟩
  · intro tree hkind htext
    refine ⟨Literal.unescape (Literal.stripQuotes literal.text), ?_, literal.utf16_unescape_iff⟩
    rw [valueOf, hkind, htext]
    rfl
  · intro written htext
    rw [StringLiteral.value_unique (htext.trans hwritten.symm), StringLiteral.value_ofText]
    exact literal.utf16_unescape_iff

/-- A literal in double quotes with a quote, a tab, a null and an escaped letter. -/
def knownLiteral : StringLiteral where
  delimiter := '"'
  elements := [.escape (.single '\''), .escape (.single 't'), .escape .null, .escape (.plain 'q')]
  quoted := .inr rfl
  body := by decide

theorem string_value_kept_iff_quote :
    knownLiteral.text = "\"\\'\\t\\0\\q\"" ∧
    knownLiteral.isKnown = true ∧
    Text.utf16 (Literal.unescape (Literal.stripQuotes knownLiteral.text)) = knownLiteral.value ∧
    (∃ s, valueOf (.node .string .plain default "\"\\'\\t\\0\\q\"" []) = .string s ∧
      Text.utf16 s = knownLiteral.value) ∧
    (StringLiteral.ofText "'\t\x00q").text = Literal.requote knownLiteral.text ∧
    (StringLiteral.ofText "'\t\x00q").value = knownLiteral.value := by
  have htext : knownLiteral.text = "\"\\'\\t\\0\\q\"" := by
    decide
  have hknown : knownLiteral.isKnown = true := by
    decide
  have hwritten : (StringLiteral.ofText "'\t\x00q").text = Literal.requote knownLiteral.text := by
    decide +kernel
  obtain ⟨hvalue, htree, -, hrewritten⟩ := string_value_kept_iff knownLiteral
  obtain ⟨s, hs, hkept⟩ :=
    htree (.node .string .plain default "\"\\'\\t\\0\\q\"" []) rfl htext.symm
  exact ⟨htext, hknown, hvalue.mpr hknown, ⟨s, hs, hkept.mpr hknown⟩, hwritten,
    (hrewritten _ hwritten).mpr hknown⟩

/-- A literal with the code of a letter in it. -/
def codedLiteral : StringLiteral where
  delimiter := '\''
  elements := [.escape (.hex ['4', '1'])]
  quoted := .inl rfl
  body := by decide

/-- The code of a letter is taken for its digits. -/
theorem coded_letter_misread :
    codedLiteral.text = "'\\x41'" ∧
    codedLiteral.value = Text.utf16 "A" ∧
    Literal.unescape (Literal.stripQuotes "'\\x41'") = "x41" ∧
    Literal.requote "'\\x41'" = "'x41'" ∧
    ¬ ∀ literal : StringLiteral,
      Text.utf16 (Literal.unescape (Literal.stripQuotes literal.text)) = literal.value := by
  have htext : codedLiteral.text = "'\\x41'" := by
    decide
  refine ⟨htext, by decide, by decide, by decide, ?_⟩
  intro h
  exact absurd (h codedLiteral) (by decide)

end Spec
end SuiteShift
