import SuiteShift.Text.Letter
import Mathlib.Data.List.Basic

/-!
# String literals of scripts

The grammar of string literals in single and double quotes, one constructor for each of its
productions, and the value that a literal has: a sequence of UTF-16 code units.

- `Text.charUnits`: the code units of characters, and what they say about the characters.
- `Escape`, `Element`: what can stand in a literal, as it is written (`text`), what it means
  (`units`), and where it may stand (`isValid`), which can depend on the character that follows.
- `StringLiteral`: a literal, with the proof that it is one.
- `readEscape_text`: the text of an escape is read in one way only.
- `StringLiteral.value_unique`: so the value of a literal is determined by its text.
-/

namespace SuiteShift
namespace Text

/-- The code units of a code point in UTF-16. -/
def codeUnits (point : Nat) : List Nat :=
  if point < 65536 then [point]
  else [55296 + (point - 65536) / 1024, 56320 + (point - 65536) % 1024]

/-- The code units of characters. -/
def charUnits (cs : List Char) : List Nat :=
  cs.flatMap fun c => codeUnits c.toNat

/-- The code units of a text in UTF-16. -/
def utf16 (s : String) : List Nat :=
  charUnits s.toList

theorem codeUnits_ne_nil
    (point : Nat) :
    codeUnits point ≠ [] := by
  unfold codeUnits
  split_ifs <;> simp

/-- A unit below the surrogates is the character itself. -/
theorem eq_of_mem_codeUnits
    {point u : Nat}
    (h : u ∈ codeUnits point)
    (hlow : u < 55296) :
    u = point := by
  unfold codeUnits at h
  split_ifs at h
  · exact List.mem_singleton.mp h
  · rw [List.mem_cons, List.mem_singleton] at h
    omega

@[simp] theorem charUnits_append
    (cs ds : List Char) :
    charUnits (cs ++ ds) = charUnits cs ++ charUnits ds := by
  exact List.flatMap_append

theorem charUnits_cons
    (c : Char)
    (cs : List Char) :
    charUnits (c :: cs) = codeUnits c.toNat ++ charUnits cs := by
  rfl

theorem charUnits_eq_nil_iff
    (cs : List Char) :
    charUnits cs = [] ↔ cs = [] := by
  cases cs with
  | nil =>
      exact iff_of_true rfl rfl
  | cons c cs =>
      refine iff_of_false ?_ (List.cons_ne_nil c cs)
      rw [charUnits_cons, List.append_eq_nil_iff]
      intro hnil
      exact codeUnits_ne_nil c.toNat hnil.1

theorem isInfix_charUnits
    {cs ds : List Char}
    (h : cs <:+: ds) :
    charUnits cs <:+: charUnits ds := by
  obtain ⟨before, after, rfl⟩ := h
  rw [charUnits_append, charUnits_append]
  exact List.infix_append _ _ _

end Text

namespace Script

/-! ### Digits -/

def octalDigits : List Char :=
  ['0', '1', '2', '3', '4', '5', '6', '7']

def hexDigits : List Char :=
  ['0', '1', '2', '3', '4', '5', '6', '7', '8', '9', 'a', 'b', 'c', 'd', 'e', 'f',
   'A', 'B', 'C', 'D', 'E', 'F']

/-- The value of a digit. -/
def digitValue (c : Char) : Nat :=
  if Text.isAsciiDigit c then c.toNat - '0'.toNat
  else if 'a' ≤ c then 10 + c.toNat - 'a'.toNat
  else 10 + c.toNat - 'A'.toNat

/-- The number that digits stand for. -/
def numeral (base : Nat) (digits : List Char) : Nat :=
  digits.foldl (fun n digit => base * n + digitValue digit) 0

/-! ### Escapes -/

/-- The characters that end a line. -/
def lineTerminators : List Char :=
  ['\n', '\r', '\u2028', '\u2029']

/-- The characters with a meaning of their own after a backslash. -/
def singleEscapes : List (Char × Nat) :=
  [('\'', 39), ('"', 34), ('\\', 92), ('b', 8), ('f', 12), ('n', 10), ('r', 13), ('t', 9),
   ('v', 11)]

/-- What can follow a backslash in a literal. -/
inductive Escape where
  /-- A character with a meaning of its own. -/
  | single (c : Char)
  /-- A character that stands for itself. -/
  | plain (c : Char)
  | null
  /-- One to three octal digits, of the old form. -/
  | octal (digits : List Char)
  /-- Eight or nine, of the old form. -/
  | decimal (c : Char)
  /-- Two digits after an x. -/
  | hex (digits : List Char)
  /-- Four digits after a u. -/
  | unicode (digits : List Char)
  /-- Any number of digits in braces after a u. -/
  | codePoint (digits : List Char)
  /-- The end of a line, which does not belong to the value. -/
  | continuation (lineEnd : List Char)
deriving DecidableEq

/-- Octal digits as an escape takes them: as many as there are, up to the value 255. -/
def isOctalForm (next : Option Char) : List Char → Bool
  | [a] =>
    if a == '0' then next == some '8' || next == some '9'
    else octalDigits.contains a && !next.any octalDigits.contains
  | [a, b] =>
    octalDigits.contains a && octalDigits.contains b &&
      ('3' < a || !next.any octalDigits.contains)
  | [a, b, c] =>
    octalDigits.contains a && octalDigits.contains b && octalDigits.contains c && a ≤ '3'
  | _ => false

namespace Escape

/-- What stands after the backslash. -/
def text : Escape → List Char
  | single c => [c]
  | plain c => [c]
  | null => ['0']
  | octal digits => digits
  | decimal c => [c]
  | hex digits => 'x' :: digits
  | unicode digits => 'u' :: digits
  | codePoint digits => 'u' :: '\x7b' :: digits ++ ['\x7d']
  | continuation lineEnd => lineEnd

/-- What the escape means. -/
def units : Escape → List Nat
  | single c => (singleEscapes.lookup c).toList
  | plain c => Text.codeUnits c.toNat
  | null => [0]
  | octal digits => [numeral 8 digits]
  | decimal c => [c.toNat]
  | hex digits => [numeral 16 digits]
  | unicode digits => [numeral 16 digits]
  | codePoint digits => Text.codeUnits (numeral 16 digits)
  | continuation _ => []

/-- The escape can stand before a character. -/
def isValid (next : Option Char) : Escape → Bool
  | single c => (singleEscapes.lookup c).isSome
  | plain c =>
    (singleEscapes.lookup c).isNone && !Text.isAsciiDigit c && c != 'x' && c != 'u' &&
      !lineTerminators.contains c
  | null => !next.any Text.isAsciiDigit
  | octal digits => isOctalForm next digits
  | decimal c => c == '8' || c == '9'
  | hex digits => digits.length == 2 && digits.all hexDigits.contains
  | unicode digits => digits.length == 4 && digits.all hexDigits.contains
  | codePoint digits =>
    !digits.isEmpty && digits.all hexDigits.contains && numeral 16 digits ≤ 1114111
  | continuation lineEnd =>
    lineEnd == ['\r', '\n'] || lineEnd == ['\n'] || lineEnd == ['\u2028'] ||
      lineEnd == ['\u2029'] || lineEnd == ['\r'] && next != some '\n'

end Escape

/-! ### Literals -/

/-- What can stand in a literal. -/
inductive Element where
  | char (c : Char)
  | escape (e : Escape)
deriving DecidableEq

namespace Element

/-- The element as it is written. -/
def text : Element → List Char
  | char c => [c]
  | escape e => '\\' :: e.text

/-- What the element means. -/
def units : Element → List Nat
  | char c => Text.codeUnits c.toNat
  | escape e => e.units

/-- The element can stand before a character in a literal with a delimiter. -/
def isValid (delimiter : Char) (next : Option Char) : Element → Bool
  | char c => c != delimiter && c != '\\' && c != '\n' && c != '\r'
  | escape e => e.isValid next

end Element

/-- The text between the delimiters. -/
def bodyText (elements : List Element) : List Char :=
  elements.flatMap Element.text

@[simp] theorem bodyText_nil :
    bodyText [] = [] := by
  rfl

@[simp] theorem bodyText_cons
    (element : Element)
    (elements : List Element) :
    bodyText (element :: elements) = element.text ++ bodyText elements := by
  rfl

/-- Every element can stand where it stands. -/
def isBody (delimiter : Char) : List Element → Bool
  | [] => true
  | element :: elements =>
    element.isValid delimiter (bodyText elements ++ [delimiter]).head? &&
      isBody delimiter elements

/-- A string literal in single or double quotes. -/
structure StringLiteral where
  delimiter : Char
  elements : List Element
  quoted : delimiter = '\'' ∨ delimiter = '"'
  body : isBody delimiter elements = true

namespace StringLiteral

/-- The literal as it is written. -/
def text (literal : StringLiteral) : String :=
  String.ofList (literal.delimiter :: bodyText literal.elements ++ [literal.delimiter])

/-- The value of the literal. -/
def value (literal : StringLiteral) : List Nat :=
  literal.elements.flatMap Element.units

end StringLiteral

/-! ### One reading -/

/-- Takes as many characters of a class as there are before another one. -/
theorem takeWhile_append_of_head?
    {p : Char → Bool}
    {cs rest : List Char}
    (hcs : ∀ c ∈ cs, p c = true)
    (hrest : rest.head?.any p = false) :
    (cs ++ rest).takeWhile p = cs := by
  have hstop : rest.takeWhile p = [] := by
    cases rest with
    | nil =>
        rfl
    | cons c rest =>
        exact List.takeWhile_cons_of_neg (by simpa using hrest)
  rw [List.takeWhile_append_of_pos hcs, hstop, List.append_nil]

/-- The octal digits of an escape: as many as there are, but not more than the first one allows. -/
def octalRun (cs : List Char) : List Char :=
  (cs.takeWhile octalDigits.contains).take (if cs.head?.any (· ≤ '3') then 3 else 2)

/-- Reads an escape: its first character tells which one it is. -/
def readEscape : List Char → Option (Escape × List Char)
  | [] => none
  | c :: cs =>
    if (singleEscapes.lookup c).isSome then some (.single c, cs)
    else if octalDigits.contains c then
      let digits := octalRun (c :: cs)
      let rest := (c :: cs).drop digits.length
      if digits == ['0'] && !rest.head?.any Text.isAsciiDigit then some (.null, rest)
      else some (.octal digits, rest)
    else if c == '8' || c == '9' then some (.decimal c, cs)
    else if c == 'x' then some (.hex (cs.take 2), cs.drop 2)
    else if c == 'u' then
      if cs.head? == some '\x7b' then
        some (.codePoint (cs.tail.takeWhile hexDigits.contains),
          (cs.tail.dropWhile hexDigits.contains).tail)
      else some (.unicode (cs.take 4), cs.drop 4)
    else if lineTerminators.contains c then
      if c == '\r' && cs.head? == some '\n' then some (.continuation ['\r', '\n'], cs.tail)
      else some (.continuation [c], cs)
    else some (.plain c, cs)

theorem not_single_of_octal :
    ∀ c ∈ octalDigits, (singleEscapes.lookup c).isNone = true := by
  exact List.all_eq_true.mp (by decide)

/-- An octal digit is read with those that belong to it. -/
theorem readEscape_octal
    {c : Char}
    {cs rest : List Char}
    (hoctal : c ∈ octalDigits)
    (hrun : octalRun (c :: cs ++ rest) = c :: cs) :
    readEscape (c :: cs ++ rest) =
      if c :: cs == ['0'] && !rest.head?.any Text.isAsciiDigit then some (.null, rest)
      else some (.octal (c :: cs), rest) := by
  have hsingle := Option.isNone_iff_eq_none.mp (not_single_of_octal c hoctal)
  have hrest : (c :: cs ++ rest).drop (c :: cs).length = rest := List.drop_left
  have hcontains : octalDigits.contains c = true := List.contains_iff_mem.mpr hoctal
  rw [List.cons_append] at hrun hrest ⊢
  rw [readEscape, hsingle, if_neg (by simp), if_pos hcontains]
  dsimp only
  rw [hrun, hrest]

theorem takeWhile_octal_append
    {digits : List Char}
    (h : ∀ c ∈ digits, c ∈ octalDigits)
    (rest : List Char) :
    (digits ++ rest).takeWhile octalDigits.contains =
      digits ++ rest.takeWhile octalDigits.contains := by
  exact List.takeWhile_append_of_pos fun c hc => List.contains_iff_mem.mpr (h c hc)

/-- One or two octal digits before another character are all that an escape takes. -/
theorem octalRun_of_stop
    {digits rest : List Char}
    (hdigits : ∀ c ∈ digits, c ∈ octalDigits)
    (hlength : digits.length ≤ 2)
    (hnext : rest.head?.any octalDigits.contains = false) :
    octalRun (digits ++ rest) = digits := by
  have hrun := takeWhile_append_of_head?
    (fun c hc => List.contains_iff_mem.mpr (hdigits c hc)) hnext
  rw [octalRun, hrun]
  split_ifs
  · exact List.take_of_length_le (by omega)
  · exact List.take_of_length_le hlength

theorem octal_of_isOctalForm
    {next : Option Char}
    {digits : List Char}
    (h : isOctalForm next digits = true) :
    ∀ c ∈ digits, c ∈ octalDigits := by
  unfold isOctalForm at h
  split at h
  · next a =>
      split_ifs at h with hzero
      · simp [beq_iff_eq.mp hzero, octalDigits]
      · rw [Bool.and_eq_true, List.contains_iff_mem] at h
        simpa using h.1
  · next a b =>
      simp only [Bool.and_eq_true, List.contains_iff_mem] at h
      simp [h.1]
  · next a b c =>
      simp only [Bool.and_eq_true, List.contains_iff_mem] at h
      simp [h.1]
  · cases h

/-- Octal digits that can stand where they stand are all that an escape takes. -/
theorem octalRun_append
    {digits rest : List Char}
    (h : isOctalForm rest.head? digits = true) :
    octalRun (digits ++ rest) = digits := by
  have hdigits := octal_of_isOctalForm h
  unfold isOctalForm at h
  split at h
  · next a =>
      refine octalRun_of_stop hdigits (by simp) ?_
      split_ifs at h
      · rw [Bool.or_eq_true, beq_iff_eq, beq_iff_eq] at h
        rcases h with h | h <;> rw [h] <;> decide
      · rw [Bool.and_eq_true, Bool.not_eq_true'] at h
        exact h.2
  · next a b =>
      rw [Bool.and_eq_true, Bool.or_eq_true, decide_eq_true_eq, Bool.not_eq_true'] at h
      -- A first digit above three leaves room for one more only.
      rcases h.2 with hlarge | hnext
      · rw [octalRun, takeWhile_octal_append hdigits]
        simp [Char.not_le.mpr hlarge]
      · exact octalRun_of_stop hdigits (by simp) hnext
  · next a b c =>
      rw [Bool.and_eq_true, decide_eq_true_eq] at h
      rw [octalRun, takeWhile_octal_append hdigits]
      simp [h.2]
  · cases h

theorem isAsciiDigit_of_octal :
    ∀ c ∈ octalDigits, Text.isAsciiDigit c = true := by
  exact List.all_eq_true.mp (by decide)

/-- The digits of a code point end at the closing brace. -/
theorem readEscape_codePoint
    {digits : List Char}
    (h : ∀ c ∈ digits, hexDigits.contains c = true)
    (rest : List Char) :
    readEscape ('u' :: '\x7b' :: (digits ++ '\x7d' :: rest)) = some (.codePoint digits, rest) := by
  have hstop : ('\x7d' :: rest).head?.any hexDigits.contains = false := by
    rfl
  have htake := takeWhile_append_of_head? h hstop
  have hdrop : (digits ++ '\x7d' :: rest).dropWhile hexDigits.contains = '\x7d' :: rest := by
    rw [List.dropWhile_append_of_pos h]
    exact List.dropWhile_cons_of_neg (by decide)
  have hread : readEscape ('u' :: '\x7b' :: (digits ++ '\x7d' :: rest)) =
      some (.codePoint ((digits ++ '\x7d' :: rest).takeWhile hexDigits.contains),
        ((digits ++ '\x7d' :: rest).dropWhile hexDigits.contains).tail) := by
    rfl
  rw [hread, htake, hdrop]
  rfl

/-- A character that begins no other escape stands for itself. -/
theorem readEscape_plain
    {c : Char}
    {next : Option Char}
    (h : (Escape.plain c).isValid next = true)
    (rest : List Char) :
    readEscape (c :: rest) = some (.plain c, rest) := by
  simp only [Escape.isValid, Bool.and_eq_true, Option.isNone_iff_eq_none, Bool.not_eq_true',
    bne_iff_ne] at h
  obtain ⟨⟨⟨⟨hsingle, hdigit⟩, hx⟩, hu⟩, hline⟩ := h
  have hoctal : c ∉ octalDigits := by
    intro hmem
    rw [isAsciiDigit_of_octal c hmem] at hdigit
    cases hdigit
  have height : c ≠ '8' := by
    rintro rfl
    cases hdigit
  have hnine : c ≠ '9' := by
    rintro rfl
    cases hdigit
  have hend : c ∉ lineTerminators := by
    intro hmem
    rw [List.contains_iff_mem.mpr hmem] at hline
    cases hline
  simp [readEscape, hsingle, hoctal, height, hnine, hx, hu, hend]

/-- A zero is the null character if no digit follows, not even eight or nine. -/
theorem readEscape_null
    {rest : List Char}
    (h : rest.head?.any Text.isAsciiDigit = false) :
    readEscape ('0' :: rest) = some (.null, rest) := by
  have hnext : rest.head?.any octalDigits.contains = false := by
    cases hhead : rest.head? with
    | none =>
        rfl
    | some c =>
        rw [hhead, Option.any_some] at h
        rw [Option.any_some, Bool.eq_false_iff]
        intro hoctal
        rw [isAsciiDigit_of_octal c (List.contains_iff_mem.mp hoctal)] at h
        cases h
  have hrun : octalRun ('0' :: [] ++ rest) = ['0'] :=
    octalRun_of_stop (by simp [octalDigits]) (by decide) hnext
  have hread := readEscape_octal (by decide) hrun
  rw [h] at hread
  exact hread

/-- Other octal digits are one escape of the old form. -/
theorem readEscape_octalForm
    {digits rest : List Char}
    (h : isOctalForm rest.head? digits = true) :
    readEscape (digits ++ rest) = some (.octal digits, rest) := by
  have hrun := octalRun_append h
  have hdigits := octal_of_isOctalForm h
  cases digits with
  | nil =>
      cases h
  | cons c digits =>
      rw [readEscape_octal (hdigits c List.mem_cons_self) hrun, if_neg]
      -- A zero alone is of the old form only before eight or nine.
      rw [Bool.and_eq_true, beq_iff_eq, Bool.not_eq_true']
      rintro ⟨hzero, hnext⟩
      rw [hzero, isOctalForm, if_pos (beq_self_eq_true _), Bool.or_eq_true, beq_iff_eq,
        beq_iff_eq] at h
      rcases h with h | h <;> rw [h] at hnext <;> cases hnext

/-- Four digits are no code point in braces. -/
theorem readEscape_unicode
    {digits : List Char}
    (hlength : digits.length = 4)
    (hdigits : ∀ c ∈ digits, hexDigits.contains c = true)
    (rest : List Char) :
    readEscape ('u' :: (digits ++ rest)) = some (.unicode digits, rest) := by
  have hbrace : ((digits ++ rest).head? == some '\x7b') = false := by
    cases digits with
    | nil =>
        cases hlength
    | cons c digits =>
        rw [List.cons_append, List.head?_cons, beq_eq_false_iff_ne]
        rintro ⟨⟩
        have hhex := hdigits '\x7b' List.mem_cons_self
        revert hhex
        decide
  have hread : readEscape ('u' :: (digits ++ rest)) =
      if (digits ++ rest).head? == some '\x7b' then
        some (.codePoint ((digits ++ rest).tail.takeWhile hexDigits.contains),
          ((digits ++ rest).tail.dropWhile hexDigits.contains).tail)
      else some (.unicode ((digits ++ rest).take 4), (digits ++ rest).drop 4) := by
    rfl
  rw [hread, hbrace, if_neg (by simp), List.take_left' hlength, List.drop_left' hlength]

/-- A line end continues the literal; a carriage return takes a line feed with it. -/
theorem readEscape_continuation
    {lineEnd rest : List Char}
    (h : (Escape.continuation lineEnd).isValid rest.head? = true) :
    readEscape (lineEnd ++ rest) = some (.continuation lineEnd, rest) := by
  simp only [Escape.isValid, Bool.or_eq_true, Bool.and_eq_true, beq_iff_eq, bne_iff_ne] at h
  rcases h with (((rfl | rfl) | rfl) | rfl) | ⟨rfl, hnext⟩
  · rfl
  · rfl
  · rfl
  · rfl
  · have hlone : (rest.head? == some '\n') = false := beq_eq_false_iff_ne.mpr hnext
    have hread : readEscape ('\r' :: rest) =
        if rest.head? == some '\n' then some (.continuation ['\r', '\n'], rest.tail)
        else some (.continuation ['\r'], rest) := by
      rfl
    rw [List.singleton_append, hread, hlone]
    rfl

/-- An escape is read again from its text, whatever it can stand before. -/
theorem readEscape_text
    {e : Escape}
    {rest : List Char}
    (h : e.isValid rest.head? = true) :
    readEscape (e.text ++ rest) = some (e, rest) := by
  cases e with
  | single c =>
      simp only [Escape.isValid] at h
      simp [Escape.text, readEscape, h]
  | plain c =>
      exact readEscape_plain h rest
  | null =>
      simp only [Escape.isValid, Bool.not_eq_true'] at h
      exact readEscape_null h
  | octal digits =>
      exact readEscape_octalForm h
  | decimal c =>
      simp only [Escape.isValid, Bool.or_eq_true, beq_iff_eq] at h
      rcases h with rfl | rfl <;> rfl
  | hex digits =>
      simp only [Escape.isValid, Bool.and_eq_true, beq_iff_eq] at h
      have hread : readEscape ('x' :: (digits ++ rest)) =
          some (.hex ((digits ++ rest).take 2), (digits ++ rest).drop 2) := by
        rfl
      rw [Escape.text, List.cons_append, hread, List.take_left' h.1, List.drop_left' h.1]
  | unicode digits =>
      simp only [Escape.isValid, Bool.and_eq_true, beq_iff_eq, List.all_eq_true] at h
      exact readEscape_unicode h.1 h.2 rest
  | codePoint digits =>
      simp only [Escape.isValid, Bool.and_eq_true, List.all_eq_true] at h
      have hread := readEscape_codePoint h.1.2 rest
      simpa [Escape.text] using hread
  | continuation lineEnd =>
      exact readEscape_continuation h

/-- Reads an element. -/
def readElement : List Char → Option (Element × List Char)
  | [] => none
  | c :: cs =>
    if c == '\\' then (readEscape cs).map fun (e, rest) => (.escape e, rest)
    else some (.char c, cs)

theorem readElement_text
    {delimiter : Char}
    {element : Element}
    {rest : List Char}
    (h : element.isValid delimiter rest.head? = true) :
    readElement (element.text ++ rest) = some (element, rest) := by
  cases element with
  | char c =>
      simp only [Element.isValid, Bool.and_eq_true, bne_iff_ne] at h
      simp [Element.text, readElement, h.1.1.2]
  | escape e =>
      have hread := readEscape_text h
      simp [Element.text, readElement, hread]

theorem Element.text_ne_nil
    (element : Element) :
    element.text ≠ [] := by
  cases element <;> simp [Element.text]

/-- There is one way to read what stands between the delimiters. -/
theorem elements_unique
    {delimiter : Char}
    {elements others : List Element}
    (h : isBody delimiter elements = true)
    (h' : isBody delimiter others = true)
    (htext : bodyText elements ++ [delimiter] = bodyText others ++ [delimiter]) :
    elements = others := by
  induction elements generalizing others with
  | nil =>
      cases others with
      | nil =>
          rfl
      | cons other others =>
          exact absurd (List.append_cancel_right htext).symm (by simp [other.text_ne_nil])
  | cons element elements ih =>
      cases others with
      | nil =>
          exact absurd (List.append_cancel_right htext) (by simp [element.text_ne_nil])
      | cons other others =>
          rw [isBody, Bool.and_eq_true] at h h'
          have hread := readElement_text h.1
          have hother := readElement_text h'.1
          rw [← List.append_assoc, ← bodyText_cons] at hread hother
          rw [htext, hother, Option.some.injEq, Prod.mk.injEq] at hread
          obtain ⟨rfl, hrest⟩ := hread
          rw [ih h.2 h'.2 hrest.symm]

/-- The value of a literal is determined by its text. -/
theorem StringLiteral.value_unique
    {literal other : StringLiteral}
    (h : literal.text = other.text) :
    literal.value = other.value := by
  have hchars := String.ofList_injective h
  rw [List.cons_append, List.cons_append, List.cons.injEq] at hchars
  obtain ⟨hdelimiter, hbody⟩ := hchars
  have hother := other.body
  rw [← hdelimiter] at hbody hother
  rw [StringLiteral.value, elements_unique literal.body hother hbody, StringLiteral.value]

end Script
end SuiteShift
