import SuiteShift.Proofs.Literal.Nesting
import SuiteShift.Proofs.Script.StringLiteral

/-!
# Template literals of scripts

The grammar of template literals, and the value of an expression that is put together from
literals and from expressions whose values are given.

- `ExpressionSyntax`: the texts of expressions are known by where they end, and nothing else is
  assumed about them; `wellNested` is one such family of texts.
- `TemplatePart`, `TemplateLiteral`: what can stand between backquotes, as it is written and what
  it means once the substitutions have values.
- `parts_unique`: a template literal is read in one way only.
- `Evaluates`: the value of an expression, by what it is.
- `evaluates_unique`, `exists_evaluates`: every text has exactly one value.
-/

namespace SuiteShift
namespace Script

/-- The texts of expressions that can stand in a substitution: none of two that begin the same
text goes on beyond the brace after the other. -/
structure ExpressionSyntax where
  holds : List Char → Prop
  ends {source other rest tail : List Char} :
    holds source →
    holds other →
    source ++ '\x7d' :: rest = other ++ '\x7d' :: tail →
    source = other

/-! ### Texts with closed brackets -/

/-- A text that closes what it opens does not go on after a brace that it did not open. -/
theorem not_wellNested_append_brace
    {source : List Char}
    (h : Literal.WellNested source)
    (rest : List Char) :
    ¬ Literal.WellNested (source ++ '\x7d' :: rest) := by
  intro hlonger
  have hstray := hlonger.strayFree
  rw [Literal.Nesting.strayFree_append, Bool.and_eq_true] at hstray
  have hstart : Literal.Nesting.run {} source = {} :=
    Literal.Nesting.run_eq_start h.closed
  rw [hstart, Literal.Nesting.strayFree] at hstray
  exact absurd hstray.2 (by simp [Literal.Nesting.isStray])

theorem eq_of_append_brace
    {source other rest tail : List Char}
    (hsource : Literal.WellNested source)
    (hother : Literal.WellNested other)
    (h : source ++ '\x7d' :: rest = other ++ '\x7d' :: tail) :
    source = other := by
  rcases List.append_eq_append_iff.mp h with ⟨more, rfl, hmore⟩ | ⟨more, rfl, hmore⟩
  · cases more with
    | nil =>
        rw [List.append_nil]
    | cons c more =>
        obtain ⟨rfl, -⟩ := List.cons.inj hmore
        exact absurd hother (not_wellNested_append_brace hsource more)
  · cases more with
    | nil =>
        rw [List.append_nil]
    | cons c more =>
        obtain ⟨rfl, -⟩ := List.cons.inj hmore
        exact absurd hsource (not_wellNested_append_brace hother more)

/-- Expressions as texts that close what they open. -/
def wellNested : ExpressionSyntax where
  holds := Literal.WellNested
  ends := eq_of_append_brace

/-! ### Parts -/

/-- What can stand in a template literal. -/
inductive TemplatePart where
  | char (c : Char)
  | escape (e : Escape)
  /-- A line end with a carriage return, which means a line feed. -/
  | lineEnd (text : List Char)
  | substitution (source : List Char)
deriving DecidableEq

/-- The escape is of the old form, which template literals do not have. -/
def Escape.isOldForm : Escape → Bool
  | octal _ => true
  | decimal _ => true
  | _ => false

namespace TemplatePart

/-- The part as it is written. -/
def text : TemplatePart → List Char
  | char c => [c]
  | escape e => '\\' :: e.text
  | lineEnd text => text
  | substitution source => '$' :: '\x7b' :: source ++ ['\x7d']

/-- What the part means, from the values of expressions. -/
def units (values : List Char → List Nat) : TemplatePart → List Nat
  | char c => Text.codeUnits c.toNat
  | escape e => e.units
  | lineEnd _ => [10]
  | substitution source => values source

/-- The expression of a substitution. -/
def source? : TemplatePart → Option (List Char)
  | substitution source => some source
  | _ => none

/-- The part can stand before a character. -/
def IsValid (grammar : ExpressionSyntax) (next : Option Char) : TemplatePart → Prop
  | char c =>
    c ≠ '\x60' ∧ c ≠ '\\' ∧ c ≠ '\r' ∧ (c = '$' → next ≠ some '\x7b')
  | escape e => e.isValid next = true ∧ e.isOldForm = false
  | lineEnd text => text = ['\r', '\n'] ∨ text = ['\r'] ∧ next ≠ some '\n'
  | substitution source => grammar.holds source

end TemplatePart

/-- The text between the backquotes. -/
def partsText (parts : List TemplatePart) : List Char :=
  parts.flatMap TemplatePart.text

/-- Every part can stand where it stands. -/
def IsTemplateBody (grammar : ExpressionSyntax) : List TemplatePart → Prop
  | [] => True
  | part :: parts =>
    part.IsValid grammar (partsText parts ++ ['\x60']).head? ∧ IsTemplateBody grammar parts

/-- A template literal. -/
structure TemplateLiteral (grammar : ExpressionSyntax) where
  parts : List TemplatePart
  body : IsTemplateBody grammar parts

namespace TemplateLiteral

variable {grammar : ExpressionSyntax}

/-- The literal as it is written. -/
def text (literal : TemplateLiteral grammar) : List Char :=
  '\x60' :: partsText literal.parts ++ ['\x60']

/-- The value of the literal, from the values of its substitutions. -/
def value (values : List Char → List Nat) (literal : TemplateLiteral grammar) : List Nat :=
  literal.parts.flatMap (TemplatePart.units values)

/-- The expressions of the substitutions. -/
def sources (literal : TemplateLiteral grammar) : List (List Char) :=
  literal.parts.filterMap TemplatePart.source?

end TemplateLiteral

/-! ### One reading -/

variable {grammar : ExpressionSyntax}

/-- What begins with a character that begins no other part is that character. -/
theorem eq_char_of_text
    {c : Char}
    {part : TemplatePart}
    {rest tail : List Char}
    (h : (TemplatePart.char c).IsValid grammar tail.head?)
    (hpart : part.IsValid grammar rest.head?)
    (htext : part.text ++ rest = c :: tail) :
    part = .char c ∧ rest = tail := by
  obtain ⟨-, hbackslash, hreturn, hdollar⟩ := h
  cases part with
  | char d =>
      obtain ⟨rfl, hrest⟩ := List.cons.inj htext
      exact ⟨rfl, hrest⟩
  | escape e =>
      exact absurd (List.cons.inj htext).1.symm hbackslash
  | lineEnd text =>
      rcases hpart with rfl | ⟨rfl, -⟩ <;> exact absurd (List.cons.inj htext).1.symm hreturn
  | substitution source =>
      -- A lone dollar has no brace after it.
      obtain ⟨hc, htail⟩ := List.cons.inj htext
      exact absurd (by rw [show tail = _ from htail.symm]; rfl) (hdollar hc.symm)

/-- What begins with a line end that has a carriage return is that line end. -/
theorem eq_lineEnd_of_text
    {text : List Char}
    {part : TemplatePart}
    {rest tail : List Char}
    (h : (TemplatePart.lineEnd text).IsValid grammar tail.head?)
    (hpart : part.IsValid grammar rest.head?)
    (htext : part.text ++ rest = text ++ tail) :
    part = .lineEnd text ∧ rest = tail := by
  cases part with
  | char c =>
      rcases h with rfl | ⟨rfl, -⟩ <;> exact absurd (List.cons.inj htext).1 hpart.2.2.1
  | escape e =>
      rcases h with rfl | ⟨rfl, -⟩ <;> simp [TemplatePart.text] at htext
  | lineEnd text' =>
      -- A lone return and one with a line feed differ in what comes next.
      rcases h with rfl | ⟨rfl, hnext⟩ <;> rcases hpart with rfl | ⟨rfl, hnext'⟩
      · simpa [TemplatePart.text] using htext
      · rw [show rest = '\n' :: tail by simpa [TemplatePart.text] using htext] at hnext'
        exact absurd rfl hnext'
      · rw [show tail = '\n' :: rest by simpa [TemplatePart.text] using htext.symm] at hnext
        exact absurd rfl hnext
      · simpa [TemplatePart.text] using htext
  | substitution source =>
      rcases h with rfl | ⟨rfl, -⟩ <;> simp [TemplatePart.text] at htext

/-- The first characters tell which part it is, and what follows a lone dollar or a lone carriage
return tells it from a substitution and from a line end of two characters. -/
theorem part_unique
    {part other : TemplatePart}
    {rest tail : List Char}
    (h : part.IsValid grammar rest.head?)
    (h' : other.IsValid grammar tail.head?)
    (htext : part.text ++ rest = other.text ++ tail) :
    part = other ∧ rest = tail := by
  cases part with
  | char c =>
      obtain ⟨rfl, rfl⟩ := eq_char_of_text h h' htext.symm
      exact ⟨rfl, rfl⟩
  | lineEnd text =>
      obtain ⟨rfl, rfl⟩ := eq_lineEnd_of_text h h' htext.symm
      exact ⟨rfl, rfl⟩
  | escape e =>
      cases other with
      | char d =>
          exact eq_char_of_text h' h htext
      | lineEnd text =>
          exact eq_lineEnd_of_text h' h htext
      | escape f =>
          obtain ⟨-, htail⟩ := List.cons.inj htext
          have hread := readEscape_text h.1
          have hother := readEscape_text h'.1
          rw [show e.text ++ rest = f.text ++ tail from htail, hother] at hread
          obtain ⟨rfl, rfl⟩ := Prod.mk.inj (Option.some.inj hread)
          exact ⟨rfl, rfl⟩
      | substitution source =>
          simp [TemplatePart.text] at htext
  | substitution source =>
      cases other with
      | char d =>
          exact eq_char_of_text h' h htext
      | lineEnd text =>
          exact eq_lineEnd_of_text h' h htext
      | escape f =>
          simp [TemplatePart.text] at htext
      | substitution source' =>
          have hinner : source ++ '\x7d' :: rest = source' ++ '\x7d' :: tail := by
            simpa [TemplatePart.text] using htext
          obtain rfl := grammar.ends h h' hinner
          exact ⟨rfl, by simpa using hinner⟩

theorem TemplatePart.text_ne_nil
    {part : TemplatePart}
    {next : Option Char}
    (h : part.IsValid grammar next) :
    part.text ≠ [] := by
  cases part with
  | char c =>
      simp [text]
  | escape e =>
      simp [text]
  | lineEnd text =>
      rcases h with rfl | ⟨rfl, -⟩ <;> simp [TemplatePart.text]
  | substitution source =>
      simp [text]

/-- There is one way to read what stands between the backquotes. -/
theorem parts_unique
    {parts others : List TemplatePart}
    (h : IsTemplateBody grammar parts)
    (h' : IsTemplateBody grammar others)
    (htext : partsText parts ++ ['\x60'] = partsText others ++ ['\x60']) :
    parts = others := by
  induction parts generalizing others with
  | nil =>
      cases others with
      | nil =>
          rfl
      | cons other others =>
          have hnil := List.append_cancel_right htext
          exact absurd (List.append_eq_nil_iff.mp hnil.symm).1 (TemplatePart.text_ne_nil h'.1)
  | cons part parts ih =>
      cases others with
      | nil =>
          have hnil := List.append_cancel_right htext
          exact absurd (List.append_eq_nil_iff.mp hnil).1 (TemplatePart.text_ne_nil h.1)
      | cons other others =>
          have hcons :
              part.text ++ (partsText parts ++ ['\x60']) =
                other.text ++ (partsText others ++ ['\x60']) := by
            simpa [partsText] using htext
          obtain ⟨rfl, hrest⟩ := part_unique h.1 h'.1 hcons
          rw [ih h.2 h'.2 hrest]

/-- The parts of a template literal are determined by its text. -/
theorem TemplateLiteral.parts_eq
    {literal other : TemplateLiteral grammar}
    (h : literal.text = other.text) :
    literal.parts = other.parts := by
  obtain ⟨-, hbody⟩ := List.cons.inj h
  exact parts_unique literal.body other.body hbody

/-! ### Values -/

/-- The value of an expression: a string literal and a template literal have theirs, and what is
neither has the value that it is given. -/
inductive Evaluates (grammar : ExpressionSyntax) (assignment : List Char → List Nat) :
    List Char → List Nat → Prop
  | string (literal : StringLiteral) :
      Evaluates grammar assignment literal.text.toList literal.value
  | template (literal : TemplateLiteral grammar) (values : List Char → List Nat) :
      (∀ source ∈ literal.sources, Evaluates grammar assignment source (values source)) →
      Evaluates grammar assignment literal.text (literal.value values)
  | other {source : List Char} :
      (∀ literal : StringLiteral, literal.text.toList ≠ source) →
      (∀ literal : TemplateLiteral grammar, literal.text ≠ source) →
      Evaluates grammar assignment source (assignment source)

variable {assignment : List Char → List Nat}

/-- The value of a template literal depends on its substitutions alone. -/
theorem value_congr
    {parts : List TemplatePart}
    {values others : List Char → List Nat}
    (h : ∀ source ∈ parts.filterMap TemplatePart.source?, values source = others source) :
    parts.flatMap (TemplatePart.units values) = parts.flatMap (TemplatePart.units others) := by
  refine List.flatMap_congr fun part hmem => ?_
  cases part with
  | char c =>
      rfl
  | escape e =>
      rfl
  | lineEnd text =>
      rfl
  | substitution source =>
      exact h source (List.mem_filterMap.mpr ⟨_, hmem, rfl⟩)

/-- A string literal and a template literal begin with different characters. -/
theorem StringLiteral.text_ne_template
    (literal : StringLiteral)
    (template : TemplateLiteral grammar) :
    literal.text.toList ≠ template.text := by
  rw [StringLiteral.text, String.toList_ofList, TemplateLiteral.text, List.cons_append,
    List.cons_append]
  intro h
  rcases literal.quoted with hquote | hquote <;> rw [hquote] at h <;>
    exact absurd (List.cons.inj h).1 (by decide)

/-- A text has no two values. -/
theorem evaluates_unique
    {source : List Char}
    {value other : List Nat}
    (h : Evaluates grammar assignment source value)
    (h' : Evaluates grammar assignment source other) :
    value = other := by
  induction h generalizing other with
  | string literal =>
      generalize hsource : literal.text.toList = source at h'
      cases h' with
      | string literal' =>
          exact StringLiteral.value_unique (String.toList_injective hsource)
      | template literal' values _ =>
          exact absurd hsource (literal.text_ne_template literal')
      | other hstring _ =>
          exact absurd hsource (hstring literal)
  | template literal values hvalues ih =>
      generalize hsource : literal.text = source at h'
      cases h' with
      | string literal' =>
          exact absurd hsource.symm (literal'.text_ne_template literal)
      | template literal' values' hvalues' =>
          have hparts := TemplateLiteral.parts_eq hsource
          rw [TemplateLiteral.value, TemplateLiteral.value, ← hparts]
          refine value_congr fun source hmem => ih source hmem (hvalues' source ?_)
          rw [TemplateLiteral.sources, ← hparts]
          exact hmem
      | other _ htemplate =>
          exact absurd hsource (htemplate literal)
  | other hstring htemplate =>
      cases h' with
      | string literal =>
          exact absurd rfl (hstring literal)
      | template literal values _ =>
          exact absurd rfl (htemplate literal)
      | other _ _ =>
          rfl

theorem length_source_lt
    {parts : List TemplatePart}
    {source : List Char}
    (hmem : source ∈ parts.filterMap TemplatePart.source?) :
    source.length < (partsText parts).length := by
  obtain ⟨part, hpart, hsource⟩ := List.mem_filterMap.mp hmem
  cases part with
  | substitution source' =>
      obtain rfl := Option.some.inj hsource
      obtain ⟨before, after, rfl⟩ := List.append_of_mem hpart
      simp only [partsText, List.flatMap_append, List.flatMap_cons, List.length_append,
        TemplatePart.text, List.length_cons]
      omega
  | _ =>
      cases hsource

/-- Every text has a value, whatever values expressions are given. -/
theorem exists_evaluates
    (grammar : ExpressionSyntax)
    (assignment : List Char → List Nat)
    (source : List Char) :
    ∃ value, Evaluates grammar assignment source value := by
  induction hlength : source.length using Nat.strongRecOn generalizing source with
  | ind n ih =>
      subst hlength
      by_cases hstring : ∃ literal : StringLiteral, literal.text.toList = source
      · obtain ⟨literal, rfl⟩ := hstring
        exact ⟨_, .string literal⟩
      by_cases htemplate : ∃ literal : TemplateLiteral grammar, literal.text = source
      · obtain ⟨literal, rfl⟩ := htemplate
        have hvalue : ∀ source ∈ literal.sources,
            ∃ value, Evaluates grammar assignment source value := by
          intro source hmem
          refine ih source.length ?_ source rfl
          have hlt := length_source_lt hmem
          rw [TemplateLiteral.text, List.cons_append, List.length_cons, List.length_append]
          omega
        choose! values hvalues using hvalue
        exact ⟨_, .template literal values hvalues⟩
      · exact ⟨_, .other (not_exists.mp hstring) (not_exists.mp htemplate)⟩

end Script
end SuiteShift
