import SuiteShift.CustomCommand.Pattern
import SuiteShift.Proofs.Script.TemplateLiteral
import SuiteShift.Proofs.Spec.StringValue
import Mathlib.Data.List.DropRight
import Mathlib.Data.List.Infix

/-!
# Addresses of segments

A navigation joins its arguments to one address: a literal if all of them are literals, a
template literal if some are not, and a single expression as it is.

- `Segment`: an argument with what it is; its text in the path, and the parts of a template
  literal that it becomes.
- `charUnits_trimSlashes`: slashes are removed from a text as from its value.
- `isTemplateBody_join`: segments between slashes are the body of a template literal, if no text
  of a literal means something else there.
- `evaluates_navigationUrl`: the value of the address.
- `joinedValue_eq_of_trimmed`: an expression is joined as a literal is, unless its value has slashes
  at its ends or nothing in it.
- `navigation_joins_segments`: the statement for any number of arguments of all kinds.
-/

namespace SuiteShift

/-- What is joined with something between, after every item has become a list. -/
theorem flatMap_intercalate
    {α β : Type}
    (f : α → List β)
    (separator : List α)
    (pieces : List (List α)) :
    (separator.intercalate pieces).flatMap f =
      (separator.flatMap f).intercalate (pieces.map (·.flatMap f)) := by
  induction pieces with
  | nil =>
      rfl
  | cons piece pieces ih =>
      cases pieces with
      | nil =>
          simp
      | cons next pieces =>
          rw [List.map_cons] at ih
          simp only [List.map_cons, List.intercalate_cons_cons, List.flatMap_append, ih]

theorem of_mem_intercalate
    {α : Type}
    {separator : List α}
    {pieces : List (List α)}
    {a : α}
    (h : a ∈ separator.intercalate pieces) :
    a ∈ separator ∨ ∃ piece ∈ pieces, a ∈ piece := by
  induction pieces with
  | nil =>
      simp at h
  | cons piece pieces ih =>
      cases pieces with
      | nil =>
          rw [List.intercalate_singleton] at h
          exact Or.inr ⟨piece, List.mem_cons_self, h⟩
      | cons next pieces =>
          rw [List.intercalate_cons_cons, List.mem_append, List.mem_append] at h
          rcases h with (hpiece | hseparator) | hrest
          · exact Or.inr ⟨piece, List.mem_cons_self, hpiece⟩
          · exact Or.inl hseparator
          · rcases ih hrest with hseparator | ⟨other, hmem, hother⟩
            · exact Or.inl hseparator
            · exact Or.inr ⟨other, List.mem_cons_of_mem piece hmem, hother⟩

namespace CustomCommand

open Script (Evaluates ExpressionSyntax IsTemplateBody StringLiteral TemplateLiteral TemplatePart
  partsText)
open Text (charUnits codeUnits)

/-! ### Slashes at the ends -/

/-- Removes slashes at both ends of a value. -/
def trimSlashUnits (units : List Nat) : List Nat :=
  (units.dropWhile (· == 47)).rdropWhile (· == 47)

theorem codeUnits_slash :
    codeUnits '/'.toNat = [47] := by
  decide

theorem not_slash_of_mem
    {c : Char}
    {u : Nat}
    (hc : c ≠ '/')
    (hmem : u ∈ codeUnits c.toNat) :
    (u == 47) = false := by
  rw [beq_eq_false_iff_ne]
  rintro rfl
  have heq := Text.eq_of_mem_codeUnits hmem (by decide)
  exact hc (Char.toNat_inj.mp heq.symm)

theorem dropWhile_charUnits
    (cs : List Char) :
    (charUnits cs).dropWhile (· == 47) = charUnits (cs.dropWhile (· == '/')) := by
  induction cs with
  | nil =>
      rfl
  | cons c cs ih =>
      rw [Text.charUnits_cons]
      by_cases hc : c = '/'
      · subst hc
        rw [codeUnits_slash, List.singleton_append, List.dropWhile_cons_of_pos (by rfl),
          List.dropWhile_cons_of_pos (by rfl)]
        exact ih
      · obtain ⟨u, units, hunits⟩ := List.exists_cons_of_ne_nil (Text.codeUnits_ne_nil c.toNat)
        have hslash : (u == 47) = false :=
          not_slash_of_mem hc (hunits ▸ List.mem_cons_self)
        rw [List.dropWhile_cons_of_neg (by simpa using hc), hunits, List.cons_append,
          List.dropWhile_cons_of_neg (by simp [hslash]), Text.charUnits_cons, hunits,
          List.cons_append]

theorem rdropWhile_charUnits
    (cs : List Char) :
    (charUnits cs).rdropWhile (· == 47) = charUnits (cs.rdropWhile (· == '/')) := by
  induction cs using List.reverseRecOn with
  | nil =>
      rfl
  | append_singleton cs c ih =>
      rw [Text.charUnits_append, charUnits, charUnits, List.flatMap_singleton]
      by_cases hc : c = '/'
      · subst hc
        rw [codeUnits_slash, List.rdropWhile_concat_pos _ _ _ (by rfl),
          List.rdropWhile_concat_pos _ _ _ (by rfl)]
        exact ih
      · obtain ⟨units, u, hunits⟩ : ∃ units u, codeUnits c.toNat = units ++ [u] :=
          ⟨_, _, (List.dropLast_append_getLast (Text.codeUnits_ne_nil c.toNat)).symm⟩
        have hslash : (u == 47) = false :=
          not_slash_of_mem hc (hunits ▸ List.mem_append_right _ (List.mem_singleton_self u))
        rw [List.rdropWhile_concat_neg _ _ _ (by simpa using hc), hunits, ← List.append_assoc,
          List.rdropWhile_concat_neg _ _ _ (by simp [hslash]), charUnits, List.flatMap_append,
          List.flatMap_singleton, hunits, List.append_assoc]

/-- Slashes are removed from a text as from its value. -/
theorem charUnits_trimSlashes
    (cs : List Char) :
    charUnits (trimSlashes cs) = trimSlashUnits (charUnits cs) := by
  rw [trimSlashUnits, dropWhile_charUnits, rdropWhile_charUnits]
  rfl

theorem isInfix_trimSlashes
    (cs : List Char) :
    trimSlashes cs <:+: cs := by
  have hend : trimSlashes cs <+: cs.dropWhile (· == '/') := List.rdropWhile_prefix _ _
  exact hend.isInfix.trans (List.dropWhile_suffix _).isInfix

/-! ### Segments -/

/-- An argument of a navigation: a string literal whose escapes are known, or any other
expression, a template literal among them. -/
inductive Segment (grammar : ExpressionSyntax) where
  | literal (constant : StringLiteral) (known : constant.isKnown = true)
  | inserted (source : List Char) (expression : grammar.holds source)
      (trimmed : Text.trimChars source = source)
      (apart : isPlainLiteral (String.ofList source) = false)

namespace Segment

variable {grammar : ExpressionSyntax}

/-- The argument as it is written. -/
def token : Segment grammar → String
  | literal constant _ => constant.text
  | inserted source _ _ _ => String.ofList source

/-- The expression that is inserted. -/
def source? : Segment grammar → Option (List Char)
  | literal _ _ => none
  | inserted source _ _ _ => some source

/-- The value of the argument. -/
def value (values : List Char → List Nat) : Segment grammar → List Nat
  | literal constant _ => constant.value
  | inserted source _ _ _ => values source

/-- What the argument adds to the address: a literal without the slashes at its ends, any other
value as it is. -/
def units (values : List Char → List Nat) : Segment grammar → List Nat
  | literal constant _ => trimSlashUnits constant.value
  | inserted source _ _ _ => values source

/-- The argument has a place in the address: a literal without anything but slashes has none. -/
def isKept : Segment grammar → Bool
  | literal constant _ => !(trimSlashUnits constant.value).isEmpty
  | inserted _ _ _ _ => true

/-- The text of the argument in the path. -/
def path : Segment grammar → List Char
  | literal constant _ => trimSlashes (literalContents constant.text).toList
  | inserted source _ _ _ => '$' :: '\x7b' :: source ++ ['\x7d']

/-- The argument as parts of a template literal. -/
def parts : Segment grammar → List TemplatePart
  | literal constant _ => (trimSlashes (literalContents constant.text).toList).map .char
  | inserted source _ _ _ => [.substitution source]

end Segment

section Segments

variable {grammar : ExpressionSyntax}

theorem isQuoted_text
    (constant : StringLiteral) :
    Literal.isQuoted constant.text = true := by
  have hdelimiter := constant.isDelimiter_delimiter
  rw [Literal.isQuoted, StringLiteral.text, String.toList_ofList,
    Literal.isQuotedChars_quoted hdelimiter]
  exact Script.isPlainBody_bodyText hdelimiter constant.body

theorem isPlainLiteral_text
    (constant : StringLiteral) :
    isPlainLiteral constant.text = true := by
  have hhead : constant.text.toList.head? = some constant.delimiter := by
    rw [StringLiteral.text, String.toList_ofList]
    rfl
  rw [isPlainLiteral, isQuoted_text, hhead, Bool.true_and, bne_iff_ne]
  rcases constant.quoted with h | h <;> rw [h] <;> decide

theorem charUnits_contents
    {constant : StringLiteral}
    (known : constant.isKnown = true) :
    charUnits (literalContents constant.text).toList = constant.value :=
  constant.utf16_unescape_iff.mpr known

theorem isPlainLiteral_token
    (segment : Segment grammar) :
    isPlainLiteral segment.token = segment.source?.isNone := by
  cases segment with
  | literal constant known =>
      exact isPlainLiteral_text constant
  | inserted source expression trimmed apart =>
      exact apart

theorem toList_pathSegment
    (segment : Segment grammar) :
    (pathSegment segment.token).toList = segment.path := by
  rw [pathSegment, isPlainLiteral_token]
  cases segment with
  | literal constant known =>
      exact String.toList_ofList
  | inserted source expression trimmed apart =>
      simp [Segment.source?, Segment.token, Segment.path, Text.trim, trimmed]

theorem charUnits_path
    {constant : StringLiteral}
    (known : constant.isKnown = true) :
    charUnits (Segment.literal constant known : Segment grammar).path =
      trimSlashUnits constant.value := by
  rw [Segment.path, charUnits_trimSlashes, charUnits_contents known]

/-- The path leaves out just the literals of slashes. -/
theorem isEmpty_path
    (segment : Segment grammar) :
    (!segment.path.isEmpty) = segment.isKept := by
  cases segment with
  | literal constant known =>
      have hpath := Text.charUnits_eq_nil_iff
        (Segment.literal constant known : Segment grammar).path
      rw [charUnits_path] at hpath
      rw [Segment.isKept, Bool.eq_iff_iff]
      simp only [Bool.not_eq_true', List.isEmpty_eq_false_iff, ne_eq, hpath]
  | inserted source expression trimmed apart =>
      rfl

/-- The path of segments: those that are kept, after a slash and with slashes between them. -/
def pathOf (segments : List (Segment grammar)) : List Char :=
  '/' :: List.intercalate ['/'] ((segments.filter Segment.isKept).map Segment.path)

/-- The value of segments, joined in the same way. -/
def joinedValue (values : List Char → List Nat) (segments : List (Segment grammar)) : List Nat :=
  47 :: List.intercalate [47] ((segments.filter Segment.isKept).map (Segment.units values))

theorem filter_pathSegment
    (segments : List (Segment grammar)) :
    (((segments.map Segment.token).map pathSegment).filter fun s => !s.isEmpty).map
        String.toList =
      (segments.filter Segment.isKept).map Segment.path := by
  induction segments with
  | nil =>
      rfl
  | cons segment segments ih =>
      have hkept : (!(pathSegment segment.token).isEmpty) = segment.isKept := by
        rw [← isEmpty_path, ← toList_pathSegment, Bool.eq_iff_iff]
        simp
      simp only [List.map_cons, List.filter_cons, hkept]
      cases segment.isKept with
      | true =>
          simp only [if_true, List.map_cons, toList_pathSegment, ih]
      | false =>
          exact ih

/-- All arguments are literals exactly if none is inserted. -/
theorem all_isPlainLiteral
    (segments : List (Segment grammar)) :
    (segments.map Segment.token).all isPlainLiteral =
      segments.all fun segment => segment.source?.isNone := by
  simp only [List.all_map, Function.comp_def, isPlainLiteral_token]

theorem toList_joinSegments
    (segments : List (Segment grammar)) :
    (joinSegments (segments.map Segment.token)).toList =
      if segments.all fun segment => segment.source?.isNone then
        (Literal.quote (String.ofList (pathOf segments))).toList
      else '\x60' :: pathOf segments ++ ['\x60'] := by
  have hpath :
      ("/" ++ "/".intercalate (((segments.map Segment.token).map pathSegment).filter
        fun s => !s.isEmpty)).toList = pathOf segments := by
    rw [String.toList_append, String.toList_intercalate, filter_pathSegment]
    rfl
  rw [joinSegments, all_isPlainLiteral]
  split_ifs
  · rw [← hpath, String.ofList_toList]
  · rw [String.toList_append, String.toList_append, hpath]
    rfl

/-! ### Literals alone -/

theorem charUnits_pathOf
    (values : List Char → List Nat)
    {segments : List (Segment grammar)}
    (hliteral : ∀ segment ∈ segments, segment.source? = none) :
    charUnits (pathOf segments) = joinedValue values segments := by
  have hunits : ((segments.filter Segment.isKept).map Segment.path).map charUnits =
      (segments.filter Segment.isKept).map (Segment.units values) := by
    rw [List.map_map]
    refine List.map_congr_left fun segment hmem => ?_
    have hnone := hliteral segment (List.mem_of_mem_filter hmem)
    cases segment with
    | literal constant known =>
        rw [Function.comp_apply, charUnits_path known, Segment.units]
    | inserted source expression trimmed apart =>
        rw [Segment.source?] at hnone
        cases hnone
  have hjoin := flatMap_intercalate (fun c => codeUnits c.toNat) ['/']
    ((segments.filter Segment.isKept).map Segment.path)
  rw [joinedValue, ← hunits]
  exact congrArg (codeUnits '/'.toNat ++ ·) hjoin

/-! ### Literals beside insertions -/

/-- What would mean something else between backquotes than in a string literal. -/
def templateMarks : List (List Char) :=
  [['\x60'], ['\\'], ['\r'], ['$', '\x7b']]

/-- A text means the same in a template literal. -/
def IsTemplateText (cs : List Char) : Prop :=
  ∀ word ∈ templateMarks, ¬ word <:+: cs

/-- A literal means the same in a template literal, without the slashes at its ends. -/
def Segment.IsSpliced : Segment grammar → Prop
  | .literal constant _ => ∀ word ∈ templateMarks, ¬ charUnits word <:+: constant.value
  | .inserted _ _ _ _ => True

theorem isTemplateText_path
    {constant : StringLiteral}
    {known : constant.isKnown = true}
    (h : (Segment.literal constant known : Segment grammar).IsSpliced) :
    IsTemplateText (Segment.literal constant known : Segment grammar).path := by
  intro word hword hmark
  refine h word hword ?_
  rw [← charUnits_contents known]
  exact Text.isInfix_charUnits (hmark.trans (isInfix_trimSlashes _))

/-- Characters without such marks are parts that stand for themselves. -/
theorem isTemplateBody_chars
    {cs : List Char}
    {rest : List TemplatePart}
    (hcs : IsTemplateText cs)
    (hrest : IsTemplateBody grammar rest)
    (hnext : (partsText rest ++ ['\x60']).head? ≠ some '\x7b') :
    IsTemplateBody grammar (cs.map .char ++ rest) := by
  induction cs with
  | nil =>
      exact hrest
  | cons c cs ih =>
      have htail : IsTemplateText cs := fun word hword hmark =>
        hcs word hword (hmark.trans (List.suffix_cons c cs).isInfix)
      have hne (d : Char) (hmark : [d] ∈ templateMarks) : c ≠ d := by
        rintro rfl
        exact hcs [c] hmark ⟨[], cs, rfl⟩
      refine ⟨⟨hne _ (by decide), hne _ (by decide), hne _ (by decide), ?_⟩, ih htail⟩
      rintro rfl
      cases cs with
      | nil =>
          exact hnext
      | cons d cs =>
          intro hbrace
          obtain rfl : d = '\x7b' := Option.some.inj hbrace
          exact hcs ['$', '\x7b'] (by decide) ⟨[], cs, rfl⟩

theorem isTemplateBody_parts
    {segment : Segment grammar}
    {rest : List TemplatePart}
    (hsegment : segment.IsSpliced)
    (hrest : IsTemplateBody grammar rest)
    (hnext : (partsText rest ++ ['\x60']).head? ≠ some '\x7b') :
    IsTemplateBody grammar (segment.parts ++ rest) := by
  cases segment with
  | literal constant known =>
      have htext := isTemplateText_path hsegment
      rw [Segment.path] at htext
      rw [Segment.parts]
      generalize trimSlashes (literalContents constant.text).toList = cs at htext
      exact isTemplateBody_chars htext hrest hnext
  | inserted source expression trimmed apart =>
      rw [Segment.parts, List.singleton_append]
      exact ⟨expression, hrest⟩

/-- Segments between slashes are the body of a template literal. -/
theorem isTemplateBody_join
    {segments : List (Segment grammar)}
    (h : ∀ segment ∈ segments, segment.IsSpliced) :
    IsTemplateBody grammar
      (.char '/' :: List.intercalate [.char '/'] (segments.map Segment.parts)) := by
  have hslash {parts : List TemplatePart} (hparts : IsTemplateBody grammar parts) :
      IsTemplateBody grammar (.char '/' :: parts) :=
    ⟨⟨by decide, by decide, by decide, fun heq => absurd heq (by decide)⟩, hparts⟩
  induction segments with
  | nil =>
      exact hslash trivial
  | cons segment segments ih =>
      rw [List.forall_mem_cons] at h
      cases segments with
      | nil =>
          have hparts : IsTemplateBody grammar (segment.parts ++ []) :=
            isTemplateBody_parts h.1 trivial (by decide)
          rw [List.append_nil] at hparts
          simpa using hslash hparts
      | cons next segments =>
          have hparts := isTemplateBody_parts h.1 (ih h.2) (by simp [partsText, TemplatePart.text])
          simpa [List.intercalate_cons_cons] using hslash hparts

theorem partsText_parts
    (segment : Segment grammar) :
    segment.parts.flatMap TemplatePart.text = segment.path := by
  cases segment with
  | literal constant known =>
      simp [Segment.parts, Segment.path, List.flatMap_map, TemplatePart.text]
  | inserted source expression trimmed apart =>
      simp [Segment.parts, Segment.path, TemplatePart.text]

theorem units_parts
    (values : List Char → List Nat)
    (segment : Segment grammar) :
    segment.parts.flatMap (TemplatePart.units values) = segment.units values := by
  cases segment with
  | literal constant known =>
      have hpath : charUnits (Segment.literal constant known : Segment grammar).path =
          trimSlashUnits constant.value :=
        charUnits_path known
      rw [Segment.path, charUnits] at hpath
      rw [Segment.parts, Segment.units, List.flatMap_map, ← hpath]
      rfl
  | inserted source expression trimmed apart =>
      simp [Segment.parts, Segment.units, TemplatePart.units]

/-- The template literal of segments. -/
def templateOf
    (segments : List (Segment grammar))
    (h : ∀ segment ∈ segments, segment.IsSpliced) :
    TemplateLiteral grammar where
  parts := .char '/' ::
    List.intercalate [.char '/'] ((segments.filter Segment.isKept).map Segment.parts)
  body := isTemplateBody_join fun segment hmem => h segment (List.mem_of_mem_filter hmem)

theorem text_templateOf
    {segments : List (Segment grammar)}
    (h : ∀ segment ∈ segments, segment.IsSpliced) :
    (templateOf segments h).text = '\x60' :: pathOf segments ++ ['\x60'] := by
  have hjoin := flatMap_intercalate TemplatePart.text [.char '/']
    ((segments.filter Segment.isKept).map Segment.parts)
  simp only [List.map_map, Function.comp_def, partsText_parts] at hjoin
  rw [TemplateLiteral.text, templateOf, partsText, List.flatMap_cons, hjoin]
  rfl

theorem value_templateOf
    (values : List Char → List Nat)
    {segments : List (Segment grammar)}
    (h : ∀ segment ∈ segments, segment.IsSpliced) :
    (templateOf segments h).value values = joinedValue values segments := by
  have hjoin := flatMap_intercalate (TemplatePart.units values) [.char '/']
    ((segments.filter Segment.isKept).map Segment.parts)
  simp only [List.map_map, Function.comp_def, units_parts] at hjoin
  rw [TemplateLiteral.value, templateOf, List.flatMap_cons, hjoin]
  rfl

theorem sources_templateOf
    {segments : List (Segment grammar)}
    (h : ∀ segment ∈ segments, segment.IsSpliced)
    {source : List Char}
    (hsource : source ∈ (templateOf segments h).sources) :
    ∃ segment ∈ segments, segment.source? = some source := by
  obtain ⟨part, hpart, hsource⟩ := List.mem_filterMap.mp hsource
  have hsubstitution : part = .substitution source := by
    cases part <;> cases hsource
    rfl
  subst hsubstitution
  rw [templateOf, List.mem_cons] at hpart
  rcases hpart with hslash | hpart
  · cases hslash
  rcases of_mem_intercalate hpart with hslash | ⟨parts, hparts, hmem⟩
  · cases List.mem_singleton.mp hslash
  · obtain ⟨segment, hsegment, rfl⟩ := List.mem_map.mp hparts
    refine ⟨segment, List.mem_of_mem_filter hsegment, ?_⟩
    cases segment with
    | literal constant known =>
        rw [Segment.parts, List.mem_map] at hmem
        obtain ⟨c, -, hc⟩ := hmem
        cases hc
    | inserted other expression trimmed apart =>
        rw [Segment.parts, List.mem_singleton] at hmem
        cases hmem
        rfl

/-! ### The value of an address -/

variable {assignment values : List Char → List Nat}

/-- Each inserted expression has its value. -/
def HasValues (assignment values : List Char → List Nat) (segments : List (Segment grammar)) :
    Prop :=
  ∀ segment ∈ segments, ∀ source, segment.source? = some source →
    Evaluates grammar assignment source (values source)

/-- No literal beside an inserted expression means something else between backquotes. -/
def CanSplice (segments : List (Segment grammar)) : Prop :=
  (∃ segment ∈ segments, segment.source? ≠ none) → ∀ segment ∈ segments, segment.IsSpliced

/-- Joined segments have the joined value. -/
theorem evaluates_joinSegments
    {segments : List (Segment grammar)}
    (hvalues : HasValues assignment values segments)
    (hspliced : CanSplice segments) :
    Evaluates grammar assignment (joinSegments (segments.map Segment.token)).toList
      (joinedValue values segments) := by
  rw [toList_joinSegments]
  split_ifs with hall
  · have hliteral : ∀ segment ∈ segments, segment.source? = none := by
      simpa only [List.all_eq_true, Option.isNone_iff_eq_none] using hall
    have hstring : Evaluates grammar assignment
        (StringLiteral.ofText (String.ofList (pathOf segments))).text.toList
        (StringLiteral.ofText (String.ofList (pathOf segments))).value :=
      .string _
    rw [StringLiteral.text_ofText, StringLiteral.value_ofText, Text.utf16, String.toList_ofList,
      charUnits_pathOf values hliteral] at hstring
    exact hstring
  · have hinserted : ∃ segment ∈ segments, segment.source? ≠ none := by
      simpa only [List.all_eq_true, Option.isNone_iff_eq_none, not_forall, exists_prop] using hall
    have h := hspliced hinserted
    rw [← text_templateOf h, ← value_templateOf values h]
    refine .template _ _ fun source hsource => ?_
    obtain ⟨segment, hmem, hsome⟩ := sources_templateOf h hsource
    exact hvalues segment hmem source hsome

/-- The value of the address of segments, from the value of what is joined: one argument that is
no literal stands for itself. -/
def addressValue (values : List Char → List Nat) : List (Segment grammar) → List Nat
  | [.inserted source expression trimmed apart] =>
    if Literal.isQuotedChars source then
      joinedValue values [.inserted source expression trimmed apart]
    else values source
  | segments => joinedValue values segments

theorem evaluates_navigationUrl
    {segments : List (Segment grammar)}
    (hvalues : HasValues assignment values segments)
    (hspliced : CanSplice segments) :
    Evaluates grammar assignment (navigationUrl (segments.map Segment.token)).toList
      (addressValue values segments) := by
  have hjoined := evaluates_joinSegments hvalues hspliced
  cases segments with
  | nil =>
      exact hjoined
  | cons segment segments =>
      cases segments with
      | cons next segments =>
          cases segment <;> exact hjoined
      | nil =>
          cases segment with
          | literal constant known =>
              rw [List.map_singleton, navigationUrl, Segment.token, isQuoted_text, if_pos rfl]
              exact hjoined
          | inserted source expression trimmed apart =>
              have hquoted : Literal.isQuoted (String.ofList source) =
                  Literal.isQuotedChars source := by
                rw [Literal.isQuoted, String.toList_ofList]
              rw [List.map_singleton, navigationUrl, Segment.token, hquoted, addressValue]
              split_ifs with hsingle
              · exact hjoined
              · rw [Text.trim, String.toList_ofList, String.toList_ofList, trimmed]
                exact hvalues _ (List.mem_singleton_self _) source rfl

end Segments

/-- An argument is joined as a literal is, if its value has something in it and no slash at its
ends. -/
theorem joinedValue_eq_of_trimmed
    {grammar : ExpressionSyntax}
    {values : List Char → List Nat}
    {segments : List (Segment grammar)}
    (h : ∀ segment ∈ segments, ∀ source, segment.source? = some source →
      values source ≠ [] ∧ trimSlashUnits (values source) = values source) :
    joinedValue values segments =
      47 :: List.intercalate [47]
        ((segments.map fun segment => trimSlashUnits (segment.value values)).filter
          fun units => !units.isEmpty) := by
  have hunits : ∀ segment ∈ segments,
      trimSlashUnits (segment.value values) = segment.units values := by
    intro segment hmem
    cases segment with
    | literal constant known =>
        rfl
    | inserted source expression trimmed apart =>
        exact (h _ hmem source rfl).2
  have hkept : ∀ segment ∈ segments, (!(segment.units values).isEmpty) = segment.isKept := by
    intro segment hmem
    cases segment with
    | literal constant known =>
        rfl
    | inserted source expression trimmed apart =>
        rw [Segment.units, Segment.isKept, Bool.not_eq_true', List.isEmpty_eq_false_iff]
        exact (h _ hmem source rfl).1
  rw [joinedValue, List.map_congr_left hunits, List.filter_map]
  exact congrArg (fun kept => 47 :: List.intercalate [47] (kept.map (Segment.units values)))
    (List.filter_congr hkept).symm

/-- A literal and another expression, with the value of the one and the text of the other. -/
theorem pair_ready
    {grammar : ExpressionSyntax}
    {assignment values : List Char → List Nat}
    {constant : StringLiteral}
    {known : constant.isKnown = true}
    {source : List Char}
    {expression : grammar.holds source}
    {trimmed : Text.trimChars source = source}
    {apart : isPlainLiteral (String.ofList source) = false}
    (hvalue : Evaluates grammar assignment source (values source))
    (hmarks : ∀ word ∈ templateMarks, ¬ charUnits word <:+: constant.value) :
    HasValues assignment values
        [.literal constant known, .inserted source expression trimmed apart] ∧
      CanSplice
        [(.literal constant known : Segment grammar),
          .inserted source expression trimmed apart] := by
  constructor
  · intro segment hmem other hother
    rw [List.mem_cons, List.mem_singleton] at hmem
    rcases hmem with rfl | rfl
    · cases hother
    · cases hother
      exact hvalue
  · intro _ segment hmem
    rw [List.mem_cons, List.mem_singleton] at hmem
    rcases hmem with rfl | rfl
    · exact hmarks
    · exact trivial

/-- A name is no literal. -/
theorem evaluates_name
    (value : List Nat) :
    Evaluates Script.wellNested (fun _ => value) ['i', 'd'] value := by
  refine .other (fun constant h => ?_) (fun template h => ?_)
  · rw [StringLiteral.text, String.toList_ofList, List.cons_append] at h
    rcases constant.quoted with hquote | hquote <;> rw [hquote] at h <;>
      exact absurd (List.cons.inj h).1 (by decide)
  · exact absurd (List.cons.inj h).1 (by decide)

/-- A navigation to any arguments goes to the address that they make: a single argument that is
no literal is the address; otherwise the literals without the slashes at their ends, if anything
is left of them, and the values of all other arguments as they are stand in it after a slash,
with single slashes between them. This holds whatever the literals contain as long as no text of
one that stands beside another expression would mean something else between backquotes. -/
theorem navigation_joins_segments
    {grammar : ExpressionSyntax}
    {assignment values : List Char → List Nat}
    (name : String)
    {segments : List (Segment grammar)}
    (hne : segments ≠ [])
    (hvalues : HasValues assignment values segments)
    (hspliced : CanSplice segments) :
    ∃ url : String,
      navigate name (segments.map Segment.token) =
        directStatement name ("await page.goto(" ++ url ++ ");") ∧
      ∀ value, Evaluates grammar assignment url.toList value ↔
        value = addressValue values segments := by
  have hurl := evaluates_navigationUrl hvalues hspliced
  refine ⟨navigationUrl (segments.map Segment.token), ?_, fun value => ⟨?_, ?_⟩⟩
  · have hsome : (segments.map Segment.token).isEmpty = false := by
      simpa using hne
    rw [navigate, hsome]
    rfl
  · intro hvalue
    exact Script.evaluates_unique hvalue hurl
  · rintro rfl
    exact hurl

/-- Two arguments, one of them with slashes that are removed. -/
theorem navigation_joins_segments_user :
    ∃ url : String,
      navigate "navigateTo" ["'/users/'", "id"] =
        directStatement "navigateTo" ("await page.goto(" ++ url ++ ");") ∧
      ∀ value, Evaluates Script.wellNested (fun _ => Text.utf16 "7") url.toList value ↔
        value = Text.utf16 "/users/7" := by
  have hid : Literal.WellNested ['i', 'd'] := ⟨by decide, by decide⟩
  let users : Segment Script.wellNested := .literal (.ofText "/users/") (by decide)
  let id : Segment Script.wellNested := .inserted ['i', 'd'] hid (by decide) (by decide)
  obtain ⟨hvalues, hspliced⟩ :
      HasValues (fun _ => Text.utf16 "7") (fun _ => Text.utf16 "7") [users, id] ∧
        CanSplice [users, id] :=
    pair_ready (evaluates_name _) (by decide)
  exact navigation_joins_segments "navigateTo" (List.cons_ne_nil users [id]) hvalues hspliced

/-- The template literal of slashes around a seven. -/
def slashedTemplate : TemplateLiteral Script.wellNested where
  parts := [.char '/', .char '7', .char '/']
  body := ⟨⟨by decide, by decide, by decide, by decide⟩,
    ⟨by decide, by decide, by decide, by decide⟩,
    ⟨by decide, by decide, by decide, by decide⟩, trivial⟩

/-- The slashes of an argument that is no string literal are not removed, even where they can be
seen: the path after the name has two slashes. -/
theorem inserted_slashes_kept :
    ∃ url : String,
      navigate "navigateTo" ["'users'", "\x60/7/\x60"] =
        directStatement "navigateTo" ("await page.goto(" ++ url ++ ");") ∧
      ∀ assignment,
        Evaluates Script.wellNested assignment "'users'".toList (Text.utf16 "users") ∧
        Evaluates Script.wellNested assignment "\x60/7/\x60".toList (Text.utf16 "/7/") ∧
        Evaluates Script.wellNested assignment url.toList (Text.utf16 "/users//7/") ∧
        ¬ Evaluates Script.wellNested assignment url.toList
          (47 :: List.intercalate [47]
            (([Text.utf16 "users", Text.utf16 "/7/"].map trimSlashUnits).filter
              fun units => !units.isEmpty)) := by
  have hseven : Literal.WellNested "\x60/7/\x60".toList := ⟨by decide, by decide⟩
  let users : Segment Script.wellNested := .literal (.ofText "users") (by decide)
  let seven : Segment Script.wellNested :=
    .inserted "\x60/7/\x60".toList hseven (by decide) (by decide)
  refine ⟨navigationUrl ["'users'", "\x60/7/\x60"], rfl, fun assignment => ?_⟩
  have hstring : Evaluates Script.wellNested assignment "'users'".toList (Text.utf16 "users") :=
    .string (.ofText "users")
  have htemplate :
      Evaluates Script.wellNested assignment "\x60/7/\x60".toList (Text.utf16 "/7/") :=
    .template slashedTemplate (fun _ => []) (by simp [TemplateLiteral.sources, slashedTemplate,
      TemplatePart.source?])
  obtain ⟨hvalues, hspliced⟩ :
      HasValues assignment (fun _ => Text.utf16 "/7/") [users, seven] ∧
        CanSplice [users, seven] :=
    pair_ready htemplate (by decide)
  have hurl : Evaluates Script.wellNested assignment
      (navigationUrl ["'users'", "\x60/7/\x60"]).toList (Text.utf16 "/users//7/") :=
    evaluates_navigationUrl hvalues hspliced
  refine ⟨hstring, htemplate, hurl, fun hstripped => ?_⟩
  exact absurd (Script.evaluates_unique hurl hstripped) (by decide)

end CustomCommand
end SuiteShift
