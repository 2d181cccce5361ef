import SuiteShift.CustomCommand.Basic
import SuiteShift.Proofs.CustomCommand.BodyPlace

/-!
# Comments in the body of a registration

The scans that find the end of a registration and its arguments know literals and brackets, but no
comments. So a comment is harmless wherever it stands exactly if they pass over its text.

- `IsProbe`: two parts of a body; `IsProbe.place` is a registration with a line end between them.
- `IsProbe.closes_after`, `IsProbe.last_argument`: what follows if a comment there is harmless.
- `isProbe_braces`, `isProbe_parens`, `isProbe_comma`, `isProbe_expression`: the bodies that notice
  a comment with something open, with something missing, or with a comma.
- `comment_harmless_iff`: the comments that are harmless in every registration.
-/

namespace SuiteShift
namespace CustomCommand

open Literal (Nesting WellNested PassedOver IsSegment splitTop splitClosing)

/-! ### Registrations that notice a comment -/

/-- Two parts of a body with a line end between them, in which every comma is nested and after
which the parenthesis of the argument list can be closed. -/
structure IsProbe (opening closing : List Char) : Prop where
  opening_ne : opening ≠ []
  closing_ne : closing ≠ []
  solid : ∀ c ∈ opening ++ closing, Text.isBlank c = false
  commaFree : Nesting.commaFree {} (opening ++ '\n' :: closing) = true
  outside : (Nesting.run {} opening).quote = none
  unclosed : splitClosing (.opened 0 0 1) (opening ++ '\n' :: closing) = none
  back : (Nesting.opened 0 0 1).run (opening ++ '\n' :: closing) = .opened 0 0 1

/-- The head of a function with one parameter or none. -/
def probeHead (named : Bool) : List Char :=
  if named then " (p) => ".toList else " () => ".toList

/-- The name of a command as it is written. -/
def probeName : List Char :=
  ['\'', 'x', '\'']

/-- A registration with these two parts of a body. -/
def probePlace (named : Bool) (opening closing : List Char) : Place where
  lead := "Cypress.Commands.add".toList
  args := [probeName]
  front := probeHead named ++ opening
  back := '\n' :: closing
  margin := []
  trailing := none
  rest := []

theorem before_probePlace
    (named : Bool)
    (opening closing : List Char) :
    (probePlace named opening closing).before =
      (probeName ++ [',']) ++ (probeHead named ++ opening) := by
  rfl

theorem after_probePlace
    (named : Bool)
    (opening closing : List Char) :
    (probePlace named opening closing).after = '\n' :: closing := by
  exact List.append_nil ('\n' :: closing)

theorem margin_probePlace
    (named : Bool)
    (opening closing : List Char) :
    ∀ c ∈ (probePlace named opening closing).margin, Text.isBlank c = true := by
  exact List.forall_mem_nil _

theorem trailing_probePlace
    (named : Bool)
    (opening closing : List Char) :
    ∀ gap ∈ (probePlace named opening closing).trailing, ∀ c ∈ gap, Text.isBlank c = true := by
  rintro gap ⟨⟩

theorem passedOver_probeHead
    (named : Bool) :
    PassedOver (probeHead named) := by
  cases named <;> decide

theorem run_probeHead
    (named : Bool)
    (opening : List Char) :
    Nesting.run {} (probeHead named ++ opening) = Nesting.run {} opening := by
  rw [Nesting.run_append, (passedOver_probeHead named).back]

theorem isSegment_probeName :
    ∀ arg ∈ [probeName], IsSegment arg := by
  intro arg harg
  rw [List.mem_singleton.mp harg]
  exact ⟨by decide, by decide⟩

/-- Where the argument list ends with something inserted. -/
theorem parenthesized?_probePlace
    (named : Bool)
    (opening closing inserted : List Char) :
    Literal.parenthesized? ((probePlace named opening closing).list inserted) =
      (splitClosing (.opened 0 0 1) (opening ++ (inserted ++ ('\n' :: closing ++ [')'])))).map
        fun parts => ((probeName ++ [',']) ++ (probeHead named ++ parts.1), parts.2) := by
  have hnone : splitClosing (Nesting.step {} '(') ((probeName ++ [',']) ++ probeHead named) =
      none := by
    cases named <;> rfl
  have hrun : (Nesting.step {} '(').run ((probeName ++ [',']) ++ probeHead named) =
      .opened 0 0 1 := by
    cases named <;> rfl
  have hrest : (probePlace named opening closing).rest = [] := by
    rfl
  have hinside : (probeName ++ [',']) ++ (probeHead named ++ opening) ++
      (inserted ++ ('\n' :: closing ++ [')'])) =
      ((probeName ++ [',']) ++ probeHead named) ++
        (opening ++ (inserted ++ ('\n' :: closing ++ [')']))) := by
    simp only [List.append_assoc]
  rw [Place.list, before_probePlace, after_probePlace, hrest, hinside, Literal.parenthesized?,
    Literal.splitClosing_append_of_none hnone, hrun]
  simp only [List.append_assoc]

namespace IsProbe

variable {opening closing : List Char} (h : IsProbe opening closing)

theorem found
    (named : Bool)
    (inserted : List Char) :
    findRegistration? ((probePlace named opening closing).text inserted) =
      some ((probePlace named opening closing).list inserted) := by
  rfl

include h

theorem trimChars_body :
    Text.trimChars (opening ++ '\n' :: closing) = opening ++ '\n' :: closing := by
  refine Text.trimChars_eq_self ?_ ?_
  · intro c hc
    rw [List.head?_append_of_ne_nil _ h.opening_ne] at hc
    exact h.solid c (List.mem_append_left _ (List.mem_of_mem_head? hc))
  · intro c hc
    rw [List.getLast?_append_of_ne_nil _ (by simp), List.getLast?_cons_of_ne_nil h.closing_ne] at hc
    exact h.solid c (List.mem_append_right _ (List.mem_of_mem_getLast? hc))

theorem functionParts?_eq
    (named : Bool) :
    functionParts? (withoutAsync (Text.trimChars
        (probeHead named ++ opening ++ ('\n' :: closing ++ [])))) =
      some (if named then ['p'] else [], opening ++ '\n' :: closing) := by
  have hbody := h.trimChars_body
  have hne : opening ++ '\n' :: closing ≠ [] := by
    simp
  rw [List.append_nil, List.append_assoc]
  generalize opening ++ '\n' :: closing = body at hbody hne
  have hlast : ∀ c ∈ body.getLast?, Text.isBlank c = false := by
    rw [← hbody]
    exact Text.isBlank_getLast?_trimChars body
  -- The head starts with a blank, which is trimmed, and then with a parenthesis.
  have htrim : ∀ head : List Char, Text.trimChars (' ' :: '(' :: head ++ body) = '(' :: head ++ body := by
    intro head
    rw [List.cons_append, Text.trimChars_cons_of_isBlank rfl]
    refine Text.trimChars_eq_self ?_ ?_
    · rintro c ⟨⟩
      rfl
    · intro c hc
      rw [List.getLast?_append_of_ne_nil _ hne] at hc
      exact hlast c hc
  have hspace : Text.trimChars (' ' :: body) = body := by
    rw [Text.trimChars_cons_of_isBlank rfl, hbody]
  cases named with
  | true =>
      have hparts : functionParts? (withoutAsync ("(p) => ".toList ++ body)) =
          some (['p'], Text.trimChars (' ' :: body)) := by
        rfl
      rw [hspace] at hparts
      exact (congrArg (functionParts? ∘ withoutAsync) (htrim "p) => ".toList)).trans hparts
  | false =>
      have hparts : functionParts? (withoutAsync ("() => ".toList ++ body)) =
          some ([], Text.trimChars (' ' :: body)) := by
        rfl
      rw [hspace] at hparts
      exact (congrArg (functionParts? ∘ withoutAsync) (htrim ") => ".toList)).trans hparts

theorem closed
    (named : Bool) :
    Literal.parenthesized? ((probePlace named opening closing).list []) =
      some ((probePlace named opening closing).before ++ (probePlace named opening closing).after,
        []) := by
  have hclose : splitClosing (.opened 0 0 1) [')'] = some ([], []) := by
    rfl
  rw [parenthesized?_probePlace, List.nil_append, ← List.append_assoc,
    Literal.splitClosing_append_of_none h.unclosed, h.back, hclose, before_probePlace,
    after_probePlace]
  simp only [Option.map_some, List.append_nil, List.append_assoc]

theorem cut
    (named : Bool) :
    splitTop {} ((probePlace named opening closing).before ++
        (probePlace named opening closing).after) =
      [probeName, probeHead named ++ opening ++ ('\n' :: closing ++ [])] := by
  have hfree : Nesting.commaFree {} (probeHead named ++ (opening ++ '\n' :: closing)) = true := by
    rw [Nesting.commaFree_append, (passedOver_probeHead named).commaFree,
      (passedOver_probeHead named).back, h.commaFree]
    rfl
  have htext : (probePlace named opening closing).before ++
      (probePlace named opening closing).after =
      [probeName].flatMap (· ++ [',']) ++ (probeHead named ++ (opening ++ '\n' :: closing)) := by
    rw [before_probePlace, after_probePlace, List.flatMap_singleton]
    simp only [List.append_assoc]
  rw [htext, Literal.splitTop_segments isSegment_probeName, Literal.splitTop_of_commaFree hfree,
    List.append_nil, List.append_assoc]
  rfl

theorem trimChars_callback_ne_nil
    (named : Bool) :
    Text.trimChars (probeHead named ++ opening ++ ('\n' :: closing ++ [])) ≠ [] := by
  intro hnil
  have hparts := h.functionParts?_eq named
  rw [hnil] at hparts
  cases hparts

theorem read
    (named : Bool) :
    readRegistration ((probePlace named opening closing).list []) =
      .ok
        { name := "x"
          parameters := if named then ["p"] else []
          body := String.ofList (functionBody (opening ++ '\n' :: closing)) } := by
  have hargs : Literal.argumentChars ((probePlace named opening closing).before ++
      (probePlace named opening closing).after) =
      probeName :: ([] ++
        [Text.trimChars (probeHead named ++ opening ++ ('\n' :: closing ++ []))]) := by
    rw [Literal.argumentChars, h.cut named]
    exact @Literal.trimPieces_trailing [probeName] _ none (h.trimChars_callback_ne_nil named)
      (by simp)
  rw [readRegistration_eq (h.closed named) hargs, splitFunction?_eq, Text.trimChars_trimChars,
    h.functionParts?_eq named, if_pos (by decide)]
  cases named <;> rfl

/-- The place at the line end. -/
def place (named : Bool) : BodyPlace where
  toPlace := probePlace named opening closing
  definition :=
    { name := "x"
      parameters := if named then ["p"] else []
      body := String.ofList (functionBody (opening ++ '\n' :: closing)) }
  found := IsProbe.found named []
  closed := h.closed named
  cut := h.cut named
  margin_blank := margin_probePlace named opening closing
  trailing_blank := trailing_probePlace named opening closing
  read := h.read named
  inBody := ⟨_, _, h.functionParts?_eq named⟩
  outside := (congrArg Nesting.quote (run_probeHead named opening)).trans h.outside
  lineEnd := .inl rfl

theorem isNested
    {n : Nesting}
    (hrun : Nesting.run {} opening = n)
    (hdeep : n.isTop = false)
    (named : Bool) :
    (h.place named).IsNested := by
  rw [← hrun, ← run_probeHead named opening] at hdeep
  exact hdeep

end IsProbe

/-! ### What a harmless comment leaves as it is -/

namespace IsProbe

variable {opening closing comment : List Char} {named : Bool} (h : IsProbe opening closing)

include h

/-- A comment after which the list does not end is noticed. -/
theorem closes
    (hread : (h.place named).ReadsAlike comment) :
    splitClosing (.opened 0 0 1)
      (opening ++ (lineComment comment ++ ('\n' :: closing ++ [')']))) ≠ none := by
  intro hnone
  obtain ⟨body, hread⟩ := BodyPlace.readsAlike_iff.mp hread
  have hlist : Literal.parenthesized? ((probePlace named opening closing).list
      (lineComment comment)) = none := by
    rw [parenthesized?_probePlace, hnone, Option.map_none]
  rw [readRegistration, place, hlist] at hread
  cases hread

/-- If the list does not end in the comment, it ends after it. -/
theorem closes_after
    (hread : (h.place named).ReadsAlike comment)
    {n : Nesting}
    (hopening : splitClosing (.opened 0 0 1) opening = none)
    (hrun : (Nesting.opened 0 0 1).run opening = n)
    (hcomment : splitClosing n (lineComment comment) = none) :
    splitClosing (n.run (lineComment comment)) ('\n' :: closing ++ [')']) ≠ none := by
  have hcloses := h.closes hread
  rw [Literal.splitClosing_append_of_none hopening, hrun,
    Literal.splitClosing_append_of_none hcomment] at hcloses
  intro hnone
  rw [hnone] at hcloses
  exact hcloses rfl

/-- With a comma behind which nothing is nested, all after it is read as the function. -/
theorem last_argument
    (hread : (h.place named).ReadsAlike comment)
    {front last rest : List Char}
    (hclosed : splitClosing (.opened 0 0 1)
      (opening ++ (lineComment comment ++ ('\n' :: closing ++ [')']))) =
      some (front ++ ',' :: last, rest))
    (htop : (Nesting.run {} front).isTop = true)
    (hfree : Nesting.commaFree {} last = true)
    (hne : Text.trimChars last ≠ []) :
    ∃ names body, splitFunction? (Text.trimChars last) = some (names, body) ∧
      names.map String.ofList = if named then ["p"] else [] := by
  obtain ⟨body, hread⟩ := BodyPlace.readsAlike_iff.mp hread
  have hlist : Literal.parenthesized? ((probePlace named opening closing).list
      (lineComment comment)) =
      some ((probeName ++ [',']) ++ (probeHead named ++ (front ++ ',' :: last)), rest) := by
    rw [parenthesized?_probePlace, hclosed, Option.map_some]
  have hrun : Nesting.run {} (probeHead named ++ front) = {} := by
    rw [run_probeHead, Nesting.run_eq_start htop]
  have hargs : ∃ middle, Literal.argumentChars
      ((probeName ++ [',']) ++ (probeHead named ++ (front ++ ',' :: last))) =
      probeName :: (middle ++ [Text.trimChars last]) := by
    have hsplit : splitTop {} ((probeName ++ [',']) ++ (probeHead named ++ (front ++ ',' :: last))) =
        ([probeName] ++ splitTop {} (probeHead named ++ front)) ++ last :: [] := by
      have hname := Literal.splitTop_segments isSegment_probeName
        (probeHead named ++ front ++ ',' :: last)
      rw [Literal.splitTop_append_comma (by rw [hrun]; rfl), hrun,
        Literal.splitTop_of_commaFree hfree] at hname
      rw [List.flatMap_singleton] at hname
      simpa only [List.append_assoc] using hname
    refine ⟨(splitTop {} (probeHead named ++ front)).map Text.trimChars, ?_⟩
    rw [Literal.argumentChars, hsplit]
    exact @Literal.trimPieces_trailing _ last none hne (by simp)
  obtain ⟨middle, hargs⟩ := hargs
  rw [place, readRegistration_eq hlist hargs, if_pos (by decide)] at hread
  cases hfunction : splitFunction? (Text.trimChars last) with
  | none =>
      rw [hfunction] at hread
      cases hread
  | some parts =>
      rw [hfunction] at hread
      exact ⟨parts.1, parts.2, rfl, congrArg Definition.parameters (Except.ok.inj hread)⟩

end IsProbe

/-! ### Bodies -/

theorem run_newline
    (braces brackets parens : Nat)
    (cs : List Char) :
    (Nesting.opened braces brackets parens).run ('\n' :: cs) =
      (Nesting.opened braces brackets parens).run cs := by
  rfl

/-- Braces, and in them a closing parenthesis. -/
def bracedParen (count : Nat) : List Char :=
  List.replicate (count + 1) '\x7b' ++ [')']

theorem opened_run_bracedParen
    (count parens : Nat) :
    (Nesting.opened 0 0 parens).run (bracedParen count) = .opened (count + 1) 0 (parens - 1) := by
  rw [bracedParen, Nesting.run_append, Nesting.opened_run_openBraces, Nat.zero_add]
  rfl

theorem splitClosing_bracedParen
    (count : Nat) :
    splitClosing (.opened 0 0 1) (bracedParen count) = none := by
  rw [bracedParen, Literal.splitClosing_append_of_none
    (Literal.splitClosing_eq_none_of_not_mem (by simp)), Nesting.opened_run_openBraces,
    Nat.zero_add]
  rfl

/-- Braces, and in them a parenthesis that is closed and opened again. -/
theorem isProbe_braces
    (count : Nat) :
    IsProbe (bracedParen count) ('(' :: List.replicate (count + 1) '\x7d') := by
  refine ⟨by simp [bracedParen], by simp, ?_, ?_, ?_, ?_, ?_⟩
  · simp only [bracedParen, List.forall_mem_append, List.forall_mem_cons,
      List.forall_mem_replicate]
    exact ⟨⟨.inr rfl, rfl, by simp⟩, rfl, .inr rfl⟩
  · exact Literal.commaFree_of_not_mem (by simp [bracedParen]) {}
  · exact congrArg Nesting.quote (opened_run_bracedParen count 0)
  · rw [Literal.splitClosing_append_of_none (splitClosing_bracedParen count),
      Literal.splitClosing_eq_none_of_not_mem (by simp), Option.map_none]
  · have hparen : (Nesting.opened (count + 1) 0 0).run
        ('\n' :: '(' :: List.replicate (count + 1) '\x7d') =
        (Nesting.opened (count + 1) 0 1).run (List.replicate (count + 1) '\x7d') := by
      rfl
    rw [Nesting.run_append, opened_run_bracedParen, Nat.sub_self, hparen,
      Nesting.opened_run_closeBraces, Nat.sub_self]

/-- Parentheses only. -/
theorem isProbe_parens
    (count : Nat) :
    IsProbe (List.replicate (count + 1) '(') (List.replicate (count + 1) ')') := by
  refine ⟨by simp, by simp, ?_, ?_, ?_, ?_, ?_⟩
  · simp only [List.forall_mem_append, List.forall_mem_replicate]
    exact ⟨.inr rfl, .inr rfl⟩
  · exact Literal.commaFree_of_not_mem (by simp) {}
  · exact congrArg Nesting.quote (Nesting.opened_run_openParens 0 0 0 (count + 1))
  · have hnone : splitClosing (.opened 0 0 1) (List.replicate (count + 1) '(' ++ ['\n']) = none :=
      Literal.splitClosing_eq_none_of_not_mem (by simp)
    rw [List.append_cons, Literal.splitClosing_append_of_none hnone, Nesting.run_append,
      Nesting.opened_run_openParens, run_newline, Nesting.run_nil,
      @Literal.splitClosing_of_length_lt _ _ .paren ?_, Option.map_none]
    rw [List.length_replicate]
    exact Nat.lt_add_of_pos_left Nat.one_pos
  · rw [Nesting.run_append, Nesting.opened_run_openParens, run_newline,
      Nesting.opened_run_closeParens, Nat.add_sub_cancel]

/-- Opening brackets, so many of each kind. -/
def openers (braces brackets parens : Nat) : List Char :=
  List.replicate braces '\x7b' ++ (List.replicate brackets '[' ++ List.replicate parens '(')

/-- Closing braces and brackets, but no parentheses. -/
def closers (braces brackets : Nat) : List Char :=
  List.replicate braces '\x7d' ++ List.replicate brackets ']'

section Brackets

variable (braces brackets parens i j k : Nat)

theorem opened_run_openers :
    (Nesting.opened i j k).run (openers braces brackets parens) =
      .opened (i + braces) (j + brackets) (k + parens) := by
  simp [openers]

theorem run_openers :
    Nesting.run {} (openers braces brackets parens) = .opened braces brackets parens := by
  have hrun := opened_run_openers braces brackets parens 0 0 0
  rw [Nat.zero_add, Nat.zero_add, Nat.zero_add] at hrun
  exact hrun

theorem opened_run_closers :
    (Nesting.opened i j k).run (closers braces brackets) =
      .opened (i - braces) (j - brackets) k := by
  simp [closers]

theorem splitClosing_openers
    (n : Nesting) :
    splitClosing n (openers braces brackets parens) = none := by
  exact Literal.splitClosing_eq_none_of_not_mem (by simp [openers])

/-- Up to the closing parentheses nothing is closed. -/
theorem splitClosing_closers
    (n : Nesting) :
    splitClosing n ('\n' :: ',' :: 'b' :: closers braces brackets) = none := by
  exact Literal.splitClosing_eq_none_of_not_mem (by simp [closers])

theorem opened_run_comma_closers :
    (Nesting.opened i j k).run ('\n' :: ',' :: 'b' :: closers braces brackets) =
      .opened (i - braces) (j - brackets) k := by
  exact opened_run_closers braces brackets i j k

end Brackets

/-- Brackets of all kinds around a comma. -/
theorem isProbe_comma
    {braces brackets parens : Nat}
    (h : braces + brackets + parens ≠ 0) :
    IsProbe (openers braces brackets parens)
      (',' :: 'b' :: (closers braces brackets ++ List.replicate parens ')')) := by
  have hrun := run_openers braces brackets parens
  refine ⟨?_, by simp, ?_, ?_, by rw [hrun]; rfl, ?_, ?_⟩
  · intro hnil
    simp only [openers, List.append_eq_nil_iff, List.replicate_eq_nil_iff] at hnil
    omega
  · simp only [openers, closers, List.forall_mem_append, List.forall_mem_cons,
      List.forall_mem_replicate]
    exact ⟨⟨.inr rfl, .inr rfl, .inr rfl⟩, rfl, rfl, ⟨.inr rfl, .inr rfl⟩, .inr rfl⟩
  · -- The comma is nested, since there is at least one bracket.
    have hcomma : ∀ cs, (Nesting.opened braces brackets parens).commaFree ('\n' :: ',' :: cs) =
        (!(Nesting.opened braces brackets parens).isTop &&
          (Nesting.opened braces brackets parens).commaFree cs) := by
      intro cs
      rfl
    rw [Nesting.commaFree_append, hrun, Literal.commaFree_of_not_mem (by simp [openers]), hcomma,
      Nesting.isTop_opened h, Literal.commaFree_of_not_mem (by simp [closers])]
    rfl
  · rw [Literal.splitClosing_append_of_none (splitClosing_openers _ _ _ _), opened_run_openers,
      ← List.cons_append, ← List.cons_append, ← List.cons_append,
      Literal.splitClosing_append_of_none (splitClosing_closers _ _ _), opened_run_comma_closers,
      @Literal.splitClosing_of_length_lt _ _ .paren ?_, Option.map_none, Option.map_none]
    rw [List.length_replicate]
    exact Nat.lt_add_of_pos_left Nat.one_pos
  · rw [Nesting.run_append, opened_run_openers, ← List.cons_append, ← List.cons_append,
      ← List.cons_append, Nesting.run_append, opened_run_comma_closers,
      Nesting.opened_run_closeParens]
    simp

theorem isProbe_expression :
    IsProbe ['a'] ['+', 'b'] := by
  refine ⟨by simp, by simp, ?_, by decide, by decide, by decide, by decide⟩
  simp only [List.forall_mem_append, List.forall_mem_cons]
  exact ⟨⟨rfl, List.forall_mem_nil _⟩, rfl, rfl, List.forall_mem_nil _⟩

/-- Without an arrow and a parenthesis there is no function. -/
theorem splitFunction?_eq_none
    {cs : List Char}
    (h : '=' ∉ cs) :
    splitFunction? (Text.trimChars ('b' :: cs)) = none := by
  obtain ⟨rest, hrest⟩ := @Text.exists_trimChars_append_cons 'b' rfl [] cs
  have htrim : Text.trimChars ('b' :: cs) = 'b' :: rest := hrest
  have harrow : Text.splitOnce "=>".toList ('b' :: rest) = none := by
    cases hsplit : Text.splitOnce "=>".toList ('b' :: rest) with
    | none =>
        rfl
    | some parts =>
        obtain ⟨front, rear, hcs, -, -⟩ := Text.exists_trimChars ('b' :: cs)
        rw [htrim, Text.splitOnce_eq_append hsplit] at hcs
        have hmem : '=' ∈ 'b' :: cs := by
          rw [hcs]
          simp
        simp [h] at hmem
  have hparts : functionParts? (withoutAsync ('b' :: rest)) =
      (Text.splitOnce "=>".toList ('b' :: rest)).bind fun parts =>
        pure (Text.trimChars parts.1, Text.trimChars parts.2) := by
    rfl
  rw [splitFunction?_eq, Text.trimChars_trimChars, htrim, hparts, harrow]
  rfl

/-! ### A comma that comes out of its brackets -/

section Exposed

variable {cs : List Char} {braces brackets parens : Nat}

/-- If a text takes away all brackets around it, the list ends at the first parenthesis after it. -/
theorem splitClosing_exposed
    (hnone : splitClosing (.opened braces brackets (1 + parens)) cs = none)
    (hrun : (Nesting.opened braces brackets (1 + parens)).run cs = .opened 0 0 1) :
    splitClosing (.opened 0 0 1)
      (openers braces brackets parens ++
        (cs ++ ('\n' :: (',' :: 'b' ::
          (closers braces brackets ++ List.replicate parens ')')) ++ [')']))) =
      some
        (openers braces brackets parens ++ (cs ++ ['\n']) ++ ',' :: 'b' :: closers braces brackets,
        List.replicate parens ')') := by
  have hend : '\n' :: (',' :: 'b' :: (closers braces brackets ++ List.replicate parens ')')) ++
      [')'] = ('\n' :: ',' :: 'b' :: closers braces brackets) ++ ')' :: List.replicate parens ')' := by
    rw [List.cons_append, List.cons_append, List.cons_append, List.append_assoc,
      ← List.replicate_succ', List.replicate_succ]
    rfl
  have hparen : splitClosing (.opened 0 0 1) (')' :: List.replicate parens ')') =
      some ([], List.replicate parens ')') := by
    rfl
  rw [hend, Literal.splitClosing_append_of_none (splitClosing_openers _ _ _ _),
    opened_run_openers, Nat.zero_add, Nat.zero_add, Literal.splitClosing_append_of_none hnone, hrun,
    Literal.splitClosing_append_of_none (splitClosing_closers _ _ _), opened_run_comma_closers,
    Nat.zero_sub, Nat.zero_sub, hparen]
  simp

/-- The comma after it is then outside of all nesting. -/
theorem isTop_exposed
    (hrun : (Nesting.opened braces brackets parens).run cs = .opened 0 0 0) :
    (Nesting.run {} (openers braces brackets parens ++ (cs ++ ['\n']))).isTop = true := by
  rw [Nesting.run_append, run_openers, Nesting.run_append, hrun]
  rfl

end Exposed

/-! ### Comments that are harmless everywhere -/

section Harmless

variable {comment : List Char}
variable (h : ∀ place : BodyPlace, place.IsNested → place.ReadsAlike comment)

include h

/-- The list with a comment between braces has an end. -/
theorem closes_in_braces :
    splitClosing ((Nesting.opened (Nesting.missing .brace {} (lineComment comment) + 1) 0 0).run
        (lineComment comment))
      ('\n' :: '(' ::
        List.replicate (Nesting.missing .brace {} (lineComment comment) + 1) '\x7d' ++ [')']) ≠
      none := by
  have hprobe := isProbe_braces (Nesting.missing .brace {} (lineComment comment))
  have hnested := hprobe.isNested (opened_run_bracedParen _ 0) (Nesting.isTop_opened (by simp)) true
  exact hprobe.closes_after (h _ hnested) (splitClosing_bracedParen _)
    (opened_run_bracedParen _ 1) (Literal.splitClosing_opened .brace (Nat.lt_succ_self _))

/-- A comment that is harmless wherever it is nested leaves no literal open. -/
theorem quote_of_harmless :
    (Nesting.run {} (lineComment comment)).quote = none := by
  by_contra hopen
  obtain ⟨q, hq⟩ := Option.ne_none_iff_exists'.mp hopen
  have halike := Nesting.alike_opened (Nesting.missing .brace {} (lineComment comment) + 1) 0 0
  have hdelimiter := Literal.delimited_start.run (lineComment comment) q hq
  refine closes_in_braces h (Literal.splitClosing_of_quote
    ((halike.run _).quote.symm.trans hq) ?_)
  simp only [List.mem_append, List.mem_cons, List.mem_replicate, List.not_mem_nil]
  rintro ((rfl | rfl | ⟨-, rfl⟩) | rfl | hnil)
  · cases hdelimiter
  · cases hdelimiter
  · cases hdelimiter
  · cases hdelimiter
  · exact hnil

/-- It leaves no bracket and no parenthesis open. -/
theorem brackets_parens_of_harmless :
    (Nesting.run {} (lineComment comment)).brackets = 0 ∧
    (Nesting.run {} (lineComment comment)).parens = 0 := by
  have hcloses := closes_in_braces h
  rw [Nesting.opened_run (quote_of_harmless h)] at hcloses
  simp only [Nat.zero_sub, Nat.add_zero] at hcloses
  generalize Nesting.run {} (lineComment comment) = e at hcloses ⊢
  generalize Nesting.missing .brace {} (lineComment comment) = count at hcloses
  generalize e.braces + (count + 1 - count) = braces at hcloses
  constructor
  · by_contra hbrackets
    refine hcloses (@Literal.splitClosing_of_depth (.opened braces e.brackets e.parens) .bracket rfl
      hbrackets _ ?_)
    simp only [List.forall_mem_append, List.forall_mem_cons, List.forall_mem_replicate]
    refine ⟨⟨⟨rfl, by decide⟩, ⟨rfl, by decide⟩, .inr ⟨rfl, by decide⟩⟩, ⟨rfl, by decide⟩, by simp⟩
  · by_contra hparens
    refine hcloses ?_
    have hclosing : (Nesting.opened braces e.brackets e.parens).run
        ('\n' :: '(' :: List.replicate (count + 1) '\x7d') =
        .opened (braces - (count + 1)) e.brackets (e.parens + 1) :=
      Nesting.opened_run_closeBraces braces e.brackets (e.parens + 1) (count + 1)
    have hdeep : ((Nesting.opened (braces - (count + 1)) e.brackets (e.parens + 1)).step ')').isTop =
        false :=
      @Nesting.isTop_eq_false_of_depth (.opened (braces - (count + 1)) e.brackets e.parens) .paren
        hparens
    rw [Literal.splitClosing_append_of_none
      (Literal.splitClosing_eq_none_of_not_mem (by simp)), hclosing, splitClosing, hdeep]
    rfl

/-- It leaves no brace open either. -/
theorem run_of_harmless :
    Nesting.run {} (lineComment comment) = {} := by
  have hquote := quote_of_harmless h
  obtain ⟨hbrackets, hparens⟩ := brackets_parens_of_harmless h
  have hbraces : (Nesting.run {} (lineComment comment)).braces = 0 := by
    by_contra hopen
    have hprobe := isProbe_parens (Nesting.missing .paren {} (lineComment comment))
    have hcomment : splitClosing
        (.opened 0 0 (1 + (Nesting.missing .paren {} (lineComment comment) + 1)))
        (lineComment comment) = none := by
      refine Literal.splitClosing_opened .paren ?_
      simp only [Nesting.depth, Nesting.opened]
      omega
    have hnested := hprobe.isNested (Nesting.opened_run_openParens 0 0 0 _)
      (Nesting.isTop_opened (by simp)) true
    refine hprobe.closes_after (h _ hnested)
      (Literal.splitClosing_eq_none_of_not_mem (by simp))
      (Nesting.opened_run_openParens 0 0 1 _) hcomment ?_
    rw [Nesting.opened_run hquote]
    simp only [Nat.zero_sub, Nat.add_zero]
    refine @Literal.splitClosing_of_depth (.opened _ _ _) .brace rfl hopen _ ?_
    simp only [List.forall_mem_append, List.forall_mem_cons, List.forall_mem_replicate]
    exact ⟨⟨⟨rfl, by decide⟩, .inr ⟨rfl, by decide⟩⟩, ⟨rfl, by decide⟩, by simp⟩
  refine Nesting.run_eq_start ?_
  simp [Nesting.isTop, hquote, hbrackets, hparens, hbraces]

/-- It closes nothing that it has not opened. -/
theorem strayFree_of_harmless :
    Nesting.strayFree {} (lineComment comment) = true := by
  have hstart := run_of_harmless h
  rw [Nesting.strayFree_iff_missing]
  by_contra hmissing
  have hsum : Nesting.missing .brace {} (lineComment comment) +
      Nesting.missing .bracket {} (lineComment comment) +
      Nesting.missing .paren {} (lineComment comment) ≠ 0 := by
    intro hzero
    refine hmissing ?_
    rintro (_ | _ | _) <;> omega
  have hprobe := isProbe_comma hsum
  have hnested := hprobe.isNested (run_openers _ _ _) (Nesting.isTop_opened hsum) true
  -- The comment takes away all brackets of the body, so the comma of the body comes out of them.
  have hrun : ∀ parens, (Nesting.opened (Nesting.missing .brace {} (lineComment comment))
      (Nesting.missing .bracket {} (lineComment comment))
      (parens + Nesting.missing .paren {} (lineComment comment))).run (lineComment comment) =
      .opened 0 0 parens := by
    intro parens
    rw [Nesting.opened_run (by rw [hstart]), hstart]
    simp
  have hnone : splitClosing (.opened (Nesting.missing .brace {} (lineComment comment))
      (Nesting.missing .bracket {} (lineComment comment))
      (1 + Nesting.missing .paren {} (lineComment comment))) (lineComment comment) = none := by
    refine Literal.splitClosing_opened .paren ?_
    simp only [Nesting.depth, Nesting.opened]
    omega
  have hrun' := hrun 0
  rw [Nat.zero_add] at hrun'
  -- What stands after the comma would have to be a function.
  obtain ⟨names, body, hfunction, -⟩ := hprobe.last_argument (h _ hnested)
    (splitClosing_exposed hnone (hrun 1)) (isTop_exposed hrun')
    (Literal.commaFree_of_not_mem (by simp [closers]) {})
    (@Text.trimChars_ne_nil _ 'b' (by simp) rfl)
  rw [splitFunction?_eq_none (by simp [closers])] at hfunction
  cases hfunction

omit h in
/-- A comment that is harmless everywhere has no comma outside of all nesting. -/
theorem commaFree_of_harmless
    (hall : ∀ place : BodyPlace, place.ReadsAlike comment) :
    Nesting.commaFree {} (lineComment comment) = true := by
  by_contra hcomma
  have h : ∀ place : BodyPlace, place.IsNested → place.ReadsAlike comment :=
    fun place _ => hall place
  obtain ⟨front, last, hcut, htop, hfree⟩ := Literal.exists_last_comma hcomma
  have hstart := run_of_harmless h
  have hmissing := Nesting.strayFree_iff_missing.mp (strayFree_of_harmless h) .paren
  have hcomment : splitClosing (.opened 0 0 1) (lineComment comment) = none :=
    Literal.splitClosing_opened .paren (by rw [hmissing]; decide)
  have hrun : (Nesting.opened 0 0 1).run (lineComment comment) = .opened 0 0 1 := by
    rw [Nesting.opened_run (by rw [hstart]), hstart, hmissing]
    simp
  have hclosed : splitClosing (.opened 0 0 1) (['a'] ++
      (lineComment comment ++ ('\n' :: ['+', 'b'] ++ [')']))) =
      some (('a' :: front) ++ ',' :: (last ++ ['\n', '+', 'b']), []) := by
    have hfirst : splitClosing (.opened 0 0 1) ['a'] = none := by
      rfl
    have hstate : (Nesting.opened 0 0 1).run ['a'] = .opened 0 0 1 := by
      rfl
    have hend : splitClosing (.opened 0 0 1) ('\n' :: ['+', 'b'] ++ [')']) =
        some (['\n', '+', 'b'], []) := by
      rfl
    rw [Literal.splitClosing_append_of_none hfirst, hstate,
      Literal.splitClosing_append_of_none hcomment, hrun, hend, hcut]
    simp
  have hlast : Nesting.commaFree {} (last ++ ['\n', '+', 'b']) = true := by
    rw [Nesting.commaFree_append, hfree, Literal.commaFree_of_not_mem (by decide)]
    rfl
  have hne : Text.trimChars (last ++ ['\n', '+', 'b']) ≠ [] := by
    exact @Text.trimChars_ne_nil _ 'b' (by simp) rfl
  -- The function after the last comma is the same with and without a parameter before it.
  obtain ⟨names, body, hfunction, hnames⟩ := isProbe_expression.last_argument
    (hall (isProbe_expression.place true)) hclosed htop hlast hne
  obtain ⟨names', body', hfunction', hnames'⟩ := isProbe_expression.last_argument
    (hall (isProbe_expression.place false)) hclosed htop hlast hne
  rw [hfunction] at hfunction'
  cases hfunction'
  rw [hnames] at hnames'
  cases hnames'

end Harmless

/-- A comment can be put at every line end between brackets in the body of every registration,
without changing the name and the parameters that are read, exactly if it is well nested, and at
every line end at all exactly if it has no comma outside of its brackets and literals either; where
it can be put, the registration is classified by what is read. -/
theorem comment_harmless_iff
    (comment : List Char) :
    ((∀ place : BodyPlace, place.IsNested → place.ReadsAlike comment) ↔ WellNested comment) ∧
    ((∀ place : BodyPlace, place.ReadsAlike comment) ↔ PassedOver comment) ∧
    ∀ place : BodyPlace, place.ReadsAlike comment →
      ∃ body, classify (String.ofList (place.text (lineComment comment))) =
        classifyDefinition { place.definition with body } := by
  refine ⟨⟨?_, ?_⟩, ⟨?_, ?_⟩, ?_⟩
  · intro h
    exact ⟨strayFree_of_harmless h, congrArg Nesting.isTop (run_of_harmless h)⟩
  · intro h place hnested
    exact place.readsAlike_of_wellNested h
      (h.commaFree_of place.outside place.sound_front hnested)
  · intro hall
    have h : ∀ place : BodyPlace, place.IsNested → place.ReadsAlike comment :=
      fun place _ => hall place
    exact ⟨run_of_harmless h, strayFree_of_harmless h, commaFree_of_harmless hall⟩
  · intro h place
    refine place.readsAlike_of_wellNested h.wellNested ?_
    cases htop : (Nesting.run {} place.front).isTop with
    | true =>
        rw [Nesting.run_eq_start htop]
        exact h.commaFree
    | false =>
        exact h.wellNested.commaFree_of place.outside place.sound_front htop
  · rintro place ⟨body, hread⟩
    obtain ⟨list, hfound, hlist⟩ := Option.map_eq_some_iff.mp hread
    refine ⟨body, ?_⟩
    rw [classify, String.toList_ofList, hfound]
    dsimp only
    rw [hlist]

/-- A registration without a comment. -/
def plainText : String :=
  "Cypress.Commands.add('open', () => \x7b\n  cy.visit('/');\n\x7d);"

/-- The same registration with a comment that has an apostrophe. -/
def apostropheText : String :=
  "Cypress.Commands.add('open', () => \x7b\n  cy.visit('/'); // don't wait\n\x7d);"

/-- The apostrophe is taken for the start of a literal, which the reader of syntax trees does not
do. -/
theorem apostrophe_opens_literal :
    (classify plainText).toOption.map Classification.errors = some [] ∧
    classify apostropheText = .ok (.failure "" "Unbalanced parentheses in Commands.add") ∧
    (SpecFile.ofSource "commands.js" apostropheText).toOption.map
        (fun spec => spec.definitions.map fun definition =>
          (definition.name, definition.parameters)) =
      some [("open", [])] := by
  decide +kernel

end CustomCommand
end SuiteShift
