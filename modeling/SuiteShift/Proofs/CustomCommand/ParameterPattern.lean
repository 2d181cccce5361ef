import SuiteShift.Proofs.CustomCommand.RegistrationText
import SuiteShift.Proofs.Literal.Arguments
import SuiteShift.Proofs.Text.Search
import SuiteShift.Spec.Source
import Mathlib.Data.List.TakeWhile

/-!
# Parameters that are patterns

The parameters of a function are read from its text, and from its syntax tree. Both give one
pattern for each parameter as long as no pattern holds a mark with which a type or a default could
begin, and no type or default holds a comma that is not between brackets or in a literal.

- `IsPattern`, `IsAnnotation`, `WrittenParameter`: a parameter as it is written.
- `map_parameterName_listText`: the names that are read from a parameter list, whatever it holds.
- `splitFunction?_of_isFunctionWith`: where the parameter list of a function is found.
- `patterns_kept_iff`: when both readers agree.
-/

namespace SuiteShift
namespace CustomCommand

open Literal (Nesting WellNested PassedOver splitTop)
open Script (Tree)

/-! ### Parameters -/

/-- The marks with which a type, a default or an optional parameter begins. -/
def isParameterMark (c : Char) : Bool :=
  c == ':' || c == '=' || c == '?'

/-- What a parameter binds: a name, or a pattern in braces or brackets. -/
inductive IsPattern : List Char → Prop
  | name
      {cs : List Char}
      (h : IsBinding cs) :
      IsPattern cs
  | object
      {inner : List Char}
      (h : WellNested inner) :
      IsPattern ('\x7b' :: inner ++ ['\x7d'])
  | array
      {inner : List Char}
      (h : WellNested inner) :
      IsPattern ('[' :: inner ++ [']'])

/-- What can follow a pattern: blanks, and after them a mark with a type or a default. -/
structure IsAnnotation (cs : List Char) : Prop where
  wellNested : WellNested cs
  starts : ∀ c ∈ (Text.dropBlanks cs).head?, isParameterMark c = true
  ends : (Text.trimChars cs).getLast? ≠ some ','

/-- A parameter as it is written. -/
structure WrittenParameter where
  lead : List Char
  pattern : List Char
  annotation : List Char
  lead_blank : ∀ c ∈ lead, Text.isBlank c = true
  isPattern : IsPattern pattern
  isAnnotation : IsAnnotation annotation

/-- The text of a parameter. -/
def WrittenParameter.text (param : WrittenParameter) : List Char :=
  param.lead ++ (param.pattern ++ param.annotation)

/-- The text of a parameter list; after the last parameter there can be a comma. -/
def listText (params : List WrittenParameter) (trailing : Option (List Char)) : List Char :=
  Text.joinChars [','] (params.map WrittenParameter.text ++ trailing.toList)

namespace IsPattern

variable {cs : List Char}

theorem passedOver
    (h : IsPattern cs) :
    PassedOver cs := by
  cases h with
  | name h =>
      obtain ⟨hrun, hstray, hcomma⟩ := Literal.scan_plain h.isPlain
      exact ⟨hrun, hstray, hcomma⟩
  | object h =>
      exact Literal.passedOver_braces h
  | array h =>
      exact Literal.passedOver_brackets h

theorem nonempty
    (h : IsPattern cs) :
    cs ≠ [] := by
  cases h with
  | name h =>
      exact h.nonempty
  | object h =>
      simp
  | array h =>
      simp

theorem trimmed
    (h : IsPattern cs) :
    Text.trimChars cs = cs := by
  cases h with
  | name h =>
      exact h.isArgument.trimmed
  | object h =>
      refine Text.trimChars_eq_self ?_ ?_
      · rintro c ⟨⟩
        rfl
      · intro c hc
        rw [List.getLast?_concat, Option.mem_some] at hc
        rw [← hc]
        rfl
  | array h =>
      refine Text.trimChars_eq_self ?_ ?_
      · rintro c ⟨⟩
        rfl
      · intro c hc
        rw [List.getLast?_concat, Option.mem_some] at hc
        rw [← hc]
        rfl

end IsPattern

/-! ### The name of a parameter -/

theorem parameterName_eq_trimChars
    (cs : List Char) :
    parameterName cs = Text.trimChars (cs.takeWhile fun c => !isParameterMark c) := by
  rfl

theorem isParameterMark_of_isBlank
    {c : Char}
    (h : Text.isBlank c = true) :
    (!isParameterMark c) = true := by
  rw [Bool.not_eq_true', Bool.eq_false_iff]
  intro hmark
  rw [Text.isBlank_eq_false (by decide +kernel) hmark] at h
  cases h

/-- Blanks before a parameter, and blanks or an annotation after it, do not change its name. -/
theorem parameterName_between
    {lead rest : List Char}
    (hlead : ∀ c ∈ lead, Text.isBlank c = true)
    (hrest : ∀ c ∈ (Text.dropBlanks rest).head?, isParameterMark c = true)
    (cs : List Char) :
    parameterName (lead ++ (cs ++ rest)) = parameterName cs := by
  obtain ⟨gap, hgap, hsplit⟩ := Text.exists_dropBlanks rest
  have htake : rest.takeWhile (fun c => !isParameterMark c) = gap := by
    have hmark : (Text.dropBlanks rest).takeWhile (fun c => !isParameterMark c) = [] := by
      cases hhead : Text.dropBlanks rest with
      | nil =>
          rfl
      | cons c tail =>
          rw [List.takeWhile_cons_of_neg]
          simp [hrest c (by rw [hhead]; rfl)]
    rw [hsplit, List.takeWhile_append_of_pos fun c hc => isParameterMark_of_isBlank (hgap c hc),
      hmark, List.append_nil]
  rw [parameterName_eq_trimChars, parameterName_eq_trimChars,
    List.takeWhile_append_of_pos fun c hc => isParameterMark_of_isBlank (hlead c hc),
    List.takeWhile_append, htake]
  split_ifs with hall
  · rw [Text.trimChars_append hlead hgap,
      (List.takeWhile_prefix fun c => !isParameterMark c).eq_of_length hall]
  · have hnone := @Text.trimChars_append lead [] hlead (by simp)
      (cs.takeWhile fun c => !isParameterMark c)
    rwa [List.append_nil] at hnone

/-- The name of a parameter does not depend on the blanks around it. -/
theorem parameterName_trimChars
    (cs : List Char) :
    parameterName (Text.trimChars cs) = parameterName cs := by
  obtain ⟨front, rear, hcs, hfront, hrear⟩ := Text.exists_trimChars cs
  have hrest : ∀ c ∈ (Text.dropBlanks rear).head?, isParameterMark c = true := by
    have hnil : Text.dropBlanks rear = [] := by
      rw [Text.dropBlanks, ← List.append_nil rear, List.dropWhile_append_of_pos hrear,
        List.dropWhile_nil]
    rw [hnil]
    simp
  have hname := parameterName_between hfront hrest (Text.trimChars cs)
  rw [← List.append_assoc, ← hcs] at hname
  exact hname.symm

/-- A pattern is its own name exactly if there is no mark in it. -/
theorem IsPattern.parameterName_eq_self_iff
    {cs : List Char}
    (h : IsPattern cs) :
    parameterName cs = cs ↔ ∀ c ∈ cs, isParameterMark c = false := by
  constructor
  · intro hname c hc
    obtain ⟨front, rear, hsplit, -, -⟩ :=
      Text.exists_trimChars (cs.takeWhile fun d => !isParameterMark d)
    rw [← parameterName_eq_trimChars, hname] at hsplit
    have hmem : c ∈ cs.takeWhile fun d => !isParameterMark d := by
      rw [hsplit]
      simp [hc]
    have hall := List.all_eq_true.mp
      (List.all_takeWhile (p := fun d => !isParameterMark d) (l := cs)) c hmem
    simpa using hall
  · intro hmarks
    rw [parameterName_eq_trimChars, List.takeWhile_eq_self_iff.mpr, h.trimmed]
    intro c hc
    rw [hmarks c hc]
    rfl

/-! ### Parameter lists -/

namespace WrittenParameter

variable (param : WrittenParameter)

theorem wellNested :
    WellNested param.text := by
  exact (Literal.passedOver_of_isBlank param.lead_blank).wellNested.append
    (param.isPattern.passedOver.wellNested.append param.isAnnotation.wellNested)

/-- All commas outside of nesting are in the annotation. -/
theorem commaFree_text :
    Nesting.commaFree {} param.text = Nesting.commaFree {} param.annotation := by
  have hlead := Literal.passedOver_of_isBlank param.lead_blank
  have hpattern := param.isPattern.passedOver
  rw [text, Nesting.commaFree_append, hlead.commaFree, hlead.back, Nesting.commaFree_append,
    hpattern.commaFree, hpattern.back, Bool.true_and, Bool.true_and]

theorem trimChars_text_ne_nil :
    Text.trimChars param.text ≠ [] := by
  intro hnil
  have hblank : ∀ c ∈ param.pattern, Text.isBlank c = true := by
    intro c hc
    exact Text.isBlank_of_trimChars_eq_nil hnil c (by simp [text, hc])
  have hpattern := Text.trimChars_eq_nil hblank
  rw [param.isPattern.trimmed] at hpattern
  exact param.isPattern.nonempty hpattern

/-- The last piece of a parameter is not blank, since no annotation ends in a comma. -/
theorem trimChars_last_piece
    {piece : List Char}
    (h : piece ∈ (splitTop {} param.text).getLast?) :
    Text.trimChars piece ≠ [] := by
  rcases Nesting.commaFree_or_exists_comma {} param.annotation with
    hfree | ⟨first, rest, hcut, -, htop⟩
  · rw [Literal.splitTop_of_commaFree (param.commaFree_text.trans hfree)] at h
    rw [← Option.mem_some.mp h]
    exact param.trimChars_text_ne_nil
  · intro hnil
    have hfirst : (Nesting.run {} (param.lead ++ (param.pattern ++ first))).isTop = true := by
      rw [Nesting.run_append, (Literal.passedOver_of_isBlank param.lead_blank).back,
        Nesting.run_append, param.isPattern.passedOver.back]
      exact htop
    have htext : param.text = param.lead ++ (param.pattern ++ first) ++ ',' :: rest := by
      simp [text, hcut]
    rw [htext, Literal.splitTop_append_comma hfirst, Nesting.run_eq_start hfirst,
      List.getLast?_append_of_ne_nil _ (Literal.splitTop_ne_nil _ _)] at h
    -- Wherever the piece starts, a comma of the annotation stands before it.
    obtain ⟨before, hbefore⟩ : ∃ before, param.annotation = before ++ [','] ++ piece := by
      rcases Literal.getLast?_splitTop h with rfl | ⟨before, rfl⟩
      · exact ⟨first, by simp [hcut]⟩
      · exact ⟨first ++ ',' :: before, by simp [hcut]⟩
    refine param.isAnnotation.ends ?_
    rw [hbefore, Text.trimChars_append_of_isBlank (Text.isBlank_of_trimChars_eq_nil hnil)]
    exact Text.getLast?_trimChars_concat rfl before

/-- The pieces of a parameter give its pattern and nothing else exactly if the pattern has no mark
and the annotation is not cut. -/
theorem names_eq_pattern_iff :
    (splitTop {} param.text).map parameterName = [param.pattern] ↔
      (∀ c ∈ param.pattern, isParameterMark c = false) ∧
      Nesting.commaFree {} param.annotation = true := by
  have hname : parameterName param.text = parameterName param.pattern :=
    parameterName_between param.lead_blank param.isAnnotation.starts param.pattern
  rw [← param.isPattern.parameterName_eq_self_iff, ← param.commaFree_text, ← hname,
    List.map_eq_singleton_iff]
  constructor
  · rintro ⟨piece, hpiece, hpattern⟩
    obtain ⟨hfree, rfl⟩ := Literal.splitTop_eq_singleton_iff.mp hpiece
    exact ⟨hpattern, hfree⟩
  · rintro ⟨hpattern, hfree⟩
    exact ⟨param.text, Literal.splitTop_of_commaFree hfree, hpattern⟩

end WrittenParameter

/-- The names that are read from a parameter list: those of the pieces of each parameter. -/
theorem map_parameterName_listText
    (params : List WrittenParameter)
    {trailing : Option (List Char)}
    (htrailing : ∀ gap ∈ trailing, ∀ c ∈ gap, Text.isBlank c = true) :
    (Literal.argumentChars (listText params trailing)).map parameterName =
      params.flatMap fun param => (splitTop {} param.text).map parameterName := by
  have htexts : ∀ text ∈ params.map WrittenParameter.text, WellNested text := by
    intro text htext
    obtain ⟨param, -, rfl⟩ := List.mem_map.mp htext
    exact param.wellNested
  have hnames : ∀ pieces : List (List Char),
      (pieces.map Text.trimChars).map parameterName = pieces.map parameterName := by
    intro pieces
    rw [List.map_map]
    exact List.map_congr_left fun piece _ => parameterName_trimChars piece
  rw [← List.map_flatMap, ← List.flatMap_map,
    ← hnames ((params.map WrittenParameter.text).flatMap (splitTop {})), listText,
    Literal.argumentChars]
  congr 1
  cases trailing with
  | none =>
      rw [Option.toList_none, List.append_nil]
      obtain rfl | ⟨front, last, rfl⟩ := List.eq_nil_or_concat params
      · rfl
      · rw [Literal.splitTop_joinChars htexts (by simp)]
        refine Literal.trimPieces_eq_map ?_
        intro piece hpiece
        rw [List.concat_eq_append, List.map_append, List.map_singleton, List.flatMap_append,
          List.flatMap_singleton,
          List.getLast?_append_of_ne_nil _ (Literal.splitTop_ne_nil _ _)] at hpiece
        exact last.trimChars_last_piece hpiece
  | some gap =>
      have hgap := htrailing gap rfl
      have hpassed := Literal.passedOver_of_isBlank hgap
      have hall : ∀ text ∈ params.map WrittenParameter.text ++ [gap], WellNested text := by
        intro text htext
        rw [List.mem_append, List.mem_singleton] at htext
        rcases htext with htext | rfl
        · exact htexts text htext
        · exact hpassed.wellNested
      rw [Option.toList_some, Literal.splitTop_joinChars hall (by simp), List.flatMap_append,
        List.flatMap_singleton, Literal.splitTop_of_commaFree hpassed.commaFree,
        Literal.trimPieces_concat, Literal.trimPieces, Text.trimChars_eq_nil hgap]
      exact List.append_nil _

/-- Patterns come back from a parameter list exactly if none of them has a mark and none of their
annotations is cut. -/
theorem names_eq_patterns_iff
    (params : List WrittenParameter)
    {trailing : Option (List Char)}
    (htrailing : ∀ gap ∈ trailing, ∀ c ∈ gap, Text.isBlank c = true) :
    (Literal.argumentChars (listText params trailing)).map parameterName =
        params.map WrittenParameter.pattern ↔
      ∀ param ∈ params,
        (∀ c ∈ param.pattern, isParameterMark c = false) ∧
        Nesting.commaFree {} param.annotation = true := by
  -- Each parameter gives one name at least, so that none of them can give more.
  have hlength : ∀ param ∈ params,
      [param.pattern].length ≤ ((splitTop {} param.text).map parameterName).length := by
    intro param _
    rw [List.length_map]
    exact List.length_pos_of_ne_nil (Literal.splitTop_ne_nil {} param.text)
  rw [map_parameterName_listText params htrailing, List.map_eq_flatMap,
    Text.flatMap_eq_iff_of_length_le hlength]
  exact forall₂_congr fun param _ => param.names_eq_pattern_iff

/-! ### Functions -/

/-- The word before an asynchronous function, with the blanks after it. -/
inductive IsAsyncMark : List Char → Prop
  | absent :
      IsAsyncMark []
  | present
      {gap : List Char}
      (hgap : ∀ c ∈ gap, Text.isBlank c = true) :
      IsAsyncMark ("async".toList ++ gap)

/-- What stands before and after the parameter list of a function. -/
inductive Surrounds : List Char → List Char → Prop
  | arrow
      (type body : List Char) :
      Surrounds [] (type ++ ("=>".toList ++ body))
  | keyword
      {name : List Char}
      (hname : '(' ∉ name)
      (rest : List Char) :
      Surrounds ("function".toList ++ name) rest

/-- The text is that of a function with this parameter list. -/
def IsFunctionWith (list text : List Char) : Prop :=
  ∃ mark before after,
    IsAsyncMark mark ∧ Surrounds before after ∧
    Text.trimChars text = mark ++ (before ++ ('(' :: list ++ ')' :: after))

/-- The arrow is found behind the blanks after a parameter list. -/
theorem exists_splitOnce_arrow
    (type body : List Char) :
    ∃ parts, Text.splitOnce "=>".toList
      (Text.dropBlanks (type ++ ("=>".toList ++ body))) = some parts := by
  have hdrop : ∃ before, Text.dropBlanks (type ++ ("=>".toList ++ body)) =
      before ++ "=>".toList ++ body := by
    rw [Text.dropBlanks, List.dropWhile_append]
    split_ifs with hempty
    · exact ⟨[], rfl⟩
    · exact ⟨type.dropWhile Text.isBlank, by rw [List.append_assoc]⟩
  obtain ⟨before, hbefore⟩ := hdrop
  rw [hbefore, ← Option.isSome_iff_exists]
  exact Text.contains_append before _ body

theorem functionParts?_surrounded
    {before after list : List Char}
    (h : Surrounds before after)
    (hlist : WellNested list) :
    ∃ body, functionParts? (before ++ ('(' :: list ++ ')' :: after)) = some (list, body) := by
  have hparens := Literal.parenthesized?_of_wellNested hlist after
  cases h with
  | arrow type body =>
      obtain ⟨⟨front, rear⟩, harrow⟩ := exists_splitOnce_arrow type body
      have hword : Text.stripStart "function".toList
          ('(' :: list ++ ')' :: (type ++ ("=>".toList ++ body))) = none := by
        rfl
      refine ⟨Text.trimChars rear, ?_⟩
      rw [List.nil_append, functionParts?, hword]
      dsimp only
      rw [if_pos (by rfl), hparens]
      simp only [Option.bind_eq_bind, Option.bind_some, harrow, Option.pure_def]
  | @keyword name hname rest =>
      have hdrop : (name ++ ('(' :: list ++ ')' :: after)).dropWhile (· != '(') =
          '(' :: list ++ ')' :: after := by
        rw [List.dropWhile_append_of_pos]
        · rfl
        · intro c hc
          rw [bne_iff_ne]
          rintro rfl
          exact hname hc
      refine ⟨Text.trimChars after, ?_⟩
      rw [functionParts?, List.append_assoc, Text.stripStart_eq_some_iff.mpr rfl]
      dsimp only
      rw [hdrop, hparens]
      simp only [Option.bind_eq_bind, Option.bind_some, Option.pure_def]

/-- The parameters of a function are read from its parameter list. -/
theorem splitFunction?_of_isFunctionWith
    {list text : List Char}
    (h : IsFunctionWith list text)
    (hlist : WellNested list) :
    ∃ body, splitFunction? text =
      some ((Literal.argumentChars list).map parameterName, body) := by
  obtain ⟨mark, before, after, hmark, hsurrounds, htext⟩ := h
  have hhead : ∀ c ∈ (before ++ ('(' :: list ++ ')' :: after)).head?, Text.isBlank c = false := by
    cases hsurrounds with
    | arrow type body =>
        rintro c ⟨⟩
        rfl
    | keyword hname rest =>
        rintro c ⟨⟩
        rfl
  have hstrip : withoutAsync (Text.trimChars text) = before ++ ('(' :: list ++ ')' :: after) := by
    rw [htext, withoutAsync]
    cases hmark with
    | absent =>
        have hnone : Text.stripStart "async".toList
            (before ++ ('(' :: list ++ ')' :: after)) = none := by
          cases hsurrounds <;> rfl
        rw [List.nil_append, hnone]
        rfl
    | present hgap =>
        rw [List.append_assoc, Text.stripStart_eq_some_iff.mpr rfl, Option.map_some,
          Option.getD_some, Text.dropBlanks_append hgap hhead]
  obtain ⟨body, hparts⟩ := functionParts?_surrounded hsurrounds hlist
  refine ⟨functionBody body, ?_⟩
  rw [splitFunction?_eq, hstrip, hparts]
  rfl

/-! ### Both readers -/

theorem wellNested_listText
    (params : List WrittenParameter)
    {trailing : Option (List Char)}
    (htrailing : ∀ gap ∈ trailing, ∀ c ∈ gap, Text.isBlank c = true) :
    WellNested (listText params trailing) := by
  refine Literal.wellNested_joinChars ⟨by decide, by decide⟩ ?_
  intro text htext
  rw [List.mem_append, List.mem_map, Option.mem_toList] at htext
  rcases htext with ⟨param, -, rfl⟩ | htext
  · exact param.wellNested
  · exact (Literal.passedOver_of_isBlank (htrailing text htext)).wellNested

/-- The node of a parameter has its pattern as a child. -/
def IsNodeOf (node : Tree) (param : WrittenParameter) : Prop :=
  ∃ pattern, node.child? .pattern = some pattern ∧ pattern.text = String.ofList param.pattern

theorem IsNodeOf.parameterText_eq
    {node : Tree}
    {param : WrittenParameter}
    (h : IsNodeOf node param) :
    Spec.parameterText node = String.ofList param.pattern := by
  obtain ⟨pattern, hpattern, htext⟩ := h
  rw [Spec.parameterText, hpattern, Option.getD_some, htext]

theorem parametersOf_eq_patterns
    {function list : Tree}
    {params : List WrittenParameter}
    (hlist : function.child? .parameters = some list)
    (hnodes : List.Forall₂ IsNodeOf (Spec.argumentNodes list) params) :
    Spec.parametersOf function = params.map fun param => String.ofList param.pattern := by
  rw [Spec.parametersOf, hlist]
  dsimp only
  generalize Spec.argumentNodes list = nodes at hnodes ⊢
  induction hnodes with
  | nil =>
      rfl
  | cons hnode _ ih =>
      rw [List.map_cons, List.map_cons, hnode.parameterText_eq, ih]

/-- The parameters that are read from the text of a function are its patterns, as those from its
tree are, exactly if no pattern has a mark in it and no annotation a comma outside of nesting. -/
theorem patterns_kept_iff
    {function list : Tree}
    {params : List WrittenParameter}
    {trailing : Option (List Char)}
    (htrailing : ∀ gap ∈ trailing, ∀ c ∈ gap, Text.isBlank c = true)
    (htext : IsFunctionWith (listText params trailing) function.text.toList)
    (hlist : function.child? .parameters = some list)
    (hnodes : List.Forall₂ IsNodeOf (Spec.argumentNodes list) params) :
    Spec.parametersOf function = params.map (fun param => String.ofList param.pattern) ∧
    ∃ names body, splitFunction? function.text.toList = some (names, body) ∧
      (names.map String.ofList = Spec.parametersOf function ↔
        ∀ param ∈ params,
          (∀ c ∈ param.pattern, isParameterMark c = false) ∧
          Nesting.commaFree {} param.annotation = true) := by
  have hparams := parametersOf_eq_patterns hlist hnodes
  obtain ⟨body, hsplit⟩ :=
    splitFunction?_of_isFunctionWith htext (wellNested_listText params htrailing)
  refine ⟨hparams, _, body, hsplit, ?_⟩
  have hinj : Function.Injective (List.map String.ofList) :=
    List.map_injective_iff.mpr fun cs ds h => by simpa using congrArg String.toList h
  have hpatterns : params.map (fun param => String.ofList param.pattern) =
      (params.map WrittenParameter.pattern).map String.ofList := by
    rw [List.map_map]
    rfl
  rw [hparams, hpatterns, hinj.eq_iff]
  exact names_eq_patterns_iff params htrailing

/-- A pattern in braces, and one in brackets with a type and a default. -/
def orderParameters : List WrittenParameter :=
  [{ lead := []
     pattern := '\x7b' :: " id, kind ".toList ++ ['\x7d']
     annotation := []
     lead_blank := List.forall_mem_nil _
     isPattern := .object ⟨by decide, by decide⟩
     isAnnotation := ⟨⟨by decide, by decide⟩, by rintro c ⟨⟩, by decide⟩ },
   { lead := [' ']
     pattern := '[' :: "first".toList ++ [']']
     annotation := ": string[] = ['a']".toList
     lead_blank := List.forall_mem_singleton.mpr rfl
     isPattern := .array ⟨by decide, by decide⟩
     isAnnotation := ⟨⟨by decide, by decide⟩, by rintro c ⟨⟩; rfl, by decide⟩ }]

/-- The tree of a function with these parameters. -/
def orderFunction : Tree :=
  .node .arrowFunction .plain default
    "async (\x7b id, kind \x7d, [first]: string[] = ['a'],) => cy.visit(id)"
    [.node .formalParameters .parameters default
      "(\x7b id, kind \x7d, [first]: string[] = ['a'],)"
      [.node .requiredParameter .plain default "\x7b id, kind \x7d"
        [.node .objectPattern .pattern default "\x7b id, kind \x7d" []],
       .node .requiredParameter .plain default "[first]: string[] = ['a']"
        [.node .arrayPattern .pattern default "[first]" []]]]

theorem patterns_kept_iff_order :
    ∃ names body,
      splitFunction? orderFunction.text.toList = some (names, body) ∧
      names.map String.ofList = Spec.parametersOf orderFunction ∧
      Spec.parametersOf orderFunction = ["\x7b id, kind \x7d", "[first]"] := by
  have hmark : IsAsyncMark ("async".toList ++ [' ']) :=
    .present (List.forall_mem_singleton.mpr rfl)
  have htext : IsFunctionWith (listText orderParameters (some [])) orderFunction.text.toList :=
    ⟨_, _, _, hmark, .arrow [' '] " cy.visit(id)".toList, by decide +kernel⟩
  obtain ⟨hparams, names, body, hsplit, hkept⟩ :=
    patterns_kept_iff (by rintro gap ⟨⟩ c ⟨⟩) htext rfl (.cons ⟨_, rfl, rfl⟩ (.cons ⟨_, rfl, rfl⟩ .nil))
  have hkeeps : (orderParameters.all fun param =>
      param.pattern.all (!isParameterMark ·) && Nesting.commaFree {} param.annotation) = true := by
    decide
  simp only [List.all_eq_true, Bool.and_eq_true, Bool.not_eq_true'] at hkeeps
  exact ⟨names, body, hsplit, hkept.mpr hkeeps, hparams⟩

/-- A registration whose parameter is bound under another name. -/
def renamingText : String :=
  "Cypress.Commands.add('open', (\x7b path: to \x7d) => \x7b\n  cy.visit(to);\n\x7d);"

/-- The pattern is cut in the middle by one reader and kept by the other. -/
theorem pattern_cut_at_colon :
    (findRegistration? renamingText.toList).map readRegistration =
      some (.ok { name := "open", parameters := ["\x7b path"], body := "cy.visit(to);" }) ∧
    (SpecFile.ofSource "commands.js" renamingText).toOption.map
        (fun spec => spec.definitions.map Definition.parameters) =
      some [["\x7b path: to \x7d"]] := by
  decide +kernel

end CustomCommand
end SuiteShift
