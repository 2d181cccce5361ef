import SuiteShift.Proofs.CustomCommand.RegistrationReading

/-!
# Places in the body of a registration

- `BodyPlace`: a registration that is read, and a line end in the body of its function.
- `BodyPlace.IsNested`: some bracket is open at the place, as in every body between braces.
- `BodyPlace.ReadsAlike`: with a comment before that line end, the name and the parameters stay.
- `BodyPlace.cut_front`, `BodyPlace.closed_after`: where both scans stand at the place.
- `BodyPlace.readsAlike_of_wellNested`: a well nested comment changes nothing, unless it has a comma
  where the scan is outside of all nesting.
-/

namespace SuiteShift
namespace CustomCommand

open Literal (Nesting WellNested IsSegment splitTop splitClosing)

/-! ### Places -/

/-- A text with an argument list, cut at a place in the last argument. -/
structure Place where
  /-- All before the argument list. -/
  lead : List Char
  /-- The arguments before the last one. -/
  args : List (List Char)
  /-- The last argument up to the place. -/
  front : List Char
  /-- The last argument from the place on. -/
  back : List Char
  /-- Blanks after the last argument. -/
  margin : List Char
  /-- What stands after a comma behind the last argument, if there is one. -/
  trailing : Option (List Char)
  /-- All after the argument list. -/
  rest : List Char

namespace Place

/-- The argument list before the place. -/
def before (place : Place) : List Char :=
  place.args.flatMap (· ++ [',']) ++ place.front

/-- The argument list after the place. -/
def after (place : Place) : List Char :=
  place.back ++ (place.margin ++ place.trailing.elim [] (',' :: ·))

/-- The argument list and what follows it, with something inserted at the place. -/
def list (place : Place) (inserted : List Char) : List Char :=
  '(' :: (place.before ++ (inserted ++ (place.after ++ ')' :: place.rest)))

/-- The whole text. -/
def text (place : Place) (inserted : List Char) : List Char :=
  place.lead ++ place.list inserted

end Place

/-- A registration that is read, and a line end in the body of its function, outside of literals. -/
structure BodyPlace extends Place where
  definition : Definition
  found : findRegistration? (toPlace.text []) = some (toPlace.list [])
  closed : Literal.parenthesized? (toPlace.list []) = some (toPlace.before ++ toPlace.after, rest)
  cut : splitTop {} (toPlace.before ++ toPlace.after) =
    args ++ (front ++ (back ++ margin)) :: trailing.toList
  margin_blank : ∀ c ∈ margin, Text.isBlank c = true
  trailing_blank : ∀ gap ∈ trailing, ∀ c ∈ gap, Text.isBlank c = true
  read : readRegistration (toPlace.list []) = .ok definition
  inBody : ∃ params bodyFront,
    functionParts? (withoutAsync (Text.trimChars (front ++ (back ++ margin)))) =
      some (params, bodyFront ++ back)
  outside : (Nesting.run {} front).quote = none
  lineEnd : back.head? = some '\n' ∨ back.head? = some '\r'

/-- Some bracket is open at the place. -/
def BodyPlace.IsNested (place : BodyPlace) : Prop :=
  (Nesting.run {} place.front).isTop = false

/-- A comment up to the end of the line. -/
def lineComment (text : List Char) : List Char :=
  '/' :: '/' :: text

theorem wellNested_slashes : WellNested ['/', '/'] := by
  exact ⟨by decide, by decide⟩

theorem wellNested_lineComment
    {comment : List Char}
    (h : WellNested comment) :
    WellNested (lineComment comment) := by
  exact wellNested_slashes.append h

theorem commaFree_lineComment
    {n : Nesting}
    (hquote : n.quote = none)
    (hsound : n.Sound)
    {comment : List Char} :
    n.commaFree (lineComment comment) = n.commaFree comment := by
  have hsplit : lineComment comment = ['/', '/'] ++ comment := by
    rfl
  rw [hsplit, Nesting.commaFree_append, Literal.commaFree_of_not_mem (by decide),
    wellNested_slashes.run_eq hquote hsound, Bool.true_and]

/-- With a comment before the line end, the name and the parameters are still read. -/
def BodyPlace.ReadsAlike (place : BodyPlace) (comment : List Char) : Prop :=
  ∃ body, (findRegistration? (place.text (lineComment comment))).map readRegistration =
    some (.ok { place.definition with body })

/-! ### What is read at a place -/

namespace BodyPlace

variable (place : BodyPlace)

theorem isSegment_args :
    ∀ arg ∈ place.args, IsSegment arg := by
  exact Literal.isSegment_of_splitTop place.cut (by simp)

/-- How the argument list is cut around the place. -/
theorem cut_front :
    Nesting.commaFree {} place.front = true ∧
    splitTop (Nesting.run {} place.front) place.after =
      (place.back ++ place.margin) :: place.trailing.toList := by
  have hcut := place.cut
  rw [Place.before, List.append_assoc, Literal.splitTop_segments place.isSegment_args] at hcut
  exact Literal.commaFree_of_splitTop (List.append_cancel_left hcut)

theorem sound_front :
    (Nesting.run {} place.front).Sound := by
  exact Nesting.Sound.run (fun _ => rfl) place.front

/-- The scan for the closing parenthesis is outside of literals at the place, too. -/
theorem quote_before :
    ((Nesting.step {} '(').run place.before).quote = none := by
  have halike : Nesting.Alike (Nesting.step {} '(') {} := ⟨rfl, rfl⟩
  rw [(halike.run place.before).quote, Place.before, Nesting.run_append,
    Literal.run_segments place.isSegment_args]
  exact place.outside

/-- Up to the place nothing is closed, and from there on the list ends where it does. -/
theorem closed_after :
    splitClosing (Nesting.step {} '(') place.before = none ∧
    splitClosing ((Nesting.step {} '(').run place.before) (place.after ++ ')' :: place.rest) =
      some (place.after, place.rest) := by
  have hclosed := place.closed
  rw [Place.list, Literal.parenthesized?, List.nil_append] at hclosed
  have hnone := Literal.splitClosing_eq_none_of_append hclosed
  refine ⟨hnone, ?_⟩
  rw [Literal.splitClosing_append_of_none hnone, Option.map_eq_some_iff] at hclosed
  obtain ⟨⟨inside, after⟩, hparts, heq⟩ := hclosed
  obtain ⟨hinside, rfl⟩ := Prod.mk.inj heq
  obtain rfl : inside = place.after := List.append_cancel_left hinside
  exact hparts

/-- The callback as it is written. -/
def callback : List Char :=
  place.front ++ (place.back ++ place.margin)

theorem argumentChars_eq :
    Literal.argumentChars (place.before ++ place.after) =
      place.args.map Text.trimChars ++ [Text.trimChars place.callback] := by
  have hne : Text.trimChars place.callback ≠ [] := by
    obtain ⟨params, bodyFront, hparts⟩ := place.inBody
    intro hnil
    rw [← callback, hnil] at hparts
    cases hparts
  rw [Literal.argumentChars, place.cut]
  exact Literal.trimPieces_trailing hne place.trailing_blank

/-- The argument list with a comment in it is cut as before, unless it ends in the comment. -/
theorem exists_parenthesized?
    {comment : List Char}
    (h : WellNested comment)
    (hfree : (Nesting.run {} place.front).commaFree comment = true) :
    ∃ inside rest tail,
      Literal.parenthesized? (place.list (lineComment comment)) = some (inside, rest) ∧
      Literal.argumentChars inside =
        place.args.map Text.trimChars ++ [Text.trimChars (place.front ++ '/' :: tail)] := by
  have hslashes := wellNested_lineComment h
  obtain ⟨hnone, hafter⟩ := place.closed_after
  obtain ⟨hfront, hcut⟩ := place.cut_front
  have hsound : ((Nesting.step {} '(').run place.before).Sound :=
    Nesting.Sound.run (fun _ => rfl) place.before
  rw [← commaFree_lineComment place.outside place.sound_front] at hfree
  -- In both cases below the last argument starts as it did, and has the slashes at the place.
  have hpiece : ∀ tail, Text.trimChars (place.front ++ '/' :: tail) ≠ [] := by
    intro tail
    exact @Text.trimChars_ne_nil _ '/' (by simp) rfl
  rw [Place.list, Literal.parenthesized?, Literal.splitClosing_append_of_none hnone]
  cases hclose : splitClosing ((Nesting.step {} '(').run place.before)
      (lineComment comment) with
  | none =>
      refine ⟨place.before ++ (lineComment comment ++ place.after), place.rest,
        '/' :: comment ++ (place.back ++ place.margin), ?_, ?_⟩
      · rw [Literal.splitClosing_append_of_none hclose,
          hslashes.run_eq place.quote_before hsound, hafter]
        rfl
      · rw [Literal.argumentChars, Place.before, List.append_assoc,
          Literal.splitTop_segments place.isSegment_args, Literal.splitTop_append hfront,
          Literal.splitTop_append hfree, hslashes.run_eq place.outside place.sound_front, hcut]
        exact Literal.trimPieces_trailing (hpiece _) place.trailing_blank
  | some parts =>
      obtain ⟨early, late⟩ := parts
      have hsplit := Literal.splitClosing_eq_append hclose
      obtain ⟨tail, rfl⟩ : ∃ tail, early = '/' :: tail := by
        cases early with
        | nil =>
            cases hsplit
        | cons c early =>
            exact ⟨early, by rw [(List.cons.inj hsplit).1]⟩
      refine ⟨place.before ++ '/' :: tail, late ++ (place.after ++ ')' :: place.rest), tail, ?_, ?_⟩
      · rw [Literal.splitClosing_append_of_some hclose]
        rfl
      · rw [hsplit, Nesting.commaFree_append, Bool.and_eq_true] at hfree
        rw [Literal.argumentChars, Place.before, List.append_assoc,
          Literal.splitTop_segments place.isSegment_args, Literal.splitTop_append hfront,
          Literal.splitTop_of_commaFree hfree.1]
        exact @Literal.trimPieces_trailing place.args _ none (hpiece tail) (by simp)

theorem readsAlike_iff
    {place : BodyPlace}
    {comment : List Char} :
    place.ReadsAlike comment ↔
      ∃ body, readRegistration (place.list (lineComment comment)) =
        .ok { place.definition with body } := by
  rw [ReadsAlike, Place.text, Place.list, findRegistration?_paren place.found, ← Place.list]
  simp only [Option.map_some, Option.some.injEq]

/-- A well nested comment does not change what is read, unless one of its commas does. -/
theorem readsAlike_of_wellNested
    {comment : List Char}
    (h : WellNested comment)
    (hfree : (Nesting.run {} place.front).commaFree comment = true) :
    place.ReadsAlike comment := by
  obtain ⟨inside, rest, tail, hclosed, hargs⟩ := place.exists_parenthesized? h hfree
  have hfunction : ∀ names body,
      splitFunction? (Text.trimChars place.callback) = some (names, body) →
      ∃ body', splitFunction? (Text.trimChars (place.front ++ '/' :: tail)) =
        some (names, body') := by
    intro names body hsplit
    obtain ⟨params, bodyFront, hparts⟩ := place.inBody
    obtain ⟨body', hparts'⟩ := exists_body_of_place place.margin_blank place.lineEnd hparts '/' tail
      (by decide) (by decide)
    rw [splitFunction?_eq, Text.trimChars_trimChars, callback, hparts] at hsplit
    rw [splitFunction?_eq, Text.trimChars_trimChars, hparts']
    cases hsplit
    exact ⟨_, rfl⟩
  exact readsAlike_iff.mpr (readRegistration_replace place.read place.closed hclosed
    place.argumentChars_eq hargs hfunction)

end BodyPlace

end CustomCommand
end SuiteShift
