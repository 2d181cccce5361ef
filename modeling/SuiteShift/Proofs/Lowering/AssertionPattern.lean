import SuiteShift.Proofs.Literal.Mark
import SuiteShift.Proofs.Lowering.Step
import SuiteShift.Proofs.Script.Regex

/-!
# Patterns of assertions

A condition that holds a text or names a class becomes a pattern. The pattern is found in exactly
the subjects that the condition asks for.

- `tokens_escaped_text`: an escaped text is read as its own characters, whatever follows it.
- `found_within_iff`: between two stars on dots, the text is found in what holds it.
- `mem_splitOnP_iff`: the pieces between separators, by where they stand.
- `found_class_iff_mem`: between a start or a space and a space or the end, the text is found in
  the attributes that name it.
- `assertion_patterns_exact`: what the code of both kinds of conditions asks for.

White space is what the pattern language takes for it. A line break in the text stands for itself
in the pattern.
-/

namespace SuiteShift
namespace Script
namespace Regex

open Literal (escapeRegex escapeRegexChar isRegexSpecial)

/-! ### Escaped texts -/

/-- The escaped characters are the characters of the syntax and the slash. -/
theorem isRegexSpecial_iff
    (c : Char) :
    isRegexSpecial c = true ↔ c ∈ syntaxCharacters ∨ c = '/' := by
  simp only [isRegexSpecial, syntaxCharacters, List.contains_eq_mem, decide_eq_true_eq,
    List.mem_cons, List.not_mem_nil, or_false]
  tauto

theorem escaped?_of_special
    {c : Char}
    (hspecial : isRegexSpecial c = true) :
    escaped? c = some (.char c) := by
  have hletter : (c == 's') = false := by
    rw [beq_eq_false_iff_ne]
    rintro rfl
    exact absurd hspecial (by decide)
  have hsyntax : (syntaxCharacters.contains c || c == '/') = true := by
    simpa using (isRegexSpecial_iff c).mp hspecial
  rw [escaped?, hletter, hsyntax]
  rfl

theorem plain?_of_not_special
    {c : Char}
    (hspecial : ¬ isRegexSpecial c = true) :
    plain? c = some (.char c) := by
  have hsyntax : c ∉ syntaxCharacters := fun hmem =>
    hspecial ((isRegexSpecial_iff c).mpr (Or.inl hmem))
  have hne : ∀ d ∈ syntaxCharacters, (c == d) = false := by
    intro d hmem
    rw [beq_eq_false_iff_ne]
    rintro rfl
    exact hsyntax hmem
  simp [plain?, hsyntax, hne '.' (by decide), hne '^' (by decide), hne '$' (by decide),
    hne '|' (by decide), hne '(' (by decide), hne ')' (by decide), hne '*' (by decide)]

/-- An escaped text is read as its own characters. -/
theorem tokens_escaped_text
    (cs rest : List Char) :
    tokens (cs.flatMap escapeRegexChar ++ rest) =
      (tokens rest).map (cs.map .char ++ ·) := by
  induction cs with
  | nil =>
      simp
  | cons c cs ih =>
      have hstep :
          tokens (escapeRegexChar c ++ (cs.flatMap escapeRegexChar ++ rest)) =
            (tokens (cs.flatMap escapeRegexChar ++ rest)).map (.char c :: ·) := by
        unfold escapeRegexChar
        split_ifs with hspecial
        · exact tokens_escaped (escaped?_of_special hspecial) _
        · exact tokens_plain (plain?_of_not_special hspecial) _
      rw [List.flatMap_cons, List.append_assoc, hstep, ih, Option.map_map]
      rfl

theorem toList_escapeRegex
    (s : String) :
    (escapeRegex s).toList = s.toList.flatMap escapeRegexChar := by
  rw [escapeRegex, String.toList_ofList]
  rfl

/-- An escaped text on its own stands for its characters. -/
theorem read_escapeRegex
    (s : String) :
    read (escapeRegex s) = some (literal s) := by
  have htokens := tokens_escaped_text s.toList []
  have hparse := parse_chars .empty [] s.toList []
  rw [List.append_nil] at htokens
  simp only [List.append_nil] at hparse
  rw [read, toList_escapeRegex, htokens]
  simp only [tokens, Option.map_some, List.append_nil, Option.bind_some]
  rw [hparse, parse, Branch.regex, earlier_pushUnits]
  exact congrArg some (settled_pushUnits _ _)

/-- No slash in an escaped text would end a literal. -/
theorem isPlainBody_escaped
    (cs : List Char) :
    Literal.isPlainBody '/' false (cs.flatMap escapeRegexChar) = true := by
  induction cs with
  | nil =>
      rfl
  | cons c cs ih =>
      rw [List.flatMap_cons, escapeRegexChar]
      split_ifs with hspecial
      · simpa [Literal.isPlainBody] using ih
      · have hbackslash : c ≠ '\\' := by
          rintro rfl
          exact hspecial (by decide)
        have hslash : c ≠ '/' := by
          rintro rfl
          exact hspecial (by decide)
        simpa [Literal.isPlainBody, hbackslash, hslash] using ih

/-! ### Texts within others -/

/-- These characters between something before them and something after them. -/
def around (opening : Regex) (s : String) (closing : Regex) : Regex :=
  ((Regex.empty.seq opening).sequence (Text.utf16 s)).seq closing

theorem matches_around_iff
    (opening closing : Regex)
    (s : String)
    (before units after : List Nat) :
    (around opening s closing).Matches before units after ↔
      ∃ left right, units = left ++ Text.utf16 s ++ right ∧
        opening.Matches before left (Text.utf16 s ++ (right ++ after)) ∧
        closing.Matches (before ++ (left ++ Text.utf16 s)) right after := by
  constructor
  · rintro ⟨_, right, rfl, hrow, hright⟩
    obtain ⟨left, rfl, hleft⟩ := (matches_sequence _ _ _ _ _).mp hrow
    exact ⟨left, right, rfl, (matches_empty_seq _ _ _ _).mp hleft, hright⟩
  · rintro ⟨left, right, rfl, hleft, hright⟩
    have hrow := (matches_sequence _ _ _ _ _).mpr
      ⟨left, rfl, (matches_empty_seq _ _ _ _).mpr hleft⟩
    exact ⟨left ++ Text.utf16 s, right, rfl, hrow, hright⟩

/-- Any text of one line, these characters, any text of one line. -/
def within (s : String) : Regex :=
  around (.star .any) s (.star .any)

theorem read_within
    (s : String) :
    read (".*" ++ escapeRegex s ++ ".*") = some (within s) := by
  have htext :
      (".*" ++ escapeRegex s ++ ".*").toList =
        '.' :: '*' :: (s.toList.flatMap escapeRegexChar ++ ['.', '*']) := by
    simp [toList_escapeRegex]
  have htokens :
      tokens (".*" ++ escapeRegex s ++ ".*").toList =
        some (.any :: .star :: (s.toList.map .char ++ [.any, .star])) := by
    have hdot : plain? '.' = some .any := rfl
    have hstar : plain? '*' = some .star := rfl
    rw [htext, tokens_plain hdot, tokens_plain hstar, tokens_escaped_text]
    rfl
  rw [read, htokens]
  simp only [Option.bind_some, parse, Branch.push, Branch.repeat?, Option.map_some]
  rw [parse_chars]
  simp only [parse, Branch.push, Branch.repeat?, Option.map_some, Branch.regex,
    Branch.settled, earlier_pushUnits]
  exact congrArg (fun regex => some (regex.seq (.star .any))) (settled_pushUnits _ _)

/-- The pattern is found wherever the text stands. -/
theorem found_within_iff
    (s : String)
    (subject : List Nat) :
    (within s).Found subject ↔ Text.utf16 s <:+: subject := by
  constructor
  · rintro ⟨before, _, after, rfl, hmatches⟩
    obtain ⟨left, right, rfl, -, -⟩ := (matches_around_iff _ _ _ _ _ _).mp hmatches
    exact ⟨before ++ left, right ++ after, by simp⟩
  · rintro ⟨before, after, rfl⟩
    refine ⟨before, Text.utf16 s, after, rfl, (matches_around_iff _ _ _ _ _ _).mpr ?_⟩
    exact ⟨[], [], by simp, .none, .none⟩

/-- On one line the pattern matches the subject from start to end. -/
theorem matches_line_iff
    (s : String)
    {subject : List Nat}
    (hline : ∀ u ∈ subject, u ∉ lineTerminatorUnits) :
    (within s).Matches [] subject [] ↔ Text.utf16 s <:+: subject := by
  rw [within, matches_around_iff]
  constructor
  · rintro ⟨left, right, rfl, -, -⟩
    exact ⟨left, right, rfl⟩
  · rintro ⟨left, right, rfl⟩
    refine ⟨left, right, rfl, repeats_any ?_ _ _, repeats_any ?_ _ _⟩
    · intro u hmem
      exact hline u (by simp [hmem])
    · intro u hmem
      exact hline u (by simp [hmem])

/-! ### Pieces between separators -/

section Pieces

variable {α : Type}

/-- What ends with a separator, or is empty. -/
def EndsApart (p : α → Bool) (units : List α) : Prop :=
  units = [] ∨ ∃ rest u, p u = true ∧ units = rest ++ [u]

/-- What begins with a separator, or is empty. -/
def BeginsApart (p : α → Bool) (units : List α) : Prop :=
  units = [] ∨ ∃ u rest, p u = true ∧ units = u :: rest

theorem exists_first
    (p : α → Bool)
    (units : List α) :
    (∀ u ∈ units, p u = false) ∨
      ∃ first u rest, units = first ++ u :: rest ∧ p u = true ∧ ∀ v ∈ first, p v = false := by
  induction units with
  | nil =>
      simp
  | cons v units ih =>
      cases hsep : p v with
      | true =>
          exact Or.inr ⟨[], v, units, rfl, hsep, by simp⟩
      | false =>
          rcases ih with hnone | ⟨first, u, rest, rfl, hu, hfirst⟩
          · exact Or.inl (by simpa [hsep] using hnone)
          · exact Or.inr ⟨v :: first, u, rest, rfl, hu, by simpa [hsep] using hfirst⟩

/-- A piece holds no separator and stands between two of them, or an end. -/
theorem mem_splitOnP_iff
    (p : α → Bool)
    (piece units : List α) :
    piece ∈ units.splitOnP p ↔
      (∀ u ∈ piece, p u = false) ∧
        ∃ left right, units = left ++ piece ++ right ∧
          EndsApart p left ∧ BeginsApart p right := by
  constructor
  · intro hmem
    -- Separators are found from the left, so what is left gets shorter.
    induction hlength : units.length using Nat.strong_induction_on generalizing units with
    | _ n ih =>
        subst hlength
        rcases exists_first p units with hnone | ⟨first, u, rest, rfl, hu, hfirst⟩
        · rw [List.splitOnP_eq_singleton hnone, List.mem_singleton] at hmem
          subst hmem
          exact ⟨hnone, [], [], by simp, Or.inl rfl, Or.inl rfl⟩
        · rw [List.splitOnP_append_cons_of_forall_mem hfirst u hu, List.mem_cons] at hmem
          rcases hmem with rfl | hmem
          · exact ⟨hfirst, [], u :: rest, by simp, Or.inl rfl, Or.inr ⟨u, rest, hu, rfl⟩⟩
          · obtain ⟨hpiece, left, right, rfl, hleft, hright⟩ :=
              ih rest.length (by simp; omega) rest hmem rfl
            refine ⟨hpiece, first ++ u :: left, right, by simp, Or.inr ?_, hright⟩
            rcases hleft with rfl | ⟨before, v, hv, rfl⟩
            · exact ⟨first, u, hu, rfl⟩
            · exact ⟨first ++ u :: before, v, hv, by simp⟩
  · rintro ⟨hpiece, left, right, rfl, hleft, hright⟩
    have hpieces : piece ∈ (piece ++ right).splitOnP p := by
      rcases hright with rfl | ⟨u, rest, hu, rfl⟩
      · rw [List.append_nil, List.splitOnP_eq_singleton hpiece]
        exact List.mem_singleton_self piece
      · rw [List.splitOnP_append_cons_of_forall_mem hpiece u hu]
        exact List.mem_cons_self
    rcases hleft with rfl | ⟨before, u, hu, rfl⟩
    · exact hpieces
    · rw [List.append_assoc, List.append_assoc, List.singleton_append,
        List.splitOnP_append_cons _ _ hu]
      exact List.mem_append_right _ hpieces

end Pieces

/-! ### Class names -/

/-- The unit is white space. -/
def isSpaceUnit (u : Nat) : Bool :=
  spaceUnits.contains u

/-- The class names of an attribute: what stands between its spaces. -/
def classNames (classes : List Nat) : List (List Nat) :=
  (classes.splitOnP isSpaceUnit).filter fun name => !name.isEmpty

/-- A start or a space. -/
def opens : Regex :=
  (Regex.empty.seq .start).alt (Regex.empty.seq .space)

/-- A space or the end. -/
def closes : Regex :=
  (Regex.empty.seq .space).alt (Regex.empty.seq .finish)

theorem matches_opens_iff
    (before units after : List Nat) :
    opens.Matches before units after ↔
      before = [] ∧ units = [] ∨ ∃ u ∈ spaceUnits, units = [u] :=
  or_congr (matches_empty_seq _ _ _ _) (matches_empty_seq _ _ _ _)

theorem matches_closes_iff
    (before units after : List Nat) :
    closes.Matches before units after ↔
      (∃ u ∈ spaceUnits, units = [u]) ∨ units = [] ∧ after = [] :=
  or_congr (matches_empty_seq _ _ _ _) (matches_empty_seq _ _ _ _)

theorem read_class
    (s : String) :
    read ("(^|\\s)" ++ escapeRegex s ++ "(\\s|$)") = some (around opens s closes) := by
  have htext :
      ("(^|\\s)" ++ escapeRegex s ++ "(\\s|$)").toList =
        '(' :: '^' :: '|' :: '\\' :: 's' :: ')' ::
          (s.toList.flatMap escapeRegexChar ++ ['(', '\\', 's', '|', '$', ')']) := by
    simp [toList_escapeRegex]
  have htokens :
      tokens ("(^|\\s)" ++ escapeRegex s ++ "(\\s|$)").toList =
        some (.opening :: .start :: .bar :: .space :: .closing ::
          (s.toList.map .char ++ [.opening, .space, .bar, .finish, .closing])) := by
    have hopening : plain? '(' = some .opening := rfl
    have hstart : plain? '^' = some .start := rfl
    have hbar : plain? '|' = some .bar := rfl
    have hspace : escaped? 's' = some .space := rfl
    have hclosing : plain? ')' = some .closing := rfl
    rw [htext, tokens_plain hopening, tokens_plain hstart, tokens_plain hbar,
      tokens_escaped hspace, tokens_plain hclosing, tokens_escaped_text]
    rfl
  rw [read, htokens]
  simp only [Option.bind_some, parse]
  rw [parse_chars]
  simp only [parse, Branch.push, Branch.regex, Branch.settled, earlier_pushUnits]
  exact congrArg (fun regex => some (regex.seq closes)) (settled_pushUnits _ _)

/-- The pattern is found where the text stands between spaces or the ends. -/
theorem found_class_iff
    (s : String)
    (classes : List Nat) :
    (around opens s closes).Found classes ↔
      ∃ left right, classes = left ++ Text.utf16 s ++ right ∧
        EndsApart isSpaceUnit left ∧ BeginsApart isSpaceUnit right := by
  have hspace (u : Nat) : isSpaceUnit u = true ↔ u ∈ spaceUnits := List.contains_iff_mem
  constructor
  · rintro ⟨before, _, after, rfl, hmatches⟩
    obtain ⟨left, right, rfl, hleft, hright⟩ := (matches_around_iff _ _ _ _ _ _).mp hmatches
    refine ⟨before ++ left, right ++ after, by simp, ?_, ?_⟩
    · rcases (matches_opens_iff _ _ _).mp hleft with ⟨rfl, rfl⟩ | ⟨u, hu, rfl⟩
      · exact Or.inl rfl
      · exact Or.inr ⟨before, u, (hspace u).mpr hu, rfl⟩
    · rcases (matches_closes_iff _ _ _).mp hright with ⟨u, hu, rfl⟩ | ⟨rfl, rfl⟩
      · exact Or.inr ⟨u, after, (hspace u).mpr hu, rfl⟩
      · exact Or.inl rfl
  · rintro ⟨left, right, rfl, hleft, hright⟩
    obtain ⟨before, start, rfl, hopens⟩ :
        ∃ before start, left = before ++ start ∧
          (before = [] ∧ start = [] ∨ ∃ u ∈ spaceUnits, start = [u]) := by
      rcases hleft with rfl | ⟨before, u, hu, rfl⟩
      · exact ⟨[], [], rfl, Or.inl ⟨rfl, rfl⟩⟩
      · exact ⟨before, [u], rfl, Or.inr ⟨u, (hspace u).mp hu, rfl⟩⟩
    obtain ⟨finish, after, rfl, hcloses⟩ :
        ∃ finish after, right = finish ++ after ∧
          ((∃ u ∈ spaceUnits, finish = [u]) ∨ finish = [] ∧ after = []) := by
      rcases hright with rfl | ⟨u, after, hu, rfl⟩
      · exact ⟨[], [], rfl, Or.inr ⟨rfl, rfl⟩⟩
      · exact ⟨[u], after, rfl, Or.inl ⟨u, (hspace u).mp hu, rfl⟩⟩
    refine ⟨before, start ++ Text.utf16 s ++ finish, after, by simp, ?_⟩
    refine (matches_around_iff _ _ _ _ _ _).mpr ⟨start, finish, rfl, ?_, ?_⟩
    · exact (matches_opens_iff _ _ _).mpr hopens
    · exact (matches_closes_iff _ _ _).mpr hcloses

/-- A name without spaces is found exactly if it is one of the names. -/
theorem found_class_iff_mem
    {s : String}
    (hne : s ≠ "")
    (hspaces : ∀ u ∈ Text.utf16 s, u ∉ spaceUnits)
    (classes : List Nat) :
    (around opens s closes).Found classes ↔ Text.utf16 s ∈ classNames classes := by
  have hapart : ∀ u ∈ Text.utf16 s, isSpaceUnit u = false := by
    intro u hmem
    rw [Bool.eq_false_iff, ne_eq, isSpaceUnit, List.contains_iff_mem]
    exact hspaces u hmem
  have hunits : (!(Text.utf16 s).isEmpty) = true := by
    rw [Bool.not_eq_true', List.isEmpty_eq_false_iff, Text.utf16, ne_eq,
      Text.charUnits_eq_nil_iff, String.toList_eq_nil_iff]
    exact hne
  rw [found_class_iff, classNames, List.mem_filter, mem_splitOnP_iff]
  constructor
  · intro hplace
    exact ⟨⟨hapart, hplace⟩, hunits⟩
  · rintro ⟨⟨-, hplace⟩, -⟩
    exact hplace

end Regex
end Script

namespace Lowering

open Script (Regex)
open Literal (escapeRegex)

/-- The pattern of a condition that the page's address or title holds a text, as a whole
statement. -/
theorem pageAssertion_partial
    (matcher subject text : String)
    (extra : List Value)
    {negation key : String}
    (hnegation : negation ∈ ["", "not."])
    (hkey : key ∈ partialKeys) :
    (pageAssertion matcher subject (negation ++ key) (.string text :: extra)).result =
      .ok (some ("expect(page)." ++ negation ++ matcher ++
        "(/" ++ (".*" ++ escapeRegex text ++ ".*") ++ "/)")) := by
  have hopening (rest : String) : "(" ++ ("/.*" ++ rest) = "(/" ++ (".*" ++ rest) := by
    rw [← String.append_assoc, ← String.append_assoc]
    rfl
  simp only [partialKeys, List.mem_cons, List.not_mem_nil, or_false] at hnegation hkey
  rcases hnegation with rfl | rfl <;> rcases hkey with rfl | rfl | rfl <;>
    simp [pageAssertion, Text.stripStart, String.append_assoc, hopening]

theorem classPattern_string
    (name command : String)
    (rest : List Value) :
    Rule.classPattern (.string name :: rest) command =
      .ok ("/" ++ ("(^|\\s)" ++ escapeRegex name ++ "(\\s|$)") ++ "/") := by
  have hopening : "/(^|\\s)" = "/" ++ "(^|\\s)" := rfl
  have hclosing : "(\\s|$)/" = "(\\s|$)" ++ "/" := rfl
  simp only [Rule.classPattern, Rule.required, List.getElem?_cons_zero, Except.bind, bind]
  rw [hopening, hclosing]
  simp only [String.append_assoc]

/-- An escaped text is read as its own characters, and no slash ends the literal that it stands
in. The pattern of a condition on the address or title is found in exactly the subjects that
hold the text, and on one line it matches all of the subject; the pattern of a condition on a
class is found in exactly the attributes that name the class. -/
theorem assertion_patterns_exact :
    (∀ s : String,
      Regex.read (escapeRegex s) = some (Regex.literal s) ∧
      Literal.isPlainBody '/' false (escapeRegex s).toList = true) ∧
    (∀ (matcher subject s : String) (extra : List Value) (negation key : String),
      negation ∈ ["", "not."] →
      key ∈ partialKeys →
      ∃ pattern regex,
        (pageAssertion matcher subject (negation ++ key) (.string s :: extra)).result =
          .ok (some ("expect(page)." ++ negation ++ matcher ++ "(/" ++ pattern ++ "/)")) ∧
        pattern = ".*" ++ escapeRegex s ++ ".*" ∧
        Regex.read pattern = some regex ∧
        ∀ page : List Nat,
          (regex.Found page ↔ Text.utf16 s <:+: page) ∧
          ((∀ u ∈ page, u ∉ Script.lineTerminatorUnits) →
            (regex.Matches [] page [] ↔ Text.utf16 s <:+: page))) ∧
    (∀ (command name : String) (rest : List Value),
      name ≠ "" →
      (∀ u ∈ Text.utf16 name, u ∉ Script.spaceUnits) →
      ∃ pattern regex,
        Rule.classPattern (.string name :: rest) command = .ok ("/" ++ pattern ++ "/") ∧
        pattern = "(^|\\s)" ++ escapeRegex name ++ "(\\s|$)" ∧
        Regex.read pattern = some regex ∧
        ∀ classes : List Nat,
          regex.Found classes ↔ Text.utf16 name ∈ Regex.classNames classes) := by
  refine ⟨?_, ?_, ?_⟩
  · intro s
    refine ⟨Regex.read_escapeRegex s, ?_⟩
    rw [Regex.toList_escapeRegex]
    exact Regex.isPlainBody_escaped s.toList
  · intro matcher subject s extra negation key hnegation hkey
    refine ⟨_, Regex.within s, pageAssertion_partial matcher subject s extra hnegation hkey, rfl,
      Regex.read_within s, fun page => ⟨Regex.found_within_iff s page, fun hline => ?_⟩⟩
    exact Regex.matches_line_iff s hline
  · intro command name rest hne hspaces
    exact ⟨_, _, classPattern_string name command rest, rfl, Regex.read_class name,
      Regex.found_class_iff_mem hne hspaces⟩

/-- A dot in an address is no sign of the pattern, and one in a class name neither. -/
theorem assertion_patterns_exact_dot :
    (∃ regex,
      Regex.read ".*\\/a\\.b.*" = some regex ∧
      (pageAssertion "toHaveURL" "URL" "not.include" [.string "/a.b"]).result =
        .ok (some "expect(page).not.toHaveURL(/.*\\/a\\.b.*/)") ∧
      regex.Found (Text.utf16 "x/a.b") ∧
      ¬ regex.Found (Text.utf16 "x/a-b")) ∧
    (∃ regex,
      Rule.classPattern [.string "a.b"] "have.class" = .ok "/(^|\\s)a\\.b(\\s|$)/" ∧
      Regex.read "(^|\\s)a\\.b(\\s|$)" = some regex ∧
      regex.Found (Text.utf16 "c a.b") ∧
      ¬ regex.Found (Text.utf16 "c a.bc")) := by
  obtain ⟨-, hpage, hclass⟩ := assertion_patterns_exact
  constructor
  · obtain ⟨_, regex, hresult, rfl, hread, hfound⟩ :=
      hpage "toHaveURL" "URL" "/a.b" [] "not." "include" (by decide) (by decide)
    refine ⟨regex, hread, hresult, (hfound _).1.mpr (by decide), ?_⟩
    rw [(hfound _).1]
    decide
  · obtain ⟨_, regex, hresult, rfl, hread, hfound⟩ :=
      hclass "have.class" "a.b" [] (by decide) (by decide)
    refine ⟨regex, hresult, hread, (hfound _).mpr (by decide), ?_⟩
    rw [hfound]
    decide

end Lowering
end SuiteShift
