import SuiteShift.Proofs.Script.StringLiteral
import Mathlib.Data.List.Infix

/-!
# Patterns of scripts

The part of the pattern language that generated code uses: characters, the dot, `\s`, the two
anchors, groups, alternatives and the star. A pattern is matched against a sequence of UTF-16
code units, as every text of a script is one; no flag is set, so a character beyond the first
plane is its two units in a row.

- `Regex.Matches`: what a pattern matches, between what stands before it and what stands after.
- `Regex.Found`: the pattern matches somewhere in a text, which is how a text is tested.
- `Regex.tokens`, `Regex.parse`: a pattern is read from its text in two steps. A backslash before
  a character of the syntax, or before a slash, is that character; any other character outside
  the syntax is itself.
- `matches_sequence`: a row of characters matches exactly its units.
-/

namespace SuiteShift
namespace Script

/-- The code units of line terminators. -/
def lineTerminatorUnits : List Nat :=
  lineTerminators.map Char.toNat

/-- The code units that `\s` stands for: white space and line terminators. -/
def spaceUnits : List Nat :=
  [9, 10, 11, 12, 13, 32, 160, 5760, 8192, 8193, 8194, 8195, 8196, 8197, 8198, 8199, 8200, 8201,
   8202, 8232, 8233, 8239, 8287, 12288, 65279]

/-- A pattern. -/
inductive Regex where
  | empty
  | unit (u : Nat)
  /-- A dot: any unit that does not end a line. -/
  | any
  | space
  /-- The start of the subject. -/
  | start
  /-- The end of the subject. -/
  | finish
  | seq (first second : Regex)
  | alt (first second : Regex)
  | star (body : Regex)
deriving DecidableEq, Repr

namespace Regex

/-! ### Matching -/

/-- Any number of matches in a row. -/
inductive Repeats (body : List Nat → List Nat → List Nat → Prop) :
    List Nat → List Nat → List Nat → Prop
  | none {before after : List Nat} :
      Repeats body before [] after
  | more {before first rest after : List Nat} :
      body before first (rest ++ after) →
      Repeats body (before ++ first) rest after →
      Repeats body before (first ++ rest) after

/-- The pattern matches the units between what stands before them and after them. -/
def Matches : Regex → List Nat → List Nat → List Nat → Prop
  | .empty, _, units, _ => units = []
  | .unit u, _, units, _ => units = [u]
  | .any, _, units, _ => ∃ u, u ∉ lineTerminatorUnits ∧ units = [u]
  | .space, _, units, _ => ∃ u ∈ spaceUnits, units = [u]
  | .start, before, units, _ => before = [] ∧ units = []
  | .finish, _, units, after => units = [] ∧ after = []
  | .seq first second, before, units, after =>
    ∃ left right, units = left ++ right ∧
      first.Matches before left (right ++ after) ∧ second.Matches (before ++ left) right after
  | .alt first second, before, units, after =>
    first.Matches before units after ∨ second.Matches before units after
  | .star body, before, units, after => Repeats body.Matches before units after

/-- The pattern matches somewhere in the subject. -/
def Found (regex : Regex) (subject : List Nat) : Prop :=
  ∃ before units after, subject = before ++ units ++ after ∧ regex.Matches before units after

/-! ### Reading -/

/-- The characters that a pattern is built with. -/
def syntaxCharacters : List Char :=
  ['^', '$', '\\', '.', '*', '+', '?', '(', ')', '[', ']', '\x7b', '\x7d', '|']

/-- The signs of a pattern. -/
inductive Token where
  | char (c : Char)
  | any
  | space
  | start
  | finish
  | bar
  | opening
  | closing
  | star
deriving DecidableEq, Repr

/-- The sign of a character without a backslash; none for bounds, classes and the other
quantifiers. -/
def plain? (c : Char) : Option Token :=
  if c == '.' then some .any
  else if c == '^' then some .start
  else if c == '$' then some .finish
  else if c == '|' then some .bar
  else if c == '(' then some .opening
  else if c == ')' then some .closing
  else if c == '*' then some .star
  else if syntaxCharacters.contains c then none
  else some (.char c)

/-- The sign of a character after a backslash; none for the escapes of letters and digits other
than white space. -/
def escaped? (c : Char) : Option Token :=
  if c == 's' then some .space
  else if syntaxCharacters.contains c || c == '/' then some (.char c)
  else none

/-- The signs of a pattern's text. -/
def tokens : List Char → Option (List Token)
  | [] => some []
  | [c] => (plain? c).map fun token => [token]
  | c :: d :: cs =>
    if c == '\\' then (escaped? d).bind fun token => (tokens cs).map (token :: ·)
    else (plain? c).bind fun token => (tokens (d :: cs)).map (token :: ·)

/-- What has been read between two parentheses. -/
structure Branch where
  /-- The alternatives before the last bar. -/
  earlier : Option Regex
  sequence : Regex
  /-- The end of the sequence, which a star would repeat. -/
  last : Option Regex
deriving DecidableEq, Repr

namespace Branch

def empty : Branch :=
  ⟨none, .empty, none⟩

/-- The alternative that is being read. -/
def settled (branch : Branch) : Regex :=
  match branch.last with
  | some regex => branch.sequence.seq regex
  | none => branch.sequence

/-- All alternatives. -/
def regex (branch : Branch) : Regex :=
  match branch.earlier with
  | some earlier => earlier.alt branch.settled
  | none => branch.settled

/-- Adds something that can be repeated. -/
def push (branch : Branch) (atom : Regex) : Branch :=
  ⟨branch.earlier, branch.settled, some atom⟩

/-- Adds the units of a character, each on its own. -/
def pushUnits (branch : Branch) (units : List Nat) : Branch :=
  units.foldl (fun branch u => branch.push (.unit u)) branch

/-- Adds an anchor, which cannot be repeated. -/
def fix (branch : Branch) (anchor : Regex) : Branch :=
  ⟨branch.earlier, branch.settled.seq anchor, none⟩

/-- Repeats what was added last. -/
def repeat? (branch : Branch) : Option Branch :=
  branch.last.map fun atom => ⟨branch.earlier, branch.sequence.seq (.star atom), none⟩

/-- Begins another alternative. -/
def bar (branch : Branch) : Branch :=
  ⟨some branch.regex, .empty, none⟩

end Branch

/-- Reads signs inside the parentheses that are open. -/
def parse : Branch → List Branch → List Token → Option Regex
  | branch, [], [] => some branch.regex
  | _, _ :: _, [] => none
  | branch, outer, .char c :: rest =>
    parse (branch.pushUnits (Text.charUnits [c])) outer rest
  | branch, outer, .any :: rest => parse (branch.push .any) outer rest
  | branch, outer, .space :: rest => parse (branch.push .space) outer rest
  | branch, outer, .start :: rest => parse (branch.fix .start) outer rest
  | branch, outer, .finish :: rest => parse (branch.fix .finish) outer rest
  | branch, outer, .star :: rest =>
    match branch.repeat? with
    | some repeated => parse repeated outer rest
    | none => none
  | branch, outer, .bar :: rest => parse branch.bar outer rest
  | branch, outer, .opening :: rest => parse .empty (branch :: outer) rest
  | _, [], .closing :: _ => none
  | branch, outside :: outer, .closing :: rest =>
    parse (outside.push branch.regex) outer rest

/-- The pattern that a text stands for. -/
def read (pattern : String) : Option Regex :=
  (tokens pattern.toList).bind (parse .empty [])

/-! ### Rows of characters -/

/-- A pattern and then these units. -/
def sequence (regex : Regex) (units : List Nat) : Regex :=
  units.foldl (fun regex u => regex.seq (.unit u)) regex

/-- The characters of a text, one after the other. -/
def literal (s : String) : Regex :=
  sequence .empty (Text.utf16 s)

theorem matches_empty_seq
    (regex : Regex)
    (before units after : List Nat) :
    (Regex.empty.seq regex).Matches before units after ↔
      regex.Matches before units after := by
  constructor
  · rintro ⟨left, right, rfl, rfl, hmatches⟩
    rwa [List.append_nil] at hmatches
  · intro hmatches
    exact ⟨[], units, rfl, rfl, by rwa [List.append_nil]⟩

/-- A row of units matches itself and nothing else. -/
theorem matches_sequence
    (regex : Regex)
    (row before units after : List Nat) :
    (regex.sequence row).Matches before units after ↔
      ∃ left, units = left ++ row ∧ regex.Matches before left (row ++ after) := by
  induction row generalizing regex with
  | nil =>
      simp [sequence]
  | cons u row ih =>
      have hstep : regex.sequence (u :: row) = (regex.seq (.unit u)).sequence row := rfl
      rw [hstep, ih]
      constructor
      · rintro ⟨_, rfl, left, _, rfl, hmatches, rfl⟩
        exact ⟨left, by simp, hmatches⟩
      · rintro ⟨left, rfl, hmatches⟩
        exact ⟨left ++ [u], by simp, left, [u], rfl, hmatches, rfl⟩

/-- Dots match any units of one line. -/
theorem repeats_any
    {units : List Nat}
    (hline : ∀ u ∈ units, u ∉ lineTerminatorUnits)
    (before after : List Nat) :
    (Regex.star .any).Matches before units after := by
  induction units generalizing before with
  | nil =>
      exact .none
  | cons u units ih =>
      have hfirst : Regex.any.Matches before [u] (units ++ after) :=
        ⟨u, hline u List.mem_cons_self, rfl⟩
      have hrest := ih (fun v hmem => hline v (List.mem_cons_of_mem u hmem)) (before ++ [u])
      exact .more hfirst hrest

/-! ### Reading on an append -/

theorem tokens_escaped
    {c : Char}
    {token : Token}
    (hescaped : escaped? c = some token)
    (cs : List Char) :
    tokens ('\\' :: c :: cs) = (tokens cs).map (token :: ·) := by
  simp [tokens, hescaped]

theorem tokens_plain
    {c : Char}
    {token : Token}
    (hplain : plain? c = some token)
    (cs : List Char) :
    tokens (c :: cs) = (tokens cs).map (token :: ·) := by
  have hbackslash : (c == '\\') = false := by
    rw [beq_eq_false_iff_ne]
    rintro rfl
    cases hplain
  cases cs with
  | nil =>
      simp [tokens, hplain]
  | cons d cs =>
      simp [tokens, hplain, hbackslash]

theorem settled_pushUnits
    (branch : Branch)
    (units : List Nat) :
    (branch.pushUnits units).settled = branch.settled.sequence units := by
  induction units generalizing branch with
  | nil =>
      rfl
  | cons u units ih =>
      exact ih (branch.push (.unit u))

theorem earlier_pushUnits
    (branch : Branch)
    (units : List Nat) :
    (branch.pushUnits units).earlier = branch.earlier := by
  induction units generalizing branch with
  | nil =>
      rfl
  | cons u units ih =>
      exact ih (branch.push (.unit u))

/-- Characters are read one after the other. -/
theorem parse_chars
    (branch : Branch)
    (outer : List Branch)
    (cs : List Char)
    (rest : List Token) :
    parse branch outer (cs.map .char ++ rest) =
      parse (branch.pushUnits (Text.charUnits cs)) outer rest := by
  induction cs generalizing branch with
  | nil =>
      rfl
  | cons c cs ih =>
      have hunits : Text.charUnits (c :: cs) = Text.charUnits [c] ++ Text.charUnits cs :=
        Text.charUnits_append [c] cs
      rw [List.map_cons, List.cons_append, parse, ih, hunits, Branch.pushUnits,
        Branch.pushUnits, Branch.pushUnits, List.foldl_append]

end Regex
end Script
end SuiteShift
