import SuiteShift.Literal.Nesting
import SuiteShift.Proofs.Text.Blank

/-!
# Well nested text

A scan through text that closes what it opens, and nothing else, comes back to where it began.

- `Nesting.run`: the state after a text.
- `Nesting.strayFree`, `Nesting.commaFree`: no closing bracket without an opener, and no comma
  outside of all nesting; both can be read off a text piece by piece.
- `Nesting.within`: a state inside some brackets; `step_within`: a character that is no stray
  closing bracket moves it as it moves the state outside of all brackets.
- `parenthesized?_of_wellNested`: a parenthesis is closed after well nested text.
- `IsSegment`, `splitTop_segments`: a text is cut at the commas outside of all nesting and nowhere else.
- `argumentChars_join_commas`, `argumentChars_join`: joined arguments are found again.
- `isPlain`: characters without a meaning to the scan; text of them is one argument.
-/

namespace SuiteShift
namespace Literal

namespace Nesting

/-- The state after a text. -/
def run (n : Nesting) (cs : List Char) : Nesting :=
  cs.foldl step n

@[simp] theorem run_nil
    (n : Nesting) :
    n.run [] = n := by
  rfl

@[simp] theorem run_cons
    (n : Nesting)
    (c : Char)
    (cs : List Char) :
    n.run (c :: cs) = (n.step c).run cs := by
  rfl

@[simp] theorem run_append
    (n : Nesting)
    (cs ds : List Char) :
    n.run (cs ++ ds) = (n.run cs).run ds := by
  exact List.foldl_append

/-- The character closes brackets of a kind of which none are open. -/
def isStray (n : Nesting) (c : Char) : Bool :=
  n.quote.isNone &&
    (c == '\x7d' && n.braces == 0 || c == ']' && n.brackets == 0 || c == ')' && n.parens == 0)

/-- No closing bracket is met without an opener. -/
def strayFree (n : Nesting) : List Char → Bool
  | [] => true
  | c :: cs => !n.isStray c && strayFree (n.step c) cs

/-- No comma is met outside of all nesting. -/
def commaFree (n : Nesting) : List Char → Bool
  | [] => true
  | c :: cs => !(c == ',' && n.isTop) && commaFree (n.step c) cs

@[simp] theorem strayFree_append
    (n : Nesting)
    (cs ds : List Char) :
    n.strayFree (cs ++ ds) = (n.strayFree cs && (n.run cs).strayFree ds) := by
  induction cs generalizing n with
  | nil =>
      rfl
  | cons c cs ih =>
      simp [strayFree, ih, Bool.and_assoc]

@[simp] theorem commaFree_append
    (n : Nesting)
    (cs ds : List Char) :
    n.commaFree (cs ++ ds) = (n.commaFree cs && (n.run cs).commaFree ds) := by
  induction cs generalizing n with
  | nil =>
      rfl
  | cons c cs ih =>
      simp [commaFree, ih, Bool.and_assoc]

/-! ### Coming back -/

/-- Only inside a literal can a character be escaped. -/
def Sound (n : Nesting) : Prop :=
  n.quote = none → n.escaped = false

theorem Sound.step
    {n : Nesting}
    (h : n.Sound)
    (c : Char) :
    (n.step c).Sound := by
  unfold Nesting.step Sound
  cases hquote : n.quote with
  | some q =>
      have hopen : n.quote ≠ none := by
        simp [hquote]
      dsimp only
      split_ifs with hescaped
      · exact fun _ => rfl
      · exact fun hnone => hnone
      · exact fun _ => Bool.eq_false_iff.mpr hescaped
      · exact fun hnone => absurd hnone hopen
  | none =>
      have hescaped := h hquote
      dsimp only
      split_ifs <;> exact fun _ => hescaped

theorem Sound.run
    {n : Nesting}
    (h : n.Sound)
    (cs : List Char) :
    (n.run cs).Sound := by
  induction cs generalizing n with
  | nil =>
      exact h
  | cons c cs ih =>
      exact ih (h.step c)

/-- A scan that ends outside of all nesting is back where it began. -/
theorem run_eq_start
    {cs : List Char}
    (h : (run {} cs).isTop = true) :
    run {} cs = {} := by
  have hsound : (run {} cs).Sound := Sound.run (fun _ => rfl) cs
  generalize run {} cs = n at h hsound
  obtain ⟨quote, escaped, braces, brackets, parens⟩ := n
  simp only [isTop, Bool.and_eq_true, Option.isNone_iff_eq_none, beq_iff_eq] at h
  obtain ⟨⟨⟨rfl, rfl⟩, rfl⟩, rfl⟩ := h
  have hescaped : escaped = false := hsound rfl
  rw [hescaped]

/-! ### Inside of brackets -/

/-- The state inside brackets that are open already. -/
def within (outer n : Nesting) : Nesting :=
  { n with
    braces := outer.braces + n.braces
    brackets := outer.brackets + n.brackets
    parens := outer.parens + n.parens }

theorem step_within
    {n : Nesting}
    {c : Char}
    (outer : Nesting)
    (h : n.isStray c = false) :
    (within outer n).step c = within outer (n.step c) := by
  obtain ⟨quote, escaped, braces, brackets, parens⟩ := n
  cases quote with
  | some q =>
      cases escaped with
      | true =>
          simp [step, within]
      | false =>
          by_cases hback : c = '\\'
          · simp [step, within, hback]
          · by_cases hquote : c = q
            · subst hquote
              simp [step, within, hback]
            · simp [step, within, hback, hquote]
  | none =>
      simp only [isStray, Option.isNone_none, Bool.true_and, Bool.or_eq_false_iff,
        Bool.and_eq_false_imp, beq_iff_eq, beq_eq_false_iff_ne] at h
      obtain ⟨⟨hbrace, hbracket⟩, hparen⟩ := h
      by_cases hdelimiter : isDelimiter c = true
      · simp [step, within, hdelimiter]
      -- An opener adds one on both sides; a closer takes one away, since there is one to take.
      have hclose : ∀ base {depth : Nat}, depth ≠ 0 → base + depth - 1 = base + (depth - 1) := by
        intro base depth hdepth
        omega
      simp only [step, hdelimiter, within, Bool.false_eq_true, if_false]
      split_ifs with _ hcloseBrace _ hcloseBracket _ hcloseParen
      · rfl
      · rw [hclose _ (hbrace (beq_iff_eq.mp hcloseBrace))]
      · rfl
      · rw [hclose _ (hbracket (beq_iff_eq.mp hcloseBracket))]
      · rfl
      · rw [hclose _ (hparen (beq_iff_eq.mp hcloseParen))]
      · rfl

end Nesting

/-! ### Parentheses -/

/-- The text closes what it opens and nothing else. -/
structure WellNested (cs : List Char) : Prop where
  strayFree : Nesting.strayFree {} cs = true
  closed : (Nesting.run {} cs).isTop = true

/-- Inside a parenthesis, text without stray closing brackets does not close it. -/
theorem splitClosing_append
    {n : Nesting}
    {cs : List Char}
    (h : n.strayFree cs = true)
    {outer : Nesting}
    (houter : 0 < outer.parens)
    (rest : List Char) :
    splitClosing (.within outer n) (cs ++ rest) =
      (splitClosing (.within outer (n.run cs)) rest).map fun parts => (cs ++ parts.1, parts.2) := by
  induction cs generalizing n with
  | nil =>
      simp
  | cons c cs ih =>
      simp only [Nesting.strayFree, Bool.and_eq_true, Bool.not_eq_true'] at h
      have hdeep : (Nesting.within outer (n.step c)).isTop = false := by
        have hparens : (outer.parens + (n.step c).parens == 0) = false := by
          rw [beq_eq_false_iff_ne]
          omega
        rw [Nesting.isTop, Nesting.within, hparens, Bool.and_false]
      rw [List.cons_append, splitClosing, Nesting.step_within outer h.1, hdeep, ih h.2]
      simp [Function.comp_def]

/-- A parenthesis is closed after well nested text. -/
theorem parenthesized?_of_wellNested
    {cs : List Char}
    (h : WellNested cs)
    (rest : List Char) :
    parenthesized? ('(' :: cs ++ ')' :: rest) = some (cs, rest) := by
  have hopen : Nesting.step {} '(' = .within { parens := 1 } {} := by
    decide
  have hclose : splitClosing (.within { parens := 1 } {}) (')' :: rest) = some ([], rest) := by
    rfl
  rw [List.cons_append, parenthesized?, hopen, splitClosing_append h.strayFree (by decide),
    Nesting.run_eq_start h.closed, hclose]
  simp

/-! ### Arguments -/

theorem splitTop_cons_of_comma
    {n : Nesting}
    (h : n.isTop = true)
    (cs : List Char) :
    splitTop n (',' :: cs) = [] :: splitTop n cs := by
  simp [splitTop, h]

/-- Puts text before the first piece. -/
def prependPiece (cs : List Char) : List (List Char) → List (List Char)
  | [] => [cs]
  | piece :: pieces => (cs ++ piece) :: pieces

theorem splitTop_ne_nil
    (n : Nesting)
    (cs : List Char) :
    splitTop n cs ≠ [] := by
  cases cs with
  | nil =>
      simp [splitTop]
  | cons c cs =>
      unfold splitTop
      split_ifs
      · simp
      · split <;> simp

/-- Text without a comma outside of all nesting belongs to one piece. -/
theorem splitTop_append
    {n : Nesting}
    {cs : List Char}
    (h : n.commaFree cs = true)
    (rest : List Char) :
    splitTop n (cs ++ rest) = prependPiece cs (splitTop (n.run cs) rest) := by
  induction cs generalizing n with
  | nil =>
      obtain ⟨piece, pieces, hsplit⟩ := List.exists_cons_of_ne_nil (splitTop_ne_nil n rest)
      simp [prependPiece, hsplit]
  | cons c cs ih =>
      simp only [Nesting.commaFree, Bool.and_eq_true, Bool.not_eq_true'] at h
      obtain ⟨piece, pieces, hsplit⟩ :=
        List.exists_cons_of_ne_nil (splitTop_ne_nil ((n.step c).run cs) rest)
      rw [List.cons_append, splitTop, h.1, ih h.2, Nesting.run_cons, hsplit]
      simp [prependPiece]

theorem splitTop_of_commaFree
    {n : Nesting}
    {cs : List Char}
    (h : n.commaFree cs = true) :
    splitTop n cs = [cs] := by
  have hsplit := splitTop_append h []
  rw [List.append_nil] at hsplit
  rw [hsplit, splitTop, prependPiece, List.append_nil]

/-- A text that a comma can end: the scan is back where it began, and met no other comma there. -/
structure IsSegment (cs : List Char) : Prop where
  commaFree : Nesting.commaFree {} cs = true
  closed : (Nesting.run {} cs).isTop = true

namespace IsSegment

theorem back
    {cs : List Char}
    (h : IsSegment cs) :
    Nesting.run {} cs = {} := by
  exact Nesting.run_eq_start h.closed

theorem spaced
    {cs : List Char}
    (h : IsSegment cs) :
    IsSegment (' ' :: cs) := by
  exact ⟨h.commaFree, h.closed⟩

/-- The comma after a segment ends its piece. -/
theorem splitTop_append_comma
    {cs : List Char}
    (h : IsSegment cs)
    (rest : List Char) :
    splitTop {} (cs ++ ',' :: rest) = cs :: splitTop {} rest := by
  rw [splitTop_append h.commaFree, h.back, splitTop_cons_of_comma rfl, prependPiece,
    List.append_nil]

end IsSegment

/-- Segments with commas after them are found again. -/
theorem splitTop_segments
    {pieces : List (List Char)}
    (h : ∀ piece ∈ pieces, IsSegment piece)
    (cs : List Char) :
    splitTop {} (pieces.flatMap (· ++ [',']) ++ cs) = pieces ++ splitTop {} cs := by
  induction pieces with
  | nil =>
      rfl
  | cons piece pieces ih =>
      have hrest := ih fun other hother => h other (List.mem_cons_of_mem _ hother)
      rw [List.flatMap_cons, List.append_assoc, List.append_assoc, List.singleton_append,
        (h piece List.mem_cons_self).splitTop_append_comma, hrest, List.cons_append]

/-- Segments with commas between them are found again; the last one may leave something open. -/
theorem splitTop_join
    {front : List (List Char)}
    {last : List Char}
    (h : ∀ piece ∈ front, IsSegment piece)
    (hlast : Nesting.commaFree {} last = true) :
    splitTop {} (Text.joinChars [','] (front ++ [last])) = front ++ [last] := by
  rw [Text.joinChars_concat, splitTop_segments h, splitTop_of_commaFree hlast]

theorem trimPieces_concat
    (front : List (List Char))
    (last : List Char) :
    trimPieces (front ++ [last]) = front.map Text.trimChars ++ trimPieces [last] := by
  induction front with
  | nil =>
      rfl
  | cons piece front ih =>
      rw [List.map_cons, List.cons_append, List.cons_append, ← ih]
      cases front <;> rfl

/-- What the arguments are between commas: each segment is trimmed, and the last one does not count
if it is blank. -/
theorem argumentChars_join_commas
    {front : List (List Char)}
    {last : List Char}
    (h : ∀ piece ∈ front, IsSegment piece)
    (hlast : Nesting.commaFree {} last = true) :
    argumentChars (Text.joinChars [','] (front ++ [last])) =
      front.map Text.trimChars ++ trimPieces [last] := by
  rw [argumentChars, splitTop_join h hlast, trimPieces_concat]

/-- A space before the first argument is trimmed off. -/
theorem argumentChars_cons_space
    (cs : List Char) :
    argumentChars (' ' :: cs) = argumentChars cs := by
  have hspace := @splitTop_append {} [' '] rfl cs
  obtain ⟨piece, pieces, hsplit⟩ := List.exists_cons_of_ne_nil (splitTop_ne_nil {} cs)
  have hstart : Nesting.run {} [' '] = {} := by
    rfl
  rw [argumentChars, ← List.singleton_append, hspace, hstart, argumentChars, hsplit]
  cases pieces <;> rfl

/-- With a space before all, every piece has one after its comma. -/
theorem cons_space_joinChars
    {pieces : List (List Char)}
    (h : pieces ≠ []) :
    ' ' :: Text.joinChars [',', ' '] pieces = Text.joinChars [','] (pieces.map (' ' :: ·)) := by
  induction pieces with
  | nil =>
      exact absurd rfl h
  | cons first pieces ih =>
      cases pieces with
      | nil =>
          rfl
      | cons second rest =>
          have hrest := ih (by simp)
          rw [List.map_cons] at hrest
          rw [Text.joinChars_cons_cons, List.map_cons, List.map_cons, Text.joinChars_cons_cons,
            ← hrest]
          simp

/-- The same for arguments with a comma and a space between them. -/
theorem argumentChars_join_spaced
    {front : List (List Char)}
    {last : List Char}
    (h : ∀ piece ∈ front, IsSegment piece)
    (hlast : Nesting.commaFree {} last = true) :
    argumentChars (Text.joinChars [',', ' '] (front ++ [last])) =
      front.map Text.trimChars ++ trimPieces [last] := by
  have hspaced : ∀ piece ∈ front.map (' ' :: ·), IsSegment piece := by
    intro piece hpiece
    obtain ⟨bare, hbare, rfl⟩ := List.mem_map.mp hpiece
    exact (h bare hbare).spaced
  have hfree : Nesting.commaFree {} (' ' :: last) = true := hlast
  rw [← argumentChars_cons_space, cons_space_joinChars (by simp), List.map_append,
    List.map_singleton, argumentChars_join_commas hspaced hfree, List.map_map]
  rfl

/-- Joined segments without blanks at their ends are found again if the last one is not empty. -/
theorem argumentChars_join_trimmed
    {front : List (List Char)}
    {last : List Char}
    (hfront : ∀ piece ∈ front, IsSegment piece ∧ Text.trimChars piece = piece)
    (hfree : Nesting.commaFree {} last = true)
    (htrimmed : Text.trimChars last = last)
    (hne : last ≠ []) :
    argumentChars (Text.joinChars [',', ' '] (front ++ [last])) = front ++ [last] := by
  rw [argumentChars_join_spaced (fun piece hpiece => (hfront piece hpiece).1) hfree,
    List.map_congr_left fun piece hpiece => (hfront piece hpiece).2, List.map_id', trimPieces,
    htrimmed]
  simp [hne]

/-- A piece of text that is one argument: trimmed and not empty, with all its commas inside of
something that it closes. -/
structure IsArgument (cs : List Char) : Prop where
  nonempty : cs ≠ []
  trimmed : Text.trimChars cs = cs
  commaFree : Nesting.commaFree {} cs = true
  closed : (Nesting.run {} cs).isTop = true

theorem IsArgument.isSegment
    {cs : List Char}
    (h : IsArgument cs) :
    IsSegment cs := by
  exact ⟨h.commaFree, h.closed⟩

/-- Joined arguments are found again. -/
theorem argumentChars_join
    {args : List (List Char)}
    (h : ∀ arg ∈ args, IsArgument arg) :
    argumentChars (Text.joinChars [',', ' '] args) = args := by
  obtain rfl | ⟨front, last, rfl⟩ := List.eq_nil_or_concat args
  · rfl
  · rw [List.concat_eq_append] at h ⊢
    have hlast := h last (List.mem_append_right _ List.mem_cons_self)
    refine argumentChars_join_trimmed ?_ hlast.commaFree hlast.trimmed hlast.nonempty
    intro arg harg
    have harg := h arg (List.mem_append_left _ harg)
    exact ⟨harg.isSegment, harg.trimmed⟩

theorem WellNested.append
    {cs ds : List Char}
    (h : WellNested cs)
    (h' : WellNested ds) :
    WellNested (cs ++ ds) := by
  have hback := Nesting.run_eq_start h.closed
  refine ⟨?_, ?_⟩
  · rw [Nesting.strayFree_append, h.strayFree, hback, h'.strayFree]
    rfl
  · rw [Nesting.run_append, hback]
    exact h'.closed

theorem wellNested_joinChars
    {sep : List Char}
    (hsep : WellNested sep)
    {texts : List (List Char)}
    (h : ∀ text ∈ texts, WellNested text) :
    WellNested (Text.joinChars sep texts) := by
  induction texts with
  | nil =>
      exact ⟨rfl, rfl⟩
  | cons first texts ih =>
      have hfirst := h first List.mem_cons_self
      cases texts with
      | nil =>
          exact hfirst
      | cons second rest =>
          have hrest := ih fun text htext => h text (List.mem_cons_of_mem _ htext)
          rw [Text.joinChars_cons_cons]
          exact (hfirst.append hsep).append hrest

/-- Joined arguments are well nested if each of them is. -/
theorem wellNested_join
    {args : List (List Char)}
    (h : ∀ arg ∈ args, WellNested arg) :
    WellNested (Text.joinChars [',', ' '] args) := by
  exact wellNested_joinChars ⟨rfl, rfl⟩ h

/-! ### Plain text -/

/-- A character that opens, closes and separates nothing. -/
def isPlain (c : Char) : Bool :=
  !(isDelimiter c || c == '\x7b' || c == '\x7d' || c == '[' || c == ']' || c == '(' || c == ')' ||
    c == ',' || Text.isBlank c)

theorem scan_plain
    {cs : List Char}
    (h : ∀ c ∈ cs, isPlain c = true) :
    Nesting.run {} cs = {} ∧ Nesting.strayFree {} cs = true ∧ Nesting.commaFree {} cs = true := by
  induction cs with
  | nil =>
      exact ⟨rfl, rfl, rfl⟩
  | cons c cs ih =>
      obtain ⟨hrun, hstray, hcomma⟩ := ih fun d hd => h d (List.mem_cons_of_mem _ hd)
      have hc := h c List.mem_cons_self
      simp only [isPlain, Bool.not_eq_true', Bool.or_eq_false_iff, beq_eq_false_iff_ne] at hc
      have hstep : Nesting.step {} c = {} := by
        simp [Nesting.step, hc]
      refine ⟨?_, ?_, ?_⟩
      · rw [Nesting.run_cons, hstep, hrun]
      · simp [Nesting.strayFree, Nesting.isStray, hc, hstep, hstray]
      · simp [Nesting.commaFree, hc, hstep, hcomma]

theorem wellNested_plain
    {cs : List Char}
    (h : ∀ c ∈ cs, isPlain c = true) :
    WellNested cs := by
  obtain ⟨hrun, hstray, -⟩ := scan_plain h
  exact ⟨hstray, by rw [hrun]; rfl⟩

theorem isArgument_plain
    {cs : List Char}
    (hne : cs ≠ [])
    (h : ∀ c ∈ cs, isPlain c = true) :
    IsArgument cs := by
  obtain ⟨hrun, -, hcomma⟩ := scan_plain h
  have hblank : ∀ c ∈ cs, Text.isBlank c = false := by
    intro c hc
    have hplain := h c hc
    simp only [isPlain, Bool.not_eq_true', Bool.or_eq_false_iff] at hplain
    exact hplain.2
  refine ⟨hne, ?_, hcomma, by rw [hrun]; rfl⟩
  exact Text.trimChars_eq_self (fun c hc => hblank c (List.mem_of_mem_head? hc))
    fun c hc => hblank c (List.mem_of_mem_getLast? hc)

end Literal
end SuiteShift
