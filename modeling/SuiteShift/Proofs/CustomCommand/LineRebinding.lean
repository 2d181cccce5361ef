import SuiteShift.Proofs.CustomCommand.Rebinding
import Mathlib.Data.List.Induction
import Mathlib.Data.List.ReduceOption
import Mathlib.Data.List.TakeWhile

/-!
# Rebinding as an insertion

A line is code with literals in it. Rebinding the page puts a text before some places of the code
and leaves all else as it is.

- `CodeLine`: a line as code and literals. Every line is one in exactly one way,
  `exists_codeLine` and `CodeLine.eq_of_text`.
- `IsReceiverAt`: the places of a piece of code where the name of the page is a receiver.
- `CodeLine.edits`: the characters of a line, with a mark before each of these places.
- `rebindAfter_text`: rebinding writes the marks out.
- `rebindAfter_rebindAfter`: a line that was rebound has nothing left to rebind.
- `page_rebound_exactly`: all of it together.
-/

namespace SuiteShift
namespace CustomCommand

/-! ### Lines as code and literals -/

/-- What stands between the delimiters of a literal: characters, and characters after a
backslash. -/
inductive IsLiteralBody (delimiter : Char) : List Char → Prop
  | nil :
      IsLiteralBody delimiter []
  | char
      {c : Char}
      {cs : List Char}
      (hdelimiter : c ≠ delimiter)
      (hback : c ≠ '\\')
      (rest : IsLiteralBody delimiter cs) :
      IsLiteralBody delimiter (c :: cs)
  | escape
      (c : Char)
      {cs : List Char}
      (rest : IsLiteralBody delimiter cs) :
      IsLiteralBody delimiter ('\\' :: c :: cs)

/-- A text without literals. -/
def IsCode (cs : List Char) : Prop :=
  ∀ c ∈ cs, Literal.isDelimiter c = false

/-- The literal that begins before a text is not closed in it. -/
def IsUnclosed (delimiter : Char) (cs : List Char) : Prop :=
  ∀ body rest, IsLiteralBody delimiter body → cs ≠ body ++ delimiter :: rest

/-- A line: code up to its end or up to a literal. -/
inductive CodeLine where
  | code (text : List Char)
  /-- A literal that is not closed extends to the end of the line. -/
  | unclosed (before : List Char) (delimiter : Char) (body : List Char)
  | literal (before : List Char) (delimiter : Char) (body : List Char) (rest : CodeLine)

namespace CodeLine

/-- The line as it is written. -/
def text : CodeLine → List Char
  | code text => text
  | unclosed before delimiter body => before ++ delimiter :: body
  | literal before delimiter body rest => before ++ delimiter :: (body ++ delimiter :: rest.text)

/-- The literals of the line, with their delimiters. -/
def literals : CodeLine → List (List Char)
  | code _ => []
  | unclosed _ delimiter body => [delimiter :: body]
  | literal _ delimiter body rest => (delimiter :: body ++ [delimiter]) :: rest.literals

/-- Literals begin at the first delimiter and end at the next one that is not escaped. -/
def IsValid : CodeLine → Prop
  | code text => IsCode text
  | unclosed before delimiter body =>
    IsCode before ∧ Literal.isDelimiter delimiter = true ∧ IsUnclosed delimiter body
  | literal before delimiter body rest =>
    IsCode before ∧ Literal.isDelimiter delimiter = true ∧ IsLiteralBody delimiter body ∧
      rest.IsValid

end CodeLine

theorem ne_backslash_of_isDelimiter
    {c : Char}
    (h : Literal.isDelimiter c = true) :
    c ≠ '\\' := by
  rintro rfl
  cases h

/-- A literal ends at one place. -/
theorem IsLiteralBody.eq_of_append
    {delimiter : Char}
    (hdelimiter : Literal.isDelimiter delimiter = true)
    {body body' rest rest' : List Char}
    (h : IsLiteralBody delimiter body)
    (h' : IsLiteralBody delimiter body')
    (htext : body ++ delimiter :: rest = body' ++ delimiter :: rest') :
    body = body' ∧ rest = rest' := by
  have hback := ne_backslash_of_isDelimiter hdelimiter
  induction h generalizing body' with
  | nil =>
      cases h' with
      | nil =>
          exact ⟨rfl, (List.cons.inj htext).2⟩
      | char hne _ _ =>
          exact absurd (List.cons.inj htext).1.symm hne
      | escape c _ =>
          exact absurd (List.cons.inj htext).1 hback
  | char hne hplain _ ih =>
      cases h' with
      | nil =>
          exact absurd (List.cons.inj htext).1 hne
      | char _ _ body' =>
          obtain ⟨rfl, htail⟩ := List.cons.inj htext
          obtain ⟨rfl, rfl⟩ := ih body' htail
          exact ⟨rfl, rfl⟩
      | escape c _ =>
          exact absurd (List.cons.inj htext).1 hplain
  | escape c _ ih =>
      cases h' with
      | nil =>
          exact absurd (List.cons.inj htext).1.symm hback
      | char _ hplain _ =>
          exact absurd (List.cons.inj htext).1.symm hplain
      | escape d body' =>
          obtain ⟨rfl, htail⟩ := List.cons.inj (List.cons.inj htext).2
          obtain ⟨rfl, rfl⟩ := ih body' htail
          exact ⟨rfl, rfl⟩

/-- Code ends at one place. -/
theorem IsCode.eq_of_append
    {before before' rest rest' : List Char}
    {delimiter delimiter' : Char}
    (h : IsCode before)
    (h' : IsCode before')
    (hdelimiter : Literal.isDelimiter delimiter = true)
    (hdelimiter' : Literal.isDelimiter delimiter' = true)
    (htext : before ++ delimiter :: rest = before' ++ delimiter' :: rest') :
    before = before' ∧ delimiter = delimiter' ∧ rest = rest' := by
  have hread : ∀ {before : List Char} {delimiter : Char}, IsCode before →
      Literal.isDelimiter delimiter = true → ∀ rest,
      (before ++ delimiter :: rest).takeWhile (fun c => !Literal.isDelimiter c) = before := by
    intro before delimiter hcode hmark rest
    rw [List.takeWhile_append_of_pos fun c hc => by rw [hcode c hc]; rfl,
      List.takeWhile_cons_of_neg (by simp [hmark]), List.append_nil]
  have hbefore := hread h hdelimiter rest
  rw [htext, hread h' hdelimiter'] at hbefore
  subst hbefore
  obtain ⟨rfl, rfl⟩ := List.cons.inj (List.append_cancel_left htext)
  exact ⟨rfl, rfl, rfl⟩

theorem IsCode.ne_append
    {cs before rest : List Char}
    {delimiter : Char}
    (h : IsCode cs)
    (hdelimiter : Literal.isDelimiter delimiter = true) :
    cs ≠ before ++ delimiter :: rest := by
  rintro rfl
  have hmark := h delimiter (by simp)
  rw [hdelimiter] at hmark
  cases hmark

/-- Every line is code and literals. -/
theorem exists_codeLine
    (cs : List Char) :
    ∃ line : CodeLine, line.IsValid ∧ line.text = cs := by
  induction hlength : cs.length using Nat.strong_induction_on generalizing cs with
  | h n ih =>
      have hcode : IsCode (cs.takeWhile fun c => !Literal.isDelimiter c) := by
        intro c hc
        simpa using List.mem_takeWhile_imp hc
      have hsplit :
          (cs.takeWhile fun c => !Literal.isDelimiter c) ++
            (cs.dropWhile fun c => !Literal.isDelimiter c) = cs :=
        List.takeWhile_append_dropWhile
      have hfirst := List.head?_dropWhile_not (fun c => !Literal.isDelimiter c) cs
      cases hrest : cs.dropWhile (fun c => !Literal.isDelimiter c) with
      | nil =>
          rw [hrest, List.append_nil] at hsplit
          exact ⟨.code _, hcode, hsplit⟩
      | cons delimiter tail =>
          rw [hrest] at hsplit hfirst
          have hdelimiter : Literal.isDelimiter delimiter = true := by
            simpa using hfirst
          by_cases hclosed : ∃ body rest, IsLiteralBody delimiter body ∧
              tail = body ++ delimiter :: rest
          · obtain ⟨body, rest, hbody, rfl⟩ := hclosed
            have hshorter : rest.length < n := by
              rw [← hlength, ← hsplit]
              simp only [List.length_append, List.length_cons]
              omega
            obtain ⟨line, hline, rfl⟩ := ih _ hshorter rest rfl
            exact ⟨.literal _ delimiter body line, ⟨hcode, hdelimiter, hbody, hline⟩, hsplit⟩
          · refine ⟨.unclosed _ delimiter tail, ⟨hcode, hdelimiter, ?_⟩, hsplit⟩
            intro body rest hbody htail
            exact hclosed ⟨body, rest, hbody, htail⟩

/-- There is one way to read a line. -/
theorem CodeLine.eq_of_text
    {line other : CodeLine}
    (h : line.IsValid)
    (h' : other.IsValid)
    (htext : line.text = other.text) :
    line = other := by
  induction line generalizing other with
  | code text =>
      cases other with
      | code text' =>
          exact congrArg CodeLine.code htext
      | unclosed before' delimiter' body' =>
          exact absurd htext (IsCode.ne_append h h'.2.1)
      | literal before' delimiter' body' rest' =>
          exact absurd htext (IsCode.ne_append h h'.2.1)
  | unclosed before delimiter body =>
      cases other with
      | code text' =>
          exact absurd htext.symm (IsCode.ne_append h' h.2.1)
      | unclosed before' delimiter' body' =>
          obtain ⟨rfl, rfl, rfl⟩ := h.1.eq_of_append h'.1 h.2.1 h'.2.1 htext
          rfl
      | literal before' delimiter' body' rest' =>
          obtain ⟨-, rfl, hbody⟩ := h.1.eq_of_append h'.1 h.2.1 h'.2.1 htext
          exact absurd hbody (h.2.2 _ _ h'.2.2.1)
  | literal before delimiter body rest ih =>
      cases other with
      | code text' =>
          exact absurd htext.symm (IsCode.ne_append h' h.2.1)
      | unclosed before' delimiter' body' =>
          obtain ⟨-, rfl, hbody⟩ := h.1.eq_of_append h'.1 h.2.1 h'.2.1 htext
          exact absurd hbody.symm (h'.2.2 _ _ h.2.2.1)
      | literal before' delimiter' body' rest' =>
          obtain ⟨rfl, rfl, hrest⟩ := h.1.eq_of_append h'.1 h.2.1 h'.2.1 htext
          obtain ⟨rfl, htail⟩ := h.2.2.1.eq_of_append h.2.1 h'.2.2.1 hrest
          rw [ih h.2.2.2 h'.2.2.2 htail]

/-! ### Places where the page is a receiver -/

/-- In a piece of code between two literals, the name of the page stands at a place, at the start or
after a character that is no dot, no dollar sign and no word character, and ends there as a word. -/
def IsReceiverAt (code : List Char) (i : Nat) : Prop :=
  "page".toList <+: code.drop i ∧
  (∀ c ∈ (code.take i).getLast?, c ≠ '.' ∧ c ≠ '$' ∧ Text.isWord c = false) ∧
  ∀ c ∈ (code.drop (i + 4)).head?, Text.isWord c = false

instance (code : List Char) (i : Nat) : Decidable (IsReceiverAt code i) :=
  inferInstanceAs (Decidable (_ ∧ _ ∧ _))

/-- The characters of a piece of code from a place on, with a mark before each receiver. -/
def editsFrom (code : List Char) (i : Nat) : List Char → List (Option Char)
  | [] => []
  | c :: cs =>
    if IsReceiverAt code i then none :: some c :: editsFrom code (i + 1) cs
    else some c :: editsFrom code (i + 1) cs

/-- Writes the marks out. -/
def written (edits : List (Option Char)) : List Char :=
  edits.flatMap fun
    | none => "this.".toList
    | some c => [c]

namespace CodeLine

/-- The characters of a line, with a mark before each receiver. -/
def edits : CodeLine → List (Option Char)
  | code text => editsFrom text 0 text
  | unclosed before delimiter body => editsFrom before 0 before ++ (delimiter :: body).map some
  | literal before delimiter body rest =>
    editsFrom before 0 before ++ (delimiter :: body ++ [delimiter]).map some ++ rest.edits

/-- The line with the marks of its code written out. -/
def rebound : CodeLine → CodeLine
  | code text => .code (written (editsFrom text 0 text))
  | unclosed before delimiter body =>
    .unclosed (written (editsFrom before 0 before)) delimiter body
  | literal before delimiter body rest =>
    .literal (written (editsFrom before 0 before)) delimiter body rest.rebound

end CodeLine

@[simp] theorem written_append
    (edits others : List (Option Char)) :
    written (edits ++ others) = written edits ++ written others := by
  exact List.flatMap_append

@[simp] theorem written_map_some
    (cs : List Char) :
    written (cs.map some) = cs := by
  rw [written, List.flatMap_map]
  exact List.flatMap_singleton' cs

theorem reduceOption_editsFrom
    (code : List Char)
    (i : Nat)
    (cs : List Char) :
    (editsFrom code i cs).reduceOption = cs := by
  induction cs generalizing i with
  | nil =>
      rfl
  | cons c cs ih =>
      rw [editsFrom]
      split_ifs <;> simp [ih]

theorem isCode_written
    {code : List Char}
    {i : Nat}
    {cs : List Char}
    (h : IsCode cs) :
    IsCode (written (editsFrom code i cs)) := by
  intro c hc
  obtain ⟨edit, hedit, hc⟩ := List.mem_flatMap.mp hc
  cases edit with
  | none =>
      have hmark : ("this.".toList.all fun d => !Literal.isDelimiter d) = true := by
        decide
      simpa using List.all_eq_true.mp hmark c hc
  | some d =>
      rw [List.mem_singleton] at hc
      subst hc
      have hmem := List.reduceOption_mem_iff.mpr hedit
      rw [reduceOption_editsFrom] at hmem
      exact h c hmem

namespace CodeLine

/-- Without the marks, the line is as it was. -/
theorem reduceOption_edits
    (line : CodeLine) :
    line.edits.reduceOption = line.text := by
  have hkept : ∀ cs : List Char, (cs.map some).reduceOption = cs := by
    intro cs
    simp [List.reduceOption]
  induction line with
  | code text =>
      exact reduceOption_editsFrom text 0 text
  | unclosed before delimiter body =>
      rw [edits, List.reduceOption_append, reduceOption_editsFrom, hkept, text]
  | literal before delimiter body rest ih =>
      rw [edits, List.reduceOption_append, List.reduceOption_append, reduceOption_editsFrom, hkept,
        ih, text]
      simp

theorem text_rebound
    (line : CodeLine) :
    line.rebound.text = written line.edits := by
  induction line with
  | code text =>
      rfl
  | unclosed before delimiter body =>
      rw [rebound, text, edits, written_append, written_map_some]
  | literal before delimiter body rest ih =>
      rw [rebound, text, edits, written_append, written_append, written_map_some, ih]
      simp

theorem literals_rebound
    (line : CodeLine) :
    line.rebound.literals = line.literals := by
  induction line with
  | code text =>
      rfl
  | unclosed before delimiter body =>
      rfl
  | literal before delimiter body rest ih =>
      rw [rebound, literals, literals, ih]

theorem isValid_rebound
    {line : CodeLine}
    (h : line.IsValid) :
    line.rebound.IsValid := by
  induction line with
  | code text =>
      exact isCode_written h
  | unclosed before delimiter body =>
      exact ⟨isCode_written h.1, h.2⟩
  | literal before delimiter body rest ih =>
      exact ⟨isCode_written h.1, h.2.1, h.2.2.1, ih h.2.2.2⟩

end CodeLine

/-! ### Code -/

theorem startsPage_iff
    {cs : List Char} :
    startsPage cs = true ↔
      ∃ rest, cs = "page".toList ++ rest ∧ ∀ c ∈ rest.head?, Text.isWord c = false := by
  unfold startsPage
  split
  · next rest hrest =>
      rw [Text.stripStart_eq_some_iff] at hrest
      subst hrest
      cases rest <;> simp
  · next hnone =>
      refine iff_of_false (by simp) ?_
      rintro ⟨rest, rfl, -⟩
      rw [Text.stripStart_eq_some_iff.mpr rfl] at hnone
      cases hnone

/-- Before a literal or the end of the line, the name of the page starts in code if it does so in
the code alone. -/
theorem startsPage_append_iff
    {cs after : List Char}
    (hafter : ∀ c ∈ after.head?, Literal.isDelimiter c = true) :
    startsPage (cs ++ after) = true ↔
      "page".toList <+: cs ∧ ∀ c ∈ (cs.drop 4).head?, Text.isWord c = false := by
  have hword : ∀ c ∈ after.head?, Text.isWord c = false := by
    intro c hc
    have hdelimiter := hafter c hc
    simp only [Literal.isDelimiter, Bool.or_eq_true, beq_iff_eq] at hdelimiter
    rcases hdelimiter with (rfl | rfl) | rfl <;> rfl
  -- No character of the name begins a literal.
  have hname : ∀ c ∈ after.head?, c ∉ "page".toList := by
    intro c hc hmem
    have hplain : ("page".toList.all fun d => !Literal.isDelimiter d) = true := by
      decide
    have hnone := List.all_eq_true.mp hplain c hmem
    rw [hafter c hc] at hnone
    cases hnone
  rw [startsPage_iff]
  constructor
  · rintro ⟨rest, htext, hrest⟩
    have hstrip := Text.stripStart_eq_some_iff.mpr htext
    rw [Text.stripStart_append hname, Option.map_eq_some_iff] at hstrip
    obtain ⟨more, hmore, rfl⟩ := hstrip
    obtain rfl := Text.stripStart_eq_some_iff.mp hmore
    refine ⟨List.prefix_append _ _, ?_⟩
    have hdrop : ("page".toList ++ more).drop 4 = more := List.drop_left' rfl
    rw [hdrop]
    intro c hc
    obtain ⟨tail, rfl⟩ := List.head?_eq_some_iff.mp hc
    exact hrest c rfl
  · rintro ⟨⟨rest, rfl⟩, hrest⟩
    have hdrop : ("page".toList ++ rest).drop 4 = rest := List.drop_left' rfl
    rw [hdrop] at hrest
    refine ⟨rest ++ after, List.append_assoc _ _ _, ?_⟩
    intro c hc
    rw [List.head?_append] at hc
    cases hhead : rest.head? with
    | none =>
        rw [hhead] at hc
        exact hword c hc
    | some d =>
        rw [hhead] at hc
        obtain rfl := Option.some.inj hc
        exact hrest _ hhead

/-- The scan of a piece of code knows its last character. -/
theorem run_code
    {front : List Char}
    (h : IsCode front) :
    Scan.run {} front = { before := front.getLast? } := by
  induction front using List.reverseRecOn with
  | nil =>
      rfl
  | append_singleton front c ih =>
      have hc := h c (by simp)
      have hfront := ih fun d hd => h d (List.mem_append_left _ hd)
      rw [Scan.run] at hfront ⊢
      rw [List.foldl_append, hfront, List.foldl_cons, List.foldl_nil, List.getLast?_concat,
        Scan.step, CodeState.step]
      simp [hc]

theorem isReceiver_code_iff
    {front cs after : List Char}
    (hafter : ∀ c ∈ after.head?, Literal.isDelimiter c = true) :
    isReceiver { before := front.getLast? } (cs ++ after) = true ↔
      IsReceiverAt (front ++ cs) front.length := by
  have hedge : (front.getLast?.map isReceiverEdge).getD true = true ↔
      ∀ c ∈ front.getLast?, c ≠ '.' ∧ c ≠ '$' ∧ Text.isWord c = false := by
    cases front.getLast? with
    | none =>
        simp
    | some c =>
        simp [isReceiverEdge, and_assoc]
  rw [isReceiver, Bool.and_eq_true, Bool.and_eq_true, startsPage_append_iff hafter, hedge,
    IsReceiverAt, List.drop_left, List.take_left, ← List.drop_drop, List.drop_left]
  constructor
  · rintro ⟨⟨-, hpage, hend⟩, hstart⟩
    exact ⟨hpage, hstart, hend⟩
  · rintro ⟨hpage, hstart, hend⟩
    exact ⟨⟨rfl, hpage, hend⟩, hstart⟩

/-- In a piece of code, rebinding writes the marks out. -/
theorem rebound_code
    {front cs after : List Char}
    (h : IsCode (front ++ cs))
    (hafter : ∀ c ∈ after.head?, Literal.isDelimiter c = true) :
    rebound { before := front.getLast? } after cs =
      written (editsFrom (front ++ cs) front.length cs) := by
  induction cs generalizing front with
  | nil =>
      rfl
  | cons c cs ih =>
      have hc := h c (by simp)
      have hstep : Scan.step { before := front.getLast? } c =
          { before := (front ++ [c]).getLast? } := by
        rw [List.getLast?_concat, Scan.step, CodeState.step]
        simp [hc]
      have happend : front ++ c :: cs = front ++ [c] ++ cs := by
        simp
      have hrest : rebound { before := (front ++ [c]).getLast? } after cs =
          written (editsFrom (front ++ [c] ++ cs) (front ++ [c]).length cs) :=
        ih (happend ▸ h)
      rw [← happend, List.length_append, List.length_singleton] at hrest
      rw [rebound, hstep, hrest, thisMark, editsFrom]
      by_cases hreceiver : IsReceiverAt (front ++ c :: cs) front.length
      · rw [if_pos ((isReceiver_code_iff hafter).mpr hreceiver), if_pos hreceiver]
        rfl
      · rw [if_neg (fun hmark => hreceiver ((isReceiver_code_iff hafter).mp hmark)),
          if_neg hreceiver]
        rfl

/-! ### Literals -/

section Literals

variable {delimiter : Char} {body : List Char}

/-- In a literal, nothing is rebound, and the scan stays in it up to its end. -/
theorem rebound_body
    (h : IsLiteralBody delimiter body)
    (before : Option Char)
    (after : List Char) :
    rebound { state := { quote := some delimiter }, before } after body = body ∧
    (Scan.run { state := { quote := some delimiter }, before } body).state =
      { quote := some delimiter } := by
  induction h generalizing before with
  | nil =>
      exact ⟨rfl, rfl⟩
  | @char c cs hdelimiter hback _ ih =>
      have hstep : Scan.step { state := { quote := some delimiter }, before } c =
          { state := { quote := some delimiter } } := by
        simp [Scan.step, CodeState.step, hdelimiter, hback]
      obtain ⟨hkept, hrun⟩ := ih none
      rw [rebound, hstep, hkept, Scan.run, List.foldl_cons, hstep]
      exact ⟨rfl, hrun⟩
  | @escape c cs _ ih =>
      have hstep : Scan.step (Scan.step { state := { quote := some delimiter }, before } '\\') c =
          { state := { quote := some delimiter } } := by
        simp [Scan.step, CodeState.step]
      obtain ⟨hkept, hrun⟩ := ih none
      rw [rebound, rebound, hstep, hkept, Scan.run, List.foldl_cons,
        List.foldl_cons, hstep]
      exact ⟨rfl, hrun⟩

/-- In a literal that is not closed, nothing is rebound. -/
theorem rebound_unclosed
    (h : IsUnclosed delimiter body)
    (before : Option Char) :
    rebound { state := { quote := some delimiter }, before } [] body = body := by
  induction body using List.twoStepInduction generalizing before with
  | nil =>
      rfl
  | singleton c =>
      rfl
  | cons_cons c d cs htail hrest =>
      have hdelimiter : c ≠ delimiter := by
        rintro rfl
        exact h [] (d :: cs) .nil rfl
      by_cases hback : c = '\\'
      · subst hback
        have hstep : Scan.step
            (Scan.step { state := { quote := some delimiter }, before } '\\') d =
            { state := { quote := some delimiter } } := by
          simp [Scan.step, CodeState.step]
        have hkept := htail (fun inside rest hinside htext =>
          h ('\\' :: d :: inside) rest (.escape d hinside) (by rw [htext]; rfl)) none
        rw [rebound, rebound, hstep, hkept]
        rfl
      · have hstep : Scan.step { state := { quote := some delimiter }, before } c =
            { state := { quote := some delimiter } } := by
          simp [Scan.step, CodeState.step, hdelimiter, hback]
        have hkept := hrest d (fun inside rest hinside htext =>
          h (c :: inside) rest (.char hdelimiter hback hinside) (by rw [htext]; rfl)) none
        rw [rebound, hstep, hkept]
        rfl

end Literals

/-! ### Whole lines -/

/-- Code before a literal, and the delimiter that opens it. -/
theorem rebindAfter_code
    {before after : List Char}
    {delimiter : Char}
    (h : IsCode before)
    (hdelimiter : Literal.isDelimiter delimiter = true) :
    rebindAfter {} none (before ++ delimiter :: after) =
      written (editsFrom before 0 before) ++
        delimiter :: rebindAfter { quote := some delimiter } (some delimiter) after := by
  have hopen : Scan.step (Scan.run {} before) delimiter =
      { state := { quote := some delimiter }, before := some delimiter } := by
    rw [run_code h, Scan.step, CodeState.step]
    simp [hdelimiter]
  have hmark : thisMark (Scan.run {} before) (delimiter :: after) = [] := by
    refine if_neg ?_
    intro hreceiver
    rw [isReceiver, Bool.and_eq_true, Bool.and_eq_true] at hreceiver
    obtain rfl := startsPage_cons hreceiver.1.2
    cases hdelimiter
  have hcode : rebound {} (delimiter :: after) before =
      written (editsFrom before 0 before) := by
    have hwhole : IsCode ([] ++ before) := h
    refine rebound_code hwhole ?_
    rintro c ⟨⟩
    exact hdelimiter
  have hpieces := rebindAfter_append {} before (delimiter :: after)
  rw [rebindAfter_cons, hopen, hmark, hcode] at hpieces
  exact hpieces

/-- Rebinding writes the marks of a line out. -/
theorem rebindAfter_text
    {line : CodeLine}
    (h : line.IsValid) :
    rebindAfter {} none line.text = written line.edits := by
  induction line with
  | code text =>
      have hpieces := rebindAfter_append {} text []
      rw [List.append_nil, rebindAfter, List.append_nil] at hpieces
      rw [CodeLine.text, CodeLine.edits]
      have hwhole : IsCode ([] ++ text) := h
      refine hpieces.trans (rebound_code hwhole ?_)
      simp
  | unclosed before delimiter body =>
      obtain ⟨hcode, hdelimiter, hbody⟩ := h
      have hpieces := rebindAfter_append
        { state := { quote := some delimiter }, before := some delimiter } body []
      rw [List.append_nil, rebound_unclosed hbody, rebindAfter, List.append_nil] at hpieces
      rw [CodeLine.text, rebindAfter_code hcode hdelimiter, CodeLine.edits, written_append,
        written_map_some]
      exact congrArg _ (congrArg _ hpieces)
  | literal before delimiter body rest ih =>
      obtain ⟨hcode, hdelimiter, hbody, hrest⟩ := h
      obtain ⟨hkept, hrun⟩ := rebound_body hbody (some delimiter) (delimiter :: rest.text)
      have hpieces := rebindAfter_append
        { state := { quote := some delimiter }, before := some delimiter } body
        (delimiter :: rest.text)
      have hclose : (Scan.run { state := { quote := some delimiter }, before := some delimiter }
          body).step delimiter = {} := by
        rw [Scan.step, hrun, CodeState.step]
        simp [ne_backslash_of_isDelimiter hdelimiter]
      have hmark : ∀ s : Scan, s.state = { quote := some delimiter } →
          thisMark s (delimiter :: rest.text) = [] := by
        intro s hs
        rw [thisMark, isReceiver, hs]
        rfl
      rw [hkept, rebindAfter_cons, hclose, hmark _ hrun, ih hrest] at hpieces
      rw [CodeLine.text, rebindAfter_code hcode hdelimiter, CodeLine.edits, written_append,
        written_append, written_map_some]
      refine (congrArg _ (congrArg _ hpieces)).trans ?_
      simp

/-! ### Rebinding again -/

/-- The first character of a line that was rebound is that of the line, unless the name was rebound
there. -/
theorem eq_cons_of_rebindAfter
    {s : Scan}
    {cs rest : List Char}
    {c : Char}
    (h : rebindAfter s.state s.before cs = c :: rest)
    (hc : c ≠ 't') :
    ∃ tail, cs = c :: tail ∧ rest = rebindAfter (s.step c).state (s.step c).before tail := by
  cases cs with
  | nil =>
      cases h
  | cons d tail =>
      rw [rebindAfter_cons, thisMark] at h
      split_ifs at h with hreceiver
      · exact absurd (List.cons.inj h).1.symm hc
      · obtain ⟨rfl, hrest⟩ := List.cons.inj h
        exact ⟨tail, rfl, hrest.symm⟩

/-- Where the name starts after the rebinding, it started before it. -/
theorem startsPage_of_rebindAfter
    {s : Scan}
    {c : Char}
    {cs : List Char}
    (h : startsPage (c :: rebindAfter s.state s.before cs) = true) :
    startsPage (c :: cs) = true := by
  obtain ⟨rest, hpage, hrest⟩ := startsPage_iff.mp h
  have hletters : "page".toList ++ rest = 'p' :: 'a' :: 'g' :: 'e' :: rest := by
    rfl
  rw [hletters] at hpage
  obtain ⟨rfl, hage⟩ := List.cons.inj hpage
  obtain ⟨tail, rfl, hge⟩ := eq_cons_of_rebindAfter hage (by decide)
  obtain ⟨tail, rfl, he⟩ := eq_cons_of_rebindAfter hge.symm (by decide)
  obtain ⟨tail, rfl, htext⟩ := eq_cons_of_rebindAfter he.symm (by decide)
  refine startsPage_iff.mpr ⟨tail, rfl, ?_⟩
  cases tail with
  | nil =>
      simp
  | cons d tail =>
      rintro e ⟨⟩
      -- What is written before a name that is rebound begins with a letter.
      rw [rebindAfter_cons, thisMark] at htext
      split_ifs at htext with hreceiver
      · exact absurd (hrest 't' (by rw [htext]; rfl)) (by decide)
      · exact hrest d (by rw [htext]; rfl)

/-- Nothing is rebound in what rebinding puts in. -/
theorem rebound_this
    (s : Scan)
    (rest : List Char) :
    rebound s rest "this.".toList = "this.".toList := by
  refine rebound_eq_self_iff.mpr ?_
  rintro ⟨front, back, hsplit, hne, hname⟩
  obtain ⟨d, back, rfl⟩ := List.exists_cons_of_ne_nil hne
  rw [isReceiver, Bool.and_eq_true, Bool.and_eq_true] at hname
  have hmem : d ∈ "this.".toList := by
    rw [hsplit]
    simp
  rw [startsPage_cons hname.1.2] at hmem
  revert hmem
  decide

/-- What rebinding puts in leaves code as code, behind a dot. -/
theorem run_this
    {s : Scan}
    (hquote : s.state.quote = none) :
    Scan.run s "this.".toList = { state := s.state, before := some '.' } := by
  have hstate : ∀ d : Char, Literal.isDelimiter d = false → s.state.step d = s.state := by
    intro d hd
    rw [CodeState.step, hquote]
    simp [hd]
  simp [Scan.run, Scan.step, hstate, hquote, Literal.isDelimiter]

/-- A line that was rebound has nothing left to rebind. -/
theorem rebindAfter_rebindAfter
    (s : Scan)
    (cs : List Char) :
    rebindAfter s.state s.before (rebindAfter s.state s.before cs) =
      rebindAfter s.state s.before cs := by
  induction cs generalizing s with
  | nil =>
      rfl
  | cons c cs ih =>
      rw [rebindAfter_cons, thisMark]
      split_ifs with hreceiver
      · rw [isReceiver, Bool.and_eq_true, Bool.and_eq_true, Option.isNone_iff_eq_none] at hreceiver
        obtain ⟨⟨hquote, hpage⟩, -⟩ := hreceiver
        obtain rfl := startsPage_cons hpage
        have hnext : ∀ before, Scan.step { state := s.state, before } 'p' = s.step 'p' := by
          intro before
          rfl
        have hdone : ∀ rest, thisMark { state := s.state, before := some '.' } rest = [] := by
          intro rest
          refine if_neg ?_
          simp [isReceiver, isReceiverEdge]
        rw [rebindAfter_append, rebound_this, run_this hquote, rebindAfter_cons, hdone, hnext, ih]
        rfl
      · have hkept : isReceiver s
            (c :: rebindAfter (s.step c).state (s.step c).before cs) ≠ true := by
          intro hagain
          rw [isReceiver, Bool.and_eq_true, Bool.and_eq_true] at hagain
          refine hreceiver ?_
          rw [isReceiver, hagain.1.1, startsPage_of_rebindAfter hagain.1.2, hagain.2]
          rfl
        rw [List.nil_append, rebindAfter_cons, thisMark, if_neg hkept, ih, List.nil_append]

/-- A line has one reading as code and literals. Rebinding the page puts the receiver before exactly
those places of the code where the name of the page stands as a receiver; without what was put in,
the line is as it was, its literals are as they were, and rebinding once more changes nothing. -/
theorem page_rebound_exactly
    (line : String) :
    ∃ parts : CodeLine,
      parts.IsValid ∧ parts.text = line.toList ∧
      (∀ other : CodeLine, other.IsValid → other.text = line.toList → other = parts) ∧
      (rebindPage line).toList = written parts.edits ∧
      parts.edits.reduceOption = line.toList ∧
      (parts.rebound.IsValid ∧ parts.rebound.text = (rebindPage line).toList ∧
        parts.rebound.literals = parts.literals) ∧
      rebindPage (rebindPage line) = rebindPage line := by
  obtain ⟨parts, hparts, htext⟩ := exists_codeLine line.toList
  have hwritten : (rebindPage line).toList = written parts.edits := by
    rw [rebindPage, String.toList_ofList, ← htext, rebindAfter_text hparts]
  refine ⟨parts, hparts, htext, ?_, hwritten, ?_, ⟨parts.isValid_rebound hparts, ?_,
    parts.literals_rebound⟩, ?_⟩
  · intro other hother hsame
    exact CodeLine.eq_of_text hother hparts (hsame.trans htext.symm)
  · rw [parts.reduceOption_edits, htext]
  · rw [parts.text_rebound, hwritten]
  · rw [rebindPage, rebindPage, String.toList_ofList]
    exact congrArg String.ofList (rebindAfter_rebindAfter {} line.toList)

/-- After a literal, before one, and in one that is not closed. -/
example :
    rebindPage "page.fill('page\\'s', page); a.page('x')page + `page" =
      "this.page.fill('page\\'s', this.page); a.page('x')this.page + `page" := by
  decide +kernel

end CustomCommand
end SuiteShift
