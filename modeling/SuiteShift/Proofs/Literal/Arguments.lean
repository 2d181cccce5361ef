import SuiteShift.Proofs.Literal.Nesting

/-!
# Cutting an argument list

- `Nesting.commaFree_iff`: what the scan finds of a comma, said for each comma of a text.
- `IsSegment.trimmed`, `commaFree_trimChars`: trimming never crosses a change of the scan.
- `exists_segments`: every text, balanced or not, is cut at the commas outside of all nesting.
- `splitTop_joinChars`: texts that close what they open are cut one by one.
- `commaFree_of_splitTop`, `exists_last_comma`: what the pieces of a text say about its commas.
- `arguments_joined`: joined arguments are found again, with a comma after the last one or without.
- `arguments_lossless`: what the arguments of any text have to do with the text.
-/

namespace SuiteShift
namespace Literal

namespace Nesting

/-! ### Commas outside of all nesting -/

/-- A comma is met inside of some nesting, whichever it is. -/
theorem commaFree_iff
    {n : Nesting}
    {cs : List Char} :
    n.commaFree cs = true ↔
      ∀ before after, cs = before ++ ',' :: after → (n.run before).isTop = false := by
  induction cs generalizing n with
  | nil =>
      simp [commaFree]
  | cons c cs ih =>
      rw [commaFree, Bool.and_eq_true, ih, Bool.not_eq_true', Bool.and_eq_false_imp, beq_iff_eq]
      constructor
      · rintro ⟨hhead, hrest⟩ before after hsplit
        cases before with
        | nil =>
            exact hhead (List.cons.inj hsplit).1
        | cons d before =>
            obtain ⟨rfl, htail⟩ := List.cons.inj hsplit
            exact hrest before after htail
      · intro h
        refine ⟨?_, ?_⟩
        · rintro rfl
          exact h [] cs rfl
        · intro before after htail
          exact h (c :: before) after (by rw [htail, List.cons_append])

/-- The first comma outside of all nesting, if there is one. -/
theorem commaFree_or_exists_comma
    (n : Nesting)
    (cs : List Char) :
    n.commaFree cs = true ∨
    ∃ first rest, cs = first ++ ',' :: rest ∧
      n.commaFree first = true ∧ (n.run first).isTop = true := by
  induction cs generalizing n with
  | nil =>
      exact .inl rfl
  | cons c cs ih =>
      by_cases hcomma : (c == ',' && n.isTop) = true
      · rw [Bool.and_eq_true, beq_iff_eq] at hcomma
        obtain ⟨rfl, htop⟩ := hcomma
        exact .inr ⟨[], cs, rfl, rfl, htop⟩
      · have hhead : (c == ',' && n.isTop) = false := Bool.eq_false_iff.mpr hcomma
        rcases ih (n.step c) with hfree | ⟨first, rest, rfl, hfree, htop⟩
        · exact .inl (by rw [commaFree, hhead, hfree]; rfl)
        · refine .inr ⟨c :: first, rest, rfl, ?_, htop⟩
          rw [commaFree, hhead, hfree]
          rfl

/-! ### Blanks -/

/-- A character that opens, closes or escapes something. -/
def isActive (c : Char) : Bool :=
  isDelimiter c || c == '\\' || c == '\x7b' || c == '\x7d' || c == '[' || c == ']' || c == '(' ||
    c == ')'

theorem isActive_of_isBlank
    {c : Char}
    (h : Text.isBlank c = true) :
    isActive c = false := by
  rw [Bool.eq_false_iff]
  intro hactive
  rw [Text.isBlank_eq_false (by decide +kernel) hactive] at h
  cases h

/-- An open literal has one of the three delimiters. -/
def Delimited (n : Nesting) : Prop :=
  ∀ q, n.quote = some q → isDelimiter q = true

theorem Delimited.step
    {n : Nesting}
    (h : n.Delimited)
    (c : Char) :
    (n.step c).Delimited := by
  unfold Nesting.step Delimited
  cases hquote : n.quote with
  | some q =>
      have hopen := h q hquote
      dsimp only
      split_ifs
      · rintro r ⟨⟩
        exact hopen
      · rintro r ⟨⟩
        exact hopen
      · simp
      · exact h
  | none =>
      dsimp only
      split_ifs with hdelimiter
      · rintro q ⟨⟩
        exact hdelimiter
      all_goals simp [hquote]

theorem Delimited.run
    {n : Nesting}
    (h : n.Delimited)
    (cs : List Char) :
    (n.run cs).Delimited := by
  induction cs generalizing n with
  | nil =>
      exact h
  | cons c cs ih =>
      exact ih (h.step c)

/-- A blank neither leaves the top level nor leads back to it. -/
theorem isTop_step_of_isBlank
    {n : Nesting}
    (h : n.Delimited)
    {c : Char}
    (hblank : Text.isBlank c = true) :
    (n.step c).isTop = n.isTop := by
  have hactive := isActive_of_isBlank hblank
  simp only [isActive, Bool.or_eq_false_iff, beq_eq_false_iff_ne] at hactive
  cases hquote : n.quote with
  | some q =>
      have hopen : c ≠ q := by
        rintro rfl
        rw [h c hquote] at hactive
        simp at hactive
      by_cases hescaped : n.escaped = true
      · simp [Nesting.step, isTop, hquote, hescaped]
      · simp [Nesting.step, hquote, hescaped, hactive, hopen]
  | none =>
      simp [Nesting.step, hquote, hactive]

theorem isTop_run_of_isBlank
    {n : Nesting}
    (h : n.Delimited)
    {cs : List Char}
    (hblank : ∀ c ∈ cs, Text.isBlank c = true) :
    (n.run cs).isTop = n.isTop := by
  induction cs generalizing n with
  | nil =>
      rfl
  | cons c cs ih =>
      rw [run_cons, ih (h.step c) fun d hd => hblank d (List.mem_cons_of_mem _ hd),
        isTop_step_of_isBlank h (hblank c List.mem_cons_self)]

end Nesting

/-! ### Trimming -/

theorem delimited_start : Nesting.Delimited {} := by
  intro q hq
  cases hq

/-- The scan of a trimmed text starts as the scan of the text does after its leading blanks. -/
theorem exists_run_trimChars
    (cs : List Char) :
    ∃ front rear,
      cs = front ++ (Text.trimChars cs ++ rear) ∧
      Nesting.run {} front = {} ∧
      ∀ c ∈ rear, Text.isBlank c = true := by
  obtain ⟨front, rear, hcs, hfront, hrear⟩ := Text.exists_trimChars cs
  refine ⟨front, rear, by rw [← List.append_assoc, ← hcs], ?_, hrear⟩
  exact Nesting.run_eq_start (Nesting.isTop_run_of_isBlank delimited_start hfront)

theorem commaFree_trimChars
    {cs : List Char}
    (h : Nesting.commaFree {} cs = true) :
    Nesting.commaFree {} (Text.trimChars cs) = true := by
  obtain ⟨front, rear, hcs, hfront, -⟩ := exists_run_trimChars cs
  rw [hcs, Nesting.commaFree_append, Nesting.commaFree_append, hfront, Bool.and_eq_true,
    Bool.and_eq_true] at h
  exact h.2.1

/-- Trimming keeps a segment one: the blanks at its end stand where the scan is back already. -/
theorem IsSegment.trimmed
    {cs : List Char}
    (h : IsSegment cs) :
    IsSegment (Text.trimChars cs) := by
  obtain ⟨front, rear, hcs, hfront, hrear⟩ := exists_run_trimChars cs
  refine ⟨commaFree_trimChars h.commaFree, ?_⟩
  have hclosed := h.closed
  rw [hcs, Nesting.run_append, Nesting.run_append, hfront,
    Nesting.isTop_run_of_isBlank (delimited_start.run _) hrear] at hclosed
  exact hclosed

/-! ### Segments -/

/-- Every text is made of segments with commas between them, and of a last piece that may leave
something open. -/
theorem exists_segments
    (cs : List Char) :
    ∃ front last,
      cs = Text.joinChars [','] (front ++ [last]) ∧
      (∀ piece ∈ front, IsSegment piece) ∧
      Nesting.commaFree {} last = true := by
  induction hlength : cs.length using Nat.strongRecOn generalizing cs with
  | ind length ih =>
      rcases Nesting.commaFree_or_exists_comma {} cs with hfree | ⟨first, rest, rfl, hfree, htop⟩
      · exact ⟨[], cs, rfl, by simp, hfree⟩
      · have hshorter : rest.length < length := by
          simp only [List.length_append, List.length_cons] at hlength
          omega
        obtain ⟨front, last, rfl, hfront, hlast⟩ := ih rest.length hshorter rest rfl
        refine ⟨first :: front, last, ?_, ?_, hlast⟩
        · rw [Text.joinChars_concat, Text.joinChars_concat, List.flatMap_cons]
          simp
        · rintro piece (_ | hpiece)
          · exact ⟨hfree, htop⟩
          · exact hfront piece ‹_›

theorem run_segments
    {pieces : List (List Char)}
    (h : ∀ piece ∈ pieces, IsSegment piece) :
    Nesting.run {} (pieces.flatMap (· ++ [','])) = {} := by
  induction pieces with
  | nil =>
      rfl
  | cons piece pieces ih =>
      rw [List.flatMap_cons, Nesting.run_append, Nesting.run_append,
        (h piece List.mem_cons_self).back]
      exact ih fun other hother => h other (List.mem_cons_of_mem _ hother)

/-- The segments of a text: their commas are those of the text that the scan meets outside of all
nesting, and no others. -/
structure IsCut (text : List Char) (segments : List (List Char)) : Prop where
  joined : Text.joinChars [','] segments = text
  outside : ∀ before after, segments = before ++ after → before ≠ [] → after ≠ [] →
    (Nesting.run {} (Text.joinChars [','] before)).isTop = true
  inside : ∀ before start rest after, segments = before ++ (start ++ ',' :: rest) :: after →
    (Nesting.run {} (Text.joinChars [','] (before ++ [start]))).isTop = false

theorem isCut_of_segments
    {front : List (List Char)}
    {last : List Char}
    (hfront : ∀ piece ∈ front, IsSegment piece)
    (hlast : Nesting.commaFree {} last = true) :
    IsCut (Text.joinChars [','] (front ++ [last])) (front ++ [last]) := by
  -- What stands before some of the pieces are segments.
  have hbefore : ∀ before after, front ++ [last] = before ++ after → after ≠ [] →
      ∀ piece ∈ before, IsSegment piece := by
    intro before after hsplit hafter piece hpiece
    obtain ⟨after, end_, rfl⟩ := (List.eq_nil_or_concat after).resolve_left hafter
    rw [List.concat_eq_append, ← List.append_assoc] at hsplit
    have hpieces := (List.append_inj' hsplit rfl).1
    exact hfront piece (by rw [hpieces]; exact List.mem_append_left _ hpiece)
  have hfree : ∀ piece ∈ front ++ [last], Nesting.commaFree {} piece = true := by
    intro piece hpiece
    rcases List.mem_append.mp hpiece with hpiece | hpiece
    · exact (hfront piece hpiece).commaFree
    · rw [List.mem_singleton.mp hpiece]
      exact hlast
  refine ⟨rfl, ?_, ?_⟩
  · intro before after hsplit hne hafter
    have hpieces := hbefore before after hsplit hafter
    obtain ⟨before, piece, rfl⟩ := (List.eq_nil_or_concat before).resolve_left hne
    rw [List.concat_eq_append] at hpieces ⊢
    rw [Text.joinChars_concat, Nesting.run_append,
      run_segments fun other hother => hpieces other (List.mem_append_left _ hother)]
    exact (hpieces piece (by simp)).closed
  · intro before start rest after hsplit
    have hpiece := hfree (start ++ ',' :: rest) (by rw [hsplit]; simp)
    rw [Text.joinChars_concat, Nesting.run_append,
      run_segments (hbefore before _ hsplit (by simp))]
    exact Nesting.commaFree_iff.mp hpiece start rest rfl

/-! ### Cutting joined texts -/

/-- A comma after a text that closes what it opens ends the last piece of that text. -/
theorem splitTop_append_comma
    {n : Nesting}
    {cs : List Char}
    (h : (n.run cs).isTop = true)
    (rest : List Char) :
    splitTop n (cs ++ ',' :: rest) = splitTop n cs ++ splitTop (n.run cs) rest := by
  induction cs generalizing n with
  | nil =>
      have htop : n.isTop = true := h
      rw [List.nil_append, splitTop_cons_of_comma htop]
      rfl
  | cons c cs ih =>
      rw [Nesting.run_cons] at h
      by_cases hcomma : (c == ',' && n.isTop) = true
      · have hstep : n.step c = n := by
          rw [Bool.and_eq_true, beq_iff_eq] at hcomma
          obtain ⟨rfl, htop⟩ := hcomma
          simp only [Nesting.isTop, Bool.and_eq_true, Option.isNone_iff_eq_none] at htop
          simp [Nesting.step, htop.1.1.1, isDelimiter]
        have hrest := ih h
        rw [hstep] at hrest
        rw [List.cons_append, splitTop, if_pos hcomma, hrest, splitTop, if_pos hcomma,
          Nesting.run_cons, hstep]
        rfl
      · obtain ⟨piece, pieces, hsplit⟩ :=
          List.exists_cons_of_ne_nil (splitTop_ne_nil (n.step c) cs)
        rw [List.cons_append, splitTop, if_neg hcomma, ih h, splitTop, if_neg hcomma, hsplit]
        rfl

/-- Texts that close what they open are cut one by one. -/
theorem splitTop_joinChars
    {texts : List (List Char)}
    (h : ∀ text ∈ texts, WellNested text)
    (hne : texts ≠ []) :
    splitTop {} (Text.joinChars [','] texts) = texts.flatMap (splitTop {}) := by
  induction texts with
  | nil =>
      exact absurd rfl hne
  | cons first texts ih =>
      cases texts with
      | nil =>
          simp [Text.joinChars]
      | cons second rest =>
          have hfirst := (h first List.mem_cons_self).closed
          have hrest := ih (fun text htext => h text (List.mem_cons_of_mem _ htext)) (by simp)
          rw [Text.joinChars_cons_cons, List.append_assoc, List.singleton_append,
            splitTop_append_comma hfirst, Nesting.run_eq_start hfirst, hrest]
          rfl

/-- A text is one piece exactly if it has no comma outside of all nesting. -/
theorem splitTop_eq_singleton_iff
    {n : Nesting}
    {cs piece : List Char} :
    splitTop n cs = [piece] ↔ n.commaFree cs = true ∧ cs = piece := by
  constructor
  · intro h
    rcases Nesting.commaFree_or_exists_comma n cs with hfree | ⟨first, rest, rfl, hfree, htop⟩
    · rw [splitTop_of_commaFree hfree, List.cons.injEq] at h
      exact ⟨hfree, h.1⟩
    · rw [splitTop_append_comma htop, splitTop_of_commaFree hfree, List.singleton_append,
        List.cons.injEq] at h
      exact absurd h.2 (splitTop_ne_nil _ rest)
  · rintro ⟨hfree, rfl⟩
    exact splitTop_of_commaFree hfree

/-- The last piece is the whole text, or what stands after a comma. -/
theorem getLast?_splitTop
    {cs piece : List Char}
    (h : piece ∈ (splitTop {} cs).getLast?) :
    piece = cs ∨ ∃ before, cs = before ++ ',' :: piece := by
  obtain ⟨front, last, rfl, hfront, hlast⟩ := exists_segments cs
  rw [splitTop_join hfront hlast, List.getLast?_concat, Option.mem_some] at h
  obtain rfl | ⟨before, final, rfl⟩ := List.eq_nil_or_concat front
  · exact .inl h.symm
  · refine .inr ⟨before.flatMap (· ++ [',']) ++ final, ?_⟩
    rw [List.concat_eq_append, Text.joinChars_concat, List.flatMap_append, h]
    simp

theorem trimPieces_eq_map
    {pieces : List (List Char)}
    (h : ∀ piece ∈ pieces.getLast?, Text.trimChars piece ≠ []) :
    trimPieces pieces = pieces.map Text.trimChars := by
  obtain rfl | ⟨front, last, rfl⟩ := List.eq_nil_or_concat pieces
  · rfl
  · rw [List.concat_eq_append] at h ⊢
    have hlast := h last (by simp)
    rw [trimPieces_concat, trimPieces, List.map_append]
    simp [hlast]

theorem commaFree_of_not_mem
    {cs : List Char}
    (h : ',' ∉ cs)
    (n : Nesting) :
    n.commaFree cs = true := by
  rw [Nesting.commaFree_iff]
  rintro before after rfl
  simp at h

/-- All pieces but the last are segments. -/
theorem isSegment_of_splitTop
    {cs : List Char}
    {pieces rest : List (List Char)}
    (h : splitTop {} cs = pieces ++ rest)
    (hne : rest ≠ []) :
    ∀ piece ∈ pieces, IsSegment piece := by
  obtain ⟨front, last, rfl, hfront, hlast⟩ := exists_segments cs
  obtain ⟨rest, final, rfl⟩ := (List.eq_nil_or_concat rest).resolve_left hne
  rw [splitTop_join hfront hlast, List.concat_eq_append, ← List.append_assoc] at h
  intro piece hpiece
  refine hfront piece ?_
  rw [(List.append_inj' h rfl).1]
  exact List.mem_append_left _ hpiece

/-- A text that stays in one piece has no comma outside of nesting. -/
theorem commaFree_of_splitTop
    {n : Nesting}
    {front cs piece : List Char}
    {pieces : List (List Char)}
    (h : splitTop n (front ++ cs) = (front ++ piece) :: pieces) :
    n.commaFree front = true ∧ splitTop (n.run front) cs = piece :: pieces := by
  have hfree : n.commaFree front = true := by
    rcases Nesting.commaFree_or_exists_comma n front with hfree | ⟨first, rest, rfl, hfirst, htop⟩
    · exact hfree
    · rw [List.append_assoc, List.cons_append, splitTop_append_comma htop,
        splitTop_of_commaFree hfirst, List.singleton_append, List.cons.injEq] at h
      have hlength := congrArg List.length h.1
      simp only [List.length_append, List.length_cons] at hlength
      omega
  refine ⟨hfree, ?_⟩
  rw [splitTop_append hfree] at h
  obtain ⟨first, rest, hsplit⟩ := List.exists_cons_of_ne_nil (splitTop_ne_nil (n.run front) cs)
  rw [hsplit, prependPiece, List.cons.injEq] at h
  rw [hsplit, List.append_cancel_left h.1, h.2]

/-- A piece that is not blank is the last argument, also with a comma and blanks behind it. -/
theorem trimPieces_trailing
    {pieces : List (List Char)}
    {piece : List Char}
    {trailing : Option (List Char)}
    (hpiece : Text.trimChars piece ≠ [])
    (htrailing : ∀ gap ∈ trailing, ∀ c ∈ gap, Text.isBlank c = true) :
    trimPieces (pieces ++ piece :: trailing.toList) =
      pieces.map Text.trimChars ++ [Text.trimChars piece] := by
  cases trailing with
  | none =>
      rw [Option.toList_none, trimPieces_concat, trimPieces]
      simp [hpiece]
  | some gap =>
      rw [Option.toList_some, List.append_cons, trimPieces_concat, trimPieces,
        Text.trimChars_eq_nil (htrailing gap rfl)]
      simp

/-- The last comma outside of all nesting. -/
theorem exists_last_comma
    {cs : List Char}
    (h : Nesting.commaFree {} cs ≠ true) :
    ∃ front last, cs = front ++ ',' :: last ∧ (Nesting.run {} front).isTop = true ∧
      Nesting.commaFree {} last = true := by
  obtain ⟨pieces, last, rfl, hpieces, hlast⟩ := exists_segments cs
  obtain rfl | ⟨pieces, piece, rfl⟩ := List.eq_nil_or_concat pieces
  · exact absurd hlast h
  · rw [List.concat_eq_append] at hpieces
    refine ⟨pieces.flatMap (· ++ [',']) ++ piece, last, ?_, ?_, hlast⟩
    · rw [List.concat_eq_append, Text.joinChars_concat, List.flatMap_append]
      simp
    · rw [Nesting.run_append,
        run_segments fun other hother => hpieces other (List.mem_append_left _ hother)]
      exact (hpieces piece (by simp)).closed

/-! ### Joining -/

theorem toList_intercalate_comma
    (fragments : List String) :
    (", ".intercalate fragments).toList =
      Text.joinChars [',', ' '] (fragments.map String.toList) := by
  rw [String.toList_intercalate, Text.joinChars_eq_intercalate]
  rfl

/-- A comma after the last argument does not add one. -/
theorem argumentChars_join_append_comma
    {args : List (List Char)}
    (h : ∀ arg ∈ args, IsArgument arg)
    (hne : args ≠ []) :
    argumentChars (Text.joinChars [',', ' '] args ++ [',']) = args := by
  have hspaced : ∀ piece ∈ args.map (' ' :: ·), IsSegment piece := by
    intro piece hpiece
    obtain ⟨arg, harg, rfl⟩ := List.mem_map.mp hpiece
    exact (h arg harg).isSegment.spaced
  have hjoined : ' ' :: (Text.joinChars [',', ' '] args ++ [',']) =
      Text.joinChars [','] (args.map (' ' :: ·) ++ [[]]) := by
    rw [← List.cons_append, cons_space_joinChars hne,
      Text.joinChars_append_sep (by simpa using hne), Text.joinChars_concat, List.append_nil]
  have htrimmed : (args.map (' ' :: ·)).map Text.trimChars = args := by
    rw [List.map_map]
    refine (List.map_congr_left fun arg harg => ?_).trans (List.map_id args)
    exact (h arg harg).trimmed
  rw [← argumentChars_cons_space, hjoined, argumentChars_join_commas hspaced rfl, htrimmed]
  exact List.append_nil args

/-- Joined arguments are found again, with a comma after the last one or without. -/
theorem arguments_joined
    {fragments : List String}
    (h : ∀ fragment ∈ fragments, IsArgument fragment.toList) :
    arguments (", ".intercalate fragments) = fragments ∧
    (fragments ≠ [] → arguments (", ".intercalate fragments ++ ",") = fragments) := by
  have hchars : ∀ arg ∈ fragments.map String.toList, IsArgument arg := by
    intro arg harg
    obtain ⟨fragment, hfragment, rfl⟩ := List.mem_map.mp harg
    exact h fragment hfragment
  have hstrings : (fragments.map String.toList).map String.ofList = fragments := by
    simp [Function.comp_def]
  refine ⟨?_, ?_⟩
  · rw [arguments, toList_intercalate_comma, argumentChars_join hchars, hstrings]
  · intro hne
    have hcomma : ",".toList = [','] := by
      rfl
    rw [arguments, String.toList_append, toList_intercalate_comma, hcomma,
      argumentChars_join_append_comma hchars (by simpa using hne), hstrings]

/-- Quotes, escapes, commas and brackets of every kind. -/
theorem arguments_joined_nested :
    (∀ fragment ∈ ["'it\\'s, (ok'", "\x7b a: [1, 2], f: (x, y) => x \x7d", "\x60,\x60"],
      IsArgument fragment.toList) ∧
    arguments "'it\\'s, (ok', \x7b a: [1, 2], f: (x, y) => x \x7d, \x60,\x60" =
      ["'it\\'s, (ok'", "\x7b a: [1, 2], f: (x, y) => x \x7d", "\x60,\x60"] ∧
    arguments "'it\\'s, (ok', \x7b a: [1, 2], f: (x, y) => x \x7d, \x60,\x60," =
      ["'it\\'s, (ok'", "\x7b a: [1, 2], f: (x, y) => x \x7d", "\x60,\x60"] := by
  have hfragments : ∀ fragment ∈
      ["'it\\'s, (ok'", "\x7b a: [1, 2], f: (x, y) => x \x7d", "\x60,\x60"],
      IsArgument fragment.toList := by
    simp only [List.forall_mem_cons]
    exact ⟨⟨by decide, by decide, by decide, by decide⟩,
      ⟨by decide, by decide, by decide, by decide⟩,
      ⟨by decide, by decide, by decide, by decide⟩, by simp⟩
  obtain ⟨hjoined, htrailing⟩ := arguments_joined hfragments
  exact ⟨hfragments, hjoined, htrailing (by simp)⟩

/-! ### Any text -/

/-- What the arguments of any text are: none at all, or segments without blanks at their ends, of
which the last may leave something open. -/
theorem exists_argumentChars
    (cs : List Char) :
    argumentChars cs = [] ∨
    ∃ front last,
      argumentChars cs = front ++ [last] ∧
      (∀ piece ∈ front, IsSegment piece ∧ Text.trimChars piece = piece) ∧
      Nesting.commaFree {} last = true ∧ Text.trimChars last = last := by
  obtain ⟨front, last, rfl, hfront, hlast⟩ := exists_segments cs
  rw [argumentChars_join_commas hfront hlast]
  have htrimmed : ∀ pieces : List (List Char), (∀ piece ∈ pieces, IsSegment piece) →
      ∀ piece ∈ pieces.map Text.trimChars, IsSegment piece ∧ Text.trimChars piece = piece := by
    intro pieces hpieces piece hpiece
    obtain ⟨segment, hsegment, rfl⟩ := List.mem_map.mp hpiece
    exact ⟨(hpieces segment hsegment).trimmed, Text.trimChars_trimChars segment⟩
  by_cases hblank : (Text.trimChars last).isEmpty = true
  · -- A blank last piece is dropped, and the piece before it becomes the last.
    rw [trimPieces, if_pos hblank, List.append_nil]
    obtain rfl | ⟨front, piece, rfl⟩ := List.eq_nil_or_concat front
    · exact .inl rfl
    · rw [List.concat_eq_append] at hfront ⊢
      have hpiece := hfront piece (by simp)
      refine .inr ⟨front.map Text.trimChars, Text.trimChars piece, by simp, ?_,
        hpiece.trimmed.commaFree, Text.trimChars_trimChars piece⟩
      exact htrimmed front fun other hother => hfront other (List.mem_append_left _ hother)
  · rw [trimPieces, if_neg hblank]
    exact .inr ⟨front.map Text.trimChars, Text.trimChars last, rfl, htrimmed front hfront,
      commaFree_trimChars hlast, Text.trimChars_trimChars last⟩

/-- An argument alone is one argument. -/
theorem argumentChars_of_mem
    {cs token : List Char}
    (h : token ∈ argumentChars cs)
    (hne : token ≠ []) :
    argumentChars token = [token] := by
  have htoken : Nesting.commaFree {} token = true ∧ Text.trimChars token = token := by
    rcases exists_argumentChars cs with hnil | ⟨front, last, hcs, hfront, hfree, htrimmed⟩
    · rw [hnil] at h
      cases h
    · rw [hcs, List.mem_append, List.mem_singleton] at h
      rcases h with hmem | rfl
      · exact ⟨(hfront token hmem).1.commaFree, (hfront token hmem).2⟩
      · exact ⟨hfree, htrimmed⟩
  exact @argumentChars_join_trimmed [] token (by simp) htoken.1 htoken.2 hne

/-- Arguments that are joined again come back, unless a trailing comma would be all that is left of
the last one. -/
theorem argumentChars_rejoined
    {cs : List Char}
    (h : (argumentChars cs).getLast? ≠ some []) :
    argumentChars (Text.joinChars [',', ' '] (argumentChars cs)) = argumentChars cs := by
  rcases exists_argumentChars cs with hnil | ⟨front, last, hcs, hfront, hfree, htrimmed⟩
  · rw [hnil]
    rfl
  · rw [hcs, List.getLast?_concat] at h
    rw [hcs]
    refine argumentChars_join_trimmed hfront hfree htrimmed ?_
    rintro rfl
    exact h rfl

/-- The arguments of any text, balanced or not, are its trimmed segments, the last one dropped if
it is blank; each of them is one argument when it stands alone, and together they come back when
they are joined. -/
theorem arguments_lossless
    (text : String) :
    (∃ front last,
      IsCut text.toList (front ++ [last]) ∧
      arguments text =
        (front.map Text.trimChars ++
          if Text.trimChars last = [] then [] else [Text.trimChars last]).map String.ofList) ∧
    (∀ token ∈ arguments text, token ≠ "" → arguments token = [token]) ∧
    ((arguments text).getLast? ≠ some "" →
      arguments (", ".intercalate (arguments text)) = arguments text) := by
  refine ⟨?_, ?_, ?_⟩
  · obtain ⟨front, last, hcs, hfront, hlast⟩ := exists_segments text.toList
    refine ⟨front, last, hcs ▸ isCut_of_segments hfront hlast, ?_⟩
    rw [arguments, hcs, argumentChars_join_commas hfront hlast, trimPieces]
    simp only [List.isEmpty_iff]
  · intro token htoken hne
    obtain ⟨chars, hchars, rfl⟩ := List.mem_map.mp htoken
    rw [arguments, String.toList_ofList, argumentChars_of_mem hchars]
    · rfl
    · rintro rfl
      exact hne rfl
  · intro hlast
    have hchars : (argumentChars text.toList).getLast? ≠ some [] := by
      intro hnil
      rw [arguments, List.getLast?_map, hnil] at hlast
      exact hlast rfl
    have hmap : (arguments text).map String.toList = argumentChars text.toList := by
      simp [arguments, Function.comp_def]
    rw [arguments, toList_intercalate_comma, hmap, argumentChars_rejoined hchars]
    rfl

/-- A stray closing parenthesis, an argument with nothing in it and a literal without an end. -/
theorem arguments_lossless_unbalanced :
    arguments " f(a, b)), 'x, y' ,, \x7b c: 'd,  " = ["f(a, b))", "'x, y'", "", "\x7b c: 'd,"] ∧
    arguments "\x7b c: 'd," = ["\x7b c: 'd,"] ∧
    arguments "f(a, b)), 'x, y', , \x7b c: 'd," =
      ["f(a, b))", "'x, y'", "", "\x7b c: 'd,"] := by
  have htokens : arguments " f(a, b)), 'x, y' ,, \x7b c: 'd,  " =
      ["f(a, b))", "'x, y'", "", "\x7b c: 'd,"] := by
    decide +kernel
  obtain ⟨-, halone, hjoined⟩ := arguments_lossless " f(a, b)), 'x, y' ,, \x7b c: 'd,  "
  rw [htokens] at halone hjoined
  exact ⟨htokens, halone _ (by simp) (by simp), hjoined (by simp)⟩

end Literal
end SuiteShift
