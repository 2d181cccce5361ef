import SuiteShift.CustomCommand.Callback
import SuiteShift.Proofs.CustomCommand.Declaration
import SuiteShift.Proofs.Literal.RoundTrip
import SuiteShift.Proofs.Lowering.LoneCall
import SuiteShift.Proofs.Rule.AttributeSelector
import SuiteShift.Proofs.Text.Blank
import SuiteShift.Proofs.Text.Lines

/-!
# One line of a callback, read twice

A query with a click or a check for visibility has two readers: the one that goes through the body
of a callback line by line, and the lowering of commands.

- `filter_rows`: the rows of a body of one line.
- `splitLiteral_encode`, `queryLine?_quote`: the selector of a line is read up to its closing quote.
- `QueryCall`: the two calls, as they are written, lowered and scanned.
- `lower_query`, `scanCallback_block`: what each reader makes of the line.
- `scanned_as_lowered_iff`: they agree exactly if the selector refers to no alias.
-/

namespace SuiteShift
namespace Text

/-- Rows of blanks are blank. -/
theorem isBlank_of_mem_rows
    {seen cs row : List Char}
    (hseen : ∀ c ∈ seen, isBlank c = true)
    (hcs : ∀ c ∈ cs, isBlank c = true)
    (hrow : row ∈ linesAfter seen cs) :
    ∀ c ∈ row, isBlank c = true := by
  intro c hc
  rcases mem_of_mem_linesAfter hrow hc with hmem | hmem
  · exact hseen c hmem
  · exact hcs c hmem

/-- Blank rows, trimmed, are empty. -/
theorem filter_blank_rows
    {isIdle : List Char → Bool}
    (hidle : isIdle [] = true)
    {rows : List (List Char)}
    (hrows : ∀ row ∈ rows, ∀ c ∈ row, isBlank c = true) :
    (rows.map trimChars).filter (fun row => !isIdle row) = [] := by
  rw [List.filter_eq_nil_iff]
  intro row hrow
  obtain ⟨blank, hblank, rfl⟩ := List.mem_map.mp hrow
  rw [trimChars_eq_nil (hrows blank hblank), hidle]
  simp

/-- Of the rows of one line with blanks around it, trimmed, those that are not empty: the line. -/
theorem filter_rows
    {isIdle : List Char → Bool}
    {front line rear : List Char}
    {last : Char}
    (hidle : isIdle [] = true)
    (hline : isIdle (line ++ [last]) = false)
    (htrimmed : trimChars (line ++ [last]) = line ++ [last])
    (hnewline : '\n' ∉ line ++ [last])
    (hlast : last ≠ '\r')
    (hfront : ∀ c ∈ front, isBlank c = true)
    (hrear : ∀ c ∈ rear, isBlank c = true) :
    ((lines (front ++ (line ++ [last] ++ rear))).map trimChars).filter (fun row => !isIdle row) =
      [line ++ [last]] := by
  obtain ⟨rows, seen, hrows⟩ := exists_linesAfter_append [] front
  obtain ⟨more, tail, hmore⟩ := exists_linesAfter_begun [] rear
  -- Both ends are tried on one blank, so that all their characters are blanks.
  have hspace : ∀ c ∈ [' '], isBlank c = true := List.forall_mem_singleton.mpr rfl
  have hblanks : ∀ row ∈ linesAfter [] (front ++ [' ']), ∀ c ∈ row, isBlank c = true := by
    intro row hrow
    refine isBlank_of_mem_rows (by simp) ?_ hrow
    rw [List.forall_mem_append]
    exact ⟨hfront, hspace⟩
  have hrest : ∀ row ∈ linesAfter [' '] rear, ∀ c ∈ row, isBlank c = true :=
    fun row hrow => isBlank_of_mem_rows hspace hrear hrow
  have hseen : linesAfter seen [' '] = [seen.reverse ++ [' ']] := by
    rw [linesAfter.eq_3 _ _ _ (by decide), linesAfter, if_neg (by simp), List.reverse_cons]
  have hbegun : linesAfter [' '] rear = (' ' :: more) :: tail := by
    exact hmore [' '] (.inr ⟨' ', [], rfl, by decide⟩)
  rw [hrows, hseen] at hblanks
  rw [hbegun] at hrest
  have hmiddle : linesAfter seen (line ++ [last] ++ rear) =
      (seen.reverse ++ ((line ++ [last]) ++ more)) :: tail := by
    have hkept := hmore ((line ++ [last]).reverse ++ seen)
      (.inr ⟨last, line.reverse ++ seen, by simp, hlast⟩)
    rw [linesAfter_of_not_mem hnewline]
    simpa using hkept
  have hkept : trimChars (seen.reverse ++ ((line ++ [last]) ++ more)) = line ++ [last] := by
    rw [trimChars_append, htrimmed]
    · intro c hc
      exact hblanks _ (List.mem_append_right _ List.mem_cons_self) c (List.mem_append_left _ hc)
    · intro c hc
      exact hrest _ List.mem_cons_self c (List.mem_cons_of_mem _ hc)
  rw [lines, hrows, hmiddle, List.map_append, List.filter_append, List.map_cons,
    List.filter_cons_of_pos (by rw [hkept, hline]; rfl), hkept,
    filter_blank_rows hidle fun row hrow => hblanks row (List.mem_append_left _ hrow),
    filter_blank_rows hidle fun row hrow => hrest row (List.mem_cons_of_mem _ hrow)]
  rfl

end Text

namespace CustomCommand

/-! ### The selector of a line -/

theorem splitLiteral_encodeChar
    (c : Char)
    (rest : List Char) :
    splitLiteral '\'' (Literal.encodeChar c ++ rest) =
      (splitLiteral '\'' rest).map fun (body, after) => (Literal.encodeChar c ++ body, after) := by
  unfold Literal.encodeChar
  split_ifs with hback hquote hline hreturn
  · rfl
  · rfl
  · rfl
  · rfl
  · simp only [beq_iff_eq] at hback hquote
    rw [List.singleton_append, splitLiteral.eq_3 _ _ _ (by rintro e cs rfl; exact absurd rfl hback)]
    simp [hback, hquote]

/-- The literal of a selector ends where its text ends. -/
theorem splitLiteral_encode
    (cs rest : List Char) :
    splitLiteral '\'' (Literal.encode cs ++ '\'' :: rest) = some (Literal.encode cs, rest) := by
  induction cs with
  | nil =>
      rfl
  | cons c cs ih =>
      rw [Literal.encode_cons, List.append_assoc, splitLiteral_encodeChar, ih]
      rfl

theorem selectorToken?_quote
    (s : String)
    (rest : List Char) :
    selectorToken? ((Literal.quote s).toList ++ rest) = some ((Literal.quote s).toList, rest) := by
  have hdelimiter : Literal.isDelimiter '\'' = true := by
    rfl
  rw [Literal.quote, String.toList_ofList, List.cons_append, List.cons_append, selectorToken?,
    if_pos hdelimiter, List.append_assoc, List.singleton_append, splitLiteral_encode]
  rfl

/-- A query is read with its selector, up to the dot of the call after it. -/
theorem queryLine?_quote
    (s : String)
    {call : List Char}
    (hcall : ∀ c ∈ call.head?, Text.isBlank c = false) :
    queryLine? ("cy.get(".toList ++ ((Literal.quote s).toList ++ (").".toList ++ call))) =
      some ((Literal.quote s).toList, call) := by
  have hblank : Text.dropBlanks ((Literal.quote s).toList ++ (").".toList ++ call)) =
      (Literal.quote s).toList ++ (").".toList ++ call) := by
    refine Text.dropBlanks_eq_self ?_
    rw [Literal.quote, String.toList_ofList]
    rintro c ⟨⟩
    rfl
  have hget : ∀ cs, (Text.stripStart "cy".toList ("cy.get(".toList ++ cs)).bind (fun rest =>
      (expect? "." rest).bind fun rest => expect? "get(" rest) = some cs := by
    intro cs
    rfl
  have hclose : (expect? ")" (").".toList ++ call)).bind (fun rest => expect? "." rest) =
      some call := by
    rfl
  have hread : ∀ cs, queryLine? cs =
      ((Text.stripStart "cy".toList cs).bind fun rest =>
        (expect? "." rest).bind fun rest => expect? "get(" rest).bind fun rest =>
          (selectorToken? (Text.dropBlanks rest)).bind fun (token, rest) =>
            ((expect? ")" rest).bind fun rest => expect? "." rest).bind fun rest =>
              some (token, Text.dropBlanks rest) := by
    intro cs
    simp only [queryLine?, bind, Option.bind_assoc, pure]
  rw [hread, hget, Option.bind_some, hblank, selectorToken?_quote, Option.bind_some]
  dsimp only
  rw [hclose, Option.bind_some, Text.dropBlanks, Text.dropBlanks_eq_self hcall]

/-- A selector that was written is read as the text that it was written for. -/
theorem tokenLocator_quote
    (s : String) :
    tokenLocator (Literal.quote s).toList = Rule.optimizeSelector s := by
  have hhead : ((Literal.quote s).toList.head? != some '\x60') = true := by
    rw [Literal.quote, String.toList_ofList]
    rfl
  rw [tokenLocator, Literal.isQuotedChars_quote, hhead, Literal.decode_stripChars_quote,
    String.ofList_toList]
  rfl

/-! ### The two calls -/

/-- The calls that are understood after a query. -/
inductive QueryCall where
  | click
  | visible
deriving DecidableEq

namespace QueryCall

/-- The call as source text. -/
def source : QueryCall → String
  | click => "click()"
  | visible => "should('be.visible')"

/-- The call, chained to a query. -/
def call : QueryCall → Call
  | click => ⟨"click", []⟩
  | visible => ⟨"should", [.string "be.visible"]⟩

/-- The query with the call. -/
def command (query : QueryCall) (selector : String) : Command :=
  ⟨"get", [.string selector], [query.call]⟩

/-- The query with the call, as a line. -/
def line (query : QueryCall) (selector : String) : String :=
  "cy.get(" ++ Literal.quote selector ++ ")." ++ query.source ++ ";"

/-- What the call becomes, on a locator. -/
def statement (query : QueryCall) (locator : String) : String :=
  match query with
  | click => "await " ++ locator ++ ".click()"
  | visible => "await expect(" ++ locator ++ ").toBeVisible()"

theorem statement_inj
    {query : QueryCall}
    {locator other : String} :
    query.statement locator = query.statement other ↔ locator = other := by
  cases query <;> simp [statement, ← String.toList_inj]

theorem toList_line
    (query : QueryCall)
    (selector : String) :
    (query.line selector).toList =
      "cy.get(".toList ++ ((Literal.quote selector).toList ++
        (").".toList ++ (query.source.toList ++ [';']))) := by
  simp [line]

end QueryCall

/-- The variable of an alias, or the locator of any other selector. -/
def baseOf (selector : String) : String :=
  match Rule.aliasOf? selector with
  | some name => Literal.identifier name
  | none => Rule.optimizeSelector selector

/-- How the query is lowered. -/
theorem lower_query
    (query : QueryCall)
    (selector : String) :
    (query.command selector).lower.code = query.statement (baseOf selector) := by
  have hbase : (Lowering.baseLocator (query.command selector)).result = .ok (baseOf selector) := by
    have hlocator : (Lowering.baseLocator (query.command selector)).result =
        match Rule.aliasOf? selector with
        | some name => .ok (Literal.identifier name)
        | none => .ok (Rule.optimizeSelector selector) := by
      rfl
    rw [hlocator, baseOf]
    cases Rule.aliasOf? selector <;> rfl
  have hstep : ∃ emitted : Lowering.Emitted,
      (Lowering.callOutcome (query.command selector) (baseOf selector) query.call).result =
        .ok (.statement emitted) ∧
      emitted.isEmpty = false ∧ emitted.render = query.statement (baseOf selector) := by
    cases query with
    | click =>
        refine ⟨.code (baseOf selector ++ "." ++ "click" ++ "(" ++ "" ++ ")") true, rfl,
          Lowering.Emitted.isEmpty_code _ (by simp), ?_⟩
        simp [Lowering.Emitted.render, Lowering.Emitted.suspends, Lowering.Emitted.text,
          QueryCall.statement, ← String.toList_inj]
    | visible =>
        refine ⟨.code ("expect(" ++ baseOf selector ++ ")." ++ "toBeVisible" ++ "(" ++ "" ++ ")")
          true, rfl, Lowering.Emitted.isEmpty_code _ (by simp), ?_⟩
        simp [Lowering.Emitted.render, Lowering.Emitted.suspends, Lowering.Emitted.text,
          QueryCall.statement, ← String.toList_inj]
  obtain ⟨emitted, hstep, hnonempty, hrender⟩ := hstep
  have hfirst : Rule.mustRunFirst (query.command selector).name = false := by
    rfl
  have halone := Lowering.lone_of_ok
    ((Lowering.result_loneStep hfirst).mpr ⟨_, hbase, hstep⟩) rfl rfl hfirst (.inr rfl)
  rw [Command.lower, halone.1, ← hrender]
  simp [Lowering.finish, Lowering.joinStatements, Lowering.Applied.alone, hnonempty]

/-! ### The line in a callback -/

/-- How the line is scanned. -/
theorem lineStatement?_query
    (query : QueryCall)
    (selector : String) :
    lineStatement? (query.line selector).toList =
      some (query.statement (Rule.optimizeSelector selector) ++ ";") := by
  have hcall : ∀ c ∈ (query.source.toList ++ [';']).head?, Text.isBlank c = false := by
    cases query <;> rintro c ⟨⟩ <;> rfl
  rw [query.toList_line, lineStatement?, queryLine?_quote selector hcall]
  dsimp only
  rw [tokenLocator_quote]
  cases query with
  | click =>
      have hcheck : isVisibleCheck (QueryCall.click.source.toList ++ [';']) = false := by
        decide
      have hclick : isClick (QueryCall.click.source.toList ++ [';']) = true := by
        decide
      rw [hcheck, hclick, if_neg (by simp), if_pos rfl, QueryCall.statement]
      simp [← String.toList_inj]
  | visible =>
      have hcheck : isVisibleCheck (QueryCall.visible.source.toList ++ [';']) = true := by
        decide
      rw [hcheck, if_pos rfl, QueryCall.statement]
      simp [← String.toList_inj]

/-- A callback with a block around one line: no braces among its parameters, blanks around the line,
and no closing brace behind that of the block. -/
def IsBlockAround (line callback : List Char) : Prop :=
  ∃ params front rear after,
    callback = params ++ '\x7b' :: (front ++ (line ++ rear) ++ '\x7d' :: after) ∧
    '\x7b' ∉ params ∧ '\x7d' ∉ after ∧
    (∀ c ∈ front, Text.isBlank c = true) ∧ ∀ c ∈ rear, Text.isBlank c = true

theorem callbackBody_block
    {params inside after : List Char}
    (hparams : '\x7b' ∉ params)
    (hafter : '\x7d' ∉ after) :
    callbackBody (params ++ '\x7b' :: (inside ++ '\x7d' :: after)) = inside := by
  have hskip : ∀ {brace : Char} {cs : List Char}, brace ∉ cs → ∀ rest,
      (cs ++ brace :: rest).dropWhile (· != brace) = brace :: rest := by
    intro brace cs hcs rest
    rw [List.dropWhile_append_of_pos, List.dropWhile_cons_of_neg (by simp)]
    intro c hc
    rw [bne_iff_ne]
    rintro rfl
    exact hcs hc
  have hlast : beforeLastBrace? (inside ++ '\x7d' :: after) = some inside := by
    have hreverse : (inside ++ '\x7d' :: after).reverse =
        after.reverse ++ '\x7d' :: inside.reverse := by
      simp
    rw [beforeLastBrace?, hreverse, hskip (fun hmem => hafter (List.mem_reverse.mp hmem))]
    simp
  rw [callbackBody, hskip hparams]
  dsimp only
  rw [hlast]

/-- Of a block around one line, the scan gives the statement of this line and skips nothing. -/
theorem scanCallback_block
    {query : QueryCall}
    {selector : String}
    {callback : List Char}
    (h : IsBlockAround (query.line selector).toList callback) :
    scanCallback callback =
      { statements := [query.statement (Rule.optimizeSelector selector) ++ ";"]
        skipped := [] } := by
  obtain ⟨params, front, rear, after, rfl, hparams, hafter, hfront, hrear⟩ := h
  obtain ⟨init, hinit⟩ : ∃ init, (query.line selector).toList = init ++ [';'] := by
    rw [query.toList_line]
    simp only [← List.append_assoc]
    exact ⟨_, rfl⟩
  have hhead : ∃ cs, (query.line selector).toList = 'c' :: 'y' :: cs := by
    exact ⟨_, query.toList_line selector⟩
  have hnewline : '\n' ∉ (query.line selector).toList := by
    have hquote := Literal.not_mem_quote (.inl rfl) selector
    rw [query.toList_line]
    cases query <;> simp [QueryCall.source, hquote]
  have htrimmed : Text.trimChars (query.line selector).toList = (query.line selector).toList := by
    refine Text.trimChars_eq_self ?_ ?_
    · obtain ⟨cs, hcs⟩ := hhead
      rw [hcs]
      rintro c ⟨⟩
      rfl
    · rw [hinit, List.getLast?_concat]
      rintro c ⟨⟩
      rfl
  have hbusy : isIdleLine (query.line selector).toList = false := by
    obtain ⟨cs, hcs⟩ := hhead
    rw [hcs]
    simp [isIdleLine, Text.startsWith, Text.stripStart, ← String.toList_inj]
  have hrows : ((Text.lines (callbackBody (params ++
      '\x7b' :: (front ++ ((query.line selector).toList ++ rear) ++ '\x7d' :: after)))).map
        Text.trimChars).filter (fun row => !isIdleLine row) = [(query.line selector).toList] := by
    rw [callbackBody_block hparams hafter]
    rw [hinit] at hbusy htrimmed hnewline ⊢
    exact Text.filter_rows rfl hbusy htrimmed hnewline (by decide) hfront hrear
  rw [scanCallback, hrows]
  simp [lineStatement?_query]

/-! ### Both readers -/

theorem paren_mem_optimizeSelector
    (selector : String) :
    '(' ∈ (Rule.optimizeSelector selector).toList := by
  cases hlocator : Rule.semanticLocator? (Text.trimChars selector.toList) with
  | some found =>
      rw [Rule.optimizeSelector_of_some hlocator]
      simp [Rule.locatorCall]
  | none =>
      rw [Rule.optimizeSelector_of_none hlocator]
      simp [Rule.locatorCall]

/-- The variable of an alias is no locator. -/
theorem optimizeSelector_eq_baseOf_iff
    {selector : String} :
    Rule.optimizeSelector selector = baseOf selector ↔ Rule.aliasOf? selector = none := by
  unfold baseOf
  cases halias : Rule.aliasOf? selector with
  | none =>
      simp
  | some name =>
      refine iff_of_false ?_ (by simp)
      intro heq
      have hparen := paren_mem_optimizeSelector selector
      rw [heq] at hparen
      exact not_mem_identifier (by decide) name hparen

/-- Of a block around a query with a click or a check for visibility, the scan skips nothing and
gives one statement, the call on the locator for the selector. This is how the command is lowered
exactly if the selector is not the name of an alias. -/
theorem scanned_as_lowered_iff
    {query : QueryCall}
    {selector : String}
    {callback : List Char}
    (h : IsBlockAround (query.line selector).toList callback) :
    (scanCallback callback).skipped = [] ∧
    (scanCallback callback).statements =
      [query.statement (Rule.optimizeSelector selector) ++ ";"] ∧
    ((scanCallback callback).statements = [(query.command selector).lower.code ++ ";"] ↔
      selector.toList.head? ≠ some '@') := by
  have halias : Rule.aliasOf? selector = none ↔ selector.toList.head? ≠ some '@' := by
    unfold Rule.aliasOf?
    split
    · next name hname =>
        simp [hname]
    · next hname =>
        refine iff_of_true rfl ?_
        intro hhead
        obtain ⟨name, hcons⟩ := List.head?_eq_some_iff.mp hhead
        exact hname name hcons
  rw [scanCallback_block h]
  refine ⟨rfl, rfl, ?_⟩
  rw [lower_query, List.cons.injEq, String.append_left_inj, QueryCall.statement_inj,
    optimizeSelector_eq_baseOf_iff, halias]
  simp

/-- A selector with quotes, a brace and a backslash, in a function on several lines. -/
theorem scanned_as_lowered_iff_quote :
    IsBlockAround (QueryCall.click.line "a[title='\x7d\\']").toList
      "function () \x7b\n  cy.get('a[title=\\'\x7d\\\\\\']').click();\n\x7d".toList ∧
    (scanCallback
        "function () \x7b\n  cy.get('a[title=\\'\x7d\\\\\\']').click();\n\x7d".toList).statements =
      ["await page.locator('a[title=\\'\x7d\\\\\\']').click();"] ∧
    (Command.lower ⟨"get", [.string "a[title='\x7d\\']"], [⟨"click", []⟩]⟩).code =
      "await page.locator('a[title=\\'\x7d\\\\\\']').click()" := by
  have hblock : IsBlockAround (QueryCall.click.line "a[title='\x7d\\']").toList
      "function () \x7b\n  cy.get('a[title=\\'\x7d\\\\\\']').click();\n\x7d".toList := by
    exact ⟨"function () ".toList, "\n  ".toList, ['\n'], [], by decide, by decide, by decide,
      List.all_eq_true.mp (by decide), List.all_eq_true.mp (by decide)⟩
  have hlocator : QueryCall.click.statement (Rule.optimizeSelector "a[title='\x7d\\']") =
      "await page.locator('a[title=\\'\x7d\\\\\\']').click()" := by
    decide
  obtain ⟨-, hscanned, hsame⟩ := scanned_as_lowered_iff hblock
  have hlowered := hsame.mpr (by decide)
  rw [hscanned, hlocator, List.cons.injEq, String.append_left_inj] at hlowered
  refine ⟨hblock, ?_, hlowered.1.symm⟩
  rw [hscanned, hlocator]
  rfl

/-- An alias is scanned as a selector. -/
theorem alias_scanned_as_selector :
    (scanCallback "() => \x7b\n  cy.get('@submit').click();\n\x7d".toList).statements =
      ["await page.locator('@submit').click();"] ∧
    (Command.lower ⟨"get", [.string "@submit"], [⟨"click", []⟩]⟩).code = "await submit.click()" ∧
    ¬ ∀ (query : QueryCall) (selector : String) (callback : List Char),
      IsBlockAround (query.line selector).toList callback →
      (scanCallback callback).statements = [(query.command selector).lower.code ++ ";"] := by
  have hscanned :
      (scanCallback "() => \x7b\n  cy.get('@submit').click();\n\x7d".toList).statements =
        ["await page.locator('@submit').click();"] := by
    decide
  have hlowered : (Command.lower ⟨"get", [.string "@submit"], [⟨"click", []⟩]⟩).code =
      "await submit.click()" := by
    decide
  refine ⟨hscanned, hlowered, ?_⟩
  intro h
  have hblock : IsBlockAround (QueryCall.click.line "@submit").toList
      "() => \x7b\n  cy.get('@submit').click();\n\x7d".toList := by
    exact ⟨"() => ".toList, "\n  ".toList, ['\n'], [], by decide, by decide, by decide,
      List.all_eq_true.mp (by decide), List.all_eq_true.mp (by decide)⟩
  have hsame := h _ _ _ hblock
  rw [hscanned] at hsame
  revert hsame
  decide

end CustomCommand
end SuiteShift
