import SuiteShift.Proofs.CustomCommand.Declaration
import SuiteShift.Proofs.CustomCommand.Rebinding
import SuiteShift.Proofs.CustomCommand.RegistrationText

/-!
# The page and the names of the user

A helper function has the page as its first parameter, and a method has it as a member of its
object. Neither looks at the names that the user chose.

- `boundNames`: the names that the signature of generated code binds.
- `lines_ofSnippet?`: the lines of a body, statement by statement.
- `placedText`: what becomes of a piece of a command's code in the generated function.
- `user_names_kept_iff`: the names are distinct exactly if none of them is the page of a helper
  function. A piece of a command's code, as the text of an argument is, is kept in its place exactly
  if it has one line and, in a method, the page is not named in it.
-/

namespace SuiteShift
namespace CustomCommand

/-! ### Generated functions -/

/-- A generated function: what stands before its name, the name, parameters with their types, and
lines. -/
def functionCode (word name : String) (params lines : List String) : String :=
  word ++ name ++ "(" ++ ", ".intercalate params ++ "): Promise<void> \x7b\n" ++
    indentLines ("\n".intercalate lines) ++ "\n\x7d"

/-- A parameter without a type. -/
def anyParameter (param : String) : String :=
  param ++ ": any"

theorem parameterList_ne_empty
    (param : String)
    (params : List String) :
    parameterList (param :: params) ≠ "" := by
  rw [parameterList, List.map_cons, String.intercalate_cons_append]
  intro hempty
  have hrest := (String.append_eq_empty_iff.mp hempty).2
  cases params with
  | nil =>
      exact absurd hrest (by decide)
  | cons next params =>
      rw [List.map_cons, String.intercalate_cons_cons] at hrest
      have hmark := (String.append_eq_empty_iff.mp (String.append_eq_empty_iff.mp hrest).1).1
      exact absurd hmark (by decide)

theorem intercalate_page
    (params : List String) :
    ", ".intercalate ("page: Page" :: params.map anyParameter) =
      "page: Page" ++ afterComma (parameterList params) := by
  cases params with
  | nil =>
      rfl
  | cons param params =>
      rw [afterComma, if_neg (by simpa using parameterList_ne_empty param params), List.map_cons,
        String.intercalate_cons_cons, String.append_assoc]
      rfl

theorem helperFunction_eq
    (name function : String)
    (params : List String)
    (body : Lowered) :
    (helperFunction name function (parameterList params) body).code =
      functionCode "export async function " function
        ("page: Page" :: params.map anyParameter) body.lines := by
  have hopen : "(page: Page" = "(" ++ "page: Page" := by
    rfl
  rw [functionCode, intercalate_page, helperFunction, hopen]
  simp only [String.append_assoc]

theorem pageObjectMethod_eq
    (name function : String)
    (params : List String)
    (body : Lowered) :
    (pageObjectMethod name function (parameterList params) body).code =
      functionCode "async " function (params.map anyParameter) (body.lines.map rebindPage) := by
  rfl

/-! ### The signature -/

/-- The names that the parameter list of some code binds. -/
def boundNames (code : String) : List String :=
  match Literal.parenthesized? (code.toList.dropWhile (· != '(')) with
  | some (inside, _) =>
    (Literal.argumentChars inside).map fun param => String.ofList (parameterName param)
  | none => []

/-- A parameter in a list of them. -/
structure IsParameter (param : List Char) : Prop where
  passedOver : Literal.PassedOver param
  isArgument : Literal.IsArgument param

/-- A name with a type is a parameter. -/
theorem isParameter_append
    {name mark : List Char}
    (h : IsBinding name)
    (hmark : Literal.PassedOver mark)
    (hne : mark ≠ [])
    (hlast : ∀ c ∈ mark.getLast?, Text.isBlank c = false) :
    IsParameter (name ++ mark) := by
  obtain ⟨hback, hstray, hcomma⟩ := Literal.scan_plain h.isPlain
  have hpassed : Literal.PassedOver (name ++ mark) :=
    Literal.PassedOver.append ⟨hback, hstray, hcomma⟩ hmark
  obtain ⟨first, rest, rfl⟩ := List.exists_cons_of_ne_nil h.nonempty
  obtain ⟨colon, type, rfl⟩ := List.exists_cons_of_ne_nil hne
  refine ⟨hpassed, hpassed.isArgument (by simp) (Text.trimChars_eq_self ?_ ?_)⟩
  · rintro c ⟨⟩
    have hplain := h.isPlain first List.mem_cons_self
    simp only [Literal.isPlain, Bool.not_eq_true', Bool.or_eq_false_iff] at hplain
    exact hplain.2
  · intro c hc
    rw [List.getLast?_append_cons] at hc
    exact hlast c hc

theorem toList_functionCode
    (word name : String)
    (params lines : List String) :
    ∃ rest, (functionCode word name params lines).toList =
      (word ++ name).toList ++
        ('(' :: Text.joinChars [',', ' '] (params.map String.toList) ++ ')' :: rest) := by
  refine ⟨": Promise<void> \x7b\n".toList ++
    (indentLines ("\n".intercalate lines)).toList ++ "\n\x7d".toList, ?_⟩
  have hopen : "(".toList = ['('] := by
    rfl
  have hclose : "): Promise<void> \x7b\n".toList = ')' :: ": Promise<void> \x7b\n".toList := by
    decide +kernel
  have hparams : (", ".intercalate params).toList =
      Text.joinChars [',', ' '] (params.map String.toList) := by
    rw [String.toList_intercalate, Text.joinChars_eq_intercalate]
    rfl
  rw [functionCode]
  simp only [String.toList_append, hopen, hclose, hparams, List.append_assoc, List.cons_append,
    List.nil_append]

/-- Code binds the names of its parameters. -/
theorem boundNames_functionCode
    {word : String}
    {params : List String}
    (hword : '(' ∉ word.toList)
    (hparams : ∀ param ∈ params, IsParameter param.toList)
    (name : String)
    (lines : List String) :
    boundNames (functionCode word (Literal.identifier name) params lines) =
      params.map fun param => String.ofList (parameterName param.toList) := by
  have hnested : Literal.WellNested (Text.joinChars [',', ' '] (params.map String.toList)) := by
    refine Literal.wellNested_join ?_
    intro param hparam
    obtain ⟨text, htext, rfl⟩ := List.mem_map.mp hparam
    exact (hparams text htext).passedOver.wellNested
  have harguments : Literal.argumentChars
      (Text.joinChars [',', ' '] (params.map String.toList)) = params.map String.toList := by
    refine Literal.argumentChars_join ?_
    intro param hparam
    obtain ⟨text, htext, rfl⟩ := List.mem_map.mp hparam
    exact (hparams text htext).isArgument
  obtain ⟨rest, hcode⟩ := toList_functionCode word (Literal.identifier name) params lines
  have hfront : ∀ c ∈ (word ++ Literal.identifier name).toList, (c != '(') = true := by
    intro c hc
    rw [bne_iff_ne]
    rintro rfl
    rw [String.toList_append, List.mem_append] at hc
    rcases hc with hc | hc
    · exact hword hc
    · exact not_mem_identifier (by decide) name hc
  rw [boundNames, hcode, List.dropWhile_append_of_pos hfront, List.cons_append,
    List.dropWhile_cons_of_neg (by simp), ← List.cons_append,
    Literal.parenthesized?_of_wellNested hnested]
  dsimp only
  rw [harguments, List.map_map]
  rfl

section Parameters

variable {params : List String}

theorem isParameter_anyParameter
    (h : ∀ param ∈ params, IsBinding param.toList) :
    ∀ param ∈ params.map anyParameter, IsParameter param.toList := by
  intro param hparam
  obtain ⟨name, hname, rfl⟩ := List.mem_map.mp hparam
  rw [anyParameter, String.toList_append]
  refine isParameter_append (h name hname) (by decide) (by decide) ?_
  rintro c ⟨⟩
  rfl

theorem map_parameterName_anyParameter
    (h : ∀ param ∈ params, IsBinding param.toList) :
    (params.map anyParameter).map (fun param => String.ofList (parameterName param.toList)) =
      params := by
  conv_rhs => rw [← List.map_id params]
  rw [List.map_map]
  refine List.map_congr_left ?_
  intro param hparam
  have hname : parameterName (param.toList ++ ": any".toList) = param.toList := by
    refine (h param hparam).parameterName_append ?_
    rintro c ⟨⟩
    rfl
  rw [Function.comp_apply, anyParameter, String.toList_append, hname, String.ofList_toList]
  rfl

/-- A helper function binds the page and the names of the user. -/
theorem boundNames_helperFunction
    (h : ∀ param ∈ params, IsBinding param.toList)
    (name other : String)
    (body : Lowered) :
    boundNames (helperFunction other (Literal.identifier name) (parameterList params) body).code =
      "page" :: params := by
  have hparams : ∀ param ∈ "page: Page" :: params.map anyParameter, IsParameter param.toList := by
    intro param hparam
    rcases List.mem_cons.mp hparam with rfl | hparam
    · exact ⟨by decide, ⟨by decide, by decide, by decide, by decide⟩⟩
    · exact isParameter_anyParameter h param hparam
  rw [helperFunction_eq, boundNames_functionCode (by decide) hparams, List.map_cons,
    map_parameterName_anyParameter h]
  rfl

/-- A method binds the names of the user. -/
theorem boundNames_pageObjectMethod
    (h : ∀ param ∈ params, IsBinding param.toList)
    (name other : String)
    (body : Lowered) :
    boundNames (pageObjectMethod other (Literal.identifier name) (parameterList params) body).code =
      params := by
  rw [pageObjectMethod_eq, boundNames_functionCode (by decide) (isParameter_anyParameter h),
    map_parameterName_anyParameter h]

end Parameters

/-! ### The lines of a body -/

/-- The line of a statement; a command without code has none. -/
def lineOf : Statement → List String
  | .command command _ =>
    if command.lower.code.isEmpty then [] else [command.lower.code ++ ";"]
  | .raw text _ => [text]

theorem lines_addStatement
    {branching : Bool}
    {body next : Lowered}
    {statement : Statement}
    (h : Lowered.addStatement branching body statement = some next) :
    next.lines = body.lines ++ lineOf statement := by
  cases statement with
  | command command span =>
      rw [Lowered.addStatement] at h
      split_ifs at h
      cases h
      rw [Lowered.addCommand, lineOf]
      dsimp only
      split_ifs
      · rw [List.append_nil]
      · rfl
  | raw text span =>
      rw [Lowered.addStatement] at h
      split_ifs at h
      cases h
      rfl

/-- The lines of a body come one statement after the other. -/
theorem lines_ofSnippet?
    {snippet : Snippet}
    {body : Lowered}
    (h : Lowered.ofSnippet? snippet = some body) :
    body.lines = snippet.statements.flatMap lineOf := by
  have hall : ∀ (statements : List Statement) (start : Lowered),
      statements.foldlM (Lowered.addStatement snippet.branching) start = some body →
        body.lines = start.lines ++ statements.flatMap lineOf := by
    intro statements
    induction statements with
    | nil =>
        intro start hstart
        cases hstart
        simp
    | cons statement statements ih =>
        intro start hstart
        rw [List.foldlM_cons, Option.bind_eq_bind, Option.bind_eq_some_iff] at hstart
        obtain ⟨next, hnext, hrest⟩ := hstart
        rw [ih next hrest, lines_addStatement hnext, List.flatMap_cons, List.append_assoc]
  have hlines := hall snippet.statements {} h
  rwa [List.nil_append] at hlines

theorem mem_lines_of_command
    {snippet : Snippet}
    {body : Lowered}
    {command : Command}
    {span : Span}
    (h : Lowered.ofSnippet? snippet = some body)
    (hcommand : .command command span ∈ snippet.statements)
    (hcode : command.lower.code ≠ "") :
    command.lower.code ++ ";" ∈ body.lines := by
  rw [lines_ofSnippet? h, List.mem_flatMap]
  refine ⟨.command command span, hcommand, ?_⟩
  rw [lineOf, if_neg (by simpa using hcode)]
  exact List.mem_singleton_self _

/-! ### Pieces of a line -/

/-- Indented lines with the line end after the last one. -/
theorem indentLines_append_newline
    {code : String}
    (hne : Text.lines code.toList ≠ []) :
    (indentLines code).toList ++ ['\n'] = Text.indented 1 (Text.lines code.toList) := by
  have hrow : (fun row : List Char => if row.isEmpty then row else ' ' :: ' ' :: row) =
      Text.indentLine 1 := by
    funext row
    cases row <;> rfl
  rw [toList_indentLines, hrow, Text.joinChars_append_sep (by simpa using hne), List.flatMap_map]
  rfl

/-- A piece of a line stands in the generated function, its lines but the first indented. -/
theorem exists_functionCode_eq
    {lines : List String}
    {line : String}
    {before text after : List Char}
    (hline : line ∈ lines)
    (hpieces : line.toList = before ++ text ++ after)
    (h : Text.IsRun text)
    (word name : String)
    (params : List String) :
    ∃ front back, functionCode word name params lines =
      front ++ String.ofList (Text.reindent 1 text) ++ back := by
  obtain ⟨above, below, hcode⟩ :=
    occursIn_iff.mp (occursIn_intercalate hline (occursIn_self line) "\n")
  have hbody : ("\n".intercalate lines).toList =
      (above.toList ++ before) ++ text ++ (after ++ below.toList) := by
    rw [hcode, String.toList_append, String.toList_append, hpieces]
    simp only [List.append_assoc]
  have hne : Text.lines ("\n".intercalate lines).toList ≠ [] := by
    obtain ⟨rows, seen, hrows⟩ := Text.exists_linesAfter_append [] (above.toList ++ before)
    obtain ⟨c, more, rest, -, hmore⟩ := h.exists_linesAfter (after ++ below.toList)
    rw [hbody, List.append_assoc, Text.lines, hrows, hmore]
    simp
  obtain ⟨front, back, hplace⟩ :=
    Text.exists_indented_run 1 (above.toList ++ before) (after ++ below.toList)
  have hindented := indentLines_append_newline hne
  rw [hbody, hplace text h] at hindented
  have hend : "\n\x7d".toList = ['\n'] ++ ['\x7d'] := by
    decide +kernel
  refine ⟨word ++ name ++ "(" ++ ", ".intercalate params ++ "): Promise<void> \x7b\n" ++
    String.ofList front, String.ofList (back ++ ['\x7d']), ?_⟩
  rw [← String.toList_inj, functionCode]
  simp only [String.toList_append, String.toList_ofList, List.append_assoc, hend]
  rw [← List.append_assoc (indentLines _).toList, hindented]
  simp only [List.append_assoc]

/-! ### Whole definitions -/

/-- The imports of a function change neither its shape nor its code. -/
theorem foldl_require_kept
    (lines : List String)
    (c : Classification) :
    (lines.foldl Classification.require c).strategy = c.strategy ∧
      (lines.foldl Classification.require c).code = c.code := by
  induction lines generalizing c with
  | nil =>
      exact ⟨rfl, rfl⟩
  | cons line lines ih =>
      rw [List.foldl_cons, Classification.require]
      split_ifs
      · exact ih c
      · exact ih _

/-- A definition whose body is lowered becomes a stub, a method or a helper function. -/
theorem lowerDefinition_cases
    {definition : Definition}
    {snippet : Snippet}
    {c : Classification}
    (hsnippet : Snippet.ofSource definition.body = .ok snippet)
    (h : lowerDefinition definition = .ok (some c)) :
    ∃ body, Lowered.ofSnippet? snippet = some body ∧
      (c.strategy = .manual ∨
        c.strategy = .pageObject ∧
          c.code = (pageObjectMethod definition.name (Literal.identifier definition.name)
            (parameterList definition.parameters) body).code ∨
        c.strategy = .utility ∧
          c.code = (helperFunction definition.name (Literal.identifier definition.name)
            (parameterList definition.parameters) body).code) := by
  rw [lowerDefinition, hsnippet] at h
  obtain ⟨body, hbody, rfl⟩ := Option.map_eq_some_iff.mp (Except.ok.inj h)
  refine ⟨body, hbody, ?_⟩
  unfold shapeBody
  dsimp only
  rw [(foldl_require_kept _ _).1, (foldl_require_kept _ _).2]
  split_ifs
  · exact .inl rfl
  · exact .inr (.inl ⟨rfl, rfl⟩)
  · exact .inr (.inr ⟨rfl, rfl⟩)

/-- What becomes of a piece of a command's code: a method has the page as a member, and lines but
the first are indented. -/
def placedText (strategy : Strategy) (before piece after : String) : List Char :=
  Text.reindent 1
    (if strategy = .pageObject then
      rebound (Scan.run {} before.toList) (after.toList ++ [';']) piece.toList
    else piece.toList)

/-- The page is named in a piece of a command's code where a method has it as a member. -/
def NamesPage (before piece after : String) : Prop :=
  HasReceiver (Scan.run {} before.toList) piece.toList (after.toList ++ [';'])

theorem toList_rebindPage
    (before piece after : String) :
    (rebindPage (before ++ piece ++ after ++ ";")).toList =
      rebound {} (piece.toList ++ (after.toList ++ [';'])) before.toList ++
        rebound (Scan.run {} before.toList) (after.toList ++ [';']) piece.toList ++
        rebindAfter ((Scan.run {} before.toList).run piece.toList).state
          ((Scan.run {} before.toList).run piece.toList).before (after.toList ++ [';']) := by
  have hline : (before ++ piece ++ after ++ ";").toList =
      before.toList ++ (piece.toList ++ (after.toList ++ [';'])) := by
    simp
  rw [rebindPage, String.toList_ofList, hline]
  have hsplit := rebindAfter_append {} before.toList (piece.toList ++ (after.toList ++ [';']))
  rw [rebindAfter_append _ piece.toList] at hsplit
  rw [List.append_assoc]
  exact hsplit

section Lowered

variable {definition : Definition} {snippet : Snippet} {c : Classification}
variable {command : Command} {span : Span} {before piece after : String}

theorem exists_code_eq
    (hsnippet : Snippet.ofSource definition.body = .ok snippet)
    (h : lowerDefinition definition = .ok (some c))
    (hstrategy : c.strategy = .utility ∨ c.strategy = .pageObject)
    (hcommand : .command command span ∈ snippet.statements)
    (hcode : command.lower.code = before ++ piece ++ after)
    (hpiece : Text.IsRun piece.toList) :
    ∃ front back,
      c.code = front ++ String.ofList (placedText c.strategy before piece after) ++ back := by
  obtain ⟨body, hbody, hcases⟩ := lowerDefinition_cases hsnippet h
  have hne : command.lower.code ≠ "" := by
    intro hempty
    rw [hempty, eq_comm, String.append_eq_empty_iff, String.append_eq_empty_iff] at hcode
    exact hpiece.nonempty (String.toList_eq_nil_iff.mpr hcode.1.2)
  have hline := mem_lines_of_command hbody hcommand hne
  rw [hcode] at hline
  rcases hcases with hmanual | ⟨hmethod, hcode⟩ | ⟨hhelper, hcode⟩
  · rw [hmanual] at hstrategy
    simp at hstrategy
  · rw [hcode, pageObjectMethod_eq, placedText, if_pos hmethod]
    exact exists_functionCode_eq (List.mem_map_of_mem hline) (toList_rebindPage before piece after)
      (isRun_rebound hpiece _ _) _ _ _
  · rw [hcode, helperFunction_eq, placedText, if_neg (by rw [hhelper]; decide)]
    have hpieces : (before ++ piece ++ after ++ ";").toList =
        before.toList ++ piece.toList ++ (after.toList ++ [';']) := by
      simp
    exact exists_functionCode_eq hline hpieces hpiece _ _ _

theorem placedText_eq_self_iff
    (hpiece : Text.IsRun piece.toList)
    (strategy : Strategy) :
    placedText strategy before piece after = piece.toList ↔
      '\n' ∉ piece.toList ∧ (strategy = .pageObject → ¬ NamesPage before piece after) := by
  unfold placedText
  split_ifs with hmethod
  · rw [reindent_rebound_eq_self_iff Nat.one_pos hpiece]
    simp [hmethod, NamesPage]
  · rw [hpiece.reindent_eq_self_iff Nat.one_pos]
    simp [hmethod]

theorem boundNames_eq
    (hparams : ∀ param ∈ definition.parameters, IsBinding param.toList)
    (hsnippet : Snippet.ofSource definition.body = .ok snippet)
    (h : lowerDefinition definition = .ok (some c))
    (hstrategy : c.strategy = .utility ∨ c.strategy = .pageObject) :
    boundNames c.code =
      (if c.strategy = .utility then ["page"] else []) ++ definition.parameters := by
  obtain ⟨body, -, hcases⟩ := lowerDefinition_cases hsnippet h
  rcases hcases with hmanual | ⟨hmethod, hcode⟩ | ⟨hhelper, hcode⟩
  · rw [hmanual] at hstrategy
    simp at hstrategy
  · rw [hcode, boundNames_pageObjectMethod hparams, hmethod]
    rfl
  · rw [hcode, boundNames_helperFunction hparams, hhelper]
    rfl

end Lowered

/-- The names in the signature of a generated function are distinct exactly if no parameter has the
name that a helper function gives to the page. A piece of a command's code, as the text of an
argument is, stands in the function as it was written exactly if it has one line and, in a method,
does not name the page. -/
theorem user_names_kept_iff
    {definition : Definition}
    {snippet : Snippet}
    {c : Classification}
    (hparams : ∀ param ∈ definition.parameters, IsBinding param.toList)
    (hdistinct : definition.parameters.Nodup)
    (hsnippet : Snippet.ofSource definition.body = .ok snippet)
    (h : lowerDefinition definition = .ok (some c))
    (hstrategy : c.strategy = .utility ∨ c.strategy = .pageObject) :
    boundNames c.code =
      (if c.strategy = .utility then ["page"] else []) ++ definition.parameters ∧
    ((boundNames c.code).Nodup ↔ (c.strategy = .utility → "page" ∉ definition.parameters)) ∧
    ∀ command span, Statement.command command span ∈ snippet.statements →
      ∀ before piece after, command.lower.code = before ++ piece ++ after →
        Text.IsRun piece.toList →
        (∃ front back,
          c.code = front ++ String.ofList (placedText c.strategy before piece after) ++ back) ∧
        (placedText c.strategy before piece after = piece.toList ↔
          '\n' ∉ piece.toList ∧
            (c.strategy = .pageObject → ¬ NamesPage before piece after)) := by
  have hnames := boundNames_eq hparams hsnippet h hstrategy
  refine ⟨hnames, ?_, ?_⟩
  · rw [hnames]
    split_ifs with hhelper
    · simp [hhelper, hdistinct]
    · simp [hhelper, hdistinct]
  · intro command span hcommand before piece after hcode hpiece
    exact ⟨exists_code_eq hsnippet h hstrategy hcommand hcode hpiece,
      placedText_eq_self_iff hpiece c.strategy⟩

/-! ### Bodies of commands -/

/-- The commands of a body without choices that holds nothing else. -/
def commandsOf? (definition : Definition) : Option (List Command) :=
  match Snippet.ofSource definition.body with
  | .ok snippet => if snippet.branching then none else snippet.statements.mapM Statement.command?
  | .error _ => none

theorem exists_span_of_command?
    {statement : Statement}
    {command : Command}
    (h : statement.command? = some command) :
    ∃ span, statement = .command command span := by
  cases statement with
  | command other span =>
      cases h
      exact ⟨span, rfl⟩
  | raw text span =>
      cases h

theorem exists_snippet_of_commands
    {definition : Definition}
    {commands : List Command}
    (h : commandsOf? definition = some commands) :
    ∃ snippet,
      Snippet.ofSource definition.body = .ok snippet ∧
      snippet.branching = false ∧
      List.Forall₂ (fun statement command => ∃ span, statement = Statement.command command span)
        snippet.statements commands := by
  unfold commandsOf? at h
  split at h
  · next snippet hsnippet =>
      split_ifs at h with hbranching
      refine ⟨snippet, hsnippet, by simpa using hbranching, ?_⟩
      exact (Failure.mapM_eq_some_iff.mp h).imp fun _ _ => exists_span_of_command?
  · cases h

/-- Where a command stands does not matter to the lowering of a body. -/
theorem lowerDefinition_of_commands
    {definition : Definition}
    {commands : List Command}
    (h : commandsOf? definition = some commands) :
    lowerDefinition definition =
      .ok ((commands.foldlM (fun body command =>
        Lowered.addStatement false body (.command command default)) {}).map
          (shapeBody definition false)) := by
  obtain ⟨snippet, hsnippet, hbranching, hall⟩ := exists_snippet_of_commands h
  have hfold : ∀ body, snippet.statements.foldlM (Lowered.addStatement false) body =
      commands.foldlM (fun body command =>
        Lowered.addStatement false body (.command command default)) body := by
    clear h hsnippet
    generalize snippet.statements = statements at hall
    induction hall with
    | nil =>
        intro body
        rfl
    | cons hstatement _ ih =>
        intro body
        obtain ⟨span, rfl⟩ := hstatement
        rw [List.foldlM_cons, List.foldlM_cons]
        exact congrArg (Lowered.addStatement false body _ >>= ·) (funext ih)
  rw [lowerDefinition, hsnippet]
  dsimp only
  rw [Lowered.ofSnippet?, hbranching, hfold]

/-- A definition that types a text made from its parameter, and clicks twice. -/
def typingDefinition (param : String) : Definition :=
  { name := "fillForm"
    parameters := [param]
    body := "cy.get('#a').type(String(" ++ param ++ "));\ncy.get('#b').click();\n" ++
      "cy.get('#c').click();" }

/-- The command that types it. -/
def typingCommand (param : String) : Command :=
  ⟨"get", [.string "#a"], [⟨"type", [.raw ("String(" ++ param ++ ")")]⟩]⟩

/-- A command that clicks an element. -/
def clickCommand (selector : String) : Command :=
  ⟨"get", [.string selector], [⟨"click", []⟩]⟩

theorem user_names_kept_iff_label :
    ∃ c, lowerDefinition (typingDefinition "label") = .ok (some c) ∧
      (boundNames c.code).Nodup ∧
      ∃ front back, c.code = front ++ "String(label)" ++ back := by
  have hcommands : commandsOf? (typingDefinition "label") =
      some [typingCommand "label", clickCommand "#b", clickCommand "#c"] := by
    decide +kernel
  have hlowered := lowerDefinition_of_commands hcommands
  obtain ⟨hstrategy, hcode, hkept⟩ :
      (([typingCommand "label", clickCommand "#b", clickCommand "#c"].foldlM
        (fun body command => Lowered.addStatement false body (.command command default)) {}).map
          (shapeBody (typingDefinition "label") false)).map Classification.strategy =
        some .pageObject ∧
      (typingCommand "label").lower.code =
        "await page.locator('#a').fill(" ++ "String(label)" ++ ")" ∧
      placedText .pageObject "await page.locator('#a').fill(" "String(label)" ")" =
        "String(label)".toList := by
    decide +kernel
  obtain ⟨c, hc, hstrategy⟩ := Option.map_eq_some_iff.mp hstrategy
  rw [hc] at hlowered
  obtain ⟨snippet, hsnippet, -, hall⟩ := exists_snippet_of_commands hcommands
  obtain ⟨statement, statements, ⟨span, rfl⟩, -, hstatements⟩ :=
    List.forall₂_cons_right_iff.mp hall
  have hcommand : .command (typingCommand "label") span ∈ snippet.statements := by
    rw [hstatements]
    exact List.mem_cons_self
  have hparams : ∀ param ∈ (typingDefinition "label").parameters, IsBinding param.toList := by
    intro param hparam
    rw [List.mem_singleton.mp hparam]
    exact ⟨by decide, List.all_eq_true.mp (by decide)⟩
  have hpiece : Text.IsRun "String(label)".toList := by
    refine ⟨by decide, ?_, ?_⟩
    · rintro c ⟨⟩
      rfl
    · rintro c ⟨⟩
      rfl
  obtain ⟨-, hnames, hpieces⟩ :=
    user_names_kept_iff hparams (by decide) hsnippet hlowered (.inr hstrategy)
  obtain ⟨hplace, -⟩ := hpieces _ _ hcommand _ _ _ hcode hpiece
  rw [hstrategy, hkept, String.ofList_toList] at hplace
  refine ⟨c, hlowered, hnames.mpr ?_, hplace⟩
  rw [hstrategy]
  rintro ⟨⟩

/-- A definition that opens a page which it takes as its parameter. -/
def openDefinition : Definition :=
  { name := "open", parameters := ["page"], body := "cy.visit(page);" }

/-- The method for a definition whose parameter has the name of the page. -/
def capturedCode : String :=
  "async fillForm(page: any): Promise<void> \x7b\n" ++
  "  await this.page.locator('#a').fill(String(this.page));\n" ++
  "  await this.page.locator('#b').click();\n" ++
  "  await this.page.locator('#c').click();\n" ++
  "\x7d"

/-- A parameter with the name of the page is bound twice in a helper function, and in a method the
page takes its place in the text of an argument. -/
theorem page_captures_parameter :
    (lowerDefinition openDefinition).toOption.map
        (·.map fun c => (c.strategy, boundNames c.code)) =
      some (some (.utility, ["page", "page"])) ∧
    commandsOf? (typingDefinition "page") =
      some [typingCommand "page", clickCommand "#b", clickCommand "#c"] ∧
    occursIn "String(page)" (typingCommand "page").lower.code = true ∧
    (lowerDefinition (typingDefinition "page")).toOption.map
        (·.map fun c => (c.strategy, c.code)) =
      some (some (.pageObject, capturedCode)) ∧
    occursIn "String(page)" capturedCode = false := by
  have hopen : commandsOf? openDefinition = some [⟨"visit", [.raw "page"], []⟩] := by
    decide +kernel
  have htyping : commandsOf? (typingDefinition "page") =
      some [typingCommand "page", clickCommand "#b", clickCommand "#c"] := by
    decide +kernel
  rw [lowerDefinition_of_commands hopen, lowerDefinition_of_commands htyping]
  refine ⟨?_, htyping, ?_, ?_, ?_⟩
  · decide +kernel
  · decide +kernel
  · decide +kernel
  · decide +kernel

end CustomCommand
end SuiteShift
