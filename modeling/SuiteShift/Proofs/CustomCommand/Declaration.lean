import SuiteShift.CustomCommand.Basic
import SuiteShift.Proofs.CustomCommand.Name
import SuiteShift.Proofs.CustomCommand.Shape
import SuiteShift.Proofs.Literal.Identifier
import SuiteShift.Proofs.Text.Declared

/-!
# What the code of a custom command declares

The code of a helper declares one function and that of a page method one method, under the
identifier of the command's name, and nothing else in it reads like a declaration: bodies are
indented or commented out. The names and parameters of a definition are copied as they are, so they
must not have a line of their own that does.

- `Definition.IsQuiet`: no such line.
- `Classification.Declares`: what the code declares, and nothing else.
- `declares_classifyDefinition`, `declares_classifyCall`: definitions and calls.
-/

namespace SuiteShift

/-- What the line of a function starts with. -/
def functionWord : List Char :=
  "export async function ".toList

/-- What the line of a method starts with. -/
def methodWord : List Char :=
  "async ".toList

theorem head?_functionWord :
    functionWord.head? = some 'e' := by
  rfl

theorem head?_methodWord :
    methodWord.head? = some 'a' := by
  rfl

/-- No line of the name or of the parameter list, after its first, reads like a declaration. -/
def Definition.IsQuiet (definition : Definition) : Prop :=
  Text.IsQuiet functionWord definition.name.toList ∧
  Text.IsQuiet functionWord (CustomCommand.parameterList definition.parameters).toList ∧
  Text.IsQuiet methodWord (CustomCommand.parameterList definition.parameters).toList

instance (definition : Definition) : Decidable definition.IsQuiet :=
  inferInstanceAs (Decidable (_ ∧ _ ∧ _))

namespace Classification

/-- What the code of a command should declare: its identifier, unless it is only a remark. -/
def declaration (c : Classification) : List String :=
  if c.isFailure then [] else [Literal.identifier c.name]

/-- The code declares what calls refer to, and nothing else. -/
structure Declares (c : Classification) : Prop where
  helper :
    c.strategy = .utility ∨ c.strategy = .manual →
      Text.declared functionWord c.code.toList = c.declaration
  method :
    c.strategy = .pageObject →
      Text.declared methodWord c.code.toList = c.declaration

namespace Declares

variable {c : Classification}

theorem note
    (h : c.Declares)
    (text : String) :
    (c.note text).Declares := by
  exact ⟨h.helper, h.method⟩

theorem warn
    (h : c.Declares)
    (text : String) :
    (c.warn text).Declares := by
  exact ⟨h.helper, h.method⟩

theorem require
    (h : c.Declares)
    (line : String) :
    (c.require line).Declares := by
  unfold Classification.require
  split_ifs
  · exact h
  · exact ⟨h.helper, h.method⟩

theorem foldl_require
    (h : c.Declares)
    (lines : List String) :
    (lines.foldl Classification.require c).Declares := by
  induction lines generalizing c with
  | nil =>
      exact h
  | cons line lines ih =>
      exact ih (h.require line)

theorem checkIdentifier
    (h : c.Declares) :
    c.checkIdentifier.Declares := by
  unfold Classification.checkIdentifier
  dsimp only
  split_ifs
  · exact h
  · exact h.warn _

theorem of_direct
    (h : c.strategy = .direct) :
    c.Declares := by
  refine ⟨?_, ?_⟩
  · rw [h]
    rintro (hother | hother) <;> cases hother
  · rw [h]
    intro hother
    cases hother

theorem declaration_of_errors
    (h : c.errors = []) :
    c.declaration = [Literal.identifier c.name] := by
  rw [declaration, isFailure, h]
  rfl

theorem of_helper
    (hstrategy : c.strategy ≠ .pageObject)
    (herrors : c.errors = [])
    (hcode : Text.declared functionWord c.code.toList = [Literal.identifier c.name]) :
    c.Declares := by
  exact ⟨fun _ => hcode.trans (declaration_of_errors herrors).symm, fun h => absurd h hstrategy⟩

theorem of_method
    (hstrategy : c.strategy = .pageObject)
    (herrors : c.errors = [])
    (hcode : Text.declared methodWord c.code.toList = [Literal.identifier c.name]) :
    c.Declares := by
  refine ⟨?_, fun _ => hcode.trans (declaration_of_errors herrors).symm⟩
  rw [hstrategy]
  rintro (hother | hother) <;> cases hother

/-- A failure is a comment. -/
theorem failure
    {error : String}
    (h : '\n' ∉ error.toList)
    (name : String) :
    (Classification.failure name error).Declares := by
  refine ⟨fun _ => ?_, fun hpage => by cases hpage⟩
  have hcode : (Classification.failure name error).code.toList =
      "// TODO: ".toList ++ error.toList := by
    exact String.toList_append
  have hrow : '\n' ∉ "// TODO: ".toList ++ error.toList := by
    rw [List.mem_append, not_or]
    exact ⟨by decide, h⟩
  rw [hcode]
  exact Text.declared_of_head_ne head?_functionWord hrow (by simp)

end Declares
end Classification

namespace CustomCommand

open Classification (Declares)

/-! ### Lines of generated code -/

theorem not_mem_identifier
    {c : Char}
    (h : Text.isNameChar c = false)
    (name : String) :
    c ∉ (Literal.identifier name).toList := by
  intro hmem
  rw [Literal.isNameChar_of_mem_identifier hmem] at h
  cases h

/-- The line that starts with the word declares the name, and parameters on lines of their own do
not matter. -/
theorem declared_declaration
    {word params : List Char}
    (hword : '\n' ∉ word)
    (hmark : ')' ∉ word)
    (hparams : Text.IsQuiet word params)
    (name : String)
    (rest : List Char) :
    Text.declared word (word ++ (Literal.identifier name).toList ++ '(' :: params ++
        "): Promise<void> \x7b".toList ++ '\n' :: rest) =
      Literal.identifier name :: Text.declared word rest := by
  have hname : '\n' ∉ (Literal.identifier name).toList := by
    exact not_mem_identifier (by decide) name
  have hfront : '\n' ∉ word ++ (Literal.identifier name).toList ++ ['('] := by
    simp [hword, hname]
  have hafter : '\n' ∉ ')' :: ": Promise<void> \x7b".toList := by
    decide
  obtain ⟨more, hmore⟩ := Text.exists_declared_quiet hparams hfront hmark hafter
  have hsplit : word ++ (Literal.identifier name).toList ++ '(' :: params ++
      "): Promise<void> \x7b".toList =
        word ++ (Literal.identifier name).toList ++ ['('] ++ params ++
          ')' :: ": Promise<void> \x7b".toList := by
    simp
  rw [Text.declared_append_newline, hsplit, hmore, List.append_assoc, List.singleton_append,
    Text.declaredName?_declaration (not_mem_identifier (by decide) name)]
  rfl

theorem toList_helperHead
    (function params : String) :
    (helperHead function params).toList =
      functionWord ++ function.toList ++ '(' :: ("page: Page".toList ++ params.toList) ++
        "): Promise<void> \x7b".toList ++ ['\n'] := by
  have hopen : "(page: Page".toList = '(' :: "page: Page".toList := by
    decide
  have hend : "): Promise<void> \x7b\n".toList = "): Promise<void> \x7b".toList ++ ['\n'] := by
    decide
  unfold helperHead functionWord
  simp only [String.toList_append, hopen, hend, List.append_assoc, List.cons_append]

/-- The first line of a helper function declares it. -/
theorem declared_helperHead
    {params : String}
    (hparams : Text.IsQuiet functionWord params.toList)
    (name : String)
    (rest : List Char) :
    Text.declared functionWord
        ((helperHead (Literal.identifier name) params).toList ++ rest) =
      Literal.identifier name :: Text.declared functionWord rest := by
  have hquiet : Text.IsQuiet functionWord ("page: Page".toList ++ params.toList) := by
    exact Text.isQuiet_append (by decide) hparams
  rw [toList_helperHead, List.append_assoc _ ['\n'] rest, List.singleton_append]
  exact declared_declaration (by decide) (by decide) hquiet name rest

theorem toList_indentLines
    (code : String) :
    (indentLines code).toList = Text.joinChars ['\n']
      ((Text.lines code.toList).map fun row => if row.isEmpty then row else ' ' :: ' ' :: row) := by
  rw [indentLines, Text.linesOf, String.toList_intercalate, Text.joinChars_eq_intercalate]
  simp only [List.map_map]
  congr 1
  refine List.map_congr_left fun row _ => ?_
  cases row <;> simp

/-- Indented lines declare nothing. -/
theorem declared_indentLines
    {word : List Char}
    {w : Char}
    (hword : word.head? = some w)
    (hw : w ≠ ' ')
    (code : String) :
    Text.declared word (indentLines code).toList = [] := by
  rw [toList_indentLines, Text.declared_joinLines, List.flatMap_eq_nil_iff]
  intro row hrow
  obtain ⟨line, hline, rfl⟩ := List.mem_map.mp hrow
  have hnewline := Text.not_mem_of_mem_lines hline
  refine Text.declared_of_head_ne hword ?_ ?_
  · split_ifs <;> simp [hnewline]
  · cases line with
    | nil =>
        simp
    | cons c line =>
        simpa using hw.symm

theorem not_mem_of_mem_linesOf
    {text row : String}
    (h : row ∈ Text.linesOf text) :
    '\n' ∉ row.toList := by
  obtain ⟨line, hline, rfl⟩ := List.mem_map.mp h
  rw [String.toList_ofList]
  exact Text.not_mem_of_mem_lines hline

/-- The line starts with a blank. -/
def IsIndented (row : List Char) : Prop :=
  '\n' ∉ row ∧ row.head? = some ' '

/-- Lines that start with a blank, each with its line end. -/
inductive IndentedLines : List Char → Prop
  | nil :
      IndentedLines []
  | cons
      {row rest : List Char}
      (hrow : IsIndented row)
      (hrest : IndentedLines rest) :
      IndentedLines (row ++ '\n' :: rest)

namespace IndentedLines

theorem single
    {row : List Char}
    (h : IsIndented row) :
    IndentedLines (row ++ ['\n']) := by
  exact .cons h .nil

theorem append
    {first second : List Char}
    (hfirst : IndentedLines first)
    (hsecond : IndentedLines second) :
    IndentedLines (first ++ second) := by
  induction hfirst with
  | nil =>
      exact hsecond
  | cons hrow _ ih =>
      rw [List.append_assoc, List.cons_append]
      exact .cons hrow ih

theorem join
    {lines : List String}
    (h : ∀ line ∈ lines, IndentedLines line.toList) :
    IndentedLines (String.join lines).toList := by
  rw [String.toList_join]
  induction lines with
  | nil =>
      exact .nil
  | cons line lines ih =>
      rw [List.flatMap_cons]
      exact (h line List.mem_cons_self).append
        (ih fun other hother => h other (List.mem_cons_of_mem _ hother))

/-- Such lines declare nothing, up to the closing brace. -/
theorem declared_eq_nil
    {text : List Char}
    (h : IndentedLines text) :
    Text.declared functionWord (text ++ ['\x7d']) = [] := by
  induction h with
  | nil =>
      exact Text.declared_of_head_ne head?_functionWord (by decide) (by decide)
  | cons hrow _ ih =>
      rw [List.append_assoc, List.cons_append, Text.declared_append_newline, ih,
        Text.declared_of_head_ne head?_functionWord hrow.1 (by simp [hrow.2])]
      rfl

end IndentedLines

/-- A line as a comment. -/
def commentRow (row : List Char) : List Char :=
  "  // ".toList ++ row

theorem isIndented_commentRow
    {row : List Char}
    (h : '\n' ∉ row) :
    IsIndented (commentRow row) := by
  unfold commentRow
  refine ⟨?_, by simp⟩
  rw [List.mem_append, not_or]
  exact ⟨by decide, h⟩

/-- The last statement of a stub. -/
def throwRow (name reason : String) : List Char :=
  "  throw new Error('".toList ++ (Literal.identifier name).toList ++ reason.toList ++ "');".toList

theorem isIndented_throwRow
    {reason : String}
    (h : '\n' ∉ reason.toList)
    (name : String) :
    IsIndented (throwRow name reason) := by
  have hname : '\n' ∉ (Literal.identifier name).toList := by
    exact not_mem_identifier (by decide) name
  unfold throwRow
  refine ⟨?_, by simp⟩
  simp only [List.mem_append, not_or]
  exact ⟨⟨⟨by decide, hname⟩, h⟩, by decide⟩

/-! ### Bodies -/

theorem isQuiet_afterComma
    {word : List Char}
    {params : String}
    (h : Text.IsQuiet word params.toList) :
    Text.IsQuiet word (afterComma params).toList := by
  unfold afterComma
  split_ifs
  · exact Text.isQuiet_of_not_mem (by decide)
  · rw [String.toList_append]
    exact Text.isQuiet_append (by decide) h

theorem declares_helperFunction
    {params : String}
    (h : Text.IsQuiet functionWord params.toList)
    (name : String)
    (body : Lowered) :
    (helperFunction name (Literal.identifier name) params body).Declares := by
  refine .of_helper (by simp [helperFunction]) rfl ?_
  have hcode : (helperFunction name (Literal.identifier name) params body).code.toList =
      (helperHead (Literal.identifier name) (afterComma params)).toList ++
        ((indentLines ("\n".intercalate body.lines)).toList ++ '\n' :: ['\x7d']) := by
    rw [← List.append_assoc, ← String.toList_append]
    exact String.toList_append
  rw [hcode, declared_helperHead (isQuiet_afterComma h), Text.declared_append_newline,
    declared_indentLines head?_functionWord (by decide),
    Text.declared_of_head_ne head?_functionWord (by decide) (by decide)]
  rfl

theorem declares_pageObjectMethod
    {params : String}
    (h : Text.IsQuiet methodWord params.toList)
    (name : String)
    (body : Lowered) :
    (pageObjectMethod name (Literal.identifier name) params body).Declares := by
  refine .of_method rfl rfl ?_
  have hcode : (pageObjectMethod name (Literal.identifier name) params body).code.toList =
      methodWord ++ (Literal.identifier name).toList ++ '(' :: params.toList ++
        "): Promise<void> \x7b".toList ++
        '\n' :: ((indentLines ("\n".intercalate (body.lines.map rebindPage))).toList ++
          '\n' :: ['\x7d']) := by
    unfold pageObjectMethod methodWord
    simp
  rw [hcode, declared_declaration (by decide) (by decide) h, Text.declared_append_newline,
    declared_indentLines head?_methodWord (by decide),
    Text.declared_of_head_ne head?_methodWord (by decide) (by decide)]
  rfl

theorem declares_branchingStub
    {name params : String}
    (hname : Text.IsQuiet functionWord name.toList)
    (hparams : Text.IsQuiet functionWord params.toList)
    (lines : List String) :
    (branchingStub name (Literal.identifier name) params lines).Declares := by
  refine .of_helper (by simp [branchingStub]) rfl ?_
  have hcode : (branchingStub name (Literal.identifier name) params lines).code.toList =
      "// TODO: Review custom command '".toList ++ name.toList ++
        '\x27' :: "; it branches or loops".toList ++
        '\n' :: ((helperHead (Literal.identifier name) (afterComma params)).toList ++
          ((String.join ((lines.flatMap Text.linesOf).map fun row =>
              "  // " ++ row ++ "\n")).toList ++
            (throwRow name " needs manual review" ++ ['\n']) ++ ['\x7d'])) := by
    rw [toList_helperHead]
    unfold branchingStub functionWord throwRow
    simp
  have hcomment : Text.declared functionWord ("// TODO: Review custom command '".toList ++
      name.toList ++ '\x27' :: "; it branches or loops".toList) = [] := by
    have hfront : '\n' ∉ "// TODO: Review custom command '".toList := by
      decide
    have hafter : '\n' ∉ '\x27' :: "; it branches or loops".toList := by
      decide
    obtain ⟨more, hmore⟩ := Text.exists_declared_quiet hname hfront (by decide) hafter
    rw [hmore, Text.declaredName?_of_head_ne head?_functionWord (by simp)]
    rfl
  have hrows : IndentedLines (String.join ((lines.flatMap Text.linesOf).map fun row =>
      "  // " ++ row ++ "\n")).toList := by
    refine .join fun line hline => ?_
    obtain ⟨row, hrow, rfl⟩ := List.mem_map.mp hline
    obtain ⟨text, -, hrow⟩ := List.mem_flatMap.mp hrow
    rw [String.toList_append, String.toList_append]
    exact .single (isIndented_commentRow (not_mem_of_mem_linesOf hrow))
  have hthrow : IsIndented (throwRow name " needs manual review") := by
    exact isIndented_throwRow (by decide) name
  rw [hcode, Text.declared_append_newline, hcomment, List.nil_append,
    declared_helperHead (isQuiet_afterComma hparams),
    (hrows.append (.single hthrow)).declared_eq_nil]
  rfl

/-! ### Stubs and patterns -/

/-- The mark of an empty comment can only be found at the end of a line, and costs it its last
blank. -/
theorem exists_replaceFrom_comment
    {row : List Char}
    (h : '\n' ∉ row) :
    ∃ kept, '\n' ∉ kept ∧ kept.head? = row.head? ∧ (kept = row ∨ kept ++ [' '] = row) ∧
      Text.replaceFrom "  // \n".toList "  //\n".toList 0 (row ++ ['\n']) = kept ++ ['\n'] := by
  induction row with
  | nil =>
      exact ⟨[], by simp, rfl, .inl rfl, by decide⟩
  | cons c row ih =>
      by_cases hfound : Text.startsWith "  // \n".toList (c :: row ++ ['\n']) = true
      · obtain ⟨rest, hrest⟩ := Text.startsWith_iff.mp hfound
        have hneedle : "  // \n".toList ++ rest = "  // ".toList ++ '\n' :: rest := by
          rfl
        have hrow : c :: row = "  // ".toList := by
          rw [← Text.takeWhile_ne_append h [], hrest, hneedle,
            Text.takeWhile_ne_append (by decide) rest]
        rw [hrow]
        exact ⟨"  //".toList, by decide, by decide, .inr (by decide), by decide⟩
      · obtain ⟨kept, hkept, -, hrow, hreplaced⟩ :=
          ih fun hmem => h (List.mem_cons_of_mem _ hmem)
        refine ⟨c :: kept, ?_, rfl, ?_, ?_⟩
        · intro hmem
          rcases List.mem_cons.mp hmem with heq | hmem
          · exact h (heq ▸ List.mem_cons_self)
          · exact hkept hmem
        · exact hrow.imp (congrArg (c :: ·)) (congrArg (c :: ·))
        · rw [List.cons_append] at hfound
          rw [List.cons_append, Text.replaceFrom, if_neg hfound, hreplaced, List.cons_append]

/-- A line of a body stands behind a comment mark, its last blank perhaps apart. -/
theorem exists_toList_commentedLine
    {line : List Char}
    (h : '\n' ∉ line) :
    ∃ kept, '\n' ∉ kept ∧ kept.head? = (commentRow line).head? ∧
      (kept = commentRow line ∨ kept ++ [' '] = commentRow line) ∧
      (commentedLine line).toList = kept ++ ['\n'] := by
  obtain ⟨kept, hkept, hhead, hrow, hreplaced⟩ :=
    exists_replaceFrom_comment (isIndented_commentRow h).1
  refine ⟨kept, hkept, hhead, hrow, ?_⟩
  rw [commentedLine, String.toList_ofList]
  exact hreplaced

theorem indentedLines_commentedLine
    {line : List Char}
    (h : '\n' ∉ line) :
    IndentedLines (commentedLine line).toList := by
  obtain ⟨kept, hkept, hhead, -, hline⟩ := exists_toList_commentedLine h
  rw [hline]
  exact .single ⟨hkept, hhead.trans (isIndented_commentRow h).2⟩

theorem indentedLines_commentedBody
    (body : String) :
    IndentedLines (commentedBody body).toList := by
  unfold commentedBody
  split_ifs
  · exact .nil
  · have hhead : "  // Original Cypress implementation:\n".toList =
        commentRow "Original Cypress implementation:".toList ++ ['\n'] := by
      decide
    rw [String.toList_append, hhead]
    refine .append (.single (isIndented_commentRow (by decide)))
      (.join fun line hline => ?_)
    obtain ⟨row, hrow, rfl⟩ := List.mem_map.mp hline
    exact indentedLines_commentedLine (Text.not_mem_of_mem_lines hrow)

theorem not_mem_of_isIdentifierToken
    {token : String}
    (h : isIdentifierToken token = true) :
    '\n' ∉ token.toList := by
  intro hmem
  rw [isIdentifierToken, Literal.isIdentifier, Bool.and_eq_true, Bool.and_eq_true,
    List.all_eq_true] at h
  exact absurd (h.1.2 _ hmem) (by decide)

theorem not_mem_stubParameter
    (index : Nat)
    (token : String) :
    '\n' ∉ (stubParameter index token).toList := by
  unfold stubParameter
  split_ifs with htoken
  · exact not_mem_of_isIdentifierToken htoken
  · intro hmem
    rw [String.toList_append, List.mem_append] at hmem
    rcases hmem with hmem | hmem
    · exact absurd hmem (by decide)
    · rw [Nat.toString_eq_repr, Nat.repr, String.toList_ofList] at hmem
      exact absurd (Nat.isDigit_of_mem_toDigits (by decide) (by decide) hmem) (by decide)

theorem not_mem_stubParameters
    (args : List String) :
    ∀ param ∈ args.mapIdx stubParameter, '\n' ∉ param.toList := by
  intro param hparam
  obtain ⟨i, hi, rfl⟩ := List.mem_mapIdx.mp hparam
  exact not_mem_stubParameter i _

theorem not_mem_extraParameters
    {params : List String}
    (h : ∀ param ∈ params, '\n' ∉ param.toList) :
    '\n' ∉ (String.join (params.map extraParameter)).toList := by
  rw [String.toList_join, List.mem_flatMap]
  rintro ⟨text, htext, hmem⟩
  obtain ⟨param, hparam, rfl⟩ := List.mem_map.mp htext
  simp only [extraParameter, String.toList_append, List.mem_append] at hmem
  rcases hmem with (hmem | hmem) | hmem
  · exact absurd hmem (by decide)
  · exact h param hparam hmem
  · exact absurd hmem (by decide)

/-- Parameters on one line are quiet. -/
theorem isQuiet_extraParameters
    {word : List Char}
    {params : List String}
    (h : ∀ param ∈ params, '\n' ∉ param.toList) :
    Text.IsQuiet word (String.join (params.map extraParameter)).toList := by
  exact Text.isQuiet_of_not_mem (not_mem_extraParameters h)

/-- The first line of a stub. -/
def stubRow (name : String) (args : List String) : List Char :=
  "// TODO: Convert custom command cy.".toList ++ (Literal.oneLine name).toList ++
    '(' :: (Literal.oneLine (", ".intercalate args)).toList ++ ") manually".toList

theorem not_mem_stubRow
    (name : String)
    (args : List String) :
    '\n' ∉ stubRow name args := by
  have hfront : '\n' ∉ "// TODO: Convert custom command cy.".toList := by
    decide
  have hback : '\n' ∉ ") manually".toList := by
    decide
  unfold stubRow
  simp only [List.mem_append, List.mem_cons, not_or]
  exact ⟨⟨⟨hfront, Literal.not_mem_oneLine name⟩, by decide, Literal.not_mem_oneLine _⟩, hback⟩

theorem declared_stubRow
    (name : String)
    (args : List String) :
    Text.declared functionWord (stubRow name args) = [] := by
  refine Text.declared_of_head_ne head?_functionWord (not_mem_stubRow name args) ?_
  unfold stubRow
  simp

theorem toList_code_stub
    (name : String)
    (args : List String)
    (body : Option String) :
    (stub name args body).code.toList =
      stubRow name args ++ '\n' ::
        ((helperHead (Literal.identifier name)
            (String.join ((args.mapIdx stubParameter).map extraParameter))).toList ++
          (((body.map commentedBody).getD "").toList ++
            (throwRow name " is not converted yet" ++ ['\n']) ++ ['\x7d'])) := by
  have hcode : ∀ head : String,
      ("// TODO: Convert custom command cy." ++ Literal.oneLine name ++ "(" ++
        Literal.oneLine (", ".intercalate args) ++ ") manually\n" ++ head ++
        (body.map commentedBody).getD "" ++
        "  throw new Error('" ++ Literal.identifier name ++
          " is not converted yet');\n\x7d").toList =
      stubRow name args ++ '\n' :: (head.toList ++ (((body.map commentedBody).getD "").toList ++
        (throwRow name " is not converted yet" ++ ['\n']) ++ ['\x7d'])) := by
    intro head
    unfold stubRow throwRow
    simp
  exact hcode _

theorem declares_stub
    (name : String)
    (args : List String)
    (body : Option String) :
    (stub name args body).Declares := by
  refine .warn (.require (.of_helper (by simp) rfl ?_) _) _
  have hparams : Text.IsQuiet functionWord
      (String.join ((args.mapIdx stubParameter).map extraParameter)).toList := by
    exact isQuiet_extraParameters (not_mem_stubParameters args)
  have hbody : IndentedLines ((body.map commentedBody).getD "").toList := by
    cases body with
    | none =>
        exact .nil
    | some body =>
        rw [Option.map_some, Option.getD_some]
        exact indentedLines_commentedBody body
  have hthrow : IsIndented (throwRow name " is not converted yet") := by
    exact isIndented_throwRow (by decide) name
  refine (congrArg (Text.declared functionWord) (toList_code_stub name args body)).trans ?_
  rw [Text.declared_append_newline, declared_stubRow, declared_helperHead hparams,
    (hbody.append (.single hthrow)).declared_eq_nil]
  rfl

/-- The parameters that a login has: its own two or more, if they are names, or else two fixed
ones. -/
def loginParameters (args : List String) : List String :=
  match args with
  | _ :: _ :: _ => if args.all isIdentifierToken then args else ["email", "password"]
  | _ => ["email", "password"]

theorem not_mem_loginParameters
    (args : List String) :
    ∀ param ∈ loginParameters args, '\n' ∉ param.toList := by
  have hfixed : ∀ param ∈ ["email", "password"], '\n' ∉ param.toList := by
    decide
  unfold loginParameters
  split
  · split_ifs with hall
    · intro param hparam
      exact not_mem_of_isIdentifierToken (List.all_eq_true.mp hall param hparam)
    · exact hfixed
  · exact hfixed

theorem not_mem_getElem?_getD
    {params : List String}
    {other : String}
    (h : ∀ param ∈ params, '\n' ∉ param.toList)
    (hother : '\n' ∉ other.toList)
    (i : Nat) :
    '\n' ∉ (params[i]?.getD other).toList := by
  cases hparam : params[i]? with
  | none =>
      exact hother
  | some param =>
      exact h param (List.mem_of_getElem? hparam)

/-- The statement that fills in the name of a user, up to the name. -/
def userField : String :=
  "  await page.locator('input[name=\"email\"], input[type=\"email\"], " ++
    "input[name=\"username\"]').fill("

/-- The statement that fills in a password, up to the password. -/
def passwordField : String :=
  "  await page.locator('input[type=\"password\"]').fill("

theorem isIndented_fill
    {field value : String}
    (hfield : IsIndented field.toList)
    (hvalue : '\n' ∉ value.toList) :
    IsIndented (field.toList ++ value.toList ++ ");".toList) := by
  obtain ⟨hnewline, hhead⟩ := hfield
  refine ⟨?_, ?_⟩
  · simp only [List.mem_append, not_or]
    exact ⟨⟨hnewline, hvalue⟩, by decide⟩
  · rw [List.append_assoc, List.head?_append, hhead]
    rfl

theorem declares_login
    (name : String)
    (args : List String) :
    (login name args).Declares := by
  refine .note (.require (.of_helper (by simp) rfl ?_) _) _
  have hparams := not_mem_loginParameters args
  have huser := not_mem_getElem?_getD hparams (show '\n' ∉ "email".toList by decide) 0
  have hpassword := not_mem_getElem?_getD hparams (show '\n' ∉ "password".toList by decide) 1
  have hgoto : "  await page.goto('/login');\n".toList =
      "  await page.goto('/login');".toList ++ ['\n'] := by
    decide
  have hclick : "  await page.locator('button[type=\"submit\"]').click();\n".toList =
      "  await page.locator('button[type=\"submit\"]').click();".toList ++ ['\n'] := by
    decide
  have hend : ");\n".toList = ");".toList ++ ['\n'] := by
    decide
  have hbody : ∀ user password : String, '\n' ∉ user.toList → '\n' ∉ password.toList →
      IndentedLines ("  await page.goto('/login');".toList ++ '\n' ::
        (userField.toList ++ user.toList ++ ");".toList ++ '\n' ::
          (passwordField.toList ++ password.toList ++ ");".toList ++ '\n' ::
            ("  await page.locator('button[type=\"submit\"]').click();".toList ++ ['\n'])))) := by
    intro user password huser hpassword
    refine .cons ?_ (.cons (isIndented_fill ?_ huser)
      (.cons (isIndented_fill ?_ hpassword) (.single ?_)))
    all_goals exact ⟨by decide, by decide +kernel⟩
  have hcode : ∀ head user password : String,
      (head ++
        "  await page.goto('/login');\n" ++
        "  await page.locator('input[name=\"email\"], input[type=\"email\"], " ++
          "input[name=\"username\"]').fill(" ++ user ++ ");\n" ++
        "  await page.locator('input[type=\"password\"]').fill(" ++ password ++ ");\n" ++
        "  await page.locator('button[type=\"submit\"]').click();\n" ++
        "\x7d").toList =
      head.toList ++
        ("  await page.goto('/login');".toList ++ '\n' ::
          (userField.toList ++ user.toList ++ ");".toList ++ '\n' ::
            (passwordField.toList ++ password.toList ++ ");".toList ++ '\n' ::
              ("  await page.locator('button[type=\"submit\"]').click();".toList ++ ['\n']))) ++
        ['\x7d']) := by
    intro head user password
    unfold userField passwordField
    simp only [String.toList_append, hgoto, hclick, hend, List.append_assoc, List.cons_append,
      List.nil_append]
    rfl
  refine (congrArg (Text.declared functionWord) (hcode _ _ _)).trans ?_
  refine (declared_helperHead (isQuiet_extraParameters hparams) name _).trans ?_
  exact congrArg (List.cons _) (hbody _ _ huser hpassword).declared_eq_nil

theorem declares_directStatement
    (name code : String) :
    (directStatement name code).Declares := by
  exact .of_direct rfl

theorem declares_missingArguments
    {name expected : String}
    (hname : '\n' ∉ name.toList)
    (hexpected : '\n' ∉ expected.toList) :
    (missingArguments name expected).Declares := by
  refine .failure ?_ name
  simp only [String.toList_append, List.mem_append, not_or]
  exact ⟨⟨⟨by decide, hname⟩, by decide⟩, hexpected⟩

/-- Every pattern gives a command that declares what it should. -/
theorem declares_pattern
    {name : String}
    {apply : String → List String → Classification}
    (h : pattern? name = some apply)
    (args : List String) :
    (apply name args).Declares := by
  obtain ⟨before, after, hsplit, -⟩ := List.lookup_eq_some_iff.mp h
  have hmem : (name, apply) ∈ patterns := by
    simp [hsplit]
  have hname : '\n' ∉ name.toList := by
    have hnames : ∀ name ∈ patterns.map Prod.fst, '\n' ∉ name.toList := by
      decide
    exact hnames name (List.mem_map.mpr ⟨_, hmem, rfl⟩)
  have hall : ∀ entry ∈ patterns, (entry.2 name args).Declares := by
    simp only [patterns, List.forall_mem_cons, List.not_mem_nil, false_implies, implies_true,
      and_true]
    refine ⟨declares_login _ _, ?_, ?_, ?_, declares_directStatement _ _,
      declares_directStatement _ _, declares_directStatement _ _, ?_⟩
    · unfold selectDropdown
      split
      · exact declares_directStatement _ _
      · exact declares_missingArguments hname (by decide)
    · unfold uploadFile
      split
      · exact .note (declares_directStatement _ _) _
      · exact declares_missingArguments hname (by decide)
    · unfold thenCallback
      split
      · exact declares_missingArguments hname (by decide)
      · exact .of_direct rfl
    · have hnavigate : (navigate name args).Declares := by
        unfold navigate
        split_ifs
        · exact declares_missingArguments hname (by decide)
        · exact declares_directStatement _ _
      exact ⟨hnavigate, hnavigate⟩
  exact hall (name, apply) hmem

/-! ### Whole commands -/

theorem declares_shapeBody
    {definition : Definition}
    (h : definition.IsQuiet)
    (branching : Bool)
    (body : Lowered) :
    (shapeBody definition branching body).Declares := by
  obtain ⟨hname, hfunction, hmethod⟩ := h
  have hshaped : ∀ shaped : Classification, shaped.Declares →
      { body.imports.foldl Classification.require shaped with
        warnings := (body.imports.foldl Classification.require shaped).warnings ++
          body.diagnostics }.Declares := by
    intro shaped hshaped
    have hrequired := hshaped.foldl_require body.imports
    exact ⟨hrequired.helper, hrequired.method⟩
  unfold shapeBody
  dsimp only
  split_ifs
  · exact hshaped _ (declares_branchingStub hname hfunction _)
  · exact hshaped _ (declares_pageObjectMethod hmethod _ _)
  · exact hshaped _ (declares_helperFunction hfunction _ _)

theorem declares_classifyByName
    (definition : Definition) :
    (classifyByName definition).Declares := by
  unfold classifyByName
  split
  · next apply hpattern =>
      exact .note (declares_pattern hpattern _) _
  · exact declares_stub _ _ _

/-- A quiet definition becomes a command that declares what it should. -/
theorem declares_classifyDefinition
    {definition : Definition}
    {c : Classification}
    (hquiet : definition.IsQuiet)
    (h : classifyDefinition definition = .ok c) :
    c.Declares := by
  have hname := (declares_classifyByName definition).checkIdentifier
  unfold classifyDefinition at h
  dsimp only at h
  split_ifs at h
  · cases h
    exact hname
  · obtain ⟨lowered, hlowered, h⟩ := Failure.bind_eq_ok.mp h
    cases lowered with
    | none =>
        cases h
        exact hname
    | some shaped =>
        cases h
        unfold lowerDefinition at hlowered
        split at hlowered
        · rw [Except.ok.injEq, Option.map_eq_some_iff] at hlowered
          obtain ⟨body, -, rfl⟩ := hlowered
          exact (declares_shapeBody hquiet _ _).checkIdentifier
        · cases hlowered
        · cases hlowered

theorem not_mem_of_namedCall?
    {cs : List Char}
    {call : List Char × List Char}
    (h : namedCall? cs = some call) :
    '\n' ∉ call.1 := by
  cases cs with
  | nil =>
      cases h
  | cons c cs =>
      rw [namedCall?] at h
      split_ifs at h with hstart
      obtain ⟨list, -, rfl⟩ := Option.map_eq_some_iff.mp h
      intro hmem
      rcases List.mem_cons.mp hmem with rfl | hmem
      · exact absurd hstart (by decide)
      · exact absurd (List.all_eq_true.mp List.all_takeWhile _ hmem) (by decide)

/-- The name of a call is a word. -/
theorem not_mem_of_findCallAfter?
    {before : Option Char}
    {cs : List Char}
    {call : List Char × List Char}
    (h : findCallAfter? before cs = some call) :
    '\n' ∉ call.1 := by
  induction cs generalizing before with
  | nil =>
      cases h
  | cons c cs ih =>
      have hdriver : ∀ found, driverCall? (c :: cs) = some found → '\n' ∉ found.1 := by
        intro found hfound
        simp only [driverCall?, Option.bind_eq_bind, Option.bind_eq_some_iff] at hfound
        obtain ⟨_, -, _, -, hnamed⟩ := hfound
        exact not_mem_of_namedCall? hnamed
      rw [findCallAfter?] at h
      split at h
      · next found hfound =>
          cases h
          rw [Option.orElse_eq_orElse, Option.orElse_eq_or, Option.or_eq_some_iff] at hfound
          rcases hfound with hfound | ⟨-, hnamed⟩
          · split_ifs at hfound
            exact hdriver _ hfound
          · exact not_mem_of_namedCall? hnamed
      · exact ih h

theorem not_mem_of_readCall
    {cs : List Char}
    {error : ExtractError}
    (h : readCall cs = .error error) :
    '\n' ∉ error.message.toList := by
  unfold readCall at h
  split at h
  · cases h
    decide
  · next name list hfound =>
      split at h
      · cases h
        have hname : '\n' ∉ (String.ofList name).toList := by
          rw [String.toList_ofList]
          exact not_mem_of_findCallAfter? hfound
        have hfront : '\n' ∉ "Unbalanced parentheses in call to '".toList := by
          decide
        change '\n' ∉ ("Unbalanced parentheses in call to '" ++ String.ofList name ++ "'").toList
        rw [String.toList_append, String.toList_append, List.mem_append, List.mem_append, not_or,
          not_or]
        exact ⟨⟨hfront, hname⟩, by decide⟩
      · cases h

/-- Every call becomes a command that declares what it should. -/
theorem declares_classifyCall
    (source : List Char) :
    (classifyCall source).Declares := by
  unfold classifyCall
  split
  · next error herror =>
      exact .failure (not_mem_of_readCall herror) ""
  · dsimp only
    split
    · next apply hpattern =>
        exact (declares_pattern hpattern _).checkIdentifier
    · exact (declares_stub _ _ _).checkIdentifier

end CustomCommand
end SuiteShift
