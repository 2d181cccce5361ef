import Mathlib.Data.List.Nodup
import SuiteShift.Proofs.Conversion.Validation
import SuiteShift.Proofs.CustomCommand.CallText
import SuiteShift.Proofs.CustomCommand.Declaration
import SuiteShift.Proofs.Output.Paths
import SuiteShift.Proofs.Output.SpecOrder
import SuiteShift.Proofs.Output.Support
import SuiteShift.Proofs.Text.Indent

/-!
# Names in the support files

Validation compares the names of custom commands as they are written, and the support files declare
identifiers made from them. So a name is declared twice exactly if two commands with distinct names
have one identifier.

- `nodup_names_classifyAll`: in a valid project no two commands have one name.
- `declared_helpersText`, `declared_pageObjectText`: what the support files declare.
- `support_names_unique_iff`: a whole project.
-/

namespace SuiteShift

/-! ### Names as they are written -/

namespace Output

theorem nodup_firstCalls
    (known : List String)
    (commands : List Command) :
    ((firstCalls known commands).map (·.name)).Nodup := by
  induction commands generalizing known with
  | nil =>
      exact List.nodup_nil
  | cons command commands ih =>
      rw [firstCalls]
      split_ifs
      · rw [List.map_cons, List.nodup_cons]
        refine ⟨?_, ih _⟩
        intro hmem
        obtain ⟨other, hother, hname⟩ := List.mem_map.mp hmem
        exact (of_mem_firstCalls hother).2.2 (hname ▸ List.mem_cons_self)
      · exact ih known

theorem isPlainName_of_isPatternCall
    {command : Command}
    (h : isPatternCall command = true) :
    CustomCommand.isPlainName command.name.toList = true := by
  rw [isPatternCall, Bool.and_eq_true, CustomCommand.hasPattern] at h
  obtain ⟨apply, hpattern⟩ := Option.isSome_iff_exists.mp h.2
  obtain ⟨before, after, hsplit, -⟩ := List.lookup_eq_some_iff.mp hpattern
  have hmem : command.name ∈ CustomCommand.patterns.map Prod.fst := by
    simp [hsplit]
  have hplain : ∀ name ∈ CustomCommand.patterns.map Prod.fst,
      CustomCommand.isPlainName name.toList = true := by
    decide
  exact hplain _ hmem

/-- A call that is read as a call keeps its name, unless it makes no sense. -/
theorem name_classify
    {command : Command}
    {c : Classification}
    (hpattern : isPatternCall command = true)
    (hcall : CustomCommand.findRegistration? command.source.toList = none)
    (h : CustomCommand.classify command.source = .ok c) :
    c.isFailure = true ∨ c.name = command.name := by
  obtain ⟨rest, hsource⟩ := CustomCommand.toList_source command
  rw [List.append_assoc, List.cons_append] at hsource
  have hfound := CustomCommand.findCall?_append (isPlainName_of_isPatternCall hpattern)
    ((Value.codeList command.args).toList ++ ')' :: rest)
  rw [← hsource] at hfound
  rw [CustomCommand.classify, hcall, Except.ok.injEq] at h
  subst h
  unfold CustomCommand.classifyCall CustomCommand.readCall
  rw [hfound]
  dsimp only
  cases Literal.parenthesized? ('(' :: ((Value.codeList command.args).toList ++ ')' :: rest)) with
  | none =>
      exact .inl rfl
  | some inside =>
      dsimp only
      rw [String.ofList_toList]
      right
      split
      · next apply happly =>
          rw [Classification.name_checkIdentifier, CustomCommand.name_pattern happly]
      · rw [Classification.name_checkIdentifier, CustomCommand.name_stub]

/-- Calls that are read as calls and make sense have their own names. -/
theorem names_sublist_called
    {calls : List Command}
    {called : List Classification}
    (hpattern : ∀ command ∈ calls, isPatternCall command = true)
    (hcalls : ∀ command ∈ calls,
      CustomCommand.findRegistration? command.source.toList = none)
    (h : classifyCalls calls = .ok called) :
    ((called.filter (!·.isFailure)).map (·.name)).Sublist (calls.map (·.name)) := by
  have hall := Failure.forall₂_of_mapM h
  clear h
  induction hall with
  | nil =>
      exact List.Sublist.refl _
  | @cons command c calls called hclassified _ ih =>
      rw [List.forall_mem_cons] at hpattern hcalls
      have hrest := ih hpattern.2 hcalls.2
      rw [List.map_cons, List.filter_cons]
      split_ifs with hsense
      · rw [Bool.not_eq_true'] at hsense
        have hname : c.name = command.name := by
          refine (name_classify hpattern.1 hcalls.1 hclassified).resolve_left ?_
          rw [hsense]
          exact Bool.false_ne_true
        rw [List.map_cons, hname]
        exact hrest.cons_cons _
      · exact hrest.cons _

section Project

variable {project : Project}
variable {commands : List Classification}

/-- In a valid project no two commands have one name, remarks apart. -/
theorem nodup_names_classifyAll
    (hvalid : Validation.check project = .ok ())
    (hcalls : ∀ command ∈ undefinedCalls project project.specs,
      CustomCommand.findRegistration? command.source.toList = none)
    (h : classifyAll project.definitions project.specs = .ok commands) :
    ((commands.filter (!·.isFailure)).map (·.name)).Nodup := by
  obtain ⟨defined, hdefined, h⟩ := Failure.bind_eq_ok.mp h
  obtain ⟨called, hcalled, h⟩ := Failure.bind_eq_ok.mp h
  cases h
  have hnames := CustomCommand.names_of_classifyDefinitions hdefined
  rw [hnames] at hcalled
  have hdefinedNames : ((defined.filter (!·.isFailure)).map (·.name)).Sublist
      (project.definitions.map (·.name)) := by
    rw [← hnames]
    exact List.filter_sublist.map _
  have hcalledNames := names_sublist_called
    (fun command hcommand => (of_mem_firstCalls hcommand).2.1) hcalls hcalled
  rw [List.filter_append, List.map_append, List.nodup_append]
  refine ⟨(Validation.check_eq_ok_iff.mp hvalid).2.sublist hdefinedNames,
    (nodup_firstCalls _ _).sublist hcalledNames, ?_⟩
  rintro name hname other hother rfl
  obtain ⟨command, hcommand, rfl⟩ := List.mem_map.mp (hcalledNames.mem hother)
  exact (of_mem_firstCalls hcommand).2.2 (hdefinedNames.mem hname)

/-- Every command of a project declares what it should. -/
theorem declares_classifyAll
    (hquiet : ∀ definition ∈ project.definitions, definition.IsQuiet)
    (hcalls : ∀ command ∈ undefinedCalls project project.specs,
      CustomCommand.findRegistration? command.source.toList = none)
    (h : classifyAll project.definitions project.specs = .ok commands) :
    ∀ c ∈ commands, c.Declares := by
  obtain ⟨defined, hdefined, h⟩ := Failure.bind_eq_ok.mp h
  obtain ⟨called, hcalled, h⟩ := Failure.bind_eq_ok.mp h
  cases h
  rw [CustomCommand.names_of_classifyDefinitions hdefined] at hcalled
  intro c hc
  rcases List.mem_append.mp hc with hc | hc
  · obtain ⟨definition, hdefinition, hclassified⟩ := Failure.exists_of_mem_mapM hdefined hc
    exact CustomCommand.declares_classifyDefinition (hquiet _ hdefinition) hclassified
  · obtain ⟨command, hcommand, hclassified⟩ := Failure.exists_of_mem_mapM hcalled hc
    rw [CustomCommand.classify, hcalls command hcommand, Except.ok.injEq] at hclassified
    exact hclassified ▸ CustomCommand.declares_classifyCall _

end Project

/-! ### Import lines -/

/-- The line reads like an import. -/
structure IsImportLine (line : String) : Prop where
  notMem : '\n' ∉ line.toList
  head : line.toList.head? = some 'i'

theorem isImportLine_pageTypeImport :
    IsImportLine pageTypeImport := by
  exact ⟨by decide +kernel, by decide +kernel⟩

theorem isImportLine_expectImport :
    IsImportLine expectImport := by
  exact ⟨by decide +kernel, by decide +kernel⟩

theorem isImportLine_of_wellShaped
    {c : Classification}
    {line : String}
    (h : c.WellShaped)
    (hline : line ∈ c.imports) :
    IsImportLine line := by
  rcases h.imports line hline with rfl | hrule
  · exact isImportLine_pageTypeImport
  · rw [Lowering.ruleImports_eq, List.mem_singleton] at hrule
    subst hrule
    exact ⟨by decide +kernel, by decide +kernel⟩

section Words

variable {word : List Char}
variable {w : Char}

theorem IsImportLine.declared_eq_nil
    {line : String}
    (hword : word.head? = some w)
    (hw : w ≠ 'i')
    (h : IsImportLine line) :
    Text.declared word line.toList = [] := by
  refine Text.declared_of_head_ne hword h.notMem ?_
  rw [h.head, ne_eq, Option.some.injEq]
  exact Ne.symm hw

/-- Import lines declare nothing. -/
theorem declared_importBlock
    {imports : List String}
    (hword : word.head? = some w)
    (hw : w ≠ 'i')
    (h : ∀ line ∈ imports, IsImportLine line)
    (rest : List Char) :
    Text.declared word ((importBlock imports).toList ++ rest) = Text.declared word rest := by
  unfold importBlock
  split_ifs
  · rfl
  · have hblock : ("\n".intercalate imports ++ "\n\n").toList ++ rest =
        Text.joinChars ['\n'] (imports.map String.toList) ++ '\n' :: ([] ++ '\n' :: rest) := by
      rw [String.toList_append, String.toList_intercalate, Text.joinChars_eq_intercalate,
        List.append_assoc]
      rfl
    have hlines : (imports.map String.toList).flatMap (Text.declared word) = [] := by
      rw [List.flatMap_eq_nil_iff]
      intro row hrow
      obtain ⟨line, hline, rfl⟩ := List.mem_map.mp hrow
      exact (h line hline).declared_eq_nil hword hw
    rw [hblock, Text.declared_append_newline, Text.declared_joinLines, hlines,
      Text.declared_append_newline, Text.declared_nil]
    rfl

end Words

/-! ### Helper functions -/

/-- The names of the commands of a kind, remarks apart. -/
def namesOf (kind : Classification → Bool) (commands : List Classification) : List String :=
  (commands.filter fun c => kind c && !c.isFailure).map (·.name)

theorem flatMap_declaration
    (kind : Classification → Bool)
    (commands : List Classification) :
    (commands.filter kind).flatMap Classification.declaration =
      (namesOf kind commands).map Literal.identifier := by
  unfold namesOf
  induction commands with
  | nil =>
      rfl
  | cons c commands ih =>
      rw [List.filter_cons, List.filter_cons]
      cases kind c with
      | false =>
          exact ih
      | true =>
          rw [if_pos rfl, List.flatMap_cons, ih, Classification.declaration]
          cases c.isFailure <;> rfl

theorem declared_trimEnd
    {word : List Char}
    (text : String) :
    Text.declared word (trimEnd text).toList = Text.declared word text.toList := by
  have hblanks : ∀ c ∈ (text.toList.reverse.takeWhile Text.isBlank).reverse,
      Text.isBlank c = true := by
    intro c hc
    exact List.all_eq_true.mp List.all_takeWhile c (List.mem_reverse.mp hc)
  rw [trimEnd, String.toList_ofList, ← Text.declared_append_blanks hblanks, ← List.reverse_append,
    List.takeWhile_append_dropWhile, List.reverse_reverse]

theorem declared_helpersBody
    {helpers : List Classification}
    (h : ∀ c ∈ helpers, Text.declared functionWord c.code.toList = c.declaration) :
    Text.declared functionWord (helpersBody helpers).toList =
      helpers.flatMap Classification.declaration := by
  have hsep : ∀ first second : List Char,
      Text.declared functionWord (first ++ "\n\n".toList ++ second) =
        Text.declared functionWord first ++ Text.declared functionWord second := by
    intro first second
    have hsplit : first ++ "\n\n".toList ++ second = first ++ '\n' :: ([] ++ '\n' :: second) := by
      simp
    rw [hsplit, Text.declared_append_newline, Text.declared_append_newline, Text.declared_nil,
      List.nil_append]
  rw [helpersBody, String.toList_intercalate, ← Text.joinChars_eq_intercalate,
    Text.declared_joinChars hsep, List.map_map, List.flatMap_map]
  refine List.flatMap_congr fun c hc => ?_
  rw [Function.comp_apply, declared_trimEnd, h c hc]

theorem strategy_of_isHelper
    {c : Classification}
    (h : isHelper c = true) :
    c.strategy = .utility ∨ c.strategy = .manual := by
  simpa [isHelper] using h

/-- The helper file declares one function for every helper. -/
theorem declared_helpersText
    {commands : List Classification}
    {text : String}
    (hshape : ∀ c ∈ commands, c.WellShaped)
    (hdeclares : ∀ c ∈ commands, c.Declares)
    (h : helpersText commands = some text) :
    Text.declared functionWord text.toList =
      (namesOf isHelper commands).map Literal.identifier := by
  rw [helpersText] at h
  split_ifs at h
  rw [Option.some.injEq] at h
  subst h
  have hcode : ∀ c ∈ commands.filter isHelper,
      Text.declared functionWord c.code.toList = c.declaration := by
    intro c hc
    rw [List.mem_filter] at hc
    exact (hdeclares c hc.1).helper (strategy_of_isHelper hc.2)
  have himports : ∀ line ∈ helpersImports (commands.filter isHelper), IsImportLine line := by
    intro line hline
    rw [helpersImports, List.mem_append, mem_addLines, List.mem_flatMap] at hline
    rcases hline with (hline | ⟨c, hc, hline⟩) | hline
    · cases hline
    · exact isImportLine_of_wellShaped (hshape c (List.mem_of_mem_filter hc)) hline
    · split_ifs at hline
      · rw [List.mem_singleton.mp hline]
        exact isImportLine_expectImport
      · cases hline
  rw [String.toList_append, String.toList_append, List.append_assoc,
    declared_importBlock head?_functionWord (by decide) himports]
  refine (Text.declared_concat (by decide) _).trans ?_
  rw [declared_helpersBody hcode, flatMap_declaration]

/-! ### Page methods -/

/-- What the line of a method starts with inside the class. -/
def memberWord : List Char :=
  ' ' :: ' ' :: methodWord

theorem head?_memberWord :
    memberWord.head? = some ' ' := by
  rfl

/-- A line of a method inside the class, without its end. -/
def memberRow (row : List Char) : List Char :=
  if row.isEmpty then [] else ' ' :: ' ' :: row

theorem toList_methodLine
    (row : List Char) :
    (methodLine (String.ofList row)).toList = memberRow row ++ ['\n'] := by
  unfold methodLine memberRow
  cases row with
  | nil =>
      rfl
  | cons c row =>
      simp

theorem declaredName?_memberRow
    (row : List Char) :
    Text.declaredName? memberWord (memberRow row) = Text.declaredName? methodWord row := by
  cases row with
  | nil =>
      rfl
  | cons c row =>
      apply Option.ext
      intro name
      have hrow : memberRow (c :: row) = ' ' :: ' ' :: c :: row := by
        rfl
      simp only [Text.declaredName?_eq_some_iff, hrow, memberWord, List.cons_append,
        List.cons.injEq, true_and]

theorem declared_memberRows
    {rows : List (List Char)}
    (h : ∀ row ∈ rows, '\n' ∉ row)
    (rest : List Char) :
    Text.declared memberWord (rows.flatMap (memberRow · ++ ['\n']) ++ rest) =
      rows.filterMap (Text.declaredName? methodWord) ++ Text.declared memberWord rest := by
  induction rows with
  | nil =>
      rfl
  | cons row rows ih =>
      rw [List.forall_mem_cons] at h
      have hrow : '\n' ∉ memberRow row := by
        unfold memberRow
        split_ifs
        · exact List.not_mem_nil
        · simpa using h.1
      rw [List.flatMap_cons, List.append_assoc, List.append_assoc, List.singleton_append,
        Text.declared_append_newline, ih h.2, Text.declared_of_not_mem hrow,
        declaredName?_memberRow, List.filterMap_cons]
      cases Text.declaredName? methodWord row <;> rfl

/-- Inside the class a method declares what its code does. -/
theorem declared_methodText
    (c : Classification)
    (rest : List Char) :
    Text.declared memberWord ((methodText c).toList ++ rest) =
      Text.declared methodWord c.code.toList ++ Text.declared memberWord rest := by
  have htext : (methodText c).toList ++ rest =
      [] ++ '\n' :: ((Text.lines c.code.toList).flatMap (memberRow · ++ ['\n']) ++ rest) := by
    rw [methodText, String.toList_append, String.toList_join, Text.linesOf, List.map_map,
      List.flatMap_map]
    simp only [Function.comp_apply, toList_methodLine]
    rfl
  rw [htext, Text.declared_append_newline, Text.declared_nil, List.nil_append,
    declared_memberRows fun row hrow => Text.not_mem_of_mem_lines hrow, Text.filterMap_lines]

theorem declared_methodTexts
    {methods : List Classification}
    (h : ∀ c ∈ methods, Text.declared methodWord c.code.toList = c.declaration)
    (rest : List Char) :
    Text.declared memberWord ((String.join (methods.map methodText)).toList ++ rest) =
      methods.flatMap Classification.declaration ++ Text.declared memberWord rest := by
  induction methods with
  | nil =>
      rfl
  | cons c methods ih =>
      rw [List.forall_mem_cons] at h
      rw [List.map_cons, String.join_cons, String.toList_append, List.append_assoc,
        declared_methodText, ih h.2, h.1, List.flatMap_cons, List.append_assoc]

/-- The first lines of a class, which no method is in. -/
theorem declared_classHead
    {className : String}
    (hname : '\n' ∉ className.toList)
    (rest : List Char) :
    Text.declared memberWord
        (("export class " ++ className ++ " \x7b\n" ++
          "  constructor(private readonly page: Page) \x7b\x7d\n").toList ++ rest) =
      Text.declared memberWord rest := by
  have hclass : '\n' ∉ "export class ".toList ++ className.toList ++ " \x7b".toList := by
    simp only [List.mem_append, not_or]
    exact ⟨⟨by decide, hname⟩, by decide⟩
  have hend : " \x7b\n".toList = " \x7b".toList ++ ['\n'] := by
    rfl
  have hconstructor : "  constructor(private readonly page: Page) \x7b\x7d\n".toList =
      "  constructor(private readonly page: Page) \x7b\x7d".toList ++ ['\n'] := by
    decide +kernel
  have hnone : Text.declared memberWord
      "  constructor(private readonly page: Page) \x7b\x7d".toList = [] := by
    decide +kernel
  have hhead : ("export class " ++ className ++ " \x7b\n" ++
      "  constructor(private readonly page: Page) \x7b\x7d\n").toList ++ rest =
        "export class ".toList ++ className.toList ++ " \x7b".toList ++ '\n' ::
          ("  constructor(private readonly page: Page) \x7b\x7d".toList ++ '\n' :: rest) := by
    simp only [String.toList_append, hend, hconstructor, List.append_assoc, List.cons_append,
      List.nil_append]
  rw [hhead, Text.declared_append_newline, Text.declared_append_newline, hnone,
    Text.declared_of_head_ne head?_memberWord hclass (by simp)]
  rfl

/-- A class declares one method for every page action. -/
theorem declared_classText
    {commands : List Classification}
    {className text : String}
    (hname : '\n' ∉ className.toList)
    (hshape : ∀ c ∈ commands, c.WellShaped)
    (hdeclares : ∀ c ∈ commands, c.Declares)
    (h : classText className commands = some text) :
    Text.declared memberWord text.toList =
      (namesOf isPageMethod commands).map Literal.identifier := by
  have hcode : ∀ c ∈ commands.filter isPageMethod,
      Text.declared methodWord c.code.toList = c.declaration := by
    intro c hc
    rw [List.mem_filter] at hc
    exact (hdeclares c hc.1).method (by simpa [isPageMethod] using hc.2)
  have himports : ∀ line ∈ addLines [pageTypeImport]
      ((commands.filter isPageMethod).flatMap (·.imports)), IsImportLine line := by
    intro line hline
    rw [mem_addLines, List.mem_flatMap] at hline
    rcases hline with hline | ⟨c, hc, hline⟩
    · rw [List.mem_singleton.mp hline]
      exact isImportLine_pageTypeImport
    · exact isImportLine_of_wellShaped (hshape c (List.mem_of_mem_filter hc)) hline
  have hbrace : Text.declared memberWord "\x7d\n".toList = [] := by
    decide
  unfold classText at h
  dsimp only at h
  split_ifs at h
  rw [Option.some.injEq] at h
  have htext : text.toList =
      (importBlock (addLines [pageTypeImport]
        ((commands.filter isPageMethod).flatMap (·.imports)))).toList ++
      (("export class " ++ className ++ " \x7b\n" ++
        "  constructor(private readonly page: Page) \x7b\x7d\n").toList ++
      ((String.join ((commands.filter isPageMethod).map methodText)).toList ++
        "\x7d\n".toList)) := by
    rw [← h]
    simp only [String.toList_append, List.append_assoc]
  rw [htext, declared_importBlock head?_memberWord (by decide) himports, declared_classHead hname,
    declared_methodTexts hcode, hbrace, List.append_nil, flatMap_declaration]

/-- The file of the page object declares one method for every page action. -/
theorem declared_pageObjectText
    {commands : List Classification}
    {text : String}
    (hshape : ∀ c ∈ commands, c.WellShaped)
    (hdeclares : ∀ c ∈ commands, c.Declares)
    (h : pageObjectText commands = some text) :
    Text.declared memberWord text.toList =
      (namesOf isPageMethod commands).map Literal.identifier := by
  rw [pageObjectText, Option.map_eq_some_iff] at h
  obtain ⟨code, hcode, rfl⟩ := h
  have hclass := declared_classText (by decide) hshape hdeclares hcode
  split_ifs
  · have hsplit : (expectImport ++ "\n" ++ code).toList =
        expectImport.toList ++ '\n' :: code.toList := by
      rw [String.toList_append, String.toList_append, List.append_assoc]
      rfl
    rw [hsplit, Text.declared_append_newline,
      isImportLine_expectImport.declared_eq_nil head?_memberWord (by decide), List.nil_append,
      hclass]
  · exact hclass

/-! ### Whole projects -/

/-- The text of a test file's path has an ending of its own. -/
theorem suffix_testPath
    (directory path : String) :
    ".spec.ts".toList <:+ (testPath directory path).toList := by
  obtain ⟨front, name, houtput⟩ : ∃ front name,
      outputPath (Path.componentsBelow directory path) =
        front ++ [.name (specName name)] := by
    unfold outputPath
    dsimp only
    split
    · exact ⟨_, _, rfl⟩
    · exact ⟨_, _, rfl⟩
  rw [testPath, houtput, Path.joined, String.toList_intercalate, ← Text.joinChars_eq_intercalate,
    List.map_append, List.map_append, List.map_singleton, List.map_singleton,
    Text.joinChars_concat, Path.Component.text, toList_specName]
  exact (List.suffix_append _ _).trans (List.suffix_append _ _)

section Shared

variable {project : Project}
variable {commands : List Classification}
variable {generated : Generated}

/-- A file that is no test is one of the shared files. -/
theorem mem_files_iff_of_not_suffix
    {path : String}
    (hcommands : classifyAll project.definitions project.specs = .ok commands)
    (h : generate project = .ok generated)
    (hpath : ¬ ".spec.ts".toList <:+ path.toList)
    (text : String) :
    ⟨path, text⟩ ∈ generated.files ↔ ⟨path, text⟩ ∈ sharedFiles commands project.baseUrl := by
  obtain ⟨same, hsame, h⟩ := Failure.bind_eq_ok.mp h
  obtain rfl : same = commands := by
    rw [hcommands] at hsame
    exact (Except.ok.inj hsame).symm
  obtain ⟨tests, htests, h⟩ := Failure.bind_eq_ok.mp h
  cases h
  have htest : ⟨path, text⟩ ∉ tests.map Prod.fst := by
    intro hmem
    have hpaths := List.mem_map_of_mem (f := OutputFile.path) hmem
    rw [paths_of_mapM htests] at hpaths
    obtain ⟨spec, -, rfl⟩ := List.mem_map.mp hpaths
    exact hpath (suffix_testPath _ _)
  rw [List.mem_append, or_iff_right htest]

/-- Each support file is there exactly if it has a text. -/
theorem mem_support_iff
    (hcommands : classifyAll project.definitions project.specs = .ok commands)
    (h : generate project = .ok generated)
    (text : String) :
    (⟨helpersFile, text⟩ ∈ generated.files ↔ helpersText commands = some text) ∧
    (⟨pageObjectFile, text⟩ ∈ generated.files ↔ pageObjectText commands = some text) := by
  have hpaths : helpersFile ≠ pageObjectFile ∧ helpersFile ≠ configFile ∧
      pageObjectFile ≠ configFile := by
    decide
  have hhelpers : ¬ ".spec.ts".toList <:+ helpersFile.toList := by
    decide
  have hpage : ¬ ".spec.ts".toList <:+ pageObjectFile.toList := by
    decide
  rw [mem_files_iff_of_not_suffix hcommands h hhelpers,
    mem_files_iff_of_not_suffix hcommands h hpage]
  simp [sharedFiles, hpaths, hpaths.1.symm]

end Shared

/-- The names are distinct, and the file declares their identifiers, each once exactly if distinct
names have distinct identifiers. -/
structure DeclaresEach (word : List Char) (names : List String) (file : OutputFile) : Prop where
  distinct : names.Nodup
  declared_eq : Text.declared word file.text.toList = names.map Literal.identifier
  nodup_iff :
    (Text.declared word file.text.toList).Nodup ↔
      ∀ first ∈ names, ∀ second ∈ names,
        Literal.identifier first = Literal.identifier second → first = second

theorem declaresEach_of_nodup
    {word : List Char}
    {names : List String}
    {file : OutputFile}
    (hnames : names.Nodup)
    (h : Text.declared word file.text.toList = names.map Literal.identifier) :
    DeclaresEach word names file := by
  refine ⟨hnames, h, ?_⟩
  rw [h, List.nodup_map_iff_inj_on hnames]

theorem nodup_namesOf
    {commands : List Classification}
    (h : ((commands.filter (!·.isFailure)).map (·.name)).Nodup)
    (kind : Classification → Bool) :
    (namesOf kind commands).Nodup := by
  rw [namesOf, ← List.filter_filter]
  exact h.sublist (List.filter_sublist.map _)

/-- In a valid project every support file declares a name once, exactly if no two of its commands
have names with one identifier. -/
theorem support_names_unique_iff
    {project : Project}
    {generated : Generated}
    (hvalid : Validation.check project = .ok ())
    (hquiet : ∀ definition ∈ project.definitions, definition.IsQuiet)
    (hcalls : ∀ command ∈ undefinedCalls project project.specs,
      CustomCommand.findRegistration? command.source.toList = none)
    (h : generate project = .ok generated) :
    ∃ commands,
      classifyAll project.definitions project.specs = .ok commands ∧
      ∀ file ∈ generated.files,
        (file.path = "support/helpers.ts" →
          DeclaresEach "export async function ".toList (namesOf isHelper commands) file) ∧
        (file.path = "support/custom-commands.ts" →
          DeclaresEach "  async ".toList (namesOf isPageMethod commands) file) := by
  obtain ⟨commands, hcommands, -⟩ := Failure.bind_eq_ok.mp h
  have hnames := nodup_names_classifyAll hvalid hcalls hcommands
  have hshape := wellShaped_of_classifyAll hcommands
  have hdeclares := declares_classifyAll hquiet hcalls hcommands
  refine ⟨commands, hcommands, ?_⟩
  rintro ⟨path, text⟩ hfile
  have hsupport := mem_support_iff hcommands h text
  refine ⟨?_, ?_⟩
  · rintro rfl
    exact declaresEach_of_nodup (nodup_namesOf hnames _)
      (declared_helpersText hshape hdeclares (hsupport.1.mp hfile))
  · rintro rfl
    exact declaresEach_of_nodup (nodup_namesOf hnames _)
      (declared_pageObjectText hshape hdeclares (hsupport.2.mp hfile))

/-- A project with custom commands of its own and a call of a well-known one. -/
def menuProject (definitions : List Definition) : Project :=
  { sourceDir := "/p"
    specs :=
      [{ path := "/p/a.cy.js"
         nodes := [.test (.string "opens") .none
           [.command ⟨"login", [], []⟩ default] default] }]
    definitions }

/-- A custom command without a body, and one that is a page action. -/
def menuDefinitions : List Definition :=
  [{ name := "open-menu" },
   { name := "close all"
     body := "cy.get('a').click();\ncy.get('b').click();\ncy.get('c').click();" }]

theorem support_names_unique_iff_menu :
    ∃ generated helpers pageObject,
      generate (menuProject menuDefinitions) = .ok generated ∧
      helpers ∈ generated.files ∧
      helpers.path = "support/helpers.ts" ∧
      Text.declared "export async function ".toList helpers.text.toList = ["openMenu", "login"] ∧
      (Text.declared "export async function ".toList helpers.text.toList).Nodup ∧
      pageObject ∈ generated.files ∧
      pageObject.path = "support/custom-commands.ts" ∧
      Text.declared "  async ".toList pageObject.text.toList = ["closeAll"] := by
  obtain ⟨generated, hgenerated⟩ : ∃ generated,
      generate (menuProject menuDefinitions) = .ok generated := by
    exact Failure.exists_of_isSome (by decide +kernel)
  obtain ⟨commands, hcommands, hfiles⟩ :=
    support_names_unique_iff (by decide) (by decide +kernel) (by decide +kernel) hgenerated
  have hfacts : (classifyAll (menuProject menuDefinitions).definitions
      (menuProject menuDefinitions).specs).toOption.map (fun commands =>
        ((helpersText commands).isSome, namesOf isHelper commands,
          (pageObjectText commands).isSome, namesOf isPageMethod commands)) =
      some (true, ["open-menu", "login"], true, ["close all"]) := by
    decide +kernel
  rw [hcommands] at hfacts
  simp only [Except.toOption, Option.map_some, Option.some.injEq, Prod.mk.injEq] at hfacts
  obtain ⟨hhelpers, hfunctions, hpage, hmethods⟩ := hfacts
  obtain ⟨helpers, hhelpers⟩ := Option.isSome_iff_exists.mp hhelpers
  obtain ⟨page, hpage⟩ := Option.isSome_iff_exists.mp hpage
  have hhelpersFile := (mem_support_iff hcommands hgenerated helpers).1.mpr hhelpers
  have hpageFile := (mem_support_iff hcommands hgenerated page).2.mpr hpage
  have hdeclared := (hfiles _ hhelpersFile).1 rfl
  have hdeclaredPage := (hfiles _ hpageFile).2 rfl
  rw [hfunctions] at hdeclared
  rw [hmethods] at hdeclaredPage
  have hidentifiers : ["open-menu", "login"].map Literal.identifier = ["openMenu", "login"] ∧
      ["close all"].map Literal.identifier = ["closeAll"] := by
    decide
  exact ⟨generated, ⟨helpersFile, helpers⟩, ⟨pageObjectFile, page⟩, hgenerated, hhelpersFile, rfl,
    hdeclared.declared_eq.trans hidentifiers.1, hdeclared.nodup_iff.mpr (by decide),
    hpageFile, rfl, hdeclaredPage.declared_eq.trans hidentifiers.2⟩

/-- Two custom commands with distinct names and one identifier. -/
def twinDefinitions : List Definition :=
  [{ name := "open-menu" }, { name := "openMenu" }]

/-- Validation tells two names apart, and the helper file declares the identifier of both twice. -/
theorem identifier_declared_twice :
    Validation.check (menuProject twinDefinitions) = .ok () ∧
    ∃ generated helpers,
      generate (menuProject twinDefinitions) = .ok generated ∧
      helpers ∈ generated.files ∧
      helpers.path = "support/helpers.ts" ∧
      Text.declared "export async function ".toList helpers.text.toList =
        ["openMenu", "openMenu", "login"] := by
  refine ⟨by decide, ?_⟩
  obtain ⟨generated, hgenerated⟩ : ∃ generated,
      generate (menuProject twinDefinitions) = .ok generated := by
    exact Failure.exists_of_isSome (by decide +kernel)
  obtain ⟨commands, hcommands, -⟩ := Failure.bind_eq_ok.mp hgenerated
  have hfacts : (classifyAll (menuProject twinDefinitions).definitions
      (menuProject twinDefinitions).specs).toOption.map (fun commands =>
        ((helpersText commands).isSome, (namesOf isHelper commands).map Literal.identifier)) =
      some (true, ["openMenu", "openMenu", "login"]) := by
    decide +kernel
  rw [hcommands] at hfacts
  simp only [Except.toOption, Option.map_some, Option.some.injEq, Prod.mk.injEq] at hfacts
  obtain ⟨helpers, hhelpers⟩ := Option.isSome_iff_exists.mp hfacts.1
  have hdeclares := declares_classifyAll (by decide +kernel) (by decide +kernel) hcommands
  have hdeclared := declared_helpersText (wellShaped_of_classifyAll hcommands) hdeclares hhelpers
  exact ⟨generated, ⟨helpersFile, helpers⟩, hgenerated,
    (mem_support_iff hcommands hgenerated helpers).1.mpr hhelpers, rfl, hdeclared.trans hfacts.2⟩

end Output
end SuiteShift
