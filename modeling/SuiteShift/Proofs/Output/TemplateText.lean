import SuiteShift.Proofs.Output.Placement
import SuiteShift.Proofs.Output.Totals
import SuiteShift.Proofs.Text.Indent

/-!
# Template literals in generated tests

An argument that is a template literal is carried through as source text, so the code of its
command has it as it was written. The code is then moved to its level of nesting line by line.

- `emitted`: the code of a command in a test, before it is placed.
- `lines_writeCommand`: its lines are all that is written for the command.
- `exists_code_ofWritten`: a text in one piece of a file is in the file.
- `template_text_kept_iff`: where a literal stands in the file, and when it stands there unchanged.
-/

namespace SuiteShift
namespace Output

variable {registry : Registry}

/-! ### The text of what is written -/

namespace Written

@[simp] theorem lines_append
    (a b : Written) :
    (a ++ b).lines = a.lines ++ b.lines := by
  rfl

@[simp] theorem lines_counted
    (converted : Bool) :
    (counted converted).lines = [] := by
  rfl

@[simp] theorem lines_warnings
    (span : Span)
    (messages : List String) :
    (warnings span messages).lines = [] := by
  rfl

theorem toList_text
    (written : Written) :
    written.text.toList = written.lines.flatMap fun line => line.toList ++ ['\n'] := by
  rw [text, String.toList_join, List.flatMap_map]
  simp only [String.toList_append]
  rfl

theorem text_append
    (a b : Written) :
    (a ++ b).text = a.text ++ b.text := by
  rw [← String.toList_inj, String.toList_append]
  simp only [toList_text]
  exact List.flatMap_append

theorem toList_text_block
    (depth : Nat)
    (code : String) :
    (block depth code).text.toList = Text.indented depth (Text.lines code.toList) := by
  have hline : ∀ row : List Char, (line depth (String.ofList row)).lines.flatMap
      (fun line => line.toList ++ ['\n']) = Text.indentLine depth row ++ ['\n'] := by
    intro row
    rw [line, List.flatMap_singleton, Text.indentLine]
    cases row with
    | nil =>
        rfl
    | cons c row =>
        simp
  rw [toList_text, block, Text.linesOf, List.flatMap_map, List.flatMap_assoc]
  simp only [hline]
  rfl

end Written

/-! ### The code of a command -/

/-- The code of a command in a test: of the call that was found for it, or as it is lowered. -/
def emitted (registry : Registry) (command : Command) : Except SourceError String :=
  (if (Rule.CommandRule.find? command.name).isSome then .ok none
    else registry.callSite? command).map fun site? =>
      match site? with
      | some site => site.code
      | none => command.lower.code

/-- The lines of a command are those of its code, and nothing else is written for it. -/
theorem lines_writeCommand
    {depth : Nat}
    {command : Command}
    {span : Span}
    {part : Written}
    {code : String}
    (hpart : writeCommand registry depth command span = .ok part)
    (hcode : emitted registry command = .ok code) :
    part.lines = (Written.block depth (terminate code)).lines := by
  rw [writeCommand_eq, Failure.map_eq_ok] at hpart
  obtain ⟨site?, hsite, rfl⟩ := hpart
  rw [emitted, hsite] at hcode
  cases site? with
  | some site =>
      obtain rfl : site.code = code := Except.ok.inj hcode
      simp [writeCalled, writeSite]
  | none =>
      obtain rfl : command.lower.code = code := Except.ok.inj hcode
      rw [writeCalled, writeResult]
      split_ifs with hempty
      · have hterminate : terminate "" = "" := by
          decide +kernel
        rw [String.isEmpty_iff] at hempty
        rw [hempty, hterminate]
        simp [Written.block, Text.linesOf, Text.lines, Text.linesAfter]
      · simp

theorem exists_terminate_eq_append
    (code : String) :
    ∃ rest, terminate code = code ++ rest := by
  unfold terminate
  dsimp only
  split_ifs
  · exact ⟨"", String.append_empty.symm⟩
  · exact ⟨";", rfl⟩

/-- A literal in the code of a command stands in what is written for the command. -/
theorem exists_text_writeCommand
    {depth : Nat}
    {command : Command}
    {span : Span}
    {part : Written}
    {literal before after : String}
    (hpart : writeCommand registry depth command span = .ok part)
    (hcode : emitted registry command = .ok (before ++ literal ++ after))
    (h : Text.IsTemplate literal.toList) :
    ∃ front back, part.text.toList =
      front ++ Text.reindent depth literal.toList ++ back := by
  obtain ⟨rest, hrest⟩ := exists_terminate_eq_append (before ++ literal ++ after)
  obtain ⟨front, back, hmoved⟩ :=
    Text.exists_indented_run depth before.toList (after ++ rest).toList
  refine ⟨front, back, ?_⟩
  rw [← hmoved literal.toList h.isRun, Written.toList_text, lines_writeCommand hpart hcode,
    ← Written.toList_text, Written.toList_text_block, hrest]
  simp only [String.toList_append, List.append_assoc]

/-! ### Whole files -/

/-- A text that does not begin with a line end is in a file if it is in a piece of it. -/
theorem exists_code_ofWritten
    {part whole : Written}
    {front text back : List Char}
    {c : Char}
    (hpart : Written.PartOf part whole)
    (htext : part.text.toList = front ++ c :: text ++ back)
    (hc : c ≠ '\n')
    (output : List Path.Component) :
    ∃ front back, (TestFile.ofWritten output whole).code =
      front ++ String.ofList (c :: text) ++ back := by
  obtain ⟨before, after, rfl⟩ := hpart
  -- The line ends that are dropped at the start of a file stand before the text.
  have hdrop : ((before ++ part ++ after).text.toList.dropWhile (· == '\n')) =
      (before.text.toList ++ front).dropWhile (· == '\n') ++
        (c :: text ++ (back ++ after.text.toList)) := by
    rw [Written.text_append, Written.text_append, String.toList_append, String.toList_append, htext]
    have hassoc : before.text.toList ++ (front ++ c :: text ++ back) ++ after.text.toList =
        (before.text.toList ++ front) ++ (c :: text ++ (back ++ after.text.toList)) := by
      simp
    rw [hassoc, List.dropWhile_append]
    split_ifs with hempty
    · rw [List.isEmpty_iff] at hempty
      rw [hempty, List.nil_append, List.cons_append, List.dropWhile_cons_of_neg (by simpa using hc)]
    · rfl
  refine ⟨importBlock (testImports output (before ++ part ++ after)) ++
      String.ofList ((before.text.toList ++ front).dropWhile (· == '\n')),
    String.ofList (back ++ after.text.toList), ?_⟩
  rw [TestFile.ofWritten]
  dsimp only
  rw [hdrop]
  simp only [String.ofList_append, String.append_assoc]

/-- A template literal in the code of a command of a test or hook stands in the generated file with
its lines but the first moved to the level of the command. So its text is kept if it has one line,
and a literal of several lines is always changed. -/
theorem template_text_kept_iff
    {spec : SpecFile}
    {output : List Path.Component}
    {file : TestFile}
    {depth : Nat}
    {command : Command}
    {span : Span}
    {literal before after : String}
    (hfile : TestFile.ofSpec spec output registry = .ok file)
    (hplaced : (depth, Statement.command command span) ∈ TestNode.placedOf 0 spec.nodes)
    (hliteral : Text.IsTemplate literal.toList)
    (hcode : emitted registry command = .ok (before ++ literal ++ after)) :
    (∃ front back, file.code =
      front ++ String.ofList (Text.reindent depth literal.toList) ++ back) ∧
    (Text.reindent depth literal.toList = literal.toList ↔ '\n' ∉ literal.toList) ∧
    ('\n' ∉ literal.toList → occursIn literal file.code = true) := by
  obtain ⟨written, hwritten, rfl⟩ := Failure.map_eq_ok.mp hfile
  obtain ⟨part, hpart, hin⟩ := partOf_writeNodes spec.nodes hwritten hplaced
  obtain ⟨front, back, htext⟩ := exists_text_writeCommand hpart hcode hliteral
  have hdepth := TestNode.lt_of_mem_placedOf spec.nodes hplaced
  have hkept := Text.reindent_eq_self_iff hdepth hliteral
  have hplace : ∃ front back, (TestFile.ofWritten output written).code =
      front ++ String.ofList (Text.reindent depth literal.toList) ++ back := by
    obtain ⟨more, hmore⟩ := Text.exists_reindent_template hliteral depth
    rw [hmore] at htext ⊢
    exact exists_code_ofWritten hin htext (by decide) output
  refine ⟨hplace, hkept, ?_⟩
  intro hone
  obtain ⟨front, back, heq⟩ := hplace
  rw [hkept.mpr hone, String.ofList_toList] at heq
  rw [heq]
  exact occursIn_between front literal back

/-- A literal of two lines. -/
def typedText : String :=
  "\x60one $\x7b1\x7d\ntwo\x60"

/-- A command that types it. -/
def typedCommand : Command :=
  ⟨"get", [.string "#a"], [⟨"type", [.raw typedText]⟩]⟩

/-- A test with that command. -/
def typedSpec : SpecFile :=
  { path := "cypress/e2e/a.cy.js"
    nodes := [.test (.string "x") .none [.command typedCommand default] default] }

theorem template_text_kept_iff_typed :
    ∃ file, TestFile.ofSpec typedSpec [] {} = .ok file ∧
      ∃ front back, file.code =
        front ++ "\x60one $\x7b1\x7d\n  two\x60" ++ back := by
  have hplaced : (1, Statement.command typedCommand default) ∈
      TestNode.placedOf 0 typedSpec.nodes := by
    decide +kernel
  have hliteral : Text.IsTemplate typedText.toList := by
    exact ⟨"one $\x7b1\x7d\ntwo".toList, by decide +kernel⟩
  have hcode : emitted {} typedCommand =
      .ok ("await page.locator('#a').fill(" ++ typedText ++ ")") := by
    decide +kernel
  have hmoved : String.ofList (Text.reindent 1 typedText.toList) =
      "\x60one $\x7b1\x7d\n  two\x60" := by
    decide +kernel
  obtain ⟨file, hfile⟩ : ∃ file, TestFile.ofSpec typedSpec [] {} = .ok file := by
    exact Failure.exists_of_isSome (by decide +kernel)
  obtain ⟨hplace, -, -⟩ := template_text_kept_iff hfile hplaced hliteral hcode
  rw [hmoved] at hplace
  exact ⟨file, hfile, hplace⟩

/-- The blanks before the second line become part of the text that is typed, and nothing reports
it. -/
theorem typed_text_changed :
    emitted {} typedCommand = .ok ("await page.locator('#a').fill(" ++ typedText ++ ")") ∧
    (TestFile.ofSpec typedSpec [] {}).toOption.map
      (fun file => (occursIn typedText file.code, file.converted, file.diagnostics)) =
        some (false, 1, []) := by
  decide +kernel

end Output
end SuiteShift
