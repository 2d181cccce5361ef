import SuiteShift.Command.Basic
import SuiteShift.CustomCommand.Registration
import SuiteShift.Proofs.Literal.Quoted
import SuiteShift.Proofs.Number.Numeral
import SuiteShift.Proofs.Text.Search

/-!
# Calls through text

A call of a custom command is written as source text and read from it again.

- `Value.isArgument_code`, `Value.wellNested_code`: what is written for a value is one argument.
- `findCall?_source`: the first call in the text of a command is the command's own.
- `call_survives_text`: name and arguments come back, string literals with their contents.
-/

namespace SuiteShift

/-! ### Arguments -/

namespace Double

theorem isPlain_of_isNumeralChar
    {c : Char}
    (h : isNumeralChar c = true) :
    Literal.isPlain c = true := by
  have hcode : 45 ≤ c.toNat ∧ c.toNat ≠ 47 ∧ c.toNat < 58 := by
    simp only [isNumeralChar, Bool.or_eq_true, beq_iff_eq] at h
    rcases h with (h | rfl) | rfl
    · have hdigit : 48 ≤ c.toNat ∧ c.toNat ≤ 57 := by
        simpa [Char.isDigit, UInt32.le_iff_toNat_le] using h
      omega
    · decide
    · decide
  have hplain : ∀ n < 58, 45 ≤ n → n ≠ 47 → Literal.isPlain (Char.ofNat n) = true := by
    decide
  rw [← Char.ofNat_toNat c]
  exact hplain c.toNat hcode.2.2 hcode.1 hcode.2.1

theorem isPlain_of_mem_unsignedZeroText
    {x : Double}
    {c : Char}
    (h : c ∈ x.unsignedZeroText.toList) :
    Literal.isPlain c = true := by
  rcases x.unsignedZeroText_cases with hnumeral | hword
  · exact isPlain_of_isNumeralChar (hnumeral c h)
  · have hwords : ∀ word ∈ ["NaN", "inf", "-inf"], word.toList.all Literal.isPlain = true := by
      decide
    exact List.all_eq_true.mp (hwords _ hword) c h

end Double

namespace Value

/-- Source text that is carried through as an argument is one, and closes what it opens. -/
structure Carried (args : List Value) : Prop where
  isArgument : ∀ source, Value.raw source ∈ args → Literal.IsArgument source.toList
  wellNested : ∀ source, Value.raw source ∈ args → Literal.WellNested source.toList

theorem isPlain_code_bool
    (value : Bool) :
    ∀ c ∈ (Value.bool value).code.toList, Literal.isPlain c = true := by
  rw [← List.all_eq_true]
  cases value <;> decide

theorem isArgument_code
    {args : List Value}
    (h : Carried args)
    {value : Value}
    (hvalue : value ∈ args) :
    Literal.IsArgument value.code.toList := by
  cases value with
  | bool value =>
      refine Literal.isArgument_plain ?_ (isPlain_code_bool value)
      cases value <;> decide
  | number value =>
      refine Literal.isArgument_plain ?_ fun c hc => Double.isPlain_of_mem_unsignedZeroText hc
      exact fun hnil => value.unsignedZeroText_ne_empty (String.toList_eq_nil_iff.mp hnil)
  | string text =>
      exact Literal.isArgument_quote text
  | raw source =>
      exact h.isArgument source hvalue

theorem wellNested_code
    {args : List Value}
    (h : Carried args)
    {value : Value}
    (hvalue : value ∈ args) :
    Literal.WellNested value.code.toList := by
  cases value with
  | bool value =>
      exact Literal.wellNested_plain (isPlain_code_bool value)
  | number value =>
      exact Literal.wellNested_plain fun c hc => Double.isPlain_of_mem_unsignedZeroText hc
  | string text =>
      exact Literal.wellNested_quote text
  | raw source =>
      exact h.wellNested source hvalue

theorem toList_codeList
    (args : List Value) :
    (codeList args).toList =
      Text.joinChars [',', ' '] (args.map fun value => value.code.toList) := by
  rw [codeList, String.toList_intercalate, List.map_map, Text.joinChars_eq_intercalate]
  rfl

/-- A written argument list is well nested. -/
theorem wellNested_codeList
    {args : List Value}
    (h : Carried args) :
    Literal.WellNested (codeList args).toList := by
  rw [toList_codeList]
  refine Literal.wellNested_join fun arg harg => ?_
  obtain ⟨value, hvalue, rfl⟩ := List.mem_map.mp harg
  exact wellNested_code h hvalue

/-- A written argument list has the arguments it was written for. -/
theorem arguments_codeList
    {args : List Value}
    (h : Carried args) :
    Literal.arguments (codeList args) = args.map code := by
  have harguments : ∀ arg ∈ args.map fun value => value.code.toList, Literal.IsArgument arg := by
    intro arg harg
    obtain ⟨value, hvalue, rfl⟩ := List.mem_map.mp harg
    exact isArgument_code h hvalue
  rw [Literal.arguments, toList_codeList, Literal.argumentChars_join harguments, List.map_map]
  simp [Function.comp_def]

end Value

/-! ### Names -/

namespace CustomCommand

/-- A further character of a plain name. -/
def isPlainNamePart (c : Char) : Bool :=
  isCallStart c || Text.isAsciiDigit c

/-- ASCII letters, digits, underscores and dollar signs, with no digit at the start. -/
def isPlainName : List Char → Bool
  | [] => false
  | c :: cs => isCallStart c && cs.all isPlainNamePart

theorem toNat_lt_of_isPlainNamePart
    {c : Char}
    (h : isPlainNamePart c = true) :
    c.toNat < 128 := by
  simp only [isPlainNamePart, isCallStart, Text.isAsciiLetter, Text.isAsciiDigit,
    Bool.or_eq_true, Bool.and_eq_true, decide_eq_true_eq, beq_iff_eq, Char.le_def,
    UInt32.le_iff_toNat_le] at h
  rcases h with ((((h | h) | rfl) | rfl) | h)
  · exact h.2.trans_lt (by decide)
  · exact h.2.trans_lt (by decide)
  · decide
  · decide
  · exact h.2.trans_lt (by decide)

theorem isCallPart_of_isPlainNamePart
    {c : Char}
    (h : isPlainNamePart c = true) :
    isCallPart c = true := by
  have hascii := toNat_lt_of_isPlainNamePart h
  simp only [isPlainNamePart, isCallStart, Bool.or_eq_true] at h
  simp only [isCallPart, Text.isWord, if_pos hascii, Bool.or_eq_true]
  tauto

theorem isBlank_of_isCallStart
    {c : Char}
    (h : isCallStart c = true) :
    Text.isBlank c = false := by
  exact Text.isBlank_eq_false (by decide) h

/-- A name ends at the parenthesis after it. -/
theorem namedCall?_append
    {name : List Char}
    (h : isPlainName name = true)
    (rest : List Char) :
    namedCall? (name ++ '(' :: rest) = some (name, '(' :: rest) := by
  cases name with
  | nil =>
      cases h
  | cons c cs =>
      simp only [isPlainName, Bool.and_eq_true, List.all_eq_true] at h
      have hparts : ∀ d ∈ cs, isCallPart d = true :=
        fun d hd => isCallPart_of_isPlainNamePart (h.2 d hd)
      have hparen : isCallPart '(' = false := by
        decide
      have htake : (cs ++ '(' :: rest).takeWhile isCallPart = cs := by
        rw [List.takeWhile_append_of_pos hparts, List.takeWhile_cons_of_neg (by simp [hparen]),
          List.append_nil]
      have hdrop : (cs ++ '(' :: rest).dropWhile isCallPart = '(' :: rest := by
        rw [List.dropWhile_append_of_pos hparts, List.dropWhile_cons_of_neg (by simp [hparen])]
      rw [List.cons_append, namedCall?, if_pos h.1, htake, hdrop]
      rfl

theorem wordAndBlanks?_append
    {cs : List Char}
    (h : ∀ c ∈ cs.head?, Text.isBlank c = false)
    (word : String) :
    wordAndBlanks? word (word.toList ++ cs) = some cs := by
  rw [wordAndBlanks?, Text.stripStart_eq_some_iff.mpr rfl, Option.map_some, Text.dropBlanks,
    Text.dropBlanks_eq_self h]

/-- Nothing stands before the start of a text, so a call there starts at a word boundary. -/
theorem findCallAfter?_of_driverCall?
    {cs : List Char}
    {call : List Char × List Char}
    (h : driverCall? cs = some call) :
    findCallAfter? none cs = some call := by
  cases cs with
  | nil =>
      cases h
  | cons c cs =>
      rw [findCallAfter?, h]
      rfl

/-- A call on the driver object at the start of a text is the first call in it. -/
theorem findCall?_append
    {name : List Char}
    (h : isPlainName name = true)
    (rest : List Char) :
    findCall? ("cy.".toList ++ (name ++ '(' :: rest)) = some (name, '(' :: rest) := by
  have hname : ∀ d ∈ (name ++ '(' :: rest).head?, Text.isBlank d = false := by
    cases name with
    | nil =>
        cases h
    | cons c cs =>
        simp only [isPlainName, Bool.and_eq_true] at h
        intro d hd
        rw [List.cons_append, List.head?_cons, Option.mem_some] at hd
        exact isBlank_of_isCallStart (hd ▸ h.1)
  have hdot : ∀ d ∈ (".".toList ++ (name ++ '(' :: rest)).head?, Text.isBlank d = false := by
    rintro d ⟨⟩
    rfl
  have hdriver : driverCall? ("cy".toList ++ (".".toList ++ (name ++ '(' :: rest))) =
      some (name, '(' :: rest) := by
    rw [driverCall?, wordAndBlanks?_append hdot, Option.bind_eq_bind, Option.bind_some,
      wordAndBlanks?_append hname, Option.bind_some, namedCall?_append h]
  exact findCallAfter?_of_driverCall? hdriver

theorem toList_source
    (command : Command) :
    ∃ rest, command.source.toList =
      "cy.".toList ++ (command.name.toList ++
        '(' :: (Value.codeList command.args).toList ++ ')' :: rest) := by
  refine ⟨(String.join (command.calls.map Call.source)).toList, ?_⟩
  simp [Command.source, String.toList_append]

/-- The name and the arguments of a call come back from its text, whatever is chained to it. -/
theorem call_survives_text
    {command : Command}
    (hname : isPlainName command.name.toList = true)
    (hargs : Value.Carried command.args) :
    readCall command.source.toList =
      .ok (command.name.toList, (Value.codeList command.args).toList) ∧
    Literal.arguments (Value.codeList command.args) = command.args.map Value.code ∧
    ∀ (i : Nat) (text : String), command.args[i]? = some (.string text) →
      ∃ token, (Literal.arguments (Value.codeList command.args))[i]? = some token ∧
        Literal.unescape (Literal.stripQuotes token) = text := by
  refine ⟨?_, Value.arguments_codeList hargs, ?_⟩
  · obtain ⟨rest, hsource⟩ := toList_source command
    rw [readCall, hsource, List.append_assoc, List.cons_append, findCall?_append hname]
    dsimp only
    rw [← List.cons_append, Literal.parenthesized?_of_wellNested (Value.wellNested_codeList hargs)]
  · intro i text hi
    refine ⟨Literal.quote text, ?_, Literal.unescape_stripQuotes_quote text⟩
    rw [Value.arguments_codeList hargs, List.getElem?_map, hi]
    rfl

/-- A call whose arguments hold quotes, commas and brackets of every kind, and a callback. -/
def trickyCall : Command where
  name := "log$in_2"
  args :=
    [.string "it's, (a] \\", .number (.finite true 6755399441055744 (-52)), .bool true,
      .raw "\x7b a: [1, ')'], f: (x, y) => g(x, \"]\") \x7d", .string ""]
  calls := [⟨"should", [.string ") , ("]⟩]

theorem trickyCall_survives_text :
    isPlainName trickyCall.name.toList = true ∧ Value.Carried trickyCall.args ∧
    readCall trickyCall.source.toList =
      .ok (trickyCall.name.toList, (Value.codeList trickyCall.args).toList) ∧
    Literal.arguments (Value.codeList trickyCall.args) =
      ["'it\\'s, (a] \\\\'", "-1.5", "true",
        "\x7b a: [1, ')'], f: (x, y) => g(x, \"]\") \x7d", "''"] ∧
    ∃ token, (Literal.arguments (Value.codeList trickyCall.args))[0]? = some token ∧
      Literal.unescape (Literal.stripQuotes token) = "it's, (a] \\" := by
  have hraw : ∀ source, Value.raw source ∈ trickyCall.args →
      source = "\x7b a: [1, ')'], f: (x, y) => g(x, \"]\") \x7d" := by
    intro source hsource
    simpa [trickyCall] using hsource
  have hname : isPlainName trickyCall.name.toList = true := by
    decide
  have hargs : Value.Carried trickyCall.args := by
    refine ⟨fun source hsource => ?_, fun source hsource => ?_⟩
    · rw [hraw source hsource]
      exact ⟨by decide, by decide, by decide, by decide⟩
    · rw [hraw source hsource]
      exact ⟨by decide, by decide⟩
  have hcode : trickyCall.args.map Value.code =
      ["'it\\'s, (a] \\\\'", "-1.5", "true",
        "\x7b a: [1, ')'], f: (x, y) => g(x, \"]\") \x7d", "''"] := by
    decide +kernel
  obtain ⟨hread, harguments, hstrings⟩ := call_survives_text hname hargs
  exact ⟨hname, hargs, hread, harguments.trans hcode, hstrings 0 _ rfl⟩

end CustomCommand
end SuiteShift
