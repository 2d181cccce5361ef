import SuiteShift.CustomCommand.Registration
import SuiteShift.Literal.Identifier
import SuiteShift.Proofs.CustomCommand.CallText
import SuiteShift.Proofs.CustomCommand.RegistrationReading
import SuiteShift.Proofs.Literal.Enclosed
import SuiteShift.Proofs.Spec.Shape

/-!
# Registrations through text

A registration is written as source text and read from it again.

- `IsBinding`: what a parameter without a type and a default is written as; every identifier is
  one, `isBinding_of_isIdentifier`.
- `functionText`, `registrationText`: a function and a registration as they are written.
- `splitFunction?_functionText`: a function is taken apart into what it was written from.
- `findRegistration?_callee`: a registration at the start of a text is the first one in it.
- `registration_survives_text`: name, parameters and body come back.
-/

namespace SuiteShift
namespace CustomCommand

open Spec (Registrar)

/-! ### Parameters -/

/-- A character that opens, closes and separates nothing, and with which no type, no default and
no mark of a parameter begins. -/
def isBindingChar (c : Char) : Bool :=
  Literal.isPlain c && !(c == ':' || c == '=' || c == '?')

/-- A parameter without a type and a default. -/
structure IsBinding (cs : List Char) : Prop where
  nonempty : cs ≠ []
  chars : ∀ c ∈ cs, isBindingChar c = true

namespace IsBinding

variable {cs : List Char}

theorem isPlain
    (h : IsBinding cs) :
    ∀ c ∈ cs, Literal.isPlain c = true := by
  intro c hc
  have hchar := h.chars c hc
  rw [isBindingChar, Bool.and_eq_true] at hchar
  exact hchar.1

theorem isArgument
    (h : IsBinding cs) :
    Literal.IsArgument cs := by
  exact Literal.isArgument_plain h.nonempty h.isPlain

theorem parameterName_append
    (h : IsBinding cs)
    {rest : List Char}
    (hrest : ∀ c ∈ rest.head?, (c == ':' || c == '=' || c == '?') = true) :
    parameterName (cs ++ rest) = cs := by
  have hkept : ∀ c ∈ cs, (!(c == ':' || c == '=' || c == '?')) = true := by
    intro c hc
    have hchar := h.chars c hc
    rw [isBindingChar, Bool.and_eq_true] at hchar
    exact hchar.2
  have htake : rest.takeWhile (fun c => !(c == ':' || c == '=' || c == '?')) = [] := by
    cases rest with
    | nil =>
        rfl
    | cons c rest =>
        rw [List.takeWhile_cons_of_neg (by rw [hrest c rfl]; decide)]
  rw [parameterName, List.takeWhile_append_of_pos hkept, htake, List.append_nil]
  exact h.isArgument.trimmed

theorem parameterName_eq
    (h : IsBinding cs) :
    parameterName cs = cs := by
  have hname : parameterName (cs ++ []) = cs := h.parameterName_append (by simp)
  rwa [List.append_nil] at hname

end IsBinding

theorem isBindingChar_of_isIdentifierChar
    {c : Char}
    (h : Literal.isIdentifierChar c = true) :
    isBindingChar c = true := by
  have hblank : Text.isBlank c = false :=
    Text.isBlank_eq_false (by decide +kernel) h
  have hmarks : ∀ d ∈ ['\'', '"', '\x60', '\x7b', '\x7d', '[', ']', '(', ')', ',', ':', '=', '?'],
      (!Literal.isIdentifierChar d) = true :=
    List.all_eq_true.mp (by decide)
  have hne : ∀ d, Literal.isIdentifierChar d = false → c ≠ d := by
    rintro d hd rfl
    rw [h] at hd
    cases hd
  simp only [List.forall_mem_cons, Bool.not_eq_true'] at hmarks
  simp [isBindingChar, Literal.isPlain, Literal.isDelimiter, hblank, hne, hmarks]

/-- Identifiers can be the names of parameters. -/
theorem isBinding_of_isIdentifier
    {cs : List Char}
    (h : Literal.isIdentifier cs = true) :
    IsBinding cs := by
  simp only [Literal.isIdentifier, Bool.and_eq_true, Bool.not_eq_true', List.all_eq_true] at h
  refine ⟨?_, fun c hc => isBindingChar_of_isIdentifierChar (h.1.2 c hc)⟩
  rintro rfl
  cases h.1.1

/-! ### Functions -/

/-- How a function is written. -/
inductive FunctionForm where
  | arrow
  | keyword
deriving DecidableEq, Repr

/-- What stands before the parameter list of a function. -/
def FunctionForm.opening : FunctionForm → List Char
  | .arrow => []
  | .keyword => "function ".toList

/-- What stands between the parameter list and the body of a function. -/
def FunctionForm.middle : FunctionForm → List Char
  | .arrow => [' ', '=', '>', ' ']
  | .keyword => [' ']

/-- A parameter list between its parentheses. -/
def parameterText (params : List (List Char)) : List Char :=
  '(' :: Text.joinChars [',', ' '] params ++ [')']

/-- A function with its body in braces. -/
def functionText (form : FunctionForm) (params : List (List Char)) (body : List Char) :
    List Char :=
  form.opening ++ parameterText params ++ form.middle ++ ('\x7b' :: body ++ ['\x7d'])

section Functions

variable {params : List (List Char)} {body : List Char}

theorem wellNested_params
    (h : ∀ param ∈ params, IsBinding param) :
    Literal.WellNested (Text.joinChars [',', ' '] params) := by
  exact Literal.wellNested_join fun param hparam =>
    Literal.wellNested_plain (h param hparam).isPlain

/-- Nothing in a function is at top level but blanks and the arrow. -/
theorem passedOver_functionText
    (hparams : ∀ param ∈ params, IsBinding param)
    (hbody : Literal.WellNested body)
    (form : FunctionForm) :
    Literal.PassedOver (functionText form params body) := by
  have hopening : Literal.PassedOver form.opening := by
    cases form <;> decide
  have hmiddle : Literal.PassedOver form.middle := by
    cases form <;> decide
  exact ((hopening.append (Literal.passedOver_parens (wellNested_params hparams))).append
    hmiddle).append (Literal.passedOver_braces hbody)

/-- A text that ends with a brace, and starts with no blank, is trimmed. -/
theorem trimChars_braced
    {front : List Char}
    (h : ∀ c ∈ (front ++ ['\x7d']).head?, Text.isBlank c = false) :
    Text.trimChars (front ++ ['\x7d']) = front ++ ['\x7d'] := by
  refine Text.trimChars_eq_self h ?_
  intro c hc
  rw [List.getLast?_concat, Option.mem_some] at hc
  rw [← hc]
  rfl

theorem trimChars_body
    (body : List Char) :
    Text.trimChars (' ' :: ('\x7b' :: body ++ ['\x7d'])) = '\x7b' :: body ++ ['\x7d'] := by
  rw [Text.trimChars_cons_of_isBlank rfl]
  refine trimChars_braced ?_
  rintro c ⟨⟩
  rfl

theorem trimChars_functionText
    (form : FunctionForm)
    (params : List (List Char))
    (body : List Char) :
    Text.trimChars (functionText form params body) = functionText form params body := by
  unfold functionText
  rw [← List.append_assoc]
  refine trimChars_braced ?_
  cases form with
  | arrow =>
      rintro c ⟨⟩
      rfl
  | keyword =>
      rintro c ⟨⟩
      rfl

theorem isArgument_functionText
    (hparams : ∀ param ∈ params, IsBinding param)
    (hbody : Literal.WellNested body)
    (form : FunctionForm) :
    Literal.IsArgument (functionText form params body) := by
  refine (passedOver_functionText hparams hbody form).isArgument ?_
    (trimChars_functionText form params body)
  simp [functionText]

/-- What is between the braces is the body, with its indentation removed. -/
theorem functionBody_braced
    (body : List Char) :
    functionBody ('\x7b' :: body ++ ['\x7d']) = dedentTrimmed body := by
  have hend : Text.stripEnd ['\x7d'] (body ++ ['\x7d']) = some body := by
    rw [Text.stripEnd, List.reverse_append]
    simp [Text.stripStart]
  have hstart : Text.stripStart ['\x7b'] ('\x7b' :: body ++ ['\x7d']) = some (body ++ ['\x7d']) :=
    Text.stripStart_eq_some_iff.mpr rfl
  rw [functionBody, hstart, Option.bind_some, hend]

/-- The parameter list ends at its own parenthesis. -/
theorem parenthesized?_parameterText
    (h : ∀ param ∈ params, IsBinding param)
    (rest : List Char) :
    Literal.parenthesized? (parameterText params ++ rest) =
      some (Text.joinChars [',', ' '] params, rest) := by
  rw [parameterText, List.append_assoc, List.singleton_append]
  exact Literal.parenthesized?_of_wellNested (wellNested_params h) rest

theorem functionParts?_functionText
    (h : ∀ param ∈ params, IsBinding param)
    (form : FunctionForm)
    (body : List Char) :
    functionParts? (functionText form params body) =
      some (Text.joinChars [',', ' '] params, '\x7b' :: body ++ ['\x7d']) := by
  cases form with
  | arrow =>
      have htext : functionText .arrow params body =
          parameterText params ++ ([' ', '=', '>', ' '] ++ ('\x7b' :: body ++ ['\x7d'])) := by
        rw [functionText, List.append_assoc]
        rfl
      have hword : Text.stripStart "function".toList (functionText .arrow params body) = none := by
        rfl
      have hhead : ((functionText .arrow params body).head? == some '(') = true := by
        rfl
      have harrow : Text.splitOnce "=>".toList
          (Text.dropBlanks ([' ', '=', '>', ' '] ++ ('\x7b' :: body ++ ['\x7d']))) =
          some ([], ' ' :: ('\x7b' :: body ++ ['\x7d'])) := by
        simp [Text.dropBlanks, Text.isBlank, Text.splitOnce, Text.stripStart]
      rw [functionParts?, hword]
      dsimp only
      rw [if_pos hhead, htext, parenthesized?_parameterText h]
      simp only [Option.bind_eq_bind, Option.bind_some, harrow, trimChars_body, Option.pure_def]
  | keyword =>
      have htext : functionText .keyword params body =
          "function".toList ++
            ' ' :: (parameterText params ++ ' ' :: ('\x7b' :: body ++ ['\x7d'])) := by
        rw [functionText, List.append_assoc, List.append_assoc]
        rfl
      have hdrop : (' ' :: (parameterText params ++ ' ' :: ('\x7b' :: body ++ ['\x7d']))).dropWhile
          (· != '(') = parameterText params ++ ' ' :: ('\x7b' :: body ++ ['\x7d']) := by
        rfl
      rw [functionParts?, htext, Text.stripStart_eq_some_iff.mpr rfl]
      dsimp only
      rw [hdrop, parenthesized?_parameterText h]
      simp only [Option.bind_eq_bind, Option.bind_some, trimChars_body, Option.pure_def]

/-- A function is taken apart into what it was written from. -/
theorem splitFunction?_functionText
    (h : ∀ param ∈ params, IsBinding param)
    (form : FunctionForm)
    (body : List Char) :
    splitFunction? (functionText form params body) = some (params, dedentTrimmed body) := by
  have hasync : Text.stripStart "async".toList (functionText form params body) = none := by
    cases form <;> rfl
  have hparams : (Literal.argumentChars (Text.joinChars [',', ' '] params)).map parameterName =
      params := by
    rw [Literal.argumentChars_join fun param hparam => (h param hparam).isArgument]
    exact (List.map_congr_left fun param hparam => (h param hparam).parameterName_eq).trans
      (List.map_id' params)
  rw [splitFunction?, trimChars_functionText]
  dsimp only
  rw [hasync, Option.map_none, Option.getD_none, functionParts?_functionText h]
  simp only [Option.bind_eq_bind, Option.bind_some, hparams, functionBody_braced, Option.pure_def]

end Functions

/-! ### Registrations -/

/-- A registration: the name as a literal, options if there are some, and a function. -/
def registrationText (registrar : Registrar) (name : String) (options : Option (List Char))
    (function : List Char) : List Char :=
  registrar.callee.toList ++
    ('(' :: Text.joinChars [',', ' ']
      ((Literal.quote name).toList :: (options.toList ++ [function])) ++ [')'])

/-- A registration at the start of a text is the first one in it. -/
theorem findRegistration?_callee
    (registrar : Registrar)
    (rest : List Char) :
    findRegistration? (registrar.callee.toList ++ '(' :: rest) = some ('(' :: rest) := by
  cases registrar with
  | add =>
      rfl
  | overwrite =>
      rfl

/-- The first argument gives the name, and the last one the function. -/
theorem readRegistration_eq_ok
    {list inside after function body : List Char}
    {name : String}
    {middle params : List (List Char)}
    (hlist : Literal.parenthesized? list = some (inside, after))
    (hargs : Literal.argumentChars inside =
      (Literal.quote name).toList :: (middle ++ [function]))
    (hfunction : splitFunction? function = some (params, body)) :
    readRegistration list =
      .ok { name, parameters := params.map String.ofList, body := String.ofList body } := by
  rw [readRegistration_eq hlist hargs, if_pos (Literal.isQuotedChars_quote name), hfunction,
    Literal.decode_stripChars_quote, String.ofList_toList]

/-- What a registration was written from comes back from its text. -/
theorem registration_survives_text
    {name : String}
    {params : List String}
    {options : Option (List Char)}
    {body : List Char}
    (hparams : ∀ param ∈ params, IsBinding param.toList)
    (hoptions : ∀ text ∈ options, Literal.IsArgument text ∧ Literal.WellNested text)
    (hbody : Literal.WellNested body)
    (registrar : Registrar)
    (form : FunctionForm) :
    (findRegistration? (registrationText registrar name options
      (functionText form (params.map String.toList) body))).map readRegistration =
      some (.ok
        { name
          parameters := params
          body := String.ofList (dedentTrimmed body) }) := by
  have hbindings : ∀ param ∈ params.map String.toList, IsBinding param := by
    intro param hparam
    obtain ⟨text, htext, rfl⟩ := List.mem_map.mp hparam
    exact hparams text htext
  have hfunction := isArgument_functionText hbindings hbody form
  have hargs : ∀ arg ∈ (Literal.quote name).toList :: (options.toList ++
      [functionText form (params.map String.toList) body]),
      Literal.IsArgument arg ∧ Literal.WellNested arg := by
    intro arg harg
    rw [List.mem_cons, List.mem_append, Option.mem_toList, List.mem_singleton] at harg
    rcases harg with rfl | harg | rfl
    · exact ⟨Literal.isArgument_quote name, Literal.wellNested_quote name⟩
    · exact hoptions arg harg
    · exact ⟨hfunction, (passedOver_functionText hbindings hbody form).wellNested⟩
  rw [registrationText, List.cons_append, findRegistration?_callee, Option.map_some]
  refine congrArg some (readRegistration_eq_ok
    (Literal.parenthesized?_of_wellNested
      (Literal.wellNested_join fun arg harg => (hargs arg harg).2) [])
    (Literal.argumentChars_join fun arg harg => (hargs arg harg).1)
    (splitFunction?_functionText hbindings form body)) |>.trans ?_
  rw [List.map_map]
  simp [Function.comp_def]

/-- The body of a registration with literals and a function of its own in it. -/
def trickyBody : List Char :=
  "\n    cy.get(`[id=\"$\x7bid\x7d\"]`).then((el, i) => \x7b\n      log(') \x7d', [el]);\n    \x7d);\n".toList

theorem registration_survives_text_tricky :
    (∀ param ∈ ["id", "größe_2"], IsBinding param.toList) ∧
    Literal.WellNested trickyBody ∧
    (findRegistration? (registrationText .overwrite "it's (a, b)"
      (some "\x7b prevSubject: ['a', 'b'] \x7d".toList)
      (functionText .arrow ["id".toList, "größe_2".toList] trickyBody))).map readRegistration =
      some (.ok
        { name := "it's (a, b)"
          parameters := ["id", "größe_2"]
          body := String.ofList (dedentTrimmed trickyBody) }) ∧
    String.ofList (dedentTrimmed trickyBody) =
      "cy.get(`[id=\"$\x7bid\x7d\"]`).then((el, i) => \x7b\n  log(') \x7d', [el]);\n\x7d);" := by
  have hparams : ∀ param ∈ ["id", "größe_2"], IsBinding param.toList := by
    have hidentifiers : ∀ param ∈ ["id", "größe_2"],
        Literal.isIdentifier param.toList = true := by
      decide +kernel
    exact fun param hparam => isBinding_of_isIdentifier (hidentifiers param hparam)
  have hoptions : ∀ text ∈ some "\x7b prevSubject: ['a', 'b'] \x7d".toList,
      Literal.IsArgument text ∧ Literal.WellNested text := by
    rintro text ⟨⟩
    exact ⟨⟨by decide, by decide, by decide, by decide⟩, ⟨by decide, by decide⟩⟩
  have hbody : Literal.WellNested trickyBody := by
    exact ⟨by decide +kernel, by decide +kernel⟩
  exact ⟨hparams, hbody, registration_survives_text hparams hoptions hbody .overwrite .arrow,
    by decide +kernel⟩

end CustomCommand
end SuiteShift
