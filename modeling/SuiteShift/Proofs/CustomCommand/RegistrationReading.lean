import SuiteShift.CustomCommand.Registration
import SuiteShift.Proofs.Literal.Closing
import SuiteShift.Proofs.Text.Search

/-!
# What the reading of a registration depends on

Each step of the reading looks at some part of the text and at nothing behind it.

- `findRegistration?_paren`: a registration is found up to its parenthesis.
- `exists_functionHead`: a function has a head, and all that follows it is its body.
- `exists_body_of_place`: so its parameters do not change when its body does, `splitFunction?_eq`.
- `readRegistration_eq`: the definition comes from the first argument and the last.
- `readRegistration_replace`: another last argument with the same parameters.
-/

namespace SuiteShift
namespace CustomCommand

/-! ### Finding the argument list -/

/-- What follows the callee of a registration that starts here. -/
def afterCallee? (cs : List Char) : Option (List Char) := do
  let cs ← wordAndBlanks? "Cypress" cs
  let cs ← wordAndBlanks? "." cs
  let cs ← wordAndBlanks? "Commands" cs
  let cs ← wordAndBlanks? "." cs
  wordAndBlanks? "add" cs <|> wordAndBlanks? "overwrite" cs

theorem registrationHere?_eq
    (cs : List Char) :
    registrationHere? cs = (afterCallee? cs).bind atParen? := by
  simp [registrationHere?, afterCallee?, Option.bind_assoc]

theorem wordAndBlanks?_append_paren
    {word : String}
    (h : '(' ∉ word.toList)
    (cs tail : List Char) :
    wordAndBlanks? word (cs ++ '(' :: tail) = (wordAndBlanks? word cs).map (· ++ '(' :: tail) := by
  rw [wordAndBlanks?, Text.stripStart_append (by rintro c ⟨⟩; exact h), wordAndBlanks?,
    Option.map_map, Option.map_map]
  refine congrArg (fun f => Option.map f _) (funext fun rest => ?_)
  exact Text.dropBlanks_append_of_head (by rintro c ⟨⟩; rfl) rest

/-- The callee of a registration ends before its parenthesis. -/
theorem afterCallee?_append
    (cs tail : List Char) :
    afterCallee? (cs ++ '(' :: tail) = (afterCallee? cs).map (· ++ '(' :: tail) := by
  have hword : ∀ word ∈ ["Cypress", ".", "Commands", "add", "overwrite"], ∀ rest,
      wordAndBlanks? word (rest ++ '(' :: tail) =
        (wordAndBlanks? word rest).map (· ++ '(' :: tail) := by
    intro word hmem rest
    refine wordAndBlanks?_append_paren ?_ rest tail
    revert word
    decide
  simp only [List.forall_mem_cons] at hword
  obtain ⟨hcypress, hdot, hcommands, hadd, hoverwrite, -⟩ := hword
  have hor : ∀ (first second : Option (List Char)),
      ((first.map (· ++ '(' :: tail)) <|> (second.map (· ++ '(' :: tail))) =
        (first <|> second).map (· ++ '(' :: tail) := by
    rintro (_ | first) second <;> rfl
  simp only [afterCallee?, Option.bind_eq_bind, hcypress, hdot, hcommands, hadd, hoverwrite,
    Option.bind_map, Option.map_bind, Function.comp_def, hor]

theorem length_wordAndBlanks?_le
    {word : String}
    {cs rest : List Char}
    (h : wordAndBlanks? word cs = some rest) :
    rest.length ≤ cs.length := by
  obtain ⟨tail, htail, rfl⟩ := Option.map_eq_some_iff.mp h
  have hdrop : (Text.dropBlanks tail).length ≤ tail.length :=
    (List.dropWhile_suffix Text.isBlank).length_le
  rw [Text.stripStart_eq_some_iff.mp htail, List.length_append]
  omega

theorem length_afterCallee?_le
    {cs rest : List Char}
    (h : afterCallee? cs = some rest) :
    rest.length ≤ cs.length := by
  simp only [afterCallee?, Option.bind_eq_bind, Option.bind_eq_some_iff] at h
  obtain ⟨first, hfirst, second, hsecond, third, hthird, fourth, hfourth, hrest⟩ := h
  have hlast : rest.length ≤ fourth.length := by
    cases hadd : wordAndBlanks? "add" fourth with
    | some more =>
        rw [hadd] at hrest
        rw [← Option.some.inj hrest]
        exact length_wordAndBlanks?_le hadd
    | none =>
        rw [hadd] at hrest
        exact length_wordAndBlanks?_le hrest
  have hone := length_wordAndBlanks?_le hfirst
  have htwo := length_wordAndBlanks?_le hsecond
  have hthree := length_wordAndBlanks?_le hthird
  have hfour := length_wordAndBlanks?_le hfourth
  omega

theorem eq_of_atParen?
    {cs list : List Char}
    (h : atParen? cs = some list) :
    list = cs := by
  unfold atParen? at h
  split at h
  · exact (Option.some.inj h).symm
  · cases h

theorem length_findRegistration?_le
    {cs list : List Char}
    (h : findRegistration? cs = some list) :
    list.length ≤ cs.length := by
  induction cs with
  | nil =>
      cases h
  | cons c cs ih =>
      rw [findRegistration?] at h
      cases hhere : registrationHere? (c :: cs) with
      | some found =>
          rw [hhere] at h
          rw [registrationHere?_eq, Option.bind_eq_some_iff] at hhere
          obtain ⟨rest, hrest, hfound⟩ := hhere
          rw [← Option.some.inj h, eq_of_atParen? hfound]
          exact length_afterCallee?_le hrest
      | none =>
          rw [hhere] at h
          exact le_trans (ih h) (by simp)

/-- The search for a registration does not look behind the parenthesis that it finds. -/
theorem findRegistration?_paren
    {lead tail : List Char}
    (h : findRegistration? (lead ++ '(' :: tail) = some ('(' :: tail))
    (tail' : List Char) :
    findRegistration? (lead ++ '(' :: tail') = some ('(' :: tail') := by
  induction lead with
  | nil =>
      have hhere : registrationHere? ('(' :: tail) = none := by
        rfl
      rw [List.nil_append, findRegistration?, hhere] at h
      exact absurd (length_findRegistration?_le h) (Nat.not_succ_le_self _)
  | cons c lead ih =>
      have hhere : ∀ more, registrationHere? (c :: lead ++ '(' :: more) =
          (afterCallee? (c :: lead)).bind fun rest => atParen? (rest ++ '(' :: more) := by
        intro more
        rw [registrationHere?_eq, afterCallee?_append, Option.bind_map]
        rfl
      rw [List.cons_append, findRegistration?, ← List.cons_append, hhere] at h ⊢
      cases hcallee : afterCallee? (c :: lead) with
      | none =>
          rw [hcallee] at h
          exact ih h
      | some rest =>
          rw [hcallee, Option.bind_some] at h
          cases rest with
          | nil =>
              rfl
          | cons d rest =>
              by_cases hd : d = '('
              · -- An earlier parenthesis would have been found instead.
                subst hd
                have hlist : '(' :: rest ++ '(' :: tail = '(' :: tail := Option.some.inj h
                have hlength := congrArg List.length hlist
                simp only [List.length_append, List.length_cons] at hlength
                omega
              · have hnone : ∀ more, atParen? (d :: rest ++ '(' :: more) = none := by
                  intro more
                  rw [List.cons_append, atParen?]
                  rintro cs ⟨⟩
                  exact hd rfl
                rw [hnone] at h
                rw [Option.bind_some, hnone]
                exact ih h

/-! ### The head of a function -/

section FunctionHead

variable {cs rest inside after : List Char}

/-- The head of a function with its keyword ends with its parameter list. -/
theorem functionHead_keyword
    (hword : Text.stripStart "function".toList cs = some rest)
    (hparens : Literal.parenthesized? (rest.dropWhile (· != '(')) = some (inside, after)) :
    ∃ head, cs = head ++ after ∧
      ∀ more, functionParts? (head ++ more) = some (inside, Text.trimChars more) := by
  obtain ⟨hrest, hclosed⟩ := Literal.parenthesized?_closed hparens
  obtain ⟨name, hname, htext⟩ : ∃ name : List Char,
      (∀ c ∈ name, (c != '(') = true) ∧ rest = name ++ '(' :: (inside ++ ')' :: after) := by
    refine ⟨rest.takeWhile (· != '('), List.all_eq_true.mp List.all_takeWhile, ?_⟩
    rw [← hrest, List.takeWhile_append_dropWhile]
  refine ⟨"function".toList ++ (name ++ '(' :: (inside ++ [')'])), ?_, ?_⟩
  · rw [Text.stripStart_eq_some_iff.mp hword, htext]
    simp
  · intro more
    have hdrop : (name ++ '(' :: (inside ++ ')' :: more)).dropWhile (· != '(') =
        '(' :: (inside ++ ')' :: more) := by
      rw [List.dropWhile_append_of_pos hname]
      rfl
    have hmore : "function".toList ++ (name ++ '(' :: (inside ++ [')'])) ++ more =
        "function".toList ++ (name ++ '(' :: (inside ++ ')' :: more)) := by
      simp
    rw [functionParts?, hmore, Text.stripStart_eq_some_iff.mpr rfl]
    dsimp only
    rw [hdrop, hclosed]
    rfl

/-- The head of a function with a parameter list ends with the arrow behind it. -/
theorem functionHead_parens
    {type : List Char}
    (hparens : Literal.parenthesized? cs = some (inside, rest))
    (harrow : Text.splitOnce "=>".toList (Text.dropBlanks rest) = some (type, after)) :
    ∃ head, cs = head ++ after ∧
      ∀ more, functionParts? (head ++ more) = some (inside, Text.trimChars more) := by
  obtain ⟨rfl, hclosed⟩ := Literal.parenthesized?_closed hparens
  obtain ⟨gap, hgap, hrest⟩ := Text.exists_dropBlanks rest
  have htype := Text.splitOnce_eq_append harrow
  refine ⟨'(' :: (inside ++ ')' :: (gap ++ (type ++ "=>".toList))), ?_, ?_⟩
  · rw [hrest, htype]
    simp
  · intro more
    have htext : '(' :: (inside ++ ')' :: (gap ++ (type ++ "=>".toList))) ++ more =
        '(' :: (inside ++ ')' :: (gap ++ (type ++ ("=>".toList ++ more)))) := by
      simp
    have hword : Text.stripStart "function".toList
        ('(' :: (inside ++ ')' :: (gap ++ (type ++ ("=>".toList ++ more))))) = none := by
      rfl
    have hstart : Text.dropBlanks (gap ++ (type ++ ("=>".toList ++ more))) =
        type ++ ("=>".toList ++ more) := by
      refine Text.dropBlanks_append hgap ?_
      intro c hc
      have hfirst := Text.isBlank_head?_dropWhile rest
      rw [← Text.dropBlanks, htype] at hfirst
      cases type with
      | nil =>
          cases hc
          rfl
      | cons d type =>
          cases hc
          exact hfirst c rfl
    rw [functionParts?, htext, hword]
    dsimp only
    rw [if_pos (by rfl), hclosed]
    dsimp only [Option.bind_eq_bind, Option.bind_some]
    rw [hstart, Text.splitOnce_append_rest harrow (by decide)]
    rfl

/-- The head of a function without a parameter list ends with its arrow. -/
theorem functionHead_arrow
    {param : List Char}
    (hword : Text.stripStart "function".toList cs = none)
    (hhead : ¬ (cs.head? == some '(') = true)
    (harrow : Text.splitOnce "=>".toList cs = some (param, after)) :
    ∃ head, cs = head ++ after ∧
      ∀ more, functionParts? (head ++ more) =
        some (Text.trimChars param, Text.trimChars more) := by
  have hcs := Text.splitOnce_eq_append harrow
  rw [List.append_assoc] at hcs
  refine ⟨param ++ "=>".toList, by rw [hcs, List.append_assoc], ?_⟩
  intro more
  have hstrip : ∀ tail, Text.stripStart "function".toList (param ++ ("=>".toList ++ tail)) =
      (Text.stripStart "function".toList param).map (· ++ ("=>".toList ++ tail)) := by
    intro tail
    refine Text.stripStart_append ?_ param
    rintro c ⟨⟩
    decide
  have hnone : Text.stripStart "function".toList (param ++ ("=>".toList ++ more)) = none := by
    rw [hcs, hstrip, Option.map_eq_none_iff] at hword
    rw [hstrip, hword]
    rfl
  have hfirst : ¬ ((param ++ ("=>".toList ++ more)).head? == some '(') = true := by
    rw [hcs] at hhead
    cases param with
    | nil =>
        have hequals : ¬ (some '=' == some '(') = true := by
          decide
        exact hequals
    | cons c param =>
        exact hhead
  rw [functionParts?, List.append_assoc, hnone]
  dsimp only
  rw [if_neg hfirst, Text.splitOnce_append_rest harrow (by decide)]
  rfl

/-- A function has a head, and all that follows it is its body. -/
theorem exists_functionHead
    {params body : List Char}
    (h : functionParts? cs = some (params, body)) :
    ∃ head after,
      cs = head ++ after ∧ body = Text.trimChars after ∧
      ∀ rest, functionParts? (head ++ rest) = some (params, Text.trimChars rest) := by
  unfold functionParts? at h
  cases hword : Text.stripStart "function".toList cs with
  | some rest =>
      rw [hword] at h
      simp only [Option.bind_eq_bind, Option.bind_eq_some_iff, Option.pure_def,
        Option.some.injEq, Prod.mk.injEq, Prod.exists] at h
      obtain ⟨inside, after, hparens, rfl, rfl⟩ := h
      obtain ⟨head, hcs, hhead⟩ := functionHead_keyword hword hparens
      exact ⟨head, after, hcs, rfl, hhead⟩
  | none =>
      rw [hword] at h
      dsimp only at h
      split_ifs at h with hfirst
      · simp only [Option.bind_eq_bind, Option.bind_eq_some_iff, Option.pure_def,
          Option.some.injEq, Prod.mk.injEq, Prod.exists] at h
        obtain ⟨inside, rest, hparens, type, after, harrow, rfl, rfl⟩ := h
        obtain ⟨head, hcs, hhead⟩ := functionHead_parens hparens harrow
        exact ⟨head, after, hcs, rfl, hhead⟩
      · simp only [Option.bind_eq_bind, Option.bind_eq_some_iff, Option.pure_def,
          Option.some.injEq, Prod.mk.injEq, Prod.exists] at h
        obtain ⟨param, after, harrow, rfl, rfl⟩ := h
        obtain ⟨head, hcs, hhead⟩ := functionHead_arrow hword hfirst harrow
        exact ⟨head, after, hcs, rfl, hhead⟩

end FunctionHead

/-! ### The word before an asynchronous function -/

/-- A function without the word before an asynchronous one. -/
def withoutAsync (cs : List Char) : List Char :=
  ((Text.stripStart "async".toList cs).map Text.dropBlanks).getD cs

theorem splitFunction?_eq
    (text : List Char) :
    splitFunction? text =
      (functionParts? (withoutAsync (Text.trimChars text))).map fun parts =>
        ((Literal.argumentChars parts.1).map parameterName, functionBody parts.2) := by
  rw [splitFunction?, ← withoutAsync]
  cases functionParts? (withoutAsync (Text.trimChars text)) <;> rfl

theorem length_withoutAsync_le
    (cs : List Char) :
    (withoutAsync cs).length ≤ cs.length := by
  unfold withoutAsync
  cases h : Text.stripStart "async".toList cs with
  | none =>
      exact le_rfl
  | some rest =>
      have hdrop : (Text.dropBlanks rest).length ≤ rest.length :=
        (List.dropWhile_suffix Text.isBlank).length_le
      rw [Text.stripStart_eq_some_iff.mp h, Option.map_some, Option.getD_some, List.length_append]
      omega

/-- What is left before a place, whatever stands there. -/
theorem exists_withoutAsync
    {cs rest : List Char}
    (hrest : ∃ c ∈ rest.head?, Text.isBlank c = true ∧ c ∉ "async".toList)
    (hlength : rest.length ≤ (withoutAsync (cs ++ rest)).length) :
    ∃ cs', withoutAsync (cs ++ rest) = cs' ++ rest ∧
      ∀ c more, Text.isBlank c = false → c ∉ "async".toList →
        withoutAsync (cs ++ c :: more) = cs' ++ c :: more := by
  obtain ⟨d, hd, hblank, hword⟩ := hrest
  have hstrip : Text.stripStart "async".toList (cs ++ rest) =
      (Text.stripStart "async".toList cs).map (· ++ rest) := by
    refine Text.stripStart_append ?_ cs
    intro c hc
    rwa [Option.mem_unique hc hd]
  unfold withoutAsync at hlength ⊢
  rw [hstrip] at hlength ⊢
  cases hasync : Text.stripStart "async".toList cs with
  | none =>
      refine ⟨cs, rfl, ?_⟩
      intro c more _ hc
      rw [Text.stripStart_append (by rintro d ⟨⟩; exact hc), hasync]
      rfl
  | some cs' =>
      rw [hasync] at hlength
      refine ⟨Text.dropBlanks cs', ?_, ?_⟩
      · exact Text.dropBlanks_append_of_length ⟨d, hd, hblank⟩ hlength
      · intro c more hblank' hc
        rw [Text.stripStart_append (by rintro d ⟨⟩; exact hc), hasync]
        exact Text.dropBlanks_append_of_head (by rintro d ⟨⟩; exact hblank') cs'

/-! ### The body of a function -/

/-- Whatever is written after a place in the body of a function belongs to the body. -/
theorem exists_body_of_place
    {front back margin params bodyFront : List Char}
    (hmargin : ∀ c ∈ margin, Text.isBlank c = true)
    (hback : back.head? = some '\n' ∨ back.head? = some '\r')
    (h : functionParts? (withoutAsync (Text.trimChars (front ++ (back ++ margin)))) =
      some (params, bodyFront ++ back)) :
    ∀ c rest, Text.isBlank c = false → c ∉ "async".toList →
      ∃ body, functionParts? (withoutAsync (Text.trimChars (front ++ c :: rest))) =
        some (params, body) := by
  obtain ⟨d, hd, hblank, hword⟩ : ∃ d ∈ back.head?, Text.isBlank d = true ∧ d ∉ "async".toList := by
    rcases hback with hback | hback
    · exact ⟨_, hback, by decide, by decide⟩
    · exact ⟨_, hback, by decide, by decide⟩
  obtain ⟨head, after, htext, hbody, hhead⟩ := exists_functionHead h
  -- The body ends with the text after the place, which therefore has no blank at its end.
  have hlast : ∀ c ∈ back.getLast?, Text.isBlank c = false := by
    intro c hc
    refine Text.isBlank_getLast?_trimChars after c ?_
    rw [← hbody, List.getLast?_append, Option.mem_def.mp hc]
    rfl
  have hle : back.length ≤ after.length := by
    have htrimmed := Text.length_trimChars_le after
    rw [← hbody, List.length_append] at htrimmed
    omega
  have hlength : back.length ≤
      (withoutAsync (Text.trimChars (front ++ (back ++ margin)))).length := by
    rw [htext, List.length_append]
    omega
  -- All of it is left when the text is trimmed and the word for asynchronous functions removed.
  have htrim : Text.trimChars (front ++ (back ++ margin)) = Text.dropBlanks front ++ back :=
    Text.trimChars_append_of_length hmargin ⟨d, hd, hblank⟩ hlast
      (hlength.trans (length_withoutAsync_le _))
  rw [htrim] at htext hlength
  obtain ⟨start, hstart, hother⟩ := exists_withoutAsync ⟨d, hd, hblank, hword⟩ hlength
  rw [hstart] at htext
  -- So the head of the function stands before the place.
  obtain ⟨gap, hgap⟩ : ∃ gap, start = head ++ gap := by
    have hsum := congrArg List.length htext
    simp only [List.length_append] at hsum
    obtain ⟨gap, hgap⟩ := List.prefix_of_prefix_length_le ⟨after, htext.symm⟩
      (List.prefix_append start back) (by omega)
    exact ⟨gap, hgap.symm⟩
  intro c rest hc hcword
  obtain ⟨rest', hrest'⟩ := Text.exists_trimChars_append_cons hc front rest
  refine ⟨Text.trimChars (gap ++ c :: rest'), ?_⟩
  rw [hrest', hother c rest' hc hcword, hgap, List.append_assoc, hhead]

/-! ### Reading the arguments -/

/-- What is read from an argument list with a name and a function. -/
theorem readRegistration_eq
    {list inside after first function : List Char}
    {middle : List (List Char)}
    (hlist : Literal.parenthesized? list = some (inside, after))
    (hargs : Literal.argumentChars inside = first :: (middle ++ [function])) :
    readRegistration list =
      if Literal.isQuotedChars first = true then
        match splitFunction? function with
        | some (params, body) =>
          .ok
            { name := String.ofList (Literal.decode (Literal.stripChars first))
              parameters := params.map String.ofList
              body := String.ofList body }
        | none =>
          .error (.notAFunction (String.ofList (Literal.decode (Literal.stripChars first))))
      else .error .missingName := by
  obtain ⟨second, rest, hrest⟩ : ∃ second rest, middle ++ [function] = second :: rest :=
    List.exists_cons_of_ne_nil (by simp)
  have hlast : (second :: rest).getLast (by simp) = function := by
    simp [← hrest]
  unfold readRegistration
  rw [hlist]
  dsimp only [bind, Except.bind]
  rw [hargs, List.head?_cons, hrest]
  dsimp only
  split_ifs with hquoted
  · cases hfunction : splitFunction? function <;> simp only [hlast, hfunction]
  · rfl

/-- Without a second argument there is no function. -/
theorem readRegistration_ne_ok
    {list inside after : List Char}
    {args : List (List Char)}
    {definition : Definition}
    (hlist : Literal.parenthesized? list = some (inside, after))
    (hargs : Literal.argumentChars inside = args)
    (hlength : args.length < 2) :
    readRegistration list ≠ .ok definition := by
  unfold readRegistration
  rw [hlist]
  dsimp only [bind, Except.bind]
  rw [hargs]
  rcases args with _ | ⟨first, _ | ⟨second, rest⟩⟩
  · simp
  · dsimp only [List.head?_cons]
    split_ifs <;> simp
  · simp only [List.length_cons] at hlength
    omega

/-- Another function with the same parameters in the place of the last argument. -/
theorem readRegistration_replace
    {list list' inside inside' after after' function function' : List Char}
    {args : List (List Char)}
    {definition : Definition}
    (hread : readRegistration list = .ok definition)
    (hlist : Literal.parenthesized? list = some (inside, after))
    (hlist' : Literal.parenthesized? list' = some (inside', after'))
    (hargs : Literal.argumentChars inside = args ++ [function])
    (hargs' : Literal.argumentChars inside' = args ++ [function'])
    (hfunction : ∀ names body, splitFunction? function = some (names, body) →
      ∃ body', splitFunction? function' = some (names, body')) :
    ∃ body, readRegistration list' = .ok { definition with body } := by
  cases args with
  | nil =>
      exact absurd hread (readRegistration_ne_ok hlist hargs (by simp))
  | cons first args =>
      rw [readRegistration_eq hlist hargs] at hread
      rw [readRegistration_eq hlist' hargs']
      split_ifs at hread ⊢ with hquoted
      cases hsplit : splitFunction? function with
      | none =>
          rw [hsplit] at hread
          cases hread
      | some parts =>
          obtain ⟨names, body⟩ := parts
          obtain ⟨body', hbody'⟩ := hfunction names body hsplit
          rw [hsplit] at hread
          cases hread
          rw [hbody']
          exact ⟨String.ofList body', rfl⟩

end CustomCommand
end SuiteShift
