import SuiteShift.Rule.Locator
import SuiteShift.Proofs.Literal.RoundTrip
import SuiteShift.Proofs.Text.Declared
import Mathlib.Data.List.TakeWhile

/-!
# Selectors of one attribute

A selector that consists of one known attribute becomes a call of the locator method for it; any
other selector is passed on as it is. What such a selector is, is said here by a grammar.

- `IsWrittenValue`, `IsAttributeSelector`: the grammar of a value and of a selector.
- `attributeValue?_eq_some_iff`: the reader accepts exactly the grammar.
- `IsAttributeSelector.unique`: a selector has one attribute and one value.
- `locatorIn?_eq_some_iff`, `locatorIn?_perm`: the table of attributes, in any order.
- `optimizeSelector_grammar`: the locator expression of any selector.
-/

namespace SuiteShift
namespace Rule

/-! ### Values -/

/-- A value as it is written: between two quotes of one kind, or without quotes. -/
inductive IsWrittenValue : List Char → List Char → Prop
  | quoted
      {q : Char}
      {value : List Char}
      (hquote : q = '"' ∨ q = '\'')
      (hvalue : q ∉ value) :
      IsWrittenValue (q :: value ++ [q]) value
  | bare
      {value : List Char}
      (hne : value ≠ [])
      (hvalue : ∀ c ∈ value, c ≠ ']' ∧ c ≠ '"' ∧ c ≠ '\'' ∧ Text.isBlank c = false) :
      IsWrittenValue value value

theorem isBareChar_iff
    {c : Char} :
    isBareChar c = true ↔ c ≠ ']' ∧ c ≠ '"' ∧ c ≠ '\'' ∧ Text.isBlank c = false := by
  simp [isBareChar, and_assoc]

theorem closesSelector_iff
    {cs : List Char} :
    closesSelector cs = true ↔
      ∃ gap, (∀ c ∈ gap, Text.isBlank c = true) ∧ cs = gap ++ [']'] := by
  rw [closesSelector, beq_iff_eq]
  constructor
  · intro h
    obtain ⟨gap, hgap, hcs⟩ := Text.exists_dropBlanks cs
    exact ⟨gap, hgap, by rw [hcs, h]⟩
  · rintro ⟨gap, hgap, rfl⟩
    refine Text.dropBlanks_append hgap ?_
    rintro c ⟨⟩
    rfl

/-- A written value starts with a quote or with a bare character. -/
theorem IsWrittenValue.isBlank_head?
    {written value : List Char}
    (h : IsWrittenValue written value)
    (rest : List Char) :
    ∀ c ∈ (written ++ rest).head?, Text.isBlank c = false := by
  cases h with
  | quoted hquote hvalue =>
      rintro c ⟨⟩
      rcases hquote with rfl | rfl <;> rfl
  | bare hne hvalue =>
      obtain ⟨c, cs, rfl⟩ := List.exists_cons_of_ne_nil hne
      rintro d ⟨⟩
      exact (hvalue c List.mem_cons_self).2.2.2

/-- A value between quotes is read up to the second quote. -/
theorem selectorValue?_quoted
    {q : Char}
    {value rest : List Char}
    (hquote : q = '"' ∨ q = '\'')
    (hvalue : q ∉ value)
    (hcloses : closesSelector rest = true) :
    selectorValue? (q :: value ++ [q] ++ rest) = some value := by
  have hmark : (q == '"' || q == '\'') = true := by
    rw [Bool.or_eq_true, beq_iff_eq, beq_iff_eq]
    exact hquote
  have hkept : ∀ c ∈ value, (c != q) = true := by
    intro c hc
    rw [bne_iff_ne]
    rintro rfl
    exact hvalue hc
  have hdrop : (value ++ q :: rest).dropWhile (· != q) = q :: rest := by
    rw [List.dropWhile_append_of_pos hkept]
    simp
  rw [List.append_assoc, List.singleton_append, List.cons_append, selectorValue?, if_pos hmark,
    hdrop]
  dsimp only
  rw [if_pos hcloses, Text.takeWhile_ne_append hvalue]

/-- A value without quotes is read up to a character that cannot stand in it. -/
theorem selectorValue?_bare
    {value rest : List Char}
    (hne : value ≠ [])
    (hvalue : ∀ c ∈ value, isBareChar c = true)
    (hrest : ∀ c ∈ rest.head?, isBareChar c = false)
    (hcloses : closesSelector rest = true) :
    selectorValue? (value ++ rest) = some value := by
  have hstop : rest.takeWhile isBareChar = [] ∧ rest.dropWhile isBareChar = rest := by
    cases rest with
    | nil =>
        exact ⟨rfl, rfl⟩
    | cons c rest =>
        simp [hrest c rfl]
  have hread : (value ++ rest).takeWhile isBareChar = value ∧
      (value ++ rest).dropWhile isBareChar = rest := by
    rw [List.takeWhile_append_of_pos hvalue, List.dropWhile_append_of_pos hvalue, hstop.1,
      hstop.2, List.append_nil]
    exact ⟨rfl, rfl⟩
  obtain ⟨c, cs, rfl⟩ := List.exists_cons_of_ne_nil hne
  have hquote : (c == '"' || c == '\'') = false := by
    simp [isBareChar_iff.mp (hvalue c List.mem_cons_self)]
  have hsome : (!(c :: cs).isEmpty && closesSelector rest) = true := by
    rw [hcloses]
    rfl
  rw [List.cons_append] at hread ⊢
  rw [selectorValue?, hquote, hread.1, hread.2]
  simp only [Bool.false_eq_true, if_false, hsome, if_true]

/-- Whatever is read was written as a value, with the end of the selector behind it. -/
theorem exists_written_of_selectorValue?
    {cs value : List Char}
    (h : selectorValue? cs = some value) :
    ∃ written rest,
      IsWrittenValue written value ∧ closesSelector rest = true ∧ cs = written ++ rest := by
  cases cs with
  | nil =>
      cases h
  | cons q cs =>
      rw [selectorValue?] at h
      dsimp only at h
      split_ifs at h with hquote hbare
      · rw [Bool.or_eq_true, beq_iff_eq, beq_iff_eq] at hquote
        split at h
        · next d rest hdrop =>
            split_ifs at h with hcloses
            obtain rfl := Option.some.inj h
            have hd : d = q := by
              have hhead := List.head?_dropWhile_not (· != q) cs
              rw [hdrop] at hhead
              simpa using hhead
            have hcs := List.takeWhile_append_dropWhile (p := (· != q)) (l := cs)
            rw [hdrop, hd] at hcs
            refine ⟨_, rest, .quoted hquote ?_, hcloses, ?_⟩
            · intro hmem
              simpa using List.mem_takeWhile_imp hmem
            · conv_lhs => rw [← hcs]
              simp
        · cases h
      · obtain rfl := Option.some.inj h
        rw [Bool.and_eq_true, Bool.not_eq_true', List.isEmpty_eq_false_iff] at hbare
        refine ⟨_, _, .bare hbare.1 ?_, hbare.2, List.takeWhile_append_dropWhile.symm⟩
        intro c hc
        exact isBareChar_iff.mp (List.mem_takeWhile_imp hc)

/-- Up to the end of the selector there is one value and nothing else. -/
theorem selectorValue?_eq_some_iff
    {cs value : List Char} :
    selectorValue? cs = some value ↔
      ∃ written gap,
        IsWrittenValue written value ∧
        (∀ c ∈ gap, Text.isBlank c = true) ∧
        cs = written ++ (gap ++ [']']) := by
  constructor
  · intro h
    obtain ⟨written, rest, hwritten, hcloses, rfl⟩ := exists_written_of_selectorValue? h
    obtain ⟨gap, hgap, rfl⟩ := closesSelector_iff.mp hcloses
    exact ⟨written, gap, hwritten, hgap, rfl⟩
  · rintro ⟨written, gap, hwritten, hgap, rfl⟩
    have hcloses : closesSelector (gap ++ [']']) = true :=
      closesSelector_iff.mpr ⟨gap, hgap, rfl⟩
    cases hwritten with
    | quoted hquote hvalue =>
        exact selectorValue?_quoted hquote hvalue hcloses
    | bare hne hvalue =>
        refine selectorValue?_bare hne (fun c hc => isBareChar_iff.mpr (hvalue c hc)) ?_ hcloses
        cases gap with
        | nil =>
            rintro c ⟨⟩
            rfl
        | cons c gap =>
            rintro d ⟨⟩
            simp [isBareChar, hgap c List.mem_cons_self]

/-! ### Selectors -/

/-- A selector that consists of one attribute: the name and the value between brackets, with an
equals sign between them and blanks anywhere between these five. -/
def IsAttributeSelector (name value cs : List Char) : Prop :=
  ∃ beforeName afterName beforeValue written afterValue,
    cs = '[' :: (beforeName ++ (name ++ (afterName ++
      '=' :: (beforeValue ++ (written ++ (afterValue ++ [']'])))))) ∧
    (∀ c ∈ beforeName ++ afterName ++ beforeValue ++ afterValue, Text.isBlank c = true) ∧
    IsWrittenValue written value

/-- A character that can stand in the name of an attribute: neither a blank nor an equals sign. -/
def isAttributeChar (c : Char) : Bool :=
  !(Text.isBlank c || c == '=')

/-- The name of an attribute. -/
structure IsAttributeName (name : List Char) : Prop where
  nonempty : name ≠ []
  chars : ∀ c ∈ name, isAttributeChar c = true

theorem IsAttributeName.isBlank_head?
    {name : List Char}
    (h : IsAttributeName name)
    (rest : List Char) :
    ∀ c ∈ (name ++ rest).head?, Text.isBlank c = false := by
  obtain ⟨c, cs, rfl⟩ := List.exists_cons_of_ne_nil h.nonempty
  rintro d ⟨⟩
  have hc := h.chars c List.mem_cons_self
  simp only [isAttributeChar, Bool.not_eq_true', Bool.or_eq_false_iff] at hc
  exact hc.1

/-- The reader accepts the selectors of the grammar, with their values, and no others. -/
theorem attributeValue?_eq_some_iff
    {name value cs : List Char}
    (hname : IsAttributeName name) :
    attributeValue? name cs = some value ↔ IsAttributeSelector name value cs := by
  constructor
  · intro h
    unfold attributeValue? at h
    split at h
    · next inside =>
        split at h
        · next rest hrest =>
            split at h
            · next after hafter =>
                obtain ⟨beforeName, hbeforeName, hinside⟩ := Text.exists_dropBlanks inside
                obtain ⟨afterName, hafterName, hsign⟩ := Text.exists_dropBlanks rest
                obtain ⟨beforeValue, hbeforeValue, hvalue⟩ := Text.exists_dropBlanks after
                obtain ⟨written, afterValue, hwritten, hafterValue, hend⟩ :=
                  selectorValue?_eq_some_iff.mp h
                refine ⟨beforeName, afterName, beforeValue, written, afterValue, ?_, ?_, hwritten⟩
                · rw [← hend, ← hvalue, ← hafter, ← hsign,
                    ← Text.stripStart_eq_some_iff.mp hrest, ← hinside]
                · simp only [List.mem_append]
                  rintro c (((hc | hc) | hc) | hc)
                  · exact hbeforeName c hc
                  · exact hafterName c hc
                  · exact hbeforeValue c hc
                  · exact hafterValue c hc
            · cases h
        · cases h
    · cases h
  · rintro ⟨beforeName, afterName, beforeValue, written, afterValue, rfl, hgaps, hwritten⟩
    simp only [List.mem_append] at hgaps
    have hsign : ∀ rest : List Char, ∀ c ∈ ('=' :: rest).head?, Text.isBlank c = false := by
      rintro rest c ⟨⟩
      rfl
    rw [attributeValue?, Text.dropBlanks_append (fun c hc => hgaps c (by simp [hc]))
      (hname.isBlank_head? _), Text.stripStart_eq_some_iff.mpr rfl]
    dsimp only
    rw [Text.dropBlanks_append (fun c hc => hgaps c (by simp [hc])) (hsign _)]
    change selectorValue? (Text.dropBlanks _) = _
    rw [Text.dropBlanks_append (fun c hc => hgaps c (by simp [hc])) (hwritten.isBlank_head? _)]
    exact selectorValue?_eq_some_iff.mpr
      ⟨written, afterValue, hwritten, fun c hc => hgaps c (by simp [hc]), rfl⟩

namespace IsAttributeSelector

variable {name name' value value' cs : List Char}

/-- The name can be read off the selector. -/
theorem name_eq
    (h : IsAttributeSelector name value cs)
    (hname : IsAttributeName name) :
    (Text.dropBlanks cs.tail).takeWhile isAttributeChar = name := by
  obtain ⟨beforeName, afterName, beforeValue, written, afterValue, rfl, hgaps, -⟩ := h
  simp only [List.mem_append] at hgaps
  have hstop : ∀ rest : List Char,
      (afterName ++ '=' :: rest).takeWhile isAttributeChar = [] := by
    intro rest
    cases afterName with
    | nil =>
        rfl
    | cons c afterName =>
        have hblank : isAttributeChar c = false := by
          simp [isAttributeChar, hgaps c (by simp)]
        simp [hblank]
  rw [List.tail_cons, Text.dropBlanks_append (fun c hc => hgaps c (by simp [hc]))
    (hname.isBlank_head? _), List.takeWhile_append_of_pos hname.chars, hstop, List.append_nil]

/-- A selector has one attribute and one value. -/
theorem unique
    (h : IsAttributeSelector name value cs)
    (h' : IsAttributeSelector name' value' cs)
    (hname : IsAttributeName name)
    (hname' : IsAttributeName name') :
    name = name' ∧ value = value' := by
  obtain rfl : name = name' := by
    rw [← h.name_eq hname, h'.name_eq hname']
  refine ⟨rfl, ?_⟩
  have hread := (attributeValue?_eq_some_iff hname).mpr h
  rw [(attributeValue?_eq_some_iff hname).mpr h'] at hread
  exact (Option.some.inj hread).symm

end IsAttributeSelector

/-! ### The table of attributes -/

/-- The locator method and its argument, by the first attribute of a table that fits. -/
def locatorIn? (table : List (String × String)) (cs : List Char) : Option (String × String) :=
  table.findSome? fun (name, method) =>
    (attributeValue? name.toList cs).map fun value => (method, String.ofList value)

theorem locatorIn?_semanticAttributes
    (cs : List Char) :
    locatorIn? semanticAttributes cs = semanticLocator? cs := by
  rfl

/-- The entries of a table are names of attributes, each with one method. -/
structure IsAttributeTable (table : List (String × String)) : Prop where
  names : ∀ entry ∈ table, IsAttributeName entry.1.toList
  functional : ∀ entry ∈ table, ∀ entry' ∈ table, entry.1 = entry'.1 → entry.2 = entry'.2

theorem isAttributeTable_semanticAttributes : IsAttributeTable semanticAttributes := by
  have hnames : ∀ entry ∈ semanticAttributes,
      entry.1.toList ≠ [] ∧ entry.1.toList.all isAttributeChar = true := by
    decide +kernel
  refine ⟨?_, by decide⟩
  intro entry hentry
  obtain ⟨hne, hchars⟩ := hnames entry hentry
  exact ⟨hne, List.all_eq_true.mp hchars⟩

theorem IsAttributeTable.of_perm
    {table table' : List (String × String)}
    (h : IsAttributeTable table)
    (hperm : table'.Perm table) :
    IsAttributeTable table' := by
  refine ⟨?_, ?_⟩
  · intro entry hentry
    exact h.names entry (hperm.mem_iff.mp hentry)
  · intro entry hentry entry' hentry'
    exact h.functional entry (hperm.mem_iff.mp hentry) entry' (hperm.mem_iff.mp hentry')

/-- What is found in a table depends on its entries alone. -/
theorem locatorIn?_eq_some_iff
    {table : List (String × String)}
    (htable : IsAttributeTable table)
    {cs : List Char}
    {method value : String} :
    locatorIn? table cs = some (method, value) ↔
      ∃ name, (name, method) ∈ table ∧ IsAttributeSelector name.toList value.toList cs := by
  -- Whatever the look-up gives comes from an entry of the table.
  have hsound : ∀ {found : String × String}, locatorIn? table cs = some found →
      ∃ name, (name, found.1) ∈ table ∧
        IsAttributeSelector name.toList found.2.toList cs := by
    intro found h
    obtain ⟨⟨name, method⟩, hmem, hfound⟩ := List.exists_of_findSome?_eq_some h
    rw [Option.map_eq_some_iff] at hfound
    obtain ⟨chars, hchars, rfl⟩ := hfound
    refine ⟨name, hmem, ?_⟩
    rw [String.toList_ofList]
    exact (attributeValue?_eq_some_iff (htable.names _ hmem)).mp hchars
  constructor
  · exact hsound
  · rintro ⟨name, hmem, hselector⟩
    have hread := (attributeValue?_eq_some_iff (htable.names _ hmem)).mpr hselector
    have hsome : (locatorIn? table cs).isSome = true := by
      rw [locatorIn?, List.findSome?_isSome_iff]
      exact ⟨(name, method), hmem, by simp [hread]⟩
    obtain ⟨⟨method', value'⟩, hfound⟩ := Option.isSome_iff_exists.mp hsome
    obtain ⟨name', hmem', hselector'⟩ := hsound hfound
    obtain ⟨hname, hvalue⟩ :=
      hselector.unique hselector' (htable.names _ hmem) (htable.names _ hmem')
    have hmethod : method = method' :=
      htable.functional _ hmem _ hmem' (String.toList_inj.mp hname)
    rw [hfound, hmethod, String.toList_inj.mp hvalue]

theorem semanticLocator?_eq_some_iff
    {cs : List Char}
    {method value : String} :
    semanticLocator? cs = some (method, value) ↔
      ∃ name, (name, method) ∈ semanticAttributes ∧
        IsAttributeSelector name.toList value.toList cs := by
  rw [← locatorIn?_semanticAttributes]
  exact locatorIn?_eq_some_iff isAttributeTable_semanticAttributes

/-- The order of a table does not matter. -/
theorem locatorIn?_perm
    {table table' : List (String × String)}
    (htable : IsAttributeTable table)
    (hperm : table'.Perm table)
    (cs : List Char) :
    locatorIn? table' cs = locatorIn? table cs := by
  ext ⟨method, value⟩
  rw [locatorIn?_eq_some_iff htable, locatorIn?_eq_some_iff (htable.of_perm hperm)]
  simp only [hperm.mem_iff]

/-! ### Locator expressions -/

/-- The call of a locator method with a text. -/
def locatorCall (method text : String) : String :=
  "page." ++ method ++ "(" ++ Literal.quote text ++ ")"

theorem locatorCall_inj
    {method method' text text' : String}
    (hmethod : '(' ∉ method.toList)
    (hmethod' : '(' ∉ method'.toList)
    (h : locatorCall method text = locatorCall method' text') :
    method = method' ∧ text = text' := by
  have hlist : ∀ method text : String, (locatorCall method text).toList =
      "page.".toList ++ (method.toList ++ '(' :: ((Literal.quote text).toList ++ [')'])) := by
    intro method text
    simp [locatorCall]
  have hchars := congrArg String.toList h
  rw [hlist, hlist, List.append_cancel_left_eq] at hchars
  have hname := congrArg (List.takeWhile (· != '(')) hchars
  rw [Text.takeWhile_ne_append hmethod, Text.takeWhile_ne_append hmethod'] at hname
  rw [hname, List.append_cancel_left_eq, List.cons.injEq, List.append_cancel_right_eq] at hchars
  exact ⟨String.toList_inj.mp hname, Literal.quote_injective (String.toList_inj.mp hchars.2)⟩

theorem optimizeSelector_of_some
    {selector method value : String}
    (h : semanticLocator? (Text.trimChars selector.toList) = some (method, value)) :
    optimizeSelector selector = locatorCall method value := by
  rw [optimizeSelector, h]
  rfl

theorem optimizeSelector_of_none
    {selector : String}
    (h : semanticLocator? (Text.trimChars selector.toList) = none) :
    optimizeSelector selector = locatorCall "locator" selector := by
  rw [optimizeSelector, h]
  rfl

/-- The call shows the attribute and the value. -/
theorem optimizeSelector_eq_iff
    {selector name method value : String}
    (hmem : (name, method) ∈ semanticAttributes) :
    optimizeSelector selector = locatorCall method value ↔
      IsAttributeSelector name.toList value.toList (Text.trimChars selector.toList) := by
  have hmethods : ∀ entry ∈ semanticAttributes,
      '(' ∉ entry.2.toList ∧ entry.2 ≠ "locator" := by
    decide
  have hnames : ∀ entry ∈ semanticAttributes, ∀ entry' ∈ semanticAttributes,
      entry.2 = entry'.2 → entry.1 = entry'.1 := by
    decide
  obtain ⟨hparen, hmethod⟩ := hmethods _ hmem
  constructor
  · intro hcode
    cases hlocator : semanticLocator? (Text.trimChars selector.toList) with
    | some found =>
        obtain ⟨name', hmem', hselector⟩ := semanticLocator?_eq_some_iff.mp hlocator
        rw [optimizeSelector_of_some hlocator] at hcode
        obtain ⟨hsame, rfl⟩ := locatorCall_inj (hmethods _ hmem').1 hparen hcode
        have hname : name = name' := hnames _ hmem _ hmem' hsame.symm
        rw [hname]
        exact hselector
    | none =>
        rw [optimizeSelector_of_none hlocator] at hcode
        exact absurd (locatorCall_inj (by decide) hparen hcode).1.symm hmethod
  · intro hselector
    exact optimizeSelector_of_some (semanticLocator?_eq_some_iff.mpr ⟨name, hmem, hselector⟩)

/-- Four attributes have a method of their own. A selector becomes the call of the method of one of
them exactly if, without the blanks around it, it is a selector of this attribute; attribute and
value are determined by the selector, in whatever order the attributes are tried. Any other selector
is passed on with its blanks. In either case the argument is read as the text that it was written
for. -/
theorem optimizeSelector_grammar
    (selector : String) :
    semanticAttributes =
      [("data-testid", "getByTestId"), ("role", "getByRole"), ("aria-label", "getByLabel"),
        ("placeholder", "getByPlaceholder")] ∧
    (∀ name method value : String, (name, method) ∈ semanticAttributes →
      (optimizeSelector selector = locatorCall method value ↔
        IsAttributeSelector name.toList value.toList (Text.trimChars selector.toList))) ∧
    (∀ name method name' method' value value', (name, method) ∈ semanticAttributes →
      (name', method') ∈ semanticAttributes →
      IsAttributeSelector name.toList value (Text.trimChars selector.toList) →
      IsAttributeSelector name'.toList value' (Text.trimChars selector.toList) →
      name = name' ∧ value = value') ∧
    (∀ table, table.Perm semanticAttributes →
      locatorIn? table (Text.trimChars selector.toList) =
        semanticLocator? (Text.trimChars selector.toList)) ∧
    ∃ method argument text,
      optimizeSelector selector = "page." ++ method ++ "(" ++ argument ++ ")" ∧
      argument = Literal.quote text ∧
      Literal.unescape (Literal.stripQuotes argument) = text ∧
      ((∃ name, (name, method) ∈ semanticAttributes ∧
          IsAttributeSelector name.toList text.toList (Text.trimChars selector.toList)) ∨
        (method = "locator" ∧ text = selector ∧
          ∀ name method value, (name, method) ∈ semanticAttributes →
            ¬IsAttributeSelector name.toList value (Text.trimChars selector.toList))) := by
  have htable := isAttributeTable_semanticAttributes
  refine ⟨rfl, fun _ _ _ => optimizeSelector_eq_iff, ?_, fun table hperm => ?_, ?_⟩
  · intro name method name' method' value value' hmem hmem' hselector hselector'
    obtain ⟨hname, hvalue⟩ :=
      hselector.unique hselector' (htable.names _ hmem) (htable.names _ hmem')
    exact ⟨String.toList_inj.mp hname, hvalue⟩
  · rw [locatorIn?_perm htable hperm, locatorIn?_semanticAttributes]
  · cases hlocator : semanticLocator? (Text.trimChars selector.toList) with
    | some found =>
        exact ⟨found.1, _, found.2, optimizeSelector_of_some hlocator, rfl,
          Literal.unescape_stripQuotes_quote _, .inl (semanticLocator?_eq_some_iff.mp hlocator)⟩
    | none =>
        refine ⟨"locator", _, selector, optimizeSelector_of_none hlocator, rfl,
          Literal.unescape_stripQuotes_quote _, .inr ⟨rfl, rfl, ?_⟩⟩
        intro name method value hmem hselector
        rw [← String.toList_ofList (l := value)] at hselector
        rw [semanticLocator?_eq_some_iff.mpr ⟨name, hmem, hselector⟩] at hlocator
        cases hlocator

example :
    optimizeSelector " [ aria-label\n= \"Close [x]\" ] " = "page.getByLabel('Close [x]')" ∧
    optimizeSelector " [aria-label=a b]" = "page.locator(' [aria-label=a b]')" := by
  decide

end Rule
end SuiteShift
