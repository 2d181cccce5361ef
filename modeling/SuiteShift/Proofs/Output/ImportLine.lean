import SuiteShift.Proofs.Output.Layout
import SuiteShift.Proofs.Output.Support

/-!
# Reading import lines

The import lines of a generated file are all that stands before its first empty line. They are
read here from the text of the file, without a look at how it was made.

- `headLines`: the lines before the first empty one; `headLines_importBlock`.
- `readImport?`: the names of a braced import and where they come from; `readImport?_supportImport`.
-/

namespace SuiteShift

namespace Text

/-- Joined pieces are found again before further text. -/
theorem splitOn_joinChars_append
    {sep : Char → Bool}
    {c : Char}
    {pieces : List (List Char)}
    (hc : sep c = true)
    (hne : pieces ≠ [])
    (h : ∀ piece ∈ pieces, ∀ d ∈ piece, sep d = false)
    (rest : List Char) :
    splitOn sep (joinChars [c] pieces ++ c :: rest) = pieces ++ splitOn sep rest := by
  induction pieces with
  | nil =>
      exact absurd rfl hne
  | cons first pieces ih =>
      have hfirst := h first List.mem_cons_self
      cases pieces with
      | nil =>
          exact splitOn_append_cons hfirst hc rest
      | cons second others =>
          have hothers := ih (by simp) fun piece hpiece => h piece (List.mem_cons_of_mem _ hpiece)
          rw [joinChars_cons_cons, List.append_assoc, List.append_assoc, List.singleton_append,
            splitOn_append_cons hfirst hc, hothers]
          rfl

/-- A fixed text is found at once when its first character does not occur earlier. -/
theorem splitOnce_append
    {c : Char}
    {before : List Char}
    (h : c ∉ before)
    (needle after : List Char) :
    splitOnce (c :: needle) (before ++ (c :: needle ++ after)) = some (before, after) := by
  induction before with
  | nil =>
      have hstrip : stripStart (c :: needle) (c :: needle ++ after) = some after := by
        exact stripStart_eq_some_iff.mpr rfl
      rw [List.nil_append, List.cons_append, splitOnce, ← List.cons_append, hstrip]
  | cons d before ih =>
      have hne : (c == d) = false := by
        rw [beq_eq_false_iff_ne]
        rintro rfl
        exact h List.mem_cons_self
      have hrest := ih fun hmem => h (List.mem_cons_of_mem _ hmem)
      rw [List.cons_append, splitOnce, hrest]
      simp [stripStart, hne]

end Text

namespace Output

/-- The lines before the first empty one. -/
def headLines (text : String) : List String :=
  ((Text.splitOn (· == '\n') text.toList).takeWhile fun line => !line.isEmpty).map String.ofList

/-- The names between commas, without the spaces around them. -/
def readNames (cs : List Char) : List String :=
  (Text.splitOn (· == ',') cs).map fun name => String.ofList (name.filter (· != ' '))

/-- The names of a braced import, and where they come from. -/
def readImport? (line : String) : Option (List String × String) := do
  let rest ← Text.stripStart "import \x7b".toList line.toList
  let (names, rest) ← Text.splitOnce "\x7d from '".toList rest
  let specifier ← Text.stripEnd "';".toList rest
  some (readNames names, String.ofList specifier)

/-- The import lines of a generated file are read off its text. -/
theorem headLines_importBlock
    {imports : List String}
    (hne : imports ≠ [])
    (h : ∀ line ∈ imports, line ≠ "" ∧ '\n' ∉ line.toList)
    (body : String) :
    headLines (importBlock imports ++ body) = imports := by
  have hblock : (importBlock imports ++ body).toList =
      Text.joinChars ['\n'] (imports.map String.toList) ++ '\n' :: '\n' :: body.toList := by
    have hempty : imports.isEmpty = false := by
      rw [List.isEmpty_eq_false_iff]
      exact hne
    unfold importBlock
    rw [hempty, if_neg Bool.false_ne_true, String.toList_append, String.toList_append,
      String.toList_intercalate, Text.joinChars_eq_intercalate, List.append_assoc]
    rfl
  have hpieces : ∀ piece ∈ imports.map String.toList, ∀ d ∈ piece, (d == '\n') = false := by
    intro piece hpiece d hd
    obtain ⟨line, hline, rfl⟩ := List.mem_map.mp hpiece
    rw [beq_eq_false_iff_ne]
    rintro rfl
    exact (h line hline).2 hd
  have hnonempty : ∀ piece ∈ imports.map String.toList, (!piece.isEmpty) = true := by
    intro piece hpiece
    obtain ⟨line, hline, rfl⟩ := List.mem_map.mp hpiece
    simpa using (h line hline).1
  have hmapped : imports.map String.toList ≠ [] := by
    simpa using hne
  have hsplit : Text.splitOn (· == '\n') (Text.joinChars ['\n'] (imports.map String.toList) ++
      '\n' :: '\n' :: body.toList) =
        imports.map String.toList ++ [] :: Text.splitOn (· == '\n') body.toList := by
    rw [Text.splitOn_joinChars_append rfl hmapped hpieces, Text.splitOn_cons_of_sep rfl]
  unfold headLines
  rw [hblock, hsplit, List.takeWhile_append_of_pos hnonempty, List.takeWhile_cons_of_neg (by simp),
    List.append_nil, List.map_map]
  simp [Function.comp_def]

/-- The text can be listed between braces. -/
def IsListed (name : String) : Prop :=
  ',' ∉ name.toList ∧ ' ' ∉ name.toList ∧ '\x7d' ∉ name.toList ∧ '\n' ∉ name.toList

theorem isListed_identifier
    (name : String) :
    IsListed (Literal.identifier name) := by
  refine ⟨?_, ?_, ?_, ?_⟩ <;>
  · intro hmem
    have hname := Literal.isNameChar_of_mem_identifier hmem
    exact absurd hname (by decide)

theorem filter_space
    {name : String}
    (h : IsListed name) :
    name.toList.filter (· != ' ') = name.toList := by
  rw [List.filter_eq_self]
  intro c hc
  rw [bne_iff_ne]
  rintro rfl
  exact h.2.1 hc

/-- Listed names are read back. -/
theorem readNames_joinChars
    {names : List String}
    (hne : names ≠ [])
    (h : ∀ name ∈ names, IsListed name) :
    readNames (' ' :: (Text.joinChars [',', ' '] (names.map String.toList) ++ [' '])) = names := by
  induction names with
  | nil =>
      exact absurd rfl hne
  | cons first names ih =>
      have hfirst := h first List.mem_cons_self
      have hcomma : ∀ c ∈ ' ' :: first.toList, (c == ',') = false := by
        intro c hc
        rw [beq_eq_false_iff_ne]
        rintro rfl
        rcases List.mem_cons.mp hc with hc | hc
        · exact absurd hc (by decide)
        · exact hfirst.1 hc
      unfold readNames at ih ⊢
      cases names with
      | nil =>
          have hall : ∀ c ∈ ' ' :: (first.toList ++ [' ']), (c == ',') = false := by
            intro c hc
            rw [← List.cons_append, List.mem_append] at hc
            rcases hc with hc | hc
            · exact hcomma c hc
            · rw [List.mem_singleton.mp hc]
              rfl
          rw [List.map_singleton, Text.joinChars, Text.splitOn_of_forall hall]
          simp [filter_space hfirst]
      | cons second rest =>
          have hrest := ih (by simp) fun name hname => h name (List.mem_cons_of_mem _ hname)
          have hsplit : ' ' :: (Text.joinChars [',', ' ']
              ((first :: second :: rest).map String.toList) ++ [' ']) =
                (' ' :: first.toList) ++ ',' :: (' ' :: (Text.joinChars [',', ' ']
                  ((second :: rest).map String.toList) ++ [' '])) := by
            rw [List.map_cons, List.map_cons, Text.joinChars_cons_cons]
            simp
          rw [hsplit, Text.splitOn_append_cons hcomma rfl, List.map_cons, hrest]
          simp [filter_space hfirst]

theorem supportImport_eq
    (output : List Path.Component)
    (names : List String)
    (file : String) :
    (supportImport output names file).toList =
      "import \x7b".toList ++
        (' ' :: (Text.joinChars [',', ' '] (names.map String.toList) ++ [' ']) ++
          ("\x7d from '".toList ++
            ((importSpecifier output (Path.components (dropExtension file))).toList ++
              "';".toList))) := by
  have hline : supportImport output names file =
      "import \x7b " ++ ", ".intercalate names ++ " \x7d from '" ++
        importSpecifier output (Path.components (dropExtension file)) ++ "';" := by
    rfl
  rw [hline]
  simp only [String.toList_append, String.toList_intercalate, Text.joinChars_eq_intercalate]
  simp

/-- The line for a support file is read back. -/
theorem readImport?_supportImport
    {output : List Path.Component}
    {names : List String}
    {file : String}
    (hne : names ≠ [])
    (h : ∀ name ∈ names, IsListed name) :
    readImport? (supportImport output names file) =
      some (names, importSpecifier output (Path.components (dropExtension file))) := by
  have hbrace : '\x7d' ∉ ' ' :: (Text.joinChars [',', ' '] (names.map String.toList) ++ [' ']) := by
    intro hmem
    rw [← List.cons_append, List.mem_append, List.mem_cons] at hmem
    rcases hmem with (hmem | hmem) | hmem
    · exact absurd hmem (by decide)
    · rcases Text.of_mem_joinChars hmem with hmem | ⟨piece, hpiece, hmem⟩
      · exact absurd hmem (by decide)
      · obtain ⟨name, hname, rfl⟩ := List.mem_map.mp hpiece
        exact (h name hname).2.2.1 hmem
    · exact absurd hmem (by decide)
  have hstart := Text.stripStart_eq_some_iff.mpr (supportImport_eq output names file)
  have hend : Text.stripEnd "';".toList
      ((importSpecifier output (Path.components (dropExtension file))).toList ++ "';".toList) =
        some (importSpecifier output (Path.components (dropExtension file))).toList := by
    rw [Text.stripEnd, List.reverse_append, Text.stripStart_eq_some_iff.mpr rfl, Option.map_some,
      List.reverse_reverse]
  have hneedle : "\x7d from '".toList = '\x7d' :: " from '".toList := by
    decide
  have honce := Text.splitOnce_append hbrace " from '".toList
    ((importSpecifier output (Path.components (dropExtension file))).toList ++ "';".toList)
  rw [← hneedle] at honce
  unfold readImport?
  rw [hstart, Option.bind_eq_bind, Option.bind_some, honce, Option.bind_eq_bind,
    Option.bind_some]
  dsimp only
  rw [hend, Option.bind_some, readNames_joinChars hne h, String.ofList_toList]

theorem newline_not_mem_importSpecifier
    {output target : List Path.Component}
    (houtput : ∀ c ∈ output, c.IsName)
    (htarget : ∀ c ∈ target, c.IsName)
    (hline : ∀ c ∈ target, '\n' ∉ c.text.toList) :
    '\n' ∉ (importSpecifier output target).toList := by
  obtain ⟨steps, hkind, -, hspecifier⟩ := importSpecifier_eq houtput htarget
  have hjoined : '\n' ∉ (Path.joined steps).toList := by
    intro hmem
    rw [Path.toList_joined] at hmem
    rcases Text.of_mem_joinChars hmem with hmem | ⟨piece, hpiece, hmem⟩
    · exact absurd hmem (by decide)
    · obtain ⟨c, hc, rfl⟩ := List.mem_map.mp hpiece
      rcases hkind c hc with rfl | hc
      · exact absurd hmem (by decide)
      · exact hline c hc hmem
  rcases hspecifier with ⟨hspecifier, -⟩ | hspecifier
  · rw [hspecifier]
    exact hjoined
  · rw [hspecifier, String.toList_append, List.mem_append]
    rintro (hmem | hmem)
    · exact absurd hmem (by decide)
    · exact hjoined hmem

/-- The line for a support file is one line. -/
theorem newline_not_mem_supportImport
    {output : List Path.Component}
    {names : List String}
    {file : String}
    (hnames : ∀ name ∈ names, IsListed name)
    (hspecifier :
      '\n' ∉ (importSpecifier output (Path.components (dropExtension file))).toList) :
    '\n' ∉ (supportImport output names file).toList := by
  rw [supportImport_eq]
  simp only [List.mem_append, List.mem_cons, not_or]
  refine ⟨by decide, ⟨by decide, ?_, by decide⟩, by decide, hspecifier, by decide⟩
  intro hmem
  rcases Text.of_mem_joinChars hmem with hmem | ⟨piece, hpiece, hmem⟩
  · exact absurd hmem (by decide)
  · obtain ⟨name, hname, rfl⟩ := List.mem_map.mp hpiece
    exact (hnames name hname).2.2.2 hmem

theorem supportImport_ne_empty
    (output : List Path.Component)
    (names : List String)
    (file : String) :
    supportImport output names file ≠ "" := by
  intro hempty
  have hchars := supportImport_eq output names file
  rw [hempty] at hchars
  simp at hchars

end Output
end SuiteShift
