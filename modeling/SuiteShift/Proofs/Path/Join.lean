import SuiteShift.Proofs.Path.Components

/-!
# Paths below a directory

A relative path that is taken below a directory keeps its pieces (`pieces_join`), and starts at the
root exactly if the directory does (`startsWith_join`).

- `IsBelow`: the path is made of names, so that it stays below every directory.
- `components_join`: a name below a directory is one more component.
-/

namespace SuiteShift
namespace Path

/-- The path is made of names. -/
def IsBelow (path : String) : Prop :=
  components path ≠ [] ∧ (∀ c ∈ components path, c.IsName) ∧ joined (components path) = path

instance (path : String) : Decidable (IsBelow path) :=
  inferInstanceAs (Decidable (_ ∧ _ ∧ _))

theorem isBelow_joined
    {names : List Component}
    (hne : names ≠ [])
    (h : ∀ c ∈ names, c.IsName) :
    IsBelow (joined names) := by
  have hcomponents := components_joined hne fun c hc => (h c hc).isStep
  refine ⟨?_, ?_, ?_⟩
  · rw [hcomponents]
    exact hne
  · rw [hcomponents]
    exact h
  · rw [hcomponents]

namespace IsBelow

theorem pieces_eq
    {path : String}
    (h : IsBelow path) :
    pieces path = (components path).map fun c => c.text.toList := by
  obtain ⟨hne, hnames, hjoined⟩ := h
  have hpieces := pieces_joined hne fun c hc => (hnames c hc).isStep
  rwa [hjoined] at hpieces

theorem not_startsWith
    {path : String}
    (h : IsBelow path) :
    path.startsWith "/" = false := by
  rw [String.startsWith_string_eq_false_iff]
  rintro ⟨rest, hrest⟩
  obtain ⟨c, names, hcomponents⟩ := List.exists_cons_of_ne_nil h.1
  -- The first piece would be empty, and a name is not.
  have hpieces := h.pieces_eq
  rw [pieces, ← hrest, hcomponents] at hpieces
  have hfirst : c.text.toList = [] := (List.cons.inj hpieces).1.symm
  have hname := h.2.1 c (by rw [hcomponents]; exact List.mem_cons_self)
  have hsome := Component.ofPiece?_text hname.isStep
  rw [hfirst] at hsome
  cases hsome

/-- A path of names is known by the texts of them. -/
theorem eq_of_texts
    {path other : String}
    (h : IsBelow path)
    (hother : IsBelow other)
    (heq : (components path).map Component.text = (components other).map Component.text) :
    path = other := by
  rw [← h.2.2, ← hother.2.2, joined, joined, heq]

end IsBelow

theorem pieces_append_slash
    (directory path : String) :
    pieces (directory ++ "/" ++ path) = pieces directory ++ pieces path := by
  unfold pieces
  rw [String.toList_append, String.toList_append, List.append_assoc]
  exact Text.splitOn_append_sep rfl directory.toList path.toList

theorem pieces_append_slash_end
    (front : String) :
    pieces (front ++ "/") = pieces front ++ [[]] := by
  have hpieces := pieces_append_slash front ""
  rwa [String.append_empty] at hpieces

theorem exists_of_endsWith
    {directory : String}
    (h : directory.endsWith "/" = true) :
    ∃ front, directory = front ++ "/" := by
  obtain ⟨front, hfront⟩ := String.Slice.endsWith_string_iff.mp h
  rw [String.copy_toSlice] at hfront
  exact ⟨String.ofList front, by simp [← String.toList_inj, ← hfront]⟩

/-- The pieces that a directory puts before those of a path below it. -/
def leading (directory : String) : List (List Char) :=
  if directory.isEmpty then []
  else if directory.endsWith "/" then (pieces directory).dropLast
  else pieces directory

/-- A slash at the end of the directory adds an empty piece, which a path below it takes up. -/
theorem pieces_eq_leading
    {directory : String}
    (h : directory.isEmpty = false) :
    pieces directory = leading directory ∨ pieces directory = leading directory ++ [[]] := by
  unfold leading
  rw [if_neg (by simp [h])]
  split_ifs with hend
  · obtain ⟨front, hfront⟩ := exists_of_endsWith hend
    right
    rw [hfront, pieces_append_slash_end, List.dropLast_concat]
  · exact .inl rfl

/-- The pieces of a relative path follow those of the directory. -/
theorem pieces_join
    (directory : String)
    {path : String}
    (hpath : path.startsWith "/" = false) :
    pieces (join directory path) = leading directory ++ pieces path := by
  unfold join leading
  rw [hpath, Bool.false_or]
  split_ifs with hempty hend
  · rfl
  · obtain ⟨front, hfront⟩ := exists_of_endsWith hend
    rw [hfront, pieces_append_slash, pieces_append_slash_end, List.dropLast_concat]
  · rw [pieces_append_slash]

theorem startsWith_join
    {directory path : String}
    (hpath : path.startsWith "/" = false) :
    (join directory path).startsWith "/" = directory.startsWith "/" := by
  have hstart : ∀ rest, directory.isEmpty = false →
      (directory ++ rest).startsWith "/" = directory.startsWith "/" := by
    intro rest hne
    rw [Bool.eq_iff_iff, String.startsWith_string_iff, String.startsWith_string_iff,
      String.toList_append]
    cases hlist : directory.toList with
    | nil =>
        rw [String.toList_eq_nil_iff.mp hlist] at hne
        cases hne
    | cons c cs =>
        simp
  unfold join
  rw [hpath, Bool.false_or]
  split_ifs with hempty hend
  · rw [hpath, String.isEmpty_iff.mp hempty]
    rfl
  · exact hstart path (by simpa using hempty)
  · rw [String.append_assoc]
    exact hstart _ (by simpa using hempty)

/-! ### A name below a directory -/

theorem pieces_of_isOrdinary
    {name : String}
    (h : IsOrdinary name) :
    pieces name = [name.toList] := by
  refine Text.splitOn_of_forall ?_
  intro c hc
  rw [beq_eq_false_iff_ne]
  rintro rfl
  exact h.2.2.2 hc

theorem not_startsWith_of_isOrdinary
    {name : String}
    (h : IsOrdinary name) :
    name.startsWith "/" = false := by
  rw [String.startsWith_string_eq_false_iff]
  intro hstart
  exact h.2.2.2 (hstart.mem (by decide))

theorem components_of_pieces
    {path : String}
    {first : List Char}
    {rest : List (List Char)}
    (hpieces : pieces path = first :: rest)
    (hne : first ≠ [] ∨ rest ≠ []) :
    components path =
      (Component.ofFirstPiece? first).toList ++ rest.filterMap Component.ofPiece? := by
  unfold components
  rw [hpieces]
  split
  · next heq =>
      cases heq
      simp at hne
  · next heq =>
      cases heq
      rfl
  · next heq =>
      cases heq

theorem isEmpty_of_pieces
    {path : String}
    (h : pieces path = [[]]) :
    path.isEmpty = true := by
  rw [String.isEmpty_iff, ← String.toList_eq_nil_iff]
  exact Text.eq_nil_of_splitOn h

theorem leading_ne_nil
    {directory : String}
    (h : directory.isEmpty = false) :
    leading directory ≠ [] := by
  intro hnil
  rcases pieces_eq_leading h with hpieces | hpieces
  · rw [hnil] at hpieces
    exact Text.splitOn_ne_nil _ _ hpieces
  · rw [hnil, List.nil_append] at hpieces
    rw [isEmpty_of_pieces hpieces] at h
    cases h

/-- A name below a directory is one more component. -/
theorem components_join
    (directory : String)
    {name : String}
    (h : IsOrdinary name) :
    components (join directory name) = components directory ++ [.name name] := by
  have hjoin := pieces_join directory (not_startsWith_of_isOrdinary h)
  rw [pieces_of_isOrdinary h] at hjoin
  have hname := Component.ofPiece?_of_isOrdinary h
  cases hempty : directory.isEmpty with
  | true =>
      rw [leading, if_pos hempty, List.nil_append] at hjoin
      have hfirst := Component.ofFirstPiece?_text (c := .name name) h
      rw [Component.text] at hfirst
      rw [components_of_pieces hjoin (.inl fun hnil => h.1 (String.toList_eq_nil_iff.mp hnil)),
        hfirst, String.isEmpty_iff.mp hempty]
      rfl
  | false =>
      obtain ⟨first, rest, hleading⟩ := List.exists_cons_of_ne_nil (leading_ne_nil hempty)
      rw [hleading, List.cons_append] at hjoin
      -- An empty piece at the end of the directory is no component.
      have hdirectory : components directory =
          (Component.ofFirstPiece? first).toList ++ rest.filterMap Component.ofPiece? := by
        rcases pieces_eq_leading hempty with hpieces | hpieces
        · rw [hleading] at hpieces
          refine components_of_pieces hpieces ?_
          by_contra hvoid
          push Not at hvoid
          rw [hvoid.1, hvoid.2] at hpieces
          rw [isEmpty_of_pieces hpieces] at hempty
          cases hempty
        · rw [hleading, List.cons_append] at hpieces
          rw [components_of_pieces hpieces (.inr (by simp)), List.filterMap_append]
          simp [Component.ofPiece?]
      rw [components_of_pieces hjoin (.inr (by simp)), hdirectory, List.filterMap_append]
      simp [hname]

end Path
end SuiteShift
