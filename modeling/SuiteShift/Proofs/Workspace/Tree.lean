import SuiteShift.Workspace.Tree
import Mathlib.Data.List.Infix

/-!
# What is at a location

After a tree was put at a location: the tree is there (`get?_put_below`), a directory is at every
location on the way (`get?_put_above`), and everything aside is as it was (`get?_put_aside`).
-/

namespace SuiteShift
namespace FileTree

theorem get?_cons_file
    (content : Content)
    (name : String)
    (location : List String) :
    (file content).get? (name :: location) = none := by
  rw [get?]

theorem get?_cons_directory
    (entries : List (String × FileTree))
    (name : String)
    (location : List String) :
    (directory entries).get? (name :: location) =
      (entries.lookup name).bind fun tree => tree.get? location := by
  rw [get?]
  cases entries.lookup name with
  | none =>
      rfl
  | some tree =>
      rfl

theorem get?_append
    (tree : FileTree)
    (first second : List String) :
    tree.get? (first ++ second) =
      (tree.get? first).bind fun found => found.get? second := by
  induction first generalizing tree with
  | nil =>
      rw [List.nil_append, get?, Option.bind_some]
  | cons name first ih =>
      cases tree with
      | file content =>
          rw [List.cons_append, get?_cons_file, get?_cons_file, Option.bind_none]
      | directory entries =>
          rw [List.cons_append, get?_cons_directory, get?_cons_directory]
          cases entries.lookup name with
          | none =>
              rfl
          | some found =>
              exact ih found

theorem lookup_setEntry_self
    (name : String)
    (tree : FileTree)
    (entries : List (String × FileTree)) :
    (setEntry name tree entries).lookup name = some tree := by
  induction entries with
  | nil =>
      simp [setEntry]
  | cons entry entries ih =>
      obtain ⟨other, old⟩ := entry
      rw [setEntry]
      split_ifs with heq hlt
      · simp
      · simp
      · rw [List.lookup_cons, beq_eq_false_iff_ne.mpr heq]
        exact ih

theorem lookup_setEntry_of_ne
    {name other : String}
    (hne : other ≠ name)
    (tree : FileTree)
    (entries : List (String × FileTree)) :
    (setEntry name tree entries).lookup other = entries.lookup other := by
  induction entries with
  | nil =>
      simp [setEntry, hne]
  | cons entry entries ih =>
      obtain ⟨first, old⟩ := entry
      rw [setEntry]
      split_ifs with heq hlt
      · subst heq
        rw [List.lookup_cons, List.lookup_cons, beq_eq_false_iff_ne.mpr hne]
      · rw [List.lookup_cons, beq_eq_false_iff_ne.mpr hne]
      · rw [List.lookup_cons, List.lookup_cons, ih]

/-- Putting goes on in the entry of the first name, whatever was there. -/
theorem put_cons
    (tree : FileTree)
    (name : String)
    (location : List String)
    (new : FileTree) :
    ∃ old entries,
      tree.put (name :: location) new = directory entries ∧
      entries.lookup name = some (old.put location new) ∧
      (∀ rest, tree.get? (name :: rest) = old.get? rest ∨
        old = empty ∧ tree.get? (name :: rest) = none) ∧
      ∀ other, other ≠ name → ∀ rest,
        tree.get? (other :: rest) =
          (entries.lookup other).bind fun found => found.get? rest := by
  cases tree with
  | file content =>
      refine ⟨empty, [(name, empty.put location new)], by rw [put], by simp, ?_, ?_⟩
      · intro rest
        exact .inr ⟨rfl, get?_cons_file content name rest⟩
      · intro other hne rest
        rw [get?_cons_file, List.lookup_cons, beq_eq_false_iff_ne.mpr hne]
        rfl
  | directory entries =>
      refine ⟨(entries.lookup name).getD empty, _, by rw [put], lookup_setEntry_self _ _ _, ?_, ?_⟩
      · intro rest
        rw [get?_cons_directory]
        cases entries.lookup name with
        | none =>
            exact .inr ⟨rfl, rfl⟩
        | some found =>
            exact .inl rfl
      · intro other hne rest
        rw [get?_cons_directory, lookup_setEntry_of_ne hne]

/-- The new tree is at its location. -/
theorem get?_put_below
    (tree new : FileTree)
    (location rest : List String) :
    (tree.put location new).get? (location ++ rest) = new.get? rest := by
  induction location generalizing tree with
  | nil =>
      rw [put, List.nil_append]
  | cons name location ih =>
      obtain ⟨old, entries, hput, hlookup, -, -⟩ := put_cons tree name location new
      rw [hput, List.cons_append, get?_cons_directory, hlookup]
      exact ih old

theorem get?_put_self
    (tree new : FileTree)
    (location : List String) :
    (tree.put location new).get? location = some new := by
  have hbelow := get?_put_below tree new location []
  rwa [List.append_nil, get?] at hbelow

/-- Every location above that of the new tree holds a directory. -/
theorem get?_put_above
    (tree new : FileTree)
    (location : List String)
    {rest : List String}
    (hne : rest ≠ []) :
    ∃ entries, (tree.put (location ++ rest) new).get? location = some (directory entries) := by
  induction location generalizing tree with
  | nil =>
      obtain ⟨name, rest, rfl⟩ := List.exists_cons_of_ne_nil hne
      obtain ⟨old, entries, hput, -, -, -⟩ := put_cons tree name rest new
      exact ⟨entries, by rw [List.nil_append, hput, get?]⟩
  | cons name location ih =>
      obtain ⟨old, entries, hput, hlookup, -, -⟩ := put_cons tree name (location ++ rest) new
      rw [List.cons_append, hput, get?_cons_directory, hlookup]
      exact ih old

/-- What is neither above nor below the new tree stays as it was. -/
theorem get?_put_aside
    (tree new : FileTree)
    {location other : List String}
    (habove : ¬ other <+: location)
    (hbelow : ¬ location <+: other) :
    (tree.put location new).get? other = tree.get? other := by
  induction location generalizing tree other with
  | nil =>
      exact absurd List.nil_prefix hbelow
  | cons name location ih =>
      cases other with
      | nil =>
          exact absurd List.nil_prefix habove
      | cons first other =>
          obtain ⟨old, entries, hput, hlookup, hsame, hother⟩ := put_cons tree name location new
          rw [hput, get?_cons_directory]
          by_cases heq : first = name
          · subst heq
            have hkept := ih old (fun h => habove (List.cons_prefix_cons.mpr ⟨rfl, h⟩))
              (fun h => hbelow (List.cons_prefix_cons.mpr ⟨rfl, h⟩))
            rw [hlookup, Option.bind_some, hkept]
            rcases hsame other with hsame | ⟨rfl, hnone⟩
            · exact hsame.symm
            · have hnil : other ≠ [] := by
                rintro rfl
                exact habove (List.cons_prefix_cons.mpr ⟨rfl, List.nil_prefix⟩)
              obtain ⟨second, other, rfl⟩ := List.exists_cons_of_ne_nil hnil
              rw [hnone, empty, get?_cons_directory]
              rfl
          · exact (hother first heq other).symm

end FileTree
end SuiteShift
