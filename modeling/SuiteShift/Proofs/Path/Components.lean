import SuiteShift.Path.Basic
import SuiteShift.Proofs.Text.Split
import Mathlib.Data.List.Induction

/-!
# Components and steps

- `IsOrdinary`: the text can stand between slashes as a name; every name of a path is ordinary,
  `isOrdinary_of_mem_components`.
- `components_joined`, `components_here_joined`: components are read back from a path that was
  put together from them.
- `resolve`, `resolve?`: where steps lead from a place; the second one does not go above the top.
- `stepsFrom_shared`, `stepsFrom_parted`: the steps from one place to another go up to where the
  ways part, and down from there. `exists_relative?`: they lead to the other place.
-/

namespace SuiteShift

namespace Path

/-- The text can stand between slashes as a name. -/
def IsOrdinary (text : String) : Prop :=
  text ≠ "" ∧ text ≠ "." ∧ text ≠ ".." ∧ '/' ∉ text.toList

instance (text : String) : Decidable (IsOrdinary text) :=
  inferInstanceAs (Decidable (_ ∧ _ ∧ _ ∧ _))

namespace Component

/-- The component goes up, or down to a name. -/
def IsStep : Component → Prop
  | .up => True
  | .name text => IsOrdinary text
  | .root => False
  | .here => False

/-- The component is a name. -/
def IsName : Component → Prop
  | .name text => IsOrdinary text
  | .root => False
  | .here => False
  | .up => False

instance : DecidablePred IsName
  | .name text => inferInstanceAs (Decidable (IsOrdinary text))
  | .root => isFalse id
  | .here => isFalse id
  | .up => isFalse id

theorem IsName.exists_text
    {c : Component}
    (h : c.IsName) :
    ∃ text, c = .name text ∧ IsOrdinary text := by
  cases c with
  | name text =>
      exact ⟨text, rfl, h⟩
  | root =>
      exact h.elim
  | here =>
      exact h.elim
  | up =>
      exact h.elim

theorem IsName.isStep
    {c : Component}
    (h : c.IsName) :
    c.IsStep := by
  obtain ⟨text, rfl, hordinary⟩ := h.exists_text
  exact hordinary

theorem not_mem_text_of_isStep
    {c : Component}
    (h : c.IsStep) :
    '/' ∉ c.text.toList := by
  cases c with
  | name text =>
      exact h.2.2.2
  | root =>
      exact h.elim
  | here =>
      exact h.elim
  | up =>
      decide

theorem ofPiece?_of_isOrdinary
    {text : String}
    (h : IsOrdinary text) :
    ofPiece? text.toList = some (.name text) := by
  obtain ⟨hempty, hdot, hup, -⟩ := h
  unfold ofPiece?
  split
  · next heq =>
      exact absurd (String.toList_eq_nil_iff.mp heq) hempty
  · next heq =>
      exact absurd (String.toList_inj.mp heq) hdot
  · next heq =>
      exact absurd (String.toList_inj.mp heq) hup
  · rw [String.ofList_toList]

theorem ofPiece?_text
    {c : Component}
    (h : c.IsStep) :
    ofPiece? c.text.toList = some c := by
  cases c with
  | name text =>
      exact ofPiece?_of_isOrdinary h
  | root =>
      exact h.elim
  | here =>
      exact h.elim
  | up =>
      rfl

theorem ofFirstPiece?_text
    {c : Component}
    (h : c.IsStep) :
    ofFirstPiece? c.text.toList = some c := by
  have hpiece := ofPiece?_text h
  unfold ofFirstPiece?
  split
  · next heq =>
      rw [heq] at hpiece
      cases hpiece
  · next heq =>
      rw [heq] at hpiece
      cases hpiece
  · exact hpiece

theorem isOrdinary_of_ofPiece?
    {piece : List Char}
    {text : String}
    (hslash : '/' ∉ piece)
    (h : ofPiece? piece = some (.name text)) :
    IsOrdinary text := by
  unfold ofPiece? at h
  split at h
  · cases h
  · cases h
  · cases h
  · next hempty hdot hup =>
      simp only [Option.some.injEq, name.injEq] at h
      subst h
      refine ⟨?_, ?_, ?_, ?_⟩
      · intro heq
        exact hempty (by simpa using congrArg String.toList heq)
      · intro heq
        exact hdot (by simpa using congrArg String.toList heq)
      · intro heq
        exact hup (by simpa using congrArg String.toList heq)
      · rw [String.toList_ofList]
        exact hslash

end Component

theorem not_mem_of_mem_pieces
    {path : String}
    {piece : List Char}
    (h : piece ∈ pieces path) :
    '/' ∉ piece := by
  intro hmem
  have hsep := (Text.of_mem_splitOn h '/' hmem).2
  simp at hsep

/-- Names of a path are ordinary. -/
theorem isOrdinary_of_mem_components
    {path text : String}
    (h : .name text ∈ components path) :
    IsOrdinary text := by
  unfold components at h
  split at h
  · simp at h
  · next first rest hpieces hsplit =>
      have hslash : ∀ piece ∈ first :: rest, '/' ∉ piece := by
        intro piece hpiece
        exact not_mem_of_mem_pieces (hsplit ▸ hpiece)
      rw [List.mem_append, Option.mem_toList, List.mem_filterMap] at h
      rcases h with h | ⟨piece, hpiece, h⟩
      · unfold Component.ofFirstPiece? at h
        split at h
        · cases h
        · cases h
        · exact Component.isOrdinary_of_ofPiece? (hslash first List.mem_cons_self) h
      · exact Component.isOrdinary_of_ofPiece? (hslash piece (List.mem_cons_of_mem _ hpiece)) h
  · simp at h

theorem toList_joined
    (cs : List Component) :
    (joined cs).toList = Text.joinChars ['/'] (cs.map fun c => c.text.toList) := by
  unfold joined
  rw [String.toList_intercalate, List.map_map, Text.joinChars_eq_intercalate]
  rfl

theorem pieces_joined
    {cs : List Component}
    (hne : cs ≠ [])
    (h : ∀ c ∈ cs, c.IsStep) :
    pieces (joined cs) = cs.map fun c => c.text.toList := by
  unfold pieces
  rw [toList_joined]
  refine Text.splitOn_joinChars (by decide) (by simpa using hne) ?_
  intro piece hpiece d hd
  rw [List.mem_map] at hpiece
  obtain ⟨c, hc, rfl⟩ := hpiece
  rw [beq_eq_false_iff_ne]
  rintro rfl
  exact Component.not_mem_text_of_isStep (h c hc) hd

theorem filterMap_ofPiece?_text
    {cs : List Component}
    (h : ∀ c ∈ cs, c.IsStep) :
    (cs.map fun c => c.text.toList).filterMap Component.ofPiece? = cs := by
  induction cs with
  | nil =>
      rfl
  | cons c cs ih =>
      have hcs := ih fun d hd => h d (List.mem_cons_of_mem _ hd)
      rw [List.map_cons, List.filterMap_cons_some (Component.ofPiece?_text (h c List.mem_cons_self)),
        hcs]

/-- Steps that were put together are read back. -/
theorem components_joined
    {cs : List Component}
    (hne : cs ≠ [])
    (h : ∀ c ∈ cs, c.IsStep) :
    components (joined cs) = cs := by
  obtain ⟨c, rest, rfl⟩ := List.exists_cons_of_ne_nil hne
  have hfirst := Component.ofFirstPiece?_text (h c List.mem_cons_self)
  have hrest := filterMap_ofPiece?_text fun d hd => h d (List.mem_cons_of_mem _ hd)
  unfold components
  rw [pieces_joined hne h, List.map_cons]
  split
  · next heq =>
      simp only [List.cons.injEq, List.map_eq_nil_iff] at heq
      have hnil := Component.ofPiece?_text (h c List.mem_cons_self)
      rw [heq.1] at hnil
      cases hnil
  · next first pieces hno heq =>
      cases heq
      rw [hfirst, hrest]
      rfl
  · next heq =>
      cases heq

/-- Steps after a dot are read back. -/
theorem components_here_joined
    {cs : List Component}
    (h : ∀ c ∈ cs, c.IsStep) :
    components ("./" ++ joined cs) = .here :: cs := by
  have hpieces : ∃ rest,
      pieces ("./" ++ joined cs) = ['.'] :: rest ∧
      rest.filterMap Component.ofPiece? = cs := by
    have hsplit : pieces ("./" ++ joined cs) = ['.'] :: pieces (joined cs) := by
      have hdot : ∀ d ∈ ['.'], (d == '/') = false := by
        simp
      unfold pieces
      rw [String.toList_append]
      exact Text.splitOn_append_cons hdot rfl (joined cs).toList
    rw [hsplit]
    refine ⟨_, rfl, ?_⟩
    cases cs with
    | nil =>
        rfl
    | cons c rest =>
        rw [pieces_joined (by simp) h]
        exact filterMap_ofPiece?_text h
  obtain ⟨rest, hrest, hcs⟩ := hpieces
  unfold components
  rw [hrest]
  simp only [hcs, Component.ofFirstPiece?]
  rfl

/-! ### Where steps lead -/

/-- The place after a step. -/
def takeStep (place : List Component) : Component → List Component
  | .root => [.root]
  | .here => place
  | .up => place.dropLast
  | .name text => place ++ [.name text]

/-- Where steps lead from a place. -/
def resolve (place steps : List Component) : List Component :=
  steps.foldl takeStep place

/-- The place after a step; nothing lies above the top. -/
def takeStep? (place : List Component) (step : Component) : Option (List Component) :=
  if step = .up ∧ place = [] then none else some (takeStep place step)

/-- Where steps lead from a place, if none of them leaves the top. -/
def resolve? (place steps : List Component) : Option (List Component) :=
  steps.foldlM takeStep? place

theorem resolve?_cons
    (place : List Component)
    (step : Component)
    (steps : List Component) :
    resolve? place (step :: steps) =
      (takeStep? place step).bind fun next => resolve? next steps := by
  exact List.foldlM_cons

theorem resolve?_append
    (place first second : List Component) :
    resolve? place (first ++ second) =
      (resolve? place first).bind fun next => resolve? next second := by
  exact List.foldlM_append

theorem resolve_of_resolve?
    {place steps target : List Component}
    (h : resolve? place steps = some target) :
    resolve place steps = target := by
  induction steps generalizing place with
  | nil =>
      exact Option.some.inj h
  | cons step steps ih =>
      rw [resolve?_cons, Option.bind_eq_some_iff] at h
      obtain ⟨next, hnext, hrest⟩ := h
      unfold takeStep? at hnext
      split_ifs at hnext
      cases hnext
      exact ih hrest

theorem resolve?_names
    {names : List Component}
    (h : ∀ c ∈ names, c.IsName)
    (place : List Component) :
    resolve? place names = some (place ++ names) := by
  induction names generalizing place with
  | nil =>
      rw [List.append_nil]
      rfl
  | cons c names ih =>
      obtain ⟨text, rfl, -⟩ := (h c List.mem_cons_self).exists_text
      have hstep : takeStep? place (.name text) = some (place ++ [.name text]) := by
        rw [takeStep?, if_neg (by simp), takeStep]
      rw [resolve?_cons, hstep, Option.bind_some,
        ih fun d hd => h d (List.mem_cons_of_mem _ hd), List.append_assoc, List.singleton_append]

/-- As many steps up as there are components leave nothing of them. -/
theorem resolve?_ups
    (place leaving : List Component) :
    resolve? (place ++ leaving) (leaving.map fun _ => .up) = some place := by
  rw [List.map_const']
  induction leaving using List.reverseRecOn with
  | nil =>
      rw [List.append_nil]
      rfl
  | append_singleton leaving c ih =>
      have hstep : takeStep? (place ++ leaving ++ [c]) .up = some (place ++ leaving) := by
        rw [takeStep?, if_neg (by simp), takeStep, List.dropLast_concat]
      rw [List.length_append, List.length_singleton, List.replicate_succ, resolve?_cons,
        ← List.append_assoc, hstep, Option.bind_some, ih]

/-! ### Steps from one place to another -/

/-- Two places share the way to where they part. -/
theorem exists_shared
    (directory target : List Component) :
    ∃ shared above rest,
      directory = shared ++ above ∧ target = shared ++ rest ∧
      ∀ c ∈ above.head?, c ∉ rest.head? := by
  induction directory generalizing target with
  | nil =>
      exact ⟨[], [], target, rfl, rfl, by simp⟩
  | cons d directory ih =>
      by_cases hd : d ∈ target.head?
      · obtain ⟨target, rfl⟩ := List.head?_eq_some_iff.mp hd
        obtain ⟨shared, above, rest, rfl, rfl, hparted⟩ := ih target
        exact ⟨d :: shared, above, rest, rfl, rfl, hparted⟩
      · refine ⟨[], d :: directory, target, rfl, rfl, ?_⟩
        rintro c ⟨⟩
        exact hd

theorem stepsFrom_shared
    (shared above rest : List Component) :
    stepsFrom false (shared ++ above) (shared ++ rest) = stepsFrom false above rest := by
  induction shared with
  | nil =>
      rfl
  | cons c shared ih =>
      rw [List.cons_append, List.cons_append, stepsFrom, ih]
      simp

/-- Where the ways part, every name of the directory is left, and all of the target is taken. -/
theorem stepsFrom_parted
    {above rest : List Component}
    (habove : ∀ c ∈ above, c.IsName)
    (hparted : ∀ c ∈ above.head?, c ∉ rest.head?) :
    stepsFrom false above rest = some (above.map (fun _ => .up) ++ rest) := by
  cases above with
  | nil =>
      rw [stepsFrom]
      rfl
  | cons d above =>
      cases rest with
      | nil =>
          rw [stepsFrom, List.append_nil]
          simp
      | cons t rest =>
          obtain ⟨text, rfl, -⟩ := (habove d List.mem_cons_self).exists_text
          have hne : t ≠ .name text := by
            rintro rfl
            exact hparted _ rfl rfl
          rw [stepsFrom]
          simp [hne]

theorem isAbsolute_of_names
    {names : List Component}
    (h : ∀ c ∈ names, c.IsName) :
    isAbsolute names = false := by
  cases names with
  | nil =>
      rfl
  | cons c names =>
      obtain ⟨text, rfl, -⟩ := (h c List.mem_cons_self).exists_text
      rfl

/-- The steps from one place to another go up to where the ways part and down from there, and they
lead to the other place. -/
theorem exists_relative?
    {directory target : List Component}
    (hdirectory : ∀ c ∈ directory, c.IsName)
    (htarget : ∀ c ∈ target, c.IsName) :
    ∃ steps,
      relative? directory target = some steps ∧
      (∀ c ∈ steps, c = .up ∨ c ∈ target) ∧
      resolve? directory steps = some target := by
  obtain ⟨shared, above, rest, rfl, rfl, hparted⟩ := exists_shared directory target
  have habove : ∀ c ∈ above, c.IsName := by
    intro c hc
    exact hdirectory c (List.mem_append_right _ hc)
  have hrest : ∀ c ∈ rest, c.IsName := by
    intro c hc
    exact htarget c (List.mem_append_right _ hc)
  refine ⟨above.map (fun _ => .up) ++ rest, ?_, ?_, ?_⟩
  · rw [relative?, isAbsolute_of_names hdirectory, isAbsolute_of_names htarget, if_pos rfl,
      stepsFrom_shared, stepsFrom_parted habove hparted]
  · intro c hc
    rw [List.mem_append, List.mem_map] at hc
    rcases hc with ⟨_, -, rfl⟩ | hc
    · exact .inl rfl
    · exact .inr (List.mem_append_right _ hc)
  · rw [resolve?_append, resolve?_ups, Option.bind_some, resolve?_names hrest]

theorem dropInnerDots_of_steps
    {steps : List Component}
    (h : ∀ c ∈ steps, c.IsStep) :
    dropInnerDots steps = steps := by
  cases steps with
  | nil =>
      rfl
  | cons first rest =>
      rw [dropInnerDots, List.filter_eq_self.mpr]
      intro c hc
      have hstep := h c (List.mem_cons_of_mem _ hc)
      rw [bne_iff_ne]
      rintro rfl
      exact hstep

end Path
end SuiteShift
