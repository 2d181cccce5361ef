import SuiteShift.Proofs.Output.TestFile

/-!
# Where statements are written

Every statement of a test or hook is written on its own, at a level of nesting that its place in
the tree decides, and what is written for it stands in one piece in the text of the file.

- `TestNode.placedOf`: the statements of tests and hooks with their levels.
- `Written.PartOf`: a piece of what is written, with everything that was noticed for it.
- `partOf_writeNodes`: the piece of every statement.
-/

namespace SuiteShift

namespace TestNode

mutual

/-- The statements in the tests and hooks of a node at a level of nesting, each with the level it
is written at. -/
def placed (depth : Nat) : TestNode → List (Nat × Statement)
  | .suite _ _ children _ => placedOf (depth + 1) children
  | .test _ _ body _ => body.map fun statement => (depth + 1, statement)
  | .hook _ body _ => body.map fun statement => (depth + 1, statement)
  | .statement _ => []

/-- The statements in the tests and hooks of a list of nodes. -/
def placedOf (depth : Nat) : List TestNode → List (Nat × Statement)
  | [] => []
  | node :: nodes => node.placed depth ++ placedOf depth nodes

end

theorem lt_of_mem_body
    {depth level : Nat}
    {body : List Statement}
    {statement : Statement}
    (h : (level, statement) ∈ body.map fun statement => (depth + 1, statement)) :
    depth < level := by
  obtain ⟨_, -, heq⟩ := List.mem_map.mp h
  cases heq
  exact Nat.lt_succ_self depth

mutual

theorem lt_of_mem_placed
    {depth level : Nat}
    {statement : Statement}
    (node : TestNode)
    (h : (level, statement) ∈ node.placed depth) :
    depth < level := by
  cases node with
  | suite title modifier children span =>
      rw [placed] at h
      exact Nat.lt_of_succ_lt (lt_of_mem_placedOf children h)
  | test title modifier body span =>
      rw [placed] at h
      exact lt_of_mem_body h
  | hook kind body span =>
      rw [placed] at h
      exact lt_of_mem_body h
  | statement loose =>
      rw [placed] at h
      cases h

/-- No statement of a test or hook stands at the level of the nodes themselves. -/
theorem lt_of_mem_placedOf
    {depth level : Nat}
    {statement : Statement}
    (nodes : List TestNode)
    (h : (level, statement) ∈ placedOf depth nodes) :
    depth < level := by
  cases nodes with
  | nil =>
      rw [placedOf] at h
      cases h
  | cons node nodes =>
      rw [placedOf] at h
      rcases List.mem_append.mp h with h | h
      · exact lt_of_mem_placed node h
      · exact lt_of_mem_placedOf nodes h

end

end TestNode

namespace Output

namespace Written

theorem append_assoc
    (a b c : Written) :
    a ++ b ++ c = a ++ (b ++ c) := by
  change append (append a b) c = append a (append b c)
  simp only [append, List.append_assoc, Nat.add_assoc]

theorem empty_append
    (a : Written) :
    ({} : Written) ++ a = a := by
  change append {} a = a
  simp only [append, List.nil_append, Nat.zero_add]

theorem append_empty
    (a : Written) :
    a ++ ({} : Written) = a := by
  change append a {} = a
  simp only [append, List.append_nil, Nat.add_zero]

/-- Something is written as a piece of the whole. -/
def PartOf (part whole : Written) : Prop :=
  ∃ before after, whole = before ++ part ++ after

namespace PartOf

theorem refl
    (part : Written) :
    PartOf part part := by
  refine ⟨{}, {}, ?_⟩
  rw [empty_append, append_empty]

theorem before
    {part whole : Written}
    (h : PartOf part whole)
    (after : Written) :
    PartOf part (whole ++ after) := by
  obtain ⟨first, last, rfl⟩ := h
  exact ⟨first, last ++ after, by rw [append_assoc]⟩

theorem after
    {part whole : Written}
    (h : PartOf part whole)
    (before : Written) :
    PartOf part (before ++ whole) := by
  obtain ⟨first, last, rfl⟩ := h
  exact ⟨before ++ first, last, by simp only [append_assoc]⟩

end PartOf

end Written

open Written (PartOf)

variable {registry : Registry}

theorem partOf_writeBody
    {depth level : Nat}
    {body : List Statement}
    {statement : Statement}
    {written : Written}
    (h : writeBody registry depth body = .ok written)
    (hmem : (level, statement) ∈ body.map fun statement => (depth, statement)) :
    ∃ part, writeStatement registry level statement = .ok part ∧ PartOf part written := by
  induction body generalizing written with
  | nil =>
      cases hmem
  | cons head body ih =>
      obtain ⟨first, hfirst, h⟩ := Failure.bind_eq_ok.mp h
      obtain ⟨rest, hrest, h⟩ := Failure.bind_eq_ok.mp h
      cases h
      rw [List.map_cons] at hmem
      rcases List.mem_cons.mp hmem with heq | hmem
      · cases heq
        exact ⟨first, hfirst, (PartOf.refl first).before rest⟩
      · obtain ⟨part, hpart, hrest⟩ := ih hrest hmem
        exact ⟨part, hpart, hrest.after first⟩

theorem partOf_writeHook
    {part body : Written}
    (h : PartOf part body)
    (depth : Nat)
    (kind : HookKind)
    (span : Span) :
    PartOf part (writeHook depth kind span body) := by
  have heach : ∀ name, PartOf part (writeEach depth name body) := by
    intro name
    exact (h.after _).before _
  have honce : ∀ source name, PartOf part (writeOnce depth source name span body) := by
    intro source name
    exact ((h.after _).before _).before _
  cases kind with
  | before =>
      exact honce _ _
  | after =>
      exact honce _ _
  | beforeEach =>
      exact heach _
  | afterEach =>
      exact heach _

mutual

theorem partOf_writeNode
    {depth level : Nat}
    {statement : Statement}
    {written : Written}
    (node : TestNode)
    (h : writeNode registry depth node = .ok written)
    (hmem : (level, statement) ∈ node.placed depth) :
    ∃ part, writeStatement registry level statement = .ok part ∧ PartOf part written := by
  cases node with
  | suite title modifier children span =>
      rw [writeNode] at h
      rw [TestNode.placed] at hmem
      obtain ⟨body, hbody, h⟩ := Failure.bind_eq_ok.mp h
      cases h
      obtain ⟨part, hpart, hin⟩ := partOf_writeNodes children hbody hmem
      exact ⟨part, hpart, (hin.after _).before _⟩
  | test title modifier statements span =>
      rw [writeNode] at h
      rw [TestNode.placed] at hmem
      obtain ⟨body, hbody, h⟩ := Failure.bind_eq_ok.mp h
      cases h
      obtain ⟨part, hpart, hin⟩ := partOf_writeBody hbody hmem
      exact ⟨part, hpart, (hin.after _).before _⟩
  | hook kind statements span =>
      rw [writeNode] at h
      rw [TestNode.placed] at hmem
      obtain ⟨body, hbody, h⟩ := Failure.bind_eq_ok.mp h
      cases h
      obtain ⟨part, hpart, hin⟩ := partOf_writeBody hbody hmem
      exact ⟨part, hpart, partOf_writeHook hin depth kind span⟩
  | statement loose =>
      rw [TestNode.placed] at hmem
      cases hmem

/-- What is written for a list of nodes has in one piece what is written for each statement of
their tests and hooks. -/
theorem partOf_writeNodes
    {depth level : Nat}
    {afterBlock afterText : Bool}
    {statement : Statement}
    {written : Written}
    (nodes : List TestNode)
    (h : writeNodes registry depth afterBlock afterText nodes = .ok written)
    (hmem : (level, statement) ∈ TestNode.placedOf depth nodes) :
    ∃ part, writeStatement registry level statement = .ok part ∧ PartOf part written := by
  cases nodes with
  | nil =>
      rw [TestNode.placedOf] at hmem
      cases hmem
  | cons node nodes =>
      rw [writeNodes] at h
      rw [TestNode.placedOf] at hmem
      obtain ⟨first, hfirst, h⟩ := Failure.bind_eq_ok.mp h
      obtain ⟨rest, hrest, h⟩ := Failure.bind_eq_ok.mp h
      cases h
      rcases List.mem_append.mp hmem with hmem | hmem
      · obtain ⟨part, hpart, hin⟩ := partOf_writeNode node hfirst hmem
        exact ⟨part, hpart, (hin.after _).before _⟩
      · obtain ⟨part, hpart, hin⟩ := partOf_writeNodes nodes hrest hmem
        exact ⟨part, hpart, hin.after _⟩

end

end Output
end SuiteShift
