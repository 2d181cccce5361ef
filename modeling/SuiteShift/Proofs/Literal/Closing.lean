import SuiteShift.Proofs.Literal.Enclosed

/-!
# Where a parenthesis is closed

- `splitClosing_append_of_none`, `splitClosing_append_of_some`: a scan through two texts.
- `splitClosing_eq_some_iff`, `splitClosing_eq_none_iff`: where a scan closes, and when it does not.
- `WellNested.run_eq`, `WellNested.commaFree_of`: a well nested text wherever no literal is open.
- `Bracket`, `Nesting.depth`: each kind of brackets is counted for itself, `depth_step`; literals are
  opened apart from that, `quote_step`.
- `Nesting.missing`, `depth_run`: how many brackets a text closes without having opened them, and
  the depth that it leaves for any depth before it.
- `splitClosing_of_missing_lt`, `splitClosing_opened`: nothing is closed as long as enough brackets
  are open.
-/

namespace SuiteShift
namespace Literal

/-! ### Two texts -/

section Closing

variable {n : Nesting} {cs inside after : List Char}

theorem splitClosing_eq_append
    (h : splitClosing n cs = some (inside, after)) :
    cs = inside ++ ')' :: after := by
  induction cs generalizing n inside with
  | nil =>
      cases h
  | cons c cs ih =>
      rw [splitClosing] at h
      split_ifs at h with hclose
      · rw [Bool.and_eq_true, beq_iff_eq] at hclose
        obtain ⟨rfl, rfl⟩ := Prod.mk.inj (Option.some.inj h)
        rw [hclose.1, List.nil_append]
      · obtain ⟨⟨front, back⟩, hfront, hparts⟩ := Option.map_eq_some_iff.mp h
        obtain ⟨rfl, rfl⟩ := Prod.mk.inj hparts
        rw [ih hfront, List.cons_append]

/-- A scan that closes within the first text does not see the second. -/
theorem splitClosing_append_of_some
    (h : splitClosing n cs = some (inside, after))
    (rest : List Char) :
    splitClosing n (cs ++ rest) = some (inside, after ++ rest) := by
  induction cs generalizing n inside with
  | nil =>
      cases h
  | cons c cs ih =>
      rw [splitClosing] at h
      rw [List.cons_append, splitClosing]
      dsimp only at h ⊢
      split_ifs at h ⊢ with hclose
      · obtain ⟨rfl, rfl⟩ := Prod.mk.inj (Option.some.inj h)
        rfl
      · obtain ⟨⟨front, back⟩, hfront, hparts⟩ := Option.map_eq_some_iff.mp h
        obtain ⟨rfl, rfl⟩ := Prod.mk.inj hparts
        rw [ih hfront, Option.map_some]

/-- A scan that does not close within the first text goes on through the second. -/
theorem splitClosing_append_of_none
    (h : splitClosing n cs = none)
    (rest : List Char) :
    splitClosing n (cs ++ rest) =
      (splitClosing (n.run cs) rest).map fun parts => (cs ++ parts.1, parts.2) := by
  induction cs generalizing n with
  | nil =>
      simp
  | cons c cs ih =>
      rw [splitClosing] at h
      rw [List.cons_append, splitClosing]
      dsimp only at h ⊢
      split_ifs at h ⊢ with hclose
      rw [ih (Option.map_eq_none_iff.mp h), Option.map_map]
      rfl

/-- What stands before the closing parenthesis does not close by itself. -/
theorem splitClosing_eq_none_of_append
    {front back : List Char}
    (h : splitClosing n (front ++ cs) = some (front ++ back, after)) :
    splitClosing n front = none := by
  cases hfront : splitClosing n front with
  | none =>
      rfl
  | some parts =>
      rw [splitClosing_append_of_some hfront, Option.some.injEq, Prod.mk.injEq] at h
      have hlength := congrArg List.length (splitClosing_eq_append hfront)
      rw [h.1] at hlength
      simp only [List.length_append, List.length_cons] at hlength
      omega

/-- A scan closes at a parenthesis that leads outside of all nesting, after text in which it does
not close. -/
theorem splitClosing_eq_some_iff :
    splitClosing n cs = some (inside, after) ↔
      cs = inside ++ ')' :: after ∧ splitClosing n inside = none ∧
      (n.run (inside ++ [')'])).isTop = true := by
  constructor
  · intro h
    obtain rfl := splitClosing_eq_append h
    have hclose : splitClosing n (inside ++ ')' :: after) = some (inside ++ [], after) := by
      rwa [List.append_nil]
    have hinside := splitClosing_eq_none_of_append hclose
    refine ⟨rfl, hinside, ?_⟩
    rw [splitClosing_append_of_none hinside] at h
    obtain ⟨⟨front, back⟩, hparts, heq⟩ := Option.map_eq_some_iff.mp h
    have hfront : front = [] := List.append_right_eq_self.mp (Prod.mk.inj heq).1
    rw [hfront, splitClosing] at hparts
    dsimp only at hparts
    rw [Nesting.run_append, Nesting.run_cons, Nesting.run_nil]
    split_ifs at hparts with htop
    · exact htop
    · simp at hparts
  · rintro ⟨rfl, hinside, htop⟩
    rw [Nesting.run_append, Nesting.run_cons, Nesting.run_nil] at htop
    rw [splitClosing_append_of_none hinside, splitClosing, htop]
    simp

/-- A scan closes nothing if it meets no closing parenthesis at top level. -/
theorem splitClosing_eq_none_iff :
    splitClosing n cs = none ↔
      ∀ front back, cs = front ++ ')' :: back → (n.run (front ++ [')'])).isTop = false := by
  constructor
  · rintro h front back rfl
    rw [Bool.eq_false_iff]
    intro htop
    -- The scan closes at this parenthesis, if not before it.
    cases hfront : splitClosing n front with
    | some parts =>
        rw [splitClosing_append_of_some hfront] at h
        cases h
    | none =>
        rw [splitClosing_eq_some_iff.mpr ⟨rfl, hfront, htop⟩] at h
        cases h
  · intro h
    rw [Option.eq_none_iff_forall_ne_some]
    rintro ⟨inside, after⟩ hsome
    obtain ⟨hcs, -, htop⟩ := splitClosing_eq_some_iff.mp hsome
    rw [h inside after hcs] at htop
    cases htop

/-- What stands after the closing parenthesis does not matter. -/
theorem splitClosing_closed
    (h : splitClosing n (inside ++ ')' :: after) = some (inside, after))
    (rest : List Char) :
    splitClosing n (inside ++ ')' :: rest) = some (inside, rest) := by
  obtain ⟨-, hinside, htop⟩ := splitClosing_eq_some_iff.mp h
  exact splitClosing_eq_some_iff.mpr ⟨rfl, hinside, htop⟩

/-- A parenthesis is closed after the same text, whatever stands behind. -/
theorem parenthesized?_closed
    {cs inside after : List Char}
    (h : parenthesized? cs = some (inside, after)) :
    cs = '(' :: (inside ++ ')' :: after) ∧
    ∀ rest, parenthesized? ('(' :: (inside ++ ')' :: rest)) = some (inside, rest) := by
  unfold parenthesized? at h
  split at h
  · next cs =>
      obtain rfl := splitClosing_eq_append h
      exact ⟨rfl, fun rest => splitClosing_closed h rest⟩
  · cases h

/-- As long as no state is outside of all nesting, nothing is closed. -/
theorem splitClosing_eq_none_of_invariant
    {Holds : Nesting → Prop}
    (hdeep : ∀ {m}, Holds m → m.isTop = false)
    (hstep : ∀ {m c}, c ∈ cs → Holds m → Holds (m.step c))
    (h : Holds n) :
    splitClosing n cs = none := by
  induction cs generalizing n with
  | nil =>
      rfl
  | cons c cs ih =>
      have hnext := hstep List.mem_cons_self h
      rw [splitClosing, hdeep hnext, Bool.and_false, if_neg (by decide),
        ih (fun hc => hstep (List.mem_cons_of_mem _ hc)) hnext]
      rfl

theorem splitClosing_eq_none_of_not_mem
    (h : ')' ∉ cs) :
    splitClosing n cs = none := by
  induction cs generalizing n with
  | nil =>
      rfl
  | cons c cs ih =>
      rw [List.mem_cons, not_or] at h
      have hc : (c == ')') = false := by
        rw [beq_eq_false_iff_ne]
        exact Ne.symm h.1
      rw [splitClosing, hc, Bool.false_and, if_neg (by decide), ih h.2]
      rfl

end Closing

/-! ### Passing over a text anywhere -/

section WellNested

variable {n : Nesting} {cs : List Char}

theorem Nesting.within_start
    (hquote : n.quote = none)
    (hsound : n.Sound) :
    Nesting.within n {} = n := by
  obtain ⟨quote, escaped, braces, brackets, parens⟩ := n
  have hescaped : escaped = false := hsound hquote
  rw [hescaped]
  cases hquote
  rfl

theorem WellNested.run_eq
    (h : WellNested cs)
    (hquote : n.quote = none)
    (hsound : n.Sound) :
    n.run cs = n := by
  have hrun := Nesting.run_within h.strayFree n
  rwa [Nesting.run_eq_start h.closed, Nesting.within_start hquote hsound] at hrun

/-- Between brackets no comma of a well nested text is outside of all nesting. -/
theorem WellNested.commaFree_of
    (h : WellNested cs)
    (hquote : n.quote = none)
    (hsound : n.Sound)
    (hdeep : n.isTop = false) :
    n.commaFree cs = true := by
  have hopen : 0 < n.braces + n.brackets + n.parens := by
    by_contra hnone
    have htop : n.isTop = true := by
      simp only [Nesting.isTop, hquote, Option.isNone_none, Bool.true_and, Bool.and_eq_true,
        beq_iff_eq]
      omega
    rw [htop] at hdeep
    cases hdeep
  have hfree := Nesting.commaFree_within h.strayFree hopen
  rwa [Nesting.within_start hquote hsound] at hfree

end WellNested

/-! ### Each kind of brackets for itself -/

/-- The kinds of brackets. -/
inductive Bracket where
  | brace
  | bracket
  | paren
deriving DecidableEq, Repr

namespace Bracket

/-- The character that opens a bracket of the kind. -/
def opening : Bracket → Char
  | .brace => '\x7b'
  | .bracket => '['
  | .paren => '('

/-- The character that closes it. -/
def closing : Bracket → Char
  | .brace => '\x7d'
  | .bracket => ']'
  | .paren => ')'

end Bracket

namespace Nesting

variable {n m : Nesting} {c : Char} {cs : List Char} {kind : Bracket}

/-- How many brackets of a kind are open. -/
def depth (n : Nesting) : Bracket → Nat
  | .brace => n.braces
  | .bracket => n.brackets
  | .paren => n.parens

theorem isTop_iff :
    n.isTop = true ↔ n.quote = none ∧ ∀ kind, n.depth kind = 0 := by
  simp only [isTop, Bool.and_eq_true, Option.isNone_iff_eq_none, beq_iff_eq, and_assoc]
  constructor
  · rintro ⟨hquote, hbraces, hbrackets, hparens⟩
    refine ⟨hquote, ?_⟩
    rintro (_ | _ | _)
    · exact hbraces
    · exact hbrackets
    · exact hparens
  · rintro ⟨hquote, hdepth⟩
    exact ⟨hquote, hdepth .brace, hdepth .bracket, hdepth .paren⟩

theorem isTop_eq_false_of_depth
    (h : n.depth kind ≠ 0) :
    n.isTop = false := by
  rw [Bool.eq_false_iff]
  intro htop
  exact h ((isTop_iff.mp htop).2 kind)

/-- Inside of a literal nothing is opened and nothing is closed. -/
theorem depth_step_of_quote
    (h : n.quote ≠ none) :
    (n.step c).depth kind = n.depth kind := by
  obtain ⟨q, hq⟩ := Option.ne_none_iff_exists'.mp h
  unfold step
  rw [hq]
  dsimp only
  split_ifs <;> cases kind <;> rfl

/-- Outside of literals a bracket moves the depth of its own kind. -/
theorem depth_step
    (h : n.quote = none) :
    (n.step c).depth kind =
      if c = kind.opening then n.depth kind + 1
      else if c = kind.closing then n.depth kind - 1
      else n.depth kind := by
  rw [step, h]
  dsimp only
  by_cases hopen : c = kind.opening
  · rw [if_pos hopen, hopen]
    cases kind <;> rfl
  · by_cases hclose : c = kind.closing
    · rw [if_neg hopen, if_pos hclose, hclose]
      cases kind <;> rfl
    · -- No other branch of the step changes the depth of this kind.
      rw [if_neg hopen, if_neg hclose]
      rw [← ne_eq, ← beq_eq_false_iff_ne] at hopen hclose
      cases kind <;> simp only [Bracket.opening, Bracket.closing] at hopen hclose <;>
        simp only [hopen, hclose, Bool.false_eq_true, if_false] <;> split_ifs <;> rfl

/-- Outside of literals a literal is opened by its delimiter. -/
theorem quote_step
    (h : n.quote = none) :
    (n.step c).quote = (if isDelimiter c then some c else none) ∧
    (n.step c).escaped = n.escaped := by
  obtain ⟨quote, escaped, braces, brackets, parens⟩ := n
  cases h
  unfold step
  dsimp only
  split_ifs <;> exact ⟨rfl, rfl⟩

/-- The same literal is open in both states, if any. -/
structure Alike (n m : Nesting) : Prop where
  quote : n.quote = m.quote
  escaped : n.escaped = m.escaped

theorem Alike.step
    (h : Alike n m)
    (c : Char) :
    Alike (n.step c) (m.step c) := by
  obtain ⟨hquote, hescaped⟩ := h
  cases hm : m.quote with
  | some q =>
      unfold Nesting.step
      rw [hquote, hescaped, hm]
      dsimp only
      split_ifs
      · exact ⟨rfl, rfl⟩
      · exact ⟨rfl, rfl⟩
      · exact ⟨rfl, rfl⟩
      · exact ⟨hquote, hescaped⟩
  | none =>
      obtain ⟨hn₁, hn₂⟩ := @quote_step n c (hquote.trans hm)
      obtain ⟨hm₁, hm₂⟩ := @quote_step m c hm
      exact ⟨hn₁.trans hm₁.symm, hn₂.trans (hescaped.trans hm₂.symm)⟩

theorem Alike.run
    (h : Alike n m)
    (cs : List Char) :
    Alike (n.run cs) (m.run cs) := by
  induction cs generalizing n m with
  | nil =>
      exact h
  | cons c cs ih =>
      exact ih (h.step c)

/-- The brackets of a kind that a text closes without having opened them. -/
def missing (kind : Bracket) (n : Nesting) : List Char → Nat
  | [] => 0
  | c :: cs =>
    (if n.quote = none ∧ c = kind.closing ∧ n.depth kind = 0 then 1 else 0) +
      missing kind (n.step c) cs

theorem missing_cons
    (kind : Bracket)
    (n : Nesting)
    (c : Char)
    (cs : List Char) :
    missing kind n (c :: cs) = missing kind n [c] + missing kind (n.step c) cs := by
  simp [missing]

/-- The depth after one character, next to that in a state that is nowhere deeper. -/
theorem depth_step_eq
    (halike : Alike n m)
    (hle : n.depth kind ≤ m.depth kind) :
    (m.step c).depth kind =
      (n.step c).depth kind + (m.depth kind - n.depth kind - missing kind n [c]) := by
  by_cases hquote : n.quote = none
  · have hquote' : m.quote = none := halike.quote ▸ hquote
    have hne : kind.opening ≠ kind.closing := by
      cases kind <;> decide
    rw [depth_step hquote, depth_step hquote']
    by_cases hopen : c = kind.opening
    · simp [missing, hquote, hopen, hne]
      omega
    · by_cases hclose : c = kind.closing
      · by_cases hzero : n.depth kind = 0
        · simp [missing, hquote, hclose, hzero, hne.symm]
        · simp [missing, hquote, hclose, hzero, hne.symm]
          omega
      · simp [missing, hopen, hclose]
        omega
  · have hquote' : m.quote ≠ none := halike.quote ▸ hquote
    rw [depth_step_of_quote hquote, depth_step_of_quote hquote']
    simp [missing, hquote]
    omega

/-- The depth after a text: what is missing is taken from the brackets that are open before. -/
theorem depth_run
    (halike : Alike n m)
    (hle : n.depth kind ≤ m.depth kind) :
    (m.run cs).depth kind =
      (n.run cs).depth kind + (m.depth kind - n.depth kind - missing kind n cs) := by
  induction cs generalizing n m with
  | nil =>
      simp only [run_nil, missing]
      omega
  | cons c cs ih =>
      have hstep := @depth_step_eq n m c kind halike hle
      rw [run_cons, run_cons, ih (halike.step c) (by omega), missing_cons kind n c cs]
      omega

theorem strayFree_iff_missing :
    n.strayFree cs = true ↔ ∀ kind, missing kind n cs = 0 := by
  induction cs generalizing n with
  | nil =>
      simp [strayFree, missing]
  | cons c cs ih =>
      simp only [strayFree, Bool.and_eq_true, ih, missing, Nat.add_eq_zero_iff, forall_and]
      refine and_congr_left fun _ => ?_
      have hstray : n.isStray c = true ↔
          ∃ kind, n.quote = none ∧ c = kind.closing ∧ n.depth kind = 0 := by
        simp only [isStray, Bool.and_eq_true, Bool.or_eq_true, Option.isNone_iff_eq_none,
          beq_iff_eq]
        constructor
        · rintro ⟨hquote, (⟨hc, hzero⟩ | ⟨hc, hzero⟩) | ⟨hc, hzero⟩⟩
          · exact ⟨.brace, hquote, hc, hzero⟩
          · exact ⟨.bracket, hquote, hc, hzero⟩
          · exact ⟨.paren, hquote, hc, hzero⟩
        · rintro ⟨_ | _ | _, hquote, hc, hzero⟩
          · exact ⟨hquote, .inl (.inl ⟨hc, hzero⟩)⟩
          · exact ⟨hquote, .inl (.inr ⟨hc, hzero⟩)⟩
          · exact ⟨hquote, .inr ⟨hc, hzero⟩⟩
      rw [Bool.not_eq_true', Bool.eq_false_iff, ne_eq, hstray, not_exists]
      simp only [ite_eq_right_iff, Nat.one_ne_zero, imp_false]

end Nesting

/-- Nothing is closed as long as more brackets of some kind are open than the text takes away. -/
theorem splitClosing_of_missing_lt
    {n m : Nesting}
    {cs : List Char}
    {kind : Bracket}
    (halike : n.Alike m)
    (h : n.depth kind + n.missing kind cs < m.depth kind) :
    splitClosing m cs = none := by
  induction cs generalizing n m with
  | nil =>
      rfl
  | cons c cs ih =>
      rw [Nesting.missing_cons] at h
      have hstep := @Nesting.depth_step_eq n m c kind halike (by omega)
      have hnext : splitClosing (m.step c) cs = none :=
        ih (halike.step c) (by omega)
      have hdeep : (m.step c).isTop = false :=
        @Nesting.isTop_eq_false_of_depth _ kind (by omega)
      rw [splitClosing, hdeep, Bool.and_false, if_neg (by decide), hnext]
      rfl

theorem Nesting.missing_le_length
    (kind : Bracket)
    (n : Nesting)
    (cs : List Char) :
    n.missing kind cs ≤ cs.length := by
  induction cs generalizing n with
  | nil =>
      exact Nat.zero_le _
  | cons c cs ih =>
      have hrest := ih (n.step c)
      rw [missing, List.length_cons]
      split_ifs <;> omega

/-- Nothing is closed as long as more brackets of some kind are open than the text has characters. -/
theorem splitClosing_of_length_lt
    {n : Nesting}
    {cs : List Char}
    {kind : Bracket}
    (h : cs.length < n.depth kind) :
    splitClosing n cs = none := by
  have halike : Nesting.Alike { quote := n.quote, escaped := n.escaped } n := ⟨rfl, rfl⟩
  have hzero : Nesting.depth { quote := n.quote, escaped := n.escaped } kind = 0 := by
    cases kind <;> rfl
  have hle := Nesting.missing_le_length kind { quote := n.quote, escaped := n.escaped } cs
  exact @splitClosing_of_missing_lt _ n cs kind halike (by omega)

/-- Nothing is closed in a literal that does not end. -/
theorem splitClosing_of_quote
    {n : Nesting}
    {q : Char}
    (hquote : n.quote = some q)
    {cs : List Char}
    (h : q ∉ cs) :
    splitClosing n cs = none := by
  refine @splitClosing_eq_none_of_invariant n cs (fun m => m.quote = some q) ?_ ?_ hquote
  · intro m hm
    simp [Nesting.isTop, hm]
  · intro m c hc hm
    have hne : c ≠ q := by
      rintro rfl
      exact h hc
    rw [Nesting.step, hm]
    dsimp only
    split_ifs <;> simp_all

/-- Nothing is closed as long as brackets of some kind are open and none of them is closed. -/
theorem splitClosing_of_depth
    {n : Nesting}
    {kind : Bracket}
    (hquote : n.quote = none)
    (hdepth : n.depth kind ≠ 0)
    {cs : List Char}
    (h : ∀ c ∈ cs, isDelimiter c = false ∧ c ≠ kind.closing) :
    splitClosing n cs = none := by
  refine @splitClosing_eq_none_of_invariant n cs
    (fun m => m.quote = none ∧ m.depth kind ≠ 0) ?_ ?_ ⟨hquote, hdepth⟩
  · rintro m ⟨-, hm⟩
    exact Nesting.isTop_eq_false_of_depth hm
  · rintro m c hc ⟨hquote, hm⟩
    obtain ⟨hdelimiter, hclosing⟩ := h c hc
    refine ⟨?_, ?_⟩
    · rw [(Nesting.quote_step hquote).1, hdelimiter]
      rfl
    · rw [Nesting.depth_step hquote, if_neg hclosing]
      split_ifs
      · exact Nat.succ_ne_zero _
      · exact hm

/-! ### Open brackets and nothing else -/

namespace Nesting

/-- So many brackets of each kind are open, and no literal. -/
def opened (braces brackets parens : Nat) : Nesting :=
  { braces, brackets, parens }

theorem isTop_opened
    {braces brackets parens : Nat}
    (h : braces + brackets + parens ≠ 0) :
    (opened braces brackets parens).isTop = false := by
  rw [Bool.eq_false_iff]
  intro htop
  simp only [isTop, opened, Bool.and_eq_true, beq_iff_eq] at htop
  omega

theorem run_replicate
    {state : Nat → Nesting}
    {c : Char}
    (h : ∀ i, (state i).step c = state (i + 1))
    (count : Nat) :
    (state 0).run (List.replicate count c) = state count := by
  induction count with
  | zero =>
      rfl
  | succ count ih =>
      rw [List.replicate_succ', run_append, ih]
      exact h count

section Opened

variable (braces brackets parens count : Nat)

@[simp] theorem opened_run_openBraces :
    (opened braces brackets parens).run (List.replicate count '\x7b') =
      opened (braces + count) brackets parens := by
  exact @run_replicate (fun i => opened (braces + i) brackets parens) _ (fun _ => rfl) count

@[simp] theorem opened_run_closeBraces :
    (opened braces brackets parens).run (List.replicate count '\x7d') =
      opened (braces - count) brackets parens := by
  exact @run_replicate (fun i => opened (braces - i) brackets parens) _ (fun _ => rfl) count

@[simp] theorem opened_run_openBrackets :
    (opened braces brackets parens).run (List.replicate count '[') =
      opened braces (brackets + count) parens := by
  exact @run_replicate (fun i => opened braces (brackets + i) parens) _ (fun _ => rfl) count

@[simp] theorem opened_run_closeBrackets :
    (opened braces brackets parens).run (List.replicate count ']') =
      opened braces (brackets - count) parens := by
  exact @run_replicate (fun i => opened braces (brackets - i) parens) _ (fun _ => rfl) count

@[simp] theorem opened_run_openParens :
    (opened braces brackets parens).run (List.replicate count '(') =
      opened braces brackets (parens + count) := by
  exact @run_replicate (fun i => opened braces brackets (parens + i)) _ (fun _ => rfl) count

@[simp] theorem opened_run_closeParens :
    (opened braces brackets parens).run (List.replicate count ')') =
      opened braces brackets (parens - count) := by
  exact @run_replicate (fun i => opened braces brackets (parens - i)) _ (fun _ => rfl) count

end Opened

theorem alike_opened
    (braces brackets parens : Nat) :
    Alike {} (opened braces brackets parens) := by
  exact ⟨rfl, rfl⟩

/-- What a text leaves of open brackets, if it leaves no literal open. -/
theorem opened_run
    {cs : List Char}
    (h : (run {} cs).quote = none)
    (braces brackets parens : Nat) :
    (opened braces brackets parens).run cs =
      opened ((run {} cs).braces + (braces - missing .brace {} cs))
        ((run {} cs).brackets + (brackets - missing .bracket {} cs))
        ((run {} cs).parens + (parens - missing .paren {} cs)) := by
  have halike := alike_opened braces brackets parens
  have hrun := halike.run cs
  have hsound : (run {} cs).Sound := Sound.run (fun _ => rfl) cs
  have hbraces := @depth_run {} _ cs .brace halike (Nat.zero_le _)
  have hbrackets := @depth_run {} _ cs .bracket halike (Nat.zero_le _)
  have hparens := @depth_run {} _ cs .paren halike (Nat.zero_le _)
  have hescaped := hrun.escaped.symm.trans (hsound h)
  have hquote := hrun.quote.symm.trans h
  generalize (opened braces brackets parens).run cs = n at *
  obtain ⟨quote, escaped, open₁, open₂, open₃⟩ := n
  dsimp only at hquote hescaped
  rw [hquote, hescaped]
  simp only [depth, opened, Nat.sub_zero] at hbraces hbrackets hparens
  rw [opened, hbraces, hbrackets, hparens]

end Nesting

/-- Nothing is closed as long as more brackets are open than are missing in the text. -/
theorem splitClosing_opened
    (kind : Bracket)
    {cs : List Char}
    {braces brackets parens : Nat}
    (h : Nesting.missing kind {} cs < (Nesting.opened braces brackets parens).depth kind) :
    splitClosing (.opened braces brackets parens) cs = none := by
  have hzero : Nesting.depth {} kind = 0 := by
    cases kind <;> rfl
  have halike := Nesting.alike_opened braces brackets parens
  exact @splitClosing_of_missing_lt _ _ cs kind halike (by omega)

end Literal
end SuiteShift
