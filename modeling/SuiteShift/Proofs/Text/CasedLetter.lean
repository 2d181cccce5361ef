import SuiteShift.Proofs.Script.IdentifierName
import SuiteShift.Proofs.Text.CaseMapping

/-!
# Upper and lower case in identifiers

Nearly all characters that change with the case are letters that an identifier can start with, and
what they change to starts with another such letter.

- `Recased`: what upper and lower case can do to a character.
- `Recased.of_tables`: tables that map letters to letters do no more than that.
- `recased_upper`, `recased_lower`: so upper and lower case do no more.
- `Recased.exists_cons`: so they keep what an identifier can hold.
- `mem_upper`, `lower_eq_singleton`, `head_lower_upper_ne`: what they do not do.
-/

namespace SuiteShift
namespace Text

open Script (isStartChar isPartChar)

/-! ### Letters that have cases -/

/-- Blocks of letters with an upper or a lower case, and of letters between them. -/
def casedBlocks : List CodeRange :=
  [(181, 181), (192, 214), (216, 246), (248, 705), (880, 884), (886, 887), (890, 893), (895, 895),
   (902, 902), (904, 906), (908, 908), (910, 929), (931, 1013), (1015, 1153), (1162, 1327),
   (1329, 1366), (1376, 1416), (4256, 4293), (4295, 4295), (4301, 4301), (4304, 4346),
   (4348, 4680), (5024, 5109), (5112, 5117), (7296, 7306), (7312, 7354), (7357, 7359),
   (7424, 7615), (7680, 7957), (7960, 7965), (7968, 8005), (8008, 8013), (8016, 8023),
   (8025, 8025), (8027, 8027), (8029, 8029), (8031, 8061), (8064, 8116), (8118, 8124),
   (8126, 8126), (8130, 8132), (8134, 8140), (8144, 8147), (8150, 8155), (8160, 8172),
   (8178, 8180), (8182, 8188), (8486, 8486), (8490, 8493), (8495, 8505), (8526, 8526),
   (8544, 8584), (11264, 11492), (11499, 11502), (11506, 11507), (11520, 11557), (11559, 11559),
   (11565, 11565), (42560, 42606), (42623, 42653), (42786, 42888), (42891, 42972), (42993, 43009),
   (43824, 43866), (43888, 44002), (64256, 64262), (64275, 64279), (65313, 65338), (65345, 65370),
   (66560, 66717), (66736, 66771), (66776, 66811), (66928, 66938), (66940, 66954), (66956, 66962),
   (66964, 66965), (66967, 66977), (66979, 66993), (66995, 67001), (67003, 67004), (68736, 68786),
   (68800, 68850), (68938, 68965), (68975, 68997), (71840, 71903), (93760, 93823), (93856, 93880),
   (93883, 93907), (125184, 125251)]

/-- The character is a letter of one of these blocks. -/
def isCased (c : Char) : Bool :=
  if c.toNat < 128 then isAsciiLetter c else inRanges casedBlocks c.toNat

/-- The character is a letter in a circle. -/
def isCircled (c : Char) : Bool :=
  Nat.ble 9398 c.toNat && Nat.ble c.toNat 9449

/-- Code points of characters outside of ASCII. -/
def isOutside (low high : Nat) : Bool :=
  Nat.ble 128 low && (Nat.blt high 55296 || (Nat.ble 57344 low && Nat.blt high 1114112))

theorem casedBlocks_tables :
    covered alphabeticRanges casedBlocks = true ∧
      (ascends 0 Script.alphabeticNotStart = true ∧
        covered (gaps 0 Script.alphabeticNotStart) casedBlocks = true) ∧
      ∀ block ∈ casedBlocks, isOutside block.1 block.2 = true := by
  decide +kernel

/-- All of a block is alphabetic and can start identifiers. -/
theorem of_mem_casedBlocks
    {n : Nat}
    (h : inRanges casedBlocks n = true) :
    inRanges alphabeticRanges n = true ∧ inRanges Script.alphabeticNotStart n = false := by
  obtain ⟨block, hblock, hlow, hhigh⟩ := mem_inRanges_iff.mp h
  obtain ⟨halphabetic, ⟨hascends, hgaps⟩, -⟩ := casedBlocks_tables
  constructor
  · obtain ⟨range, hrange, hfirst, hlast⟩ := exists_of_covered halphabetic hblock
    exact mem_inRanges_iff.mpr ⟨range, hrange, by omega, by omega⟩
  · obtain ⟨gap, hgap, hfirst, hlast⟩ := exists_of_covered hgaps hblock
    exact (inRanges_of_gaps hascends hgap (by omega) (by omega)).2

theorem isValidChar_of_casedBlocks
    {n : Nat}
    (h : inRanges casedBlocks n = true) :
    128 ≤ n ∧ n.isValidChar := by
  obtain ⟨block, hblock, hlow, hhigh⟩ := mem_inRanges_iff.mp h
  have houtside := casedBlocks_tables.2.2 block hblock
  simp only [isOutside, Bool.and_eq_true, Bool.or_eq_true, Nat.ble_eq, Nat.blt_eq] at houtside
  refine ⟨by omega, ?_⟩
  rcases houtside.2 with hbelow | habove
  · exact .inl (by omega)
  · exact .inr ⟨by omega, by omega⟩

theorem isCased_ofNat
    {n : Nat}
    (h : inRanges casedBlocks n = true) :
    isCased (Char.ofNat n) = true := by
  obtain ⟨hlow, hvalid⟩ := isValidChar_of_casedBlocks h
  unfold isCased
  rw [toNat_ofNat hvalid, if_neg (by omega)]
  exact h

theorem isAsciiDigit_of_isAsciiLetter
    {c : Char}
    (h : isAsciiLetter c = true) :
    isAsciiDigit c = false := by
  simp only [isAsciiLetter, Bool.or_eq_true, Bool.and_eq_true, decide_eq_true_eq] at h
  rw [isAsciiDigit, Bool.and_eq_false_iff, decide_eq_false_iff_not, decide_eq_false_iff_not]
  right
  intro hle
  rcases h with ⟨hlow, -⟩ | ⟨hlow, -⟩
  · exact absurd (Char.le_trans hlow hle) (by decide)
  · exact absurd (Char.le_trans hlow hle) (by decide)

theorem isAsciiDigit_eq_false
    {c : Char}
    (h : 128 ≤ c.toNat) :
    isAsciiDigit c = false := by
  rw [isAsciiDigit, Bool.and_eq_false_iff, decide_eq_false_iff_not, decide_eq_false_iff_not]
  right
  intro hle
  have hnat : c.toNat ≤ '9'.toNat := hle
  have hnine : '9'.toNat = 57 := by
    rfl
  omega

/-- Letters with cases are letters that an identifier can start with. -/
theorem of_isCased
    {c : Char}
    (h : isCased c = true) :
    isAlphanumeric c = true ∧ isAsciiDigit c = false ∧ isStartChar c = true := by
  unfold isCased at h
  split_ifs at h with hascii
  · refine ⟨?_, isAsciiDigit_of_isAsciiLetter h, ?_⟩
    · rw [isAlphanumeric, if_pos hascii, h, Bool.true_or]
    · rw [isStartChar, Script.isIdStart, if_pos hascii, h, Bool.true_or, Bool.true_or]
  · obtain ⟨halphabetic, hnotStart⟩ := of_mem_casedBlocks h
    refine ⟨?_, isAsciiDigit_eq_false (by omega), ?_⟩
    · rw [isAlphanumeric, if_neg hascii, halphabetic, Bool.true_or]
    · rw [isStartChar, Script.isIdStart, if_neg hascii, halphabetic, hnotStart]
      rfl

theorem circled_tables :
    within alphabeticRanges 9398 9449 = true ∧
      within Script.alphabeticNotStart 9398 9449 = true ∧
      avoids Script.otherStart 9398 9449 = true ∧
      within Script.wordNotContinue 9398 9449 = true ∧
      avoids Script.otherContinue 9398 9449 = true := by
  decide +kernel

/-- Letters in circles are letters that no identifier holds. -/
theorem of_isCircled
    {c : Char}
    (h : isCircled c = true) :
    isAlphanumeric c = true ∧ isAsciiDigit c = false ∧ isStartChar c = false ∧
      isPartChar c = false := by
  simp only [isCircled, Bool.and_eq_true, Nat.ble_eq] at h
  obtain ⟨hlow, hhigh⟩ := h
  have hascii : ¬c.toNat < 128 := by
    omega
  obtain ⟨halphabetic, hnotStart, hotherStart, hnotContinue, hotherContinue⟩ :=
    circled_tables
  have hunderscore : (c == '_') = false := by
    rw [beq_eq_false_iff_ne]
    rintro rfl
    exact hascii (by decide)
  have hdollar : (c == '$') = false := by
    rw [beq_eq_false_iff_ne]
    rintro rfl
    exact hascii (by decide)
  have hstart : Script.isIdStart c = false := by
    rw [Script.isIdStart, if_neg hascii, inRanges_of_within hnotStart hlow hhigh,
      inRanges_of_avoids hotherStart hlow hhigh, Bool.not_true, Bool.and_false, Bool.or_false]
  refine ⟨?_, isAsciiDigit_eq_false (by omega), ?_, ?_⟩
  · rw [isAlphanumeric, if_neg hascii, inRanges_of_within halphabetic hlow hhigh, Bool.true_or]
  · rw [isStartChar, hstart, hunderscore, hdollar]
    rfl
  · rw [isPartChar, Script.isIdContinue, if_neg hascii, hstart, hdollar,
      inRanges_of_within hnotContinue hlow hhigh, inRanges_of_avoids hotherContinue hlow hhigh,
      Bool.not_true, Bool.and_false]
    rfl

/-! ### What upper and lower case do -/

/-- A character stays, or is a letter and becomes one, perhaps with more after it, or is a letter
in a circle and becomes one. The iota under a vowel is no letter and becomes one. -/
inductive Recased (c : Char) : List Char → Prop
  | same : Recased c [c]
  | letter {d : Char} {rest : List Char} (hc : isCased c = true) (hd : isCased d = true)
      (hrest : ∀ e ∈ rest, isPartChar e = true) : Recased c (d :: rest)
  | circled {d : Char} (hc : isCircled c = true) (hd : isCircled d = true) : Recased c [d]
  | iota (hc : c = '\u0345') : Recased c ['\u0399']

/-- The code points that a run maps. -/
def CaseRun.codes (run : CaseRun) : List Nat :=
  (List.range' run.first (run.last + 1 - run.first)).filter run.covers

theorem CaseRun.mem_codes
    {run : CaseRun}
    {n : Nat}
    (h : run.covers n = true) :
    n ∈ run.codes := by
  rw [CaseRun.codes, List.mem_filter, List.mem_range'_1]
  refine ⟨?_, h⟩
  simp only [CaseRun.covers, Bool.and_eq_true, Nat.ble_eq] at h
  omega

/-- One character may become the other. -/
def recasesTo (c d : Char) : Bool :=
  (isCased c && isCased d) || (isCircled c && isCircled d) || (c == '\u0345' && d == '\u0399')

/-- The run maps letters to letters: a whole block of them, or one by one. -/
def CaseRun.recases (run : CaseRun) : Bool :=
  (within casedBlocks run.first run.last &&
    within casedBlocks (Int.toNat (run.first + run.shift)) (Int.toNat (run.last + run.shift))) ||
  run.codes.all fun n => recasesTo (Char.ofNat n) (Char.ofNat (Int.toNat (n + run.shift)))

/-- The sequence stands for a letter and starts with one. -/
def sequenceRecases (entry : Nat × List Nat) : Bool :=
  match entry.2 with
  | [] => false
  | first :: rest =>
    isCased (Char.ofNat entry.1) && isCased (Char.ofNat first) &&
      rest.all fun code => isPartChar (Char.ofNat code)

/-- The tables of a case map letters to letters. -/
def tablesRecase (sequences : List (Nat × List Nat)) (runs : List CaseRun) : Bool :=
  sequences.all sequenceRecases && runs.all CaseRun.recases

theorem tablesRecase_upper :
    tablesRecase upperSequences upperRuns = true := by
  decide +kernel

theorem tablesRecase_lower :
    tablesRecase lowerSequences lowerRuns = true := by
  decide +kernel

theorem recases_ascii
    {c : Char}
    (hascii : c.toNat < 128) :
    (c.toUpper = c ∨ recasesTo c c.toUpper = true) ∧
      (c.toLower = c ∨ recasesTo c c.toLower = true) := by
  refine of_toNat_lt (P := fun c => (c.toUpper = c ∨ recasesTo c c.toUpper = true) ∧
    (c.toLower = c ∨ recasesTo c c.toLower = true)) ?_ hascii
  decide

theorem Recased.of_recasesTo
    {c d : Char}
    (h : recasesTo c d = true) :
    Recased c [d] := by
  simp only [recasesTo, Bool.or_eq_true, Bool.and_eq_true, beq_iff_eq] at h
  rcases h with (⟨hc, hd⟩ | ⟨hc, hd⟩) | ⟨hc, rfl⟩
  · exact .letter hc hd (by simp)
  · exact .circled hc hd
  · exact .iota hc

theorem Recased.of_run
    {run : CaseRun}
    {c : Char}
    (hrun : run.recases = true)
    (hcovers : run.covers c.toNat = true) :
    Recased c [Char.ofNat (Int.toNat (c.toNat + run.shift))] := by
  unfold CaseRun.recases at hrun
  rw [Bool.or_eq_true, Bool.and_eq_true] at hrun
  rcases hrun with ⟨hsource, himage⟩ | hcodes
  · simp only [CaseRun.covers, Bool.and_eq_true, Nat.ble_eq] at hcovers
    obtain ⟨⟨hfirst, hlast⟩, -⟩ := hcovers
    have hc : isCased (Char.ofNat c.toNat) = true :=
      isCased_ofNat (inRanges_of_within hsource hfirst hlast)
    rw [Char.ofNat_toNat] at hc
    refine .letter hc (isCased_ofNat (inRanges_of_within himage ?_ ?_)) (by simp)
    · exact Int.toNat_le_toNat (by omega)
    · exact Int.toNat_le_toNat (by omega)
  · have hcode := List.all_eq_true.mp hcodes _ (CaseRun.mem_codes hcovers)
    rw [Char.ofNat_toNat] at hcode
    exact .of_recasesTo hcode

theorem Recased.of_sequence
    {c : Char}
    {codes : List Nat}
    (h : sequenceRecases (c.toNat, codes) = true) :
    Recased c (codes.map Char.ofNat) := by
  unfold sequenceRecases at h
  split at h
  · cases h
  · next first rest heq =>
      change codes = first :: rest at heq
      subst heq
      simp only [Char.ofNat_toNat, Bool.and_eq_true, List.all_eq_true] at h
      obtain ⟨⟨hc, hfirst⟩, hrest⟩ := h
      exact .letter hc hfirst (List.forall_mem_map.mpr hrest)

/-- What is looked up in such tables is the character itself, or a letter for a letter. -/
theorem Recased.of_tables
    {sequences : List (Nat × List Nat)}
    {runs : List CaseRun}
    (htables : tablesRecase sequences runs = true)
    (c : Char) :
    Recased c (mapCase sequences runs c) := by
  rw [tablesRecase, Bool.and_eq_true, List.all_eq_true, List.all_eq_true] at htables
  obtain ⟨hsequences, hruns⟩ := htables
  refine mapCase_cases ?_ ?_ .same
  · intro codes hcodes
    exact .of_sequence (hsequences _ hcodes)
  · intro run hrun hcovers
    exact .of_run (hruns run hrun) hcovers

theorem Recased.of_eq_or_recasesTo
    {c d : Char}
    (h : d = c ∨ recasesTo c d = true) :
    Recased c [d] := by
  rcases h with rfl | hrecased
  · exact .same
  · exact .of_recasesTo hrecased

theorem recased_upper
    (c : Char) :
    Recased c (upper c) := by
  unfold upper
  split_ifs with hascii
  · exact .of_eq_or_recasesTo (recases_ascii hascii).1
  · exact .of_tables tablesRecase_upper c

theorem recased_lower
    (c : Char) :
    Recased c (lower c) := by
  unfold lower
  split_ifs with hascii
  · exact .of_eq_or_recasesTo (recases_ascii hascii).2
  · exact .of_tables tablesRecase_lower c

/-- An identifier can hold both characters or none of them. -/
structure SameUse (c d : Char) : Prop where
  alphanumeric : isAlphanumeric d = isAlphanumeric c
  digit : isAsciiDigit d = isAsciiDigit c
  part : isPartChar d = isPartChar c

theorem Recased.exists_cons
    {c : Char}
    {image : List Char}
    (h : Recased c image) :
    ∃ d rest, image = d :: rest ∧ SameUse c d ∧ ∀ e ∈ rest, isPartChar e = true := by
  cases h with
  | same =>
      exact ⟨c, [], rfl, ⟨rfl, rfl, rfl⟩, by simp⟩
  | letter hc hd hrest =>
      obtain ⟨hcLetter, hcDigit, hcStart⟩ := of_isCased hc
      obtain ⟨hdLetter, hdDigit, hdStart⟩ := of_isCased hd
      refine ⟨_, _, rfl, ⟨hdLetter.trans hcLetter.symm, hdDigit.trans hcDigit.symm, ?_⟩, hrest⟩
      rw [Script.isPartChar_of_isStartChar hcStart, Script.isPartChar_of_isStartChar hdStart]
  | circled hc hd =>
      obtain ⟨hcLetter, hcDigit, -, hcPart⟩ := of_isCircled hc
      obtain ⟨hdLetter, hdDigit, -, hdPart⟩ := of_isCircled hd
      exact ⟨_, _, rfl, ⟨hdLetter.trans hcLetter.symm, hdDigit.trans hcDigit.symm,
        hdPart.trans hcPart.symm⟩, by simp⟩
  | iota hc =>
      subst hc
      have huse : isAlphanumeric '\u0345' = true ∧ isAsciiDigit '\u0345' = false ∧
          isPartChar '\u0345' = true := by
        decide
      have hcased : isCased '\u0399' = true := by
        decide
      obtain ⟨hletter, hdigit, hstart⟩ := of_isCased hcased
      exact ⟨_, [], rfl, ⟨hletter.trans huse.1.symm, hdigit.trans huse.2.1.symm,
        (Script.isPartChar_of_isStartChar hstart).trans huse.2.2.symm⟩, by simp⟩

theorem Recased.forall_isPartChar_iff
    {c : Char}
    {image : List Char}
    (h : Recased c image) :
    (∀ d ∈ image, isPartChar d = true) ↔ isPartChar c = true := by
  obtain ⟨d, rest, rfl, huse, hrest⟩ := h.exists_cons
  rw [List.forall_mem_cons, huse.part]
  exact and_iff_left hrest

/-- Only the iota under a vowel can start an identifier in one case and not in the other. -/
theorem Recased.isStartChar_head
    {c d : Char}
    {rest : List Char}
    (h : Recased c (d :: rest))
    (hc : c ≠ '\u0345') :
    isStartChar d = isStartChar c := by
  cases h with
  | same =>
      rfl
  | letter hletter hd _ =>
      rw [(of_isCased hletter).2.2, (of_isCased hd).2.2]
  | circled hcircled hd =>
      rw [(of_isCircled hcircled).2.2.1, (of_isCircled hd).2.2.1]
  | iota hiota =>
      exact absurd hiota hc

/-! ### What upper and lower case do not do -/

/-- The small letters of ASCII and the capital i with a dot: nothing else becomes one of them in
upper case. -/
def neverUpper : List CodeRange :=
  [(97, 122), (304, 304)]

theorem avoids_upperRuns :
    ∀ run ∈ upperRuns,
      avoids neverUpper (Int.toNat (run.first + run.shift))
        (Int.toNat (run.last + run.shift)) = true := by
  decide +kernel

theorem avoids_upperSequences :
    ∀ entry ∈ upperSequences, ∀ code ∈ entry.2,
      inRanges neverUpper (Char.ofNat code).toNat = false := by
  decide

theorem avoids_toUpper
    {c : Char}
    (hascii : c.toNat < 128) :
    inRanges neverUpper c.toUpper.toNat = false := by
  refine of_toNat_lt (P := fun c => inRanges neverUpper c.toUpper.toNat = false) ?_ hascii
  decide

theorem mem_upper
    {c d : Char}
    (h : d ∈ upper c) :
    inRanges neverUpper d.toNat = false ∨ (d = c ∧ 128 ≤ c.toNat) := by
  unfold upper at h
  split_ifs at h with hascii
  · rw [List.mem_singleton] at h
    exact .inl (h ▸ avoids_toUpper hascii)
  · have hall : ∀ e ∈ mapCase upperSequences upperRuns c,
        inRanges neverUpper e.toNat = false ∨ (e = c ∧ 128 ≤ c.toNat) := by
      refine mapCase_cases (P := fun image => ∀ e ∈ image,
        inRanges neverUpper e.toNat = false ∨ (e = c ∧ 128 ≤ c.toNat)) ?_ ?_ ?_
      · intro codes hentry e he
        obtain ⟨code, hcode, rfl⟩ := List.mem_map.mp he
        exact .inl (avoids_upperSequences _ hentry code hcode)
      · intro run hrun hcovers e he
        rw [List.mem_singleton] at he
        subst he
        simp only [CaseRun.covers, Bool.and_eq_true, Nat.ble_eq] at hcovers
        obtain ⟨⟨hfirst, hlast⟩, -⟩ := hcovers
        left
        by_cases hvalid : (Int.toNat (c.toNat + run.shift)).isValidChar
        · rw [toNat_ofNat hvalid]
          exact inRanges_of_avoids (avoids_upperRuns run hrun) (Int.toNat_le_toNat (by omega))
            (Int.toNat_le_toNat (by omega))
        · rw [Char.ofNat, dif_neg hvalid]
          rfl
      · intro e he
        rw [List.mem_singleton] at he
        exact .inr ⟨he, by omega⟩
    exact hall d h

/-- No letter becomes a small letter of ASCII in upper case. -/
theorem isSmallLetter_of_mem_upper
    {c d : Char}
    (h : d ∈ upper c) :
    Script.isSmallLetter d = false := by
  rw [← Bool.not_eq_true, Script.isSmallLetter, Bool.and_eq_true, decide_eq_true_eq,
    decide_eq_true_eq]
  rintro ⟨hlow, hhigh⟩
  have hlow : 97 ≤ d.toNat := hlow
  have hhigh : d.toNat ≤ 122 := hhigh
  rcases mem_upper h with hout | ⟨rfl, houtside⟩
  · have hin : inRanges neverUpper d.toNat = true :=
      mem_inRanges_iff.mpr ⟨(97, 122), by simp [neverUpper], hlow, hhigh⟩
    rw [hin] at hout
    cases hout
  · omega

theorem eq_of_dotted_mem_upper
    {c : Char}
    (h : 'İ' ∈ upper c) :
    c = 'İ' := by
  rcases mem_upper h with hout | ⟨hc, -⟩
  · exact absurd hout (by decide)
  · exact hc.symm

/-- Lower case is one character for each but the capital i with a dot. -/
theorem lower_eq_singleton
    {c : Char}
    (hc : c ≠ 'İ') :
    ∃ d, lower c = [d] := by
  unfold lower
  split_ifs
  · exact ⟨_, rfl⟩
  · refine mapCase_cases (P := fun image => ∃ d, image = [d]) ?_ ?_ ⟨c, rfl⟩
    · intro codes hentry
      rw [lowerSequences, List.mem_singleton, Prod.mk.injEq] at hentry
      refine absurd ?_ hc
      rw [← Char.ofNat_toNat c, hentry.1]
    · intro run _ _
      exact ⟨_, rfl⟩

theorem head_lower_upperSequences :
    ∀ entry ∈ upperSequences, ∀ code ∈ entry.2.head?,
      (lower (Char.ofNat code)).head? ≠ some (Char.ofNat entry.1) := by
  decide +kernel

/-- The capital i with a dot is its own capital, and the dot is a mark in lower case. -/
theorem cases_dotted :
    upper 'İ' = ['İ'] ∧ lower 'İ' = ['i', '\u0307'] := by
  exact ⟨rfl, rfl⟩

/-- The iota under a vowel becomes a letter in upper case and has no lower case. -/
theorem cases_iota :
    upper '\u0345' = ['\u0399'] ∧ lower '\u0345' = ['\u0345'] := by
  exact ⟨rfl, rfl⟩

/-- A letter with several characters in upper case is not found again from the first of them. -/
theorem head_lower_upper_ne
    {c u v : Char}
    {rest : List Char}
    (h : upper c = u :: v :: rest) :
    (lower u).head? ≠ some c := by
  unfold upper at h
  split_ifs at h
  · cases h
  · revert h
    refine mapCase_cases (P := fun image => image = u :: v :: rest → (lower u).head? ≠ some c)
      ?_ ?_ ?_
    · intro codes hentry h
      cases codes with
      | nil =>
          cases h
      | cons code codes =>
          rw [List.map_cons, List.cons.injEq] at h
          have hne := head_lower_upperSequences _ hentry code rfl
          rw [h.1, Char.ofNat_toNat] at hne
          exact hne
    · rintro run _ _ ⟨⟩
    · rintro ⟨⟩

end Text
end SuiteShift
