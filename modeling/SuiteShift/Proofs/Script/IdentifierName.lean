import SuiteShift.Text.Letter
import Mathlib.Tactic.SplitIfs

/-!
# Names that a script can declare

- `isIdStart`, `isIdContinue`: the properties ID_Start and ID_Continue of Unicode, told from the
  letters, marks and numbers of `Text.alphabeticRanges` and `Text.wordMarkRanges`.
- `reservedWords`: the words that a module cannot use as a name.
- `isBindingIdentifier`: the text can be declared as a name.
-/

namespace SuiteShift
namespace Script

open Text (CodeRange inRanges)

/-- Alphabetic code points that start no identifier: the marks among them, the vertical tilde, and
the letters that are symbols as they stand in a circle or a square. -/
def alphabeticNotStart : List CodeRange :=
  [(837, 837), (867, 879), (1456, 1469), (1471, 1471), (1473, 1474), (1476, 1477), (1479, 1479),
   (1552, 1562), (1611, 1623), (1625, 1631), (1648, 1648), (1750, 1756), (1761, 1764),
   (1767, 1768), (1773, 1773), (1809, 1809), (1840, 1855), (1958, 1968), (2070, 2071),
   (2075, 2083), (2085, 2087), (2089, 2092), (2199, 2199), (2260, 2271), (2275, 2281),
   (2288, 2307), (2362, 2363), (2366, 2380), (2382, 2383), (2389, 2391), (2402, 2403),
   (2433, 2435), (2494, 2500), (2503, 2504), (2507, 2508), (2519, 2519), (2530, 2531),
   (2561, 2563), (2622, 2626), (2631, 2632), (2635, 2636), (2641, 2641), (2672, 2673),
   (2677, 2677), (2689, 2691), (2750, 2757), (2759, 2761), (2763, 2764), (2786, 2787),
   (2810, 2812), (2817, 2819), (2878, 2884), (2887, 2888), (2891, 2892), (2902, 2903),
   (2914, 2915), (2946, 2946), (3006, 3010), (3014, 3016), (3018, 3020), (3031, 3031),
   (3072, 3076), (3134, 3140), (3142, 3144), (3146, 3148), (3157, 3158), (3170, 3171),
   (3201, 3203), (3262, 3268), (3270, 3272), (3274, 3276), (3285, 3286), (3298, 3299),
   (3315, 3315), (3328, 3331), (3390, 3396), (3398, 3400), (3402, 3404), (3415, 3415),
   (3426, 3427), (3457, 3459), (3535, 3540), (3542, 3542), (3544, 3551), (3570, 3571),
   (3633, 3633), (3636, 3642), (3661, 3661), (3761, 3761), (3764, 3769), (3771, 3772),
   (3789, 3789), (3953, 3971), (3981, 3991), (3993, 4028), (4139, 4150), (4152, 4152),
   (4155, 4158), (4182, 4185), (4190, 4192), (4194, 4196), (4199, 4205), (4209, 4212),
   (4226, 4237), (4239, 4239), (4250, 4253), (5906, 5907), (5938, 5939), (5970, 5971),
   (6002, 6003), (6070, 6088), (6313, 6313), (6432, 6443), (6448, 6456), (6679, 6683),
   (6741, 6750), (6753, 6772), (6847, 6848), (6860, 6862), (6912, 6916), (6965, 6979),
   (7040, 7042), (7073, 7081), (7084, 7085), (7143, 7153), (7204, 7222), (7635, 7668),
   (9398, 9449), (11744, 11775), (11823, 11823), (42612, 42619), (42654, 42655), (43010, 43010),
   (43019, 43019), (43043, 43047), (43136, 43137), (43188, 43203), (43205, 43205), (43263, 43263),
   (43302, 43306), (43335, 43346), (43392, 43395), (43444, 43455), (43493, 43493), (43561, 43574),
   (43587, 43587), (43596, 43597), (43643, 43645), (43696, 43696), (43698, 43700), (43703, 43704),
   (43710, 43710), (43755, 43759), (43765, 43765), (44003, 44010), (64286, 64286), (66422, 66426),
   (68097, 68099), (68101, 68102), (68108, 68111), (68900, 68903), (68969, 68969), (69291, 69292),
   (69370, 69372), (69632, 69634), (69688, 69701), (69747, 69748), (69760, 69762), (69808, 69816),
   (69826, 69826), (69888, 69890), (69927, 69938), (69957, 69958), (70016, 70018), (70067, 70079),
   (70094, 70095), (70188, 70196), (70199, 70199), (70206, 70206), (70209, 70209), (70367, 70376),
   (70400, 70403), (70462, 70468), (70471, 70472), (70475, 70476), (70487, 70487), (70498, 70499),
   (70584, 70592), (70594, 70594), (70597, 70597), (70599, 70602), (70604, 70605), (70709, 70721),
   (70723, 70725), (70832, 70849), (71087, 71093), (71096, 71102), (71132, 71133), (71216, 71230),
   (71232, 71232), (71339, 71349), (71453, 71466), (71724, 71736), (71984, 71989), (71991, 71992),
   (71995, 71996), (72000, 72000), (72002, 72002), (72145, 72151), (72154, 72159), (72164, 72164),
   (72193, 72202), (72245, 72249), (72251, 72254), (72273, 72283), (72330, 72343), (72544, 72551),
   (72751, 72758), (72760, 72766), (72850, 72871), (72873, 72886), (73009, 73014), (73018, 73018),
   (73020, 73021), (73023, 73025), (73027, 73027), (73031, 73031), (73098, 73102), (73104, 73105),
   (73107, 73110), (73459, 73462), (73472, 73473), (73475, 73475), (73524, 73530), (73534, 73536),
   (90398, 90414), (94031, 94031), (94033, 94087), (94095, 94098), (94192, 94193),
   (113822, 113822), (122880, 122886), (122888, 122904), (122907, 122913), (122915, 122916),
   (122918, 122922), (123023, 123023), (124643, 124643), (124646, 124646), (124654, 124655),
   (124661, 124661), (125255, 125255), (127280, 127305), (127312, 127337), (127344, 127369)]

/-- Alphabetic code points and marks that are no part of an identifier either: the symbols, and
the marks that enclose a letter. -/
def wordNotContinue : List CodeRange :=
  [(1160, 1161), (6846, 6846), (8413, 8416), (8418, 8420), (9398, 9449), (11823, 11823),
   (42608, 42610), (127280, 127305), (127312, 127337), (127344, 127369)]

/-- Symbols and marks that start identifiers as they once did (Other_ID_Start). -/
def otherStart : List CodeRange :=
  [(6277, 6278), (8472, 8472), (8494, 8494), (12443, 12444)]

/-- The same inside of identifiers (Other_ID_Continue). -/
def otherContinue : List CodeRange :=
  [(183, 183), (903, 903), (4969, 4977), (6618, 6618), (8204, 8205), (12539, 12539),
   (65381, 65381)]

/-- The property ID_Start. -/
def isIdStart (c : Char) : Bool :=
  if c.toNat < 128 then
    Text.isAsciiLetter c
  else
    (inRanges Text.alphabeticRanges c.toNat && !inRanges alphabeticNotStart c.toNat) ||
      inRanges otherStart c.toNat

/-- The property ID_Continue. -/
def isIdContinue (c : Char) : Bool :=
  if c.toNat < 128 then
    Text.isWord c
  else
    (Text.isWord c && !inRanges wordNotContinue c.toNat) || isIdStart c ||
      inRanges otherContinue c.toNat

/-- An identifier can start with the character. -/
def isStartChar (c : Char) : Bool :=
  isIdStart c || c == '_' || c == '$'

/-- An identifier can go on with the character. -/
def isPartChar (c : Char) : Bool :=
  isIdContinue c || c == '$'

/-- The words that have a meaning of their own in a module. -/
def reservedWords : List String :=
  ["await", "break", "case", "catch", "class", "const", "continue", "debugger", "default", "delete",
   "do", "else", "enum", "export", "extends", "false", "finally", "for", "function", "if",
   "implements", "import", "in", "instanceof", "interface", "let", "new", "null", "package",
   "private", "protected", "public", "return", "static", "super", "switch", "this", "throw", "true",
   "try", "typeof", "var", "void", "while", "with", "yield"]

/-- The text can be declared as a name. -/
def isBindingIdentifier (s : String) : Bool :=
  match s.toList with
  | [] => false
  | c :: cs => isStartChar c && cs.all isPartChar && !reservedWords.contains s

theorem isPartChar_of_isStartChar
    {c : Char}
    (h : isStartChar c = true) :
    isPartChar c = true := by
  simp only [isStartChar, Bool.or_eq_true, beq_iff_eq] at h
  rw [isPartChar, Bool.or_eq_true]
  rcases h with (h | rfl) | rfl
  · left
    unfold isIdContinue
    split_ifs with hascii
    · rw [isIdStart, if_pos hascii] at h
      rw [Text.isWord, if_pos hascii, h, Bool.true_or, Bool.true_or]
    · rw [h, Bool.or_true, Bool.true_or]
  · left
    rfl
  · right
    rfl

theorem isBindingIdentifier_iff
    {s : String} :
    isBindingIdentifier s = true ↔
      (∃ c cs, s.toList = c :: cs ∧ isStartChar c = true ∧ ∀ d ∈ cs, isPartChar d = true) ∧
        s ∉ reservedWords := by
  unfold isBindingIdentifier
  cases s.toList with
  | nil =>
      simp
  | cons c cs =>
      simp [List.all_eq_true, and_assoc]

/-- The small letters of ASCII. -/
def isSmallLetter (c : Char) : Bool :=
  'a' ≤ c && c ≤ 'z'

/-- Reserved words are words of small letters. -/
theorem isSmallLetter_of_mem_reservedWords
    {word : String}
    (h : word ∈ reservedWords) :
    word.toList ≠ [] ∧ ∀ c ∈ word.toList, isSmallLetter c = true := by
  have hall : reservedWords.all (fun word =>
      !word.toList.isEmpty && word.toList.all isSmallLetter) = true := by
    decide
  have hword := List.all_eq_true.mp hall word h
  rw [Bool.and_eq_true, Bool.not_eq_true', List.isEmpty_eq_false_iff, List.all_eq_true] at hword
  exact hword

end Script
end SuiteShift
