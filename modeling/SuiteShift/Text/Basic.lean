/-!
# Text as lists of characters

Scanning is done on `List Char`; a `String` is opened once and closed once. This module holds
the operations that every scanner shares:

- `isBlank`, `trim`, `words`: the characters with the Unicode property White_Space;
- `lines`: the lines of a text, without their line ends;
- `contains`, `splitOnce`, `replaceAll`, `findIndex`: searching for a fixed text;
- `utf8Length`, `dropBytes`: positions counted in UTF-8 bytes.
-/

namespace SuiteShift
namespace Text

/-- The characters with the property White_Space. -/
def isBlank (c : Char) : Bool :=
  let n := c.toNat
  (Nat.ble 9 n && Nat.ble n 13) || n == 32 || n == 133 || n == 160 || n == 5760 ||
    (Nat.ble 8192 n && Nat.ble n 8202) || n == 8232 || n == 8233 || n == 8239 || n == 8287 ||
    n == 12288

/-- Removes leading blanks. -/
def dropBlanks (cs : List Char) : List Char :=
  cs.dropWhile isBlank

/-- Removes leading and trailing blanks. -/
def trimChars (cs : List Char) : List Char :=
  ((cs.dropWhile isBlank).reverse.dropWhile isBlank).reverse

/-- Removes leading and trailing blanks. -/
def trim (s : String) : String :=
  String.ofList (trimChars s.toList)

/-- Splits at every separator; `n` separators give `n + 1` pieces. -/
def splitOn (sep : Char → Bool) : List Char → List (List Char)
  | [] => [[]]
  | c :: cs =>
    if sep c then
      [] :: splitOn sep cs
    else
      match splitOn sep cs with
      | [] => [[c]]
      | piece :: pieces => (c :: piece) :: pieces

/-- The maximal runs of characters that are not blank. -/
def words (cs : List Char) : List (List Char) :=
  (splitOn isBlank cs).filter fun word => !word.isEmpty

/-- Removes a carriage return at the head of a reversed line. -/
def dropReturn : List Char → List Char
  | '\r' :: cs => cs
  | cs => cs

/-- The lines of a text, after the reversed beginning of the first one. -/
def linesAfter (seen : List Char) : List Char → List (List Char)
  | [] => if seen.isEmpty then [] else [seen.reverse]
  | '\n' :: cs => (dropReturn seen).reverse :: linesAfter [] cs
  | c :: cs => linesAfter (c :: seen) cs

/-- The lines of a text: a line ends at a newline, with the carriage return before it;
an empty last line does not count. -/
def lines (cs : List Char) : List (List Char) :=
  linesAfter [] cs

/-- The lines of a string. -/
def linesOf (s : String) : List String :=
  (lines s.toList).map String.ofList

/-- The rest after a fixed beginning. -/
def stripStart : List Char → List Char → Option (List Char)
  | [], cs => some cs
  | _ :: _, [] => none
  | p :: ps, c :: cs => if p == c then stripStart ps cs else none

/-- The text before a fixed ending. -/
def stripEnd (ending cs : List Char) : Option (List Char) :=
  (stripStart ending.reverse cs.reverse).map List.reverse

/-- The text starts with `start`. -/
def startsWith (start cs : List Char) : Bool :=
  (stripStart start cs).isSome

/-- Splits around the first occurrence of a fixed text. -/
def splitOnce (needle : List Char) : List Char → Option (List Char × List Char)
  | [] => if needle.isEmpty then some ([], []) else none
  | c :: cs =>
    match stripStart needle (c :: cs) with
    | some rest => some ([], rest)
    | none => (splitOnce needle cs).map fun (before, after) => (c :: before, after)

/-- A fixed text occurs somewhere. -/
def contains (needle cs : List Char) : Bool :=
  (splitOnce needle cs).isSome

/-- Replaces every occurrence of a nonempty text, from left to right; the second argument
counts the characters of an occurrence that are still to be skipped. -/
def replaceFrom (needle by_ : List Char) : Nat → List Char → List Char
  | _, [] => []
  | skip + 1, _ :: cs => replaceFrom needle by_ skip cs
  | 0, c :: cs =>
    if startsWith needle (c :: cs) then
      by_ ++ replaceFrom needle by_ (needle.length - 1) cs
    else
      c :: replaceFrom needle by_ 0 cs

/-- Replaces every occurrence of a nonempty text. -/
def replaceAll (needle by_ cs : List Char) : List Char :=
  replaceFrom needle by_ 0 cs

/-- Bytes of a text in UTF-8. -/
def utf8Length (cs : List Char) : Nat :=
  cs.foldl (fun n c => n + c.utf8Size) 0

/-- Drops a number of UTF-8 bytes; `none` when that would cut a character or pass the end. -/
def dropBytes : Nat → List Char → Option (List Char)
  | 0, cs => some cs
  | _ + 1, [] => none
  | n + 1, c :: cs => if c.utf8Size ≤ n + 1 then dropBytes (n + 1 - c.utf8Size) cs else none
termination_by _ cs => cs.length

/-- Joins texts with a separator between them. -/
def joinChars (sep : List Char) : List (List Char) → List Char
  | [] => []
  | [piece] => piece
  | piece :: pieces => piece ++ sep ++ joinChars sep pieces

end Text

/-- The string occurs in the other. -/
def occursIn (needle hay : String) : Bool :=
  Text.contains needle.toList hay.toList

end SuiteShift
