import SuiteShift.Json.Basic
import SuiteShift.Text.Letter

/-!
# Reading JSON

`Json.read?` reads one document: a value with blanks around it and nothing else. Numbers follow
the strict grammar. The digits of a number are gathered as long as they fit 64 bits; the
gathered significand is rounded to a double first and then scaled by a rounded power of ten.
-/

namespace SuiteShift
namespace Json

/-- The four blanks of JSON. -/
def isGap (c : Char) : Bool :=
  c == ' ' || c == '\n' || c == '\t' || c == '\r'

/-- Drops leading blanks. -/
def skipGaps (cs : List Char) : List Char :=
  cs.dropWhile isGap

/-- The value of a hexadecimal digit. -/
def hexDigit? (c : Char) : Option Nat :=
  if Text.isAsciiDigit c then some (c.toNat - 48)
  else if 'a' ≤ c && c ≤ 'f' then some (c.toNat - 87)
  else if 'A' ≤ c && c ≤ 'F' then some (c.toNat - 55)
  else none

/-- Four hexadecimal digits. -/
def hexQuad? : List Char → Option (Nat × List Char)
  | a :: b :: c :: d :: rest => do
    let a ← hexDigit? a
    let b ← hexDigit? b
    let c ← hexDigit? c
    let d ← hexDigit? d
    pure (((a * 16 + b) * 16 + c) * 16 + d, rest)
  | _ => none

/-- The character of an escape with a single letter. -/
def simpleEscape? : Char → Option Char
  | '"' => some '"'
  | '\\' => some '\\'
  | '/' => some '/'
  | 'b' => some '\x08'
  | 'f' => some '\x0c'
  | 'n' => some '\n'
  | 'r' => some '\r'
  | 't' => some '\t'
  | _ => none

/-- What an escape after the letter u stands for; the flag tells a partnerless surrogate. -/
def unicodeEscape? (cs : List Char) : Option (Char × Bool × List Char) := do
  let (unit, rest) ← hexQuad? cs
  if 0xDC00 ≤ unit ∧ unit ≤ 0xDFFF then
    pure ('?', true, rest)
  else if 0xD800 ≤ unit ∧ unit ≤ 0xDBFF then
    match rest with
    | '\\' :: 'u' :: after =>
      let (low, rest) ← hexQuad? after
      if 0xDC00 ≤ low ∧ low ≤ 0xDFFF then
        pure (Char.ofNat (0x10000 + (unit - 0xD800) * 0x400 + (low - 0xDC00)), false, rest)
      else
        pure ('?', true, rest)
    | _ => pure ('?', true, rest)
  else
    pure (Char.ofNat unit, false, rest)

/-- The body of a string after its opening quote: reversed characters so far, whether an escape
was broken, and the fuel, which the number of characters bounds. -/
def readTextFrom : Nat → List Char → Bool → List Char → Option (Json × List Char)
  | 0, _, _, _ => none
  | _ + 1, _, _, [] => none
  | fuel + 1, seen, broken, c :: cs =>
    if c == '"' then
      some (if broken then .brokenText else .text (String.ofList seen.reverse), cs)
    else if c.toNat < 32 then none
    else if c == '\\' then
      match cs with
      | 'u' :: rest =>
        match unicodeEscape? rest with
        | some (d, bad, rest) => readTextFrom fuel (d :: seen) (broken || bad) rest
        | none => none
      | e :: rest =>
        match simpleEscape? e with
        | some d => readTextFrom fuel (d :: seen) broken rest
        | none => none
      | [] => none
    else readTextFrom fuel (c :: seen) broken cs

/-- The body of a string after its opening quote. -/
def readText (cs : List Char) : Option (Json × List Char) :=
  readTextFrom (cs.length + 1) [] false cs

/-- The greatest significand that is gathered exactly. -/
def significandLimit : Nat := Nat.pow 2 64 - 1

/-- A significand and the power of ten that it is scaled by. -/
structure Scaled where
  significand : Nat
  exponent : Int

/-- Adds integer digits; those beyond the limit only raise the exponent. -/
def Scaled.addWhole : Scaled → Bool → List Char → Scaled × Bool
  | scaled, full, [] => (scaled, full)
  | scaled, full, c :: cs =>
    let next := scaled.significand * 10 + (c.toNat - 48)
    if full || significandLimit < next then
      Scaled.addWhole { scaled with exponent := scaled.exponent + 1 } true cs
    else Scaled.addWhole { scaled with significand := next } false cs

/-- Adds fraction digits; the first one that does not fit ends the gathering. -/
def Scaled.addFraction : Scaled → List Char → Scaled
  | scaled, [] => scaled
  | scaled, c :: cs =>
    let next := scaled.significand * 10 + (c.toNat - 48)
    if significandLimit < next then scaled
    else Scaled.addFraction ⟨next, scaled.exponent - 1⟩ cs

/-- A power of ten that doubles can hold, rounded. -/
def powerOfTen (n : Nat) : Double :=
  Double.ofDecimal false 1 n

/-- Divides by the greatest power of ten until the exponent is within reach. -/
def shrink : Nat → Double → Int → Double
  | 0, x, _ => x
  | fuel + 1, x, exponent =>
    if -308 ≤ exponent then x.div (powerOfTen (-exponent).toNat)
    else if x.isZero then x
    else shrink fuel (x.div (powerOfTen 308)) (exponent + 308)

/-- The scaled significand as a double; `none` beyond the doubles. -/
def Scaled.value? (scaled : Scaled) : Option Double :=
  let x := Double.ofNat scaled.significand
  if 308 < scaled.exponent then
    if x.isZero then some x else none
  else if 0 ≤ scaled.exponent then
    let y := x.mul (powerOfTen scaled.exponent.toNat)
    if y.isInfinite then none else some y
  else
    some (shrink (scaled.exponent.natAbs / 308 + 2) x scaled.exponent)

/-- The number as a real value with a sign. -/
def Scaled.toJson (scaled : Scaled) (negative : Bool) : Json :=
  match scaled.value? with
  | some x => .real (x.withSign negative)
  | none => .outOfRange

/-- The value of a run of digits. -/
def numeral (digits : List Char) : Nat :=
  digits.foldl (fun n c => n * 10 + (c.toNat - 48)) 0

/-- An exponent part after its letter. -/
def readExponent? (cs : List Char) : Option (Int × List Char) :=
  let (negative, rest) :=
    match cs with
    | '+' :: rest => (false, rest)
    | '-' :: rest => (true, rest)
    | rest => (false, rest)
  let digits := rest.takeWhile Text.isAsciiDigit
  if digits.isEmpty then none
  else
    let value : Int := numeral digits
    some (if negative then -value else value, rest.dropWhile Text.isAsciiDigit)

/-- The rest of a number after its integer digits. -/
def readTail (negative : Bool) (whole : Scaled) (full : Bool) (cs : List Char) :
    Option (Json × List Char) :=
  match cs with
  | '.' :: rest =>
    let digits := rest.takeWhile Text.isAsciiDigit
    let after := rest.dropWhile Text.isAsciiDigit
    let scaled := whole.addFraction digits
    if digits.isEmpty then none
    else
      match after with
      | 'e' :: tail | 'E' :: tail => do
        let (exponent, rest) ← readExponent? tail
        pure (Scaled.toJson ⟨scaled.significand, scaled.exponent + exponent⟩ negative, rest)
      | _ => some (scaled.toJson negative, after)
  | 'e' :: tail | 'E' :: tail => do
    let (exponent, rest) ← readExponent? tail
    pure (Scaled.toJson ⟨whole.significand, whole.exponent + exponent⟩ negative, rest)
  | rest =>
    if full then some (whole.toJson negative, rest)
    else if !negative then some (.integer whole.significand, rest)
    else if whole.significand = 0 || Nat.pow 2 63 < whole.significand then
      some (.real ((Double.ofNat whole.significand).withSign true), rest)
    else some (.integer (-whole.significand), rest)

/-- A number after its optional sign: a single zero or digits without a leading zero. -/
def readNumber (negative : Bool) (cs : List Char) : Option (Json × List Char) :=
  let digits := cs.takeWhile Text.isAsciiDigit
  let rest := cs.dropWhile Text.isAsciiDigit
  match digits with
  | [] => none
  | '0' :: _ :: _ => none
  | _ =>
    let (whole, full) := Scaled.addWhole ⟨0, 0⟩ false digits
    readTail negative whole full rest

mutual

/-- One value; the fuel bounds the number of values and members. -/
def readValue : Nat → List Char → Option (Json × List Char)
  | 0, _ => none
  | fuel + 1, cs =>
    match skipGaps cs with
    | 'n' :: 'u' :: 'l' :: 'l' :: rest => some (.null, rest)
    | 't' :: 'r' :: 'u' :: 'e' :: rest => some (.bool true, rest)
    | 'f' :: 'a' :: 'l' :: 's' :: 'e' :: rest => some (.bool false, rest)
    | '"' :: rest => readText rest
    | '-' :: rest => readNumber true rest
    | '[' :: rest =>
      match skipGaps rest with
      | ']' :: rest => some (.array [], rest)
      | rest => (readItems fuel rest).map fun (items, rest) => (.array items, rest)
    | '\x7b' :: rest =>
      match skipGaps rest with
      | '\x7d' :: rest => some (.object [], rest)
      | rest => (readMembers fuel rest).map fun (members, rest) => (.object members, rest)
    | rest => readNumber false rest

/-- The items of an array and its closing bracket. -/
def readItems : Nat → List Char → Option (List Json × List Char)
  | 0, _ => none
  | fuel + 1, cs =>
    match readValue fuel cs with
    | none => none
    | some (item, rest) =>
      match skipGaps rest with
      | ',' :: rest => (readItems fuel rest).map fun (items, rest) => (item :: items, rest)
      | ']' :: rest => some ([item], rest)
      | _ => none

/-- The members of an object and its closing brace. -/
def readMembers : Nat → List Char → Option (List (String × Json) × List Char)
  | 0, _ => none
  | fuel + 1, cs =>
    match skipGaps cs with
    | '"' :: rest =>
      match readText rest with
      | some (.text name, rest) =>
        match skipGaps rest with
        | ':' :: rest =>
          match readValue fuel rest with
          | none => none
          | some (value, rest) =>
            match skipGaps rest with
            | ',' :: rest =>
              (readMembers fuel rest).map fun (members, rest) => ((name, value) :: members, rest)
            | '\x7d' :: rest => some ([(name, value)], rest)
            | _ => none
        | _ => none
      | _ => none
    | _ => none

end

/-- Reads a document. -/
def read? (source : String) : Option Json :=
  let cs := source.toList
  match readValue (2 * cs.length + 2) cs with
  | some (value, rest) => if (skipGaps rest).isEmpty then some value else none
  | none => none

end Json
end SuiteShift
