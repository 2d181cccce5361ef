import SuiteShift.Number.Double
import SuiteShift.Text.Letter

/-!
# Decimal text of doubles

- `Double.shortest` gives the fewest decimal digits that read back as the same double, and
  among those the nearest to its value; an exact tie goes up.
- `Double.text` writes them positionally, never with an exponent.
- `Double.ofText?` reads a decimal numeral with an optional sign, fraction and exponent, and
  the words for infinity and not-a-number in any case.
-/

namespace SuiteShift
namespace Double

/-- The digits of a decimal and the power of ten of the last one. -/
structure Digits where
  digits : Nat
  exponent : Int
deriving DecidableEq, Repr

/-- Compares `a · 10 ^ p` with `b · 2 ^ q` in exact arithmetic. -/
def compareScaled (a : Nat) (p : Int) (b : Nat) (q : Int) : Ordering :=
  let left := a * Nat.pow 10 p.toNat * Nat.pow 2 (-q).toNat
  let right := b * Nat.pow 2 q.toNat * Nat.pow 10 (-p).toNat
  compare left right

/-- The reals that round to `mantissa · 2 ^ exponent`, scaled by four so that both ends are
whole; the ends belong to it when the mantissa is even. -/
structure Interval where
  low : Nat
  high : Nat
  exponent : Int
  closed : Bool

/-- The rounding interval of a nonzero finite double. -/
def interval (mantissa : Nat) (exponent : Int) : Interval :=
  let atPower := mantissa = Nat.pow 2 52 ∧ leastExponent < exponent
  { low := if atPower then 4 * mantissa - 1 else 4 * mantissa - 2
    high := 4 * mantissa + 2
    exponent := exponent - 2
    closed := mantissa % 2 == 0 }

/-- The decimal `digits · 10 ^ power` lies in the interval. -/
def Interval.holds (range : Interval) (digits : Nat) (power : Int) : Bool :=
  let low := compareScaled digits power range.low range.exponent
  let high := compareScaled digits power range.high range.exponent
  if range.closed then low != .lt && high != .gt else low == .gt && high == .lt

/-- The largest number of units `10 ^ power` not above the value. -/
def unitsBelow (mantissa : Nat) (exponent power : Int) : Nat :=
  (mantissa * Nat.pow 2 exponent.toNat * Nat.pow 10 (-power).toNat) /
    (Nat.pow 10 power.toNat * Nat.pow 2 (-exponent).toNat)

/-- The power of ten of the leading decimal digit, plus one. -/
def leadingPower (mantissa : Nat) (exponent : Int) : Int :=
  if 0 ≤ exponent then
    (Nat.toDigits 10 (mantissa * Nat.pow 2 exponent.toNat)).length
  else
    -- `mantissa · 2 ^ exponent = mantissa · 5 ^ k / 10 ^ k`
    let k := (-exponent).toNat
    (Nat.toDigits 10 (mantissa * Nat.pow 5 k)).length - (k : Int)

/-- The better of the two neighbours of the value on the grid `10 ^ power`, if one reads back. -/
def gridPoint? (mantissa : Nat) (exponent power : Int) : Option Nat :=
  let range := interval mantissa exponent
  let below := unitsBelow mantissa exponent power
  let belowFits := below != 0 && range.holds below power
  let aboveFits := range.holds (below + 1) power
  if belowFits && aboveFits then
    -- twice the value against the sum of both neighbours
    match compareScaled (2 * below + 1) power (2 * mantissa) exponent with
    | .gt => some below
    | _ => some (below + 1)
  else if belowFits then some below
  else if aboveFits then some (below + 1)
  else none

/-- Tries grids with more and more digits. -/
def searchGrid (mantissa : Nat) (exponent lead : Int) : Nat → Int → Digits
  | 0, _ => ⟨unitsBelow mantissa exponent (lead - 17), lead - 17⟩
  | tries + 1, power =>
    match gridPoint? mantissa exponent power with
    | some digits => ⟨digits, power⟩
    | none => searchGrid mantissa exponent lead tries (power - 1)

/-- The fewest digits that read back as `mantissa · 2 ^ exponent`. -/
def shortest (mantissa : Nat) (exponent : Int) : Digits :=
  let lead := leadingPower mantissa exponent
  searchGrid mantissa exponent lead 17 (lead - 1)

/-- Removes trailing zeros of a fraction. -/
def trimZeros (digits : List Char) : List Char :=
  (digits.reverse.dropWhile (· == '0')).reverse

/-- Writes a decimal positionally, without a trailing fraction of zeros. -/
def Digits.positional (d : Digits) : List Char :=
  let digits := Nat.toDigits 10 d.digits
  if 0 ≤ d.exponent then
    digits ++ List.replicate d.exponent.toNat '0'
  else
    let places := (-d.exponent).toNat
    let padded := List.replicate (places + 1 - digits.length) '0' ++ digits
    let whole := padded.take (padded.length - places)
    let fraction := trimZeros (padded.drop (padded.length - places))
    if fraction.isEmpty then whole else whole ++ '.' :: fraction

/-- Positional decimal text; the sign of zero is kept. -/
def text : Double → String
  | .nan => "NaN"
  | .infinite negative => if negative then "-inf" else "inf"
  | .finite negative mantissa exponent =>
    let magnitude : List Char :=
      if mantissa = 0 then ['0'] else (shortest mantissa exponent).positional
    String.ofList (if negative then '-' :: magnitude else magnitude)

/-- Positional decimal text in which zero has no sign. -/
def unsignedZeroText (x : Double) : String :=
  if x.isZero then "0" else x.text

/-- The value of a run of decimal digits. -/
def digitsValue (digits : List Char) : Nat :=
  digits.foldl (fun n c => n * 10 + (c.toNat - 48)) 0

/-- Reads an exponent part: nothing, or the letter e, an optional sign and digits. -/
def exponentValue? : List Char → Option Int
  | [] => some 0
  | c :: cs =>
    if c == 'e' || c == 'E' then
      let (negative, digits) :=
        match cs with
        | '-' :: rest => (true, rest)
        | '+' :: rest => (false, rest)
        | rest => (false, rest)
      if digits.isEmpty || !digits.all Text.isAsciiDigit then none
      else
        let value : Int := digitsValue digits
        some (if negative then -value else value)
    else none

/-- Reads an unsigned decimal numeral; either side of the point may be empty, not both. -/
def ofNumeral? (negative : Bool) (cs : List Char) : Option Double :=
  let whole := cs.takeWhile Text.isAsciiDigit
  let rest := cs.dropWhile Text.isAsciiDigit
  let (fraction, tail) :=
    match rest with
    | '.' :: after => (after.takeWhile Text.isAsciiDigit, after.dropWhile Text.isAsciiDigit)
    | other => ([], other)
  if whole.isEmpty && fraction.isEmpty then none
  else
    (exponentValue? tail).map fun exponent =>
      ofDecimal negative (digitsValue (whole ++ fraction)) (exponent - fraction.length)

/-- Reads a numeral with an optional sign, or a word for infinity or not-a-number. -/
def ofText? (cs : List Char) : Option Double :=
  let (negative, body) :=
    match cs with
    | '-' :: rest => (true, rest)
    | '+' :: rest => (false, rest)
    | rest => (false, rest)
  let lowered := String.ofList (body.map Char.toLower)
  if lowered == "inf" || lowered == "infinity" then some (.infinite negative)
  else if lowered == "nan" then some .nan
  else ofNumeral? negative body

end Double
end SuiteShift
