/-!
# Double precision numbers

Arguments of calls are IEEE doubles. They are kept as exact values, a sign, a mantissa and a
power of two, so that reading and writing them is arithmetic on natural numbers.

- `Double.ofRatio` rounds a nonnegative rational to the nearest double, ties to the even mantissa.
- `Double.ofDecimal` reads `digits · 10 ^ exponent` exactly and rounds once.
- `Double.mul` and `Double.div` round the exact product and quotient of magnitudes.
-/

namespace SuiteShift

/-- A double: `± mantissa · 2 ^ exponent`, an infinity, or not a number. -/
inductive Double where
  | finite (negative : Bool) (mantissa : Nat) (exponent : Int)
  | infinite (negative : Bool)
  | nan
deriving DecidableEq, Repr, Inhabited

namespace Double

/-- Mantissas stay below this bound. -/
def mantissaBound : Nat := Nat.pow 2 53

/-- The exponent of the least positive double. -/
def leastExponent : Int := -1074

/-- The exponent of the greatest finite doubles. -/
def greatestExponent : Int := 971

/-- Zero with a sign. -/
def zero (negative : Bool) : Double :=
  .finite negative 0 leastExponent

/-- The value is zero, of either sign. -/
def isZero : Double → Bool
  | .finite _ mantissa _ => mantissa == 0
  | _ => false

/-- The value is an infinity. -/
def isInfinite : Double → Bool
  | .infinite _ => true
  | _ => false

/-- The number with its sign replaced. -/
def withSign (negative : Bool) : Double → Double
  | .finite _ mantissa exponent => .finite negative mantissa exponent
  | .infinite _ => .infinite negative
  | .nan => .nan

/-- The quotient rounded to the nearest natural number, a half to the even one. -/
def roundDiv (num den : Nat) : Nat :=
  let quotient := num / den
  let twice := 2 * (num % den)
  if twice < den then quotient
  else if den < twice then quotient + 1
  else quotient + quotient % 2

/-- The quotient `num / (den · 2 ^ exponent)`, rounded. -/
def scaledQuotient (num den : Nat) (exponent : Int) : Nat :=
  if 0 ≤ exponent then
    roundDiv num (den * Nat.pow 2 exponent.toNat)
  else
    roundDiv (num * Nat.pow 2 (-exponent).toNat) den

/-- The exponent at which the quotient has 53 binary digits, at least the least one. -/
def targetExponent (num den : Nat) : Int :=
  let guess : Int := (num.log2 : Int) - (den.log2 : Int) - 52
  let fits : Bool :=
    if 0 ≤ guess then den * Nat.pow 2 guess.toNat * Nat.pow 2 52 ≤ num
    else den * Nat.pow 2 52 ≤ num * Nat.pow 2 (-guess).toNat
  max leastExponent (if fits then guess else guess - 1)

/-- The double nearest to `num / den`, ties to the even mantissa. -/
def ofRatio (negative : Bool) (num den : Nat) : Double :=
  if num = 0 then
    zero negative
  else
    let exponent := targetExponent num den
    let mantissa := scaledQuotient num den exponent
    let (mantissa, exponent) :=
      if mantissa = mantissaBound then (Nat.pow 2 52, exponent + 1) else (mantissa, exponent)
    if greatestExponent < exponent then .infinite negative
    else .finite negative mantissa exponent

/-- A natural number, rounded. -/
def ofNat (n : Nat) : Double :=
  ofRatio false n 1

/-- An integer, rounded. -/
def ofInt (n : Int) : Double :=
  ofRatio (n < 0) n.natAbs 1

/-- The double nearest to `digits · 10 ^ exponent`. Values that are surely too large or too
small for a double are decided by their number of digits alone. -/
def ofDecimal (negative : Bool) (digits : Nat) (exponent : Int) : Double :=
  let places : Int := (Nat.toDigits 10 digits).length + exponent
  if digits = 0 then zero negative
  else if 310 < places then .infinite negative
  else if places < -330 then zero negative
  else if 0 ≤ exponent then ofRatio negative (digits * Nat.pow 10 exponent.toNat) 1
  else ofRatio negative digits (Nat.pow 10 (-exponent).toNat)

/-- The product of two finite magnitudes, rounded. -/
def mul : Double → Double → Double
  | .finite n₁ m₁ e₁, .finite n₂ m₂ e₂ =>
    let exponent := e₁ + e₂
    if 0 ≤ exponent then ofRatio (n₁ != n₂) (m₁ * m₂ * Nat.pow 2 exponent.toNat) 1
    else ofRatio (n₁ != n₂) (m₁ * m₂) (Nat.pow 2 (-exponent).toNat)
  | .nan, _ => .nan
  | _, .nan => .nan
  | .infinite n₁, .infinite n₂ => .infinite (n₁ != n₂)
  | .infinite n₁, .finite n₂ m₂ _ => if m₂ = 0 then .nan else .infinite (n₁ != n₂)
  | .finite n₁ m₁ _, .infinite n₂ => if m₁ = 0 then .nan else .infinite (n₁ != n₂)

/-- The quotient of a double by a finite nonzero one, rounded. -/
def div : Double → Double → Double
  | .finite n₁ m₁ e₁, .finite n₂ m₂ e₂ =>
    let exponent := e₁ - e₂
    if m₂ = 0 then (if m₁ = 0 then .nan else .infinite (n₁ != n₂))
    else if 0 ≤ exponent then ofRatio (n₁ != n₂) (m₁ * Nat.pow 2 exponent.toNat) m₂
    else ofRatio (n₁ != n₂) m₁ (m₂ * Nat.pow 2 (-exponent).toNat)
  | .nan, _ => .nan
  | _, .nan => .nan
  | .infinite n₁, .finite n₂ _ _ => .infinite (n₁ != n₂)
  | .infinite _, .infinite _ => .nan
  | .finite n₁ _ _, .infinite n₂ => zero (n₁ != n₂)

end Double
end SuiteShift
