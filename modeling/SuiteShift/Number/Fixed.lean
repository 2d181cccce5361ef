import SuiteShift.Number.Double

/-!
# Decimals with a fixed number of places

`Double.fixed` writes a double with a given number of digits after the point. The exact value is
rounded once, a half to the even digit.
-/

namespace SuiteShift
namespace Double

/-- The magnitude in units of `10 ^ -places`, rounded. -/
def units (places mantissa : Nat) (exponent : Int) : Nat :=
  scaledQuotient (mantissa * Nat.pow 10 places) 1 (-exponent)

/-- A number of units `10 ^ -places` as a decimal. -/
def unitsText (places count : Nat) : String :=
  let whole := toString (count / Nat.pow 10 places)
  if places = 0 then whole
  else
    let digits := Nat.toDigits 10 (count % Nat.pow 10 places)
    whole ++ "." ++ String.ofList (List.replicate (places - digits.length) '0' ++ digits)

/-- The text with a fixed number of places. -/
def fixed (places : Nat) : Double → String
  | .finite negative mantissa exponent =>
    (if negative then "-" else "") ++ unitsText places (units places mantissa exponent)
  | .infinite negative => if negative then "-inf" else "inf"
  | .nan => "NaN"

end Double
end SuiteShift
