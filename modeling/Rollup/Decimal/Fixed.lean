import Rollup.Decimal.Digits
import Rollup.Decimal.Binary64

/-! Decimal text with a fixed number of places.  The exact value is rounded to the nearest
multiple of the last place, and a tie goes to the even neighbour. -/

namespace Rollup.Decimal

/-- The natural number nearest to a fraction, the even one of two. -/
def roundHalfEven (numerator denominator : Nat) : Nat :=
  let floor := numerator / denominator
  let rest := numerator % denominator
  if 2 * rest < denominator then floor
  else if denominator < 2 * rest then floor + 1
  else if floor % 2 = 0 then floor else floor + 1

def scaled (places significand : Nat) (exponent : Int) : Nat :=
  roundHalfEven (significand * Nat.pow 10 places * Nat.pow 2 exponent.toNat)
    (Nat.pow 2 (-exponent).toNat)

def withPoint (places units : Nat) : List Char :=
  let digits := digitsOf units
  let padded := List.replicate (places + 1 - digits.length) '0' ++ digits
  padded.take (padded.length - places) ++ '.' :: padded.drop (padded.length - places)

def fixed (places : Nat) (x : Float) : String :=
  let sign := if isNegative x then ['-'] else []
  match magnitude x with
  | .notANumber => "NaN"
  | .infinite => String.ofList (sign ++ "inf".toList)
  | .finite significand exponent =>
    String.ofList (sign ++ withPoint places (scaled places significand exponent))

def whole? (x : Float) : Option Nat :=
  match magnitude x with
  | .finite significand exponent =>
    let divisor := Nat.pow 2 (-exponent).toNat
    if significand % divisor = 0 then
      some (significand / divisor * Nat.pow 2 exponent.toNat)
    else none
  | _ => none

end Rollup.Decimal
