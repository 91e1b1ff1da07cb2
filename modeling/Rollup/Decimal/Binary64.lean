/-! The parts of a binary64 number: its sign, and what its magnitude is.  A finite magnitude is
`significand * 2 ^ exponent` exactly.  The total order ranks every number, the two zeros and the
NaNs included, by its bits. -/

namespace Rollup.Decimal

inductive Magnitude where
  | finite (significand : Nat) (exponent : Int)
  | infinite
  | notANumber
  deriving DecidableEq

def Magnitude.ofBits (bits : Nat) : Magnitude :=
  let field := bits / Nat.pow 2 52 % 2048
  let fraction := bits % Nat.pow 2 52
  if field = 2047 then if fraction = 0 then .infinite else .notANumber
  else if field = 0 then .finite fraction (-1074)
  else .finite (Nat.pow 2 52 + fraction) (Int.ofNat field - 1075)

def magnitude (x : Float) : Magnitude := .ofBits x.toBits.toNat

def isNegative (x : Float) : Bool := x.toBits.toNat / Nat.pow 2 63 = 1

/-- The place of a number in the total order: negative numbers by falling bits, then the others
by rising bits. -/
def rank (x : Float) : Nat :=
  let bits := x.toBits.toNat
  if Nat.pow 2 63 ≤ bits then Nat.pow 2 64 - 1 - bits else Nat.pow 2 63 + bits

end Rollup.Decimal
