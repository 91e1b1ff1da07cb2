import Rollup.Decimal.Digits
import Rollup.Decimal.Binary64

/-! The shortest decimal that rounds to a given binary64 number.  The numbers that round to
`significand * 2 ^ exponent` form an interval around it.  The search tries decimal grids from
coarse to fine: the first grid with a point in the interval gives the fewest digits, and of two
points on it the nearer one is taken, the even one at equal distance. -/

namespace Rollup.Decimal

/-- The decimal `digits * 10 ^ exponent`. -/
structure Shortest where
  digits : Nat
  exponent : Int
  deriving DecidableEq

/-- The interval of numbers that round to one value, over a common denominator. -/
structure Rounding where
  low : Nat
  value : Nat
  high : Nat
  denominator : Nat
  closed : Bool

/-- Below a power of two the neighbouring number is only half as far away. -/
def Rounding.of (significand : Nat) (exponent : Int) : Rounding :=
  let below := if significand = Nat.pow 2 52 ∧ exponent > -1074 then 1 else 2
  let factor := Nat.pow 2 (exponent - 2).toNat
  { low := (4 * significand - below) * factor
    value := 4 * significand * factor
    high := (4 * significand + 2) * factor
    denominator := Nat.pow 2 (2 - exponent).toNat
    closed := significand % 2 = 0 }

def Rounding.onGrid (r : Rounding) (power : Int) : Rounding where
  low := r.low * Nat.pow 10 (-power).toNat
  value := r.value * Nat.pow 10 (-power).toNat
  high := r.high * Nat.pow 10 (-power).toNat
  denominator := r.denominator * Nat.pow 10 power.toNat
  closed := r.closed

def Rounding.holds (r : Rounding) (n : Nat) : Bool :=
  let point := n * r.denominator
  if r.closed then r.low ≤ point && point ≤ r.high else r.low < point && point < r.high

def Rounding.nearest? (r : Rounding) : Option Nat :=
  let floor := r.value / r.denominator
  let rest := r.value % r.denominator
  match r.holds floor, r.holds (floor + 1) with
  | false, false => none
  | true, false => some floor
  | false, true => some (floor + 1)
  | true, true =>
    if 2 * rest < r.denominator then some floor
    else if r.denominator < 2 * rest then some (floor + 1)
    else some (if floor % 2 = 0 then floor else floor + 1)

theorem holds_of_nearest? {r : Rounding} {n : Nat} (found : r.nearest? = some n) :
    r.holds n = true := by
  unfold Rounding.nearest? at found
  dsimp only at found
  split at found
  case h_1 => cases found
  case h_2 yes no =>
    cases found
    exact yes
  case h_3 no yes =>
    cases found
    exact yes
  case h_4 first second =>
    split at found
    · cases found
      exact first
    · split at found
      · cases found
        exact second
      · cases found
        split
        · exact first
        · exact second

def Rounding.size (r : Rounding) : Int :=
  let guess := Int.ofNat (digitCount r.value) - Int.ofNat (digitCount r.denominator)
  if r.value * Nat.pow 10 (-guess).toNat < r.denominator * Nat.pow 10 guess.toNat then guess
  else guess + 1

def Shortest.normal (s : Shortest) : Nat → Shortest
  | 0 => s
  | fuel + 1 =>
    if s.digits ≠ 0 ∧ s.digits % 10 = 0 then
      Shortest.normal ⟨s.digits / 10, s.exponent + 1⟩ fuel
    else s

/-- Seventeen digits always suffice, so the last grid is only named for completeness. -/
def Shortest.of (significand : Nat) (exponent : Int) : Shortest :=
  let r := Rounding.of significand exponent
  let size := r.size
  let attempt (count : Nat) : Option Shortest :=
    let power := size - Int.ofNat count
    (r.onGrid power).nearest?.map fun n => ⟨n, power⟩
  let found := ((List.range 17).map (· + 1)).findSome? attempt
  (found.getD ⟨significand, exponent⟩).normal 18

end Rollup.Decimal
