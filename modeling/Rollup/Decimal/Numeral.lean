import Rollup.Decimal.Digits

/-! Decimal numerals and the binary64 numbers nearest to them.  A numeral is a sign, optional
digits on both sides of an optional point with at least one digit, and an optional exponent; the
words for infinity and for no number are read too, in any case. -/

namespace Rollup.Decimal

/-- The decimal `significand * 10 ^ exponent`. -/
structure Numeral where
  significand : Nat
  exponent : Int
  deriving DecidableEq

def infinity : Float := 1.0 / 0.0

def notANumber : Float := 0.0 / 0.0

/-- The nearest binary64 number, ties to even.  Beyond `10 ^ 310` everything rounds to infinity
and below `10 ^ (-330)` everything rounds to zero, so the power of ten stays small. -/
def Numeral.toFloat (n : Numeral) : Float :=
  if n.significand = 0 then 0.0
  else
    let size := Int.ofNat (digitCount n.significand) + n.exponent
    if size > 310 then infinity
    else if size < -330 then 0.0
    else Float.ofScientific n.significand (n.exponent < 0) n.exponent.natAbs

def Numeral.ofDigits (whole fraction : List Char) (exponent : Int) : Numeral where
  significand := valueOf (whole ++ fraction)
  exponent := exponent - Int.ofNat fraction.length

def takeSign : List Char → Bool × List Char
  | '-' :: rest => (true, rest)
  | '+' :: rest => (false, rest)
  | cs => (false, cs)

def exponentBound : Nat := Nat.pow 2 16

/-- The size of an exponent.  Once it has reached the bound its further digits count no more. -/
def exponentSize (digits : List Char) : Nat :=
  digits.foldl
    (fun size c => if size < exponentBound then size * 10 + digitValue c else size) 0

def exponent? : List Char → Option Int
  | [] => some 0
  | mark :: rest =>
    if mark = 'e' ∨ mark = 'E' then
      let (negative, digits) := takeSign rest
      if digits = [] ∨ ¬ digits.all isDigit then none
      else
        let size := Int.ofNat (exponentSize digits)
        some (if negative then -size else size)
    else none

def Numeral.ofText? (cs : List Char) : Option Numeral :=
  let (whole, rest) := takeDigits cs
  let (fraction, rest) :=
    match rest with
    | '.' :: rest => takeDigits rest
    | rest => ([], rest)
  if whole = [] ∧ fraction = [] then none
  else (exponent? rest).map (Numeral.ofDigits whole fraction)

/-- The number a text writes, if all of it is a numeral or one of the words. -/
def read? (cs : List Char) : Option Float :=
  let (negative, body) := takeSign cs
  let lower := body.map Char.toLower
  let size? :=
    if lower = "inf".toList ∨ lower = "infinity".toList then some infinity
    else if lower = "nan".toList then some notANumber
    else (Numeral.ofText? body).map Numeral.toFloat
  size?.map fun size => if negative then -size else size

end Rollup.Decimal
