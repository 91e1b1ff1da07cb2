/-! Natural numbers and their decimal digits. -/

namespace Rollup.Decimal

def digitsOf (n : Nat) : List Char := Nat.toDigits 10 n

def natural (n : Nat) : String := String.ofList (digitsOf n)

def digitCount (n : Nat) : Nat := (digitsOf n).length

def digitValue (c : Char) : Nat := c.toNat - '0'.toNat

def valueOf (digits : List Char) : Nat :=
  digits.foldl (fun value c => value * 10 + digitValue c) 0

def isDigit (c : Char) : Bool := '0' ≤ c && c ≤ '9'

def takeDigits (cs : List Char) : List Char × List Char :=
  (cs.takeWhile isDigit, cs.dropWhile isDigit)

/-- The numbers below it fit into 64 bits. -/
def wordBound : Nat := Nat.pow 2 64

def digitValue? (base : Nat) (c : Char) : Option Nat :=
  let value? :=
    if '0' ≤ c ∧ c ≤ '9' then some (c.toNat - '0'.toNat)
    else if 'a' ≤ c ∧ c ≤ 'f' then some (c.toNat - 'a'.toNat + 10)
    else if 'A' ≤ c ∧ c ≤ 'F' then some (c.toNat - 'A'.toNat + 10)
    else none
  value?.filter (· < base)

def valueIn (base : Nat) (digits : List Char) : Nat :=
  digits.foldl (fun value c => value * base + (digitValue? base c).getD 0) 0

end Rollup.Decimal
