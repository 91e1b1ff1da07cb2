import Rollup.Decimal.Numeral

/-! Unquoted values of settings files: truth values, integers in four bases, floating numbers,
and dates and times.  Digits may be grouped by single underscores, each between two digits.
Integers fit into 128 bits, with or without a sign, and a floating number is infinite only if it
says so.  What a floating number or a moment is worth is never asked, so only their form is
kept. -/

namespace Rollup.Toml

inductive Scalar where
  | boolean (value : Bool)
  | integer (value : Int)
  | floating
  | moment
  deriving DecidableEq, Repr

def isBaseDigit (base : Nat) (c : Char) : Bool := (Decimal.digitValue? base c).isSome

/-- Whether a run is digits of a base, with single underscores between digits. -/
def isGrouped (base : Nat) : List Char → Bool
  | [] => false
  | [c] => isBaseDigit base c
  | c :: '_' :: rest => isBaseDigit base c && isGrouped base rest
  | c :: rest => isBaseDigit base c && isGrouped base rest

def ungrouped (cs : List Char) : List Char := cs.filter (· ≠ '_')

def integer? (value : Int) : Option Scalar :=
  if -Int.pow 2 127 ≤ value ∧ value < Int.pow 2 128 then some (.integer value) else none

def based? (base : Nat) (digits : List Char) : Option Scalar :=
  if isGrouped base digits then integer? (Decimal.valueIn base (ungrouped digits)) else none

def takeSign : List Char → Bool × List Char
  | '-' :: rest => (true, rest)
  | '+' :: rest => (false, rest)
  | cs => (false, cs)

def isWhole (cs : List Char) : Bool :=
  isGrouped 10 cs && (cs = ['0'] || cs.head? ≠ some '0')

def isExponent : List Char → Bool
  | mark :: rest => (mark = 'e' || mark = 'E') && isGrouped 10 (takeSign rest).2
  | [] => false

def isDigitOrGroup (c : Char) : Bool := c = '_' || Decimal.isDigit c

def isFloating (cs : List Char) : Bool :=
  let whole := cs.takeWhile isDigitOrGroup
  let rest := cs.dropWhile isDigitOrGroup
  isWhole whole &&
    match rest with
    | '.' :: after =>
      let fraction := after.takeWhile isDigitOrGroup
      let last := after.dropWhile isDigitOrGroup
      isGrouped 10 fraction && (last = [] || isExponent last)
    | last => isExponent last

def isInRange (cs : List Char) : Bool :=
  (Decimal.read? (ungrouped cs)).any fun value => !value.isInf

def decimal? (cs : List Char) : Option Scalar :=
  let (negative, body) := takeSign cs
  if isWhole body then
    let size := Int.ofNat (Decimal.valueOf (ungrouped body))
    integer? (if negative then -size else size)
  else if body = "inf".toList ∨ body = "nan".toList then some .floating
  else if isFloating body ∧ isInRange body then some .floating
  else none

def digits? (count : Nat) (cs : List Char) : Option (Nat × List Char) :=
  let digits := cs.take count
  if digits.length = count ∧ digits.all Decimal.isDigit then
    some (Decimal.valueOf digits, cs.drop count)
  else none

def after? (c : Char) : List Char → Option (List Char)
  | first :: rest => if first = c then some rest else none
  | [] => none

def isLeapYear (year : Nat) : Bool := year % 4 = 0 && (year % 100 ≠ 0 || year % 400 = 0)

def daysIn (year month : Nat) : Nat :=
  if month = 2 then if isLeapYear year then 29 else 28
  else if month ∈ [4, 6, 9, 11] then 30
  else 31

def afterDate? (cs : List Char) : Option (List Char) := do
  let (year, rest) ← digits? 4 cs
  let rest ← after? '-' rest
  let (month, rest) ← digits? 2 rest
  let rest ← after? '-' rest
  let (day, rest) ← digits? 2 rest
  if 1 ≤ month ∧ month ≤ 12 ∧ 1 ≤ day ∧ day ≤ daysIn year month then some rest else none

def afterClock? (cs : List Char) : Option (List Char) := do
  let (hour, rest) ← digits? 2 cs
  let rest ← after? ':' rest
  let (minute, rest) ← digits? 2 rest
  if hour ≤ 23 ∧ minute ≤ 59 then some rest else none

def afterTime? (cs : List Char) : Option (List Char) := do
  let rest ← afterClock? cs
  match rest with
  | ':' :: rest =>
    let (second, rest) ← digits? 2 rest
    if 60 < second then none
    else
      match rest with
      | '.' :: rest =>
        if (rest.takeWhile Decimal.isDigit).isEmpty then none
        else some (rest.dropWhile Decimal.isDigit)
      | rest => some rest
  | rest => some rest

def isOffset : List Char → Bool
  | [] => true
  | ['z'] => true
  | ['Z'] => true
  | sign :: rest => (sign = '+' || sign = '-') && afterClock? rest = some []

def isMoment (cs : List Char) : Bool :=
  match afterDate? cs with
  | some [] => true
  | some (mark :: rest) =>
    (mark = 'T' || mark = 't' || mark = ' ') &&
      match afterTime? rest with
      | some offset => isOffset offset
      | none => false
  | none => afterTime? cs = some []

def Scalar.ofText? (cs : List Char) : Option Scalar :=
  if cs = "true".toList then some (.boolean true)
  else if cs = "false".toList then some (.boolean false)
  else
    match cs with
    | '0' :: 'x' :: digits => based? 16 digits
    | '0' :: 'o' :: digits => based? 8 digits
    | '0' :: 'b' :: digits => based? 2 digits
    | _ => if isMoment cs then some .moment else decimal? cs

def endsRun (c : Char) : Bool := c ∈ [' ', '\t', '\n', '\r', ',', ']', '\x7d', '#']

/-- Takes an unquoted run.  A date and a time may stand apart by one space. -/
def takeRun (cs : List Char) : List Char × List Char :=
  let run := cs.takeWhile (!endsRun ·)
  let rest := cs.dropWhile (!endsRun ·)
  match rest with
  | ' ' :: next :: more =>
    if afterDate? run = some [] ∧ Decimal.isDigit next then
      let time := (next :: more).takeWhile (!endsRun ·)
      (run ++ ' ' :: time, (next :: more).dropWhile (!endsRun ·))
    else (run, rest)
  | _ => (run, rest)

end Rollup.Toml
