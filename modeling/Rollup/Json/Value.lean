import Rollup.Decimal.Shortest

/-! Values of the interchange text and how they are written, on one line or indented by two
spaces.  Fields keep their order.  A number is written with the fewest digits that read back:
positionally while its first digit stands between the sixteenth place before the point and the
fifth after it, and with an exponent beyond; a number that is not finite is null. -/

namespace Rollup.Json

inductive Value where
  | null
  | boolean (value : Bool)
  | natural (value : Nat)
  | float (value : Float)
  | text (value : String)
  | list (items : List Value)
  | object (fields : List (String × Value))

def hexDigit (n : Nat) : Char := if n < 10 then Char.ofNat (48 + n) else Char.ofNat (87 + n)

/-- A character inside quotes: quote, backslash and control characters are escaped. -/
def escape (c : Char) : List Char :=
  if c = '"' then ['\\', '"']
  else if c = '\\' then ['\\', '\\']
  else if c = '\n' then ['\\', 'n']
  else if c = '\t' then ['\\', 't']
  else if c = '\r' then ['\\', 'r']
  else if c.toNat = 8 then ['\\', 'b']
  else if c.toNat = 12 then ['\\', 'f']
  else if c.toNat < 32 then
    ['\\', 'u', '0', '0', hexDigit (c.toNat / 16), hexDigit (c.toNat % 16)]
  else [c]

def quoted (text : String) : List Char := '"' :: (text.toList.flatMap escape ++ ['"'])

def zeros (count : Nat) : List Char := List.replicate count '0'

def decimalText (s : Decimal.Shortest) : List Char :=
  let digits := Decimal.digitsOf s.digits
  let point := Int.ofNat digits.length + s.exponent
  if 0 ≤ s.exponent ∧ point ≤ 16 then digits ++ zeros s.exponent.toNat ++ ['.', '0']
  else if 0 < point ∧ point ≤ 16 then
    digits.take point.toNat ++ '.' :: digits.drop point.toNat
  else if -5 < point ∧ point ≤ 0 then '0' :: '.' :: (zeros (-point).toNat ++ digits)
  else
    let power := point - 1
    let fraction := if digits.length = 1 then [] else '.' :: digits.drop 1
    let sign := if power < 0 then '-' else '+'
    digits.take 1 ++ fraction ++ 'e' :: sign :: Decimal.digitsOf power.natAbs

def floatText (x : Float) : List Char :=
  match Decimal.magnitude x with
  | .finite significand exponent =>
    let sign := if Decimal.isNegative x then ['-'] else []
    if significand = 0 then sign ++ ['0', '.', '0']
    else sign ++ decimalText (Decimal.Shortest.of significand exponent)
  | .infinite | .notANumber => "null".toList

def separated (separator : List Char) : List (List Char) → List Char
  | [] => []
  | [text] => text
  | text :: texts => text ++ separator ++ separated separator texts

namespace Value

mutual

/-- The text of a value on one line, without blanks. -/
def compact : Value → List Char
  | null => "null".toList
  | boolean value => (if value then "true" else "false").toList
  | natural value => Decimal.digitsOf value
  | float value => floatText value
  | text value => quoted value
  | list items => '[' :: (separated [','] (compactItems items) ++ [']'])
  | object fields => '\x7b' :: (separated [','] (compactFields fields) ++ ['\x7d'])

def compactItems : List Value → List (List Char)
  | [] => []
  | item :: items => compact item :: compactItems items

def compactFields : List (String × Value) → List (List Char)
  | [] => []
  | (name, value) :: fields => (quoted name ++ ':' :: compact value) :: compactFields fields

end

def newLine (depth : Nat) : List Char := '\n' :: List.replicate (2 * depth) ' '

def bracketed (opening closing : Char) (depth : Nat) (texts : List (List Char)) : List Char :=
  if texts = [] then [opening, closing]
  else
    opening :: (newLine (depth + 1) ++ separated (',' :: newLine (depth + 1)) texts ++
      newLine depth ++ [closing])

mutual

def pretty (depth : Nat) : Value → List Char
  | null => "null".toList
  | boolean value => (if value then "true" else "false").toList
  | natural value => Decimal.digitsOf value
  | float value => floatText value
  | text value => quoted value
  | list items => bracketed '[' ']' depth (prettyItems depth items)
  | object fields => bracketed '\x7b' '\x7d' depth (prettyFields depth fields)

def prettyItems (depth : Nat) : List Value → List (List Char)
  | [] => []
  | item :: items => pretty (depth + 1) item :: prettyItems depth items

def prettyFields (depth : Nat) : List (String × Value) → List (List Char)
  | [] => []
  | (name, value) :: fields =>
    (quoted name ++ ':' :: ' ' :: pretty (depth + 1) value) :: prettyFields depth fields

end

def toCompactText (value : Value) : String := String.ofList value.compact

def toPrettyText (value : Value) : String := String.ofList (value.pretty 0)

def ofOption {α : Type} (form : α → Value) : Option α → Value
  | some value => form value
  | none => null

end Value

end Rollup.Json
