import Rollup.Decimal.Digits
import Rollup.Text.Pieces

/-! The syntax of the interchange text.  Reading builds a tree in which texts and numbers are
kept as they are written and fields may repeat; what they mean is decided where a value of some
kind is expected.  Every call of the reader spends one unit of fuel, and twice the length of the
text is enough. -/

namespace Rollup.Json

/-- A number as it is written. -/
structure Written where
  negative : Bool
  whole : List Char
  fraction? : Option (List Char) := none
  exponent? : Option (Bool × List Char) := none
  deriving DecidableEq, Repr

inductive Node where
  | null
  | boolean (value : Bool)
  | number (written : Written)
  | text (raw : List Char)
  | list (items : List Node)
  | object (fields : List (List Char × Node))

def isSpace (c : Char) : Bool := c = ' ' || c = '\t' || c = '\n' || c = '\r'

def skipSpaces (cs : List Char) : List Char := cs.dropWhile isSpace

def isHex (c : Char) : Bool := (Decimal.digitValue? 16 c).isSome

def isEscape (c : Char) : Bool := c ∈ ['"', '\\', '/', 'b', 'f', 'n', 'r', 't']

/-- The inside of a quoted text up to its closing quote, escapes kept as they are written. -/
def rawText? : List Char → Option (List Char × List Char)
  | [] => none
  | '"' :: rest => some ([], rest)
  | '\\' :: 'u' :: a :: b :: c :: d :: rest =>
    if isHex a ∧ isHex b ∧ isHex c ∧ isHex d then
      (rawText? rest).map fun (raw, after) => ('\\' :: 'u' :: a :: b :: c :: d :: raw, after)
    else none
  | '\\' :: e :: rest =>
    if isEscape e then (rawText? rest).map fun (raw, after) => ('\\' :: e :: raw, after)
    else none
  | c :: rest =>
    if c = '\\' ∨ c.toNat < 32 then none
    else (rawText? rest).map fun (raw, after) => (c :: raw, after)

def fraction? : List Char → Option (Option (List Char) × List Char)
  | '.' :: rest =>
    let (digits, after) := Decimal.takeDigits rest
    if digits = [] then none else some (some digits, after)
  | cs => some (none, cs)

def exponentSign : List Char → Bool × List Char
  | '-' :: rest => (true, rest)
  | '+' :: rest => (false, rest)
  | cs => (false, cs)

def exponent? : List Char → Option (Option (Bool × List Char) × List Char)
  | [] => some (none, [])
  | mark :: rest =>
    if mark = 'e' ∨ mark = 'E' then
      let (negative, digits) := exponentSign rest
      let (digits, after) := Decimal.takeDigits digits
      if digits = [] then none else some (some (negative, digits), after)
    else some (none, mark :: rest)

def number? (cs : List Char) : Option (Written × List Char) := do
  let (negative, body) :=
    match cs with
    | '-' :: body => (true, body)
    | body => (false, body)
  let (whole, rest) := Decimal.takeDigits body
  if whole = [] ∨ (whole.head? = some '0' ∧ whole.length > 1) then none
  else
    let (fraction, rest) ← fraction? rest
    let (exponent, rest) ← exponent? rest
    return (⟨negative, whole, fraction, exponent⟩, rest)

mutual

def node? : Nat → List Char → Option (Node × List Char)
  | 0, _ => none
  | fuel + 1, cs =>
    match skipSpaces cs with
    | [] => none
    | '"' :: rest => (rawText? rest).map fun (raw, after) => (.text raw, after)
    | '[' :: rest =>
      match skipSpaces rest with
      | ']' :: after => some (.list [], after)
      | inside => (items? fuel inside).map fun (items, after) => (.list items, after)
    | '\x7b' :: rest =>
      match skipSpaces rest with
      | '\x7d' :: after => some (.object [], after)
      | inside => (fields? fuel inside).map fun (fields, after) => (.object fields, after)
    | 'n' :: rest => (Text.afterWord? "ull".toList rest).map fun after => (.null, after)
    | 't' :: rest => (Text.afterWord? "rue".toList rest).map fun after => (.boolean true, after)
    | 'f' :: rest => (Text.afterWord? "alse".toList rest).map fun after => (.boolean false, after)
    | start => (number? start).map fun (written, after) => (.number written, after)

def items? : Nat → List Char → Option (List Node × List Char)
  | 0, _ => none
  | fuel + 1, cs => do
    let (item, rest) ← node? fuel cs
    match skipSpaces rest with
    | ']' :: after => return ([item], after)
    | ',' :: more =>
      let (items, after) ← items? fuel more
      return (item :: items, after)
    | _ => none

def fields? : Nat → List Char → Option (List (List Char × Node) × List Char)
  | 0, _ => none
  | fuel + 1, cs =>
    match skipSpaces cs with
    | '"' :: rest => do
      let (name, rest) ← rawText? rest
      match skipSpaces rest with
      | ':' :: rest =>
        let (value, rest) ← node? fuel rest
        match skipSpaces rest with
        | '\x7d' :: after => return ([(name, value)], after)
        | ',' :: more =>
          let (fields, after) ← fields? fuel more
          return ((name, value) :: fields, after)
        | _ => none
      | _ => none
    | _ => none

end

def Node.ofText? (text : String) : Option Node :=
  let cs := text.toList
  match node? (2 * cs.length + 2) cs with
  | some (node, rest) => if skipSpaces rest = [] then some node else none
  | none => none

def escapeValue (e : Char) : Char :=
  if e = 'b' then Char.ofNat 8
  else if e = 'f' then Char.ofNat 12
  else if e = 'n' then '\n'
  else if e = 'r' then '\r'
  else if e = 't' then '\t'
  else e

def isHighSurrogate (n : Nat) : Bool := 0xD800 ≤ n && n ≤ 0xDBFF

def isLowSurrogate (n : Nat) : Bool := 0xDC00 ≤ n && n ≤ 0xDFFF

/-- The text that a raw text stands for; a surrogate alone stands for nothing. -/
def decode? : List Char → Option (List Char)
  | [] => some []
  | '\\' :: 'u' :: a :: b :: c :: d :: '\\' :: 'u' :: e :: f :: g :: h :: rest =>
    let first := Decimal.valueIn 16 [a, b, c, d]
    let second := Decimal.valueIn 16 [e, f, g, h]
    if isHighSurrogate first then
      if isLowSurrogate second then
        let code := 0x10000 + (first - 0xD800) * 0x400 + (second - 0xDC00)
        (decode? rest).map (Char.ofNat code :: ·)
      else none
    else if isLowSurrogate first then none
    else (decode? ('\\' :: 'u' :: e :: f :: g :: h :: rest)).map (Char.ofNat first :: ·)
  | '\\' :: 'u' :: a :: b :: c :: d :: rest =>
    let code := Decimal.valueIn 16 [a, b, c, d]
    if isHighSurrogate code ∨ isLowSurrogate code then none
    else (decode? rest).map (Char.ofNat code :: ·)
  | '\\' :: e :: rest => (decode? rest).map (escapeValue e :: ·)
  | c :: rest => (decode? rest).map (c :: ·)

end Rollup.Json
