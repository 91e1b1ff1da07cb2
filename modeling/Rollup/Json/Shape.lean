import Rollup.Decimal.Numeral
import Rollup.Json.Node

/-! Reading values of a known kind out of a syntax tree.  A structure is an object with its
fields in any order, fields of other names being passed over, or a list of its fields in their
order.  A variant is an object whose one field is named for it.  What a text or a number of the tree
means is told by a reader.  This library's own reader takes a number to binary64 by multiplying or
dividing the digits that fit into 64 bits by a power of ten. -/

namespace Rollup.Json

/-- Containers may be nested this deep where a value of a known kind is expected. -/
def depthLimit : Nat := 127

def Written.natural? (written : Written) : Option Nat :=
  let value := Decimal.valueOf written.whole
  if written.negative ∨ written.fraction?.isSome ∨ written.exponent?.isSome then none
  else if value < Decimal.wordBound then some value
  else none

def takeIn (value : Nat) : List Char → Nat × List Char
  | [] => (value, [])
  | c :: rest =>
    let next := value * 10 + Decimal.digitValue c
    if next < Decimal.wordBound then takeIn next rest else (value, c :: rest)

def powerOfTen (n : Nat) : Float := Float.ofScientific 1 false n

/-- Multiplies by a power of ten, or divides by one, in steps of at most `10 ^ 308`; a number
that becomes infinite is refused. -/
def scaled? (value : Float) (exponent : Int) : Option Float :=
  if exponent.natAbs ≤ 308 then
    if 0 ≤ exponent then
      let product := value * powerOfTen exponent.natAbs
      if product.isInf then none else some product
    else some (value / powerOfTen exponent.natAbs)
  else if value == 0.0 then some value
  else if 0 ≤ exponent then none
  else scaled? (value / powerOfTen 308) (exponent + 308)
termination_by exponent.natAbs
decreasing_by omega

def exponentBound : Nat := Nat.pow 2 31

def Written.float? (written : Written) : Option Float :=
  let (whole, beyond) := takeIn 0 written.whole
  let fraction := written.fraction?.getD []
  let (significand, dropped) := takeIn whole fraction
  let exponent := Int.ofNat beyond.length - Int.ofNat (fraction.length - dropped.length)
  let size? :=
    match written.exponent? with
    | none => scaled? (Float.ofNat significand) exponent
    | some (negative, digits) =>
      let power := Decimal.valueOf digits
      if power < exponentBound then
        scaled? (Float.ofNat significand)
          (if negative then exponent - Int.ofNat power else exponent + Int.ofNat power)
      else if significand ≠ 0 ∧ ¬ negative then none
      else some 0.0
  size?.map fun size => if written.negative then -size else size

/-- What reads interchange texts: the tree of a text, and what the raw texts and the written
numbers in a tree stand for. -/
structure Reader where
  tree? : String → Option Node
  text? : List Char → Option String
  natural? : Written → Option Nat
  float? : Written → Option Float

def Reader.own : Reader where
  tree? := Node.ofText?
  text? raw := (decode? raw).map String.ofList
  natural? := Written.natural?
  float? := Written.float?

def Reader.field? (reader : Reader) (field : List Char × Node) : Option (String × Node) :=
  (reader.text? field.1).map (·, field.2)

namespace Node

section

variable (reader : Reader)

def text? : Node → Option String
  | .text raw => reader.text? raw
  | _ => none

def character? (node : Node) : Option Char :=
  match (node.text? reader).map String.toList with
  | some [c] => some c
  | _ => none

def natural? : Node → Option Nat
  | .number written => reader.natural? written
  | _ => none

def float? : Node → Option Float
  | .number written => reader.float? written
  | _ => none

end

def boolean? : Node → Option Bool
  | .boolean value => some value
  | _ => none

def optional? {α : Type} (read? : Node → Option α) : Node → Option (Option α)
  | .null => some none
  | node => (read? node).map some

def list? {α : Type} (read? : Node → Option α) : Node → Option (List α)
  | .list items => items.mapM read?
  | _ => none

/-- The fields of a structure by their places.  In the form of a list each is there up to some
place; in the form of an object any may be absent, and none may stand twice. -/
inductive Members where
  | positional (items : List Node)
  | named (items : List (Option Node))

def members? (reader : Reader) (names : List String) : Node → Option Members
  | .list items => if items.length ≤ names.length then some (.positional items) else none
  | .object fields => do
    let known ← fields.mapM reader.field?
    let listed := names.map fun name => known.filter (·.1 = name)
    if listed.any (1 < ·.length) then none
    else return .named (listed.map fun found => found.head?.map (·.2))
  | _ => none

def Members.get? : Members → Nat → Option Node
  | .positional items, place => items[place]?
  | .named items, place => (items[place]?).join

def Members.required? {α : Type} (members : Members) (place : Nat) (read? : Node → Option α) :
    Option α :=
  (members.get? place).bind read?

def Members.defaulted? {α : Type} (members : Members) (place : Nat) (default : α)
    (read? : Node → Option α) : Option α :=
  match members.get? place with
  | some node => read? node
  | none => some default

def Members.optional? {α : Type} (members : Members) (place : Nat) (read? : Node → Option α) :
    Option (Option α) :=
  match members, members.get? place with
  | _, some node => node.optional? read?
  | .named _, none => some none
  | .positional _, none => none

def variant? (reader : Reader) : Node → Option (String × Node)
  | .object [field] => reader.field? field
  | _ => none

def choice? {α : Type} (reader : Reader) (choices : List (String × α)) (node : Node) :
    Option α := do
  let name ←
    match node with
    | .text _ => node.text? reader
    | _ =>
      match node.variant? reader with
      | some (name, .null) => some name
      | _ => none
  choices.lookup name

end Node

end Rollup.Json
