import Rollup.Text.Pieces

/-! What can be computed per group: the number of rows, or a measure of a column.  An operation
has two written forms, the call `sum(amount)` and the name `sum_amount`.  A call is read in any
case of its ASCII letters, with blanks around the name and the column. -/

namespace Rollup.Group

/-- How the numbers of a column fold into one. -/
inductive Reduction where
  | sum
  | minimum
  | maximum
  deriving DecidableEq, Repr

inductive Measure where
  | sum
  | average
  | minimum
  | maximum
  deriving DecidableEq, Repr

namespace Measure

def name : Measure → String
  | sum => "sum"
  | average => "avg"
  | minimum => "min"
  | maximum => "max"

def reduction : Measure → Reduction
  | sum | average => .sum
  | minimum => .minimum
  | maximum => .maximum

def all : List Measure := [sum, average, minimum, maximum]

end Measure

inductive Aggregate where
  | count
  | measure (measure : Measure)
  deriving DecidableEq, Repr

namespace Aggregate

def name : Aggregate → String
  | count => "count"
  | measure m => m.name

def reduction? : Aggregate → Option Reduction
  | count => none
  | measure m => some m.reduction

def all : List Aggregate := count :: Measure.all.map measure

def ofName? (name : String) : Option Aggregate :=
  all.find? fun aggregate => Text.sameIgnoringCase aggregate.name name

theorem ofName?_name (aggregate : Aggregate) : ofName? aggregate.name = some aggregate := by
  cases aggregate with
  | count => decide
  | measure m => cases m <;> decide

end Aggregate

/-- One requested aggregation. -/
structure Operation where
  aggregate : Aggregate
  column? : Option String
  deriving DecidableEq, Repr

namespace Operation

def count : Operation := ⟨.count, none⟩

def measure (m : Measure) (column : String) : Operation := ⟨.measure m, some column⟩

def on (aggregate : Aggregate) (column : String) : Operation :=
  match aggregate with
  | .count => count
  | .measure m => measure m column

def label (operation : Operation) : String :=
  match operation.column? with
  | some column => operation.aggregate.name ++ "(" ++ column ++ ")"
  | none => operation.aggregate.name

def fieldName (operation : Operation) : String :=
  match operation.column? with
  | some column => operation.aggregate.name ++ "_" ++ column
  | none => operation.aggregate.name

/-- The characters of a column in a call: ASCII letters and digits, the underscore, and the two
characters that fold to an ASCII letter, the long s and the Kelvin sign. -/
def isColumnChar (c : Char) : Bool :=
  c.isAlphanum || c = '_' || c.toNat = 0x17F || c.toNat = 0x212A

/-- The column of a call after the name: blanks, an opening bracket, the column among blanks and
a closing bracket, and no more. -/
def argument? (cs : List Char) : Option (List Char) :=
  match Text.trimStart cs with
  | '(' :: inner =>
    let column := (Text.trimStart inner).takeWhile isColumnChar
    let rest := (Text.trimStart inner).dropWhile isColumnChar
    if column ≠ [] ∧ Text.trimStart rest = [')'] then some column else none
  | _ => none

def call? (cs : List Char) : Option (Measure × String) := do
  let column ← argument? (cs.drop 3)
  let measure ← Measure.all.find? fun measure =>
    Text.sameIgnoringCase measure.name (String.ofList (cs.take 3))
  return (measure, String.ofList column)

def parse? (text : String) : Option Operation :=
  let token := Text.trim text.toList
  if Text.sameIgnoringCase "count" (String.ofList token) then some count
  else (call? token).map fun (m, column) => measure m column

end Operation

end Rollup.Group
