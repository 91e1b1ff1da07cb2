import Rollup.Filter.Expression
import Rollup.Json.Shape
import Rollup.Json.Value

/-! Filter expressions as interchange values.  A variant is an object with one field, and reading
stops where containers are nested too deep. -/

namespace Rollup.Filter

open Json

namespace Comparison

def word : Comparison → String
  | equal => "Equal"
  | notEqual => "NotEqual"
  | greater => "GreaterThan"
  | less => "LessThan"
  | greaterOrEqual => "GreaterThanOrEqual"
  | lessOrEqual => "LessThanOrEqual"

def words : List (String × Comparison) := all.map fun comparison => (comparison.word, comparison)

theorem lookup_word (comparison : Comparison) :
    words.lookup comparison.word = some comparison := by
  cases comparison <;> decide

end Comparison

def variant (name : String) (content : Value) : Value := .object [(name, content)]

def Literal.toValue : Literal → Value
  | .number value => variant "Number" (.float value)
  | .text value => variant "Text" (.text value)

def Literal.ofNodeBy? (reader : Reader) (node : Node) : Option Literal := do
  let (name, content) ← node.variant? reader
  if name = "Number" then (content.float? reader).map .number
  else if name = "Text" then (content.text? reader).map .text
  else none

def Condition.toValue (condition : Condition) : Value :=
  .object
    [("column", .text condition.column), ("operator", .text condition.comparison.word),
      ("value", condition.literal.toValue)]

def Condition.ofNodeBy? (reader : Reader) (node : Node) : Option Condition := do
  let members ← node.members? reader ["column", "operator", "value"]
  let column ← members.required? 0 (Node.text? reader)
  let comparison ← members.required? 1 (Node.choice? reader Comparison.words)
  let literal ← members.required? 2 (Literal.ofNodeBy? reader)
  return ⟨column, comparison, literal⟩

namespace Expression

mutual

def toValue : Expression → Value
  | condition c => variant "Condition" c.toValue
  | all terms => variant "And" (.list (valuesOf terms))
  | any terms => variant "Or" (.list (valuesOf terms))

def valuesOf : List Expression → List Value
  | [] => []
  | term :: terms => toValue term :: valuesOf terms

end

/-- Reads an expression within a depth of containers.  A variant and its list take one each, a
condition one for the variant, one for its fields and one for the literal. -/
def within? (reader : Reader) : Nat → Node → Option Expression
  | depth + 2, node => do
    let (name, content) ← node.variant? reader
    if name = "Condition" then
      if depth = 0 then none else (Condition.ofNodeBy? reader content).map condition
    else if name = "And" then (content.list? (within? reader depth)).map all
    else if name = "Or" then (content.list? (within? reader depth)).map any
    else none
  | _, _ => none

def ofNodeBy? (reader : Reader) (node : Node) : Option Expression :=
  within? reader depthLimit node

def ofNode? : Node → Option Expression := ofNodeBy? .own

end Expression

end Rollup.Filter
