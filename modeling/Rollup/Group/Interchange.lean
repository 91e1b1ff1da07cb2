import Rollup.Group.Key
import Rollup.Group.Totals
import Rollup.Json.Shape
import Rollup.Json.Value

/-! Operations, plans, keys and column totals as interchange values. -/

namespace Rollup.Group

open Json

namespace Operation

def toValue (operation : Operation) : Value :=
  .object
    [("function", .text operation.aggregate.name),
      ("column", Value.ofOption .text operation.column?)]

def aggregates : List (String × Aggregate) := Aggregate.all.map fun a => (a.name, a)

def ofNodeBy? (reader : Reader) (node : Node) : Option Operation := do
  let members ← node.members? reader ["function", "column"]
  let aggregate ← members.required? 0 (Node.choice? reader aggregates)
  let column ← members.optional? 1 (Node.text? reader)
  return ⟨aggregate, column⟩

def ofNode? : Node → Option Operation := ofNodeBy? .own

end Operation

namespace Plan

def toValue (plan : Plan) : Value :=
  .object
    [("group_by", .list (plan.groupBy.map .text)),
      ("aggregations", .list (plan.operations.map Operation.toValue))]

def ofNodeBy? (reader : Reader) (node : Node) : Option Plan := do
  let members ← node.members? reader ["group_by", "aggregations"]
  let groupBy ← members.required? 0 (Node.list? (Node.text? reader))
  let operations ← members.required? 1 (Node.list? (Operation.ofNodeBy? reader))
  return ⟨groupBy, operations⟩

def ofNode? : Node → Option Plan := ofNodeBy? .own

end Plan

def Key.toValue (key : Key) : Value := .list (key.values.map .text)

def ColumnTotals.toValue (totals : ColumnTotals) : Value :=
  .object
    [("sum", .float totals.sum), ("min", Value.ofOption .float totals.minimum),
      ("max", Value.ofOption .float totals.maximum)]

end Rollup.Group
