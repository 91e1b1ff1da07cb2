import Rollup.Group.Operation
import Rollup.Table.Header

/-! What a run computes: the columns to group by and the operations per group.  Operations come
as a comma-separated list whose columns must exist; a list without any operation means counting.
The numbers of a column are folded once per reduction, however many operations read them. -/

namespace Rollup.Group

open Table

inductive PlanError where
  | unknownColumn (column available : String)
  | unknownGroupColumn (column available : String)
  | unrecognised (token : String)
  | unknownMetric (metric : String)
  | unknownMetricColumn (metric column available : String)
  deriving DecidableEq, Repr

def PlanError.message : PlanError → String
  | .unknownColumn column available =>
    "Unknown column in aggregation: '" ++ column ++ "'. Available: " ++ available
  | .unknownGroupColumn column available =>
    "Group-by column not in input: '" ++ column ++ "'. Available: " ++ available
  | .unrecognised token =>
    "Unrecognised aggregation '" ++ token ++
      "'; expected count, sum(col), avg(col), min(col) or max(col)"
  | .unknownMetric metric =>
    "Unknown top-N metric '" ++ metric ++
      "'; expected count, sum_<col>, avg_<col>, min_<col> or max_<col>"
  | .unknownMetricColumn metric column available =>
    "Top-N metric '" ++ metric ++ "' refers to unknown column '" ++ column ++
      "'. Available: " ++ available

/-- One way of folding one column. -/
structure ColumnReduction where
  column : String
  reduction : Reduction
  deriving DecidableEq, Repr

def including {α : Type} [DecidableEq α] (items : List α) (item : α) : List α :=
  if item ∈ items then items else items ++ [item]

def distinct {α : Type} [DecidableEq α] (items : List α) : List α := items.foldl including []

theorem mem_including {α : Type} [DecidableEq α] (items : List α) (item other : α) :
    other ∈ including items item ↔ other ∈ items ∨ other = item := by
  unfold including
  split
  case isTrue there =>
    constructor
    · exact Or.inl
    · rintro (old | same)
      · exact old
      · exact same ▸ there
  case isFalse => simp

theorem nodup_including {α : Type} [DecidableEq α] (items : List α) (item : α)
    (single : items.Nodup) : (including items item).Nodup := by
  unfold including
  split
  · exact single
  case isFalse absent =>
    rw [List.nodup_append]
    refine ⟨single, by simp, ?_⟩
    intro old member new same
    simp only [List.mem_singleton] at same
    rintro rfl
    exact absent (same ▸ member)

theorem nodup_distinct {α : Type} [DecidableEq α] (items : List α) : (distinct items).Nodup := by
  have grown : ∀ (rest start : List α), start.Nodup → (rest.foldl including start).Nodup := by
    intro rest
    induction rest with
    | nil => intro start single; exact single
    | cons item rest ih => intro start single; exact ih _ (nodup_including start item single)
  exact grown items [] List.nodup_nil

structure Plan where
  groupBy : List String
  operations : List Operation
  deriving DecidableEq, Repr

namespace Plan

def contains (plan : Plan) (operation : Operation) : Bool := operation ∈ plan.operations

def push (plan : Plan) (operation : Operation) : Plan :=
  { plan with operations := including plan.operations operation }

def missing? (header : Header) (columns : List String) : Option String :=
  columns.find? fun column => !header.contains column

/-- Checks the columns to group by, then those of the operations. -/
def validate (plan : Plan) (header : Header) : Except PlanError Unit :=
  match missing? header plan.groupBy with
  | some column => .error (.unknownGroupColumn column header.describe)
  | none =>
    match missing? header (plan.operations.filterMap (·.column?)) with
    | some column => .error (.unknownColumn column header.describe)
    | none => .ok ()

def reductions (plan : Plan) : List ColumnReduction :=
  distinct <| plan.operations.filterMap fun operation => do
    let reduction ← operation.aggregate.reduction?
    let column ← operation.column?
    return ⟨column, reduction⟩

theorem nodup_reductions (plan : Plan) : plan.reductions.Nodup := nodup_distinct _

end Plan

def operationsFrom (header : Header) (chosen : List Operation) :
    List String → Except PlanError (List Operation)
  | [] => .ok chosen
  | token :: tokens =>
    match Operation.parse? token with
    | none => .error (.unrecognised token)
    | some operation =>
      match Plan.missing? header operation.column?.toList with
      | some column => .error (.unknownColumn column header.describe)
      | none => operationsFrom header (including chosen operation) tokens

/-- Reads a comma-separated list of operations; an empty one means counting. -/
def parseOperations (header : Header) (list : String) : Except PlanError (List Operation) :=
  (operationsFrom header [] (Text.listItems list)).map fun operations =>
    if operations = [] then [Operation.count] else operations

end Rollup.Group
