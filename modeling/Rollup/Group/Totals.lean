import Rollup.Decimal.Numeral
import Rollup.Group.Plan
import Rollup.Named

/-! The running totals of one group: how many rows it has and, for each column that is folded,
sum, minimum and maximum of its numbers.  A cell counts as a number when its trimmed text reads
as a finite one; any other cell leaves the column as it is. -/

namespace Rollup.Group

open Table

/-- The totals of one column. -/
structure ColumnTotals where
  sum : Float := 0.0
  minimum : Option Float := none
  maximum : Option Float := none

def lesser (a b : Float) : Float := if b < a then b else a

def greater (a b : Float) : Float := if a < b then b else a

def ColumnTotals.add (totals : ColumnTotals) (reduction : Reduction) (value : Float) :
    ColumnTotals :=
  match reduction with
  | .sum => { totals with sum := totals.sum + value }
  | .minimum => { totals with minimum := some (totals.minimum.elim value (lesser · value)) }
  | .maximum => { totals with maximum := some (totals.maximum.elim value (greater · value)) }

/-- The finite number in a cell, if it holds one. -/
def measured? (cell : String) : Option Float :=
  match Text.trim cell.toList with
  | [] => none
  | text => (Decimal.read? text).filter Float.isFinite

structure Totals where
  count : Nat := 0
  columns : List (String × ColumnTotals) := []

namespace Totals

def column? (totals : Totals) (column : String) : Option ColumnTotals :=
  totals.columns.lookup column

def addCell (totals : Totals) (row : Row) (item : ColumnReduction) : Totals :=
  match measured? (row.cell item.column) with
  | none => totals
  | some value =>
    let change (before? : Option ColumnTotals) : ColumnTotals :=
      (before?.getD {}).add item.reduction value
    { totals with columns := Named.revise item.column change totals.columns }

def addRow (reductions : List ColumnReduction) (totals : Totals) (row : Row) : Totals :=
  reductions.foldl (·.addCell row ·) { totals with count := totals.count + 1 }

def sum (totals : Totals) (column : String) : Float :=
  (totals.column? column).elim 0.0 (·.sum)

def average (totals : Totals) (column : String) : Float :=
  if totals.count = 0 then 0.0 else totals.sum column / Float.ofNat totals.count

def minimum? (totals : Totals) (column : String) : Option Float :=
  (totals.column? column).bind (·.minimum)

def maximum? (totals : Totals) (column : String) : Option Float :=
  (totals.column? column).bind (·.maximum)

def measure? (totals : Totals) (measure : Measure) (column : String) : Option Float :=
  match measure with
  | .sum => some (totals.sum column)
  | .average => some (totals.average column)
  | .minimum => totals.minimum? column
  | .maximum => totals.maximum? column

/-- What an operation tells; there is nothing to tell only of a minimum or maximum without
numbers. -/
def value? (totals : Totals) (operation : Operation) : Option Float :=
  match operation.aggregate with
  | .count => some (Float.ofNat totals.count)
  | .measure m => totals.measure? m (operation.column?.getD "")

theorem count_addCell (totals : Totals) (row : Row) (item : ColumnReduction) :
    (totals.addCell row item).count = totals.count := by
  unfold addCell
  split <;> rfl

theorem count_addRow (reductions : List ColumnReduction) (totals : Totals) (row : Row) :
    (totals.addRow reductions row).count = totals.count + 1 := by
  have kept : ∀ (items : List ColumnReduction) (start : Totals),
      (items.foldl (·.addCell row ·) start).count = start.count := by
    intro items
    induction items with
    | nil => intro start; rfl
    | cons item items ih =>
      intro start
      rw [List.foldl_cons, ih, count_addCell]
  exact kept reductions _

end Totals

end Rollup.Group
