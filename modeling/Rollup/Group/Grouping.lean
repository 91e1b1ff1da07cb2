import Std.Data.HashMap
import Std.Data.TreeMap
import Rollup.Group.Key
import Rollup.Group.Totals

/-! Grouping rows in one pass.  The totals of the groups lie in an array in order of first
appearance, and an index tells the slot of each key.  The groups are listed by ascending key. -/

namespace Rollup.Group

open Table

structure Grouping where
  plan : Plan
  reductions : List ColumnReduction
  index : Std.HashMap Key Nat
  totals : Array Totals
  rows : Nat

namespace Grouping

def start (plan : Plan) : Grouping where
  plan := plan
  reductions := plan.reductions
  index := {}
  totals := #[]
  rows := 0

/-- The slot of a key, a new one at the end for a key not seen before. -/
def slotted (grouping : Grouping) (key : Key) : Grouping × Nat :=
  match grouping.index[key]? with
  | some slot => (grouping, slot)
  | none =>
    let slot := grouping.totals.size
    ({ grouping with
        index := grouping.index.insert key slot
        totals := grouping.totals.push {} }, slot)

/-- Takes one row into the totals of its group. -/
def accept (grouping : Grouping) (row : Row) : Grouping :=
  let (slotted, slot) := grouping.slotted (.ofRow grouping.plan.groupBy row)
  { slotted with
    totals := slotted.totals.modify slot (·.addRow slotted.reductions row)
    rows := slotted.rows + 1 }

def acceptAll (grouping : Grouping) (rows : List Row) : Grouping := rows.foldl accept grouping

def groupCount (grouping : Grouping) : Nat := grouping.totals.size

/-- The groups by ascending key. -/
def groups (grouping : Grouping) : List (Key × Totals) :=
  (grouping.index.toList.filterMap fun (key, slot) =>
    grouping.totals[slot]?.map (key, ·)).mergeSort fun a b => a.1.le b.1

def taken (totals : Array Totals) : List (Key × Nat) → List (Key × Totals)
  | [] => []
  | (key, slot) :: entries =>
    (key, totals[slot]?.getD {}) :: taken (totals.setIfInBounds slot {}) entries

/-- The end of a grouping: its totals are taken out and put under their keys. -/
def finalize (grouping : Grouping) : Std.TreeMap Key Totals Key.order :=
  .ofList (taken grouping.totals grouping.index.toList) Key.order

theorem rows_accept (grouping : Grouping) (row : Row) :
    (grouping.accept row).rows = grouping.rows + 1 := by
  unfold accept slotted
  dsimp only
  split <;> rfl

theorem rows_acceptAll (grouping : Grouping) (rows : List Row) :
    (grouping.acceptAll rows).rows = grouping.rows + rows.length := by
  induction rows generalizing grouping with
  | nil => rfl
  | cons row rows ih =>
    have more := ih (grouping.accept row)
    rw [rows_accept] at more
    simp only [acceptAll, List.foldl_cons, List.length_cons] at more ⊢
    omega

end Grouping

end Rollup.Group
