import Rollup.Group.Totals

/-! What the totals of some rows tell, in terms of the rows.  Every reduction of a column keeps
to its own part of that column's totals, so however many of them share the column, each one has
folded the numbers of the column in the order of the rows, and each number once.  Main statement:
a value read from the totals is the one computed from the rows alone. -/

namespace Rollup.Group

open Table

/-- The numbers of a column, in the order of the rows. -/
def numbersOf (column : String) (rows : List Row) : List Float :=
  rows.filterMap fun row => measured? (row.cell column)

theorem measured?_eq_some_iff (cell : String) (value : Float) :
    measured? cell = some value ↔ Text.trim cell.toList ≠ [] ∧
      Decimal.read? (Text.trim cell.toList) = some value ∧ value.isFinite = true := by
  unfold measured?
  split
  case h_1 blank => simp [blank]
  case h_2 filled =>
    have present : Text.trim cell.toList ≠ [] := filled
    simp [present, Option.filter_eq_some_iff]

def sumOf (numbers : List Float) : Float := numbers.foldl (· + ·) 0.0

def fromFirst? (step : Float → Float → Float) : List Float → Option Float
  | [] => none
  | first :: rest => some (rest.foldl step first)

/-- What an operation tells of some rows, computed from the rows alone. -/
def Operation.over (operation : Operation) (rows : List Row) : Option Float :=
  let numbers := numbersOf (operation.column?.getD "") rows
  match operation.aggregate with
  | .count => some (Float.ofNat rows.length)
  | .measure .sum => some (sumOf numbers)
  | .measure .average => some (sumOf numbers / Float.ofNat rows.length)
  | .measure .minimum => fromFirst? lesser numbers
  | .measure .maximum => fromFirst? greater numbers

namespace ColumnTotals

/-- The part of a column's totals that belongs to one reduction. -/
def only (reduction : Reduction) (totals : ColumnTotals) : ColumnTotals :=
  match reduction with
  | .sum => { sum := totals.sum }
  | .minimum => { minimum := totals.minimum }
  | .maximum => { maximum := totals.maximum }

theorem only_add_self (reduction : Reduction) (totals : ColumnTotals) (value : Float) :
    (totals.add reduction value).only reduction =
      (totals.only reduction).add reduction value := by
  cases reduction <;> rfl

theorem only_add_of_ne {reduction other : Reduction} (differ : other ≠ reduction)
    (totals : ColumnTotals) (value : Float) :
    (totals.add other value).only reduction = totals.only reduction := by
  cases reduction <;> cases other <;> first | rfl | exact absurd rfl differ

def addAll (reduction : Reduction) (totals : ColumnTotals) (values : List Float) :
    ColumnTotals :=
  values.foldl (·.add reduction ·) totals

theorem sum_addAll (totals : ColumnTotals) (values : List Float) :
    (totals.addAll .sum values).sum = values.foldl (· + ·) totals.sum := by
  induction values generalizing totals with
  | nil => rfl
  | cons value values ih => exact ih _

section Extreme

variable {reduction : Reduction} (part : ColumnTotals → Option Float)
  {step : Float → Float → Float}
  (law : ∀ totals value,
    part (totals.add reduction value) = some ((part totals).elim value (step · value)))

include law

theorem part_addAll_of_some {totals : ColumnTotals} {held : Float}
    (known : part totals = some held) (values : List Float) :
    part (totals.addAll reduction values) = some (values.foldl step held) := by
  induction values generalizing totals held with
  | nil => exact known
  | cons value values ih =>
    apply ih
    rw [law, known]
    rfl

theorem part_addAll (empty : part {} = none) (values : List Float) :
    part (addAll reduction {} values) = fromFirst? step values := by
  cases values with
  | nil => exact empty
  | cons first rest =>
    have started : part (add {} reduction first) = some first := by
      rw [law, empty]
      rfl
    exact part_addAll_of_some part law started rest

end Extreme

theorem minimum_addAll (values : List Float) :
    (addAll .minimum {} values).minimum = fromFirst? lesser values :=
  part_addAll minimum (fun _ _ => rfl) rfl values

theorem maximum_addAll (values : List Float) :
    (addAll .maximum {} values).maximum = fromFirst? greater values :=
  part_addAll maximum (fun _ _ => rfl) rfl values

end ColumnTotals

namespace Totals

def inColumn (totals : Totals) (column : String) : ColumnTotals :=
  (totals.column? column).getD {}

theorem sum_eq (totals : Totals) (column : String) :
    totals.sum column = (totals.inColumn column).sum := by
  unfold sum inColumn
  cases totals.column? column <;> rfl

theorem minimum?_eq (totals : Totals) (column : String) :
    totals.minimum? column = (totals.inColumn column).minimum := by
  unfold minimum? inColumn
  cases totals.column? column <;> rfl

theorem maximum?_eq (totals : Totals) (column : String) :
    totals.maximum? column = (totals.inColumn column).maximum := by
  unfold maximum? inColumn
  cases totals.column? column <;> rfl

theorem inColumn_addCell (totals : Totals) (row : Row) (item : ColumnReduction)
    (column : String) :
    (totals.addCell row item).inColumn column =
      if column = item.column then
        (totals.inColumn column).addAll item.reduction (measured? (row.cell column)).toList
      else totals.inColumn column := by
  unfold addCell
  split
  case h_1 blank =>
    split
    case isTrue same =>
      rw [same, blank]
      rfl
    case isFalse => rfl
  case h_2 value found =>
    simp only [inColumn, column?, Named.lookup_revise]
    split
    case isTrue same =>
      rw [same, found]
      rfl
    case isFalse => rfl

theorem only_inColumn_addCell (totals : Totals) (row : Row) (item : ColumnReduction)
    (column : String) (reduction : Reduction) :
    ((totals.addCell row item).inColumn column).only reduction =
      if item = ⟨column, reduction⟩ then
        ((totals.inColumn column).only reduction).addAll reduction
          (measured? (row.cell column)).toList
      else (totals.inColumn column).only reduction := by
  obtain ⟨place, other⟩ := item
  rw [inColumn_addCell]
  by_cases here : column = place
  · subst here
    by_cases same : other = reduction
    · subst same
      cases measured? (row.cell column) with
      | none => simp [ColumnTotals.addAll]
      | some value => simp [ColumnTotals.addAll, ColumnTotals.only_add_self]
    · cases measured? (row.cell column) with
      | none => simp [ColumnTotals.addAll, same]
      | some value => simp [ColumnTotals.addAll, same, ColumnTotals.only_add_of_ne same]
  · simp [here, Ne.symm here]

theorem only_inColumn_addCells {items : List ColumnReduction} (single : items.Nodup)
    (totals : Totals) (row : Row) (column : String) (reduction : Reduction) :
    ((items.foldl (·.addCell row ·) totals).inColumn column).only reduction =
      if ⟨column, reduction⟩ ∈ items then
        ((totals.inColumn column).only reduction).addAll reduction
          (measured? (row.cell column)).toList
      else (totals.inColumn column).only reduction := by
  induction items generalizing totals with
  | nil => rfl
  | cons item items ih =>
    obtain ⟨absent, single⟩ := List.nodup_cons.mp single
    rw [List.foldl_cons, ih single, only_inColumn_addCell]
    by_cases here : item = ⟨column, reduction⟩
    · subst here
      simp [absent]
    · simp [here, Ne.symm here]

theorem only_inColumn_addRow {reductions : List ColumnReduction} (single : reductions.Nodup)
    (totals : Totals) (row : Row) (column : String) (reduction : Reduction) :
    ((totals.addRow reductions row).inColumn column).only reduction =
      if ⟨column, reduction⟩ ∈ reductions then
        ((totals.inColumn column).only reduction).addAll reduction
          (measured? (row.cell column)).toList
      else (totals.inColumn column).only reduction :=
  only_inColumn_addCells single _ row column reduction

def ofRows (reductions : List ColumnReduction) (rows : List Row) : Totals :=
  rows.foldl (addRow reductions) {}

theorem ofRows_concat (reductions : List ColumnReduction) (rows : List Row) (row : Row) :
    ofRows reductions (rows ++ [row]) = (ofRows reductions rows).addRow reductions row := by
  simp [ofRows]

theorem count_addRows (reductions : List ColumnReduction) (totals : Totals) (rows : List Row) :
    (rows.foldl (addRow reductions) totals).count = totals.count + rows.length := by
  induction rows generalizing totals with
  | nil => rfl
  | cons row rows ih =>
    rw [List.foldl_cons, ih, count_addRow, List.length_cons, Nat.add_right_comm, Nat.add_assoc]

theorem count_ofRows (reductions : List ColumnReduction) (rows : List Row) :
    (ofRows reductions rows).count = rows.length :=
  (count_addRows reductions {} rows).trans (Nat.zero_add _)

theorem only_inColumn_addRows {reductions : List ColumnReduction} (single : reductions.Nodup)
    (totals : Totals) (rows : List Row) (column : String) (reduction : Reduction) :
    ((rows.foldl (addRow reductions) totals).inColumn column).only reduction =
      if ⟨column, reduction⟩ ∈ reductions then
        ((totals.inColumn column).only reduction).addAll reduction (numbersOf column rows)
      else (totals.inColumn column).only reduction := by
  induction rows generalizing totals with
  | nil => simp [numbersOf, ColumnTotals.addAll]
  | cons row rows ih =>
    rw [List.foldl_cons, ih, only_inColumn_addRow single]
    split
    case isTrue =>
      unfold numbersOf
      cases found : measured? (row.cell column) with
      | none => simp [found, ColumnTotals.addAll]
      | some value => simp [found, ColumnTotals.addAll]
    case isFalse => rfl

theorem only_inColumn_ofRows {reductions : List ColumnReduction} (single : reductions.Nodup)
    (rows : List Row) (column : String) (reduction : Reduction) :
    ((ofRows reductions rows).inColumn column).only reduction =
      if ⟨column, reduction⟩ ∈ reductions then
        ColumnTotals.addAll reduction {} (numbersOf column rows)
      else {} := by
  have empty : (inColumn {} column).only reduction = {} := by
    cases reduction <;> rfl
  rw [ofRows, only_inColumn_addRows single, empty]

section Measures

variable {reductions : List ColumnReduction} (single : reductions.Nodup) {column : String}
include single

theorem sum_ofRows (asked : ⟨column, .sum⟩ ∈ reductions) (rows : List Row) :
    (ofRows reductions rows).sum column = sumOf (numbersOf column rows) := by
  have folded := only_inColumn_ofRows single rows column .sum
  rw [if_pos asked] at folded
  rw [sum_eq]
  exact (congrArg ColumnTotals.sum folded).trans (ColumnTotals.sum_addAll {} _)

theorem minimum?_ofRows (asked : ⟨column, .minimum⟩ ∈ reductions) (rows : List Row) :
    (ofRows reductions rows).minimum? column = fromFirst? lesser (numbersOf column rows) := by
  have folded := only_inColumn_ofRows single rows column .minimum
  rw [if_pos asked] at folded
  rw [minimum?_eq]
  exact (congrArg ColumnTotals.minimum folded).trans (ColumnTotals.minimum_addAll _)

theorem maximum?_ofRows (asked : ⟨column, .maximum⟩ ∈ reductions) (rows : List Row) :
    (ofRows reductions rows).maximum? column = fromFirst? greater (numbersOf column rows) := by
  have folded := only_inColumn_ofRows single rows column .maximum
  rw [if_pos asked] at folded
  rw [maximum?_eq]
  exact (congrArg ColumnTotals.maximum folded).trans (ColumnTotals.maximum_addAll _)

theorem average_ofRows (asked : ⟨column, .sum⟩ ∈ reductions) {rows : List Row}
    (present : rows ≠ []) :
    (ofRows reductions rows).average column =
      sumOf (numbersOf column rows) / Float.ofNat rows.length := by
  have counted : (ofRows reductions rows).count ≠ 0 := by
    rw [count_ofRows]
    exact mt List.length_eq_zero_iff.mp present
  rw [average, if_neg counted, sum_ofRows single asked, count_ofRows]

/-- The value of an operation whose reduction is asked for depends on the rows alone. -/
theorem value?_ofRows {operation : Operation} {rows : List Row} (present : rows ≠ [])
    (asked : ∀ m, operation.aggregate = .measure m →
      ⟨operation.column?.getD "", m.reduction⟩ ∈ reductions) :
    (ofRows reductions rows).value? operation = operation.over rows := by
  unfold value? Operation.over
  cases kind : operation.aggregate with
  | count => simp [count_ofRows]
  | measure m =>
    have kept := asked m kind
    cases m with
    | sum => simp [measure?, sum_ofRows single kept]
    | average => simp [measure?, average_ofRows single kept present]
    | minimum => exact minimum?_ofRows single kept rows
    | maximum => exact maximum?_ofRows single kept rows

end Measures

end Totals

end Rollup.Group
