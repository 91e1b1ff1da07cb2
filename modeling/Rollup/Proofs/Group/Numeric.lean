import Rollup.Proofs.Decimal.Definite
import Rollup.Proofs.Decimal.Height
import Rollup.Proofs.Group.Partition
import Rollup.Proofs.Group.Precedence

/-! The totals of a group are numbers, and a ranking goes by their size.  Only finite numbers are
folded, so extremes are finite, and a sum may overflow but cannot meet infinities of both signs.
Adding zero clears the sign of a zero, and without the negative zero and without what is no number
the total order is the order of numbers.  Main statement: no value of a group is no number, and of
two entries of a ranking the first has the greater value, or an equal one and the earlier key. -/

namespace Rollup.Group

open Table

namespace ColumnTotals

/-- The sum is a number, though perhaps an infinite one, and the extremes are finite. -/
structure Numeric (totals : ColumnTotals) : Prop where
  sum : totals.sum.isNaN = false
  minimum : ∀ value, totals.minimum = some value → value.isFinite = true
  maximum : ∀ value, totals.maximum = some value → value.isFinite = true

theorem numeric_empty : Numeric {} := ⟨rfl, nofun, nofun⟩

theorem isFinite_elim {value : Float} (finite : value.isFinite = true) {held : Option Float}
    (holds : ∀ known, held = some known → known.isFinite = true) {step : Float → Float → Float}
    (choice : ∀ known, step known value = known ∨ step known value = value) :
    (held.elim value (step · value)).isFinite = true := by
  cases held with
  | none => exact finite
  | some known =>
    rcases choice known with same | same
    · exact (congrArg Float.isFinite same).trans (holds known rfl)
    · exact (congrArg Float.isFinite same).trans finite

theorem Numeric.add {totals : ColumnTotals} (numeric : totals.Numeric) (reduction : Reduction)
    {value : Float} (finite : value.isFinite = true) : (totals.add reduction value).Numeric := by
  cases reduction with
  | sum => exact ⟨Decimal.isNaN_add numeric.sum finite, numeric.minimum, numeric.maximum⟩
  | minimum =>
    refine ⟨numeric.sum, ?_, numeric.maximum⟩
    rintro _ ⟨⟩
    refine isFinite_elim finite numeric.minimum fun known => ?_
    exact (ite_eq_or_eq _ _ _).symm
  | maximum =>
    refine ⟨numeric.sum, numeric.minimum, ?_⟩
    rintro _ ⟨⟩
    refine isFinite_elim finite numeric.maximum fun known => ?_
    exact (ite_eq_or_eq _ _ _).symm

end ColumnTotals

namespace Totals

def Numeric (totals : Totals) : Prop := ∀ column, (totals.inColumn column).Numeric

theorem numeric_addCell {totals : Totals} (numeric : totals.Numeric) (row : Row)
    (item : ColumnReduction) : (totals.addCell row item).Numeric := by
  intro column
  rw [inColumn_addCell]
  split
  · cases found : measured? (row.cell column) with
    | none => exact numeric column
    | some value =>
      have finite := ((measured?_eq_some_iff _ _).mp found).2.2
      exact (numeric column).add item.reduction finite
  · exact numeric column

theorem numeric_addRow {totals : Totals} (numeric : totals.Numeric)
    (reductions : List ColumnReduction) (row : Row) :
    (totals.addRow reductions row).Numeric :=
  List.foldlRecOn reductions _ numeric fun _ counted item _ => numeric_addCell counted row item

theorem numeric_ofRows (reductions : List ColumnReduction) (rows : List Row) :
    (ofRows reductions rows).Numeric := by
  have start : Numeric {} := fun _ => ColumnTotals.numeric_empty
  exact List.foldlRecOn rows _ start fun _ folded row _ => numeric_addRow folded reductions row

theorem isNaN_ofNat {count : Nat} (fits : count < Decimal.wordBound) :
    (Float.ofNat count).isNaN = false := by
  rcases Nat.eq_zero_or_pos count with rfl | some
  · rfl
  · have divisor := Decimal.isDivisor_ofNat some fits
    exact Decimal.isNaN_of_isFinite (Decimal.isFinite_of_isDivisor divisor)

section

variable {totals : Totals} (numeric : totals.Numeric) (fits : totals.count < Decimal.wordBound)
include numeric

theorem isNaN_sum (column : String) : (totals.sum column).isNaN = false := by
  rw [sum_eq]
  exact (numeric column).sum

theorem isNaN_minimum? {column : String} {value : Float}
    (told : totals.minimum? column = some value) : value.isNaN = false := by
  rw [minimum?_eq] at told
  exact Decimal.isNaN_of_isFinite ((numeric column).minimum value told)

theorem isNaN_maximum? {column : String} {value : Float}
    (told : totals.maximum? column = some value) : value.isNaN = false := by
  rw [maximum?_eq] at told
  exact Decimal.isNaN_of_isFinite ((numeric column).maximum value told)

include fits

theorem isNaN_average (column : String) : (totals.average column).isNaN = false := by
  rw [average]
  split
  case isTrue => rfl
  case isFalse some =>
    exact Decimal.isNaN_div (isNaN_sum numeric column)
      (Decimal.isDivisor_ofNat (Nat.pos_of_ne_zero some) fits)

theorem isNaN_measure? {measure : Measure} {column : String} {value : Float}
    (told : totals.measure? measure column = some value) : value.isNaN = false := by
  cases measure with
  | sum =>
    cases told
    exact isNaN_sum numeric column
  | average =>
    cases told
    exact isNaN_average numeric fits column
  | minimum => exact isNaN_minimum? numeric told
  | maximum => exact isNaN_maximum? numeric told

theorem isNaN_value (metric : Metric) : (metric.value totals).isNaN = false := by
  have least : (-Decimal.infinity).isNaN = false := rfl
  rw [Metric.value_eq]
  cases metric with
  | count => exact isNaN_ofNat fits
  | unknown text => exact least
  | measure m column =>
    show ((totals.measure? m column).getD _).isNaN = false
    cases told : totals.measure? m column with
    | none => exact least
    | some value => exact isNaN_measure? numeric fits told

end

end Totals

namespace Ranked

structure Plain (entry : Ranked) : Prop where
  number : entry.value.isNaN = false
  other : entry.value.toBits.toNat ≠ Decimal.negativeZero

theorem plain_entryOf {totals : Totals} (numeric : totals.Numeric)
    (fits : totals.count < Decimal.wordBound) (metric : Metric) (key : Key) :
    (entryOf metric (key, totals)).Plain where
  number := Decimal.isNaN_add (Totals.isNaN_value numeric fits metric) rfl
  other := Decimal.toBits_add_zero _

theorem Plain.before_iff {a b : Ranked} (plain : a.Plain) (plain' : b.Plain) :
    a.Before b ↔ b.value < a.value ∨
      (a.value == b.value) = true ∧ a.key.values < b.key.values := by
  rw [Before, Decimal.rank_lt_iff_height plain'.other plain.other,
    Decimal.rank_eq_iff_height plain.other plain'.other,
    Decimal.lt_iff_height plain'.number plain.number,
    Decimal.beq_iff_height plain.number plain'.number]

end Ranked

namespace Grouping

theorem nodup_keys_groups (plan : Plan) (rows : List Row) :
    (((start plan).acceptAll rows).groups.map Prod.fst).Nodup := by
  rw [keys_groups_acceptAll]
  exact (List.mergeSort_perm _ _).nodup_iff.mpr (nodup_distinct _)

end Grouping

/-- Whatever the cells say and whatever is asked for: nothing that is told of a group is no number,
and a ranking by any metric is one by size.  Rows are counted in words of 64 bits, so there are not
more of them than such a word holds. -/
theorem ranking_numeric (plan : Plan) {rows : List Row} (fits : rows.length < Decimal.wordBound) :
    let groups := ((Grouping.start plan).acceptAll rows).groups
    (∀ group ∈ groups, ∀ measure column value,
      group.2.measure? measure column = some value → value.isNaN = false) ∧
    ∀ metric wanted, (ranking metric wanted groups).Pairwise fun a b =>
      b.value < a.value ∨ (a.value == b.value) = true ∧ a.key.values < b.key.values := by
  intro groups
  have sound : ∀ group ∈ groups,
      group.2.Numeric ∧ group.2.count < Decimal.wordBound := by
    intro group member
    rw [show groups = _ from Grouping.groups_acceptAll plan rows] at member
    obtain ⟨key, -, rfl⟩ := List.mem_map.mp member
    refine ⟨Totals.numeric_ofRows _ _, ?_⟩
    show (Totals.ofRows _ (rowsOf plan.groupBy key rows)).count < _
    rw [Totals.count_ofRows]
    exact Nat.lt_of_le_of_lt (List.length_filter_le _ _) fits
  refine ⟨fun group member measure column value told => ?_, fun metric wanted => ?_⟩
  · obtain ⟨numeric, counted⟩ := sound group member
    exact Totals.isNaN_measure? numeric counted told
  · have plain : ∀ entry ∈ standings metric groups, entry.Plain := by
      intro entry member
      obtain ⟨group, given, rfl⟩ := mem_standings.mp member
      obtain ⟨numeric, counted⟩ := sound group given
      exact Ranked.plain_entryOf numeric counted metric group.1
    have before : (standings metric groups).Pairwise Ranked.Before :=
      standings_before (Grouping.nodup_keys_groups plan rows)
    rw [ranking_eq]
    refine List.Pairwise.sublist (List.take_sublist wanted _) ?_
    refine before.imp_of_mem fun first second placed => ?_
    exact ((plain _ first).before_iff (plain _ second)).mp placed

/-- One sum overflows, in another group no cell counts, and in a third all that counts is the
negative zero. -/
theorem ranking_numeric_overflow :
    let plan : Plan := ⟨["k"], [.measure .average "v", .measure .minimum "v"]⟩
    let row (key cell : String) : Row := .ofPairs [("k", key), ("v", cell)]
    let rows := [row "a" "-0", row "b" "1e308", row "b" "1e308", row "c" "NaN", row "c" "-inf"]
    let groups := ((Grouping.start plan).acceptAll rows).groups
    (sumOf (numbersOf "v" (rowsOf ["k"] ⟨["b"]⟩ rows))).isInf = true ∧
    (∀ group ∈ groups, (group.2.average "v").isNaN = false) ∧
    ∀ wanted, (ranking (.measure .minimum "v") wanted groups).Pairwise fun a b =>
      b.value < a.value ∨ (a.value == b.value) = true ∧ a.key.values < b.key.values := by
  intro plan row rows groups
  have fits : rows.length < Decimal.wordBound := by decide
  have overflow : (sumOf (numbersOf "v" (rowsOf ["k"] ⟨["b"]⟩ rows))).isInf = true := by
    decide +kernel
  obtain ⟨numbers, ranked⟩ := ranking_numeric plan fits
  exact ⟨overflow, fun group member => numbers group member .average "v" _ rfl,
    ranked (.measure .minimum "v")⟩

end Rollup.Group
