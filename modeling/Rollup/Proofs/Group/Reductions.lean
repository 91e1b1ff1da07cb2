import Rollup.Proofs.Group.Folding

/-! Several reductions over the same rows.  They share the totals of their columns, which begin with
the first number that any of them meets, but each one keeps to its own part.  Main statement: what a
reduction tells is what it would tell alone, and the order of the reductions does not matter. -/

namespace Rollup.Group

open Table

namespace Reduction

/-- What a reduction tells of the totals of its column. -/
def told? : Reduction → ColumnTotals → Option Float
  | sum, totals => some totals.sum
  | minimum, totals => totals.minimum
  | maximum, totals => totals.maximum

def idle? : Reduction → Option Float
  | sum => some 0.0
  | minimum | maximum => none

def ofNumbers? : Reduction → List Float → Option Float
  | sum, numbers => some (sumOf numbers)
  | minimum, numbers => fromFirst? lesser numbers
  | maximum, numbers => fromFirst? greater numbers

theorem told?_only (reduction : Reduction) (totals : ColumnTotals) :
    reduction.told? (totals.only reduction) = reduction.told? totals := by
  cases reduction <;> rfl

theorem told?_empty (reduction : Reduction) : reduction.told? {} = reduction.idle? := by
  cases reduction <;> rfl

theorem told?_addAll (reduction : Reduction) (numbers : List Float) :
    reduction.told? (.addAll reduction {} numbers) = reduction.ofNumbers? numbers := by
  cases reduction with
  | sum => exact congrArg some (ColumnTotals.sum_addAll {} numbers)
  | minimum => exact ColumnTotals.minimum_addAll numbers
  | maximum => exact ColumnTotals.maximum_addAll numbers

end Reduction

theorem ColumnTotals.eq_of_only {totals others : ColumnTotals}
    (parts : ∀ reduction, totals.only reduction = others.only reduction) : totals = others := by
  have sum := congrArg ColumnTotals.sum (parts .sum)
  have minimum := congrArg ColumnTotals.minimum (parts .minimum)
  have maximum := congrArg ColumnTotals.maximum (parts .maximum)
  exact congr (congr (congrArg ColumnTotals.mk sum) minimum) maximum

namespace Totals

def reduced? (totals : Totals) (item : ColumnReduction) : Option Float :=
  match item.reduction with
  | .sum => some (totals.sum item.column)
  | .minimum => totals.minimum? item.column
  | .maximum => totals.maximum? item.column

theorem reduced?_eq (totals : Totals) (item : ColumnReduction) :
    totals.reduced? item = item.reduction.told? (totals.inColumn item.column) := by
  obtain ⟨column, reduction⟩ := item
  cases reduction with
  | sum => exact congrArg some (totals.sum_eq column)
  | minimum => exact totals.minimum?_eq column
  | maximum => exact totals.maximum?_eq column

/-- A reduction tells of its column what it makes of the numbers there, whatever else is folded. -/
theorem reduced?_ofRows {reductions : List ColumnReduction} (single : reductions.Nodup)
    (rows : List Row) (item : ColumnReduction) : (ofRows reductions rows).reduced? item =
      if item ∈ reductions then item.reduction.ofNumbers? (numbersOf item.column rows)
      else item.reduction.idle? := by
  rw [reduced?_eq, ← Reduction.told?_only, only_inColumn_ofRows single,
    apply_ite item.reduction.told?, Reduction.told?_addAll, Reduction.told?_empty]

/-- Totals from which the same can be read. -/
structure Alike (totals others : Totals) : Prop where
  count : totals.count = others.count
  column? : ∀ column, totals.column? column = others.column? column

namespace Alike

variable {totals others : Totals} (alike : totals.Alike others) (column : String)
include alike

theorem sum : totals.sum column = others.sum column := by
  rw [Totals.sum, alike.column?, Totals.sum]

theorem average : totals.average column = others.average column := by
  rw [Totals.average, alike.count, alike.sum, Totals.average]

theorem minimum? : totals.minimum? column = others.minimum? column := by
  rw [Totals.minimum?, alike.column?, Totals.minimum?]

theorem maximum? : totals.maximum? column = others.maximum? column := by
  rw [Totals.maximum?, alike.column?, Totals.maximum?]

theorem value? (operation : Operation) : totals.value? operation = others.value? operation := by
  unfold Totals.value?
  cases operation.aggregate with
  | count => rw [alike.count]
  | measure measure =>
    cases measure with
    | sum => exact congrArg some (alike.sum _)
    | average => exact congrArg some (alike.average _)
    | minimum => exact alike.minimum? _
    | maximum => exact alike.maximum? _

end Alike

theorem isSome_column?_addCell (totals : Totals) (row : Row) (item : ColumnReduction)
    (column : String) : ((totals.addCell row item).column? column).isSome = true ↔
      (totals.column? column).isSome = true ∨
        column = item.column ∧ (measured? (row.cell column)).isSome = true := by
  unfold addCell
  split
  case h_1 blank =>
    constructor
    · exact .inl
    · rintro (there | ⟨rfl, counts⟩)
      · exact there
      · rw [blank] at counts
        cases counts
  case h_2 value found =>
    simp only [column?, Named.lookup_revise]
    split
    case isTrue same => simp [same, found]
    case isFalse other => simp [other]

theorem isSome_column?_addCells (items : List ColumnReduction) (totals : Totals) (row : Row)
    (column : String) : ((items.foldl (·.addCell row ·) totals).column? column).isSome = true ↔
      (totals.column? column).isSome = true ∨
        column ∈ items.map (·.column) ∧ (measured? (row.cell column)).isSome = true := by
  induction items generalizing totals with
  | nil => simp
  | cons item items ih =>
    rw [List.foldl_cons, ih, isSome_column?_addCell, List.map_cons, List.mem_cons, or_assoc,
      ← or_and_right]

theorem isSome_column?_addRows (items : List ColumnReduction) (totals : Totals) (rows : List Row)
    (column : String) : ((rows.foldl (addRow items) totals).column? column).isSome = true ↔
      (totals.column? column).isSome = true ∨
        column ∈ items.map (·.column) ∧ numbersOf column rows ≠ [] := by
  induction rows generalizing totals with
  | nil => simp [numbersOf]
  | cons row rows ih =>
    have here : ((totals.addRow items row).column? column).isSome = true ↔
        (totals.column? column).isSome = true ∨
          column ∈ items.map (·.column) ∧ (measured? (row.cell column)).isSome = true :=
      isSome_column?_addCells items _ row column
    rw [List.foldl_cons, ih, here, or_assoc, ← and_or_left]
    cases found : measured? (row.cell column) <;> simp [numbersOf, found]

theorem isSome_column?_ofRows (reductions : List ColumnReduction) (rows : List Row)
    (column : String) : ((ofRows reductions rows).column? column).isSome = true ↔
      column ∈ reductions.map (·.column) ∧ numbersOf column rows ≠ [] := by
  rw [ofRows, isSome_column?_addRows]
  simp [column?]

theorem eq_of_getD {α : Type} {first second : Option α} {default : α}
    (there : first.isSome = second.isSome)
    (same : first.getD default = second.getD default) : first = second := by
  cases first with
  | none =>
    cases second with
    | none => rfl
    | some other => cases there
  | some value =>
    cases second with
    | none => cases there
    | some other => exact congrArg some same

section Reordered

variable {reductions others : List ColumnReduction} (single : reductions.Nodup)
  (perm : others.Perm reductions) (rows : List Row)
include single perm

theorem inColumn_of_perm (column : String) :
    (ofRows others rows).inColumn column = (ofRows reductions rows).inColumn column := by
  refine ColumnTotals.eq_of_only fun reduction => ?_
  rw [only_inColumn_ofRows single, only_inColumn_ofRows (perm.nodup_iff.mpr single)]
  simp only [perm.mem_iff]

theorem alike_of_perm : (ofRows others rows).Alike (ofRows reductions rows) := by
  refine ⟨by rw [count_ofRows, count_ofRows], fun column => ?_⟩
  have there : ((ofRows others rows).column? column).isSome =
      ((ofRows reductions rows).column? column).isSome := by
    rw [Bool.eq_iff_iff, isSome_column?_ofRows, isSome_column?_ofRows,
      (perm.map (·.column)).mem_iff]
  exact eq_of_getD there (inColumn_of_perm single perm rows column)

end Reordered

end Totals

/-- After some rows, every reduction that was asked for tells what it would tell of these rows
alone, its fold of the numbers in its column, and any other one has nothing to tell; so all that is
told of the rows is the same in whatever order the reductions stood. -/
theorem reductions_apart {reductions : List ColumnReduction} (single : reductions.Nodup)
    (rows : List Row) :
    (∀ item ∈ reductions,
      (Totals.ofRows reductions rows).reduced? item = (Totals.ofRows [item] rows).reduced? item ∧
      (Totals.ofRows reductions rows).reduced? item =
        item.reduction.ofNumbers? (numbersOf item.column rows)) ∧
    (∀ item ∉ reductions,
      (Totals.ofRows reductions rows).reduced? item = item.reduction.idle?) ∧
    ∀ others, others.Perm reductions →
      let totals := Totals.ofRows reductions rows
      let totals' := Totals.ofRows others rows
      totals'.count = totals.count ∧
      (∀ column, totals'.column? column = totals.column? column ∧
        totals'.sum column = totals.sum column ∧ totals'.average column = totals.average column ∧
        totals'.minimum? column = totals.minimum? column ∧
        totals'.maximum? column = totals.maximum? column) ∧
      ∀ operation, totals'.value? operation = totals.value? operation := by
  have told (item : ColumnReduction) := Totals.reduced?_ofRows single rows item
  refine ⟨fun item asked => ?_, fun item idle => ?_, fun others perm => ?_⟩
  · have alone : (Totals.ofRows [item] rows).reduced? item =
        item.reduction.ofNumbers? (numbersOf item.column rows) := by
      rw [Totals.reduced?_ofRows (List.pairwise_singleton _ item),
        if_pos (List.mem_singleton_self item)]
    rw [told, if_pos asked, alone]
    exact ⟨rfl, rfl⟩
  · rw [told, if_neg idle]
  · have alike := Totals.alike_of_perm single perm rows
    exact ⟨alike.count, fun column => ⟨alike.column? column, alike.sum column,
      alike.average column, alike.minimum? column, alike.maximum? column⟩, alike.value?⟩

/-- A minimum that begins the totals of its column, before a sum that shares them, around a cell
that does not count; a maximum of the column was not asked for. -/
theorem reductions_apart_shared_column :
    let reductions : List ColumnReduction := [⟨"v", .minimum⟩, ⟨"w", .maximum⟩, ⟨"v", .sum⟩]
    let row (v w : String) : Row := .ofPairs [("v", v), ("w", w)]
    let rows := [row "x" "4", row "2" "", row " -1 " "inf"]
    let totals := Totals.ofRows reductions rows
    reductions.Nodup ∧ totals.sum "v" = 1.0 ∧
    totals.sum "v" = (Totals.ofRows [⟨"v", .sum⟩] rows).sum "v" ∧
    totals.minimum? "v" = (Totals.ofRows [⟨"v", .minimum⟩] rows).minimum? "v" ∧
    totals.maximum? "v" = none ∧
    (Totals.ofRows reductions.reverse rows).sum "v" = totals.sum "v" := by
  intro reductions row rows totals
  have single : reductions.Nodup := by decide
  obtain ⟨asked, idle, reordered⟩ := reductions_apart single rows
  obtain ⟨-, columns, -⟩ := reordered _ (List.reverse_perm reductions)
  have sum := (asked ⟨"v", .sum⟩ (by decide)).1
  have minimum := (asked ⟨"v", .minimum⟩ (by decide)).1
  exact ⟨single, by decide +kernel, Option.some.inj sum, minimum,
    idle ⟨"v", .maximum⟩ (by decide), (columns "v").2.1⟩

end Rollup.Group
