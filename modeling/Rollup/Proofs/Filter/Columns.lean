import Rollup.Filter.Expression

/-! What an expression reads.  A condition looks at one cell, and the terms of an expression are
asked about the same row, so rows that agree on the columns of an expression agree on each of its
terms.  Main statement: nothing else about a row counts, neither its header, nor its other cells,
nor whether an empty cell is there or missing; a row cut down to those columns is answered as the
whole row is. -/

namespace Rollup

open Table

namespace Table.Row

/-- A row of its own with the cells of some columns, empty where the row has no such column. -/
def restricted (row : Row) (columns : List String) : Row :=
  ofPairs (columns.map fun column => (column, row.cell column))

theorem cell_restricted (row : Row) {columns : List String} {column : String}
    (member : column ∈ columns) : (row.restricted columns).cell column = row.cell column := by
  have names : (row.restricted columns).header.names = columns := by
    simp [restricted, ofPairs, Function.comp_def]
  have values : (row.restricted columns).values = columns.map row.cell := by
    simp [restricted, ofPairs, Function.comp_def]
  obtain ⟨position, found⟩ :=
    Option.isSome_iff_exists.mp ((lastPosition?_isSome_iff column columns).mpr member)
  have there := getElem?_of_lastPosition? found
  rw [cell, get?, Header.position?, names, found, Option.bind_some, values, List.getElem?_map,
    there]
  rfl

end Table.Row

namespace Filter.Expression

/-- Two rows have the same cells in some columns. -/
def SameIn (columns : List String) (first second : Row) : Prop :=
  ∀ column ∈ columns, first.cell column = second.cell column

section

variable {first second : Row}

theorem sameIn_append_iff {columns others : List String} :
    SameIn (columns ++ others) first second ↔
      SameIn columns first second ∧ SameIn others first second :=
  List.forall_mem_append

theorem accepts_of_sameIn_column {condition : Condition}
    (same : SameIn [condition.column] first second) :
    condition.accepts first = condition.accepts second := by
  have cell := same condition.column List.mem_cons_self
  rw [Condition.accepts, Condition.accepts, cell]

theorem accepts_of_answers {terms : List Expression}
    (answers : terms.map (accepts first) = terms.map (accepts second)) :
    (all terms).accepts first = (all terms).accepts second ∧
      (any terms).accepts first = (any terms).accepts second := by
  have every (row : Row) : terms.all (accepts row) = (terms.map (accepts row)).all id := by
    rw [List.all_map, Function.id_comp]
  have some (row : Row) : terms.any (accepts row) = (terms.map (accepts row)).any id := by
    rw [List.any_map, Function.id_comp]
  constructor
  · rw [accepts, accepts, acceptsEvery_eq, acceptsEvery_eq, every, every, answers]
  · rw [accepts, accepts, acceptsSome_eq, acceptsSome_eq, some, some, answers]

-- expressions nest through lists of terms, so the induction goes over both at once
mutual

theorem accepts_of_sameIn : (expression : Expression) → SameIn expression.columns first second →
    expression.accepts first = expression.accepts second
  | condition _, same => accepts_of_sameIn_column same
  | all terms, same => (accepts_of_answers (answers_of_sameIn terms same)).1
  | any terms, same => (accepts_of_answers (answers_of_sameIn terms same)).2

theorem answers_of_sameIn : (terms : List Expression) → SameIn (columnsOf terms) first second →
    terms.map (accepts first) = terms.map (accepts second)
  | [], _ => rfl
  | term :: terms, same => by
    obtain ⟨here, there⟩ := sameIn_append_iff.mp same
    rw [List.map_cons, List.map_cons, accepts_of_sameIn term here, answers_of_sameIn terms there]

end

end

/-- Rows with the same cells in the columns of an expression, whatever else they hold, are both
accepted by it or both rejected, and so are a row and what the columns leave of it. -/
theorem accepts_reads_columns (expression : Expression) :
    (∀ first second : Row,
      (∀ column ∈ expression.columns, first.cell column = second.cell column) →
      expression.accepts first = expression.accepts second) ∧
    ∀ row : Row, expression.accepts (row.restricted expression.columns) = expression.accepts row :=
  ⟨fun _ _ => accepts_of_sameIn expression,
    fun row => accepts_of_sameIn expression fun _ member => row.cell_restricted member⟩

/-- Between empty terms: a repeated column, whose last place is filled up, and a row without that
column are the same to an expression that asks for an empty cell. -/
theorem accepts_reads_columns_absent :
    let expression := any
      [any [], all [all [], condition ⟨"v", .equal, .text ""⟩, condition ⟨"w", .less, .number 2.0⟩]]
    let first := Row.ofValues ⟨["v", "w", "v"]⟩ ["x", " 1 "]
    let second := Row.ofPairs [("u", "x"), ("w", " 1 ")]
    (∀ column ∈ expression.columns, first.cell column = second.cell column) ∧
      expression.accepts first = expression.accepts second ∧ expression.accepts first = true := by
  intro expression first second
  have same : ∀ column ∈ expression.columns, first.cell column = second.cell column := by decide
  exact ⟨same, (accepts_reads_columns expression).1 first second same, by decide⟩

end Filter.Expression

end Rollup
