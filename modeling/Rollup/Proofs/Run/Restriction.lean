import Rollup.Proofs.Filter.Equality
import Rollup.Proofs.Group.Selection
import Rollup.Proofs.Run.Independence

/-! A filter on a column that the rows are grouped by.  The filter and the group key read the same
cell of a row, so the filter keeps or drops a group as a whole.  Main statement: asking for a value
of such a column gives the groups with that value, as they are without the filter. -/

namespace Rollup

open Table Rollup.Filter Rollup.Group

namespace Settings

variable {settings : Settings} {header : Header} {prepared : Prepared}

theorem prepare_equality {column : String} (checked : settings.prepare header = .ok prepared)
    (grouped : column ∈ settings.groupBy) (named : column ≠ "")
    (nameChars : ∀ c ∈ column.toList, isNameChar c = true) (value : String) :
    { settings with filter? := some (equalityText column value) }.prepare header =
      .ok { prepared with filter := ⟨some (.condition ⟨column, .equal, .text value⟩)⟩ } := by
  obtain ⟨requested, filter, metric, parsed, read, valid, -, ranked, rfl⟩ :=
    (settings.prepare_ok_iff header prepared).mp checked
  have known := mem_names_of_validate valid grouped
  have compiled := compile_equalityText named nameChars known value
  exact (prepare_ok_iff _ header _).mpr
    ⟨requested, _, metric, parsed, read, valid, compiled, ranked, rfl⟩

end Settings

theorem accepts_equality {groupBy : List String} {place : Nat} {column : String}
    (grouped : groupBy[place]? = some column) (value : String) (row : Row) :
    Filter.accepts ⟨some (.condition ⟨column, .equal, .text value⟩)⟩ row =
      decide ((Key.ofRow groupBy row).values[place]? = some value) := by
  rw [Key.ofRow, List.getElem?_map, grouped]
  simp [Filter.accepts, Expression.accepts, Condition.accepts, Condition.meets,
    Comparison.holdsText]

theorem accepts_of_blank {header : Header} {text : String} {filter : Filter}
    (blank : Text.trim text.toList = []) (compiled : Filter.compile header text = .ok filter)
    (row : Row) : filter.accepts row = true := by
  rw [Filter.compile_eq, if_pos blank] at compiled
  cases compiled
  rfl

/-- The filter that asks for one value of a column to group by, set on settings without a filter:
the run succeeds as before, with the same rows and malformed records; its groups are those of
before whose key has the value at the place of the column, with the same totals; and the rows that
it lets through are the rows of these groups. -/
theorem run_filter_by_group_value {settings : Settings} {input : String} {source : Source}
    {analysis : Analysis} {place : Nat} {column : String}
    (unfiltered : Text.trim (settings.filter?.getD "").toList = [])
    (grouped : settings.groupBy[place]? = some column) (named : column ≠ "")
    (nameChars : ∀ c ∈ column.toList, isNameChar c = true)
    (ran : (settings.run input source).result = .ok analysis) (value : String) :
    ∃ narrowed,
      ({ settings with filter? := some (equalityText column value) }.run input source).result =
        .ok narrowed ∧
      narrowed.totalRows = analysis.totalRows ∧
      narrowed.malformedRows = analysis.malformedRows ∧
      narrowed.groups =
        analysis.groups.filter (fun entry => decide (entry.1.values[place]? = some value)) ∧
      narrowed.matchedRows = (narrowed.groups.map (·.2.count)).sum := by
  obtain ⟨dialect, content, spoken, opened, ended⟩ := (settings.run_ok_iff _ _ _).mp ran
  obtain ⟨filled, calm, prepared, checked, rfl⟩ := (settings.runOf_ok_iff _ _).mp ended
  obtain ⟨groupBy, -, compiled, -⟩ := Settings.prepare_parts checked
  have member : column ∈ settings.groupBy := List.mem_of_getElem? grouped
  have checked' := Settings.prepare_equality checked member named nameChars value
  let asked : Prepared :=
    { prepared with filter := ⟨some (.condition ⟨column, .equal, .text value⟩)⟩ }
  let selects (key : Key) : Bool := decide (key.values[place]? = some value)
  have everything : prepared.accepted content = content.course.rows :=
    List.filter_eq_self.mpr fun row _ => accepts_of_blank unfiltered compiled row
  have narrower : asked.accepted content =
      selected prepared.plan.groupBy selects content.course.rows := by
    apply List.filter_congr
    intro row _
    rw [groupBy]
    exact accepts_equality grouped value row
  have groups : (asked.analysisOf settings.topCount content).groups =
      (prepared.analysisOf settings.topCount content).groups.filter fun entry =>
        selects entry.1 := by
    have restricted := Grouping.groups_selected prepared.plan content.course.rows selects
    rw [← narrower] at restricted
    simp only [Prepared.analysisOf, everything]
    exact restricted
  refine ⟨asked.analysisOf settings.topCount content, ?_, rfl, rfl, groups, ?_⟩
  · refine (Settings.run_ok_iff _ _ _ _).mpr ⟨dialect, content, spoken, opened, ?_⟩
    exact (Settings.runOf_ok_iff _ _ _).mpr ⟨filled, calm, asked, checked', rfl⟩
  · exact (Grouping.sum_count_groups prepared.plan (asked.accepted content)).symm

/-- The value has a quote, a backslash and a line break.  One row is short, and one record cannot be
split. -/
theorem run_filter_by_group_value_escaped :
    let settings : Settings := { groupBy := ["n", "k"], aggregations := ["sum(n)"] }
    let value := "a\"\\\nb"
    let source : Source :=
      [.bytes (Text.Utf8.encode "k,n,k\n0,1,\"a\"\"\\\nb\"\n0,2\n\"x\"y\n0,3,c\n")]
    ∃ analysis narrowed, (settings.run "t.csv" source).result = .ok analysis ∧
      ({ settings with filter? := some "k == \"a\\\"\\\\\nb\"" }.run "t.csv" source).result =
        .ok narrowed ∧
      narrowed.totalRows = 4 ∧ narrowed.malformedRows = 1 ∧ narrowed.matchedRows = 1 ∧
      narrowed.groups =
        analysis.groups.filter (fun entry => decide (entry.1.values[1]? = some value)) := by
  intro settings value source
  obtain ⟨analysis, ran⟩ : ∃ analysis, (settings.run "t.csv" source).result = .ok analysis :=
    exists_ok_of_toBool (by decide +kernel)
  have grouped : settings.groupBy[1]? = some "k" := rfl
  have nameChars : ∀ c ∈ "k".toList, isNameChar c = true := List.forall_mem_singleton.mpr rfl
  obtain ⟨narrowed, ran', total, malformed, groups, -⟩ :=
    run_filter_by_group_value rfl grouped (by decide) nameChars ran value
  have text : equalityText "k" value = "k == \"a\\\"\\\\\nb\"" := by decide +kernel
  rw [text] at ran'
  have counts : (settings.run "t.csv" source).result.toOption.map
      (fun known => (known.totalRows, known.malformedRows)) = some (4, 1) := by
    decide +kernel
  have matched : ({ settings with filter? := some "k == \"a\\\"\\\\\nb\"" }.run "t.csv"
      source).result.toOption.map Analysis.matchedRows = some 1 := by
    decide +kernel
  rw [ran] at counts
  rw [ran'] at matched
  obtain ⟨four, one⟩ := Prod.mk.inj (Option.some.inj counts)
  exact ⟨analysis, narrowed, ran, ran', total.trans four, malformed.trans one,
    Option.some.inj matched, groups⟩

end Rollup
