import Rollup.Proofs.Group.Requests
import Rollup.Proofs.Group.Selection
import Rollup.Proofs.Run.Outline
import Rollup.Proofs.Table.Records

/-! Settings against a header.  Every check looks at the settings and the header alone, and all of
them come before the first row.  Main statement: tables with the same header are refused for the
same reason, which is the first check that fails, without a record being reported; and settings that
pass the checks can only fail because the source does. -/

namespace Rollup

open Table Rollup.Filter Rollup.Group

/-- The error is about the settings and the header, not about the table or its source. -/
def AnalysisError.isRefusal : AnalysisError → Bool
  | plan _ | filter _ => true
  | table _ | settings _ => false

namespace Settings

/-- Everything in the settings that a header does not bear out, in the order of the checks: the
aggregations, the columns to group by, the filter and the metric. -/
def faults (settings : Settings) (header : Header) : List AnalysisError :=
  ((Text.listItems settings.aggregationList).filterMap (tokenFault? header)).map .plan ++
    (settings.groupBy.filterMap (groupFault? header)).map .plan ++
    (errorOf? (Filter.compile header (settings.filter?.getD ""))).toList.map .filter ++
    (errorOf? ((Metric.parse settings.metric).validate header)).toList.map .plan

theorem isRefusal_of_mem_faults (settings : Settings) {header : Header} {error : AnalysisError}
    (member : error ∈ settings.faults header) : error.isRefusal = true := by
  simp only [faults, List.mem_append, List.mem_map] at member
  rcases member with ((⟨_, -, rfl⟩ | ⟨_, -, rfl⟩) | ⟨_, -, rfl⟩) | ⟨_, -, rfl⟩ <;> rfl

theorem errorOf?_prepare (settings : Settings) (header : Header) :
    errorOf? (settings.prepare header) = (settings.faults header).head? := by
  unfold faults prepare
  simp only [List.head?_append, List.head?_map, List.append_assoc, ← errorOf?_parseOperations]
  cases read : parseOperations header settings.aggregationList with
  | error error => rfl
  | ok requested =>
    rw [← errorOf?_validate read]
    dsimp only [Except.mapError, bind, Except.bind]
    cases Plan.validate ⟨settings.groupBy, requested⟩ header with
    | error error => rfl
    | ok valid =>
      cases Filter.compile header (settings.filter?.getD "") with
      | error error => rfl
      | ok filter => cases (Metric.parse settings.metric).validate header <;> rfl

theorem exists_prepared_of_no_fault {settings : Settings} {header : Header}
    (sound : settings.faults header = []) : ∃ prepared, settings.prepare header = .ok prepared := by
  apply errorOf?_eq_none_iff.mp
  rw [errorOf?_prepare, sound]
  rfl

section

variable {settings : Settings} {dialect : Dialect} {input : String} {source : Source} {rows : Rows}
  (spoken : settings.dialect = .ok dialect)
  (opened : Rows.ofSource dialect input source = .ok rows) (named : rows.header.isEmpty = false)
include spoken opened named

theorem run_of_fault {error : AnalysisError}
    (fault : (settings.faults rows.header).head? = some error) :
    settings.run input source = { result := .error error } := by
  have content := (exists_rows_iff dialect input source _).mp ⟨rows, opened, rfl⟩
  have refused : settings.prepare rows.content.header = .error error := by
    rw [← errorOf?_eq_some_iff, ← fault]
    exact settings.errorOf?_prepare rows.header
  have some : rows.content.header.isEmpty = false := named
  rw [run_of_content spoken content, runOf, some, refused]
  rfl

theorem unreadable_of_no_fault (sound : settings.faults rows.header = []) {error : AnalysisError}
    (failed : (settings.run input source).result = .error error) :
    ∃ reason, .failure reason ∈ source ∧ error = .table (.unreadable input reason) := by
  have content := (exists_rows_iff dialect input source _).mp ⟨rows, opened, rfl⟩
  have given : settings.faults rows.content.header = [] := sound
  obtain ⟨prepared, checked⟩ := exists_prepared_of_no_fault given
  rw [run_of_content spoken content, runOf_of_prepared named checked, Prepared.runOf] at failed
  split at failed
  case h_1 cause ended =>
    cases failed
    obtain ⟨reason, rfl, met⟩ := unreadable_of_content content ended
    have stop : Feed.stop? { source := source } = source.stop? := rfl
    exact ⟨reason, failure_of_mem_drain stop (List.mem_filter.mp met).1, rfl⟩
  case h_2 => cases failed

end

end Settings

/-- Of two sources whose tables have the same columns: a refusal of the one is the refusal of the
other and the first fault of the settings, with no record reported; the first fault is such a
refusal; and without a fault a run fails only where its source does, and its grouping never looks
for a group that is not there. -/
theorem run_refusal_told_by_header {settings : Settings} {dialect : Dialect}
    {input input' : String} {source source' : Source} {rows rows' : Rows}
    (spoken : settings.dialect = .ok dialect)
    (opened : Rows.ofSource dialect input source = .ok rows)
    (opened' : Rows.ofSource dialect input' source' = .ok rows')
    (same : rows'.header = rows.header) (named : rows.header.isEmpty = false) :
    (∀ error, error.isRefusal = true → (settings.run input source).result = .error error →
      (settings.run input' source').result = .error error ∧
      (settings.run input source).malformed = [] ∧
      (settings.run input' source').malformed = [] ∧
      (settings.faults rows.header).head? = some error) ∧
    (∀ error, (settings.faults rows.header).head? = some error →
      error.isRefusal = true ∧ (settings.run input source).result = .error error) ∧
    (settings.faults rows.header = [] →
      (∀ error, (settings.run input source).result = .error error →
        ∃ reason, .failure reason ∈ source ∧ error = .table (.unreadable input reason)) ∧
      ∃ prepared, settings.prepare rows.header = .ok prepared ∧
        ∀ (accepted : List Row) (key : Key) (slot : Nat),
          ((Grouping.start prepared.plan).acceptAll accepted).index[key]? = some slot →
          slot < ((Grouping.start prepared.plan).acceptAll accepted).totals.size) := by
  have named' : rows'.header.isEmpty = false := by rwa [same]
  refine ⟨?_, ?_, ?_⟩
  · intro error refusal failed
    cases fault : (settings.faults rows.header).head? with
    | none =>
      have sound := List.head?_eq_none_iff.mp fault
      obtain ⟨reason, -, rfl⟩ := Settings.unreadable_of_no_fault spoken opened named sound failed
      cases refusal
    | some first =>
      have refused := Settings.run_of_fault spoken opened named fault
      have refused' := Settings.run_of_fault spoken opened' named' (same ▸ fault)
      rw [refused] at failed
      cases failed
      rw [refused, refused']
      exact ⟨rfl, rfl, rfl, rfl⟩
  · intro error fault
    have member := List.mem_of_mem_head? fault
    refine ⟨settings.isRefusal_of_mem_faults member, ?_⟩
    rw [Settings.run_of_fault spoken opened named fault]
  · intro sound
    refine ⟨fun error => Settings.unreadable_of_no_fault spoken opened named sound, ?_⟩
    obtain ⟨prepared, checked⟩ := Settings.exists_prepared_of_no_fault sound
    refine ⟨prepared, checked, ?_⟩
    intro accepted key slot
    exact Grouping.slot_lt_size prepared.plan accepted

/-- Four faults, and the second of the aggregations comes first.  Behind the header one table has a
row, and the other a record that cannot be split and then a failure. -/
theorem run_refusal_told_by_header_unknown_column :
    let settings : Settings :=
      { groupBy := ["c"], aggregations := ["sum(b)", "max(d)"], filter? := some "a >", metric := "x" }
    let source : Source := [.bytes (Text.Utf8.encode "a,b\n1,2\n")]
    let source' : Source :=
      [.bytes (Text.Utf8.encode "\na,\"b\"\r\n\"3\"4,5\n"), .failure "reset"]
    let error : AnalysisError := .plan (.unknownColumn "d" "[a, b]")
    (settings.run "one.csv" source).result = .error error ∧
      (settings.run "two.csv" source').result = .error error ∧
      (settings.run "two.csv" source').malformed = [] := by
  intro settings source source' error
  obtain ⟨rows, opened⟩ : ∃ rows, Rows.ofSource {} "one.csv" source = .ok rows :=
    exists_ok_of_toBool (by decide +kernel)
  obtain ⟨rows', opened'⟩ : ∃ rows, Rows.ofSource {} "two.csv" source' = .ok rows :=
    exists_ok_of_toBool (by decide +kernel)
  have columns : (Rows.ofSource {} "one.csv" source).toOption.map Rows.header =
      some ⟨["a", "b"]⟩ := by decide +kernel
  have columns' : (Rows.ofSource {} "two.csv" source').toOption.map Rows.header =
      some ⟨["a", "b"]⟩ := by decide +kernel
  rw [opened] at columns
  rw [opened'] at columns'
  have header : rows.header = ⟨["a", "b"]⟩ := Option.some.inj columns
  have header' : rows'.header = ⟨["a", "b"]⟩ := Option.some.inj columns'
  have spoken : settings.dialect = .ok {} := rfl
  have named : rows.header.isEmpty = false := by
    rw [header]
    rfl
  obtain ⟨together, refused, -⟩ :=
    run_refusal_told_by_header spoken opened opened' (header'.trans header.symm) named
  have first : (settings.faults rows.header).head? = some error := by
    rw [header]
    decide +kernel
  obtain ⟨refusal, failed⟩ := refused error first
  obtain ⟨failed', -, silent, -⟩ := together error refusal failed
  exact ⟨failed, failed', silent⟩

end Rollup
