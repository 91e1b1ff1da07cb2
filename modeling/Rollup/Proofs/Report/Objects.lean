import Rollup.Proofs.Group.Lists
import Rollup.Proofs.Group.Precedence
import Rollup.Proofs.Json.Numbers
import Rollup.Proofs.Run.Independence
import Rollup.Report.Summary

/-! The objects of a summary.  A field that is put under a name already there would take the place
of the first one, so no object may name two of its fields alike.  Field names begin with the name of
an aggregate, which has no underscore in it: an operation can be told from its field name, whatever
its column is called, and no operation has the name of a key.  The columns to group by may repeat,
but then they have the same cell in every row.  Main statement: in the summary of a run nothing is
put in the place of anything else. -/

namespace Rollup

open Table Rollup.Group Json

namespace Named

variable {α : Type}

theorem ofList_concat (items : List (String × α)) (name : String) (value : α) :
    ofList (items ++ [(name, value)]) = put name value (ofList items) := by
  simp [ofList]

theorem ofList_of_nodup {items : List (String × α)} (single : (items.map Prod.fst).Nodup) :
    ofList items = items := by
  induction items using List.reverseRecOn with
  | nil => rfl
  | append_singleton items item ih =>
    obtain ⟨name, value⟩ := item
    rw [List.map_append, List.nodup_append] at single
    obtain ⟨front, -, apart⟩ := single
    rw [ofList_concat, ih front, put, revise_of_absent]
    exact fun member => apart name member name (by simp) rfl

theorem put_of_lookup {name : String} {value : α} {entries : List (String × α)}
    (there : entries.lookup name = some value) : put name value entries = entries := by
  induction entries with
  | nil => cases there
  | cons entry rest ih =>
    obtain ⟨first, old⟩ := entry
    unfold put revise
    split
    case isTrue same =>
      rw [same, List.lookup_cons_self] at there
      rw [Option.some.inj there]
    case isFalse differ =>
      have aside : (name == first) = false := by simpa using Ne.symm differ
      rw [List.lookup_cons, aside] at there
      exact congrArg ((first, old) :: ·) (ih there)

theorem ofList_graph (names : List String) (value : String → α) :
    ofList (names.map fun name => (name, value name)) =
      names.eraseDups.map fun name => (name, value name) := by
  induction names using List.reverseRecOn with
  | nil => rfl
  | append_singleton names name ih =>
    rw [List.map_append, List.map_singleton, ofList_concat, ih, ← distinct_eq_eraseDups,
      ← distinct_eq_eraseDups, distinct_concat, including]
    split
    case isTrue there => exact put_of_lookup (List.lookup_graph value there)
    case isFalse absent =>
      rw [List.map_append, List.map_singleton, put, revise_of_absent]
      simpa using absent

end Named

namespace Group

open Text

theorem Aggregate.name_injective {a b : Aggregate} (same : a.name = b.name) : a = b := by
  have found := a.ofName?_name
  rw [same, b.ofName?_name] at found
  exact (Option.some.inj found).symm

namespace Operation

def suffix (operation : Operation) : List Char :=
  operation.column?.elim [] ('_' :: ·.toList)

theorem toList_fieldName (operation : Operation) :
    operation.fieldName.toList = operation.aggregate.name.toList ++ operation.suffix := by
  unfold fieldName suffix
  cases operation.column? <;> simp

theorem takeWhile_fieldName (operation : Operation) :
    operation.fieldName.toList.takeWhile (· ≠ '_') = operation.aggregate.name.toList := by
  have letters : operation.aggregate.name.toList.all (· ≠ '_') = true := by
    cases operation.aggregate with
    | count => rfl
    | measure m => exact m.all_ne_underscore
  have ends : Halts (fun c => decide (c ≠ '_')) operation.suffix := by
    unfold suffix
    cases operation.column? with
    | none => exact halts_nil
    | some column => exact halts_cons (by rfl)
  rw [toList_fieldName, takeWhile_append_of_halts (List.all_eq_true.mp letters) ends]

theorem fieldName_injective : Function.Injective fieldName := by
  intro a b same
  have front : a.aggregate = b.aggregate := by
    apply Aggregate.name_injective
    rw [← String.toList_inj, ← takeWhile_fieldName, same, takeWhile_fieldName]
  have whole : a.aggregate.name.toList ++ a.suffix = a.aggregate.name.toList ++ b.suffix := by
    rw [← toList_fieldName, same, toList_fieldName, front]
  have back : a.suffix = b.suffix := List.append_cancel_left whole
  obtain ⟨aggregate, column?⟩ := a
  obtain ⟨_, column?'⟩ := b
  obtain rfl := front
  cases column? with
  | none =>
    cases column?' with
    | none => rfl
    | some other => cases back
  | some column =>
    cases column?' with
    | none => cases back
    | some other => rw [String.toList_inj.mp (List.cons.inj back).2]

theorem fieldName_ne_groupKey (operation : Operation) : operation.fieldName ≠ "groupKey" := by
  intro same
  have front := operation.takeWhile_fieldName
  rw [same] at front
  cases kind : operation.aggregate with
  | count =>
    rw [kind] at front
    exact absurd front (by decide)
  | measure m =>
    rw [kind] at front
    cases m <;> exact absurd front (by decide)

theorem Written.aggregate_eq_count_iff {cs : List Char} {operation : Operation}
    (written : Written cs operation) : operation.aggregate = .count ↔ operation = .count := by
  cases written with
  | count named => exact iff_of_true rfl rfl
  | call named blank present plain => exact iff_of_false nofun nofun

theorem fieldName_ne_count {operation : Operation} (other : operation ≠ count) :
    operation.fieldName ≠ "count" :=
  fun same => other (fieldName_injective same)

end Operation

theorem Metric.name_of_operation? {metric : Metric} {operation : Operation}
    (needed : metric.operation? = some operation) : metric.name = operation.fieldName := by
  cases metric <;> cases needed <;> rfl

section

variable {header : Header} {list : String} {operations : List Operation}
  (read : parseOperations header list = .ok operations)
include read

theorem nodup_of_parseOperations : operations.Nodup := by
  obtain ⟨asked, -, rfl⟩ := parseOperations_ok_iff.mp read
  split
  · exact List.nodup_singleton _
  · rw [← distinct_eq_eraseDups]
    exact nodup_distinct asked

theorem aggregate_eq_count_iff {operation : Operation} (member : operation ∈ operations) :
    operation.aggregate = .count ↔ operation = .count := by
  rcases mem_of_parseOperations read member with rfl | ⟨token, -, parsed, -⟩
  · simp [Operation.count]
  · exact (Operation.parse?_eq_some_iff.mp parsed).aggregate_eq_count_iff

theorem measures_of_parseOperations :
    Report.measures operations = operations.filter (· ≠ .count) := by
  apply List.filter_congr
  intro operation member
  simp only [ne_eq, aggregate_eq_count_iff read member]

end

end Group

namespace Json

def Value.field? (value : Value) (name : String) : Option Value :=
  match value with
  | .object fields => fields.lookup name
  | _ => none

theorem Value.pretty_ofOption_eq_null_iff (depth : Nat) (told : Option Float) :
    (Value.ofOption .float told).pretty depth = "null".toList ↔
      ∀ value, told = some value → value.isFinite = false := by
  cases told with
  | none => exact iff_of_true rfl nofun
  | some x =>
    simp only [Option.some.injEq, forall_eq']
    exact floatText_eq_null_iff x

end Json

namespace Report

section

variable (groupBy : List String) (row : Row)

def cellFields : List (String × Value) :=
  groupBy.eraseDups.map fun column => (column, .text (row.cell column))

theorem keyValue_ofRow :
    keyValue groupBy (.ofRow groupBy row) = .object (cellFields groupBy row) := by
  have labelled : (Key.ofRow groupBy row).labelled groupBy =
      groupBy.map fun column => (column, row.cell column) := List.map_prod_left_eq_zip.symm
  rw [keyValue, labelled, List.map_map, cellFields]
  exact congrArg Value.object (Named.ofList_graph groupBy fun column => Value.text (row.cell column))

variable {groupBy} in
theorem field?_keyValue {column : String} (member : column ∈ groupBy) :
    (keyValue groupBy (.ofRow groupBy row)).field? column = some (.text (row.cell column)) := by
  rw [keyValue_ofRow]
  exact List.lookup_graph _ (List.mem_eraseDups.mpr member)

end

/-- Rows of different groups differ in a column to group by. -/
theorem exists_cell_ne {groupBy : List String} {row other : Row}
    (differ : Key.ofRow groupBy row ≠ .ofRow groupBy other) :
    ∃ column ∈ groupBy, row.cell column ≠ other.cell column := by
  by_contra! same
  exact differ (congrArg Key.mk (List.map_congr_left same))

/-- The fields of a group: its key, its number of rows and what each requested operation but
counting tells of it. -/
def groupFields (analysis : Analysis) (group : Key × Totals) : List (String × Value) :=
  ("groupKey", keyValue analysis.groupBy group.1) :: ("count", .natural group.2.count) ::
    (analysis.operations.filter (· ≠ .count)).map fun operation =>
      (operation.fieldName, .ofOption .float (group.2.value? operation))

/-- The fields of a place in the ranking. -/
def rankedFields (analysis : Analysis) (entry : Ranked) : List (String × Value) :=
  [("groupKey", keyValue analysis.groupBy entry.key), (analysis.metric.name, .float entry.value)]

section

variable {header : Header} {list : String} {analysis : Analysis}
  (read : parseOperations header list = .ok analysis.operations)
include read

theorem nodup_groupFields (group : Key × Totals) :
    ((groupFields analysis group).map Prod.fst).Nodup := by
  have names : (groupFields analysis group).map Prod.fst = "groupKey" :: "count" ::
      (analysis.operations.filter (· ≠ .count)).map Operation.fieldName := by
    simp [groupFields, Function.comp_def]
  have single := (nodup_of_parseOperations read).filter (· ≠ .count)
  rw [names, List.nodup_cons, List.nodup_cons]
  refine ⟨?_, ?_, single.map Operation.fieldName_injective⟩
  · rw [List.mem_cons, List.mem_map]
    rintro (other | ⟨operation, -, same⟩)
    · exact absurd other (by decide)
    · exact operation.fieldName_ne_groupKey same
  · rw [List.mem_map]
    rintro ⟨operation, member, same⟩
    have other : operation ≠ .count := by simpa using (List.mem_filter.mp member).2
    exact Operation.fieldName_ne_count other same

theorem groupValue_eq (group : Key × Totals) :
    groupValue analysis group = .object (groupFields analysis group) := by
  have single := nodup_groupFields read group
  rw [← Named.ofList_of_nodup single, groupFields, groupValue, measures_of_parseOperations read]

end

theorem nodup_rankedFields {analysis : Analysis} {operation : Operation}
    (needed : analysis.metric.operation? = some operation) (entry : Ranked) :
    ((rankedFields analysis entry).map Prod.fst).Nodup := by
  have apart : "groupKey" ≠ analysis.metric.name := by
    rw [Metric.name_of_operation? needed]
    exact operation.fieldName_ne_groupKey.symm
  simpa [rankedFields] using apart

theorem rankedValue_eq {analysis : Analysis} {operation : Operation}
    (needed : analysis.metric.operation? = some operation) (entry : Ranked) :
    rankedValue analysis entry = .object (rankedFields analysis entry) := by
  rw [← Named.ofList_of_nodup (nodup_rankedFields needed entry)]
  rfl

/-- What the summary of an analysis of some rows shows.  Every group has one object, by ascending
key, and every place in the ranking has one; none of these objects has two fields of one name.  The
key of a group gives the cells that all of its rows have in the columns to group by, and the keys of
two groups differ in one of them. -/
structure Shown (analysis : Analysis) (rows : List Row) : Prop where
  groups : (summary analysis).field? "groups" =
    some (.list (analysis.groups.map fun group => .object (groupFields analysis group)))
  groupNames : ∀ group, ((groupFields analysis group).map Prod.fst).Nodup
  ascending : analysis.groups.Pairwise fun a b => a.1.values < b.1.values
  keys : ∀ key, key ∈ analysis.groups.map Prod.fst ↔
    ∃ row ∈ rows, Key.ofRow analysis.groupBy row = key
  counts : ∀ group ∈ analysis.groups,
    group.2.count = (rowsOf analysis.groupBy group.1 rows).length
  values : ∀ group ∈ analysis.groups, ∀ operation ∈ analysis.operations,
    group.2.value? operation = operation.over (rowsOf analysis.groupBy group.1 rows)
  cells : ∀ group ∈ analysis.groups, ∀ row ∈ rowsOf analysis.groupBy group.1 rows,
    keyValue analysis.groupBy group.1 = .object (cellFields analysis.groupBy row)
  apart : ∀ a ∈ analysis.groups, ∀ b ∈ analysis.groups, a.1 ≠ b.1 →
    ∃ column ∈ analysis.groupBy, (keyValue analysis.groupBy a.1).field? column ≠
      (keyValue analysis.groupBy b.1).field? column
  top : (summary analysis).field? "topN" =
    some (.list (analysis.top.map fun entry => .object (rankedFields analysis entry)))
  topNames : ∀ entry, ((rankedFields analysis entry).map Prod.fst).Nodup
  ranked : ∀ entry ∈ analysis.top, ∃ totals, (entry.key, totals) ∈ analysis.groups ∧
    entry.value = analysis.metric.value totals + 0.0

theorem exists_row_of_mem_groups {prepared : Prepared} {topCount : Nat} {content : Content}
    {group : Key × Totals} (member : group ∈ (prepared.analysisOf topCount content).groups) :
    ∃ row ∈ prepared.accepted content, Key.ofRow prepared.plan.groupBy row = group.1 ∧
      group.2 = prepared.plan.totalsOf (prepared.accepted content) group.1 := by
  have listed : (prepared.analysisOf topCount content).groups = _ :=
    Grouping.groups_acceptAll prepared.plan (prepared.accepted content)
  rw [listed] at member
  obtain ⟨key, there, rfl⟩ := List.mem_map.mp member
  obtain ⟨row, accepted, same⟩ := (mem_sortedKeys _ _ _).mp there
  exact ⟨row, accepted, same, rfl⟩

theorem shown_analysisOf {settings : Settings} {header : Header} {prepared : Prepared}
    (checked : settings.prepare header = .ok prepared) (topCount : Nat) (content : Content) :
    Shown (prepared.analysisOf topCount content) (prepared.accepted content) := by
  have sound := Settings.prepare_sound checked
  obtain ⟨-, read, -, -⟩ := Settings.prepare_parts checked
  obtain ⟨operation, -, needed⟩ := sound.ranked
  constructor
  case groups =>
    rw [← funext (groupValue_eq read)]
    rfl
  case groupNames => exact nodup_groupFields read
  case ascending => exact (Grouping.holds_acceptAll _ _).ascending
  case keys =>
    intro key
    have keys : (prepared.analysisOf topCount content).groups.map Prod.fst = _ :=
      Grouping.keys_groups_acceptAll prepared.plan (prepared.accepted content)
    rw [keys]
    exact mem_sortedKeys _ _ _
  case counts =>
    intro group member
    obtain ⟨row, -, -, totals⟩ := exists_row_of_mem_groups member
    rw [totals, Plan.totalsOf, Totals.count_ofRows]
    rfl
  case values =>
    intro group member asked requested
    obtain ⟨row, accepted, same, totals⟩ := exists_row_of_mem_groups member
    have tracked := sound.requested asked requested
    rw [totals]
    exact Plan.value?_totalsOf ⟨row, accepted, same⟩ tracked (sound.complete asked tracked)
  case cells =>
    intro group member row theirs
    have same : Key.ofRow prepared.plan.groupBy row = group.1 :=
      of_decide_eq_true (List.mem_filter.mp theirs).2
    rw [← same]
    exact keyValue_ofRow _ row
  case apart =>
    intro a first b second differ
    obtain ⟨row, -, same, -⟩ := exists_row_of_mem_groups first
    obtain ⟨other, -, same', -⟩ := exists_row_of_mem_groups second
    rw [← same, ← same'] at differ ⊢
    obtain ⟨column, member, cells⟩ := exists_cell_ne differ
    refine ⟨column, member, ?_⟩
    show (keyValue prepared.plan.groupBy _).field? column ≠
      (keyValue prepared.plan.groupBy _).field? column
    rw [field?_keyValue row member, field?_keyValue other member]
    simpa using cells
  case top =>
    rw [← funext (rankedValue_eq needed)]
    rfl
  case topNames => exact nodup_rankedFields needed
  case ranked =>
    intro entry member
    obtain ⟨group, there, rfl⟩ := mem_standings.mp (List.mem_of_mem_take member)
    exact ⟨group.2, there, rfl⟩

/-- The objects of a summary.  No two operations have the same field name, and none has the name of
a key or, but for counting, of the number of rows.  A run that succeeds has read the requested
operations, each once, and its summary shows every group and every place in the ranking with all of
their fields; a value is written as null exactly when there is none or it is not finite. -/
theorem summary_overwrites_nothing {settings : Settings} {input : String} {source : Source}
    {analysis : Analysis} (ran : (settings.run input source).result = .ok analysis) :
    (Function.Injective Operation.fieldName ∧
      (∀ operation : Operation, operation.fieldName ≠ "groupKey") ∧
      ∀ operation, operation ≠ Operation.count → operation.fieldName ≠ "count") ∧
    (∀ depth told, (Value.ofOption .float told).pretty depth = "null".toList ↔
      ∀ value, told = some value → value.isFinite = false) ∧
    ∃ dialect content prepared, settings.dialect = .ok dialect ∧
      contentOf dialect input (filled dialect.delimiter { source := source }) = .ok content ∧
      settings.prepare content.header = .ok prepared ∧
      parseOperations content.header settings.aggregationList = .ok analysis.operations ∧
      analysis.operations.Nodup ∧
      analysis.groupBy = settings.groupBy ∧
      analysis.metric = Metric.parse settings.metric ∧
      Shown analysis (prepared.accepted content) := by
  obtain ⟨dialect, content, spoken, opened, ran'⟩ := (settings.run_ok_iff _ _ _).mp ran
  obtain ⟨-, -, prepared, checked, rfl⟩ := (settings.runOf_ok_iff _ _).mp ran'
  obtain ⟨groupBy, read, -, metric⟩ := Settings.prepare_parts checked
  exact ⟨⟨Operation.fieldName_injective, Operation.fieldName_ne_groupKey,
      fun _ => Operation.fieldName_ne_count⟩, Value.pretty_ofOption_eq_null_iff,
    dialect, content, prepared, spoken, opened, checked, read, nodup_of_parseOperations read,
    groupBy, metric, shown_analysisOf checked settings.topCount content⟩

/-- A column that is listed twice, an operation that is asked for again, a column with an
underscore, and a group without a number to rank it by. -/
theorem summary_overwrites_nothing_listed_twice :
    let settings : Settings :=
      { groupBy := ["k", "k"], aggregations := ["sum(v)", "max(v_v)", "SUM(v)", "count"],
        metric := "max_v_v" }
    let source : Source :=
      [.bytes (Text.Utf8.encode "k,v,v_v\nb,1,2\na,2,\n"), .bytes (Text.Utf8.encode "b,x,3")]
    ∃ analysis, (settings.run "t.csv" source).result = .ok analysis ∧
      analysis.operations.Nodup ∧ analysis.groupBy = ["k", "k"] ∧
      analysis.metric = .measure .maximum "v_v" ∧
      ∃ rows, Shown analysis rows ∧ ∀ group ∈ analysis.groups, ∃ row ∈ rows,
        keyValue analysis.groupBy group.1 = .object [("k", .text (row.cell "k"))] := by
  intro settings source
  obtain ⟨analysis, ran⟩ : ∃ analysis, (settings.run "t.csv" source).result = .ok analysis :=
    exists_ok_of_toBool (by decide +kernel)
  obtain ⟨-, -, dialect, content, prepared, -, -, -, -, single, groupBy, metric, shown⟩ :=
    summary_overwrites_nothing ran
  refine ⟨analysis, ran, single, groupBy, metric.trans (by decide +kernel), _, shown, ?_⟩
  intro group member
  obtain ⟨row, accepted, same⟩ := (shown.keys group.1).mp (List.mem_map_of_mem member)
  have theirs : row ∈ rowsOf analysis.groupBy group.1 (prepared.accepted content) :=
    List.mem_filter.mpr ⟨accepted, decide_eq_true same⟩
  refine ⟨row, accepted, (shown.cells group member row theirs).trans ?_⟩
  rw [groupBy]
  rfl

end Report

end Rollup
