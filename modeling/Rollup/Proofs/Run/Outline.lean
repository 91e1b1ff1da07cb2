import Rollup.Analysis
import Rollup.Proofs.Group.Finalization
import Rollup.Proofs.Table.Events

/-! A run as a function of what its table holds.  The pass over the rows counts them, keeps the
accepted ones for the grouping, and lists the records passed over.  Main statement: a run succeeds
exactly when its dialect, its table and its settings pass, and no failure ends the table; its
analysis is then computed from the header and the events. -/

namespace Rollup

open Table Rollup.Filter Rollup.Group

theorem Progress.foldl_take (filter : Filter) (events : List Event) (progress : Progress) :
    events.foldl (Event.take (Progress.addRow filter) Progress.addMalformed) progress =
      let rows := events.filterMap Event.row?
      let accepted := rows.filter filter.accepts
      { grouping := progress.grouping.acceptAll accepted
        parsed := progress.parsed + rows.length
        matched := progress.matched + accepted.length
        malformed := (events.filterMap Event.skipped?).reverse ++ progress.malformed } := by
  induction events generalizing progress with
  | nil => rfl
  | cons event events ih =>
    rw [List.foldl_cons, ih]
    cases event with
    | row met =>
      by_cases kept : filter.accepts met = true
      · simp [Event.take, Event.row?, Event.skipped?, List.filterMap_cons, addRow, kept,
          Grouping.acceptAll, Nat.add_assoc, Nat.add_comm 1]
      · simp [Event.take, Event.row?, Event.skipped?, List.filterMap_cons, addRow, kept,
          Nat.add_assoc, Nat.add_comm 1]
    | skipped record =>
      simp [Event.take, Event.row?, Event.skipped?, List.filterMap_cons, addMalformed]

namespace Prepared

def accepted (prepared : Prepared) (content : Content) : List Row :=
  content.course.rows.filter prepared.filter.accepts

/-- The analysis of a table that is read to its end. -/
def analysisOf (prepared : Prepared) (topCount : Nat) (content : Content) : Analysis :=
  let accepted := prepared.accepted content
  let groups := ((Grouping.start prepared.plan).acceptAll accepted).groups
  { input := content.input
    parsedRows := content.course.rows.length
    malformedRows := content.course.skipped.length
    matchedRows := accepted.length
    groupBy := prepared.plan.groupBy
    operations := prepared.requested
    metric := prepared.metric
    groups := groups
    top := ranking prepared.metric topCount groups }

def runOf (prepared : Prepared) (topCount : Nat) (content : Content) : Run where
  result :=
    match content.course.failure? with
    | some error => .error (.table error)
    | none => .ok (prepared.analysisOf topCount content)
  malformed := content.course.skipped

theorem state_passage (prepared : Prepared) (rows : Rows) :
    (prepared.passage rows).state =
      let accepted := prepared.accepted rows.content
      { grouping := (Grouping.start prepared.plan).acceptAll accepted
        parsed := rows.course.rows.length
        matched := accepted.length
        malformed := rows.course.skipped.reverse } := by
  obtain ⟨state, -⟩ := rows.pass_eq_course (Progress.addRow prepared.filter) Progress.addMalformed
    { grouping := .start prepared.plan }
  rw [passage, state, Progress.foldl_take]
  simp only [Nat.zero_add, List.append_nil]
  rfl

/-- The groups that the grouping ends with are those of the accepted rows, and the table's own count
is the number of records passed over. -/
theorem conclude_passage (prepared : Prepared) (topCount : Nat) {rows : Rows}
    (fresh : rows.malformed = 0) :
    prepared.conclude topCount (prepared.passage rows).rest.close (prepared.passage rows).state =
      prepared.analysisOf topCount rows.content := by
  obtain ⟨-, -, input, malformed⟩ := rows.pass_eq_course
    (Progress.addRow prepared.filter) Progress.addMalformed { grouping := .start prepared.plan }
  have named : (prepared.passage rows).rest.close.input = rows.input := input
  have counted : (prepared.passage rows).rest.close.malformed = rows.course.skipped.length := by
    rw [fresh, Nat.zero_add] at malformed
    exact malformed
  simp only [conclude, state_passage, Grouping.finalize_acceptAll, named, counted]
  rfl

theorem run_eq (prepared : Prepared) (topCount : Nat) {rows : Rows}
    (fresh : rows.malformed = 0) :
    prepared.run topCount rows = prepared.runOf topCount rows.content := by
  obtain ⟨-, failure, -⟩ := rows.pass_eq_course (Progress.addRow prepared.filter)
    Progress.addMalformed { grouping := .start prepared.plan }
  have failed : (prepared.passage rows).failure? = rows.content.course.failure? := failure
  have told : (prepared.passage rows).state.malformed.reverse = rows.content.course.skipped := by
    rw [state_passage]
    exact List.reverse_reverse _
  rw [runOf, ← failed, ← told, ← prepared.conclude_passage topCount fresh]
  rfl

end Prepared

section

variable {ε δ α β : Type}

theorem bind_eq_ok_iff {first : Except ε α} {next : α → Except ε β} {value : β} :
    (first >>= next) = .ok value ↔ ∃ given, first = .ok given ∧ next given = .ok value := by
  cases first <;> simp [bind, Except.bind]

theorem mapError_eq_ok_iff {first : Except ε α} {change : ε → δ} {value : α} :
    first.mapError change = .ok value ↔ first = .ok value := by
  cases first with
  | error reason => exact ⟨nofun, nofun⟩
  | ok found => constructor <;> (intro same; cases same; rfl)

theorem exists_ok_of_toBool {result : Except ε α} (passed : result.toBool = true) :
    ∃ value, result = .ok value := by
  cases result with
  | error error => cases passed
  | ok value => exact ⟨value, rfl⟩

theorem exists_error_of_toBool {result : Except ε α} (failed : result.toBool = false) :
    ∃ error, result = .error error := by
  cases result with
  | error error => exact ⟨error, rfl⟩
  | ok value => cases failed

end

namespace Settings

def runOf (settings : Settings) (content : Content) : Run :=
  if content.header.isEmpty then { result := .error (.table (.emptyHeader content.input)) }
  else
    match settings.prepare content.header with
    | .error error => { result := .error error }
    | .ok prepared => prepared.runOf settings.topCount content

theorem runOn_eq (settings : Settings) {rows : Rows} (fresh : rows.malformed = 0) :
    settings.runOn rows = settings.runOf rows.content := by
  simp only [runOn, Prepared.run_eq _ _ fresh]
  rfl

/-- A run sees of its source only the outcomes of the calls for a record. -/
theorem run_eq (settings : Settings) (input : String) (source : Source) :
    settings.run input source =
      match settings.dialect with
      | .error error => { result := .error (.settings error) }
      | .ok dialect =>
        match contentOf dialect input (filled dialect.delimiter { source := source }) with
        | .error error => { result := .error (.table error) }
        | .ok content => settings.runOf content := by
  unfold run
  cases settings.dialect with
  | error error => rfl
  | ok dialect =>
    dsimp only
    rw [← content_ofSource]
    cases opened : Rows.ofSource dialect input source with
    | error error => rfl
    | ok rows => exact settings.runOn_eq (Rows.malformed_ofSource opened)

theorem prepare_ok_iff (settings : Settings) (header : Header) (prepared : Prepared) :
    settings.prepare header = .ok prepared ↔ ∃ requested filter metric,
      let plan : Plan := ⟨settings.groupBy, requested⟩
      Metric.parse settings.metric = metric ∧
      parseOperations header settings.aggregationList = .ok requested ∧
      plan.validate header = .ok () ∧
      Filter.compile header (settings.filter?.getD "") = .ok filter ∧
      metric.validate header = .ok () ∧
      prepared = ⟨metric.operation?.elim plan plan.push, requested, filter, metric⟩ := by
  unfold prepare
  generalize Metric.parse settings.metric = named
  simp only [bind_eq_ok_iff, mapError_eq_ok_iff]
  constructor
  · rintro ⟨requested, read, ⟨⟩, valid, filter, compiled, ⟨⟩, ranked, done⟩
    exact ⟨requested, filter, named, rfl, read, valid, compiled, ranked,
      (Except.ok.inj done).symm⟩
  · rintro ⟨requested, filter, metric, rfl, read, valid, compiled, ranked, rfl⟩
    exact ⟨requested, read, (), valid, filter, compiled, (), ranked, rfl⟩

theorem runOf_ok_iff (settings : Settings) (content : Content) (analysis : Analysis) :
    (settings.runOf content).result = .ok analysis ↔
      content.header.isEmpty = false ∧ content.course.failure? = none ∧
      ∃ prepared, settings.prepare content.header = .ok prepared ∧
        analysis = prepared.analysisOf settings.topCount content := by
  unfold runOf
  cases empty : content.header.isEmpty with
  | true => simp
  | false =>
    cases checked : settings.prepare content.header with
    | error error => simp
    | ok prepared =>
      cases ended : content.course.failure? with
      | some error => simp [Prepared.runOf, ended]
      | none => simp [Prepared.runOf, ended, eq_comm]

theorem run_ok_iff (settings : Settings) (input : String) (source : Source)
    (analysis : Analysis) : (settings.run input source).result = .ok analysis ↔
      ∃ dialect content, settings.dialect = .ok dialect ∧
        contentOf dialect input (filled dialect.delimiter { source := source }) = .ok content ∧
        (settings.runOf content).result = .ok analysis := by
  rw [run_eq]
  cases spoken : settings.dialect with
  | error error => simp
  | ok dialect =>
    dsimp only
    cases opened : contentOf dialect input (filled dialect.delimiter { source := source }) with
    | error error => simp [opened]
    | ok content => simp [opened]

section

variable {settings : Settings} {dialect : Dialect} {input : String} {source : Source}
  {content : Content} {prepared : Prepared}

theorem run_of_content (spoken : settings.dialect = .ok dialect)
    (opened : contentOf dialect input (filled dialect.delimiter { source := source }) =
      .ok content) : settings.run input source = settings.runOf content := by
  rw [run_eq, spoken]
  dsimp only
  rw [opened]

theorem runOf_of_prepared (named : content.header.isEmpty = false)
    (checked : settings.prepare content.header = .ok prepared) :
    settings.runOf content = prepared.runOf settings.topCount content := by
  rw [runOf, named, checked]
  rfl

end

end Settings

end Rollup
