import Rollup.Proofs.Group.Requests
import Rollup.Proofs.Run.Outline

/-! Ranking and reporting do not meet.  The plan of a run has the metric's operation besides the
requested ones, and both read the same totals; but what an operation tells of a group depends on
the rows of the group alone, whatever else the plan asks for.  Main statement: the metric and the
number of ranked groups leave the reported groups as they are, and the requested operations leave
the ranking as it is. -/

namespace Rollup

open Table Rollup.Filter Rollup.Group

namespace Group

theorem Operation.complete_of_parse? {text : String} {operation : Operation}
    (read : parse? text = some operation) : operation.Complete := by
  unfold parse? at read
  dsimp only at read
  split at read
  · cases read
    exact fun other => absurd rfl other
  · obtain ⟨⟨m, column⟩, -, rfl⟩ := Option.map_eq_some_iff.mp read
    exact fun _ => nofun

theorem complete_of_parseOperations {header : Header} {list : String}
    {operations : List Operation} (read : parseOperations header list = .ok operations) :
    ∀ operation ∈ operations, operation.Complete := by
  intro operation member
  rcases mem_of_parseOperations read member with rfl | ⟨token, -, parsed, -⟩
  · exact fun other => absurd rfl other
  · exact Operation.complete_of_parse? parsed

theorem Metric.complete {metric : Metric} {operation : Operation}
    (needed : metric.operation? = some operation) : operation.Complete := by
  cases metric with
  | count =>
    cases needed
    exact fun other => absurd rfl other
  | measure m column =>
    cases needed
    exact fun _ => nofun
  | unknown text => cases needed

end Group

structure Prepared.Sound (prepared : Prepared) : Prop where
  requested : ∀ operation ∈ prepared.requested, operation ∈ prepared.plan.operations
  complete : ∀ operation ∈ prepared.plan.operations, operation.Complete
  ranked : ∃ operation ∈ prepared.plan.operations, prepared.metric.operation? = some operation

theorem Settings.prepare_sound {settings : Settings} {header : Header} {prepared : Prepared}
    (checked : settings.prepare header = .ok prepared) : prepared.Sound := by
  obtain ⟨requested, filter, metric, -, read, -, -, ranked, rfl⟩ :=
    (settings.prepare_ok_iff header prepared).mp checked
  have complete := complete_of_parseOperations read
  cases needed : metric.operation? with
  | none =>
    cases metric with
    | unknown text => cases ranked
    | _ => cases needed
  | some operation =>
    have tracked : ∀ other, other ∈ (Plan.push ⟨settings.groupBy, requested⟩ operation).operations ↔
        other ∈ requested ∨ other = operation := mem_including requested operation
    refine ⟨?_, ?_, operation, (tracked operation).mpr (.inr rfl), needed⟩
    · exact fun other member => (tracked other).mpr (.inl member)
    · intro other member
      rcases (tracked other).mp member with old | rfl
      · exact complete other old
      · exact Metric.complete needed

theorem Settings.prepare_parts {settings : Settings} {header : Header} {prepared : Prepared}
    (checked : settings.prepare header = .ok prepared) :
    prepared.plan.groupBy = settings.groupBy ∧
      parseOperations header settings.aggregationList = .ok prepared.requested ∧
      Filter.compile header (settings.filter?.getD "") = .ok prepared.filter ∧
      prepared.metric = Metric.parse settings.metric := by
  obtain ⟨requested, filter, metric, named, read, -, compiled, -, rfl⟩ :=
    (settings.prepare_ok_iff header prepared).mp checked
  refine ⟨?_, read, compiled, named.symm⟩
  cases metric <;> rfl

/-- What an analysis reports: each group with its number of rows and the value of every requested
operation. -/
def Analysis.reported (analysis : Analysis) : List (Key × Nat × List (Option Float)) :=
  analysis.groups.map fun (key, totals) =>
    (key, totals.count, analysis.operations.map totals.value?)

namespace Prepared.Sound

variable {prepared : Prepared} (sound : prepared.Sound) (topCount : Nat) (content : Content)
include sound

/-- The report is computed from the accepted rows of each group. -/
theorem reported_eq : (prepared.analysisOf topCount content).reported =
    (sortedKeys prepared.plan.groupBy (prepared.accepted content)).map fun key =>
      let rows := rowsOf prepared.plan.groupBy key (prepared.accepted content)
      (key, rows.length, prepared.requested.map (·.over rows)) := by
  unfold Analysis.reported analysisOf
  dsimp only
  rw [Grouping.groups_acceptAll, List.map_map]
  apply List.map_congr_left
  intro key member
  have seen := (mem_sortedKeys _ _ _).mp member
  have values : prepared.requested.map
      (prepared.plan.totalsOf (prepared.accepted content) key).value? =
      prepared.requested.map
        (·.over (rowsOf prepared.plan.groupBy key (prepared.accepted content))) := by
    apply List.map_congr_left
    intro operation asked
    have tracked := sound.requested operation asked
    exact Plan.value?_totalsOf seen tracked (sound.complete operation tracked)
  simp only [Function.comp_apply, values]
  rw [Plan.totalsOf, Totals.count_ofRows]

theorem top_eq : ∃ operation, prepared.metric.operation? = some operation ∧
    (prepared.analysisOf topCount content).top =
      (((sortedKeys prepared.plan.groupBy (prepared.accepted content)).map fun key =>
        let rows := rowsOf prepared.plan.groupBy key (prepared.accepted content)
        (⟨key, (operation.over rows).getD (-Decimal.infinity) + 0.0⟩ : Ranked)).mergeSort
          Ranked.le).take topCount := by
  obtain ⟨operation, tracked, needed⟩ := sound.ranked
  refine ⟨operation, needed, ?_⟩
  show ranking _ _ ((Grouping.start prepared.plan).acceptAll (prepared.accepted content)).groups = _
  rw [ranking, Grouping.groups_acceptAll, List.map_map]
  congr 2
  apply List.map_congr_left
  intro key member
  have seen := (mem_sortedKeys _ _ _).mp member
  have told := Plan.value?_totalsOf seen tracked (sound.complete operation tracked)
  simp only [Function.comp_apply, Metric.value_eq, needed, Option.bind_some, told]

end Prepared.Sound

theorem Settings.same_content {first second : Settings} {input : String} {source : Source}
    {analysis other : Analysis} (spoken : second.dialect = first.dialect)
    (ran : (first.run input source).result = .ok analysis)
    (again : (second.run input source).result = .ok other) : ∃ content prepared prepared',
      first.prepare content.header = .ok prepared ∧
      analysis = prepared.analysisOf first.topCount content ∧
      second.prepare content.header = .ok prepared' ∧
      other = prepared'.analysisOf second.topCount content := by
  obtain ⟨dialect, content, chosen, opened, ended⟩ := (first.run_ok_iff _ _ _).mp ran
  obtain ⟨dialect', content', chosen', opened', ended'⟩ := (second.run_ok_iff _ _ _).mp again
  obtain rfl : dialect = dialect' := Except.ok.inj (chosen.symm.trans (spoken.symm.trans chosen'))
  obtain rfl : content = content' := Except.ok.inj (opened.symm.trans opened')
  obtain ⟨-, -, prepared, checked, rfl⟩ := (first.runOf_ok_iff _ _).mp ended
  obtain ⟨-, -, prepared', checked', rfl⟩ := (second.runOf_ok_iff _ _).mp ended'
  exact ⟨content, prepared, prepared', checked, rfl, checked', rfl⟩

theorem Settings.same_accepted {first second : Settings} {content : Content}
    {prepared prepared' : Prepared} (grouped : second.groupBy = first.groupBy)
    (filtered : second.filter? = first.filter?)
    (checked : first.prepare content.header = .ok prepared)
    (checked' : second.prepare content.header = .ok prepared') :
    prepared'.plan.groupBy = prepared.plan.groupBy ∧
      prepared'.accepted content = prepared.accepted content := by
  obtain ⟨groupBy, -, compiled, -⟩ := prepare_parts checked
  obtain ⟨groupBy', -, compiled', -⟩ := prepare_parts checked'
  rw [filtered] at compiled'
  have filter : prepared'.filter = prepared.filter :=
    Except.ok.inj (compiled'.symm.trans compiled)
  refine ⟨groupBy'.trans (grouped.trans groupBy.symm), ?_⟩
  rw [Prepared.accepted, filter, Prepared.accepted]

/-- Runs that differ in the ranking report the same, and runs that differ in the requested
operations rank the same. -/
theorem run_ranking_report_apart (settings : Settings) (input : String) (source : Source)
    {analysis : Analysis} (ran : (settings.run input source).result = .ok analysis) :
    (∀ topCount metric other,
      ({ settings with topCount := topCount, metric := metric }.run input source).result =
        .ok other →
      other.parsedRows = analysis.parsedRows ∧ other.malformedRows = analysis.malformedRows ∧
      other.matchedRows = analysis.matchedRows ∧ other.groupBy = analysis.groupBy ∧
      other.operations = analysis.operations ∧ other.reported = analysis.reported) ∧
    ∀ aggregations other,
      ({ settings with aggregations := aggregations }.run input source).result = .ok other →
      other.top = analysis.top := by
  constructor
  · intro topCount metric other again
    obtain ⟨content, prepared, prepared', checked, rfl, checked', rfl⟩ :=
      Settings.same_content (by rfl) ran again
    obtain ⟨groupBy, accepted⟩ := Settings.same_accepted (by rfl) (by rfl) checked checked'
    obtain ⟨-, read, -, -⟩ := Settings.prepare_parts checked
    obtain ⟨-, read', -, -⟩ := Settings.prepare_parts checked'
    have requested : prepared'.requested = prepared.requested :=
      Except.ok.inj (read'.symm.trans read)
    refine ⟨rfl, rfl, congrArg List.length accepted, groupBy, requested, ?_⟩
    rw [(Settings.prepare_sound checked).reported_eq, (Settings.prepare_sound checked').reported_eq,
      groupBy, requested, accepted]
  · intro aggregations other again
    obtain ⟨content, prepared, prepared', checked, rfl, checked', rfl⟩ :=
      Settings.same_content (by rfl) ran again
    obtain ⟨groupBy, accepted⟩ := Settings.same_accepted (by rfl) (by rfl) checked checked'
    obtain ⟨-, -, -, named⟩ := Settings.prepare_parts checked
    obtain ⟨-, -, -, named'⟩ := Settings.prepare_parts checked'
    obtain ⟨operation, needed, top⟩ :=
      (Settings.prepare_sound checked).top_eq settings.topCount content
    obtain ⟨operation', needed', top'⟩ :=
      (Settings.prepare_sound checked').top_eq settings.topCount content
    rw [named] at needed
    rw [named'] at needed'
    obtain rfl : operation' = operation := Option.some.inj (needed'.symm.trans needed)
    rw [top, top', groupBy, accepted]

/-- A metric that is not among the requested operations, then one that is. -/
theorem run_ranking_report_apart_two_groups :
    let settings : Settings :=
      { groupBy := ["k"], aggregations := ["sum(v)"], metric := "max_v" }
    let source : Source :=
      [.bytes (Text.Utf8.encode "k,v\nb,1\na,2\n"), .bytes (Text.Utf8.encode "b,x")]
    ∃ analysis ranked asked, (settings.run "t.csv" source).result = .ok analysis ∧
      ({ settings with topCount := 1, metric := "count" }.run "t.csv" source).result =
        .ok ranked ∧
      ranked.operations = analysis.operations ∧ ranked.reported = analysis.reported ∧
      ({ settings with aggregations := ["max(v)", "count"] }.run "t.csv" source).result =
        .ok asked ∧
      asked.top = analysis.top := by
  intro settings source
  obtain ⟨analysis, ran⟩ : ∃ analysis, (settings.run "t.csv" source).result = .ok analysis :=
    exists_ok_of_toBool (by decide +kernel)
  obtain ⟨ranked, ran'⟩ : ∃ ranked,
      ({ settings with topCount := 1, metric := "count" }.run "t.csv" source).result =
        .ok ranked :=
    exists_ok_of_toBool (by decide +kernel)
  obtain ⟨asked, ran''⟩ : ∃ asked,
      ({ settings with aggregations := ["max(v)", "count"] }.run "t.csv" source).result =
        .ok asked :=
    exists_ok_of_toBool (by decide +kernel)
  obtain ⟨reporting, ranking⟩ := run_ranking_report_apart settings "t.csv" source ran
  obtain ⟨-, -, -, -, operations, reported⟩ := reporting 1 "count" ranked ran'
  exact ⟨analysis, ranked, asked, ran, ran', operations, reported, ran'',
    ranking ["max(v)", "count"] asked ran''⟩

end Rollup
