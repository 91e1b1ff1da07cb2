import Rollup.Filter.Compile
import Rollup.Group.Grouping
import Rollup.Group.Ranking
import Rollup.Settings.Basic
import Rollup.Table.Rows

/-! One whole run: open the table, check everything that the settings name against its header,
then filter and group the rows in one pass and rank the groups.  Nothing is read past the header
unless every check passes, and a failure to read ends the run without a result. -/

namespace Rollup

open Table Rollup.Filter Rollup.Group

inductive AnalysisError where
  | table (error : TableError)
  | filter (error : FilterError)
  | plan (error : PlanError)
  | settings (error : SettingsError)
  deriving DecidableEq, Repr

namespace AnalysisError

def message : AnalysisError → String
  | table error => "Table error: " ++ error.message
  | filter error => "Filter error: " ++ error.message
  | plan error => "Aggregation error: " ++ error.message
  | settings error => "Configuration error: " ++ error.message

def chain : AnalysisError → List String
  | table error => [message (table error), error.message] ++ error.cause?.toList
  | filter error => [message (filter error), error.message]
  | plan error => [message (plan error), error.message]
  | settings error => [message (settings error), error.message] ++ error.cause?.toList

end AnalysisError

structure Analysis where
  input : String
  parsedRows : Nat
  malformedRows : Nat
  matchedRows : Nat
  groupBy : List String
  operations : List Operation
  metric : Metric
  groups : List (Key × Totals)
  top : List Ranked

def Analysis.totalRows (analysis : Analysis) : Nat :=
  analysis.parsedRows + analysis.malformedRows

/-- What the settings ask for, checked against a header.  The plan has the metric's operation
besides the requested ones. -/
structure Prepared where
  plan : Plan
  requested : List Operation
  filter : Filter
  metric : Metric

namespace Settings

def prepare (settings : Settings) (header : Header) : Except AnalysisError Prepared := do
  let requested ← (parseOperations header settings.aggregationList).mapError .plan
  let plan : Plan := ⟨settings.groupBy, requested⟩
  (plan.validate header).mapError .plan
  let filter ← (Filter.compile header (settings.filter?.getD "")).mapError .filter
  let metric := Metric.parse settings.metric
  (metric.validate header).mapError .plan
  let tracked := metric.operation?.elim plan plan.push
  return ⟨tracked, requested, filter, metric⟩

def dialect (settings : Settings) : Except SettingsError Dialect := do
  let delimiter ← settings.delimiterByte
  return ⟨delimiter, settings.hasHeader⟩

end Settings

/-- The counts and groups so far; malformed records are kept last one first. -/
structure Progress where
  grouping : Grouping
  parsed : Nat := 0
  matched : Nat := 0
  malformed : List Malformed := []

namespace Progress

def addRow (filter : Filter) (progress : Progress) (row : Row) : Progress :=
  let counted := { progress with parsed := progress.parsed + 1 }
  if filter.accepts row then
    { counted with matched := progress.matched + 1, grouping := progress.grouping.accept row }
  else counted

def addMalformed (progress : Progress) (record : Malformed) : Progress :=
  { progress with malformed := record :: progress.malformed }

end Progress

/-- What a run gives: its result or its error, and the malformed records met on the way. -/
structure Run where
  result : Except AnalysisError Analysis
  malformed : List Malformed := []

namespace Prepared

/-- The result of a run whose rows have all been read, with the table's own count of the records
that it passed over. -/
def conclude (prepared : Prepared) (topCount : Nat) (rows : Rows) (progress : Progress) :
    Analysis :=
  let groups := progress.grouping.finalize.toList
  { input := rows.input
    parsedRows := progress.parsed
    malformedRows := rows.malformed
    matchedRows := progress.matched
    groupBy := prepared.plan.groupBy
    operations := prepared.requested
    metric := prepared.metric
    groups := groups
    top := ranking prepared.metric topCount groups }

/-- One pass over the rows, which filters and groups them. -/
def passage (prepared : Prepared) (rows : Rows) : Rows.Passage Progress :=
  rows.pass (Progress.addRow prepared.filter) Progress.addMalformed
    { grouping := .start prepared.plan }

def run (prepared : Prepared) (topCount : Nat) (rows : Rows) : Run :=
  let passage := prepared.passage rows
  { result :=
      match passage.failure? with
      | some error => .error (.table error)
      | none => .ok (prepared.conclude topCount passage.rest.close passage.state)
    malformed := passage.state.malformed.reverse }

end Prepared

namespace Settings

def runOn (settings : Settings) (rows : Rows) : Run :=
  if rows.header.isEmpty then { result := .error (.table (.emptyHeader rows.input)) }
  else
    match settings.prepare rows.header with
    | .error error => { result := .error error }
    | .ok prepared => prepared.run settings.topCount rows

/-- Runs on a source under a name. -/
def run (settings : Settings) (input : String) (source : Source) : Run :=
  match settings.dialect with
  | .error error => { result := .error (.settings error) }
  | .ok dialect =>
    match Rows.ofSource dialect input source with
    | .error error => { result := .error (.table error) }
    | .ok rows => settings.runOn rows

end Settings

end Rollup
