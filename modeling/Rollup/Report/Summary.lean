import Rollup.Json.Value
import Rollup.Named
import Rollup.Report.Text

/-! The summary of a run as an interchange value: the counts, every group with its key and the
requested values, and the ranking. -/

namespace Rollup.Report

open Rollup.Group Json

def keyValue (groupBy : List String) (key : Key) : Value :=
  .object (Named.ofList ((key.labelled groupBy).map fun (column, value) => (column, .text value)))

def groupValue (analysis : Analysis) (group : Key × Totals) : Value :=
  let (key, totals) := group
  .object <| Named.ofList <|
    ("groupKey", keyValue analysis.groupBy key) :: ("count", .natural totals.count) ::
      (measures analysis.operations).map fun operation =>
        (operation.fieldName, Value.ofOption .float (totals.value? operation))

def rankedValue (analysis : Analysis) (entry : Ranked) : Value :=
  .object <| Named.ofList
    [("groupKey", keyValue analysis.groupBy entry.key), (analysis.metric.name, .float entry.value)]

def summary (analysis : Analysis) : Value :=
  .object
    [("inputFile", .text analysis.input),
      ("totalRows", .natural analysis.totalRows),
      ("malformedRows", .natural analysis.malformedRows),
      ("matchedRows", .natural analysis.matchedRows),
      ("groups", .list (analysis.groups.map (groupValue analysis))),
      ("topN", .list (analysis.top.map (rankedValue analysis)))]

end Rollup.Report
