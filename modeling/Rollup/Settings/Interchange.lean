import Rollup.Json.Shape
import Rollup.Json.Value
import Rollup.Settings.Basic

/-! Settings as interchange values.  Every field has a default, so any of them may be left out
when reading. -/

namespace Rollup.Settings

open Json

def fieldNames : List String :=
  ["input", "delimiter", "has_header", "filter", "group_by", "aggregations", "top_n",
    "top_n_metric"]

def toValue (settings : Settings) : Value :=
  .object
    [("input", Value.ofOption .text settings.input?),
      ("delimiter", .text (String.singleton settings.delimiter)),
      ("has_header", .boolean settings.hasHeader),
      ("filter", Value.ofOption .text settings.filter?),
      ("group_by", .list (settings.groupBy.map .text)),
      ("aggregations", .list (settings.aggregations.map .text)),
      ("top_n", .natural settings.topCount),
      ("top_n_metric", .text settings.metric)]

def ofNodeBy? (reader : Reader) (node : Node) : Option Settings := do
  let members ← node.members? reader fieldNames
  let usual : Settings := {}
  let texts? := Node.list? (Node.text? reader)
  let input ← members.defaulted? 0 usual.input? (Node.optional? (Node.text? reader))
  let delimiter ← members.defaulted? 1 usual.delimiter (Node.character? reader)
  let hasHeader ← members.defaulted? 2 usual.hasHeader Node.boolean?
  let filter ← members.defaulted? 3 usual.filter? (Node.optional? (Node.text? reader))
  let groupBy ← members.defaulted? 4 usual.groupBy texts?
  let aggregations ← members.defaulted? 5 usual.aggregations texts?
  let topCount ← members.defaulted? 6 usual.topCount (Node.natural? reader)
  let metric ← members.defaulted? 7 usual.metric (Node.text? reader)
  return ⟨input, delimiter, hasHeader, filter, groupBy, aggregations, topCount, metric⟩

def ofNode? : Node → Option Settings := ofNodeBy? .own

end Rollup.Settings
