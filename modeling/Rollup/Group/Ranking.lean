import Rollup.Decimal.Binary64
import Rollup.Group.Key
import Rollup.Group.Totals

/-! Ranking groups by a metric, the greatest value first and equal values by ascending key.  A
metric is written as a call or as a name; a text that is neither is kept and ranks nothing.
Values are compared in the total order of binary64, after adding zero, which lets the two zeros
tie. -/

namespace Rollup.Group

open Table

/-- What groups are ranked by. -/
inductive Metric where
  | count
  | measure (measure : Measure) (column : String)
  | unknown (text : String)
  deriving DecidableEq, Repr

namespace Metric

def named? (cs : List Char) : Option Metric :=
  let column := (cs.dropWhile (· ≠ '_')).drop 1
  if column = [] then none
  else do
    let m ← Measure.all.find? fun m =>
      Text.sameIgnoringCase m.name (String.ofList (cs.takeWhile (· ≠ '_')))
    return measure m (String.ofList column)

def parse (text : String) : Metric :=
  let token := Text.trim text.toList
  if Text.sameIgnoringCase "count" (String.ofList token) then count
  else
    match Operation.call? token with
    | some (m, column) => measure m column
    | none => (named? token).getD (unknown (String.ofList token))

def column? : Metric → Option String
  | measure _ column => some column
  | count | unknown _ => none

def operation? : Metric → Option Operation
  | count => some .count
  | measure m column => some (.measure m column)
  | unknown _ => none

def name : Metric → String
  | count => Operation.count.fieldName
  | measure m column => (Operation.measure m column).fieldName
  | unknown text => text

/-- The value of a group, least of all when there is none. -/
def value (metric : Metric) (totals : Totals) : Float :=
  match metric with
  | count => Float.ofNat totals.count
  | measure .sum column => totals.sum column
  | measure .average column => totals.average column
  | measure .minimum column => (totals.minimum? column).getD (-Decimal.infinity)
  | measure .maximum column => (totals.maximum? column).getD (-Decimal.infinity)
  | unknown _ => -Decimal.infinity

theorem value_eq (metric : Metric) (totals : Totals) :
    metric.value totals = (metric.operation?.bind totals.value?).getD (-Decimal.infinity) := by
  cases metric with
  | count => rfl
  | measure m column => cases m <;> rfl
  | unknown text => rfl

def validate (metric : Metric) (header : Header) : Except PlanError Unit :=
  match metric with
  | count => .ok ()
  | measure _ column =>
    if header.contains column then .ok ()
    else .error (.unknownMetricColumn metric.name column header.describe)
  | unknown text => .error (.unknownMetric text)

end Metric

/-- A group's place in a ranking. -/
structure Ranked where
  key : Key
  value : Float

def Ranked.le (a b : Ranked) : Bool :=
  let first := Decimal.rank a.value
  let second := Decimal.rank b.value
  second < first || (first == second && a.key.le b.key)

/-- The best groups, as many as wanted. -/
def ranking (metric : Metric) (wanted : Nat) (groups : List (Key × Totals)) : List Ranked :=
  ((groups.map fun (key, totals) => ⟨key, metric.value totals + 0.0⟩).mergeSort Ranked.le).take
    wanted

theorem length_ranking (metric : Metric) (wanted : Nat) (groups : List (Key × Totals)) :
    (ranking metric wanted groups).length = min wanted groups.length := by
  simp [ranking, List.length_mergeSort]

end Rollup.Group
