import Rollup.Analysis
import Rollup.Decimal.Fixed

/-! The text report: one block per group in key order, then the ranking.  Whole numbers are
written without places and all others with two. -/

namespace Rollup.Report

open Rollup.Group

/-- Whole numbers below `10 ^ 15` are written as integers. -/
def integerBound : Nat := Nat.pow 10 15

def number (x : Float) : String :=
  match Decimal.whole? x with
  | some size =>
    if size < integerBound then
      if Decimal.isNegative x ∧ size ≠ 0 then "-" ++ Decimal.natural size
      else Decimal.natural size
    else Decimal.fixed 2 x
  | none => Decimal.fixed 2 x

def line (parts : List String) : String := String.join parts ++ "\n"

def groupLabel (groupBy : List String) (key : Key) : String :=
  if key.isEverything then key.label ""
  else
    Text.joined ", " ((key.labelled groupBy).map fun (column, value) => column ++ "=" ++ value)

def operationLine (totals : Totals) (operation : Operation) : String :=
  line [operation.label, ": ", (totals.value? operation).elim "-" number]

def measures (operations : List Operation) : List Operation :=
  operations.filter (·.aggregate ≠ .count)

def groupBlock (analysis : Analysis) (group : Key × Totals) : String :=
  line ["GROUP: ", groupLabel analysis.groupBy group.1] ++
    line ["count: ", Decimal.natural group.2.count] ++
    String.join ((measures analysis.operations).map (operationLine group.2)) ++
    line ["---"]

def rankedLine (entry : Ranked × Nat) : String :=
  line [Decimal.natural (entry.2 + 1), ". ", entry.1.key.label " — ", " — ",
    number entry.1.value]

def rankingBlock (analysis : Analysis) : String :=
  if analysis.top.isEmpty then ""
  else
    line ["TOP ", Decimal.natural analysis.top.length, " (by ", analysis.metric.name, "):"] ++
      String.join (analysis.top.zipIdx.map rankedLine)

def text (analysis : Analysis) : String :=
  String.join (analysis.groups.map (groupBlock analysis)) ++ rankingBlock analysis

end Rollup.Report
