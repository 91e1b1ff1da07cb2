import Rollup.Decimal.Numeral
import Rollup.Table.Header

/-! Conditions on rows and their meaning.  A text literal is compared with the raw cell and knows
only equality.  A number literal is compared with the number in the trimmed cell: a blank cell
is zero, and a cell that is no number fails every condition.  Terms are joined by `all` and
`any`, and nothing but the cells of the named columns decides. -/

namespace Rollup.Filter

open Table

inductive Comparison where
  | equal
  | notEqual
  | greater
  | less
  | greaterOrEqual
  | lessOrEqual
  deriving DecidableEq, Repr

namespace Comparison

def symbol : Comparison → String
  | equal => "=="
  | notEqual => "!="
  | greater => ">"
  | less => "<"
  | greaterOrEqual => ">="
  | lessOrEqual => "<="

/-- The comparisons, a longer symbol before its own beginning. -/
def all : List Comparison := [equal, notEqual, greaterOrEqual, lessOrEqual, greater, less]

theorem mem_all (comparison : Comparison) : comparison ∈ all := by
  cases comparison <;> decide

def isOrdering : Comparison → Bool
  | equal | notEqual => false
  | greater | less | greaterOrEqual | lessOrEqual => true

/-- Compares two numbers; no number is equal to itself or ordered if it is not a number. -/
def holds (comparison : Comparison) (actual expected : Float) : Bool :=
  match comparison with
  | equal => actual == expected
  | notEqual => !(actual == expected)
  | greater => expected < actual
  | less => actual < expected
  | greaterOrEqual => expected ≤ actual
  | lessOrEqual => actual ≤ expected

def holdsText (comparison : Comparison) (actual expected : String) : Bool :=
  match comparison with
  | equal => actual = expected
  | notEqual => actual ≠ expected
  | greater | less | greaterOrEqual | lessOrEqual => false

end Comparison

inductive Literal where
  | number (value : Float)
  | text (value : String)

def Literal.isText : Literal → Bool
  | .number _ => false
  | .text _ => true

structure Condition where
  column : String
  comparison : Comparison
  literal : Literal

/-- The number in a cell: zero in a blank one. -/
def cellNumber? (cell : String) : Option Float :=
  match Text.trim cell.toList with
  | [] => some 0.0
  | text => Decimal.read? text

def Condition.meets (condition : Condition) (cell : String) : Bool :=
  match condition.literal with
  | .text expected => condition.comparison.holdsText cell expected
  | .number expected =>
    match cellNumber? cell with
    | some actual => condition.comparison.holds actual expected
    | none => false

def Condition.accepts (condition : Condition) (row : Row) : Bool :=
  condition.meets (row.cell condition.column)

inductive Expression where
  | condition (condition : Condition)
  | all (terms : List Expression)
  | any (terms : List Expression)

namespace Expression

mutual

def accepts (row : Row) : Expression → Bool
  | condition c => c.accepts row
  | all terms => acceptsEvery row terms
  | any terms => acceptsSome row terms

def acceptsEvery (row : Row) : List Expression → Bool
  | [] => true
  | term :: terms => accepts row term && acceptsEvery row terms

def acceptsSome (row : Row) : List Expression → Bool
  | [] => false
  | term :: terms => accepts row term || acceptsSome row terms

end

mutual

def columns : Expression → List String
  | condition c => [c.column]
  | all terms => columnsOf terms
  | any terms => columnsOf terms

def columnsOf : List Expression → List String
  | [] => []
  | term :: terms => columns term ++ columnsOf terms

end

theorem acceptsEvery_eq (row : Row) (terms : List Expression) :
    acceptsEvery row terms = terms.all (accepts row) := by
  induction terms with
  | nil => simp [acceptsEvery]
  | cons term terms ih => simp [acceptsEvery, ih]

theorem acceptsSome_eq (row : Row) (terms : List Expression) :
    acceptsSome row terms = terms.any (accepts row) := by
  induction terms with
  | nil => simp [acceptsSome]
  | cons term terms ih => simp [acceptsSome, ih]

end Expression

end Rollup.Filter
