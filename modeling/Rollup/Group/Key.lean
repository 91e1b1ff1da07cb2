import Rollup.Table.Header

/-! Group keys: the values that a row has in the columns to group by.  Keys are ordered like
words of a dictionary, value by value, values by the code points of their characters, and a key
comes before its extensions.  The key without values stands for the one group of everything. -/

namespace Rollup.Group

open Table

structure Key where
  values : List String
  deriving DecidableEq, Repr, Hashable

namespace Key

def everything : Key := ⟨[]⟩

def ofRow (groupBy : List String) (row : Row) : Key := ⟨groupBy.map row.cell⟩

def isEverything (key : Key) : Bool := key.values.isEmpty

def label (separator : String) (key : Key) : String :=
  if key.isEverything then "(global)" else Text.joined separator key.values

def labelled (groupBy : List String) (key : Key) : List (String × String) :=
  groupBy.zip key.values

def atMost : List String → List String → Bool
  | [], _ => true
  | _ :: _, [] => false
  | a :: as, b :: bs => if a = b then atMost as bs else decide (a < b)

/-- Whether a key comes before another one or is the same. -/
def le (a b : Key) : Bool := atMost a.values b.values

def order (a b : Key) : Ordering := if a = b then .eq else if a.le b then .lt else .gt

theorem atMost_refl (values : List String) : atMost values values = true := by
  induction values with
  | nil => rfl
  | cons value values ih => simp [atMost, ih]

theorem length_ofRow (groupBy : List String) (row : Row) :
    (ofRow groupBy row).values.length = groupBy.length := by
  simp [ofRow]

end Key

end Rollup.Group
