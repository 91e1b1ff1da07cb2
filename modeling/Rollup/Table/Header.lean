import Rollup.Decimal.Digits
import Rollup.Text.Pieces

/-! Column names and rows.  A header is a list of names, and a name that occurs twice means its
last column.  A row holds exactly one value for each column of its header: short records are
filled up with empty values and surplus values are dropped. -/

namespace Rollup.Table

structure Header where
  names : List String
  deriving DecidableEq, Repr

def lastPosition? (name : String) : List String → Option Nat
  | [] => none
  | first :: rest =>
    match lastPosition? name rest with
    | some position => some (position + 1)
    | none => if first = name then some 0 else none

theorem lastPosition?_isSome_iff (name : String) (names : List String) :
    (lastPosition? name names).isSome = true ↔ name ∈ names := by
  induction names with
  | nil => simp [lastPosition?]
  | cons first rest ih =>
    unfold lastPosition?
    split
    case h_1 position found =>
      rw [found] at ih
      simp [ih.1 rfl]
    case h_2 absent =>
      rw [absent] at ih
      have outside : name ∉ rest := by simpa using ih
      by_cases same : first = name
      · simp [same]
      · simp [same, outside, Ne.symm same]

theorem lastPosition?_lt {name : String} {names : List String} {position : Nat}
    (found : lastPosition? name names = some position) : position < names.length := by
  induction names generalizing position with
  | nil => cases found
  | cons first rest ih =>
    unfold lastPosition? at found
    split at found
    case h_1 earlier inside =>
      cases found
      exact Nat.succ_lt_succ (ih inside)
    case h_2 =>
      split at found
      · cases found
        exact Nat.succ_pos _
      · cases found

theorem getElem?_of_lastPosition? {name : String} {names : List String} {position : Nat}
    (found : lastPosition? name names = some position) : names[position]? = some name := by
  induction names generalizing position with
  | nil => cases found
  | cons first rest ih =>
    unfold lastPosition? at found
    split at found
    case h_1 earlier inside =>
      cases found
      exact ih inside
    case h_2 =>
      split at found
      case isTrue same =>
        cases found
        exact congrArg some same
      case isFalse => cases found

namespace Header

def synthesized (count : Nat) : Header where
  names := (List.range count).map fun i => "column_" ++ Decimal.natural i

def size (header : Header) : Nat := header.names.length

def isEmpty (header : Header) : Bool := header.names.isEmpty

def position? (header : Header) (name : String) : Option Nat := lastPosition? name header.names

def contains (header : Header) (name : String) : Bool := (header.position? name).isSome

def describe (header : Header) : String := "[" ++ Text.joined ", " header.names ++ "]"

theorem contains_iff (header : Header) (name : String) :
    header.contains name = true ↔ name ∈ header.names :=
  lastPosition?_isSome_iff name header.names

end Header

/-- Makes a list of values exactly as long as needed. -/
def fitted (count : Nat) (values : List String) : List String :=
  values.take count ++ List.replicate (count - values.length) ""

theorem length_fitted (count : Nat) (values : List String) :
    (fitted count values).length = count := by
  simp only [fitted, List.length_append, List.length_take, List.length_replicate]
  omega

theorem fitted_of_length {count : Nat} {values : List String} (length : values.length = count) :
    fitted count values = values := by
  subst length
  rw [fitted, List.take_length, Nat.sub_self, List.replicate_zero, List.append_nil]

structure Row where
  header : Header
  values : List String
  aligned : values.length = header.size

namespace Row

def ofValues (header : Header) (values : List String) : Row where
  header := header
  values := fitted header.size values
  aligned := length_fitted header.size values

def ofPairs (pairs : List (String × String)) : Row where
  header := ⟨pairs.map (·.1)⟩
  values := pairs.map (·.2)
  aligned := by simp [Header.size]

def toList (row : Row) : List (String × String) := row.header.names.zip row.values

def get? (row : Row) (column : String) : Option String :=
  (row.header.position? column).bind (row.values[·]?)

/-- The cell of a column, empty when the row has no such column. -/
def cell (row : Row) (column : String) : String := (row.get? column).getD ""

theorem get?_isSome (row : Row) (column : String) :
    (row.get? column).isSome = row.header.contains column := by
  unfold get? Header.contains
  cases found : row.header.position? column with
  | none => rfl
  | some position =>
    have inside : position < row.values.length := by
      rw [row.aligned]
      exact lastPosition?_lt found
    simp [inside]

theorem values_ofPairs (pairs : List (String × String)) :
    (ofPairs pairs).toList = pairs := by
  induction pairs with
  | nil => rfl
  | cons pair rest ih =>
    simp only [toList, ofPairs, List.map_cons, List.zip_cons_cons] at ih ⊢
    rw [ih]

end Row

end Rollup.Table
