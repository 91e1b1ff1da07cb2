import Mathlib.Data.List.Induction
import Std.Data.HashMap
import Rollup.Table.Header

/-! Looking up columns.  A name means its last place among the names, whether these are searched or
entered into a map from the first on, a later place over an earlier one.  Main statement: a row has
one value for each name of its header, and a name gives the value at its last place, which is empty
where the record was too short for it. -/

namespace Rollup.Table

structure IsLast (names : List String) (name : String) (position : Nat) : Prop where
  here : names[position]? = some name
  last : ∀ later, names[later]? = some name → later ≤ position

/-- The places of names, entered from the first name on. -/
def placesOf (names : List String) : Std.HashMap String Nat :=
  names.zipIdx.foldl (fun places (name, place) => places.insert name place) {}

def lastValue? (name : String) (pairs : List (String × String)) : Option String :=
  ((pairs.filter (·.1 = name)).map (·.2)).getLast?

section Concat

variable (names : List String) (last name : String)

theorem isLast_concat_iff (position : Nat) : IsLast (names ++ [last]) name position ↔
    if last = name then position = names.length else IsLast names name position := by
  split
  case isTrue same =>
    subst same
    constructor
    · intro found
      have reaches := found.last names.length (by simp)
      have inside := (List.getElem?_eq_some_iff.mp found.here).1
      rw [List.length_append, List.length_singleton] at inside
      omega
    · rintro rfl
      refine ⟨by simp, fun later there => ?_⟩
      have inside := (List.getElem?_eq_some_iff.mp there).1
      rw [List.length_append, List.length_singleton] at inside
      omega
  case isFalse other =>
    have earlier (place : Nat) :
        (names ++ [last])[place]? = some name ↔ names[place]? = some name := by
      rw [List.getElem?_append]
      split
      · rfl
      case isFalse past =>
        rw [List.getElem?_eq_none (Nat.not_lt.mp past), List.getElem?_singleton]
        split <;> simp [other]
    constructor
    · intro found
      exact ⟨(earlier position).mp found.here,
        fun later there => found.last later ((earlier later).mpr there)⟩
    · intro found
      exact ⟨(earlier position).mpr found.here,
        fun later there => found.last later ((earlier later).mp there)⟩

theorem lastPosition?_concat : lastPosition? name (names ++ [last]) =
    if last = name then some names.length else lastPosition? name names := by
  induction names with
  | nil => simp [lastPosition?]
  | cons first names ih =>
    rw [List.cons_append, lastPosition?, ih]
    by_cases same : last = name
    · simp [same]
    · rw [if_neg same, if_neg same, lastPosition?]

theorem getElem?_placesOf_concat : (placesOf (names ++ [last]))[name]? =
    if last = name then some names.length else (placesOf names)[name]? := by
  simp [placesOf, List.zipIdx_append, Std.HashMap.getElem?_insert]

theorem lastValue?_concat (pairs : List (String × String)) (value : String) :
    lastValue? name (pairs ++ [(last, value)]) =
      if last = name then some value else lastValue? name pairs := by
  unfold lastValue?
  rw [List.filter_append]
  split
  case isTrue same => simp [same]
  case isFalse other => simp [other]

end Concat

theorem lastPosition?_eq_some_iff (names : List String) (name : String) (position : Nat) :
    lastPosition? name names = some position ↔ IsLast names name position := by
  induction names using List.reverseRecOn with
  | nil =>
    constructor
    · intro found
      cases found
    · intro found
      cases found.here
  | append_singleton names last ih =>
    rw [lastPosition?_concat, isLast_concat_iff]
    split
    · rw [Option.some.injEq, eq_comm]
    · exact ih

theorem getElem?_placesOf (names : List String) (name : String) :
    (placesOf names)[name]? = lastPosition? name names := by
  induction names using List.reverseRecOn with
  | nil => exact Std.HashMap.getElem?_empty
  | append_singleton names last ih => rw [getElem?_placesOf_concat, lastPosition?_concat, ih]

theorem bind_lastPosition? (name : String) (pairs : List (String × String)) :
    (lastPosition? name (pairs.map (·.1))).bind ((pairs.map (·.2))[·]?) = lastValue? name pairs := by
  induction pairs using List.reverseRecOn with
  | nil => rfl
  | append_singleton pairs pair ih =>
    obtain ⟨last, value⟩ := pair
    rw [List.map_append, List.map_append, List.map_singleton, List.map_singleton,
      lastPosition?_concat, lastValue?_concat, ← ih]
    split
    · simp
    · cases found : lastPosition? name (pairs.map (·.1)) with
      | none => rfl
      | some position =>
        have inside := lastPosition?_lt found
        rw [List.length_map] at inside
        exact List.getElem?_append_left (by rwa [List.length_map])

theorem getElem?_fitted {count position : Nat} (values : List String) (inside : position < count) :
    (fitted count values)[position]? = some (values[position]?.getD "") := by
  unfold fitted
  by_cases given : position < values.length
  · rw [List.getElem?_append_left (by rw [List.length_take]; omega), List.getElem?_take_of_lt inside,
      List.getElem?_eq_getElem given, Option.getD_some]
  · have short := Nat.not_lt.mp given
    rw [List.take_of_length_le (by omega), List.getElem?_append_right short,
      List.getElem?_replicate_of_lt (by omega), List.getElem?_eq_none short, Option.getD_none]

namespace Row

theorem names_toList (row : Row) : row.toList.map (·.1) = row.header.names :=
  List.map_fst_zip (Nat.le_of_eq row.aligned.symm)

theorem values_toList (row : Row) : row.toList.map (·.2) = row.values :=
  List.map_snd_zip (Nat.le_of_eq row.aligned)

theorem get?_eq_lastValue? (row : Row) (column : String) :
    row.get? column = lastValue? column row.toList := by
  rw [← bind_lastPosition?, names_toList, values_toList]
  rfl

theorem ofPairs_eq_ofValues (pairs : List (String × String)) :
    ofPairs pairs = ofValues ⟨pairs.map (·.1)⟩ (pairs.map (·.2)) := by
  have whole : fitted (pairs.map (·.1)).length (pairs.map (·.2)) = pairs.map (·.2) :=
    fitted_of_length (by rw [List.length_map, List.length_map])
  simp only [ofPairs, ofValues, Header.size, whole]

/-- For a record of any length under any names, repeated ones too: a row has a value for each name,
and the header, the map of places and the row itself all take a name for the last column that is
called so.  A row made of pairs gives a name the value of its last pair. -/
theorem lookup_at_last_place (names values : List String) (column : String) :
    let header : Header := ⟨names⟩
    let row := ofValues header values
    (row.values.length = names.length ∧
      ∀ position < names.length, row.values[position]? = some (values[position]?.getD "")) ∧
    (row.toList.map (·.1) = names ∧ row.toList.map (·.2) = row.values) ∧
    ((row.get? column).isSome = true ↔ column ∈ names) ∧
    (header.contains column = true ↔ column ∈ names) ∧
    (∀ position, header.position? column = some position ↔ IsLast names column position) ∧
    (placesOf names)[column]? = header.position? column ∧
    (∀ position, IsLast names column position →
      row.get? column = some (values[position]?.getD "")) ∧
    row.get? column = lastValue? column row.toList ∧
    row.cell column = (lastValue? column row.toList).getD "" ∧
    ∀ pairs, ofPairs pairs = ofValues ⟨pairs.map (·.1)⟩ (pairs.map (·.2)) ∧
      (ofPairs pairs).get? column = lastValue? column pairs := by
  intro header row
  have contains : header.contains column = true ↔ column ∈ names := header.contains_iff column
  have read : row.get? column = lastValue? column row.toList := row.get?_eq_lastValue? column
  refine ⟨⟨row.aligned, fun position inside => getElem?_fitted values inside⟩,
    ⟨row.names_toList, row.values_toList⟩, ?_, contains, lastPosition?_eq_some_iff names column,
    getElem?_placesOf names column, ?_, read, congrArg (·.getD "") read, fun pairs => ?_⟩
  · rw [get?_isSome]
    exact contains
  · intro position last
    have found : header.position? column = some position :=
      (lastPosition?_eq_some_iff names column position).mpr last
    have value : row.values[position]? = some (values[position]?.getD "") :=
      getElem?_fitted values (lastPosition?_lt found)
    rw [← value]
    exact congrArg (·.bind (row.values[·]?)) found
  · refine ⟨ofPairs_eq_ofValues pairs, ?_⟩
    rw [get?_eq_lastValue?, values_ofPairs]

/-- The last place of a repeated name lies behind the end of a short record, and the surplus value
of a longer one belongs to no name. -/
theorem lookup_at_last_place_filled_up :
    let names := ["k", "v", "k"]
    let short := ofValues ⟨names⟩ ["a", "b"]
    let long := ofValues ⟨names⟩ ["a", "b", "c", "d"]
    IsLast names "k" 2 ∧ short.get? "k" = some "" ∧ long.get? "k" = some "c" ∧
    short.toList = [("k", "a"), ("v", "b"), ("k", "")] ∧
    (ofPairs [("k", "first"), ("k", "second")]).get? "k" = some "second" := by
  intro names short long
  obtain ⟨-, -, -, -, places, -, filled, -, -, paired⟩ := lookup_at_last_place names ["a", "b"] "k"
  obtain ⟨-, -, -, -, -, -, cut, -⟩ := lookup_at_last_place names ["a", "b", "c", "d"] "k"
  have last : IsLast names "k" 2 := (places 2).mp (by decide)
  exact ⟨last, filled 2 last, cut 2 last, by decide, (paired _).2.trans (by decide)⟩

end Row

end Rollup.Table
