/-! Values under names, in the order in which the names first came.  Changing the value of a name
that is there leaves every name in its place, and a new name comes last.  Main statement: the
change is seen under its own name and under no other. -/

namespace Rollup.Named

variable {α : Type}

/-- Changes the value of a name, which is given to the change if it is there. -/
def revise (name : String) (change : Option α → α) : List (String × α) → List (String × α)
  | [] => [(name, change none)]
  | (first, old) :: rest =>
    if first = name then (first, change (some old)) :: rest
    else (first, old) :: revise name change rest

def put (name : String) (value : α) (entries : List (String × α)) : List (String × α) :=
  revise name (fun _ => value) entries

/-- Puts names and values one after another, so that a repeated name has its last value in its
first place. -/
def ofList (items : List (String × α)) : List (String × α) :=
  items.foldl (fun entries (name, value) => put name value entries) []

theorem lookup_revise (name other : String) (change : Option α → α)
    (entries : List (String × α)) :
    (revise name change entries).lookup other =
      if other = name then some (change (entries.lookup name)) else entries.lookup other := by
  induction entries with
  | nil =>
    by_cases same : other = name
    · simp [revise, same]
    · have aside : (other == name) = false := by simpa using same
      simp [revise, List.lookup_cons, same, aside]
  | cons entry rest ih =>
    obtain ⟨first, old⟩ := entry
    unfold revise
    split
    case isTrue named =>
      subst named
      by_cases same : other = first
      · simp [same]
      · have aside : (other == first) = false := by simpa using same
        simp [List.lookup_cons, same, aside]
    case isFalse differ =>
      by_cases ahead : other = first
      · subst ahead
        simp [differ]
      · have apart : (name == first) = false := by simpa using Ne.symm differ
        have aside : (other == first) = false := by simpa using ahead
        simp [List.lookup_cons, apart, aside, ih]

theorem revise_of_absent (name : String) (change : Option α → α) (entries : List (String × α))
    (absent : name ∉ entries.map (·.1)) :
    revise name change entries = entries ++ [(name, change none)] := by
  induction entries with
  | nil => rfl
  | cons entry rest ih =>
    obtain ⟨first, old⟩ := entry
    simp only [List.map_cons, List.mem_cons, not_or] at absent
    unfold revise
    rw [if_neg (Ne.symm absent.1), ih absent.2]
    rfl

end Rollup.Named
