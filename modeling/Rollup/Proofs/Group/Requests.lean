import Rollup.Group.Ranking

/-! What may be wrong with a request.  Each token of an aggregation list and each column to group by
is judged on its own against the header, and a list is refused for the first one that fails.  Main
statement: reading a list ends with the first fault of its tokens, and an operation that was read
has its column in the header. -/

namespace Rollup.Group

open Table

def errorOf? {ε α : Type} : Except ε α → Option ε
  | .ok _ => none
  | .error error => some error

theorem errorOf?_eq_some_iff {ε α : Type} {result : Except ε α} {error : ε} :
    errorOf? result = some error ↔ result = .error error := by
  cases result <;> simp [errorOf?]

theorem errorOf?_eq_none_iff {ε α : Type} {result : Except ε α} :
    errorOf? result = none ↔ ∃ value, result = .ok value := by
  cases result <;> simp [errorOf?]

theorem errorOf?_map {ε α β : Type} (change : α → β) (result : Except ε α) :
    errorOf? (result.map change) = errorOf? result := by
  cases result <;> rfl

section

variable (header : Header)

/-- What is wrong with a token: it is no operation, or the header lacks its column. -/
def tokenFault? (token : String) : Option PlanError :=
  match Operation.parse? token with
  | none => some (.unrecognised token)
  | some operation =>
    (Plan.missing? header operation.column?.toList).map (.unknownColumn · header.describe)

def groupFault? (column : String) : Option PlanError :=
  if header.contains column then none else some (.unknownGroupColumn column header.describe)

variable {header}

theorem missing?_eq_none_iff {columns : List String} :
    Plan.missing? header columns = none ↔ ∀ column ∈ columns, header.contains column = true := by
  simp [Plan.missing?]

theorem mem_names_of_validate {plan : Plan} (valid : plan.validate header = .ok ())
    {column : String} (member : column ∈ plan.groupBy) : column ∈ header.names := by
  unfold Plan.validate at valid
  split at valid
  · cases valid
  case h_2 known =>
    exact (header.contains_iff column).mp (missing?_eq_none_iff.mp known column member)

theorem errorOf?_operationsFrom (chosen : List Operation) (tokens : List String) :
    errorOf? (operationsFrom header chosen tokens) =
      (tokens.filterMap (tokenFault? header)).head? := by
  induction tokens generalizing chosen with
  | nil => rfl
  | cons token tokens ih =>
    rw [operationsFrom, List.filterMap_cons, tokenFault?]
    cases Operation.parse? token with
    | none => rfl
    | some operation =>
      dsimp only
      cases Plan.missing? header operation.column?.toList with
      | some column => rfl
      | none => exact ih _

theorem errorOf?_parseOperations (list : String) :
    errorOf? (parseOperations header list) =
      ((Text.listItems list).filterMap (tokenFault? header)).head? := by
  rw [parseOperations, errorOf?_map, errorOf?_operationsFrom]

theorem mem_of_operationsFrom {chosen operations : List Operation} {tokens : List String}
    (read : operationsFrom header chosen tokens = .ok operations) {operation : Operation}
    (member : operation ∈ operations) :
    operation ∈ chosen ∨ ∃ token ∈ tokens, Operation.parse? token = some operation ∧
      Plan.missing? header operation.column?.toList = none := by
  induction tokens generalizing chosen with
  | nil =>
    cases read
    exact .inl member
  | cons token tokens ih =>
    unfold operationsFrom at read
    split at read
    · cases read
    case h_2 found parsed =>
      split at read
      · cases read
      case h_2 known =>
        rcases ih read with old | ⟨other, later, parsed', known'⟩
        · rcases (mem_including _ _ _).mp old with old | rfl
          · exact .inl old
          · exact .inr ⟨token, List.mem_cons_self, parsed, known⟩
        · exact .inr ⟨other, List.mem_cons_of_mem _ later, parsed', known'⟩

theorem mem_of_parseOperations {list : String} {operations : List Operation}
    (read : parseOperations header list = .ok operations) {operation : Operation}
    (member : operation ∈ operations) :
    operation = .count ∨ ∃ token ∈ Text.listItems list, Operation.parse? token = some operation ∧
      Plan.missing? header operation.column?.toList = none := by
  unfold parseOperations at read
  cases chosen : operationsFrom header [] (Text.listItems list) with
  | error error =>
    rw [chosen] at read
    cases read
  | ok found =>
    rw [chosen] at read
    cases read
    dsimp only at member
    split at member
    · exact .inl (List.mem_singleton.mp member)
    · rcases mem_of_operationsFrom chosen member with old | given
      · exact absurd old List.not_mem_nil
      · exact .inr given

theorem errorOf?_validate {list : String} {operations : List Operation}
    (read : parseOperations header list = .ok operations) (groupBy : List String) :
    errorOf? (Plan.validate ⟨groupBy, operations⟩ header) =
      (groupBy.filterMap (groupFault? header)).head? := by
  have known : Plan.missing? header (operations.filterMap (·.column?)) = none := by
    rw [missing?_eq_none_iff]
    intro column member
    obtain ⟨operation, asked, named⟩ := List.mem_filterMap.mp member
    rcases mem_of_parseOperations read asked with rfl | ⟨-, -, -, known⟩
    · cases named
    · exact missing?_eq_none_iff.mp known column (by simp [named])
  unfold Plan.validate
  dsimp only
  rw [known, List.head?_filterMap]
  induction groupBy with
  | nil => rfl
  | cons column columns ih =>
    cases there : header.contains column with
    | true => simpa [Plan.missing?, groupFault?, there] using ih
    | false => simp [Plan.missing?, groupFault?, there, errorOf?]

end

end Rollup.Group
