import Mathlib
import Rollup.Proofs.Group.Forms
import Rollup.Proofs.Group.Partition
import Rollup.Proofs.Group.Requests

/-! Reading a list of operations.  Its items are judged one by one, from the first on: each asks for
an operation on a column of the table, or is refused.  Main statement: a list is read exactly when
all of its items ask for something, as their operations in order of first occurrence, and otherwise
it is refused as its first bad item is; the labels of what was read are read as the same
operations. -/

namespace Rollup.Group

open Table Text

theorem distinct_concat {α : Type} [DecidableEq α] (items : List α) (item : α) :
    distinct (items ++ [item]) = including (distinct items) item := by
  simp [distinct]

theorem distinct_eq_eraseDups {α : Type} [DecidableEq α] (items : List α) :
    distinct items = items.eraseDups := by
  induction items using List.reverseRecOn with
  | nil => rfl
  | append_singleton items item ih =>
    rw [distinct_concat, List.eraseDups_append, including, ← ih]
    by_cases member : item ∈ items
    · rw [if_pos ((mem_distinct items item).mpr member)]
      simp [List.removeAll, member]
    · rw [if_neg (mt (mem_distinct items item).mp member)]
      simp [List.removeAll, member, List.eraseDups_cons]

theorem distinct_of_nodup {α : Type} [DecidableEq α] {items : List α} (single : items.Nodup) :
    distinct items = items := by
  induction items using List.reverseRecOn with
  | nil => rfl
  | append_singleton items item ih =>
    obtain ⟨front, -, apart⟩ := List.nodup_append.mp single
    rw [distinct_concat, ih front, including, if_neg]
    exact fun member => apart item member item (List.mem_singleton_self item) rfl

theorem distinct_eq_nil_iff {α : Type} [DecidableEq α] {items : List α} :
    distinct items = [] ↔ items = [] := by
  simp only [List.eq_nil_iff_forall_not_mem, mem_distinct]

section

variable (header : Header)

/-- An operation that can be computed of a table: counting, or a measure of one of its columns. -/
def Operation.Known (operation : Operation) : Prop :=
  ∀ column, operation.column? = some column → column ∈ header.names

/-- What an item of a list asks for. -/
def Asks (item : List Char) (operation : Operation) : Prop :=
  operation.Written item ∧ operation.Known header

/-- Why an item of a list asks for nothing: it is no operation, or the table lacks its column. -/
inductive Refused (item : List Char) : PlanError → Prop where
  | unrecognised (none : ∀ operation, ¬Operation.Written item operation) :
      Refused item (.unrecognised (String.ofList item))
  | unknownColumn {operation : Operation} {column : String}
      (written : Operation.Written item operation) (named : operation.column? = some column)
      (absent : column ∉ header.names) :
      Refused item (.unknownColumn column header.describe)

variable {header}

theorem missing?_column_eq_none_iff {operation : Operation} :
    Plan.missing? header operation.column?.toList = none ↔ operation.Known header := by
  simp only [missing?_eq_none_iff, Header.contains_iff, Option.mem_toList,
    Operation.Known]

theorem missing?_column_eq_some_iff {operation : Operation} {column : String} :
    Plan.missing? header operation.column?.toList = some column ↔
      operation.column? = some column ∧ column ∉ header.names := by
  rw [← Header.contains_iff, Bool.not_eq_true]
  cases operation.column? with
  | none => simp [Plan.missing?]
  | some named =>
    rw [Plan.missing?, Option.toList_some, List.find?_singleton]
    cases there : header.contains named with
    | true =>
      simp only [Bool.not_true, Bool.false_eq_true, if_false, Option.some.injEq]
      constructor
      · intro none
        cases none
      · rintro ⟨rfl, absent⟩
        rw [there] at absent
        cases absent
    | false =>
      simp only [Bool.not_false, if_true, Option.some.injEq]
      exact ⟨fun same => ⟨same, same ▸ there⟩, fun both => both.1⟩

theorem operationsFrom_ok_iff {chosen operations : List Operation} {tokens : List String} :
    operationsFrom header chosen tokens = .ok operations ↔ ∃ asked,
      List.Forall₂ (fun token operation =>
        Operation.parse? token = some operation ∧ operation.Known header) tokens asked ∧
      operations = asked.foldl including chosen := by
  induction tokens generalizing chosen with
  | nil => simp [operationsFrom, eq_comm]
  | cons token tokens ih =>
    rw [operationsFrom]
    simp only [List.forall₂_cons_left_iff]
    cases parsed : Operation.parse? token with
    | none => simp
    | some operation =>
      dsimp only
      cases known : Plan.missing? header operation.column?.toList with
      | some column =>
        have unknown : ¬operation.Known header := by
          rw [← missing?_column_eq_none_iff, known]
          exact Option.some_ne_none column
        constructor
        · intro read
          cases read
        · rintro ⟨_, ⟨other, rest, ⟨⟨⟩, known'⟩, -, rfl⟩, rfl⟩
          exact absurd known' unknown
      | none =>
        have known' := missing?_column_eq_none_iff.mp known
        rw [ih]
        constructor
        · rintro ⟨asked, all, rfl⟩
          exact ⟨operation :: asked, ⟨operation, asked, ⟨rfl, known'⟩, all, rfl⟩, rfl⟩
        · rintro ⟨_, ⟨other, rest, ⟨⟨⟩, -⟩, all, rfl⟩, rfl⟩
          exact ⟨rest, all, rfl⟩

theorem parseOperations_ok_iff {list : String} {operations : List Operation} :
    parseOperations header list = .ok operations ↔ ∃ asked,
      List.Forall₂ (fun token operation =>
        Operation.parse? token = some operation ∧ operation.Known header) (listItems list) asked ∧
      operations = if asked = [] then [Operation.count] else asked.eraseDups := by
  have chosen : parseOperations header list = .ok operations ↔ ∃ found,
      operationsFrom header [] (listItems list) = .ok found ∧
      operations = if found = [] then [Operation.count] else found := by
    unfold parseOperations
    cases operationsFrom header [] (listItems list) with
    | error error => simp [Except.map]
    | ok found => simp [Except.map, eq_comm]
  rw [chosen]
  constructor
  · rintro ⟨found, read, rfl⟩
    obtain ⟨asked, all, same⟩ := operationsFrom_ok_iff.mp read
    have none : found = [] ↔ asked = [] := by
      rw [same]
      exact distinct_eq_nil_iff
    refine ⟨asked, all, ?_⟩
    simp only [none, ← distinct_eq_eraseDups]
    rw [same]
    rfl
  · rintro ⟨asked, all, rfl⟩
    refine ⟨distinct asked, operationsFrom_ok_iff.mpr ⟨asked, all, rfl⟩, ?_⟩
    rw [← distinct_eq_eraseDups]
    simp only [distinct_eq_nil_iff]

theorem tokenFault?_eq_none_iff {token : String} : tokenFault? header token = none ↔
    ∃ operation, Operation.parse? token = some operation ∧ operation.Known header := by
  unfold tokenFault?
  cases Operation.parse? token with
  | none => simp
  | some operation => simp [missing?_column_eq_none_iff]

section

variable {item : List Char} (trimmed : trim item = item)
include trimmed

theorem parse?_item {operation : Operation} :
    Operation.parse? (String.ofList item) = some operation ↔ operation.Written item := by
  rw [Operation.parse?_eq_some_iff, String.toList_ofList, trimmed]

theorem asks_iff {operation : Operation} : Asks header item operation ↔
    Operation.parse? (String.ofList item) = some operation ∧ operation.Known header := by
  rw [parse?_item trimmed]
  rfl

theorem refused_iff {error : PlanError} : Refused header item error ↔
    tokenFault? header (String.ofList item) = some error := by
  unfold tokenFault?
  cases parsed : Operation.parse? (String.ofList item) with
  | none =>
    have none : ∀ operation, ¬Operation.Written item operation := by
      intro operation found
      rw [(parse?_item trimmed).mpr found] at parsed
      cases parsed
    constructor
    · rintro (⟨-⟩ | ⟨found, -, -⟩)
      · rfl
      · exact absurd found (none _)
    · rintro ⟨⟩
      exact .unrecognised none
  | some operation =>
    have found := (parse?_item trimmed).mp parsed
    rw [Option.map_eq_some_iff]
    constructor
    · rintro (⟨none⟩ | @⟨other, column, found', named, absent⟩)
      · exact absurd found (none _)
      · obtain rfl : operation = other :=
          Option.some.inj (parsed.symm.trans ((parse?_item trimmed).mpr found'))
        exact ⟨column, missing?_column_eq_some_iff.mpr ⟨named, absent⟩, rfl⟩
    · rintro ⟨column, missing, rfl⟩
      obtain ⟨named, absent⟩ := missing?_column_eq_some_iff.mp missing
      exact .unknownColumn found named absent

end

section

variable {items : List (List Char)} (trimmed : ∀ item ∈ items, trim item = item)
include trimmed

theorem forall_asks_iff {asked : List Operation} : List.Forall₂ (Asks header) items asked ↔
    List.Forall₂ (fun token operation =>
      Operation.parse? token = some operation ∧ operation.Known header)
      (items.map String.ofList) asked := by
  induction items generalizing asked with
  | nil => simp
  | cons item items ih =>
    obtain ⟨first, rest⟩ := List.forall_mem_cons.mp trimmed
    cases asked with
    | nil => simp
    | cons operation asked =>
      rw [List.map_cons, List.forall₂_cons, List.forall₂_cons, asks_iff first, ih rest]

theorem findSome?_tokenFault?_iff {error : PlanError} :
    (items.map String.ofList).findSome? (tokenFault? header) = some error ↔
      ∃ before item after, items = before ++ item :: after ∧
        (∀ earlier ∈ before, ∃ operation, Asks header earlier operation) ∧
        Refused header item error := by
  have calm : ∀ item ∈ items, tokenFault? header (String.ofList item) = none ↔
      ∃ operation, Asks header item operation := by
    intro item member
    rw [tokenFault?_eq_none_iff]
    exact exists_congr fun operation => (asks_iff (trimmed item member)).symm
  have fault : ∀ item ∈ items, tokenFault? header (String.ofList item) = some error ↔
      Refused header item error := fun item member => (refused_iff (trimmed item member)).symm
  simp only [List.findSome?_map, List.findSome?_eq_some_iff, Function.comp_apply]
  constructor
  · rintro ⟨before, item, after, rfl, found, none⟩
    refine ⟨before, item, after, rfl, fun earlier member => ?_, (fault item (by simp)).mp found⟩
    exact (calm earlier (List.mem_append_left _ member)).mp (none earlier member)
  · rintro ⟨before, item, after, rfl, none, found⟩
    refine ⟨before, item, after, rfl, (fault item (by simp)).mpr found, fun earlier member => ?_⟩
    exact (calm earlier (List.mem_append_left _ member)).mpr (none earlier member)

end

theorem parseOperations_labels {operations : List Operation} (some : operations ≠ [])
    (single : operations.Nodup)
    (known : ∀ operation ∈ operations, operation.Known header ∧ ∃ cs, operation.Written cs) :
    parseOperations header (joined "," (operations.map Operation.label)) = .ok operations := by
  have items : listItems (joined "," (operations.map Operation.label)) =
      operations.map Operation.label := by
    apply listItems_joined
    intro item member
    obtain ⟨operation, given, rfl⟩ := List.mem_map.mp member
    obtain ⟨cs, written⟩ := (known operation given).2
    exact written.isItem_label
  refine parseOperations_ok_iff.mpr ⟨operations, ?_, ?_⟩
  · rw [items, List.forall₂_map_left_iff, List.forall₂_same]
    intro operation given
    obtain ⟨fits, cs, written⟩ := known operation given
    rw [Operation.parse?_eq_some_iff, written.isItem_label.trimmed]
    exact ⟨written.label, fits⟩
  · rw [if_neg some, ← distinct_eq_eraseDups, distinct_of_nodup single]

theorem parseOperations_count :
    parseOperations header (joined "," ([Operation.count].map Operation.label)) =
      .ok [.count] := by
  refine parseOperations_labels (List.cons_ne_nil _ _) (List.pairwise_singleton _ _) ?_
  intro operation member
  obtain rfl := List.mem_singleton.mp member
  have known : Operation.count.Known header := by
    intro column named
    cases named
  exact ⟨known, "count".toList, .count Operation.toLower_count⟩

theorem exists_asks {items : List (List Char)} {asked : List Operation}
    (all : List.Forall₂ (Asks header) items asked) {operation : Operation}
    (member : operation ∈ asked) : ∃ item ∈ items, Asks header item operation := by
  induction all with
  | nil => cases member
  | @cons item first items rest asks all ih =>
    rcases List.mem_cons.mp member with rfl | later
    · exact ⟨item, List.mem_cons_self, asks⟩
    · obtain ⟨other, given, found⟩ := ih later
      exact ⟨other, List.mem_cons_of_mem _ given, found⟩

end

/-- The items of a list are what stands between its commas, trimmed and not empty.  If each of them
asks for an operation, the list is read as these operations in order of first occurrence, or as
counting if there are none; otherwise the first item that does not is what the list is refused for.
What was read is read again from its labels. -/
theorem parseOperations_by_items (header : Header) (list : String) :
    let items := ((list.toList.splitOn ',').map trim).filter (· ≠ [])
    (∀ operations, parseOperations header list = .ok operations ↔ ∃ asked,
      List.Forall₂ (Asks header) items asked ∧
      operations = if asked = [] then [Operation.count] else asked.eraseDups) ∧
    (∀ error, parseOperations header list = .error error ↔ ∃ before item after,
      items = before ++ item :: after ∧
      (∀ earlier ∈ before, ∃ operation, Asks header earlier operation) ∧
      Refused header item error) ∧
    ∀ operations, parseOperations header list = .ok operations →
      parseOperations header (joined "," (operations.map Operation.label)) = .ok operations := by
  intro items
  have tokens : listItems list = items.map String.ofList := listItems_eq list
  have trimmed : ∀ item ∈ items, trim item = item := by
    intro item member
    obtain ⟨cut, -, rfl⟩ := List.mem_map.mp (List.mem_filter.mp member).1
    exact trim_trim cut
  have reads : ∀ operations, parseOperations header list = .ok operations ↔ ∃ asked,
      List.Forall₂ (Asks header) items asked ∧
      operations = if asked = [] then [Operation.count] else asked.eraseDups := by
    intro operations
    simp only [forall_asks_iff trimmed, ← tokens]
    exact parseOperations_ok_iff
  refine ⟨reads, fun error => ?_, fun operations read => ?_⟩
  · rw [← errorOf?_eq_some_iff, errorOf?_parseOperations, List.head?_filterMap, tokens]
    exact findSome?_tokenFault?_iff trimmed
  · obtain ⟨asked, all, rfl⟩ := (reads operations).mp read
    split
    case isTrue => exact parseOperations_count
    case isFalse some =>
      rw [← distinct_eq_eraseDups]
      refine parseOperations_labels (mt distinct_eq_nil_iff.mp some) (nodup_distinct asked) ?_
      intro operation member
      obtain ⟨item, -, written, known⟩ := exists_asks all ((mem_distinct _ _).mp member)
      exact ⟨known, item, written⟩

/-- Blanks inside a call, an empty item, and an operation that is asked for again. -/
theorem parseOperations_by_items_repeated :
    let header : Header := ⟨["v"]⟩
    let list := " AVG(\tv ) ,, Count,avg(v)"
    parseOperations header list = .ok [.measure .average "v", .count] ∧
    parseOperations header "avg(v),count" = .ok [.measure .average "v", .count] := by
  intro header list
  have read : parseOperations header list = .ok [.measure .average "v", .count] := by
    decide +kernel
  exact ⟨read, (parseOperations_by_items header list).2.2 _ read⟩

end Rollup.Group
