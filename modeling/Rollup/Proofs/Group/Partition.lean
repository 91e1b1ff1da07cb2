import Rollup.Group.Grouping
import Rollup.Proofs.Group.Folding
import Rollup.Proofs.Group.Order

/-! What a grouping holds after some rows.  Its index and its array together are a table from the
keys seen so far to the totals of the rows with that key, with the slots in order of first
appearance.  Taking a row first makes room for its key and then changes one slot.  Main statement:
the groups are the grouping of the rows by their keys, and every operation tells of a group what it
tells of the rows of that group alone. -/

namespace Rollup.Group

open Table

theorem mem_foldl_including {α : Type} [DecidableEq α] (start items : List α) (item : α) :
    item ∈ items.foldl including start ↔ item ∈ start ∨ item ∈ items := by
  induction items generalizing start with
  | nil => simp
  | cons first rest ih => rw [List.foldl_cons, ih, mem_including, List.mem_cons, or_assoc]

theorem mem_distinct {α : Type} [DecidableEq α] (items : List α) (item : α) :
    item ∈ distinct items ↔ item ∈ items :=
  (mem_foldl_including [] items item).trans (by simp)

/-- The keys of some rows, each once, in order of first appearance. -/
def keysOf (groupBy : List String) (rows : List Row) : List Key :=
  distinct (rows.map (Key.ofRow groupBy))

def sortedKeys (groupBy : List String) (rows : List Row) : List Key :=
  (keysOf groupBy rows).mergeSort Key.le

/-- The rows of one group, in their order. -/
def rowsOf (groupBy : List String) (key : Key) (rows : List Row) : List Row :=
  rows.filter fun row => Key.ofRow groupBy row = key

theorem mem_keysOf (groupBy : List String) (rows : List Row) (key : Key) :
    key ∈ keysOf groupBy rows ↔ ∃ row ∈ rows, Key.ofRow groupBy row = key := by
  rw [keysOf, mem_distinct, List.mem_map]

theorem mem_sortedKeys (groupBy : List String) (rows : List Row) (key : Key) :
    key ∈ sortedKeys groupBy rows ↔ ∃ row ∈ rows, Key.ofRow groupBy row = key := by
  rw [sortedKeys, List.mem_mergeSort, mem_keysOf]

theorem keysOf_concat (groupBy : List String) (rows : List Row) (row : Row) :
    keysOf groupBy (rows ++ [row]) =
      including (keysOf groupBy rows) (Key.ofRow groupBy row) := by
  simp [keysOf, distinct]

theorem rowsOf_concat_self (groupBy : List String) (rows : List Row) (row : Row) :
    rowsOf groupBy (Key.ofRow groupBy row) (rows ++ [row]) =
      rowsOf groupBy (Key.ofRow groupBy row) rows ++ [row] := by
  simp [rowsOf]

theorem rowsOf_concat_of_ne {groupBy : List String} {key : Key} {row : Row}
    (differ : Key.ofRow groupBy row ≠ key) (rows : List Row) :
    rowsOf groupBy key (rows ++ [row]) = rowsOf groupBy key rows := by
  simp [rowsOf, differ]

theorem rowsOf_eq_nil_iff (groupBy : List String) (key : Key) (rows : List Row) :
    rowsOf groupBy key rows = [] ↔ ¬∃ row ∈ rows, Key.ofRow groupBy row = key := by
  simp [rowsOf]

def Operation.Complete (operation : Operation) : Prop :=
  operation.aggregate ≠ .count → operation.column? ≠ none

instance (operation : Operation) : Decidable operation.Complete :=
  inferInstanceAs (Decidable (_ → _))

theorem getElem?_concat_eq_some_iff {α : Type} [DecidableEq α] {items : List α} {item : α}
    (fresh : item ∉ items) (place : Nat) (other : α) :
    (items ++ [item])[place]? = some other ↔
      if item = other then items.length = place else items[place]? = some other := by
  rcases Nat.lt_trichotomy place items.length with early | rfl | late
  · rw [List.getElem?_append_left early]
    split
    case isTrue same =>
      subst same
      have elsewhere : items[place]? ≠ some item := fun found =>
        fresh (List.mem_iff_getElem?.mpr ⟨place, found⟩)
      simp only [elsewhere, Nat.ne_of_gt early]
    case isFalse => rfl
  · simp
  · have outside : (items ++ [item]).length ≤ place := by
      rw [List.length_append]
      exact late
    simp [List.getElem?_eq_none outside, List.getElem?_eq_none (Nat.le_of_lt late),
      Nat.ne_of_lt late]

def Plan.totalsOf (plan : Plan) (rows : List Row) (key : Key) : Totals :=
  Totals.ofRows plan.reductions (rowsOf plan.groupBy key rows)

namespace Grouping

/-- A grouping by a plan whose slots belong to the given keys and hold the totals of the given
rows. -/
structure Holds (grouping : Grouping) (plan : Plan) (keys : List Key) (rows : List Row) :
    Prop where
  planned : grouping.plan = plan
  reduced : grouping.reductions = plan.reductions
  single : keys.Nodup
  indexed : ∀ (key : Key) (slot : Nat), grouping.index[key]? = some slot ↔ keys[slot]? = some key
  stored : grouping.totals.toList = keys.map (plan.totalsOf rows)

variable {grouping : Grouping} {plan : Plan} {keys : List Key} {rows : List Row}

theorem holds_start (plan : Plan) : (start plan).Holds plan (keysOf plan.groupBy []) [] where
  planned := rfl
  reduced := rfl
  single := List.nodup_nil
  indexed := by simp [start, keysOf, distinct]
  stored := rfl

namespace Holds

theorem size (held : grouping.Holds plan keys rows) : grouping.totals.size = keys.length := by
  rw [← Array.length_toList, held.stored, List.length_map]

theorem slot_lt (held : grouping.Holds plan keys rows) {key : Key} {slot : Nat}
    (found : grouping.index[key]? = some slot) : slot < grouping.totals.size := by
  rw [held.size]
  exact (List.getElem?_eq_some_iff.mp ((held.indexed key slot).mp found)).1

theorem index_eq_none_iff (held : grouping.Holds plan keys rows) (key : Key) :
    grouping.index[key]? = none ↔ key ∉ keys := by
  rw [List.mem_iff_getElem?, Option.eq_none_iff_forall_ne_some, not_exists]
  exact forall_congr' fun slot => not_congr (held.indexed key slot)

theorem push (held : grouping.Holds plan keys rows) {key : Key} (fresh : key ∉ keys)
    (empty : rowsOf plan.groupBy key rows = []) :
    Holds { grouping with
        index := grouping.index.insert key grouping.totals.size
        totals := grouping.totals.push {} } plan (keys ++ [key]) rows where
  planned := held.planned
  reduced := held.reduced
  single := List.nodup_append.mpr ⟨held.single, by simp, by
    intro old member new same
    rw [List.mem_singleton.mp same]
    exact fun clash => fresh (clash ▸ member)⟩
  indexed := by
    intro other slot
    rw [Std.HashMap.getElem?_insert, held.size, getElem?_concat_eq_some_iff fresh]
    by_cases same : key = other
    · simp [same]
    · simp [same, held.indexed]
  stored := by
    have none : plan.totalsOf rows key = {} := by
      rw [Plan.totalsOf, empty]
      rfl
    rw [Array.toList_push, held.stored, List.map_append, List.map_singleton, none]

theorem slotted (held : grouping.Holds plan (keysOf plan.groupBy rows) rows) (key : Key) :
    (grouping.slotted key).1.Holds plan (including (keysOf plan.groupBy rows) key) rows ∧
      (including (keysOf plan.groupBy rows) key)[(grouping.slotted key).2]? = some key := by
  unfold Grouping.slotted including
  split
  case h_1 slot found =>
    have place := (held.indexed key slot).mp found
    rw [if_pos (List.mem_iff_getElem?.mpr ⟨slot, place⟩)]
    exact ⟨held, place⟩
  case h_2 missing =>
    have fresh := (held.index_eq_none_iff key).mp missing
    rw [if_neg fresh]
    refine ⟨held.push fresh ((rowsOf_eq_nil_iff _ _ _).mpr (mt (mem_keysOf _ _ _).mpr fresh)), ?_⟩
    dsimp only
    rw [held.size, List.getElem?_concat_length]

theorem modify {row : Row} {slot : Nat} (held : grouping.Holds plan keys rows)
    (place : keys[slot]? = some (.ofRow plan.groupBy row)) :
    Holds { grouping with
        totals := grouping.totals.modify slot (·.addRow grouping.reductions row)
        rows := grouping.rows + 1 } plan keys (rows ++ [row]) where
  planned := held.planned
  reduced := held.reduced
  single := held.single
  indexed := held.indexed
  stored := by
    rw [Array.toList_modify, held.stored, held.reduced]
    apply List.ext_getElem?
    intro other
    rw [List.getElem?_modify, List.getElem?_map, List.getElem?_map]
    cases found : keys[other]? with
    | none => rfl
    | some key =>
      simp only [Option.map_some, Option.map_eq_map, Option.some.injEq]
      split
      case isTrue same =>
        subst same
        obtain rfl : Key.ofRow plan.groupBy row = key := Option.some.inj (place.symm.trans found)
        rw [Plan.totalsOf, Plan.totalsOf, rowsOf_concat_self, Totals.ofRows_concat]
      case isFalse aside =>
        have differ : Key.ofRow plan.groupBy row ≠ key := by
          rintro rfl
          have inside := (List.getElem?_eq_some_iff.mp place).1
          exact aside ((List.getElem?_inj inside held.single).mp (place.trans found.symm))
        rw [Plan.totalsOf, Plan.totalsOf, rowsOf_concat_of_ne differ]

theorem accept (held : grouping.Holds plan (keysOf plan.groupBy rows) rows) (row : Row) :
    (grouping.accept row).Holds plan (keysOf plan.groupBy (rows ++ [row])) (rows ++ [row]) := by
  have room := held.slotted (.ofRow plan.groupBy row)
  rw [← keysOf_concat] at room
  unfold Grouping.accept
  rw [held.planned]
  exact room.1.modify room.2

theorem acceptAll (held : grouping.Holds plan (keysOf plan.groupBy rows) rows)
    (more : List Row) :
    (grouping.acceptAll more).Holds plan (keysOf plan.groupBy (rows ++ more)) (rows ++ more) := by
  induction more generalizing grouping rows with
  | nil =>
    rw [List.append_nil]
    exact held
  | cons row more ih =>
    rw [List.append_cons]
    exact ih (held.accept row)

theorem entries_perm (held : grouping.Holds plan keys rows) :
    (grouping.index.toList.filterMap fun (key, slot) => grouping.totals[slot]?.map (key, ·)).Perm
      (keys.map fun key => (key, plan.totalsOf rows key)) := by
  rw [List.perm_ext_iff_of_nodup]
  · rintro ⟨key, totals⟩
    simp only [List.mem_filterMap, Prod.exists, Std.HashMap.mem_toList_iff_getElem?_eq_some,
      held.indexed, ← Array.getElem?_toList, held.stored, List.getElem?_map, List.mem_map,
      Option.map_map, Option.map_eq_some_iff, Function.comp_apply, Prod.mk.injEq]
    constructor
    · rintro ⟨_, slot, found, other, again, rfl, rfl⟩
      obtain rfl := Option.some.inj (found.symm.trans again)
      exact ⟨_, List.mem_iff_getElem?.mpr ⟨slot, found⟩, rfl, rfl⟩
    · rintro ⟨_, member, rfl, rfl⟩
      obtain ⟨slot, found⟩ := List.mem_iff_getElem?.mp member
      exact ⟨_, slot, found, _, found, rfl, rfl⟩
  · refine List.pairwise_filterMap.mpr (grouping.index.distinct_keys_toList.imp ?_)
    rintro ⟨key, slot⟩ ⟨other, place⟩ differ ⟨_, totals⟩ first ⟨_, others⟩ second same
    simp only [Option.map_eq_some_iff, Prod.mk.injEq] at first second same
    obtain ⟨-, -, rfl, -⟩ := first
    obtain ⟨-, -, rfl, -⟩ := second
    simp [same.1] at differ
  · refine List.pairwise_map.mpr (held.single.imp ?_)
    intro key other differ same
    exact differ (congrArg Prod.fst same)

theorem groups_eq (held : grouping.Holds plan keys rows) :
    grouping.groups =
      (keys.mergeSort Key.le).map fun key => (key, plan.totalsOf rows key) :=
  mergeSort_byKey_of_keys held.entries_perm

theorem ascending (held : grouping.Holds plan keys rows) :
    grouping.groups.Pairwise fun a b => a.1.values < b.1.values := by
  rw [held.groups_eq]
  exact List.pairwise_map.mpr (ascending_mergeSort_le held.single)

end Holds

theorem holds_acceptAll (plan : Plan) (rows : List Row) :
    ((start plan).acceptAll rows).Holds plan (keysOf plan.groupBy rows) rows :=
  (holds_start plan).acceptAll rows

/-- The groups of some rows, by key. -/
theorem groups_acceptAll (plan : Plan) (rows : List Row) :
    ((start plan).acceptAll rows).groups =
      (sortedKeys plan.groupBy rows).map fun key => (key, plan.totalsOf rows key) :=
  (holds_acceptAll plan rows).groups_eq

theorem keys_groups_acceptAll (plan : Plan) (rows : List Row) :
    ((start plan).acceptAll rows).groups.map Prod.fst = sortedKeys plan.groupBy rows := by
  rw [groups_acceptAll, List.map_map]
  exact List.map_id _

end Grouping

namespace Plan

theorem mem_reductions {plan : Plan} {operation : Operation} {m : Measure} {column : String}
    (asked : operation ∈ plan.operations) (kind : operation.aggregate = .measure m)
    (named : operation.column? = some column) : ⟨column, m.reduction⟩ ∈ plan.reductions := by
  rw [reductions, mem_distinct, List.mem_filterMap]
  exact ⟨operation, asked, by simp [kind, named, Aggregate.reduction?]⟩

theorem value?_totalsOf {plan : Plan} {rows : List Row} {key : Key}
    (seen : ∃ row ∈ rows, Key.ofRow plan.groupBy row = key) {operation : Operation}
    (asked : operation ∈ plan.operations) (complete : operation.Complete) :
    (plan.totalsOf rows key).value? operation =
      operation.over (rowsOf plan.groupBy key rows) := by
  have present : rowsOf plan.groupBy key rows ≠ [] := fun none =>
    (rowsOf_eq_nil_iff _ _ _).mp none seen
  refine Totals.value?_ofRows plan.nodup_reductions present ?_
  intro m kind
  obtain ⟨column, named⟩ := Option.ne_none_iff_exists'.mp (complete (by simp [kind]))
  rw [named]
  exact mem_reductions asked kind named

end Plan

end Rollup.Group
