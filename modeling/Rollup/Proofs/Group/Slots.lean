import Rollup.Proofs.Group.Finalization
import Rollup.Proofs.Group.Selection

/-! The index of a grouping and its slots.  However rows are taken in, the index leads from the keys
seen so far to the slots, to every slot from one key and from no other.  Main statement: this holds
at every moment of a grouping, its counters agree with the slots, and what it lists is what it would
end with. -/

namespace Rollup.Group

open Table

/-- What can be asked of a grouping: to take in a row or several of them, or to list its groups. -/
inductive Call where
  | accept (row : Row)
  | consume (rows : List Row)
  | groups

def Call.rows : Call → List Row
  | accept row => [row]
  | consume rows => rows
  | groups => []

namespace Grouping

def after (grouping : Grouping) : Call → Grouping
  | .accept row => grouping.accept row
  | .consume rows => grouping.acceptAll rows
  | .groups => grouping

section

variable {grouping : Grouping} {plan : Plan} {keys : List Key} {rows : List Row}

namespace Holds

theorem exists_unique_key (held : grouping.Holds plan keys rows) {slot : Nat}
    (inside : slot < grouping.totals.size) :
    ∃! key : Key, grouping.index[key]? = some slot := by
  rw [held.size] at inside
  have place : keys[slot]? = some keys[slot] := List.getElem?_eq_getElem inside
  refine ⟨keys[slot], (held.indexed _ slot).mpr place, fun other found => ?_⟩
  exact Option.some.inj (((held.indexed other slot).mp found).symm.trans place)

theorem mem_index_iff (held : grouping.Holds plan keys rows) (key : Key) :
    key ∈ grouping.index ↔ key ∈ keys := by
  rw [Std.HashMap.mem_iff_isSome_getElem?, ← not_iff_not, ← held.index_eq_none_iff,
    Bool.not_eq_true, Option.isSome_eq_false_iff, Option.isNone_iff_eq_none]

theorem counts (held : grouping.Holds plan keys rows) :
    grouping.totals.toList.map (·.count) =
      keys.map fun key => (rowsOf plan.groupBy key rows).length := by
  rw [held.stored, List.map_map]
  exact List.map_congr_left fun key _ => Totals.count_ofRows _ _

theorem sum_counts (held : grouping.Holds plan (keysOf plan.groupBy rows) rows) :
    (grouping.totals.toList.map (·.count)).sum = rows.length := by
  rw [held.counts, ← sum_length_rowsOf plan.groupBy rows]
  exact ((List.mergeSort_perm _ _).map _).sum_eq.symm

theorem count_ne_zero (held : grouping.Holds plan (keysOf plan.groupBy rows) rows)
    {totals : Totals} (member : totals ∈ grouping.totals) : totals.count ≠ 0 := by
  rw [← Array.mem_toList_iff, held.stored] at member
  obtain ⟨key, given, rfl⟩ := List.mem_map.mp member
  rw [Plan.totalsOf, Totals.count_ofRows]
  intro empty
  have none := (rowsOf_eq_nil_iff _ _ _).mp (List.length_eq_zero_iff.mp empty)
  exact none ((mem_keysOf _ _ _).mp given)

theorem size_eq_dedup (held : grouping.Holds plan (keysOf plan.groupBy rows) rows) :
    grouping.totals.size = (rows.map (Key.ofRow plan.groupBy)).dedup.length := by
  rw [held.size, ← (sortedKeys_perm_dedup plan.groupBy rows).length_eq, sortedKeys,
    List.length_mergeSort]

end Holds

theorem Holds.after (held : grouping.Holds plan (keysOf plan.groupBy rows) rows) (call : Call) :
    (grouping.after call).Holds plan (keysOf plan.groupBy (rows ++ call.rows))
      (rows ++ call.rows) := by
  cases call with
  | accept row => exact held.accept row
  | consume more => exact held.acceptAll more
  | groups =>
    rw [Call.rows, List.append_nil]
    exact held

theorem Holds.calls (held : grouping.Holds plan (keysOf plan.groupBy rows) rows)
    (calls : List Call) :
    (calls.foldl Grouping.after grouping).Holds plan
      (keysOf plan.groupBy (rows ++ calls.flatMap Call.rows))
      (rows ++ calls.flatMap Call.rows) := by
  induction calls generalizing grouping rows with
  | nil =>
    rw [List.flatMap_nil, List.append_nil]
    exact held
  | cons call calls ih =>
    rw [List.flatMap_cons, ← List.append_assoc]
    exact ih (held.after call)

theorem rows_after (call : Call) :
    (grouping.after call).rows = grouping.rows + call.rows.length := by
  cases call with
  | accept row => exact rows_accept grouping row
  | consume more => exact rows_acceptAll grouping more
  | groups => rfl

theorem rows_calls (calls : List Call) : (calls.foldl Grouping.after grouping).rows =
    grouping.rows + (calls.flatMap Call.rows).length := by
  induction calls generalizing grouping with
  | nil => rfl
  | cons call calls ih =>
    rw [List.foldl_cons, ih, rows_after, List.flatMap_cons, List.length_append, Nat.add_assoc]

end

end Grouping

/-- At every moment of a grouping: every slot that the index names is there, and every slot that is
there belongs to exactly one key.  The keys are those of the rows taken in, each with a value for
every column to group by; there are as many groups as different keys, as many rows as were taken
in, and as many of them as all slots together have counted, none of which is empty.  The groups
ascend strictly, and taking the totals out gives them too, in whatever order the index lists its
entries. -/
theorem slots_after_calls (plan : Plan) (calls : List Call) :
    let grouping := calls.foldl Grouping.after (.start plan)
    let rows := calls.flatMap Call.rows
    (∀ (key : Key) (slot : Nat), grouping.index[key]? = some slot →
      slot < grouping.totals.size ∧ key.values.length = plan.groupBy.length) ∧
    (∀ slot < grouping.totals.size, ∃! key : Key, grouping.index[key]? = some slot) ∧
    (∀ key : Key, key ∈ grouping.index ↔ ∃ row ∈ rows, Key.ofRow plan.groupBy row = key) ∧
    grouping.groupCount = (rows.map (Key.ofRow plan.groupBy)).dedup.length ∧
    grouping.rows = rows.length ∧
    (grouping.totals.toList.map (·.count)).sum = rows.length ∧
    (∀ totals ∈ grouping.totals, totals.count ≠ 0) ∧
    grouping.groups.Pairwise (fun a b => a.1.values < b.1.values) ∧
    grouping.finalize.toList = grouping.groups ∧
    ∀ entries, entries.Perm grouping.index.toList →
      (Std.TreeMap.ofList (Grouping.taken grouping.totals entries) Key.order).toList =
        grouping.groups := by
  intro grouping rows
  have held : grouping.Holds plan (keysOf plan.groupBy rows) rows :=
    (Grouping.holds_start plan).calls calls
  have counted : grouping.rows = rows.length :=
    (Grouping.rows_calls calls).trans (Nat.zero_add _)
  refine ⟨fun key slot found => ⟨held.slot_lt found, ?_⟩,
    fun slot inside => held.exists_unique_key inside,
    fun key => (held.mem_index_iff key).trans (mem_keysOf _ _ _), held.size_eq_dedup, counted,
    held.sum_counts, fun totals member => held.count_ne_zero member, held.ascending,
    held.toList_taken (.refl _), fun entries listed => held.toList_taken listed⟩
  have member := List.mem_iff_getElem?.mpr ⟨slot, (held.indexed key slot).mp found⟩
  obtain ⟨row, -, rfl⟩ := (mem_keysOf _ _ _).mp member
  exact Key.length_ofRow plan.groupBy row

/-- A group that is met again after the groups have been listed, and a cell that does not count. -/
theorem slots_after_calls_met_again :
    let plan : Plan := ⟨["k"], [.measure .sum "v"]⟩
    let row (key cell : String) : Row := .ofPairs [("k", key), ("v", cell)]
    let calls : List Call :=
      [.accept (row "b" "1"), .groups, .consume [row "a" "2", row "b" "x"]]
    let grouping := calls.foldl Grouping.after (.start plan)
    grouping.groupCount = 2 ∧ grouping.rows = 3 ∧
    (grouping.totals.toList.map (·.count)).sum = 3 ∧
    (∃! key : Key, grouping.index[key]? = some 1) ∧
    grouping.finalize.toList = grouping.groups := by
  intro plan row calls grouping
  obtain ⟨-, slots, -, distinct, taken, counted, -, -, ended, -⟩ := slots_after_calls plan calls
  have two : grouping.totals.size = 2 := distinct.trans (by decide)
  exact ⟨two, taken, counted, slots 1 (two ▸ Nat.one_lt_two), ended⟩

end Rollup.Group
