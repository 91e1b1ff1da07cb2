import Mathlib.Data.List.Basic
import Rollup.Proofs.Group.Partition

/-! The end of a grouping.  Taking the totals out of their slots finds each of them once, in
whatever order the index is gone through, because no two keys share a slot.  Main statement: what a
grouping ends with is the grouping of its rows by their keys, in strictly ascending order. -/

namespace Rollup.Group

open Table

namespace Grouping

theorem taken_eq (totals : Array Totals) {entries : List (Key × Nat)}
    (apart : (entries.map Prod.snd).Nodup) :
    taken totals entries = entries.map fun entry => (entry.1, totals[entry.2]?.getD {}) := by
  induction entries generalizing totals with
  | nil => rfl
  | cons entry entries ih =>
    obtain ⟨key, slot⟩ := entry
    obtain ⟨absent, apart⟩ := List.nodup_cons.mp apart
    rw [taken, ih _ apart, List.map_cons]
    congr 1
    apply List.map_congr_left
    intro other member
    have elsewhere : slot ≠ other.2 := by
      intro same
      exact absent (List.mem_map.mpr ⟨other, member, same.symm⟩)
    rw [Array.getElem?_setIfInBounds_ne elsewhere]

section

variable {α : Type} {entries : List (Key × α)} (single : entries.Pairwise fun a b => a.1 ≠ b.1)
include single

theorem getElem?_ofList {key : Key} {value : α} (member : (key, value) ∈ entries) :
    (Std.TreeMap.ofList entries Key.order)[key]? = some value := by
  have apart : entries.Pairwise fun a b => ¬Key.order a.1 b.1 = .eq :=
    single.imp fun differ same => differ (Std.LawfulEqCmp.eq_of_compare same)
  exact Std.TreeMap.getElem?_ofList_of_mem Std.ReflCmp.compare_self apart member

theorem mem_toList_ofList (entry : Key × α) :
    entry ∈ (Std.TreeMap.ofList entries Key.order).toList ↔ entry ∈ entries := by
  obtain ⟨key, value⟩ := entry
  rw [Std.TreeMap.mem_toList_iff_getElem?_eq_some]
  refine ⟨fun told => ?_, getElem?_ofList single⟩
  cases there : (entries.map Prod.fst).contains key with
  | false =>
    rw [Std.TreeMap.getElem?_ofList_of_contains_eq_false there] at told
    cases told
  | true =>
    obtain ⟨⟨_, other⟩, member, rfl⟩ := List.mem_map.mp (List.contains_iff_mem.mp there)
    obtain rfl := Option.some.inj ((getElem?_ofList single member).symm.trans told)
    exact member

theorem toList_ofList :
    (Std.TreeMap.ofList entries Key.order).toList = entries.mergeSort byKey := by
  have sorted : (Std.TreeMap.ofList entries Key.order).toList.Pairwise
      fun a b => byKey a b = true := by
    refine Std.TreeMap.ordered_keys_toList.imp fun {a b} before => ?_
    rw [byKey, ← Key.isLE_order, before]
    rfl
  have perm : (Std.TreeMap.ofList entries Key.order).toList.Perm entries := by
    refine (List.perm_ext_iff_of_nodup ?_ ?_).mpr (mem_toList_ofList single)
    · refine Std.TreeMap.distinct_keys_toList.imp fun differ same => differ ?_
      rw [same]
      exact Std.ReflCmp.compare_self
    · exact single.imp fun differ same => differ (congrArg Prod.fst same)
  rw [← List.mergeSort_of_pairwise sorted]
  refine mergeSort_byKey_of_perm perm ?_
  rintro ⟨key, value⟩ first ⟨_, other⟩ second ⟨⟩
  rw [mem_toList_ofList single] at first second
  obtain rfl := Option.some.inj ((getElem?_ofList single first).symm.trans
    (getElem?_ofList single second))
  rfl

end

namespace Holds

variable {grouping : Grouping} {plan : Plan} {keys : List Key} {rows : List Row}

/-- Taking the totals out of their slots gives the groups, in whatever order the index lists its
entries. -/
theorem toList_taken (held : grouping.Holds plan keys rows) {entries : List (Key × Nat)}
    (listed : entries.Perm grouping.index.toList) :
    (Std.TreeMap.ofList (taken grouping.totals entries) Key.order).toList = grouping.groups := by
  have placed : ∀ entry ∈ entries, keys[entry.2]? = some entry.1 := by
    intro entry member
    rw [← held.indexed, ← Std.HashMap.mem_toList_iff_getElem?_eq_some]
    exact listed.mem_iff.mp member
  have distinct : entries.Pairwise fun a b => a.1 ≠ b.1 := by
    have inIndex : grouping.index.toList.Pairwise fun a b => a.1 ≠ b.1 :=
      grouping.index.distinct_keys_toList.imp fun differ same => by simp [same] at differ
    exact (listed.pairwise_iff Ne.symm).mpr inIndex
  have apart : (entries.map Prod.snd).Nodup := by
    refine List.pairwise_map.mpr (distinct.imp_of_mem fun {a b} first second differ same => ?_)
    have other := placed b second
    rw [← same, placed a first] at other
    exact differ (Option.some.inj other)
  have whole : taken grouping.totals entries =
      entries.filterMap fun entry => grouping.totals[entry.2]?.map (entry.1, ·) := by
    rw [taken_eq _ apart, ← List.filterMap_eq_map]
    apply List.filterMap_congr
    rintro ⟨key, slot⟩ member
    have inside := held.slot_lt ((held.indexed key slot).mpr (placed _ member))
    simp [Array.getElem?_eq_getElem inside]
  have perm : (taken grouping.totals entries).Perm
      (keys.map fun key => (key, plan.totalsOf rows key)) := by
    rw [whole]
    exact (listed.filterMap _).trans held.entries_perm
  have single : (taken grouping.totals entries).Pairwise fun a b => a.1 ≠ b.1 :=
    (perm.pairwise_iff Ne.symm).mpr (List.pairwise_map.mpr held.single)
  rw [toList_ofList single, held.groups_eq]
  exact mergeSort_byKey_of_keys perm

end Holds

theorem finalize_acceptAll (plan : Plan) (rows : List Row) :
    ((start plan).acceptAll rows).finalize.toList = ((start plan).acceptAll rows).groups :=
  (holds_acceptAll plan rows).toList_taken (.refl _)

end Grouping

/-- Grouping in one pass ends with a grouping by key: the keys are those of the rows, they ascend,
and what an operation of the plan tells of a group is computed from the rows of that group in their
order, where a cell is a number when its trimmed text is one and finite. -/
theorem finalize_groups_by_key (plan : Plan)
    (complete : ∀ operation ∈ plan.operations, operation.Complete) (rows : List Row) :
    let groups := ((Grouping.start plan).acceptAll rows).finalize.toList
    (∀ key, key ∈ groups.map (·.1) ↔ ∃ row ∈ rows, Key.ofRow plan.groupBy row = key) ∧
    groups.Pairwise (fun a b => a.1.values < b.1.values) ∧
    (∀ entry ∈ groups, ∀ operation ∈ plan.operations,
      entry.2.value? operation = operation.over (rowsOf plan.groupBy entry.1 rows)) ∧
    ∀ cell value, measured? cell = some value ↔ Text.trim cell.toList ≠ [] ∧
      Decimal.read? (Text.trim cell.toList) = some value ∧ value.isFinite = true := by
  intro groups
  have listed : groups = _ :=
    (Grouping.finalize_acceptAll plan rows).trans (Grouping.groups_acceptAll plan rows)
  rw [listed]
  refine ⟨?_, ?_, ?_, measured?_eq_some_iff⟩
  · intro key
    rw [← mem_sortedKeys, List.map_map]
    exact (List.map_id _).symm ▸ Iff.rfl
  · exact List.pairwise_map.mpr (ascending_mergeSort_le (nodup_distinct _))
  · intro entry member operation asked
    obtain ⟨key, seen, rfl⟩ := List.mem_map.mp member
    exact Plan.value?_totalsOf ((mem_sortedKeys _ _ _).mp seen) asked (complete _ asked)

/-- Two groups that alternate, and a column that is summed for two operations. -/
theorem finalize_groups_by_key_alternating :
    let plan : Plan := ⟨["k"], [.count, .measure .sum "v", .measure .average "v"]⟩
    let row (key cell : String) : Row := .ofPairs [("k", key), ("v", cell)]
    let rows := [row "b" "1", row "a" "2", row "b" "x"]
    (∀ operation ∈ plan.operations, operation.Complete) ∧
    ∃ totals, (⟨["b"]⟩, totals) ∈ ((Grouping.start plan).acceptAll rows).finalize.toList ∧
      totals.value? .count = some (Float.ofNat 2) ∧
      totals.value? (.measure .average "v") =
        some (sumOf (numbersOf "v" [row "b" "1", row "b" "x"]) / Float.ofNat 2) := by
  intro plan row rows
  have complete : ∀ operation ∈ plan.operations, operation.Complete := by decide
  obtain ⟨keys, -, values, -⟩ := finalize_groups_by_key plan complete rows
  have seen := (keys ⟨["b"]⟩).mpr ⟨row "b" "1", List.mem_cons_self, by decide⟩
  obtain ⟨⟨_, totals⟩, member, rfl⟩ := List.mem_map.mp seen
  have those : rowsOf plan.groupBy ⟨["b"]⟩ rows = [row "b" "1", row "b" "x"] := by rfl
  have counted := values _ member .count (by decide)
  have averaged := values _ member (.measure .average "v") (by decide)
  rw [those] at counted averaged
  exact ⟨complete, totals, member, counted, averaged⟩

end Rollup.Group
