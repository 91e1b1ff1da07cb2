import Mathlib.Algebra.BigOperators.Group.List.Lemmas
import Mathlib.Algebra.GroupWithZero.Nat
import Rollup.Proofs.Group.Partition

/-! Parts of a grouping.  A row belongs to the one group of its key, and the totals of a group hang
on its own rows alone.  Main statements: the counts of all groups add up to the number of rows, and
the rows whose keys pass a test make exactly those groups, with the same totals. -/

namespace Rollup.Group

open Table

theorem eq_of_ascending {first second : List Key}
    (ascends : first.Pairwise fun a b => a.values < b.values)
    (ascends' : second.Pairwise fun a b => a.values < b.values)
    (members : ∀ key, key ∈ first ↔ key ∈ second) : first = second := by
  have differ : ∀ {a b : Key}, a.values < b.values → a ≠ b := by
    rintro a _ before rfl
    exact List.lt_irrefl _ before
  have perm := (List.perm_ext_iff_of_nodup (ascends.imp differ) (ascends'.imp differ)).mpr members
  refine perm.eq_of_pairwise ?_ ascends ascends'
  intro a b _ _ before after
  exact absurd before (List.lt_asymm after)

section

variable (groupBy : List String)

theorem length_rowsOf (key : Key) (rows : List Row) :
    (rowsOf groupBy key rows).length = (rows.map (Key.ofRow groupBy)).count key := by
  rw [rowsOf, ← List.countP_eq_length_filter, List.count, List.countP_map]
  rfl

theorem sortedKeys_perm_dedup (rows : List Row) :
    (sortedKeys groupBy rows).Perm (rows.map (Key.ofRow groupBy)).dedup := by
  refine (List.mergeSort_perm _ _).trans ?_
  refine (List.perm_ext_iff_of_nodup (nodup_distinct _) (List.nodup_dedup _)).mpr fun key => ?_
  rw [mem_distinct, List.mem_dedup]

theorem sum_length_rowsOf (rows : List Row) :
    ((sortedKeys groupBy rows).map fun key => (rowsOf groupBy key rows).length).sum =
      rows.length := by
  let keys := rows.map (Key.ofRow groupBy)
  calc
    _ = ((sortedKeys groupBy rows).map fun key => keys.count key).sum := by
      simp only [length_rowsOf, keys]
    _ = (keys.dedup.map fun key => keys.count key).sum :=
      ((sortedKeys_perm_dedup groupBy rows).map _).sum_eq
    _ = keys.length := List.sum_map_count_dedup_eq_length keys
    _ = rows.length := List.length_map _

variable (selects : Key → Bool)

def selected (rows : List Row) : List Row := rows.filter fun row => selects (.ofRow groupBy row)

theorem rowsOf_selected {key : Key} (passes : selects key = true) (rows : List Row) :
    rowsOf groupBy key (selected groupBy selects rows) = rowsOf groupBy key rows := by
  rw [rowsOf, selected, List.filter_filter, rowsOf]
  apply List.filter_congr
  intro row _
  by_cases same : Key.ofRow groupBy row = key
  · simp [same, passes]
  · simp [same]

theorem sortedKeys_selected (rows : List Row) :
    sortedKeys groupBy (selected groupBy selects rows) =
      (sortedKeys groupBy rows).filter selects := by
  have ascends : ∀ some : List Row,
      (sortedKeys groupBy some).Pairwise fun a b => a.values < b.values :=
    fun some => ascending_mergeSort_le (nodup_distinct _)
  refine eq_of_ascending (ascends _) ((ascends rows).filter _) fun key => ?_
  rw [mem_sortedKeys, List.mem_filter, mem_sortedKeys]
  constructor
  · rintro ⟨row, member, rfl⟩
    have both := List.mem_filter.mp member
    exact ⟨⟨row, both.1, rfl⟩, both.2⟩
  · rintro ⟨⟨row, member, rfl⟩, passes⟩
    exact ⟨row, List.mem_filter.mpr ⟨member, passes⟩, rfl⟩

end

namespace Grouping

variable (plan : Plan) (rows : List Row)

theorem sum_count_groups :
    (((start plan).acceptAll rows).groups.map (·.2.count)).sum = rows.length := by
  rw [groups_acceptAll, List.map_map, ← sum_length_rowsOf plan.groupBy rows]
  congr 1
  apply List.map_congr_left
  intro key _
  exact Totals.count_ofRows _ _

/-- Grouping the selected rows is selecting the groups. -/
theorem groups_selected (selects : Key → Bool) :
    ((start plan).acceptAll (selected plan.groupBy selects rows)).groups =
      ((start plan).acceptAll rows).groups.filter fun entry => selects entry.1 := by
  rw [groups_acceptAll, groups_acceptAll, List.filter_map, sortedKeys_selected]
  apply List.map_congr_left
  intro key member
  have passes : selects key = true := (List.mem_filter.mp member).2
  rw [Plan.totalsOf, rowsOf_selected _ _ passes, Plan.totalsOf]

theorem slot_lt_size {key : Key} {slot : Nat}
    (found : ((start plan).acceptAll rows).index[key]? = some slot) :
    slot < ((start plan).acceptAll rows).totals.size :=
  (holds_acceptAll plan rows).slot_lt found

end Grouping

end Rollup.Group
