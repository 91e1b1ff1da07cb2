import Rollup.Group.Key

/-! The order of group keys is the dictionary order of their values, so it is a linear one.  Main
statement: a list is determined by its members once it is sorted by different keys, whatever else
its entries hold. -/

namespace Rollup.Group

namespace Key

theorem string_lt_iff (a b : String) : a < b ↔ ¬b < a ∧ a ≠ b := by
  constructor
  · exact fun first => ⟨String.lt_asymm first, String.ne_of_lt first⟩
  · rintro ⟨notLater, differ⟩
    refine Decidable.byContradiction fun notFirst => differ ?_
    exact String.le_antisymm (String.not_lt.mp notLater) (String.not_lt.mp notFirst)

theorem atMost_iff (a b : List String) : atMost a b = true ↔ ¬b < a := by
  induction a generalizing b with
  | nil => simp [atMost]
  | cons first rest ih =>
    cases b with
    | nil => simp [atMost]
    | cons other others =>
      rw [List.cons_lt_cons_iff]
      unfold atMost
      split
      case isTrue same =>
        subst same
        simp [ih]
      case isFalse differ =>
        rw [decide_eq_true_iff, string_lt_iff]
        simp [differ, Ne.symm differ]

theorem le_iff (a b : Key) : a.le b = true ↔ ¬b.values < a.values := atMost_iff a.values b.values

theorem le_transitive (a b c : Key) (first : a.le b = true) (second : b.le c = true) :
    a.le c = true := by
  rw [le_iff] at *
  exact List.not_lt.mpr (List.le_trans (List.not_lt.mp first) (List.not_lt.mp second))

theorem le_total (a b : Key) : (a.le b || b.le a) = true := by
  rw [Bool.or_eq_true, le_iff, le_iff]
  exact (List.le_total a.values b.values).imp List.not_lt.mpr List.not_lt.mpr

theorem eq_of_le_of_le {a b : Key} (first : a.le b = true) (second : b.le a = true) : a = b := by
  rw [le_iff] at first second
  have same : a.values = b.values :=
    List.le_antisymm (List.not_lt.mp first) (List.not_lt.mp second)
  cases a
  cases b
  exact congrArg Key.mk same

theorem lt_of_le_of_ne {a b : Key} (upper : a.le b = true) (differ : a ≠ b) :
    a.values < b.values := by
  refine Decidable.byContradiction fun lower => differ ?_
  exact eq_of_le_of_le upper ((le_iff b a).mpr lower)

theorem le_refl (key : Key) : key.le key = true := atMost_refl key.values

theorem isLE_order (a b : Key) : (order a b).isLE = a.le b := by
  unfold order
  split
  case isTrue same =>
    subst same
    exact (le_refl a).symm
  case isFalse differ =>
    cases a.le b <;> rfl

instance : Std.TransCmp order where
  eq_swap := by
    intro a b
    unfold order
    by_cases same : a = b
    · subst same
      simp
    · rw [if_neg same, if_neg (Ne.symm same)]
      cases first : a.le b with
      | true =>
        have second : b.le a = false :=
          Bool.eq_false_iff.mpr fun second => same (eq_of_le_of_le first second)
        rw [second]
        rfl
      | false =>
        have second : b.le a = true := by
          have total := le_total a b
          rwa [first, Bool.false_or] at total
        rw [second]
        rfl
  isLE_trans := by
    intro a b c first second
    rw [isLE_order] at *
    exact le_transitive a b c first second

instance : Std.LawfulEqCmp order where
  eq_of_compare := by
    intro a b same
    have first : a.le b = true := by rw [← isLE_order, same]; rfl
    have second : b.le a = true := by rw [← isLE_order, Std.OrientedCmp.eq_comm.mp same]; rfl
    exact eq_of_le_of_le first second

end Key

/-- Entries by ascending key. -/
def byKey {α : Type} (a b : Key × α) : Bool := a.1.le b.1

section Entries

variable {α : Type} {entries others : List (Key × α)}

theorem pairwise_mergeSort_byKey (entries : List (Key × α)) :
    (entries.mergeSort byKey).Pairwise fun a b => byKey a b = true :=
  List.pairwise_mergeSort (fun a b c => Key.le_transitive a.1 b.1 c.1)
    (fun a b => Key.le_total a.1 b.1) entries

theorem mergeSort_byKey_of_perm (same : entries.Perm others)
    (single : ∀ a ∈ entries, ∀ b ∈ entries, a.1 = b.1 → a = b) :
    entries.mergeSort byKey = others.mergeSort byKey := by
  have sorted := (List.mergeSort_perm entries byKey).trans
    (same.trans (List.mergeSort_perm others byKey).symm)
  refine sorted.eq_of_pairwise ?_ (pairwise_mergeSort_byKey entries)
    (pairwise_mergeSort_byKey others)
  intro a b first second upper lower
  rw [List.mem_mergeSort] at first second
  exact single a first b (same.mem_iff.mpr second) (Key.eq_of_le_of_le upper lower)

end Entries

theorem ascending_mergeSort_le {keys : List Key} (single : keys.Nodup) :
    (keys.mergeSort Key.le).Pairwise fun a b => a.values < b.values := by
  have sorted := List.pairwise_mergeSort Key.le_transitive Key.le_total keys
  have differ := (List.mergeSort_perm keys Key.le).nodup_iff.mpr single
  exact (sorted.and differ).imp fun both => Key.lt_of_le_of_ne both.1 both.2

theorem mergeSort_byKey_of_keys {α : Type} {entries : List (Key × α)} {keys : List Key}
    {value : Key → α} (made : entries.Perm (keys.map fun key => (key, value key))) :
    entries.mergeSort byKey = (keys.mergeSort Key.le).map fun key => (key, value key) := by
  have sorted : (keys.map fun key => (key, value key)).mergeSort byKey =
      (keys.mergeSort Key.le).map fun key => (key, value key) := by
    rw [List.map_mergeSort]
    intro a _ b _
    rfl
  refine (mergeSort_byKey_of_perm made ?_).trans sorted
  intro a first b second same
  obtain ⟨key, -, rfl⟩ := List.mem_map.mp (made.mem_iff.mp first)
  obtain ⟨other, -, rfl⟩ := List.mem_map.mp (made.mem_iff.mp second)
  obtain rfl : key = other := same
  rfl

end Rollup.Group
