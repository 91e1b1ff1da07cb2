import Mathlib.Data.List.Forall2
import Mathlib.Data.List.Perm.Basic
import Rollup.Proofs.Decimal.Addition
import Rollup.Proofs.Decimal.Comparison
import Rollup.Proofs.Group.Finalization
import Rollup.Proofs.Group.Selection

/-! Rows in another order.  The groups are those of the same keys, and each group has the same rows
in another order, so what matters is how a fold over numbers depends on their order.  A minimum or
maximum is the number that stands first or last among them.  A sum is the same whenever any two
neighbours may be added first.  Main statement: in another order, rows give the same groups with
the same counts, minima and maxima, and the same sums and averages where addition associates. -/

namespace Rollup.Group

open Table Decimal

section Extremes

variable {β : Type} [LinearOrder β]

/-- A step that keeps one of two finite numbers, and none that comes after the other. -/
structure Keeps (place : Float → β) (step : Float → Float → Float) : Prop where
  either : ∀ a b, step a b = a ∨ step a b = b
  least : ∀ {a b}, a.isFinite = true → b.isFinite = true →
    place (step a b) ≤ place a ∧ place (step a b) ≤ place b
  equal : ∀ {a b}, a.isFinite = true → b.isFinite = true → place a = place b → (a == b) = true

theorem keeps_of_choice {place : Float → β} {step : Float → Float → Float}
    {before : Float → Float → Prop}
    (choice : ∀ a b, (before b a → step a b = b) ∧ (¬before b a → step a b = a))
    (order : ∀ {a b}, a.isFinite = true → b.isFinite = true → (before a b ↔ place a < place b))
    (equal : ∀ {a b}, a.isFinite = true → b.isFinite = true → place a = place b →
      (a == b) = true) : Keeps place step where
  either a b := by
    by_cases first : before b a
    · exact .inr ((choice a b).1 first)
    · exact .inl ((choice a b).2 first)
  least {a b} finite finite' := by
    by_cases first : before b a
    · rw [(choice a b).1 first]
      exact ⟨((order finite' finite).mp first).le, le_rfl⟩
    · rw [(choice a b).2 first]
      exact ⟨le_rfl, not_lt.mp (mt (order finite' finite).mpr first)⟩
  equal := equal

theorem keeps_lesser : Keeps standing lesser :=
  keeps_of_choice (fun _ _ => ⟨fun first => if_pos first, fun first => if_neg first⟩)
    lt_iff_standing fun finite finite' => (beq_iff_standing finite finite').mpr

theorem keeps_greater : Keeps (OrderDual.toDual ∘ standing) greater :=
  keeps_of_choice (fun _ _ => ⟨fun first => if_pos first, fun first => if_neg first⟩)
    (fun finite finite' => lt_iff_standing finite' finite)
    fun finite finite' => (beq_iff_standing finite finite').mpr

namespace Keeps

variable {place : Float → β} {step : Float → Float → Float} (keeps : Keeps place step)
include keeps

theorem foldl {numbers : List Float} {first : Float} (finite : first.isFinite = true)
    (others : ∀ x ∈ numbers, x.isFinite = true) :
    numbers.foldl step first ∈ first :: numbers ∧
      ∀ x ∈ first :: numbers, place (numbers.foldl step first) ≤ place x := by
  induction numbers generalizing first with
  | nil => simp
  | cons next rest ih =>
    obtain ⟨finite', others⟩ := List.forall_mem_cons.mp others
    obtain ⟨lower, lower'⟩ := keeps.least finite finite'
    have kept : (step first next).isFinite = true := by
      rcases keeps.either first next with same | same
      · rwa [same]
      · rwa [same]
    obtain ⟨member, least⟩ := ih kept others
    obtain ⟨head, tail⟩ := List.forall_mem_cons.mp least
    refine ⟨?_, List.forall_mem_cons.mpr ⟨head.trans lower,
      List.forall_mem_cons.mpr ⟨head.trans lower', tail⟩⟩⟩
    rw [List.foldl_cons]
    rcases List.mem_cons.mp member with same | later
    · rcases keeps.either first next with kept | kept
      · rw [same, kept]
        exact List.mem_cons_self
      · rw [same, kept]
        exact List.mem_cons_of_mem _ List.mem_cons_self
    · exact List.mem_cons_of_mem _ (List.mem_cons_of_mem _ later)

theorem fromFirst? {numbers : List Float} (finite : ∀ x ∈ numbers, x.isFinite = true)
    {kept : Float} (folded : Group.fromFirst? step numbers = some kept) :
    kept ∈ numbers ∧ ∀ x ∈ numbers, place kept ≤ place x := by
  cases numbers with
  | nil => cases folded
  | cons first rest =>
    obtain ⟨head, tail⟩ := List.forall_mem_cons.mp finite
    obtain rfl : rest.foldl step first = kept := Option.some.inj folded
    exact keeps.foldl head tail

theorem rel_of_perm {numbers numbers' : List Float} (perm : numbers.Perm numbers')
    (finite : ∀ x ∈ numbers, x.isFinite = true) :
    Option.Rel (fun x y => (x == y) = true) (Group.fromFirst? step numbers)
      (Group.fromFirst? step numbers') := by
  have finite' : ∀ x ∈ numbers', x.isFinite = true := fun x member =>
    finite x (perm.mem_iff.mpr member)
  cases folded : Group.fromFirst? step numbers with
  | none =>
    cases numbers with
    | nil =>
      rw [List.nil_perm.mp perm]
      exact .none
    | cons first rest => cases folded
  | some kept =>
    obtain ⟨member, least⟩ := keeps.fromFirst? finite folded
    cases folded' : Group.fromFirst? step numbers' with
    | none =>
      cases numbers' with
      | nil => cases perm.mem_iff.mp member
      | cons first rest => cases folded'
    | some kept' =>
      obtain ⟨member', least'⟩ := keeps.fromFirst? finite' folded'
      exact .some (keeps.equal (finite _ member) (finite' _ member')
        (le_antisymm (least _ (perm.mem_iff.mpr member')) (least' _ (perm.mem_iff.mp member))))

end Keeps

end Extremes

/-- Whatever the order, two neighbours may be added first. -/
def AddAssociates (numbers : List Float) : Prop :=
  ∀ front a b back, numbers.Perm (front ++ a :: b :: back) →
    sumOf front + a + b = sumOf front + (a + b)

theorem sumOf_append (front back : List Float) :
    sumOf (front ++ back) = back.foldl (· + ·) (sumOf front) := List.foldl_append

theorem sumOf_of_perm_after {numbers back back' : List Float} (associates : AddAssociates numbers)
    (perm : back.Perm back') (front : List Float) (all : numbers.Perm (front ++ back)) :
    sumOf (front ++ back) = sumOf (front ++ back') := by
  -- the front stands for all that was added before the rearranged part
  induction perm generalizing front with
  | nil => rfl
  | @cons x rest rest' _ ih =>
    rw [List.append_cons] at all ⊢
    rw [List.append_cons front x rest']
    exact ih (front ++ [x]) all
  | swap x y rest =>
    have first := associates front y x rest all
    have second := associates front x y rest
      (all.trans (List.Perm.append_left front (List.Perm.swap x y rest)))
    rw [sumOf_append, sumOf_append, List.foldl_cons, List.foldl_cons, List.foldl_cons,
      List.foldl_cons, first, second, float_add_comm x y]
  | trans first _ ih ih' =>
    exact (ih front all).trans (ih' front (all.trans (first.append_left front)))

theorem sumOf_of_perm {numbers numbers' : List Float} (associates : AddAssociates numbers)
    (perm : numbers.Perm numbers') : sumOf numbers = sumOf numbers' :=
  sumOf_of_perm_after associates perm [] (List.Perm.refl numbers)

section Integers

theorem natAbs_sum_le (values : List Int) : values.sum.natAbs ≤ (values.map Int.natAbs).sum := by
  induction values with
  | nil => exact le_rfl
  | cons value values ih =>
    rw [List.sum_cons, List.map_cons, List.sum_cons]
    exact (Int.natAbs_add_le _ _).trans (Nat.add_le_add_left ih _)

/-- Partial sums of integers are exact when all of them together stay small. -/
theorem foldl_ofInt {values : List Int} {start : Int}
    (small : start.natAbs + (values.map Int.natAbs).sum < exactBound) :
    (values.map Float.ofInt).foldl (· + ·) (Float.ofInt start) =
      Float.ofInt (start + values.sum) := by
  induction values generalizing start with
  | nil => rw [List.sum_nil, Int.add_zero]; rfl
  | cons value values ih =>
    rw [List.map_cons, List.sum_cons] at small
    have step := Int.natAbs_add_le start value
    rw [List.map_cons, List.foldl_cons, ofInt_add (by omega) (by omega) (by omega),
      ih (by omega), List.sum_cons, Int.add_assoc]

theorem sumOf_ofInt {values : List Int} (small : (values.map Int.natAbs).sum < exactBound) :
    sumOf (values.map Float.ofInt) = Float.ofInt values.sum := by
  have zero : (0.0 : Float) = Float.ofInt 0 := by decide +kernel
  have all : (0 : Int).natAbs + (values.map Int.natAbs).sum < exactBound := by simpa using small
  have folded := foldl_ofInt all
  rwa [Int.zero_add, ← zero] at folded

theorem exists_map_of_perm {values : List Int} {numbers : List Float}
    (perm : (values.map Float.ofInt).Perm numbers) :
    ∃ others : List Int, others.Perm values ∧ numbers = others.map Float.ofInt := by
  let matched (x : Float) (n : Int) : Prop := x = Float.ofInt n
  have pairs : List.Forall₂ matched (values.map Float.ofInt) values :=
    List.forall₂_map_left_iff.mpr (List.forall₂_same.mpr fun _ _ => rfl)
  obtain ⟨others, paired, reordered⟩ := List.perm_comp_forall₂ perm.symm pairs
  have same : List.Forall₂ (· = ·) numbers (others.map Float.ofInt) :=
    List.forall₂_map_right_iff.mpr paired
  rw [List.forall₂_eq_eq_eq] at same
  exact ⟨others, reordered, same⟩

theorem addAssociates_ofInt {values : List Int}
    (small : (values.map Int.natAbs).sum < exactBound) :
    AddAssociates (values.map Float.ofInt) := by
  intro front a b back perm
  obtain ⟨others, reordered, same⟩ := exists_map_of_perm perm
  obtain ⟨before, others, rfl, rfl, found⟩ := List.append_eq_map_iff.mp same
  obtain ⟨m, others, rfl, rfl, found'⟩ := List.map_eq_cons_iff.mp found
  obtain ⟨n, others, rfl, rfl, -⟩ := List.map_eq_cons_iff.mp found'
  rw [← (reordered.map Int.natAbs).sum_eq] at small
  simp only [List.map_append, List.map_cons, List.sum_append, List.sum_cons] at small
  have front := natAbs_sum_le before
  have step := Int.natAbs_add_le before.sum m
  have pair := Int.natAbs_add_le m n
  have both := Int.natAbs_add_le (before.sum + m) n
  rw [sumOf_ofInt (by omega), ofInt_add (by omega) (by omega) (by omega),
    ofInt_add (by omega) (by omega) (by omega), ofInt_add (a := m) (by omega) (by omega) (by omega),
    ofInt_add (by omega) (by omega) (by omega), Int.add_assoc]

end Integers

theorem numbersOf_of_perm {rows rows' : List Row} (perm : rows.Perm rows') (column : String) :
    (numbersOf column rows).Perm (numbersOf column rows') := perm.filterMap _

theorem isFinite_of_mem_numbersOf {column : String} {rows : List Row} :
    ∀ x ∈ numbersOf column rows, x.isFinite = true := by
  intro x member
  obtain ⟨row, -, read⟩ := List.mem_filterMap.mp member
  exact ((measured?_eq_some_iff _ _).mp read).2.2

namespace Totals

variable {reductions : List ColumnReduction} (single : reductions.Nodup) {rows rows' : List Row}
  (perm : rows.Perm rows') (column : String)
include single perm

theorem rel_of_reduction {β : Type} [LinearOrder β] {place : Float → β}
    {step : Float → Float → Float} (keeps : Keeps place step) {reduction : Reduction}
    {part : ColumnTotals → Option Float} (empty : part {} = none)
    (own : ∀ totals, part totals = part (totals.only reduction))
    (folded : ∀ numbers, part (.addAll reduction {} numbers) = fromFirst? step numbers) :
    Option.Rel (fun x y => (x == y) = true) (part ((ofRows reductions rows).inColumn column))
      (part ((ofRows reductions rows').inColumn column)) := by
  rw [own, only_inColumn_ofRows single, own (inColumn (ofRows reductions rows') column),
    only_inColumn_ofRows single]
  split
  case isTrue asked =>
    rw [folded, folded]
    exact keeps.rel_of_perm (numbersOf_of_perm perm column) isFinite_of_mem_numbersOf
  case isFalse idle =>
    rw [empty]
    exact .none

theorem minimum?_of_perm :
    Option.Rel (fun x y => (x == y) = true) ((ofRows reductions rows).minimum? column)
      ((ofRows reductions rows').minimum? column) := by
  rw [minimum?_eq, minimum?_eq]
  exact rel_of_reduction single perm column keeps_lesser rfl (fun _ => rfl)
    ColumnTotals.minimum_addAll

theorem maximum?_of_perm :
    Option.Rel (fun x y => (x == y) = true) ((ofRows reductions rows).maximum? column)
      ((ofRows reductions rows').maximum? column) := by
  rw [maximum?_eq, maximum?_eq]
  exact rel_of_reduction single perm column keeps_greater rfl (fun _ => rfl)
    ColumnTotals.maximum_addAll

theorem sum_of_perm (associates : AddAssociates (numbersOf column rows)) :
    (ofRows reductions rows).sum column = (ofRows reductions rows').sum column := by
  by_cases asked : ⟨column, .sum⟩ ∈ reductions
  · rw [sum_ofRows single asked, sum_ofRows single asked]
    exact sumOf_of_perm associates (numbersOf_of_perm perm column)
  · have zero (rows : List Row) : (ofRows reductions rows).sum column = 0.0 := by
      have idle := only_inColumn_ofRows single rows column .sum
      rw [if_neg asked] at idle
      rw [sum_eq]
      exact congrArg ColumnTotals.sum idle
    rw [zero, zero]

end Totals

theorem sortedKeys_of_perm {rows rows' : List Row} (perm : rows.Perm rows')
    (groupBy : List String) : sortedKeys groupBy rows = sortedKeys groupBy rows' := by
  have ascends (rows : List Row) :
      (sortedKeys groupBy rows).Pairwise fun a b => a.values < b.values :=
    ascending_mergeSort_le (nodup_distinct _)
  refine eq_of_ascending (ascends rows) (ascends rows') fun key => ?_
  rw [mem_sortedKeys, mem_sortedKeys]
  exact ⟨fun ⟨row, member, same⟩ => ⟨row, perm.mem_iff.mp member, same⟩,
    fun ⟨row, member, same⟩ => ⟨row, perm.mem_iff.mpr member, same⟩⟩

/-- Groups, counts, minima and maxima do not depend on the order of the rows, and neither do sums
and averages of numbers that can be added in any order, such as integers whose sizes add up to
less than 2^53. -/
theorem finalize_of_perm (plan : Plan) {rows rows' : List Row} (perm : rows.Perm rows') :
    let groups := ((Grouping.start plan).acceptAll rows).finalize.toList
    let groups' := ((Grouping.start plan).acceptAll rows').finalize.toList
    groups.map (·.1) = groups'.map (·.1) ∧
    (∀ key totals totals', (key, totals) ∈ groups → (key, totals') ∈ groups' →
      totals.count = totals'.count ∧
      ∀ column,
        Option.Rel (fun x y => (x == y) = true)
          (totals.minimum? column) (totals'.minimum? column) ∧
        Option.Rel (fun x y => (x == y) = true)
          (totals.maximum? column) (totals'.maximum? column) ∧
        (AddAssociates (numbersOf column (rowsOf plan.groupBy key rows)) →
          totals.sum column = totals'.sum column ∧
          totals.average column = totals'.average column)) ∧
    ∀ values : List Int, (values.map Int.natAbs).sum < 2 ^ 53 →
      AddAssociates (values.map Float.ofInt) := by
  intro groups groups'
  have listed : groups = _ :=
    (Grouping.finalize_acceptAll plan rows).trans (Grouping.groups_acceptAll plan rows)
  have listed' : groups' = _ :=
    (Grouping.finalize_acceptAll plan rows').trans (Grouping.groups_acceptAll plan rows')
  refine ⟨?_, ?_, fun values small => addAssociates_ofInt small⟩
  · rw [listed, listed', List.map_map, List.map_map, sortedKeys_of_perm perm]
    rfl
  · intro key totals totals' member member'
    rw [listed] at member
    rw [listed'] at member'
    obtain ⟨_, -, ⟨⟩⟩ := List.mem_map.mp member
    obtain ⟨_, -, ⟨⟩⟩ := List.mem_map.mp member'
    have reordered : (rowsOf plan.groupBy key rows).Perm (rowsOf plan.groupBy key rows') :=
      perm.filter _
    have count : (plan.totalsOf rows key).count = (plan.totalsOf rows' key).count := by
      rw [Plan.totalsOf, Plan.totalsOf, Totals.count_ofRows, Totals.count_ofRows,
        reordered.length_eq]
    refine ⟨count, fun column => ⟨Totals.minimum?_of_perm plan.nodup_reductions reordered column,
      Totals.maximum?_of_perm plan.nodup_reductions reordered column, fun associates => ?_⟩⟩
    have sum := Totals.sum_of_perm plan.nodup_reductions reordered column associates
    refine ⟨sum, ?_⟩
    rw [Totals.average, Totals.average, count]
    exact congrArg (ite _ _ <| · / _) sum

/-- A group whose numbers arrive in the opposite order, around another group. -/
theorem finalize_of_perm_reversed :
    let plan : Plan := ⟨["k"], [.measure .minimum "v", .measure .average "v"]⟩
    let row (key cell : String) : Row := .ofPairs [("k", key), ("v", cell)]
    let rows := [row "b" "3", row "a" "x", row "b" "-1", row "b" " 2"]
    let groups := ((Grouping.start plan).acceptAll rows).finalize.toList
    let groups' := ((Grouping.start plan).acceptAll rows.reverse).finalize.toList
    rows.Perm rows.reverse ∧ groups.map (·.1) = groups'.map (·.1) ∧
    ∃ totals totals', (⟨["b"]⟩, totals) ∈ groups ∧ (⟨["b"]⟩, totals') ∈ groups' ∧
      totals.count = totals'.count ∧ totals.average "v" = totals'.average "v" ∧
      Option.Rel (fun x y => (x == y) = true) (totals.minimum? "v") (totals'.minimum? "v") := by
  intro plan row rows groups groups'
  have perm : rows.Perm rows.reverse := (List.reverse_perm rows).symm
  obtain ⟨keys, totals, integers⟩ := finalize_of_perm plan perm
  have numbers : numbersOf "v" (rowsOf plan.groupBy ⟨["b"]⟩ rows) = [3, -1, 2].map Float.ofInt := by
    decide +kernel
  have seen (rows : List Row) (there : row "b" "3" ∈ rows) :
      (⟨["b"]⟩, plan.totalsOf rows ⟨["b"]⟩) ∈
        ((Grouping.start plan).acceptAll rows).finalize.toList := by
    rw [Grouping.finalize_acceptAll, Grouping.groups_acceptAll]
    have key := (mem_sortedKeys plan.groupBy rows ⟨["b"]⟩).mpr ⟨_, there, by decide⟩
    exact List.mem_map_of_mem key
  have member := seen rows List.mem_cons_self
  have member' := seen rows.reverse (List.mem_reverse.mpr List.mem_cons_self)
  obtain ⟨count, columns⟩ := totals _ _ _ member member'
  obtain ⟨minimum, -, sums⟩ := columns "v"
  have average := (sums (numbers ▸ integers [3, -1, 2] (by decide))).2
  exact ⟨perm, keys, _, _, member, member', count, average, minimum⟩

end Rollup.Group
