import Mathlib.Data.List.Nodup
import Rollup.Group.Ranking
import Rollup.Proofs.Group.Order

/-! Who comes before whom in a ranking.  The greater value does, in the total order of binary64,
and of equal values the one with the earlier key; so no two entries with different keys share a
place.  Main statement: a ranking is the front of the one list of all groups in this order, whatever
order the groups were given in, and each entry has the value that the metric's operation tells. -/

namespace Rollup.Group

namespace Ranked

/-- An entry ranks strictly before another one. -/
def Before (a b : Ranked) : Prop :=
  Decimal.rank b.value < Decimal.rank a.value ∨
    Decimal.rank a.value = Decimal.rank b.value ∧ a.key.values < b.key.values

theorem le_iff (a b : Ranked) : a.le b = true ↔
    Decimal.rank b.value < Decimal.rank a.value ∨
      Decimal.rank a.value = Decimal.rank b.value ∧ a.key.le b.key = true := by
  simp [le]

theorem le_transitive (a b c : Ranked) (first : a.le b = true) (second : b.le c = true) :
    a.le c = true := by
  rw [le_iff] at *
  rcases first with greater | ⟨same, earlier⟩
  · left
    omega
  · rcases second with greater | ⟨equal, later⟩
    · left
      omega
    · exact .inr ⟨same.trans equal, Key.le_transitive _ _ _ earlier later⟩

theorem le_total (a b : Ranked) : (a.le b || b.le a) = true := by
  rw [Bool.or_eq_true, le_iff, le_iff]
  rcases Nat.lt_trichotomy (Decimal.rank a.value) (Decimal.rank b.value) with less | same | greater
  · exact .inr (.inl less)
  · have either := Key.le_total a.key b.key
    rw [Bool.or_eq_true] at either
    exact either.imp (.inr ⟨same, ·⟩) (.inr ⟨same.symm, ·⟩)
  · exact .inl (.inl greater)

theorem key_eq_of_le_of_le {a b : Ranked} (first : a.le b = true) (second : b.le a = true) :
    a.key = b.key := by
  rw [le_iff] at first second
  rcases first with greater | ⟨same, earlier⟩
  · omega
  · rcases second with greater | ⟨-, later⟩
    · omega
    · exact Key.eq_of_le_of_le earlier later

theorem before_of_le {a b : Ranked} (first : a.le b = true) (differ : a.key ≠ b.key) :
    a.Before b :=
  ((le_iff a b).mp first).imp_right fun both => ⟨both.1, Key.lt_of_le_of_ne both.2 differ⟩

end Ranked

def entryOf (metric : Metric) (group : Key × Totals) : Ranked :=
  ⟨group.1, metric.value group.2 + 0.0⟩

/-- All groups, ranked. -/
def standings (metric : Metric) (groups : List (Key × Totals)) : List Ranked :=
  (groups.map (entryOf metric)).mergeSort Ranked.le

theorem ranking_eq (metric : Metric) (wanted : Nat) (groups : List (Key × Totals)) :
    ranking metric wanted groups = (standings metric groups).take wanted := rfl

section

variable {metric : Metric} {groups others : List (Key × Totals)}

theorem mem_standings {entry : Ranked} :
    entry ∈ standings metric groups ↔ ∃ group ∈ groups, entryOf metric group = entry := by
  rw [standings, List.mem_mergeSort, List.mem_map]

variable (single : (groups.map Prod.fst).Nodup)
include single

theorem standings_before : (standings metric groups).Pairwise Ranked.Before := by
  have sorted := List.pairwise_mergeSort Ranked.le_transitive Ranked.le_total
    (groups.map (entryOf metric))
  have keys : ((groups.map (entryOf metric)).map Ranked.key).Nodup := by
    rwa [List.map_map]
  have differ : ((standings metric groups).map Ranked.key).Nodup :=
    ((List.mergeSort_perm _ _).map Ranked.key).nodup_iff.mpr keys
  exact (sorted.and (List.pairwise_map.mp differ)).imp fun both =>
    Ranked.before_of_le both.1 both.2

/-- Different keys leave only one order. -/
theorem standings_of_perm (perm : groups.Perm others) :
    standings metric others = standings metric groups := by
  have same : (standings metric others).Perm (standings metric groups) :=
    (List.mergeSort_perm _ _).trans
      ((perm.symm.map _).trans (List.mergeSort_perm _ _).symm)
  refine same.eq_of_pairwise ?_
    (List.pairwise_mergeSort Ranked.le_transitive Ranked.le_total _)
    (List.pairwise_mergeSort Ranked.le_transitive Ranked.le_total _)
  intro a b first second upper lower
  obtain ⟨group, member, rfl⟩ := mem_standings.mp (same.mem_iff.mp first)
  obtain ⟨group', member', rfl⟩ := mem_standings.mp second
  have equal : group = group' :=
    List.inj_on_of_nodup_map single member member' (Ranked.key_eq_of_le_of_le upper lower)
  rw [equal]

end

/-- The best groups come first, each with its value, and the others rank behind all of them. -/
theorem ranking_front (metric : Metric) {groups : List (Key × Totals)}
    (single : (groups.map Prod.fst).Nodup) (wanted : Nat) :
    (ranking metric wanted groups).length = min wanted groups.length ∧
    (ranking metric wanted groups).Pairwise Ranked.Before ∧
    (∀ entry ∈ ranking metric wanted groups, ∃ totals, (entry.key, totals) ∈ groups ∧
      entry.value =
        (metric.operation?.bind totals.value?).getD (-Decimal.infinity) + 0.0) ∧
    (∀ key totals, (key, totals) ∈ groups →
      key ∉ (ranking metric wanted groups).map Ranked.key →
      ∀ entry ∈ ranking metric wanted groups, entry.Before
        ⟨key, (metric.operation?.bind totals.value?).getD (-Decimal.infinity) + 0.0⟩) ∧
    (∀ others, groups.Perm others → ranking metric wanted others = ranking metric wanted groups) ∧
    ∀ more, wanted ≤ more → ranking metric wanted groups <+: ranking metric more groups := by
  have before : (standings metric groups).Pairwise Ranked.Before := standings_before single
  refine ⟨length_ranking metric wanted groups, ?_, ?_, ?_, ?_, ?_⟩
  · exact before.sublist (List.take_sublist wanted _)
  · intro entry member
    obtain ⟨⟨key, totals⟩, given, rfl⟩ := mem_standings.mp (List.mem_of_mem_take member)
    refine ⟨totals, given, ?_⟩
    rw [← Metric.value_eq]
    rfl
  · intro key totals given absent entry member
    have listed : entryOf metric (key, totals) ∈ standings metric groups :=
      mem_standings.mpr ⟨_, given, rfl⟩
    rw [← List.take_append_drop wanted (standings metric groups)] at listed before
    have behind : entryOf metric (key, totals) ∈ (standings metric groups).drop wanted :=
      (List.mem_append.mp listed).resolve_left fun front => absent (List.mem_map_of_mem front)
    rw [← Metric.value_eq]
    exact (List.pairwise_append.mp before).2.2 entry member _ behind
  · intro others perm
    rw [ranking_eq, ranking_eq, standings_of_perm single perm]
  · intro more atLeast
    rw [ranking_eq, ranking_eq]
    exact List.take_prefix_take_left atLeast

/-- Two equal minima, and behind them a group that has none. -/
theorem ranking_front_unobserved :
    let metric := Metric.measure .minimum "v"
    let seen : Totals := { count := 1, columns := [("v", { minimum := some 2.0 })] }
    let groups : List (Key × Totals) :=
      [(⟨["b"]⟩, seen), (⟨["c"]⟩, seen), (⟨["a"]⟩, { count := 1 })]
    (groups.map Prod.fst).Nodup ∧
    (ranking metric 2 groups).map Ranked.key = [⟨["b"]⟩, ⟨["c"]⟩] ∧
    (ranking metric 2 groups).Pairwise Ranked.Before ∧
    (∀ entry ∈ ranking metric 2 groups, entry.Before ⟨⟨["a"]⟩, -Decimal.infinity + 0.0⟩) ∧
    ranking metric 2 groups.reverse = ranking metric 2 groups ∧
    ranking metric 2 groups <+: ranking metric 3 groups := by
  intro metric seen groups
  have single : (groups.map Prod.fst).Nodup := by decide
  have placed : (groups.map (entryOf metric)).Pairwise fun a b => a.le b = true := by
    decide +kernel
  have keys : (ranking metric 2 groups).map Ranked.key = [⟨["b"]⟩, ⟨["c"]⟩] := by
    rw [ranking_eq, standings, List.mergeSort_of_pairwise placed]
    rfl
  obtain ⟨-, sorted, -, behind, orderless, longer⟩ := ranking_front metric single 2
  refine ⟨single, keys, sorted, ?_, orderless _ (List.reverse_perm groups).symm,
    longer 3 (by decide)⟩
  exact behind ⟨["a"]⟩ { count := 1 } (by simp [groups]) (by rw [keys]; decide)

end Rollup.Group
