import Rollup.Proofs.Group.Order
import Rollup.Proofs.Text.Collation

/-! Group keys stand in the order of a dictionary whose letters are whole values: a key stands
before all that begin with it, and otherwise the first value that differs decides by its bytes.
Main statement: of two different keys exactly one stands before the other, this order is
transitive, and there is only one way to sort a list of keys by it. -/

namespace Rollup.Group.Key

open Text.Utf8

/-- The values of a key that stands strictly before another one: they are the beginning of the
other ones, or have the lesser bytes in the first value that differs. -/
inductive Precedes : List String → List String → Prop where
  | beginning {values more : List String} (longer : more ≠ []) : Precedes values (values ++ more)
  | value {shared values others : List String} {a b : String} (less : encode a < encode b) :
      Precedes (shared ++ a :: values) (shared ++ b :: others)

theorem Precedes.cons {values others : List String} (precedes : Precedes values others)
    (first : String) : Precedes (first :: values) (first :: others) := by
  cases precedes with
  | beginning longer => exact .beginning longer
  | @value shared values others a b less => exact @value (first :: shared) values others a b less

theorem precedes_of_lt {values others : List String} (less : values < others) :
    Precedes values others := by
  induction values generalizing others with
  | nil =>
    have some : others ≠ [] := by
      rintro rfl
      exact List.not_lt_nil [] less
    exact .beginning some
  | cons a values ih =>
    cases others with
    | nil => exact absurd less (List.not_lt_nil _)
    | cons b others =>
      rcases List.cons_lt_cons_iff.mp less with first | ⟨rfl, rest⟩
      · exact @Precedes.value [] values others a b ((encode_lt_encode_iff a b).mpr first)
      · exact (ih rest).cons a

theorem precedes_iff (values others : List String) : Precedes values others ↔ values < others := by
  refine ⟨fun precedes => ?_, precedes_of_lt⟩
  cases precedes with
  | @beginning values more longer =>
    obtain ⟨first, rest, rfl⟩ := List.exists_cons_of_ne_nil longer
    have less : values ++ [] < values ++ first :: rest :=
      List.append_left_lt (List.nil_lt_cons first rest)
    rwa [List.append_nil] at less
  | value less =>
    have first := (encode_lt_encode_iff _ _).mp less
    exact List.append_left_lt (List.cons_lt_cons_iff.mpr (.inl first))

theorem order_eq_lt_iff (a b : Key) : a.order b = .lt ↔ a.values < b.values := by
  unfold order
  by_cases same : a = b
  · subst same
    rw [if_pos rfl]
    exact iff_of_false (by decide) (List.lt_irrefl a.values)
  · rw [if_neg same]
    cases upTo : a.le b with
    | true => simp [lt_of_le_of_ne upTo same]
    | false =>
      have above : b.values < a.values := by
        rw [← Bool.not_eq_true, le_iff, Decidable.not_not] at upTo
        exact upTo
      simp [List.lt_asymm above]

theorem order_ne_gt_iff (a b : Key) : a.order b ≠ .gt ↔ a.le b = true := by
  rw [← isLE_order]
  cases a.order b <;> simp

theorem order_trichotomy (a b : Key) :
    (a.order b = .lt ∧ a ≠ b ∧ b.order a ≠ .lt) ∨ (a.order b ≠ .lt ∧ a = b ∧ b.order a ≠ .lt) ∨
      (a.order b ≠ .lt ∧ a ≠ b ∧ b.order a = .lt) := by
  have swapped : b.order a = (a.order b).swap := Std.OrientedCmp.eq_swap
  have equal : a.order b = .eq ↔ a = b := Std.LawfulEqCmp.compare_eq_iff_eq
  simp only [swapped, ne_eq, ← equal]
  cases a.order b <;> simp

theorem eq_mergeSort_of_perm {keys sorted : List Key} (perm : sorted.Perm keys)
    (ascends : sorted.Pairwise fun a b => a.order b ≠ .gt) : sorted = keys.mergeSort le := by
  have upTo : sorted.Pairwise fun a b => a.le b = true :=
    ascends.imp fun {a b} => (order_ne_gt_iff a b).mp
  have whole := perm.trans (List.mergeSort_perm keys le).symm
  refine whole.eq_of_pairwise ?_ upTo (List.pairwise_mergeSort le_transitive le_total keys)
  exact fun a b _ _ => eq_of_le_of_le

/-- The order of group keys. -/
theorem order_dictionary :
    (∀ a b : Key, (a.order b = .lt ∧ a ≠ b ∧ b.order a ≠ .lt) ∨
      (a.order b ≠ .lt ∧ a = b ∧ b.order a ≠ .lt) ∨ (a.order b ≠ .lt ∧ a ≠ b ∧ b.order a = .lt)) ∧
    (∀ a b c : Key, a.order b = .lt → b.order c = .lt → a.order c = .lt) ∧
    (∀ a b : Key, a.order b = .lt ↔ Precedes a.values b.values) ∧
    (∀ key : Key, key ≠ everything → everything.order key = .lt) ∧
    (∀ s t : String, encode s < encode t ↔ s.toList.map Char.toNat < t.toList.map Char.toNat) ∧
    ∀ keys : List Key, (keys.mergeSort le).mergeSort le = keys.mergeSort le ∧
      ∀ sorted : List Key, sorted.Perm keys → sorted.Pairwise (fun a b => a.order b ≠ .gt) →
        sorted = keys.mergeSort le := by
  have precedes (a b : Key) : a.order b = .lt ↔ Precedes a.values b.values :=
    (order_eq_lt_iff a b).trans (precedes_iff _ _).symm
  refine ⟨order_trichotomy, fun a b c => Std.TransCmp.lt_trans, precedes, ?_, ?_, fun keys => ?_⟩
  · intro key differ
    refine (precedes everything key).mpr (.beginning ?_)
    exact fun none => differ (congrArg Key.mk none)
  · intro s t
    rw [encode_lt_encode_iff, codePoints_lt_iff]
  · refine ⟨List.mergeSort_of_pairwise ?_, fun sorted => eq_mergeSort_of_perm⟩
    exact List.pairwise_mergeSort le_transitive le_total keys

/-- A character of three bytes stands before one of four, although in 16-bit units it would stand
behind it, and the extension of a key stands between the two. -/
theorem order_dictionary_past_surrogates :
    let shorter : Key := ⟨["\uFFFD"]⟩
    let longer : Key := ⟨["\uFFFD", ""]⟩
    let later : Key := ⟨["😀"]⟩
    let keys := [later, longer, everything, shorter, longer]
    shorter.order longer = .lt ∧ longer.order later = .lt ∧ shorter.order later = .lt ∧
    encode "\uFFFD" < encode "😀" ∧
    (keys.mergeSort le).mergeSort le = [everything, shorter, longer, longer, later] := by
  intro shorter longer later keys
  obtain ⟨-, transitive, precedes, -, bytes, sorts⟩ := order_dictionary
  have extended : shorter.order longer = .lt :=
    (precedes shorter longer).mpr (@Precedes.beginning ["\uFFFD"] [""] (List.cons_ne_nil _ _))
  have less : encode "\uFFFD" < encode "😀" := (bytes _ _).mpr (by decide)
  have decided : longer.order later = .lt :=
    (precedes longer later).mpr (@Precedes.value [] [""] [] _ _ less)
  obtain ⟨again, only⟩ := sorts keys
  refine ⟨extended, decided, transitive _ _ _ extended decided, less, again.trans ?_⟩
  exact (only [everything, shorter, longer, longer, later] (by decide) (by decide)).symm

end Rollup.Group.Key
