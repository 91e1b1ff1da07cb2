import Mathlib.Data.List.Basic
import Rollup.Decimal.Shortest
import Rollup.Proofs.Text.Spans

/-! The digits of a natural number.  They are decimal digits, there is one at least, the first is
no zero unless the number is, and they write the number.  The shortest decimal of a binary64 number
has such digits too, which are those of zero only if the number is zero. -/

namespace Rollup.Decimal

theorem takeDigits_append {whole rest : List Char} (digits : ∀ c ∈ whole, isDigit c = true)
    (halts : Text.Halts isDigit rest) : takeDigits (whole ++ rest) = (whole, rest) := by
  rw [takeDigits, Text.takeWhile_append_of_halts digits halts,
    Text.dropWhile_append_of_halts digits halts]

theorem isDigit_of_mem_digitsOf {n : Nat} : ∀ c ∈ digitsOf n, isDigit c = true :=
  fun _ member => Nat.isDigit_of_mem_toDigits (by decide) (by decide) member

theorem digitsOf_ne_nil (n : Nat) : digitsOf n ≠ [] := Nat.toDigits_ne_nil

theorem head?_digitsOf {n : Nat} (some : n ≠ 0) : (digitsOf n).head? ≠ Option.some '0' := by
  induction n using Nat.strongRecOn with
  | ind n ih =>
    by_cases small : n < 10
    · have all : ∀ n < 10, n ≠ 0 → (digitsOf n).head? ≠ Option.some '0' := by decide
      exact all n small some
    · have large : 10 ≤ n := Nat.not_lt.mp small
      rw [digitsOf, Nat.toDigits_of_base_le (by decide) large,
        List.head?_append_of_ne_nil _ Nat.toDigits_ne_nil]
      exact ih (n / 10) (Nat.div_lt_self (by omega) (by decide)) (by omega)

theorem ne_zero_of_holds {significand n : Nat} {exponent power : Int} (some : significand ≠ 0)
    (holds : ((Rounding.of significand exponent).onGrid power).holds n = true) : n ≠ 0 := by
  rintro rfl
  have below : 0 < ((Rounding.of significand exponent).onGrid power).low := by
    apply Nat.mul_pos _ (Nat.pow_pos (by decide))
    apply Nat.mul_pos _ (Nat.pow_pos (by decide))
    split <;> omega
  unfold Rounding.holds at holds
  dsimp only at holds
  rw [Nat.zero_mul] at holds
  split at holds
  · exact absurd (of_decide_eq_true (Bool.and_eq_true_iff.mp holds).1) (Nat.not_le.mpr below)
  · exact absurd (of_decide_eq_true (Bool.and_eq_true_iff.mp holds).1) (Nat.not_lt_zero _)

theorem normal_digits_ne_zero {s : Shortest} (some : s.digits ≠ 0) (fuel : Nat) :
    (s.normal fuel).digits ≠ 0 := by
  induction fuel generalizing s with
  | zero => exact some
  | succ fuel ih =>
    unfold Shortest.normal
    split
    case isTrue zeros =>
      apply ih
      dsimp only
      omega
    case isFalse => exact some

theorem shortest_digits_ne_zero {significand : Nat} (some : significand ≠ 0) (exponent : Int) :
    (Shortest.of significand exponent).digits ≠ 0 := by
  unfold Shortest.of
  apply normal_digits_ne_zero
  dsimp only
  cases found : List.findSome? _ _ with
  | none => exact some
  | some s =>
    obtain ⟨count, -, tried⟩ := List.exists_of_findSome?_eq_some found
    obtain ⟨n, nearest, rfl⟩ := Option.map_eq_some_iff.mp tried
    exact ne_zero_of_holds some (holds_of_nearest? nearest)

end Rollup.Decimal
