import Mathlib.Data.Prod.Lex
import Mathlib.Order.Compare
import Mathlib.Order.Monotone.Basic

/-! The order of the finite numbers.  Unpacked, a finite number is a zero or has a sign, a
significand and an exponent, and two of them are compared like words: by sign, then by exponent,
then by significand.  Main statements: among finite numbers, less and equal are the order and the
equality of these words, so both zeros count as one number. -/

namespace Rollup.Decimal

open Float.Model

/-- Sign, exponent and significand, the last two turned around below zero. -/
abbrev Standing := ℤ ×ₗ ℤ ×ₗ ℤ

def standingOf : UnpackedFloat → Standing
  | .finite .positive significand exponent _ => toLex (1, toLex (exponent, significand))
  | .finite .negative significand exponent _ => toLex (-1, toLex (-exponent, -significand))
  | _ => toLex (0, toLex (0, 0))

def standing (x : Float) : Standing := standingOf x.toModel.unpack

section

variable {α β : Type} [LinearOrder α] [LinearOrder β] {a a' : α} {b b' : β} {o : Ordering}

theorem compares_then {o' : Ordering} (first : o.Compares a a') (second : o'.Compares b b') :
    (o.then o').Compares (toLex (a, b)) (toLex (a', b')) := by
  cases o with
  | lt => exact Prod.Lex.toLex_lt_toLex.mpr (.inl first)
  | gt => exact Prod.Lex.toLex_lt_toLex.mpr (.inl first)
  | eq =>
    obtain rfl : a = a' := first
    cases o' with
    | lt => exact Prod.Lex.toLex_lt_toLex.mpr (.inr ⟨rfl, second⟩)
    | gt => exact Prod.Lex.toLex_lt_toLex.mpr (.inr ⟨rfl, second⟩)
    | eq => exact congrArg (fun b => toLex (a, b)) second

end

theorem lt_of_sign {sign sign' : ℤ} (below : sign < sign') (word word' : ℤ ×ₗ ℤ) :
    toLex (sign, word) < toLex (sign', word') :=
  Prod.Lex.toLex_lt_toLex.mpr (.inl below)

theorem compares_standingOf {x y : UnpackedFloat} (finite : x.isFinite = true)
    (finite' : y.isFinite = true) :
    ∃ o, x.compare y = some o ∧ o.Compares (standingOf x) (standingOf y) := by
  cases x with
  | infinity s => cases finite
  | notANumber => cases finite
  | zero s =>
    cases y with
    | infinity s' => cases finite'
    | notANumber => cases finite'
    | zero s' => exact ⟨.eq, rfl, rfl⟩
    | finite s' m' e' _ =>
      cases s' with
      | positive => exact ⟨.lt, rfl, lt_of_sign (by decide) _ _⟩
      | negative => exact ⟨.gt, rfl, lt_of_sign (by decide) _ _⟩
  | finite s m e _ =>
    cases y with
    | infinity s' => cases finite'
    | notANumber => cases finite'
    | zero s' =>
      cases s with
      | positive => exact ⟨.gt, rfl, lt_of_sign (by decide) _ _⟩
      | negative => exact ⟨.lt, rfl, lt_of_sign (by decide) _ _⟩
    | finite s' m' e' _ =>
      have exponents : (compare e e').Compares e e' := (compare_iff e e').mp rfl
      have widened : StrictMono (Nat.cast : ℕ → ℤ) := fun _ _ => Int.ofNat_lt.mpr
      have significands := widened.compares.mpr ((compare_iff m m').mp rfl)
      cases s with
      | positive =>
        cases s' with
        | positive =>
          exact ⟨_, rfl, compares_then (o := .eq) rfl (compares_then exponents significands)⟩
        | negative => exact ⟨.gt, rfl, lt_of_sign (by decide) _ _⟩
      | negative =>
        cases s' with
        | positive => exact ⟨.lt, rfl, lt_of_sign (by decide) _ _⟩
        | negative =>
          have turned : StrictAnti (Neg.neg : ℤ → ℤ) := fun _ _ => Int.neg_lt_neg
          refine ⟨_, rfl, ?_⟩
          rw [Ordering.swap_then]
          exact compares_then (o := .eq) rfl (compares_then
            (turned.compares.mpr exponents.swap) (turned.compares.mpr significands.swap))

section

variable {x y : Float} (finite : x.isFinite = true) (finite' : y.isFinite = true)
include finite finite'

theorem lt_iff_standing : x < y ↔ standing x < standing y := by
  obtain ⟨o, compared, placed⟩ := compares_standingOf finite finite'
  have less : x < y ↔ (x.toModel.unpack.compare y.toModel.unpack == some .lt) = true :=
    decide_eq_true_iff
  rw [less, compared, standing, standing, ← placed.eq_lt]
  simp

theorem beq_iff_standing : (x == y) = true ↔ standing x = standing y := by
  obtain ⟨o, compared, placed⟩ := compares_standingOf finite finite'
  have same : (x == y) = (x.toModel.unpack.compare y.toModel.unpack == some .eq) := rfl
  rw [same, compared, standing, standing, ← placed.eq_eq]
  simp

end

end Rollup.Decimal
