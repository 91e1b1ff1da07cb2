import Mathlib
import Rollup.Decimal.Numeral
import Rollup.Proofs.Decimal.Addition

/-! Which computations give numbers.  Rounding always gives one, so what is no number comes only
from operands without a result: infinities of both signs in a sum, two zeros or two infinities in a
quotient.  Main statements: a number plus a finite one is a number, a number over a count of rows is
one, and a text that is read writes a number unless it says that it does not. -/

namespace Rollup.Decimal

open Float.Model Float.Model.UnpackedFloat

section

variable {u v : UnpackedFloat}

theorem isNaN_unpack_of_exponent {bits : BitVec 64}
    (low : @unpackExponent .binary64 bits ≠ -1#11) :
    (UnpackedFloat.unpack .binary64 bits).isNaN = false := by
  rw [UnpackedFloat.unpack]
  dsimp only
  rw [if_neg low]
  split
  · split <;> rfl
  · rfl

theorem isNaN_pack (u : UnpackedFloat) : (Float.Model.pack u).isNaN = u.isNaN := by
  cases u with
  | notANumber => rfl
  | infinity sign => cases sign <;> rfl
  | zero sign => cases sign <;> rfl
  | finite sign significand exponent _ =>
    show (UnpackedFloat.unpack .binary64 (UnpackedFloat.pack .binary64 _)).isNaN = false
    rw [UnpackedFloat.pack]
    dsimp only
    split
    case isTrue => cases sign <;> rfl
    case isFalse low =>
      split
      case isTrue =>
        apply isNaN_unpack_of_exponent
        rw [unpackExponent_packComponents]
        intro top
        have same := congrArg BitVec.toNat top
        have all : (-1#11).toNat = 2047 := rfl
        have fields : 2 ^ Format.exponentBits .binary64 = 2048 := rfl
        rw [BitVec.toNat_ofNat, all] at same
        rw [fields] at low same
        omega
      case isFalse =>
        apply isNaN_unpack_of_exponent
        rw [unpackExponent_packComponents]
        decide

theorem isNaN_roundWithAccuracy (sign : Sign) (significand : Nat) (exponent : Int)
    (accuracy : Accuracy) :
    (roundWithAccuracy .binary64 sign significand exponent accuracy).isNaN = false := by
  rw [roundWithAccuracy]
  dsimp only
  split <;> rfl

theorem isNaN_normalize (significand exponent : Int) (sign : Sign) :
    (UnpackedFloat.normalize .binary64 significand exponent sign).isNaN = false := by
  rw [UnpackedFloat.normalize]
  split
  · exact isNaN_roundWithAccuracy _ _ _ _
  · rfl
  · exact isNaN_roundWithAccuracy _ _ _ _

theorem isNaN_add_unpacked (number : u.isNaN = false) (finite : v.isFinite = true) :
    (UnpackedFloat.add .binary64 u v).isNaN = false := by
  cases v with
  | notANumber => cases finite
  | infinity sign => cases finite
  | zero sign =>
    cases u with
    | notANumber => cases number
    | zero sign' => cases sign <;> cases sign' <;> rfl
    | infinity | finite => rfl
  | finite sign significand exponent _ =>
    cases u with
    | notANumber => cases number
    | infinity | zero => rfl
    | finite => exact isNaN_normalize _ _ _

theorem isNaN_mul_unpacked (finite : u.isFinite = true) (finite' : v.isFinite = true) :
    (UnpackedFloat.mul .binary64 u v).isNaN = false := by
  cases u with
  | notANumber => cases finite
  | infinity sign => cases finite
  | zero sign =>
    cases v with
    | notANumber => cases finite'
    | infinity sign' => cases finite'
    | zero | finite => rfl
  | finite sign significand exponent _ =>
    cases v with
    | notANumber => cases finite'
    | infinity sign' => cases finite'
    | zero => rfl
    | finite => exact isNaN_roundWithAccuracy _ _ _ _

/-- Neither a zero nor beyond the finite numbers. -/
def isDivisor : UnpackedFloat → Bool
  | .finite .. => true
  | .infinity _ | .notANumber | .zero _ => false

theorem isFinite_of_isDivisor (divisor : isDivisor u = true) : u.isFinite = true := by
  cases u with
  | infinity | notANumber | zero => cases divisor
  | finite => rfl

theorem isNaN_div_unpacked (number : u.isNaN = false) (divisor : isDivisor v = true) :
    (UnpackedFloat.div .binary64 u v).isNaN = false := by
  cases v with
  | infinity | notANumber | zero => cases divisor
  | finite =>
    cases u with
    | notANumber => cases number
    | infinity | zero => rfl
    | finite => exact isNaN_roundWithAccuracy _ _ _ _

end

section

variable {x y : Float}

theorem isNaN_of_isFinite (finite : x.isFinite = true) : x.isNaN = false := by
  have finite : x.toModel.unpack.isFinite = true := finite
  show x.toModel.unpack.isNaN = false
  cases form : x.toModel.unpack with
  | notANumber =>
    rw [form] at finite
    cases finite
  | infinity | zero | finite => rfl

theorem isNaN_neg (x : Float) : (-x).isNaN = x.isNaN := by
  refine (isNaN_pack _).trans ?_
  show x.toModel.unpack.neg.isNaN = x.toModel.unpack.isNaN
  cases x.toModel.unpack <;> rfl

theorem isNaN_add (number : x.isNaN = false) (finite : y.isFinite = true) :
    (x + y).isNaN = false :=
  (isNaN_pack _).trans (isNaN_add_unpacked number finite)

theorem isNaN_mul (finite : x.isFinite = true) (finite' : y.isFinite = true) :
    (x * y).isNaN = false :=
  (isNaN_pack _).trans (isNaN_mul_unpacked finite finite')

theorem isNaN_div (number : x.isNaN = false) (divisor : isDivisor y.toModel.unpack = true) :
    (x / y).isNaN = false :=
  (isNaN_pack _).trans (isNaN_div_unpacked number divisor)

end

/-! Counts.  A significand of more than 53 bits is shifted down to 53 of them and rounded; when that
carries into a 54th bit, it is shifted once more. -/

theorem mantissa_shifted (k : Nat) (extended : ExtendedMantissa) :
    (extended >>> k).mantissa = extended.mantissa / 2 ^ k := by
  show (k.repeat ExtendedMantissa.shiftRightOne extended).mantissa = _
  induction k with
  | zero => simp [Nat.repeat]
  | succ k ih =>
    rw [Nat.repeat, pow_succ, ← Nat.div_div_eq_div_mul, ← ih]
    rfl

theorem roundedMantissa_bounds (extended : ExtendedMantissa) :
    extended.mantissa ≤ extended.roundedMantissa ∧
      extended.roundedMantissa ≤ extended.mantissa + 1 := by
  rw [ExtendedMantissa.roundedMantissa, Accuracy.roundToNearestEven.eq_def]
  split <;> omega

section

variable {significand : Nat} (wide : 52 ≤ significand.log2) {exponent : Int}
  (low : -1074 ≤ (significand.log2 : Int) - 52 + exponent)
include wide low

theorem shiftToTargetExponent_wide :
    ∃ shifted, shifted.mantissa.log2 = 52 ∧
      shiftToTargetExponent .binary64 significand exponent .exact =
        (shifted, (significand.log2 : Int) - 52 + exponent) := by
  obtain ⟨k, size⟩ := Nat.exists_eq_add_of_le' wide
  have bits : Format.mantissaBits .binary64 = 53 := rfl
  have least : Format.minExponent .binary64 = -1074 := rfl
  have target : Format.targetExponent .binary64 (totalExponent significand exponent) =
      exponent + k := by
    rw [Format.targetExponent, totalExponent, bits, least]
    omega
  have amount : (exponent + k - exponent).toNat = k := by omega
  have start : (ExtendedMantissa.ofMantissaAndAccuracy significand .exact).mantissa =
      significand := rfl
  have some : significand ≠ 0 := by
    rintro rfl
    exact absurd wide (by decide)
  obtain ⟨atLeast, less⟩ := (Nat.log2_eq_iff some).mp size
  have positive : 0 < 2 ^ k := Nat.two_pow_pos k
  have lower : 2 ^ 52 ≤ significand / 2 ^ k := by
    rw [Nat.le_div_iff_mul_le positive, ← pow_add, Nat.add_comm]
    exact atLeast
  have upper : significand / 2 ^ k < 2 ^ 53 := by
    rw [Nat.div_lt_iff_lt_mul positive, ← pow_add, Nat.add_comm]
    exact less
  refine ⟨ExtendedMantissa.ofMantissaAndAccuracy significand .exact >>> k, ?_, ?_⟩
  · rw [mantissa_shifted, start]
    exact (Nat.log2_eq_iff (by omega)).mpr ⟨lower, upper⟩
  · simp only [shiftToTargetExponent, target, shiftToExponent, amount]
    exact congrArg _ (by omega)

theorem roundWithAccuracy_wide (sign : Sign) :
    ∃ (kept : Nat) (full : kept.log2 = 52) (raised : Int),
      (significand.log2 : Int) - 52 + exponent ≤ raised ∧
      raised ≤ (significand.log2 : Int) - 51 + exponent ∧
      roundWithAccuracy .binary64 sign significand exponent .exact =
        .finite sign kept raised (pos_of_full full) := by
  obtain ⟨shifted, full, first⟩ := shiftToTargetExponent_wide wide low
  rw [roundWithAccuracy, first]
  obtain ⟨lower, upper⟩ := roundedMantissa_bounds shifted
  obtain ⟨atLeast, less⟩ := (Nat.log2_eq_iff (pos_of_full full).ne').mp full
  rcases Nat.lt_or_ge shifted.roundedMantissa (2 ^ 53) with small | carried
  · have filled : shifted.roundedMantissa.log2 = 52 :=
      (Nat.log2_eq_iff (by omega)).mpr ⟨by omega, small⟩
    have second := shiftToTargetExponent_scaled filled low 0
    rw [pow_zero, Nat.mul_one, Nat.cast_zero, Int.sub_zero] at second
    refine ⟨_, filled, _, le_rfl, by omega, ?_⟩
    simp only [second]
    rw [dif_neg (pos_of_full filled).ne']
  · have filled : (2 ^ 52).log2 = 52 := by decide
    have doubled : shifted.roundedMantissa = 2 ^ 52 * 2 ^ 1 := by omega
    have above : -1074 ≤ (significand.log2 : Int) - 52 + exponent + 1 := by omega
    have second := shiftToTargetExponent_scaled filled above 1
    rw [← doubled, Nat.cast_one, Int.add_sub_cancel] at second
    refine ⟨_, filled, (significand.log2 : Int) - 52 + exponent + 1, by omega, by omega, ?_⟩
    simp only [second]
    rw [dif_neg (pos_of_full filled).ne']

end

theorem toModel_ofNat_large {n : Nat} (some : 0 < n) (large : exactBound ≤ n) :
    (Float.ofNat n).toModel =
      Float.Model.pack (roundWithAccuracy .binary64 .positive (n * 2 ^ 53) (-53) .exact) := by
  have written : Float.ofNat n = Float.ofModel (Float.Model.ofScientific n 0) :=
    dif_neg fun exact => absurd exact.1 (Nat.not_lt.mpr large)
  have bits : Format.mantissaBits .binary64 = 53 := rfl
  have fields : (2 : Int) ^ Format.exponentBits .binary64 = 2048 := rfl
  have unit : 10 ^ Int.toNat 0 = 1 := rfl
  have sign : Sign.positive * Sign.positive = Sign.positive := rfl
  rw [written]
  show Float.Model.pack (UnpackedFloat.ofScientific .binary64 n 0) = _
  rw [UnpackedFloat.ofScientific, dif_neg some.ne', fields, if_neg (by decide),
    if_neg (by omega), if_pos le_rfl]
  simp only [bits, UnpackedFloat.mul, Nat.shiftLeft_eq, unit, sign, Nat.mul_one, Int.add_zero]
  rfl

theorem isDivisor_ofNat {n : Nat} (some : 0 < n) (fits : n < wordBound) :
    isDivisor (Float.ofNat n).toModel.unpack = true := by
  rcases Nat.lt_or_ge n exactBound with small | large
  · have model : (Float.ofNat n).toModel.unpack = unpackedOf n := by
      rw [toModel_ofNat small]
      exact unpack_pack_unpackedOf (n := n) small
    rw [model, unpackedOf_of_pos some]
    rfl
  · have bound : 53 ≤ n.log2 := (Nat.le_log2 some.ne').mpr large
    have limit : n.log2 < 64 := (Nat.log2_lt some.ne').mpr fits
    have scaled : (n * 2 ^ 53).log2 = n.log2 + 53 := log2_mul_two_pow some 53
    have wide : 52 ≤ (n * 2 ^ 53).log2 := by omega
    have above : -1074 ≤ ((n * 2 ^ 53).log2 : Int) - 52 + -53 := by omega
    obtain ⟨kept, full, raised, low, high, rounded⟩ := roundWithAccuracy_wide wide above .positive
    have restored : (Float.ofNat n).toModel.unpack =
        .finite .positive kept raised (pos_of_full full) := by
      rw [toModel_ofNat_large some large, rounded]
      exact unpack_pack_full full (by omega) (by omega) .positive
    rw [restored]
    rfl

/-! Texts. -/

theorem isDivisor_power {power : Nat} (few : power < 23) :
    isDivisor (getElem Float.exactlyRepresentablePowersOfTen power few).toModel.unpack = true := by
  have all : ∀ power : Fin 23, isDivisor
      (getElem Float.exactlyRepresentablePowersOfTen power.val power.isLt).toModel.unpack =
        true := by
    decide
  exact all ⟨power, few⟩

theorem isNaN_ofScientific_unpacked (significand : Nat) (power : Int) :
    (UnpackedFloat.ofScientific .binary64 significand power).isNaN = false := by
  rw [UnpackedFloat.ofScientific]
  split
  · rfl
  · split
    · rfl
    · split
      · rfl
      · split
        · exact isNaN_mul_unpacked rfl rfl
        · exact isNaN_div_unpacked rfl rfl

theorem isNaN_ofScientific (significand : Nat) (negative : Bool) (power : Nat) :
    (Float.ofScientific significand negative power).isNaN = false := by
  rw [Float.ofScientific]
  split
  case isTrue exact =>
    obtain ⟨small, few⟩ := exact
    have whole : significand.toUInt64.toFloat.toModel.unpack = unpackedOf significand := by
      rw [toModel_toFloat small]
      exact unpack_pack_unpackedOf (n := significand) small
    have finite : significand.toUInt64.toFloat.isFinite = true := by
      show significand.toUInt64.toFloat.toModel.unpack.isFinite = true
      rw [whole, unpackedOf]
      split <;> rfl
    have ten := isDivisor_power (Nat.lt_succ_of_le few)
    dsimp only
    split
    · exact isNaN_div (isNaN_of_isFinite finite) ten
    · exact isNaN_mul finite (isFinite_of_isDivisor ten)
  case isFalse =>
    exact (isNaN_pack _).trans (isNaN_ofScientific_unpacked _ _)

theorem isNaN_toFloat (n : Numeral) : n.toFloat.isNaN = false := by
  rw [Numeral.toFloat]
  split
  · rfl
  · dsimp only
    split
    · rfl
    · split
      · rfl
      · exact isNaN_ofScientific _ _ _

theorem isNaN_of_read? {cs : List Char} {value : Float} (read : read? cs = some value) :
    value.isNaN = true ↔ (takeSign cs).2.map Char.toLower = "nan".toList := by
  simp only [read?, Option.map_eq_some_iff] at read
  obtain ⟨size, found, rfl⟩ := read
  have signed : (if (takeSign cs).1 then -size else size).isNaN = size.isNaN := by
    split
    · exact isNaN_neg size
    · rfl
  rw [signed]
  split at found
  case isTrue word =>
    cases found
    have other : (takeSign cs).2.map Char.toLower ≠ "nan".toList := by
      rcases word with word | word <;> rw [word] <;> decide
    exact iff_of_false nofun other
  case isFalse =>
    split at found
    case isTrue word =>
      cases found
      exact iff_of_true rfl word
    case isFalse other =>
      obtain ⟨n, -, rfl⟩ := Option.map_eq_some_iff.mp found
      rw [isNaN_toFloat]
      exact iff_of_false nofun other

end Rollup.Decimal
