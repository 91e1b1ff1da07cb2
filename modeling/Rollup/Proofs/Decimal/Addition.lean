import Mathlib

/-! Addition of binary64 numbers.  The order of two summands never matters, but sums are rounded.
Integers below 2^53 escape that: such an integer has one unpacked form, with a significand of 53
bits, and rounding brings every way of writing it as a significand and an exponent to that form,
whatever was shifted before.  Main statement: the sum of the numbers for two such integers is the
number for their sum, as long as that is one of them too. -/

namespace Rollup.Decimal

open Float.Model Float.Model.UnpackedFloat

theorem add_unpacked_comm (x y : UnpackedFloat) :
    UnpackedFloat.add .binary64 x y = UnpackedFloat.add .binary64 y x := by
  cases x with
  | notANumber => cases y <;> rfl
  | infinity s =>
    cases y with
    | infinity s' => cases s <;> cases s' <;> rfl
    | notANumber | zero | finite => rfl
  | zero s =>
    cases y with
    | zero s' => cases s <;> cases s' <;> rfl
    | notANumber | infinity | finite => rfl
  | finite s m e _ =>
    cases y with
    | finite s' m' e' _ => simp only [UnpackedFloat.add, min_comm e' e, Int.add_comm]
    | notANumber | infinity | zero => rfl

theorem float_add_comm (x y : Float) : x + y = y + x :=
  congrArg (fun sum => Float.ofModel (Float.Model.pack sum)) (add_unpacked_comm _ _)

def exactBound : Nat := 2 ^ 53

theorem log2_mul_two_pow {n : Nat} (some : 0 < n) (k : Nat) : (n * 2 ^ k).log2 = n.log2 + k := by
  have positive : 0 < 2 ^ k := Nat.two_pow_pos k
  rw [Nat.log2_eq_iff (Nat.mul_pos some positive).ne', pow_add, Nat.add_right_comm, pow_add]
  exact ⟨Nat.mul_le_mul_right _ (Nat.log2_self_le some.ne'),
    Nat.mul_lt_mul_of_pos_right Nat.lt_log2_self positive⟩

theorem repeat_shiftRightOne (significand k : Nat) :
    k.repeat ExtendedMantissa.shiftRightOne ⟨significand * 2 ^ k, false, false⟩ =
      ⟨significand, false, false⟩ := by
  induction k generalizing significand with
  | zero => simp [Nat.repeat]
  | succ k ih =>
    have parts : significand * 2 ^ (k + 1) = significand * 2 * 2 ^ k := by ring
    rw [Nat.repeat, parts, ih]
    simp [ExtendedMantissa.shiftRightOne]

section

variable {significand : Nat} (full : significand.log2 = 52) {exponent : Int}
  (low : -1074 ≤ exponent)
include full

theorem pos_of_full : 0 < significand := by
  rcases Nat.eq_zero_or_pos significand with rfl | some
  · cases full
  · exact some

include low

theorem shiftToTargetExponent_scaled (k : Nat) :
    shiftToTargetExponent .binary64 (significand * 2 ^ k) (exponent - k) .exact =
      (⟨significand, false, false⟩, exponent) := by
  have target : Format.targetExponent .binary64
      (totalExponent (significand * 2 ^ k) (exponent - k)) = exponent := by
    have bits : Format.mantissaBits .binary64 = 53 := rfl
    have least : Format.minExponent .binary64 = -1074 := rfl
    rw [Format.targetExponent, totalExponent, log2_mul_two_pow (pos_of_full full), full, bits,
      least]
    omega
  have amount : (exponent - (exponent - k)).toNat = k := by omega
  rw [shiftToTargetExponent]
  simp only [target, shiftToExponent, amount]
  refine Prod.ext (repeat_shiftRightOne significand k) ?_
  exact Int.sub_add_cancel exponent k

theorem roundWithAccuracy_scaled (sign : Sign) (k : Nat) :
    roundWithAccuracy .binary64 sign (significand * 2 ^ k) (exponent - k) .exact =
      .finite sign significand exponent (pos_of_full full) := by
  have first := shiftToTargetExponent_scaled full low k
  have second := shiftToTargetExponent_scaled full low 0
  rw [pow_zero, Nat.mul_one, Nat.cast_zero, Int.sub_zero] at second
  have kept : (ExtendedMantissa.mk significand false false).roundedMantissa = significand := rfl
  rw [roundWithAccuracy]
  simp only [first, kept, second]
  rw [dif_neg (pos_of_full full).ne']

end

/-- A significand with all 53 bits of the value that it stands for. -/
def filledUp (n : Nat) : Nat := n * 2 ^ (52 - n.log2)

section

variable {n : Nat} (some : 0 < n)
include some

theorem filledUp_pos : 0 < filledUp n := Nat.mul_pos some (Nat.two_pow_pos _)

variable (small : n < exactBound)
include small

theorem log2_le : n.log2 ≤ 52 := Nat.le_of_lt_succ ((Nat.log2_lt some.ne').mpr small)

theorem log2_filledUp : (filledUp n).log2 = 52 := by
  rw [filledUp, log2_mul_two_pow some, Nat.add_sub_cancel' (log2_le some small)]

theorem round_scaled (sign : Sign) (k : Nat) :
    UnpackedFloat.round .binary64 sign (n * 2 ^ k) (-k) =
      .finite sign (filledUp n) (n.log2 - 52) (filledUp_pos some) := by
  have bound := log2_le some small
  have target : Format.targetExponent .binary64 (totalExponent (n * 2 ^ k) (-k)) =
      n.log2 - 52 := by
    have bits : Format.mantissaBits .binary64 = 53 := rfl
    have least : Format.minExponent .binary64 = -1074 := rfl
    rw [Format.targetExponent, totalExponent, log2_mul_two_pow some, bits, least]
    omega
  -- what is missing up to 53 bits is shifted in, what is too much is rounded away
  let missing := 52 - n.log2 - k
  let surplus := k - (52 - n.log2)
  have widened : (n * 2 ^ k) <<< missing = filledUp n * 2 ^ surplus := by
    rw [Nat.shiftLeft_eq, filledUp, Nat.mul_assoc, Nat.mul_assoc, ← pow_add, ← pow_add]
    congr 2
    omega
  have amount : (-(k : Int) - (n.log2 - 52)).toNat = missing := by omega
  have exponent : -(k : Int) - missing = n.log2 - 52 - surplus := by omega
  have low : -1074 ≤ (n.log2 : Int) - 52 := by omega
  rw [UnpackedFloat.round]
  simp only [target, decreaseExponent, amount, widened, exponent]
  exact roundWithAccuracy_scaled (log2_filledUp some small) low sign surplus

end

def signOf (n : Int) : Sign := if n < 0 then .negative else .positive

theorem signOf_mul {n factor : Int} (positive : 0 < factor) : signOf (n * factor) = signOf n := by
  have same : n * factor < 0 ↔ n < 0 := by
    have scaled := mul_lt_mul_iff_left₀ positive (b := n) (c := 0)
    rwa [zero_mul] at scaled
  simp only [signOf, same]

theorem apply_signOf (n : Int) (factor : Nat) :
    (signOf n).apply (n.natAbs * factor : Nat) = n * factor := by
  rw [signOf]
  split
  case isTrue below =>
    have size : (n.natAbs : Int) = -n := Int.ofNat_natAbs_of_nonpos (Int.le_of_lt below)
    rw [Sign.apply, Nat.cast_mul, size, neg_mul, neg_neg]
  case isFalse above =>
    have size : (n.natAbs : Int) = n := Int.natAbs_of_nonneg (Int.not_lt.mp above)
    rw [Sign.apply, Nat.cast_mul, size]

def unpackedOf (n : Int) : UnpackedFloat :=
  if some : 0 < n.natAbs then
    .finite (signOf n) (filledUp n.natAbs) (n.natAbs.log2 - 52) (filledUp_pos some)
  else .zero .positive

theorem unpackedOf_of_pos {n : Nat} (some : 0 < n) :
    unpackedOf n = .finite .positive (filledUp n) (n.log2 - 52) (filledUp_pos some) := by
  have sign : signOf n = .positive := if_neg (by omega)
  simp only [unpackedOf, Int.natAbs_natCast, dif_pos some, sign]

theorem unpackedOf_neg {n : Nat} (some : 0 < n) : unpackedOf (-n) = (unpackedOf n).neg := by
  have sign : signOf (-n) = .negative := if_pos (by omega)
  rw [unpackedOf_of_pos some]
  simp only [unpackedOf, Int.natAbs_neg, Int.natAbs_natCast, dif_pos some, sign]
  rfl

theorem normalize_of_ne_zero {n : Int} (some : n ≠ 0) (exponent : Int) :
    UnpackedFloat.normalize .binary64 n exponent .positive =
      UnpackedFloat.round .binary64 (signOf n) n.natAbs exponent := by
  rcases Int.lt_or_gt_of_ne some with below | above
  · have size : (-n).toNat = n.natAbs := by omega
    rw [UnpackedFloat.normalize, compare_lt_iff_lt.mpr below, signOf, if_pos below]
    dsimp only
    rw [size]
  · have size : n.toNat = n.natAbs := by omega
    rw [UnpackedFloat.normalize, compare_gt_iff_gt.mpr above, signOf, if_neg (by omega)]
    dsimp only
    rw [size]

theorem normalize_scaled {n : Int} (small : n.natAbs < exactBound) (k : Nat) :
    UnpackedFloat.normalize .binary64 (n * (2 ^ k : Nat)) (-k) .positive = unpackedOf n := by
  have scale : (0 : Int) < (2 ^ k : Nat) := Int.natCast_pos.mpr (Nat.two_pow_pos k)
  rw [unpackedOf]
  split
  case isTrue some =>
    have filled : n * (2 ^ k : Nat) ≠ 0 := mul_ne_zero (Int.natAbs_pos.mp some) scale.ne'
    have size : (n * (2 ^ k : Nat)).natAbs = n.natAbs * 2 ^ k := by
      rw [Int.natAbs_mul, Int.natAbs_natCast]
    rw [normalize_of_ne_zero filled, size, signOf_mul scale, round_scaled some small]
  case isFalse none =>
    obtain rfl : n = 0 := by omega
    rw [Int.zero_mul]
    rfl

theorem apply_decreaseExponent {n : Int} {k : Nat} (some : 0 < n.natAbs)
    (small : n.natAbs < exactBound) (deep : 52 - n.natAbs.log2 ≤ k) :
    (signOf n).apply (decreaseExponent (filledUp n.natAbs) (n.natAbs.log2 - 52) (-k)).1 =
      n * (2 ^ k : Nat) := by
  have bound := log2_le some small
  have amount : ((n.natAbs.log2 : Int) - 52 - -k).toNat = k - (52 - n.natAbs.log2) := by omega
  have aligned : filledUp n.natAbs <<< (k - (52 - n.natAbs.log2)) = n.natAbs * 2 ^ k := by
    rw [Nat.shiftLeft_eq, filledUp, Nat.mul_assoc, ← pow_add, Nat.add_sub_cancel' deep]
  simp only [decreaseExponent, amount, aligned, apply_signOf]

theorem add_unpackedOf {a b : Int} (small : a.natAbs < exactBound) (small' : b.natAbs < exactBound)
    (sum : (a + b).natAbs < exactBound) :
    UnpackedFloat.add .binary64 (unpackedOf a) (unpackedOf b) = unpackedOf (a + b) := by
  by_cases some : 0 < a.natAbs
  · by_cases some' : 0 < b.natAbs
    · have bound := log2_le some small
      have bound' := log2_le some' small'
      obtain ⟨k, deep, deep', lower⟩ : ∃ k : Nat, 52 - a.natAbs.log2 ≤ k ∧
          52 - b.natAbs.log2 ≤ k ∧ min ((a.natAbs.log2 : Int) - 52) (b.natAbs.log2 - 52) = -k :=
        ⟨max (52 - a.natAbs.log2) (52 - b.natAbs.log2), le_max_left _ _, le_max_right _ _,
          by omega⟩
      rw [unpackedOf, dif_pos some, unpackedOf, dif_pos some', UnpackedFloat.add]
      simp only [lower, apply_decreaseExponent some small deep,
        apply_decreaseExponent some' small' deep']
      rw [← Int.add_mul, normalize_scaled sum]
    · obtain rfl : b = 0 := by omega
      rw [Int.add_zero, unpackedOf, dif_pos some]
      rfl
  · obtain rfl : a = 0 := by omega
    rw [Int.zero_add]
    by_cases some' : 0 < b.natAbs
    · rw [unpackedOf, unpackedOf, dif_pos some']
      rfl
    · obtain rfl : b = 0 := by omega
      rfl

theorem unpackSign_packComponents (sign : Sign) (exponent : BitVec 11) (significand : BitVec 52) :
    unpackSign (packComponents .binary64 sign exponent significand) = sign.toBitVec := by
  have top : ((sign.toBitVec ++ exponent) ++ significand).extractLsb' 63 1 =
      sign.toBitVec.extractLsb' 0 1 := by
    rw [BitVec.extractLsb'_append_eq_of_le (by decide),
      BitVec.extractLsb'_append_eq_of_le (by decide)]
  exact top.trans (BitVec.extractLsb'_eq_self)

theorem ofBitVec_toBitVec (sign : Sign) : Sign.ofBitVec sign.toBitVec = sign := by
  cases sign <;> rfl

section

variable {significand : Nat} (full : significand.log2 = 52) {field : Nat} (some : 0 < field)
  (finite : field < 2047) (sign : Sign)
include full some finite

theorem pack_full :
    UnpackedFloat.pack .binary64
        (.finite sign significand ((field : Int) - 1075) (pos_of_full full)) =
      packComponents .binary64 sign (BitVec.ofNat 11 field) (BitVec.ofNat 52 significand) := by
  have bias : (Format.exponentBias .binary64 : Int) = 1023 := rfl
  have biased : ((field : Int) - 1075 + 1023 + (52 : Nat)).toNat = field := by omega
  rw [UnpackedFloat.pack]
  have bits : 52 + 1 = Format.mantissaBits .binary64 := rfl
  simp only [bias, biased, full]
  rw [if_neg (by omega), if_pos bits]

theorem unpack_packComponents :
    UnpackedFloat.unpack .binary64
        (packComponents .binary64 sign (BitVec.ofNat 11 field) (BitVec.ofNat 52 significand)) =
      .finite sign significand ((field : Int) - 1075) (pos_of_full full) := by
  obtain ⟨least, less⟩ := (Nat.log2_eq_iff (pos_of_full full).ne').mp full
  have kept : (BitVec.ofNat 11 field).toNat = field := by
    rw [BitVec.toNat_ofNat, Nat.mod_eq_of_lt (by omega)]
  have notTop : BitVec.ofNat 11 field ≠ -1#11 := by
    intro top
    have same := congrArg BitVec.toNat top
    have all : (-1#11).toNat = 2047 := rfl
    omega
  have notBottom : BitVec.ofNat 11 field ≠ 0#11 := by
    intro bottom
    have same := congrArg BitVec.toNat bottom
    rw [kept, BitVec.toNat_zero] at same
    omega
  have restored : (1#1 ++ BitVec.ofNat 52 significand).toNat = significand := by
    have low : significand % 2 ^ 52 < 2 ^ 52 := Nat.mod_lt _ (by decide)
    rw [BitVec.toNat_append, ← Nat.shiftLeft_add_eq_or_of_lt (BitVec.isLt _), BitVec.toNat_ofNat,
      BitVec.toNat_ofNat, Nat.shiftLeft_eq]
    omega
  rw [UnpackedFloat.unpack]
  simp only [unpackMantissa_packComponents, unpackExponent_packComponents,
    unpackSign_packComponents, ofBitVec_toBitVec]
  rw [if_neg notTop, if_neg notBottom]
  simp only [kept, restored]
  congr 1

end

/-- A number with all 53 bits comes back from its 64 bits. -/
theorem unpack_pack_full {significand : Nat} (full : significand.log2 = 52) {exponent : Int}
    (low : -1074 ≤ exponent) (high : exponent ≤ 971) (sign : Sign) :
    UnpackedFloat.unpack .binary64
        (UnpackedFloat.pack .binary64 (.finite sign significand exponent (pos_of_full full))) =
      .finite sign significand exponent (pos_of_full full) := by
  obtain ⟨field, shifted⟩ := Int.eq_ofNat_of_zero_le (by omega : 0 ≤ exponent + 1075)
  obtain rfl : exponent = (field : Int) - 1075 := by omega
  have some : 0 < field := by omega
  have finite : field < 2047 := by omega
  rw [pack_full full some finite, unpack_packComponents full some finite]

theorem unpack_pack_unpackedOf {n : Int} (small : n.natAbs < exactBound) :
    (Float.Model.pack (unpackedOf n)).unpack = unpackedOf n := by
  rw [unpackedOf]
  split
  case isTrue some =>
    have bound := log2_le some small
    exact unpack_pack_full (log2_filledUp some small) (by omega) (by omega) _
  case isFalse => rfl

theorem mul_one_unpackedOf {n : Nat} (small : n < exactBound) :
    UnpackedFloat.mul .binary64 (unpackedOf n) (.finite .positive (2 ^ 52) (-52) (by decide)) =
      unpackedOf n := by
  rcases Nat.eq_zero_or_pos n with rfl | some
  · rfl
  · have bound := log2_le some small
    have low : -1074 ≤ (n.log2 : Int) - 52 := by omega
    have rounded := roundWithAccuracy_scaled (log2_filledUp some small) low .positive 52
    rw [unpackedOf_of_pos some]
    exact rounded

theorem toModel_toFloat {n : Nat} (small : n < exactBound) :
    n.toUInt64.toFloat.toModel = Float.Model.pack (unpackedOf n) := by
  have kept : n.toUInt64.toNat = n := Nat.mod_eq_of_lt (Nat.lt_trans small (by decide))
  have unscaled := normalize_scaled (n := n) small 0
  rw [pow_zero, Nat.cast_one, Int.mul_one] at unscaled
  show Float.Model.pack
    (UnpackedFloat.normalize .binary64 (n.toUInt64.toNat : Int) 0 .positive) = _
  rw [kept]
  exact congrArg Float.Model.pack unscaled

theorem toModel_ofNat {n : Nat} (small : n < exactBound) :
    (Float.ofNat n).toModel = Float.Model.pack (unpackedOf n) := by
  have one : (getElem Float.exactlyRepresentablePowersOfTen 0 (by decide)).toModel.unpack =
      .finite .positive (2 ^ 52) (-52) (by decide) := by rfl
  have product : Float.ofNat n =
      n.toUInt64.toFloat * getElem Float.exactlyRepresentablePowersOfTen 0 (by decide) :=
    dif_pos ⟨small, by decide⟩
  rw [product]
  show Float.Model.pack (UnpackedFloat.mul .binary64 n.toUInt64.toFloat.toModel.unpack _) = _
  rw [one, toModel_toFloat small, unpack_pack_unpackedOf (n := n) small, mul_one_unpackedOf small]

theorem toModel_ofInt {n : Int} (small : n.natAbs < exactBound) :
    (Float.ofInt n).toModel = Float.Model.pack (unpackedOf n) := by
  cases n with
  | ofNat n => exact toModel_ofNat small
  | negSucc n =>
    have positive : n + 1 < exactBound := small
    show Float.Model.pack (Float.ofNat (n + 1)).toModel.unpack.neg = _
    rw [toModel_ofNat positive, unpack_pack_unpackedOf (n := (n + 1 : Nat)) positive,
      ← unpackedOf_neg (Nat.succ_pos n)]
    rfl

theorem ofInt_add {a b : Int} (small : a.natAbs < exactBound) (small' : b.natAbs < exactBound)
    (sum : (a + b).natAbs < exactBound) :
    Float.ofInt a + Float.ofInt b = Float.ofInt (a + b) := by
  have models : (Float.ofInt a + Float.ofInt b).toModel = (Float.ofInt (a + b)).toModel := by
    show Float.Model.pack (UnpackedFloat.add .binary64 (Float.ofInt a).toModel.unpack
      (Float.ofInt b).toModel.unpack) = _
    rw [toModel_ofInt small, toModel_ofInt small', toModel_ofInt sum,
      unpack_pack_unpackedOf small, unpack_pack_unpackedOf small', add_unpackedOf small small' sum]
  exact congrArg Float.ofModel models

end Rollup.Decimal
