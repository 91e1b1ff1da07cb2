import Mathlib
import Rollup.Decimal.Binary64

/-! The order of all numbers, the infinite ones included, is the order of their bits.  Read as a
whole number and counted downwards from zero for a negative sign, the bits below the sign are the
height of a number: the next number is one higher, and both zeros are at height zero.  Main
statements: less and equal compare heights, and so does the total order by bits once the negative
zero is out of the way, which adding zero sees to. -/

namespace Rollup.Decimal

open Float.Model Float.Model.UnpackedFloat

/-! The three fields of the bits. -/

theorem toNat_unpackMantissa (x : Float) :
    (@unpackMantissa .binary64 x.toBits.toBitVec).toNat = x.toBits.toNat % 2 ^ 52 := by
  rw [unpackMantissa_def, BitVec.extractLsb'_toNat]
  rfl

theorem toNat_unpackExponent (x : Float) :
    (@unpackExponent .binary64 x.toBits.toBitVec).toNat =
      x.toBits.toNat / 2 ^ 52 % 2048 := by
  rw [unpackExponent_def, BitVec.extractLsb'_toNat, Nat.shiftRight_eq_div_pow]
  rfl

def signIn (x : Float) : Sign := if isNegative x then .negative else .positive

theorem ofBitVec_unpackSign (x : Float) :
    Sign.ofBitVec (@unpackSign .binary64 x.toBits.toBitVec) = signIn x := by
  have small : x.toBits.toBitVec.toNat < 2 ^ 64 := x.toBits.toNat_lt
  have field : (@unpackSign .binary64 x.toBits.toBitVec).toNat =
      x.toBits.toNat / 2 ^ 63 := by
    rw [unpackSign_def, BitVec.extractLsb'_toNat, Nat.shiftRight_eq_div_pow]
    exact Nat.mod_eq_of_lt (Nat.div_lt_of_lt_mul small)
  have clear : @unpackSign .binary64 x.toBits.toBitVec = 0#1 ↔
      x.toBits.toNat / 2 ^ 63 = 0 := by
    rw [← field]
    exact BitVec.toNat_inj.symm
  have bit : x.toBits.toNat / 2 ^ 63 < 2 := Nat.div_lt_of_lt_mul small
  have power : Nat.pow 2 63 = 2 ^ 63 := rfl
  rw [Sign.ofBitVec, signIn]
  simp only [clear, isNegative, power, decide_eq_true_eq]
  split <;> split <;> first | rfl | omega

def Magnitude.unpacked (sign : Sign) : Magnitude → UnpackedFloat
  | .finite significand exponent =>
    if some : 0 < significand then .finite sign significand exponent some else .zero sign
  | .infinite => .infinity sign
  | .notANumber => .notANumber

theorem unpack_eq_magnitude (x : Float) :
    x.toModel.unpack = (magnitude x).unpacked (signIn x) := by
  have sign := ofBitVec_unpackSign x
  have field := toNat_unpackExponent x
  have fraction := toNat_unpackMantissa x
  have top : @unpackExponent .binary64 x.toBits.toBitVec = -1#11 ↔
      x.toBits.toNat / 2 ^ 52 % 2048 = 2047 := by
    rw [← field]
    exact BitVec.toNat_inj.symm
  have bottom : @unpackExponent .binary64 x.toBits.toBitVec = 0#11 ↔
      x.toBits.toNat / 2 ^ 52 % 2048 = 0 := by
    rw [← field]
    exact BitVec.toNat_inj.symm
  have empty : @unpackMantissa .binary64 x.toBits.toBitVec = 0#52 ↔
      x.toBits.toNat % 2 ^ 52 = 0 := by
    rw [← fraction]
    exact BitVec.toNat_inj.symm
  have restored : (1#1 ++ @unpackMantissa .binary64 x.toBits.toBitVec).toNat =
      2 ^ 52 + x.toBits.toNat % 2 ^ 52 := by
    rw [← fraction, BitVec.toNat_append, ← Nat.shiftLeft_add_eq_or_of_lt (BitVec.isLt _),
      Nat.shiftLeft_eq]
    rfl
  have bias : (Format.exponentBias .binary64 : Int) = 1023 := rfl
  have power : Nat.pow 2 52 = 2 ^ 52 := rfl
  show UnpackedFloat.unpack .binary64 x.toBits.toBitVec = _
  rw [UnpackedFloat.unpack, magnitude, Magnitude.ofBits]
  simp only [power]
  by_cases atTop : x.toBits.toNat / 2 ^ 52 % 2048 = 2047
  · rw [if_pos (top.mpr atTop), if_pos atTop]
    by_cases none : x.toBits.toNat % 2 ^ 52 = 0
    · rw [if_pos (empty.mpr none), if_pos none, sign]
      rfl
    · rw [if_neg (mt empty.mp none), if_neg none]
      rfl
  · rw [if_neg (mt top.mp atTop), if_neg atTop]
    by_cases atBottom : x.toBits.toNat / 2 ^ 52 % 2048 = 0
    · rw [if_pos (bottom.mpr atBottom), if_pos atBottom, Magnitude.unpacked]
      by_cases none : x.toBits.toNat % 2 ^ 52 = 0
      · rw [dif_pos (empty.mpr none), dif_neg (by omega), sign]
      · rw [dif_neg (mt empty.mp none), dif_pos (by omega), UnpackedFloat.finite.injEq]
        refine ⟨sign, fraction, ?_⟩
        rw [field, atBottom, bias]
        rfl
    · rw [if_neg (mt bottom.mp atBottom), if_neg atBottom, Magnitude.unpacked,
        dif_pos (by omega), UnpackedFloat.finite.injEq]
      refine ⟨sign, restored, ?_⟩
      rw [field, bias]
      rfl

theorem isFinite_eq (x : Float) :
    x.isFinite = match magnitude x with
      | .finite _ _ => true
      | .infinite | .notANumber => false := by
  have unpacked : x.isFinite = ((magnitude x).unpacked (signIn x)).isFinite := by
    rw [← unpack_eq_magnitude]
    rfl
  rw [unpacked]
  cases magnitude x with
  | infinite => rfl
  | notANumber => rfl
  | finite significand exponent =>
    rw [Magnitude.unpacked]
    split <;> rfl

def size (x : Float) : Nat := x.toBits.toNat % 2 ^ 63

def height (x : Float) : Int := if isNegative x then -size x else size x

def ceiling : Int := 2047 * 2 ^ 52

def heightOf : UnpackedFloat → Int
  | .infinity sign => sign.apply ceiling
  | .finite sign significand exponent _ => sign.apply ((exponent + 1074) * 2 ^ 52 + significand)
  | .zero _ | .notANumber => 0

/-- A significand and an exponent that bits can hold: all 53 bits of the significand are used
unless the exponent is the least one. -/
structure Held (significand : Nat) (exponent : Int) : Prop where
  least : -1074 ≤ exponent
  most : exponent ≤ 971
  short : significand < 2 ^ 53
  full : 2 ^ 52 ≤ significand ∨ exponent = -1074

/-- The unpacked forms that bits have. -/
def Packable : UnpackedFloat → Prop
  | .finite _ significand exponent _ => Held significand exponent
  | .infinity _ | .zero _ | .notANumber => True

theorem height_of_magnitude {x : Float} (number : x.isNaN = false) :
    Packable x.toModel.unpack ∧ heightOf x.toModel.unpack = height x := by
  have number : x.toModel.unpack.isNaN = false := number
  have signed : ∀ n : Int, n = size x → (signIn x).apply n = height x := by
    rintro n rfl
    rw [height, signIn]
    split <;> rfl
  have parts : size x = x.toBits.toNat / 2 ^ 52 % 2048 * 2 ^ 52 + x.toBits.toNat % 2 ^ 52 := by
    rw [size]
    omega
  have less : x.toBits.toNat % 2 ^ 52 < 2 ^ 52 := Nat.mod_lt _ (Nat.two_pow_pos 52)
  have fields : x.toBits.toNat / 2 ^ 52 % 2048 < 2048 := Nat.mod_lt _ (by decide)
  have power : Nat.pow 2 52 = 2 ^ 52 := rfl
  rw [unpack_eq_magnitude, magnitude, Magnitude.ofBits] at number ⊢
  simp only [power, Int.ofNat_eq_natCast] at number ⊢
  generalize x.toBits.toNat / 2 ^ 52 % 2048 = field at parts fields number ⊢
  generalize x.toBits.toNat % 2 ^ 52 = fraction at parts less number ⊢
  split at number
  case isTrue top =>
    rw [if_pos top]
    split at number
    case isTrue none =>
      rw [if_pos none]
      refine ⟨trivial, signed _ ?_⟩
      rw [ceiling]
      omega
    case isFalse => cases number
  case isFalse inner =>
    rw [if_neg inner]
    split
    case isTrue bottom =>
      rw [Magnitude.unpacked]
      split
      case isTrue some => exact ⟨⟨le_rfl, by decide, by omega, .inr rfl⟩, signed _ (by omega)⟩
      case isFalse none =>
        have nothing : size x = 0 := by omega
        refine ⟨trivial, ?_⟩
        simp [heightOf, height, nothing]
    case isFalse =>
      rw [Magnitude.unpacked, dif_pos (by omega)]
      exact ⟨⟨by omega, by omega, by omega, .inl (by omega)⟩, signed _ (by omega)⟩

section

variable {significand significand' : Nat} {exponent exponent' : Int}

theorem Held.reach (held : Held significand exponent) (some : 0 < significand) :
    0 < (exponent + 1074) * 2 ^ 52 + significand ∧
      (exponent + 1074) * 2 ^ 52 + significand < ceiling := by
  obtain ⟨least, most, short, -⟩ := held
  rw [ceiling]
  omega

/-- By exponent and then by significand is by height. -/
theorem Held.compares (held : Held significand exponent) (held' : Held significand' exponent') :
    ((compare exponent exponent').then (compare significand significand')).Compares
      ((exponent + 1074) * 2 ^ 52 + significand) ((exponent' + 1074) * 2 ^ 52 + significand') := by
  obtain ⟨least, -, short, full⟩ := held
  obtain ⟨least', -, short', full'⟩ := held'
  have exponents : (compare exponent exponent').Compares exponent exponent' :=
    (compare_iff _ _).mp rfl
  have significands : (compare significand significand').Compares significand significand' :=
    (compare_iff _ _).mp rfl
  cases first : compare exponent exponent' with
  | lt =>
    rw [first] at exponents
    have less : exponent < exponent' := exponents
    show _ < _
    omega
  | gt =>
    rw [first] at exponents
    have less : exponent' < exponent := exponents
    show _ < _
    omega
  | eq =>
    rw [first] at exponents
    obtain rfl : exponent = exponent' := exponents
    have grown : StrictMono fun n : Nat => (exponent + 1074) * 2 ^ 52 + (n : Int) := by
      intro n n' less
      dsimp only
      omega
    exact grown.compares.mpr significands

end

theorem bottom_lt_top : -ceiling < ceiling := by decide

theorem heightOf_bounds {u : UnpackedFloat} (held : Packable u) (finite : u.isFinite = true) :
    -ceiling < heightOf u ∧ heightOf u < ceiling := by
  have top : 0 < ceiling := by decide
  cases u with
  | notANumber => cases finite
  | infinity => cases finite
  | zero => exact ⟨Int.neg_neg_of_pos top, top⟩
  | finite sign _ _ some =>
    obtain ⟨above, below⟩ := held.reach some
    cases sign with
    | positive => exact ⟨(Int.neg_neg_of_pos top).trans above, below⟩
    | negative => exact ⟨Int.neg_lt_neg below, (Int.neg_neg_of_pos above).trans top⟩

def ComparesByHeight (u v : UnpackedFloat) : Prop :=
  ∃ o, u.compare v = some o ∧ o.Compares (heightOf u) (heightOf v)

section

variable {v : UnpackedFloat} (held' : Packable v) (number' : v.isNaN = false)
include held' number'

theorem infinity_compares (sign : Sign) : ComparesByHeight (.infinity sign) v := by
  cases v with
  | notANumber => cases number'
  | infinity sign' =>
    cases sign with
    | positive =>
      cases sign' with
      | positive => exact ⟨.eq, rfl, rfl⟩
      | negative => exact ⟨.gt, rfl, bottom_lt_top⟩
    | negative =>
      cases sign' with
      | positive => exact ⟨.lt, rfl, bottom_lt_top⟩
      | negative => exact ⟨.eq, rfl, rfl⟩
  | zero | finite =>
    obtain ⟨above, below⟩ := heightOf_bounds held' rfl
    cases sign with
    | positive => exact ⟨.gt, rfl, below⟩
    | negative => exact ⟨.lt, rfl, above⟩

theorem zero_compares (sign : Sign) : ComparesByHeight (.zero sign) v := by
  cases v with
  | notANumber => cases number'
  | infinity sign' =>
    obtain ⟨above, below⟩ := heightOf_bounds (u := .zero sign) trivial rfl
    cases sign' with
    | positive => exact ⟨.lt, rfl, below⟩
    | negative => exact ⟨.gt, rfl, above⟩
  | zero => exact ⟨.eq, rfl, rfl⟩
  | finite sign' _ _ some' =>
    obtain ⟨above, -⟩ := held'.reach some'
    cases sign' with
    | positive => exact ⟨.lt, rfl, above⟩
    | negative => exact ⟨.gt, rfl, Int.neg_neg_of_pos above⟩

theorem finite_compares {significand : Nat} {exponent : Int} (held : Held significand exponent)
    (some : 0 < significand) (sign : Sign) :
    ComparesByHeight (.finite sign significand exponent some) v := by
  obtain ⟨above, -⟩ := held.reach some
  cases v with
  | notANumber => cases number'
  | infinity sign' =>
    obtain ⟨above, below⟩ := heightOf_bounds (u := .finite sign _ _ some) held rfl
    cases sign' with
    | positive => exact ⟨.lt, rfl, below⟩
    | negative => exact ⟨.gt, rfl, above⟩
  | zero =>
    cases sign with
    | positive => exact ⟨.gt, rfl, above⟩
    | negative => exact ⟨.lt, rfl, Int.neg_neg_of_pos above⟩
  | finite sign' _ _ some' =>
    obtain ⟨above', -⟩ := held'.reach some'
    cases sign with
    | positive =>
      cases sign' with
      | positive => exact ⟨_, rfl, held.compares held'⟩
      | negative => exact ⟨.gt, rfl, (Int.neg_neg_of_pos above').trans above⟩
    | negative =>
      cases sign' with
      | positive => exact ⟨.lt, rfl, (Int.neg_neg_of_pos above).trans above'⟩
      | negative =>
        have turned : StrictAnti (Neg.neg : Int → Int) := fun _ _ => Int.neg_lt_neg
        exact ⟨_, rfl, turned.compares.mpr (held.compares held').swap⟩

end

theorem comparesByHeight {u v : UnpackedFloat} (held : Packable u) (held' : Packable v)
    (number : u.isNaN = false) (number' : v.isNaN = false) : ComparesByHeight u v := by
  cases u with
  | notANumber => cases number
  | infinity sign => exact infinity_compares held' number' sign
  | zero sign => exact zero_compares held' number' sign
  | finite sign _ _ some => exact finite_compares held' number' held some sign

/-! The comparisons of numbers. -/

theorem lt_iff_compare (x y : Float) :
    x < y ↔ x.toModel.unpack.compare y.toModel.unpack = some .lt := by
  have less : x < y ↔ (x.toModel.unpack.compare y.toModel.unpack == some .lt) = true :=
    decide_eq_true_iff
  rw [less, beq_iff_eq]

theorem le_iff_compare (x y : Float) :
    x ≤ y ↔ (x.toModel.unpack.compare y.toModel.unpack).any (·.isLE) = true :=
  decide_eq_true_iff

theorem beq_eq_compare (x y : Float) :
    (x == y) = (x.toModel.unpack.compare y.toModel.unpack == some .eq) :=
  rfl

section

variable {x y : Float} (number : x.isNaN = false) (number' : y.isNaN = false)
include number number'

theorem compare_eq_height :
    x.toModel.unpack.compare y.toModel.unpack = some (compare (height x) (height y)) := by
  obtain ⟨held, same⟩ := height_of_magnitude number
  obtain ⟨held', same'⟩ := height_of_magnitude number'
  obtain ⟨o, compared, placed⟩ := comparesByHeight held held' number number'
  rw [same, same'] at placed
  rw [compared, (compare_iff _ _).mpr placed]

theorem lt_iff_height : x < y ↔ height x < height y := by
  rw [lt_iff_compare, compare_eq_height number number', Option.some_inj, compare_lt_iff_lt]

theorem beq_iff_height : (x == y) = true ↔ height x = height y := by
  rw [beq_eq_compare, compare_eq_height number number', beq_iff_eq, Option.some_inj,
    compare_eq_iff_eq]

end

theorem compare_notANumber {x y : Float} (missing : x.isNaN = true ∨ y.isNaN = true) :
    x.toModel.unpack.compare y.toModel.unpack = none := by
  rcases missing with missing | missing
  · rw [isNaN_iff.mp missing]
    rfl
  · rw [isNaN_iff.mp missing]
    cases x.toModel.unpack <;> rfl

theorem compare_swapped (x y : Float) : y.toModel.unpack.compare x.toModel.unpack =
    (x.toModel.unpack.compare y.toModel.unpack).map Ordering.swap := by
  cases number : x.isNaN with
  | true => rw [compare_notANumber (.inr number), compare_notANumber (.inl number), Option.map_none]
  | false =>
    cases number' : y.isNaN with
    | true =>
      rw [compare_notANumber (.inl number'), compare_notANumber (.inr number'), Option.map_none]
    | false =>
      rw [compare_eq_height number' number, compare_eq_height number number', Option.map_some]
      exact congrArg some Std.OrientedCmp.eq_swap

/-! The total order. -/

def negativeZero : Nat := 2 ^ 63

/-- But for the negative zero, ranks count from below what heights count from zero. -/
theorem rank_eq_height {x : Float} (other : x.toBits.toNat ≠ negativeZero) :
    (rank x : Int) = if height x < 0 then 2 ^ 63 - 1 + height x else 2 ^ 63 + height x := by
  have bits : x.toBits.toNat < 2 ^ 64 := x.toBits.toNat_lt
  have half : Nat.pow 2 63 = 2 ^ 63 := rfl
  have whole : Nat.pow 2 64 = 2 ^ 64 := rfl
  simp only [rank, height, size, isNegative, half, whole, decide_eq_true_eq]
  rw [negativeZero] at other
  split <;> split <;> split <;> omega

section

variable {x y : Float} (other : x.toBits.toNat ≠ negativeZero)
  (other' : y.toBits.toNat ≠ negativeZero)
include other other'

theorem rank_lt_iff_height : rank x < rank y ↔ height x < height y := by
  have place := rank_eq_height other
  have place' := rank_eq_height other'
  split at place <;> split at place' <;> omega

theorem rank_eq_iff_height : rank x = rank y ↔ height x = height y := by
  have place := rank_eq_height other
  have place' := rank_eq_height other'
  split at place <;> split at place' <;> omega

end

theorem toBits_add_zero (x : Float) : (x + 0.0).toBits.toNat ≠ negativeZero := by
  have sum : (x + 0.0).toModel =
      Float.Model.pack (UnpackedFloat.add .binary64 x.toModel.unpack (.zero .positive)) :=
    rfl
  have restored : Float.Model.pack x.toModel.unpack = x.toModel :=
    congrArg Float.toModel (Float.ofBits_toBits x)
  have kept (other : ∀ sign, x.toModel.unpack ≠ .zero sign)
      (same : UnpackedFloat.add .binary64 x.toModel.unpack (.zero .positive) =
        x.toModel.unpack) : (x + 0.0).toBits.toNat ≠ negativeZero := by
    intro cleared
    have whole : (x + 0.0).toBits = x.toBits := by
      rw [Float.toBits, sum, same, restored, Float.toBits]
    have none : magnitude x = .finite 0 (-1074) := by
      rw [magnitude, ← whole, cleared]
      rfl
    exact other _ (by rw [unpack_eq_magnitude, none]; rfl)
  cases form : x.toModel.unpack with
  | zero sign =>
    rw [Float.toBits, sum, form]
    cases sign <;> decide
  | notANumber | infinity | finite =>
    rw [form] at kept
    exact kept nofun rfl

end Rollup.Decimal
