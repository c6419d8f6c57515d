import Mathlib

/-!
# Binary floating-point patterns

C `double` and `float` values as the bit patterns they are stored in, with the
conversions a C program makes between them and integers. The rounding itself is
that of the float model of the standard library; only the treatment of NaN
payloads, which that model does not keep, is added here.
-/

namespace Codec

open Float.Model (Format UnpackedFloat totalExponent)
open Float.Model.UnpackedFloat

/-- The bit pattern of a `double`. -/
abbrev Double := BitVec Format.binary64.numBits

/-- The bit pattern of a `float`. -/
abbrev Single := BitVec Format.binary32.numBits

namespace Double

/-- The conversion of an integer to `double`, rounding to nearest. -/
def ofInt (value : Int) : Double := pack Format.binary64 (UnpackedFloat.ofInt Format.binary64 value)

/-- The truncation of a `double` to an integer, clamping the infinities to the
neighbours of the `int` range. -/
def truncate (bits : Double) : Int :=
  (unpack Format.binary64 bits).toInt (-2 ^ 31 - 1) (2 ^ 31)

/-- The conversion `(int)value`. A value outside the range, and a NaN, gives the
smallest `int`, as on the processors that have such a result. -/
def toCInt (bits : Double) : Int :=
  match unpack Format.binary64 bits with
  | .notANumber => -2 ^ 31
  | _ => if -2 ^ 31 ≤ truncate bits ∧ truncate bits < 2 ^ 31 then truncate bits else -2 ^ 31

/-- The conversion `(float)value`, rounding to nearest; a NaN keeps the high part
of its payload and becomes quiet. -/
def toSingle (bits : Double) : Single :=
  match unpack Format.binary64 bits with
  | .notANumber =>
      packComponents Format.binary32 (Sign.ofBitVec (unpackSign bits)) (-1)
        ((unpackMantissa bits).extractLsb' 29 23 ||| 1 <<< 22)
  | .finite sign mantissa exponent _ =>
      pack Format.binary32 (round Format.binary32 sign mantissa exponent)
  | other => pack Format.binary32 other

end Double

/-- The conversion of a `float` to `double`, which is exact; a NaN becomes quiet. -/
def Single.toDouble (bits : Single) : Double :=
  match unpack Format.binary32 bits with
  | .notANumber =>
      packComponents Format.binary64 (Sign.ofBitVec (unpackSign bits)) (-1)
        ((unpackMantissa bits).zeroExtend 52 <<< 29 ||| 1 <<< 51)
  | .finite sign mantissa exponent _ =>
      pack Format.binary64 (round Format.binary64 sign mantissa exponent)
  | other => pack Format.binary64 other

example : Double.ofInt 1 = 0x3FF0000000000000#64 := by decide
example : Double.toSingle (Double.ofInt (-3)) = 0xC0400000#32 := by decide
example : Single.toDouble 0xC0400000#32 = Double.ofInt (-3) := by decide

/-- Shifting right drops the low digits of the mantissa. -/
private theorem mantissa_shiftRight (extended : ExtendedMantissa) (amount : Nat) :
    (extended >>> amount).mantissa = extended.mantissa / 2 ^ amount := by
  induction amount with
  | zero => exact (Nat.div_one _).symm
  | succ amount ih =>
      change (extended >>> amount).mantissa / 2 = _
      rw [ih, Nat.div_div_eq_div_mul, Nat.pow_succ]

/-- An aligned mantissa has its target exponent already. -/
theorem targetExponent_aligned {mantissa : Nat} {exponent : Int}
    (aligned : mantissa.log2 = 52) (normal : -1074 ≤ exponent) :
    Format.binary64.targetExponent (totalExponent mantissa exponent) = exponent := by
  simp only [Format.targetExponent, totalExponent, Format.mantissaBits, Format.minExponent, aligned]
  omega

/-- An aligned mantissa is rounded to itself. -/
theorem roundWithAccuracy_aligned {sign : Sign} {mantissa : Nat} {exponent : Int}
    (aligned : mantissa.log2 = 52) (normal : -1074 ≤ exponent) (positive : 0 < mantissa) :
    roundWithAccuracy Format.binary64 sign mantissa exponent .exact =
      .finite sign mantissa exponent positive := by
  have shifted : shiftToTargetExponent Format.binary64 mantissa exponent .exact =
      (⟨mantissa, false, false⟩, exponent) := by
    rw [shiftToTargetExponent, targetExponent_aligned aligned normal, shiftToExponent, Int.sub_self]
    exact congrArg (Prod.mk _) (Int.add_zero exponent)
  have rounded : (ExtendedMantissa.mk mantissa false false).roundedMantissa = mantissa := rfl
  simp only [roundWithAccuracy, shifted, rounded, Nat.ne_of_gt positive, ↓reduceDIte]

/-- The implicit bit of an integer of at most 53 bits, once it is aligned. -/
theorem log2_aligned {value : Nat} (positive : 0 < value) (small : value.log2 ≤ 52) :
    (value * 2 ^ (52 - value.log2)).log2 = 52 := by
  have bounds := (Nat.log2_eq_iff (Nat.ne_of_gt positive)).mp rfl
  have exact : 2 ^ value.log2 * 2 ^ (52 - value.log2) = 2 ^ 52 := by
    rw [← Nat.pow_add, Nat.add_sub_of_le small]
  refine (Nat.log2_eq_iff (by positivity)).mpr ⟨?_, ?_⟩
  · rw [← exact]
    exact Nat.mul_le_mul_right _ bounds.1
  · rw [Nat.pow_succ, ← exact, Nat.mul_right_comm, ← Nat.pow_succ]
    exact Nat.mul_lt_mul_of_pos_right bounds.2 (by positivity)

/-- An integer of at most 53 bits is aligned with the implicit bit. -/
theorem round_of_log2_le {sign : Sign} {value : Nat} (positive : 0 < value)
    (small : value.log2 ≤ 52) :
    round Format.binary64 sign value 0 =
      .finite sign (value * 2 ^ (52 - value.log2)) (value.log2 - 52 : Int) (by positivity) := by
  have target : Format.binary64.targetExponent (totalExponent value 0) = (value.log2 : Int) - 52 := by
    simp only [Format.targetExponent, totalExponent, Format.mantissaBits, Format.minExponent]
    omega
  have amount : (0 - ((value.log2 : Int) - 52)).toNat = 52 - value.log2 := by omega
  rw [UnpackedFloat.round, target, decreaseExponent, amount, Nat.shiftLeft_eq]
  have exponent : (0 : Int) - (52 - value.log2 : Nat) = (value.log2 : Int) - 52 := by omega
  simp only [exponent]
  exact roundWithAccuracy_aligned (log2_aligned positive small) (by omega) _

/-- The sign of a pattern is the one it was made from. -/
private theorem sign_packComponents {format : Format} {sign : Sign}
    {exponent : BitVec format.exponentBits}
    {mantissa : BitVec format.mantissaBitsWithoutImplicit} :
    Sign.ofBitVec (unpackSign (packComponents format sign exponent mantissa)) = sign := by
  have same : unpackSign (packComponents format sign exponent mantissa) = sign.toBitVec := by
    ext i bound
    obtain rfl : i = 0 := Nat.lt_one_iff.mp bound
    simp [unpackSign, packComponents, BitVec.getLsbD_append, BitVec.getLsbD_eq_getElem,
      BitVec.getElem_append]
  rw [same]
  cases sign <;> rfl

/-- A normal number is stored exactly. -/
theorem unpack_pack_normal {sign : Sign} {mantissa : Nat} {exponent : Int}
    (positive : 0 < mantissa) (aligned : mantissa.log2 = 52) (low : -1074 ≤ exponent)
    (high : exponent ≤ 971) :
    unpack Format.binary64 (pack Format.binary64 (.finite sign mantissa exponent positive)) =
      .finite sign mantissa exponent positive := by
  obtain ⟨least, below⟩ := (Nat.log2_eq_iff (Nat.ne_of_gt positive)).mp aligned
  have bias : ((Format.binary64.exponentBias : Nat) : Int) = 1023 := rfl
  obtain ⟨biased, stored⟩ : ∃ biased : Nat, exponent + 1023 + 52 = biased :=
    ⟨(exponent + 1023 + 52).toNat, by omega⟩
  have packed : pack Format.binary64 (.finite sign mantissa exponent positive) =
      packComponents Format.binary64 sign (BitVec.ofNat _ biased) (BitVec.ofNat _ mantissa) := by
    have finite : ¬ 2 ^ Format.binary64.exponentBits ≤ biased + 1 := by
      change ¬ 2 ^ 11 ≤ biased + 1
      omega
    have field : (exponent + (Format.binary64.exponentBias : Nat) +
        (Format.binary64.mantissaBitsWithoutImplicit : Nat)).toNat = biased := by
      rw [bias]
      change (exponent + 1023 + 52).toNat = biased
      omega
    rw [pack]
    simp only [field, if_neg finite, aligned]
    rfl
  have notOnes : BitVec.ofNat 11 biased ≠ -1#11 := by
    intro same
    have values := congrArg BitVec.toNat same
    change biased % 2048 = 2047 at values
    omega
  have notZero : BitVec.ofNat 11 biased ≠ 0#11 := by
    intro same
    have values := congrArg BitVec.toNat same
    change biased % 2048 = 0 at values
    omega
  have whole : (1#1 ++ BitVec.ofNat Format.binary64.mantissaBitsWithoutImplicit mantissa).toNat =
      mantissa := by
    have high : (1#1 ++ BitVec.ofNat 52 mantissa).toNat = 2 ^ 52 + mantissa % 2 ^ 52 := by
      rw [BitVec.toNat_append, BitVec.toNat_ofNat, BitVec.toNat_ofNat, Nat.shiftLeft_eq,
        Nat.mul_comm, ← Nat.two_pow_add_eq_or_of_lt (Nat.mod_lt _ (by decide))]
      rfl
    change (1#1 ++ BitVec.ofNat 52 mantissa).toNat = mantissa
    omega
  have back : ((BitVec.ofNat Format.binary64.exponentBits biased).toNat : Int) -
      (Format.binary64.exponentBias + Format.binary64.mantissaBitsWithoutImplicit) = exponent := by
    rw [bias]
    change ((biased % 2048 : Nat) : Int) - (1023 + 52) = exponent
    omega
  rw [packed, unpack]
  simp only [unpackExponent_packComponents, unpackMantissa_packComponents, whole, back,
    sign_packComponents]
  rw [if_neg notOnes, if_neg notZero]

/-- Truncation undoes the alignment of an integer. -/
private theorem roundToInt_aligned {sign : Sign} {value : Nat} (small : value.log2 ≤ 52) :
    roundToInt sign (value * 2 ^ (52 - value.log2)) (value.log2 - 52 : Int) = sign.apply value := by
  have still : ((value.log2 : Int) - 52 - 0).toNat = 0 := by omega
  have amount : (0 - ((value.log2 : Int) - 52)).toNat = 52 - value.log2 := by omega
  rw [roundToInt, decreaseExponent, still]
  simp only [Nat.shiftLeft_zero, Nat.cast_zero, Int.sub_zero, shiftToExponent, amount,
    mantissa_shiftRight, ExtendedMantissa.ofMantissaAndAccuracy]
  rw [Nat.mul_div_cancel _ (by positivity)]

namespace Double

/-- The conversion to `int` gives an `int`. -/
theorem toCInt_range (bits : Double) : -2 ^ 31 ≤ toCInt bits ∧ toCInt bits < 2 ^ 31 := by
  rw [toCInt]
  split
  · decide
  · split
    · assumption
    · decide

/-- An integer of at most 53 bits, given by its sign and size, is unpacked as that size,
aligned, when the conversion to `double` rounds it. -/
theorem unpack_ofInt_of_sign {value : Int} (sign : Sign) (size : Nat) (positive : 0 < size)
    (bound : size < 2 ^ 53)
    (rounded : ofInt value = pack Format.binary64 (round Format.binary64 sign size 0)) :
    unpack Format.binary64 (ofInt value) =
      .finite sign (size * 2 ^ (52 - size.log2)) (size.log2 - 52 : Int)
        (Nat.mul_pos positive (Nat.two_pow_pos _)) := by
  have small : size.log2 ≤ 52 := by
    have digits := (Nat.log2_lt (Nat.ne_of_gt positive)).mpr bound
    omega
  rw [rounded, round_of_log2_le positive small]
  exact unpack_pack_normal _ (log2_aligned positive small) (by omega) (by omega)

/-- An integer given by its sign and size is truncated to itself, and converted to `int` if
it is one, when the conversion to `double` rounds that size. -/
private theorem toCInt_of_sign {value : Int} (sign : Sign) (size : Nat) (positive : 0 < size)
    (bound : size < 2 ^ 53)
    (rounded : ofInt value = pack Format.binary64 (round Format.binary64 sign size 0))
    (same : sign.apply size = value) : truncate (ofInt value) = value ∧
      toCInt (ofInt value) = if -2 ^ 31 ≤ value ∧ value < 2 ^ 31 then value else -2 ^ 31 := by
  have unpacked := unpack_ofInt_of_sign sign size positive bound rounded
  have small : size.log2 ≤ 52 := by
    have digits := (Nat.log2_lt (Nat.ne_of_gt positive)).mpr bound
    omega
  have truncated : truncate (ofInt value) = value := by
    rw [truncate, unpacked, UnpackedFloat.toInt, roundToInt_aligned small, same]
  refine ⟨truncated, ?_⟩
  rw [toCInt, unpacked, truncated]

/-- Integers of at most 53 bits survive the conversion to `double`. -/
theorem truncate_ofInt {value : Int} (low : -2 ^ 53 < value) (high : value < 2 ^ 53) :
    truncate (ofInt value) = value ∧
      toCInt (ofInt value) = if -2 ^ 31 ≤ value ∧ value < 2 ^ 31 then value else -2 ^ 31 := by
  rcases Int.lt_trichotomy value 0 with negative | rfl | positive
  · apply toCInt_of_sign .negative (-value).toNat
    · omega
    · omega
    · rw [ofInt, UnpackedFloat.ofInt, UnpackedFloat.normalize, compare_lt_iff_lt.mpr negative]
    · simp only [Sign.apply]
      omega
  · decide
  · apply toCInt_of_sign .positive value.toNat
    · omega
    · omega
    · rw [ofInt, UnpackedFloat.ofInt, UnpackedFloat.normalize, compare_gt_iff_gt.mpr positive]
    · simp only [Sign.apply]
      omega

/-- Every `int` survives the conversion to `double` and back. -/
theorem toCInt_ofInt {value : Int} (low : -2 ^ 31 ≤ value) (high : value < 2 ^ 31) :
    toCInt (ofInt value) = value :=
  (truncate_ofInt (by omega) (by omega)).2.trans (if_pos ⟨low, high⟩)

end Double

end Codec
