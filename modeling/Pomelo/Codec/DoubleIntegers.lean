import Pomelo.Codec.DoubleOrder

/-!
# Arithmetic of integers in doubles

Integers of at most 53 bits are kept exactly in a `double`. Sums and products of them that have
at most 53 bits are exact as well, and the comparisons are those of the integers.
-/

namespace Codec

open Float.Model (Format UnpackedFloat totalExponent)
open Float.Model.UnpackedFloat

/-- A power of two adds its exponent. -/
theorem log2_scaled {value : Nat} (positive : 0 < value) (bits : Nat) :
    (value * 2 ^ bits).log2 = value.log2 + bits := by
  have bounds := (Nat.log2_eq_iff (Nat.ne_of_gt positive)).mp rfl
  refine (Nat.log2_eq_iff (by positivity)).mpr ⟨?_, ?_⟩
  · rw [Nat.pow_add]
    exact Nat.mul_le_mul_right _ bounds.1
  · rw [Nat.add_right_comm, Nat.pow_add]
    exact Nat.mul_lt_mul_of_pos_right bounds.2 (by positivity)

/-- An integer below `2 ^ 53` has at most 53 binary digits. -/
theorem log2_le_of_lt {value : Nat} (positive : 0 < value) (bound : value < 2 ^ 53) :
    value.log2 ≤ 52 := by
  have digits := (Nat.log2_lt (Nat.ne_of_gt positive)).mpr bound
  omega

/-- Shifting zeros out of a mantissa loses nothing. -/
theorem scaled_shiftRight (mantissa bits : Nat) :
    ExtendedMantissa.mk (mantissa * 2 ^ bits) false false >>> bits = ⟨mantissa, false, false⟩ := by
  induction bits generalizing mantissa with
  | zero => rw [Nat.pow_zero, Nat.mul_one]; rfl
  | succ bits ih =>
      change (ExtendedMantissa.mk (mantissa * 2 ^ (bits + 1)) false false >>> bits).shiftRightOne = _
      rw [Nat.pow_succ', ← Nat.mul_assoc, ih, ExtendedMantissa.shiftRightOne,
        Nat.mul_div_cancel _ (by decide), Nat.mul_mod_left]
      rfl

/-- An integer of at most 53 bits is rounded to itself, however many zeros it is given
with. -/
theorem roundWithAccuracy_scaled {sign : Sign} {value bits : Nat} (positive : 0 < value)
    (small : value.log2 ≤ 52) (room : 52 ≤ value.log2 + bits) :
    roundWithAccuracy Format.binary64 sign (value * 2 ^ bits) (-bits) .exact =
      .finite sign (value * 2 ^ (52 - value.log2)) (value.log2 - 52 : Int) (by positivity) := by
  have target : Format.binary64.targetExponent (totalExponent (value * 2 ^ bits) (-bits)) =
      (value.log2 : Int) - 52 := by
    simp only [Format.targetExponent, totalExponent, Format.mantissaBits, Format.minExponent,
      log2_scaled positive]
    omega
  have amount : ((value.log2 : Int) - 52 - -bits).toNat = value.log2 + bits - 52 := by omega
  have split : value * 2 ^ bits =
      value * 2 ^ (52 - value.log2) * 2 ^ (value.log2 + bits - 52) := by
    rw [Nat.mul_assoc, ← Nat.pow_add]
    congr 2
    omega
  have exponent : (-bits : Int) + (value.log2 + bits - 52 : Nat) = (value.log2 : Int) - 52 := by omega
  have shifted : shiftToTargetExponent Format.binary64 (value * 2 ^ bits) (-bits) .exact =
      (⟨value * 2 ^ (52 - value.log2), false, false⟩, (value.log2 : Int) - 52) := by
    rw [shiftToTargetExponent, target, shiftToExponent, amount]
    simp only [ExtendedMantissa.ofMantissaAndAccuracy, exponent]
    rw [split, scaled_shiftRight]
  have aligned := @roundWithAccuracy_aligned sign _ ((value.log2 : Int) - 52)
    (log2_aligned positive small) (by omega) (by positivity)
  have still : shiftToTargetExponent Format.binary64 (value * 2 ^ (52 - value.log2))
      ((value.log2 : Int) - 52) .exact =
        (⟨value * 2 ^ (52 - value.log2), false, false⟩, (value.log2 : Int) - 52) := by
    rw [shiftToTargetExponent, targetExponent_aligned (log2_aligned positive small) (by omega),
      shiftToExponent, Int.sub_self]
    exact congrArg (Prod.mk _) (Int.add_zero _)
  rw [← aligned]
  simp only [roundWithAccuracy, shifted, still]

/-- An integer of at most 53 digits is rounded to itself, with all its digits shown. -/
theorem round_scaled {sign : Sign} {value bits : Nat} (positive : 0 < value)
    (small : value.log2 ≤ 52) (room : 52 ≤ value.log2 + bits) :
    UnpackedFloat.round Format.binary64 sign (value * 2 ^ bits) (-bits) =
      .finite sign (value * 2 ^ (52 - value.log2)) (value.log2 - 52 : Int) (by positivity) := by
  have target : Format.binary64.targetExponent (totalExponent (value * 2 ^ bits) (-bits)) =
      (value.log2 : Int) - 52 := by
    simp only [Format.targetExponent, totalExponent, Format.mantissaBits, Format.minExponent,
      log2_scaled positive]
    omega
  have amount : (-bits - ((value.log2 : Int) - 52)).toNat = 0 := by omega
  rw [UnpackedFloat.round, target, decreaseExponent, amount]
  simp only [Nat.shiftLeft_zero, Nat.cast_zero, Int.sub_zero]
  exact roundWithAccuracy_scaled positive small room

namespace Double

/-- An integer is made of its sign and its size. -/
theorem ofInt_apply (sign : Sign) {value : Nat} (positive : 0 < value) :
    ofInt (sign.apply value) = pack Format.binary64 (UnpackedFloat.round Format.binary64 sign value 0) := by
  cases sign with
  | positive =>
      rw [ofInt, UnpackedFloat.ofInt, UnpackedFloat.normalize, Sign.apply,
        compare_gt_iff_gt.mpr (by omega)]
      rfl
  | negative =>
      rw [ofInt, UnpackedFloat.ofInt, UnpackedFloat.normalize, Sign.apply,
        compare_lt_iff_lt.mpr (by omega)]
      simp only [Int.neg_neg, Int.toNat_natCast]

/-- The number that an integer becomes has the mantissa of 53 digits. -/
theorem unpack_ofInt_apply (sign : Sign) {value : Nat} (positive : 0 < value)
    (bound : value < 2 ^ 53) :
    unpack Format.binary64 (ofInt (sign.apply value)) =
      .finite sign (value * 2 ^ (52 - value.log2)) (value.log2 - 52 : Int)
        (Nat.mul_pos positive (Nat.two_pow_pos _)) :=
  unpack_ofInt_of_sign sign value positive bound (ofInt_apply sign positive)

/-- An aligned integer is stored as its conversion. -/
theorem pack_aligned (sign : Sign) {value : Nat} (positive : 0 < value) (bound : value < 2 ^ 53) :
    pack Format.binary64 (.finite sign (value * 2 ^ (52 - value.log2)) (value.log2 - 52 : Int)
      (Nat.mul_pos positive (Nat.two_pow_pos _))) = ofInt (sign.apply value) := by
  rw [ofInt_apply sign positive, round_of_log2_le positive (log2_le_of_lt positive bound)]

theorem pack_zero : pack Format.binary64 (.zero .positive) = ofInt 0 := by decide

/-- An integer with its sign and its size. -/
theorem sign_cases (value : Int) :
    value = 0 ∨ ∃ (sign : Sign) (size : Nat), 0 < size ∧ value = sign.apply size ∧
      size = value.natAbs := by
  rcases Int.lt_trichotomy value 0 with negative | rfl | positive
  · exact .inr ⟨.negative, value.natAbs, by omega, by rw [Sign.apply]; omega, rfl⟩
  · exact .inl rfl
  · exact .inr ⟨.positive, value.natAbs, by omega, by rw [Sign.apply]; omega, rfl⟩

/-- The sum of two natural numbers. -/
theorem add_ofInt {first second : Nat} (bound : first + second < 2 ^ 53) :
    add (ofInt first) (ofInt second) = ofInt (first + second : Nat) := by
  have natural (value : Nat) : (value : Int) = Sign.positive.apply value := rfl
  rcases Nat.eq_zero_or_pos first with rfl | positive
  · rcases Nat.eq_zero_or_pos second with rfl | positive'
    · decide
    · rw [add, natural second, unpack_ofInt_apply _ positive' (by omega), Nat.cast_zero, unpack_zero,
        Nat.zero_add]
      exact pack_aligned _ positive' (by omega)
  · rcases Nat.eq_zero_or_pos second with rfl | positive'
    · rw [add, natural first, unpack_ofInt_apply _ positive (by omega), Nat.cast_zero, unpack_zero]
      exact pack_aligned _ positive (by omega)
    · have small := log2_le_of_lt positive (by omega)
      have small' := log2_le_of_lt positive' (by omega)
      have total : 0 < first + second := by omega
      have left : first.log2 ≤ (first + second).log2 := (Nat.le_log2 (by omega)).mpr
        (Nat.le_trans (Nat.log2_self_le (Nat.ne_of_gt positive)) (Nat.le_add_right ..))
      have right : second.log2 ≤ (first + second).log2 := (Nat.le_log2 (by omega)).mpr
        (Nat.le_trans (Nat.log2_self_le (Nat.ne_of_gt positive')) (Nat.le_add_left ..))
      -- The zeros that the larger of the two alignments adds.
      obtain ⟨bits, most⟩ : ∃ bits : Nat,
          min ((first.log2 : Int) - 52) ((second.log2 : Int) - 52) = -bits :=
        ⟨(52 - min first.log2 second.log2), by omega⟩
      have widened (value : Nat) (small : value.log2 ≤ 52) (fewer : -(bits : Int) ≤ value.log2 - 52) :
          (value * 2 ^ (52 - value.log2)) <<< ((value.log2 : Int) - 52 - -bits).toNat =
            value * 2 ^ bits := by
        rw [Nat.shiftLeft_eq, Nat.mul_assoc, ← Nat.pow_add]
        congr 2
        omega
      rw [add, natural first, natural second, unpack_ofInt_apply _ positive (by omega),
        unpack_ofInt_apply _ positive' (by omega)]
      simp only [UnpackedFloat.add, most, decreaseExponent, Sign.apply]
      rw [widened first small (by omega), widened second small' (by omega), ← Nat.cast_add,
        ← Nat.add_mul, UnpackedFloat.normalize, compare_gt_iff_gt.mpr (by positivity)]
      simp only [Int.toNat_natCast]
      rw [round_scaled total (log2_le_of_lt total bound) (by omega)]
      exact pack_aligned .positive total bound

/-- The product of two integers that are not zero. -/
theorem mul_ofInt (sign sign' : Sign) {first second : Nat} (positive : 0 < first)
    (positive' : 0 < second) (bound : first * second < 2 ^ 53) :
    mul (ofInt (sign.apply first)) (ofInt (sign'.apply second)) =
      ofInt ((sign * sign').apply (first * second : Nat)) := by
  have total : 0 < first * second := Nat.mul_pos positive positive'
  have left : first ≤ first * second := Nat.le_mul_of_pos_right _ positive'
  have right : second ≤ first * second := Nat.le_mul_of_pos_left _ positive
  have small := log2_le_of_lt positive (by omega)
  have small' := log2_le_of_lt positive' (by omega)
  have digits : first.log2 + second.log2 ≤ (first * second).log2 := by
    refine (Nat.le_log2 (Nat.ne_of_gt total)).mpr ?_
    rw [Nat.pow_add]
    exact Nat.mul_le_mul (Nat.log2_self_le (Nat.ne_of_gt positive))
      (Nat.log2_self_le (Nat.ne_of_gt positive'))
  have mantissa : first * 2 ^ (52 - first.log2) * (second * 2 ^ (52 - second.log2)) =
      first * second * 2 ^ (104 - first.log2 - second.log2) := by
    rw [Nat.mul_mul_mul_comm, ← Nat.pow_add]
    congr 2
    omega
  have exponent : (first.log2 : Int) - 52 + (second.log2 - 52) =
      -((104 - first.log2 - second.log2 : Nat) : Int) := by omega
  rw [mul, unpack_ofInt_apply _ positive (by omega), unpack_ofInt_apply _ positive' (by omega)]
  simp only [UnpackedFloat.mul, mantissa, exponent]
  rw [roundWithAccuracy_scaled total (log2_le_of_lt total bound) (by omega)]
  exact pack_aligned _ total bound

/-- No distance from itself. -/
theorem sub_self_ofInt {value : Int} (bound : value.natAbs < 2 ^ 53) :
    sub (ofInt value) (ofInt value) = ofInt 0 := by
  rcases sign_cases value with rfl | ⟨sign, size, positive, rfl, same⟩
  · decide
  · rw [sub, unpack_ofInt_apply sign positive (by omega)]
    simp only [UnpackedFloat.sub, Int.sub_self, UnpackedFloat.normalize]
    exact pack_zero

/-- The absolute value of an integer. -/
theorem fabs_ofInt {value : Int} (bound : value.natAbs < 2 ^ 53) :
    (ofInt value).fabs = ofInt value.natAbs := by
  rcases sign_cases value with rfl | ⟨sign, size, positive, rfl, same⟩
  · decide
  · rw [fabs, unpack_ofInt_apply sign positive (by omega), ← same]
    exact pack_aligned .positive positive (by omega)

/-- Aligned sizes are compared like the sizes themselves. -/
theorem compare_aligned {first second : Nat} (positive : 0 < first) (positive' : 0 < second) :
    (compare (first.log2 - 52 : Int) (second.log2 - 52 : Int)).then
      (compare (first * 2 ^ (52 - first.log2)) (second * 2 ^ (52 - second.log2))) =
        compare first second := by
  have fewer {first second : Nat} (positive' : 0 < second) (digits : first.log2 < second.log2) :
      first < second :=
    calc first < 2 ^ (first.log2 + 1) := Nat.lt_log2_self
      _ ≤ 2 ^ second.log2 := Nat.pow_le_pow_right (by decide) digits
      _ ≤ second := Nat.log2_self_le (Nat.ne_of_gt positive')
  rcases Nat.lt_trichotomy first.log2 second.log2 with less | same | more
  · rw [compare_lt_iff_lt.mpr (by omega), compare_lt_iff_lt.mpr (fewer positive' less)]
    rfl
  · rw [same, compare_eq_iff_eq.mpr rfl]
    have scale : 0 < 2 ^ (52 - second.log2) := by positivity
    rcases Nat.lt_trichotomy first second with less | equal | more
    · rw [compare_lt_iff_lt.mpr less, compare_lt_iff_lt.mpr (Nat.mul_lt_mul_of_pos_right less scale)]
      rfl
    · rw [equal, compare_eq_iff_eq.mpr rfl, compare_eq_iff_eq.mpr rfl]
      rfl
    · rw [compare_gt_iff_gt.mpr more, compare_gt_iff_gt.mpr (Nat.mul_lt_mul_of_pos_right more scale)]
      rfl
  · rw [compare_gt_iff_gt.mpr (by omega), compare_gt_iff_gt.mpr (fewer positive more)]
    rfl

theorem compare_ofInt {first second : Int} (bound : first.natAbs < 2 ^ 53)
    (bound' : second.natAbs < 2 ^ 53) :
    (unpack Format.binary64 (ofInt first)).compare (unpack Format.binary64 (ofInt second)) =
      some (compare first second) := by
  rcases sign_cases first with rfl | ⟨sign, size, positive, rfl, same⟩ <;>
    rcases sign_cases second with rfl | ⟨sign', size', positive', rfl, same'⟩
  · rfl
  · rw [unpack_zero, unpack_ofInt_apply sign' positive' (by omega)]
    cases sign' with
    | positive => exact congrArg some (compare_lt_iff_lt.mpr (by rw [Sign.apply]; omega)).symm
    | negative => exact congrArg some (compare_gt_iff_gt.mpr (by rw [Sign.apply]; omega)).symm
  · rw [unpack_zero, unpack_ofInt_apply sign positive (by omega)]
    cases sign with
    | positive => exact congrArg some (compare_gt_iff_gt.mpr (by rw [Sign.apply]; omega)).symm
    | negative => exact congrArg some (compare_lt_iff_lt.mpr (by rw [Sign.apply]; omega)).symm
  · rw [unpack_ofInt_apply sign positive (by omega), unpack_ofInt_apply sign' positive' (by omega)]
    have sizes := compare_aligned positive positive'
    have natural : compare size size' = compare (size : Int) size' := by
      rcases Nat.lt_trichotomy size size' with less | equal | more
      · rw [compare_lt_iff_lt.mpr less, compare_lt_iff_lt.mpr (by omega)]
      · rw [equal, compare_eq_iff_eq.mpr rfl, compare_eq_iff_eq.mpr rfl]
      · rw [compare_gt_iff_gt.mpr more, compare_gt_iff_gt.mpr (by omega)]
    have opposite : (compare (size : Int) size').swap = compare (-(size : Int)) (-size') := by
      rcases Nat.lt_trichotomy size size' with less | equal | more
      · rw [compare_lt_iff_lt.mpr (by omega), compare_gt_iff_gt.mpr (by omega)]
        rfl
      · rw [equal, compare_eq_iff_eq.mpr rfl, compare_eq_iff_eq.mpr rfl]
        rfl
      · rw [compare_gt_iff_gt.mpr (by omega), compare_lt_iff_lt.mpr (by omega)]
        rfl
    cases sign <;> cases sign' <;> simp only [UnpackedFloat.compare, Sign.apply]
    · rw [sizes, natural, opposite]
    · rw [compare_lt_iff_lt.mpr (by omega)]
    · rw [compare_gt_iff_gt.mpr (by omega)]
    · rw [sizes, natural]

theorem le_ofInt {first second : Int} (bound : first.natAbs < 2 ^ 53)
    (bound' : second.natAbs < 2 ^ 53) :
    (ofInt first).le (ofInt second) = decide (first ≤ second) := by
  rw [le, UnpackedFloat.le, compare_ofInt bound bound', Option.any_some]
  exact Bool.eq_iff_iff.mpr (Int.isLE_compare.trans decide_eq_true_iff.symm)

/-- An integer is its own floor. -/
theorem floor_ofInt {value : Int} (bound : value.natAbs < 2 ^ 53) :
    (ofInt value).floor = ofInt value := by
  rcases sign_cases value with rfl | ⟨sign, size, positive, rfl, same⟩
  · decide
  · rw [floor, unpack_ofInt_apply sign positive (by omega)]
    have small := log2_le_of_lt positive (by omega)
    have amount : (-((size.log2 : Int) - 52)).toNat = 52 - size.log2 := by omega
    have whole : (sign.apply (size * 2 ^ (52 - size.log2) : Nat)).fdiv (2 ^ (52 - size.log2)) =
        sign.apply size := by
      have split : sign.apply (size * 2 ^ (52 - size.log2) : Nat) =
          sign.apply size * 2 ^ (52 - size.log2) := by
        cases sign <;> simp only [Sign.apply, Nat.cast_mul, Nat.cast_pow, Nat.cast_ofNat, neg_mul]
      rw [split, Int.mul_fdiv_cancel _ (by positivity)]
    simp only [amount]
    split
    · rfl
    · rw [whole]

end Double

end Codec
