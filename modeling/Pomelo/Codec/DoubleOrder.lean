import Pomelo.Codec.Binary64

/-!
# Arithmetic and comparisons of doubles

The operations a C program uses to tell whether a `double` is an integer: the
distance of two values, the comparisons, and the function `floor`. The integers
of 32 bits are ordered as they are among the integers.
-/

namespace Codec.Double

open Float.Model (Format UnpackedFloat)
open Float.Model.UnpackedFloat

/-- The nearest `double` to `significand * 10 ^ exponent`. -/
def ofScientific (significand : Nat) (exponent : Int) : Double :=
  pack Format.binary64 (UnpackedFloat.ofScientific Format.binary64 significand exponent)

/-- `fabs` -/
def fabs (bits : Double) : Double := pack Format.binary64 (unpack Format.binary64 bits).abs

/-- The difference `first - second`, rounded to nearest. -/
def sub (first second : Double) : Double :=
  pack Format.binary64
    (UnpackedFloat.sub Format.binary64 (unpack Format.binary64 first) (unpack Format.binary64 second))

/-- The sum `first + second`, rounded to nearest. -/
def add (first second : Double) : Double :=
  pack Format.binary64
    (UnpackedFloat.add Format.binary64 (unpack Format.binary64 first) (unpack Format.binary64 second))

/-- The product `first * second`, rounded to nearest. -/
def mul (first second : Double) : Double :=
  pack Format.binary64
    (UnpackedFloat.mul Format.binary64 (unpack Format.binary64 first) (unpack Format.binary64 second))

/-- The comparison `first <= second` -/
def le (first second : Double) : Bool :=
  (unpack Format.binary64 first).le (unpack Format.binary64 second)

/-- The comparison `first < second` -/
def lt (first second : Double) : Bool :=
  (unpack Format.binary64 first).lt (unpack Format.binary64 second)

/-- `floor` -/
def floor (bits : Double) : Double :=
  match unpack Format.binary64 bits with
  | .finite sign mantissa exponent _ =>
      if 0 ≤ exponent then bits else ofInt ((sign.apply mantissa).fdiv (2 ^ (-exponent).toNat))
  | _ => bits

example : floor 0xBFE0000000000000#64 = ofInt (-1) := by decide
example : (ofScientific 1 60).lt (ofScientific 1 61) := by decide +kernel

theorem unpack_zero : unpack Format.binary64 (ofInt 0) = .zero .positive := by rfl

/-- A positive `int` is unpacked with its mantissa aligned. -/
theorem unpack_ofInt_pos {value : Nat} (positive : 0 < value) (bound : value ≤ 2 ^ 31) :
    unpack Format.binary64 (ofInt value) =
      .finite .positive (value * 2 ^ (52 - value.log2)) (value.log2 - 52 : Int)
        (Nat.mul_pos positive (Nat.two_pow_pos _)) := by
  refine unpack_ofInt_of_sign .positive value positive (by omega) ?_
  rw [ofInt, UnpackedFloat.ofInt, UnpackedFloat.normalize, compare_gt_iff_gt.mpr (by omega)]
  rfl

theorem unpack_ofInt_neg {value : Nat} (positive : 0 < value) (bound : value ≤ 2 ^ 31) :
    unpack Format.binary64 (ofInt (-value)) =
      .finite .negative (value * 2 ^ (52 - value.log2)) (value.log2 - 52 : Int)
        (Nat.mul_pos positive (Nat.two_pow_pos _)) := by
  refine unpack_ofInt_of_sign .negative value positive (by omega) ?_
  rw [ofInt, UnpackedFloat.ofInt, UnpackedFloat.normalize, compare_lt_iff_lt.mpr (by omega)]
  simp only [Int.neg_neg, Int.toNat_natCast]

/-- Aligned sizes are ordered by their exponents, and then by their mantissas. -/
theorem aligned_le {first second : Nat} (positive : 0 < first) (ordered : first ≤ second) :
    ((compare (first.log2 - 52 : Int) (second.log2 - 52 : Int)).then
      (compare (first * 2 ^ (52 - first.log2)) (second * 2 ^ (52 - second.log2)))).isLE := by
  have digits : first.log2 ≤ second.log2 := by
    refine (Nat.le_log2 (by omega)).mpr (Nat.le_trans ?_ ordered)
    exact Nat.log2_self_le (Nat.ne_of_gt positive)
  rw [Ordering.isLE_then_iff_and]
  refine ⟨Int.isLE_compare.mpr (by omega), ?_⟩
  rcases Nat.lt_or_eq_of_le digits with fewer | same
  · exact Or.inl (compare_lt_iff_lt.mpr (by omega))
  · rw [same]
    exact Or.inr (Nat.isLE_compare.mpr (Nat.mul_le_mul_right _ ordered))

/-- The integers of 32 bits keep their order. -/
theorem ofInt_le_ofInt {first second : Int} (low : -2 ^ 31 ≤ first) (high : second ≤ 2 ^ 31)
    (ordered : first ≤ second) : le (ofInt first) (ofInt second) := by
  have sign (value : Int) : (∃ size : Nat, 0 < size ∧ value = -size) ∨ value = 0 ∨
      ∃ size : Nat, 0 < size ∧ value = size := by
    rcases Int.lt_trichotomy value 0 with negative | rfl | positive
    · exact Or.inl ⟨value.natAbs, by omega, by omega⟩
    · exact Or.inr (Or.inl rfl)
    · exact Or.inr (Or.inr ⟨value.natAbs, by omega, by omega⟩)
  rcases sign first with ⟨size, positive, rfl⟩ | rfl | ⟨size, positive, rfl⟩ <;>
    rcases sign second with ⟨other, positive', rfl⟩ | rfl | ⟨other, positive', rfl⟩
  · rw [le, unpack_ofInt_neg positive (by omega), unpack_ofInt_neg positive' (by omega)]
    simp only [UnpackedFloat.le, UnpackedFloat.compare, Option.any_some, Ordering.isLE_swap]
    rw [← Ordering.isLE_swap, Ordering.swap_then, ← Int.compare_swap, ← Nat.compare_swap]
    simp only [Ordering.swap_swap]
    exact aligned_le positive' (by omega)
  · rw [le, unpack_ofInt_neg positive (by omega), unpack_zero]
    rfl
  · rw [le, unpack_ofInt_neg positive (by omega), unpack_ofInt_pos positive' (by omega)]
    rfl
  · omega
  · rw [le, unpack_zero]
    rfl
  · rw [le, unpack_zero, unpack_ofInt_pos positive' (by omega)]
    rfl
  · omega
  · omega
  · rw [le, unpack_ofInt_pos positive (by omega), unpack_ofInt_pos positive' (by omega)]
    exact aligned_le positive (by omega)

/-- An integer of 32 bits has no distance from itself. -/
theorem sub_ofInt_self {value : Int} (low : -2 ^ 31 ≤ value) (high : value ≤ 2 ^ 31) :
    sub (ofInt value) (ofInt value) = ofInt 0 := by
  have zero : pack Format.binary64 (.zero .positive) = ofInt 0 := by decide
  rcases Int.lt_trichotomy value 0 with negative | rfl | positive
  · obtain ⟨size, rfl⟩ : ∃ size : Nat, value = -size := ⟨value.natAbs, by omega⟩
    rw [sub, unpack_ofInt_neg (by omega) (by omega)]
    simp only [UnpackedFloat.sub, Int.sub_self, UnpackedFloat.normalize]
    exact zero
  · decide
  · obtain ⟨size, rfl⟩ : ∃ size : Nat, value = size := ⟨value.natAbs, by omega⟩
    rw [sub, unpack_ofInt_pos (by omega) (by omega)]
    simp only [UnpackedFloat.sub, Int.sub_self, UnpackedFloat.normalize]
    exact zero

end Codec.Double
