import Mathlib.Data.Nat.Bitwise
import Mathlib.Algebra.Order.Group.Nat

/-!
# Base-128 numerals

A natural number in base-128 digits, least significant digit first, every digit
but the last marked by the high bit. The lemmas are the ones a bitwise writer or
reader of such numerals is compared with.
-/

namespace Codec

/-- The base-128 numeral of a number. -/
def leb128 (value : Nat) : List UInt8 :=
  if value < 128 then [UInt8.ofNat value]
  else UInt8.ofNat (value % 128 + 128) :: leb128 (value / 128)
termination_by value

/-- A number below 128 is one digit. -/
theorem leb128_of_lt {value : Nat} (small : value < 128) : leb128 value = [UInt8.ofNat value] := by
  rw [leb128, if_pos small]

/-- Any other number begins with its last digit, which is marked. -/
theorem leb128_of_le {value : Nat} (large : 128 ≤ value) :
    leb128 value = UInt8.ofNat (value % 128 + 128) :: leb128 (value / 128) := by
  rw [leb128, if_neg (Nat.not_lt_of_le large)]

theorem leb128_ne_nil (value : Nat) : leb128 value ≠ [] := by
  rw [leb128]
  split <;> simp

theorem length_leb128_pos (value : Nat) : 0 < (leb128 value).length :=
  List.length_pos_iff.mpr (leb128_ne_nil value)

/-- A number of `7 * digits` bits has at most that many digits. -/
theorem length_leb128_le {value digits : Nat} (bound : value < 128 ^ (digits + 1)) :
    (leb128 value).length ≤ digits + 1 := by
  induction digits generalizing value with
  | zero => rw [leb128_of_lt (by simpa using bound), List.length_singleton]
  | succ digits ih =>
      by_cases small : value < 128
      · rw [leb128_of_lt small, List.length_singleton]
        omega
      · rw [leb128_of_le (Nat.le_of_not_lt small), List.length_cons]
        have high : value / 128 < 128 ^ (digits + 1) := by
          rw [Nat.div_lt_iff_lt_mul (by decide), ← Nat.pow_succ]
          exact bound
        have rest := ih high
        omega

/-- The low seven bits under the mark of the high bit. -/
theorem and_or_eq_mod_add (value : Nat) : value &&& 0x7F ||| 0x80 = value % 128 + 128 := by
  have low : value &&& 0x7F = value % 128 := Nat.and_two_pow_sub_one_eq_mod value 7
  have bound : value % 128 < 2 ^ 7 := Nat.mod_lt _ (by decide)
  have joined : 128 + value % 128 = 0x80 ||| value % 128 := Nat.two_pow_add_eq_or_of_lt bound 1
  rw [low, Nat.or_comm, ← joined, Nat.add_comm]

/-- A last digit carries seven bits and no mark. -/
theorem last_digit_bits {digit : Nat} (small : digit < 128) :
    (UInt8.ofNat digit &&& 0x7F).toNat = digit ∧ UInt8.ofNat digit &&& 0x80 = 0 := by
  decide +revert

/-- Any other digit carries seven bits under a mark. -/
theorem marked_digit_bits {digit : Nat} (small : digit < 128) :
    (UInt8.ofNat (digit + 128) &&& 0x7F).toNat = digit ∧ UInt8.ofNat (digit + 128) &&& 0x80 ≠ 0 := by
  decide +revert

/-- Digits put above the bits that are there already. -/
theorem or_shiftLeft_eq_add {low bits : Nat} (bound : low < 2 ^ bits) (high : Nat) :
    low ||| high <<< bits = low + high * 2 ^ bits := by
  rw [Nat.or_comm, Nat.shiftLeft_eq, Nat.mul_comm, ← Nat.two_pow_add_eq_or_of_lt bound,
    Nat.add_comm]

end Codec
