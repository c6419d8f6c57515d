import Mathlib.Algebra.Order.Group.Nat
import Mathlib.Data.List.Induction

/-! # Big-endian numerals

A natural number in a fixed number of base-256 digits, most significant digit
first, and the value such digits spell. Writing keeps the low `width` digits of
the number and reading is exact, so the two are inverse on the numbers that fit
(`Codec.beValue_beBytes_of_lt`).
-/

namespace Codec

/-- The low `width` base-256 digits of a number, most significant first. -/
def beBytes : (width : Nat) → Nat → List UInt8
  | 0, _ => []
  | width + 1, value => beBytes width (value / 256) ++ [UInt8.ofNat value]

/-- The number spelled by base-256 digits, most significant first. -/
def beValue (digits : List UInt8) : Nat :=
  digits.foldl (fun value digit => value * 256 + digit.toNat) 0

@[simp] theorem length_beBytes (width value : Nat) : (beBytes width value).length = width := by
  induction width generalizing value with
  | zero => rfl
  | succ width ih => simp only [beBytes, List.length_append, ih, List.length_singleton]

/-- One digit more, at the end, is the least of them. -/
theorem beValue_concat (digits : List UInt8) (digit : UInt8) :
    beValue (digits ++ [digit]) = beValue digits * 256 + digit.toNat := by
  simp only [beValue, List.foldl_append, List.foldl_cons, List.foldl_nil]

/-- Digits spell a number below the power of their count. -/
theorem beValue_lt (digits : List UInt8) : beValue digits < 256 ^ digits.length := by
  induction digits using List.reverseRecOn with
  | nil => exact Nat.one_pos
  | append_singleton digits digit ih =>
      have low : digit.toNat < 256 := digit.toNat_lt
      rw [beValue_concat, List.length_append, List.length_singleton, Nat.pow_succ]
      omega

/-- Reading written digits gives the number modulo the width. -/
theorem beValue_beBytes (width value : Nat) :
    beValue (beBytes width value) = value % 256 ^ width := by
  induction width generalizing value with
  | zero => rw [Nat.pow_zero, Nat.mod_one]; rfl
  | succ width ih =>
      have split : value % 256 ^ (width + 1) = value % 256 + 256 * (value / 256 % 256 ^ width) := by
        rw [Nat.pow_succ, Nat.mul_comm, Nat.mod_mul]
      rw [beBytes, beValue_concat, ih, UInt8.toNat_ofNat', split]
      omega

/-- Writing and reading are inverse on the numbers that fit the width. -/
theorem beValue_beBytes_of_lt {width value : Nat} (fits : value < 256 ^ width) :
    beValue (beBytes width value) = value := by
  rw [beValue_beBytes, Nat.mod_eq_of_lt fits]

/-- Digits are the numeral of the number they spell. -/
theorem beBytes_beValue (digits : List UInt8) :
    beBytes digits.length (beValue digits) = digits := by
  induction digits using List.reverseRecOn with
  | nil => rfl
  | append_singleton digits digit ih =>
      have low : digit.toNat < 256 := digit.toNat_lt
      have high : (beValue digits * 256 + digit.toNat) / 256 = beValue digits := by omega
      have last : UInt8.ofNat (beValue digits * 256 + digit.toNat) = digit := by
        apply UInt8.toNat_inj.mp
        rw [UInt8.toNat_ofNat']
        omega
      rw [beValue_concat, List.length_append, List.length_singleton, beBytes, high, ih, last]

end Codec
