import Mathlib.Algebra.Order.Group.Int
import Mathlib.Tactic.Ring

/-!
# Arithmetic of the type `int`

The operations of C on an `int` of 32 bits, as far as the language defines them. An
operation on values whose result is not an `int`, a division by zero and a shift by a
distance outside the width are errors; where a computation has no error its value is that of
the same computation on the integers.
-/

namespace Arith

/-- What leaves an operation undefined. -/
inductive Undefined where
  | overflow
  | zeroDivisor
  | shiftDistance
  deriving DecidableEq, Repr

/-- The values of an `int`. -/
def IsInt (value : Int) : Prop := -2 ^ 31 ≤ value ∧ value < 2 ^ 31

instance (value : Int) : Decidable (IsInt value) := inferInstanceAs (Decidable (_ ∧ _))

/-- A result, if it is an `int`. -/
def int (value : Int) : Except Undefined Int :=
  if IsInt value then .ok value else .error .overflow

def add (left right : Int) : Except Undefined Int := int (left + right)

def mul (left right : Int) : Except Undefined Int := int (left * right)

def quot (left right : Int) : Except Undefined Int :=
  if right = 0 then .error .zeroDivisor else int (left.tdiv right)

/-- The remainder is as undefined as the quotient. -/
def rem (left right : Int) : Except Undefined Int := do
  let _ ← quot left right
  return left.tmod right

/-- `left << distance` -/
def shl (left : Int) (distance : Int) : Except Undefined Int :=
  if 0 ≤ distance ∧ distance < 32 then
    if left < 0 then .error .overflow else int (left * 2 ^ distance.toNat)
  else .error .shiftDistance

/-- `left >> distance` -/
def shr (left : Int) (distance : Int) : Except Undefined Int :=
  if 0 ≤ distance ∧ distance < 32 then .ok (left >>> distance.toNat) else .error .shiftDistance

/-- A value that an `int` holds is the result. -/
theorem int_eq_ok {value : Int} (isInt : IsInt value) : int value = .ok value := if_pos isInt

theorem int_eq_ok_iff {value result : Int} : int value = .ok result ↔ IsInt value ∧ value = result := by
  rw [int]
  split
  next isInt => rw [Except.ok.injEq, and_iff_right isInt]
  next other => exact ⟨nofun, fun both => absurd both.1 other⟩

/-- A sum that an `int` holds is defined. -/
theorem add_eq_ok {left right : Int} (isInt : IsInt (left + right)) :
    add left right = .ok (left + right) :=
  int_eq_ok isInt

/-- A product that an `int` holds is defined. -/
theorem mul_eq_ok {left right : Int} (isInt : IsInt (left * right)) :
    mul left right = .ok (left * right) :=
  int_eq_ok isInt

/-- A division of natural numbers is defined unless the divisor is zero. -/
theorem quot_eq_ok {left right : Int} (least : 0 ≤ left) (bound : left < 2 ^ 31)
    (positive : 0 < right) : quot left right = .ok (left / right) := by
  have same : left.tdiv right = left / right := Int.tdiv_eq_ediv_of_nonneg least
  have low : 0 ≤ left / right := Int.ediv_nonneg least (Int.le_of_lt positive)
  have high : left / right ≤ left := Int.ediv_le_self right least
  rw [quot, if_neg (Int.ne_of_gt positive), same]
  exact int_eq_ok ⟨by omega, by omega⟩

/-- The remainder of natural numbers is defined where their quotient is. -/
theorem rem_eq_ok {left right : Int} (least : 0 ≤ left) (bound : left < 2 ^ 31)
    (positive : 0 < right) : rem left right = .ok (left % right) := by
  rw [rem, quot_eq_ok least bound positive, ← Int.tmod_eq_emod_of_nonneg least]
  rfl

theorem rem_zero (left : Int) : rem left 0 = .error .zeroDivisor := rfl

/-- A natural number is shifted as far as the result is an `int`. -/
theorem shl_eq_ok {left : Int} {distance : Nat} (least : 0 ≤ left) (short : distance < 32)
    (isInt : IsInt (left * 2 ^ distance)) : shl left distance = .ok (left * 2 ^ distance) := by
  rw [shl, if_pos ⟨by omega, by omega⟩, if_neg (Int.not_lt.mpr least), Int.toNat_natCast]
  exact int_eq_ok isInt

/-- A shift to the right divides, whatever the sign of its operand. -/
theorem shr_eq_ok {left : Int} {distance : Nat} (short : distance < 32) :
    shr left distance = .ok (left / 2 ^ distance) := by
  rw [shr, if_pos ⟨by omega, by omega⟩, Int.toNat_natCast, Int.shiftRight_eq_div_pow]
  push_cast
  rfl

/-- A distance of the width or more is undefined. -/
theorem shr_eq_error {left : Int} {distance : Nat} (long : 32 ≤ distance) :
    shr left distance = .error .shiftDistance := by
  rw [shr, if_neg (by omega)]

/-- What an operation that has a value does in a longer computation. -/
theorem bind_ok {α β : Type} {first : Except Undefined α} {value : α}
    (same : first = .ok value) (next : α → Except Undefined β) : first >>= next = next value := by
  rw [same]
  rfl

/-- A computation ends where it is undefined. -/
theorem bind_error {α β : Type} {first : Except Undefined α} {undefined : Undefined}
    (same : first = .error undefined) (next : α → Except Undefined β) :
    first >>= next = .error undefined := by
  rw [same]
  rfl

/-- A computation that has a value has one in each of its steps. -/
theorem bind_eq_ok {α β : Type} {first : Except Undefined α} {next : α → Except Undefined β}
    {result : β} (same : first >>= next = .ok result) :
    ∃ value, first = .ok value ∧ next value = .ok result := by
  cases first with
  | error undefined => cases same
  | ok value => exact ⟨value, rfl, same⟩

end Arith
