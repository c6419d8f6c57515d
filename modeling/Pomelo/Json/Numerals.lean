import Pomelo.Codec.DoubleIntegers
import Pomelo.Json.Print
import Pomelo.Json.Steps

/-!
# Numerals

The integers of at most 53 bits are the numbers that `print_number` writes without a fraction
or an exponent and without a loss, and `parse_number` reads them back from their digits.
-/

namespace Codec.Double

/-- A `double` that is the conversion of an integer of at most 53 bits. -/
def isWhole (bits : Double) : Bool := (truncate bits).natAbs < 2 ^ 53 && bits = ofInt (truncate bits)

/-- A double is whole if it is an integer below `2 ^ 53` in size. -/
theorem isWhole_iff {bits : Double} :
    bits.isWhole = true ↔ ∃ value : Int, value.natAbs < 2 ^ 53 ∧ bits = ofInt value := by
  rw [isWhole, Bool.and_eq_true, decide_eq_true_iff, decide_eq_true_iff]
  refine ⟨fun whole => ⟨_, whole⟩, ?_⟩
  rintro ⟨value, bound, rfl⟩
  rw [(truncate_ofInt (by omega) (by omega)).1]
  exact ⟨bound, rfl⟩

end Codec.Double

namespace Pomelo

open Codec (Double)
open Float.Model (Format UnpackedFloat)
open Float.Model.UnpackedFloat
open Parsing Reader

namespace CStr

/-- One digit is written as its letter. -/
theorem decimal_of_lt {value : Nat} (digit : value < 10) :
    (decimal value).bytes = [UInt8.ofNat (48 + value)] := by
  rw [decimal_bytes, Nat.toDigits_of_lt_base digit]
  interval_cases value <;> rfl

/-- Any other number is written as its tenth and its last digit. -/
theorem decimal_of_le {value : Nat} (more : 10 ≤ value) :
    (decimal value).bytes = (decimal (value / 10)).bytes ++ [UInt8.ofNat (48 + value % 10)] := by
  have last : (Nat.digitChar (value % 10)).toNat = 48 + value % 10 := by
    have digit : value % 10 < 10 := Nat.mod_lt _ (by decide)
    interval_cases value % 10 <;> rfl
  rw [decimal_bytes, decimal_bytes, Nat.toDigits_of_base_le (by decide) more, List.map_append,
    List.map_singleton, last]

/-- A numeral begins with a digit, and only zero begins with a zero. -/
theorem decimal_cons (value : Nat) :
    ∃ char digits, (decimal value).bytes = char :: digits ∧ (0 < value → char ≠ 48) := by
  induction value using Nat.strongRecOn with
  | ind value ih =>
      rcases Nat.lt_or_ge value 10 with digit | more
      · refine ⟨_, [], decimal_of_lt digit, fun positive => ?_⟩
        interval_cases value <;> decide
      · obtain ⟨char, digits, starts, other⟩ := ih (value / 10) (by omega)
        refine ⟨char, digits ++ [UInt8.ofNat (48 + value % 10)], ?_, fun _ => other (by omega)⟩
        rw [decimal_of_le more, starts, List.cons_append]

/-- A number in the decimal notation is made of digits. -/
theorem isDigit_decimal (value : Nat) :
    ∀ char ∈ (decimal value).bytes, JsonParser.isDigit char = true := by
  have digit {value : Nat} (digit : value < 10) :
      JsonParser.isDigit (UInt8.ofNat (48 + value)) = true := by
    interval_cases value <;> decide
  induction value using Nat.strongRecOn with
  | ind value ih =>
      rcases Nat.lt_or_ge value 10 with small | more
      · rw [decimal_of_lt small, List.forall_mem_singleton]
        exact digit small
      · rw [decimal_of_le more, List.forall_mem_append, List.forall_mem_singleton]
        exact ⟨ih (value / 10) (by omega), digit (Nat.mod_lt _ (by decide))⟩

end CStr

/-- A quotient without a remainder is not rounded. -/
theorem roundHalfEven_mul {value denominator : Nat} (positive : 0 < denominator) :
    roundHalfEven (value * denominator) denominator = value := by
  rw [roundHalfEven, Nat.mul_div_cancel _ positive, Nat.mul_mod_left]
  exact if_pos (.inl positive)

/-- The sign of a finite pattern is its first bit. -/
theorem msb_of_unpack {bits : Double} {sign : Sign} {mantissa : Nat} {exponent : Int}
    {positive : 0 < mantissa}
    (unpacked : unpack Format.binary64 bits = .finite sign mantissa exponent positive) :
    bits.msb = true ↔ sign = .negative := by
  have same : Sign.ofBitVec (@unpackSign Format.binary64 bits) = sign := by
    rw [unpack] at unpacked
    dsimp only at unpacked
    split at unpacked
    · split at unpacked <;> cases unpacked
    split at unpacked
    · split at unpacked
      · cases unpacked
      · exact (UnpackedFloat.finite.inj unpacked).1
    · exact (UnpackedFloat.finite.inj unpacked).1
  have first : @unpackSign Format.binary64 bits = BitVec.ofBool bits.msb := by
    ext i bound
    obtain rfl : i = 0 := Nat.lt_one_iff.mp bound
    simp [unpackSign, BitVec.msb_eq_getLsbD_last]
  rw [first] at same
  subst same
  cases bits.msb
  · exact iff_of_false Bool.false_ne_true (by rintro ⟨⟩)
  · exact iff_of_true rfl rfl

/-- The sign bit of an integer is its sign. -/
theorem msb_ofInt {value : Int} (bound : value.natAbs < 2 ^ 53) :
    (Double.ofInt value).msb = true ↔ value < 0 := by
  rcases Double.sign_cases value with rfl | ⟨sign, size, positive, rfl, same⟩
  · decide
  · rw [msb_of_unpack (Double.unpack_ofInt_apply sign positive (by omega))]
    cases sign with
    | positive => exact iff_of_false (by rintro ⟨⟩) (by rw [Sign.apply]; omega)
    | negative => exact iff_of_true rfl (by rw [Sign.apply]; omega)

/-- The text of an integer has no fraction. -/
theorem ofDouble_ofInt {value : Int} (bound : value.natAbs < 2 ^ 53) :
    CStr.ofDouble (.fixed 0) (.ofInt value) = .signedDecimal value := by
  have plain (size : Nat) : CStr.placed 0 size = .decimal size := if_pos rfl
  simp only [CStr.ofDouble, CStr.signedDecimal, msb_ofInt bound]
  refine congrArg _ ?_
  rcases Double.sign_cases value with rfl | ⟨sign, size, positive, rfl, same⟩
  · rfl
  · rw [Double.unpack_ofInt_apply sign positive (by omega)]
    have small := Codec.log2_le_of_lt positive (by omega)
    have whole : ((size.log2 : Int) - 52).toNat = 0 := by omega
    have places : (-((size.log2 : Int) - 52)).toNat = 52 - size.log2 := by omega
    dsimp only
    rw [whole, places, Nat.pow_zero, Nat.mul_one, CStr.fixed, Nat.pow_zero, Nat.mul_one,
      roundHalfEven_mul (by positivity), plain]
    exact congrArg CStr.decimal same

/-- It is far below the bound for texts without an exponent. -/
theorem lt_bound {value : Int} (bound : value.natAbs < 2 ^ 53) :
    (Double.ofInt value).fabs.lt (.ofScientific 1 60) := by
  have limit : Double.ofScientific 1 60 = 0x4C63E9E4E4C2F344#64 := by decide +kernel
  have parts : unpack Format.binary64 0x4C63E9E4E4C2F344#64 =
      .finite .positive 5605193857299268 147 (by decide) := by rfl
  rw [Double.fabs_ofInt bound, Double.lt, limit, parts]
  rcases Nat.eq_zero_or_pos value.natAbs with zero | positive
  · rw [zero, Nat.cast_zero, Double.unpack_zero]
    rfl
  · have size : (value.natAbs : Int) = Sign.positive.apply value.natAbs := rfl
    have small := Codec.log2_le_of_lt positive bound
    rw [size, Double.unpack_ofInt_apply _ positive bound, UnpackedFloat.lt, UnpackedFloat.compare]
    rw [compare_lt_iff_lt.mpr (by omega)]
    rfl

/-- An integer of at most 53 bits is printed with its digits. -/
theorem printNumber_ofInt {value : Int} (bound : value.natAbs < 2 ^ 53) :
    printNumber (.ofInt value) = .signedDecimal value := by
  by_cases range : -2 ^ 31 ≤ value ∧ value < 2 ^ 31
  · have back := Double.toCInt_ofInt range.1 range.2
    have printed := @printNumber_of_int (.ofInt value) (by rw [back])
    rw [printed, back]
  · have outside : ¬ ((Double.ofInt value).le intMax = true ∧ intMin.le (.ofInt value) = true) := by
      rw [intMax, intMin, Double.le_ofInt bound (by decide), Double.le_ofInt (by decide) bound,
        decide_eq_true_eq, decide_eq_true_eq]
      omega
    have floors : (((Double.ofInt value).floor.sub (.ofInt value)).fabs.le dblEpsilon) = true := by
      rw [Double.floor_ofInt bound, Double.sub_self_ofInt bound]
      decide
    simp only [printNumber]
    rw [if_neg fun inside => outside inside.2, if_pos ⟨floors, lt_bound bound⟩]
    exact ofDouble_ofInt bound

namespace JsonParser

/-- A byte behind a numeral that does not go on with it. -/
def endsNumeral (char : UInt8) : Bool :=
  !isDigit char && char ≠ 46 && char ≠ 101 && char ≠ 69

/-- Digits are taken up to the first letter that is none. -/
theorem takeDigits_append {figures : Bytes} (digit : ∀ char ∈ figures, isDigit char = true)
    {char : UInt8} (ends : isDigit char = false) (rest : Bytes) :
    takeDigits (figures ++ char :: rest) = .ok (figures, char :: rest) := by
  induction figures with
  | nil => rw [List.nil_append, takeDigits, ends, if_neg Bool.false_ne_true]; rfl
  | cons figure figures ih =>
      rw [List.forall_mem_cons] at digit
      rw [List.cons_append, takeDigits, if_pos digit.1, ih digit.2]
      rfl

/-- Digits are added one after another. -/
theorem addDigits_append (n : Double) (first second : Bytes) :
    addDigits n (first ++ second) = addDigits (addDigits n first) second := by
  rw [addDigits, List.foldl_append]
  rfl

/-- One more digit. -/
theorem addDigits_single {value digit : Nat} (small : digit < 10)
    (bound : value * 10 + digit < 2 ^ 53) :
    addDigits (.ofInt value) [UInt8.ofNat (48 + digit)] = .ofInt (value * 10 + digit : Nat) := by
  have figure : ((UInt8.ofNat (48 + digit)).toNat : Int) - 48 = (digit : Nat) := by
    rw [UInt8.toNat_ofNat']
    omega
  have scaled : (Double.ofInt value).mul (.ofInt 10) = .ofInt (value * 10 : Nat) := by
    rcases Nat.eq_zero_or_pos value with rfl | positive
    · decide
    · exact Double.mul_ofInt .positive .positive positive (show 0 < 10 by decide)
        (show value * 10 < 2 ^ 53 by omega)
  have added := @Double.add_ofInt (value * 10) digit bound
  rw [addDigits, List.foldl_cons, List.foldl_nil, scaled, figure, added]

/-- The digits of an integer of at most 53 bits add up to it. -/
theorem addDigits_decimal {value : Nat} (bound : value < 2 ^ 53) :
    addDigits (.ofInt 0) (CStr.decimal value).bytes = .ofInt value := by
  induction value using Nat.strongRecOn with
  | ind value ih =>
      rcases Nat.lt_or_ge value 10 with digit | more
      · rw [CStr.decimal_of_lt digit]
        have single := @addDigits_single 0 _ digit (by omega)
        rwa [Nat.zero_mul, Nat.zero_add] at single
      · rw [CStr.decimal_of_le more, addDigits_append, ih (value / 10) (by omega) (by omega),
          addDigits_single (Nat.mod_lt _ (by decide)) (by omega)]
        congr 2
        omega

variable {pow : Double → Double → Double}

/-- Without a fraction and an exponent the digits are the value. -/
theorem numberValue_whole (unit : pow (.ofInt 10) (.ofInt 0) = .ofInt 1) {negative : Bool}
    {value : Nat} (bound : value < 2 ^ 53) (signed : negative = true → 0 < value) {figures : Bytes}
    (adds : addDigits (.ofInt 0) figures = .ofInt value) :
    numberValue pow negative figures [] (false, []) =
      .ofInt (if negative then -value else value) := by
  have scale : (placeScale []).add (.ofInt (exponentValue [] * 1)) = .ofInt 0 := by decide
  have last {value : Int} (bound : value.natAbs < 2 ^ 53) :
      (Double.ofInt value).mul (.ofInt 1) = .ofInt value := by
    rcases Double.sign_cases value with rfl | ⟨sign, size, positive, rfl, same⟩
    · decide
    · have product := Double.mul_ofInt sign .positive positive (show 0 < 1 by decide) (by omega)
      rw [Nat.mul_one] at product
      cases sign <;> exact product
  rw [numberValue]
  dsimp only
  rw [adds, show addDigits (.ofInt value) [] = .ofInt value from rfl,
    if_neg Bool.false_ne_true, scale, unit]
  cases negative with
  | false =>
      rw [if_neg Bool.false_ne_true, if_neg Bool.false_ne_true]
      rcases Nat.eq_zero_or_pos value with rfl | positive
      · decide
      · have product := Double.mul_ofInt .positive .positive (show 0 < 1 by decide) positive (by omega)
        rw [Nat.one_mul] at product
        rw [show (Double.ofInt 1).mul (.ofInt value) = .ofInt value from product]
        exact last (by omega)
  | true =>
      rw [if_pos rfl, if_pos rfl]
      have product := Double.mul_ofInt .negative .positive (show 0 < 1 by decide) (signed rfl)
        (by omega)
      rw [Nat.one_mul] at product
      rw [show (Double.ofInt (-1)).mul (.ofInt value) = .ofInt (-value) from product]
      exact last (by omega)

section Numeral

variable {char : UInt8} (ends : endsNumeral char = true) (rest : Bytes)

include ends

/-- No digit is read where none stands. -/
theorem whole_none : whole.run (char :: rest) = .ok ([], char :: rest) := by
  simp only [endsNumeral, Bool.and_eq_true, Bool.not_eq_true'] at ends
  rw [whole, run_of_ok (peek_run char rest), run_of_ok (peek_run char rest),
    if_neg (fun both => Bool.false_ne_true (ends.1.1.1.symm.trans both.2))]
  rfl

/-- Digits that do not begin with a zero are read as a whole. -/
theorem whole_digits {figure : UInt8} {figures : Bytes} (other : figure ≠ 48)
    (digit : ∀ char ∈ figure :: figures, isDigit char = true) :
    whole.run (figure :: figures ++ char :: rest) = .ok (figure :: figures, char :: rest) := by
  simp only [endsNumeral, Bool.and_eq_true, Bool.not_eq_true'] at ends
  have first := digit figure (List.mem_cons_self ..)
  have large : figure ≥ 49 := by
    simp only [isDigit, Bool.and_eq_true, decide_eq_true_eq, UInt8.le_iff_toNat_le] at first
    have differs : figure.toNat ≠ 48 := fun same => other (UInt8.toNat_inj.mp same)
    have bound : (48 : UInt8).toNat = 48 := rfl
    have least : (49 : UInt8).toNat = 49 := rfl
    exact UInt8.le_iff_toNat_le.mpr (by omega)
  rw [whole, List.cons_append, run_of_ok (peek_run ..), run_of_ok (peek_run ..),
    if_pos ⟨large, first⟩, ← List.cons_append]
  exact takeDigits_append digit ends.1.1.1 rest

/-- Without a decimal point there is no fraction. -/
theorem fraction_none : fraction.run (char :: rest) = .ok ([], char :: rest) := by
  simp only [endsNumeral, Bool.and_eq_true, decide_eq_true_eq] at ends
  rw [fraction, run_of_ok (run_get _), run_of_ok (accept_other ends.1.1.2 rest),
    if_neg Bool.false_ne_true]
  rfl

/-- Without the letter `e` there is no exponent. -/
theorem exponent_none : exponent.run (char :: rest) = .ok ((false, []), char :: rest) := by
  simp only [endsNumeral, Bool.and_eq_true, decide_eq_true_eq] at ends
  rw [exponent, run_of_ok (peek_run char rest), run_of_ok (peek_run char rest),
    if_neg (not_or.mpr ⟨ends.1.2, ends.2⟩)]
  rfl

/-- Behind its sign, an integer is read to the end of its digits. -/
theorem numeral_run (unit : pow (.ofInt 10) (.ofInt 0) = .ofInt 1) {value : Nat}
    (bound : value < 2 ^ 53) {negative : Bool} (signed : negative = true → 0 < value) :
    (do let _ ← accept 48
        let whole ← whole
        let fraction ← fraction
        let exponent ← exponent
        return .number (numberValue pow negative whole fraction exponent) : JsonParser Json).run
          ((CStr.decimal value).bytes ++ char :: rest) =
      .ok (.number (.ofInt (if negative then -value else value)), char :: rest) := by
  have adds := addDigits_decimal bound
  rcases Nat.eq_zero_or_pos value with rfl | positive
  · have zero : (CStr.decimal 0).bytes = [48] := by decide
    rw [zero, List.singleton_append, run_of_ok (accept_self 48 _), run_of_ok (whole_none ends rest),
      run_of_ok (fraction_none ends rest), run_of_ok (exponent_none ends rest),
      numberValue_whole unit bound signed rfl]
    rfl
  · obtain ⟨figure, figures, starts, other⟩ := CStr.decimal_cons value
    have digit := CStr.isDigit_decimal value
    rw [starts] at digit adds
    rw [starts, List.cons_append, run_of_ok (accept_other (other positive) _), ← List.cons_append,
      run_of_ok (whole_digits ends rest (other positive) digit), run_of_ok (fraction_none ends rest),
      run_of_ok (exponent_none ends rest), numberValue_whole unit bound signed adds]
    rfl

/-- The text of an integer is read back. -/
theorem parseNumber_signedDecimal (unit : pow (.ofInt 10) (.ofInt 0) = .ofInt 1) {value : Int}
    (bound : value.natAbs < 2 ^ 53) :
    (parseNumber pow).run ((CStr.signedDecimal value).bytes ++ char :: rest) =
      .ok (.number (.ofInt value), char :: rest) := by
  rw [CStr.signedDecimal, CStr.append, parseNumber]
  dsimp only
  by_cases negative : value < 0
  · have minus : (CStr.ofString "-").bytes = [45] := by decide
    rw [if_pos negative, minus, List.singleton_append, List.cons_append,
      run_of_ok (accept_self 45 _),
      numeral_run ends rest unit bound (fun _ => Int.natAbs_pos.mpr (Int.ne_of_lt negative)),
      if_pos rfl, Int.ofNat_natAbs_of_nonpos (Int.le_of_lt negative), Int.neg_neg]
  · obtain ⟨figure, figures, starts, -⟩ := CStr.decimal_cons value.natAbs
    have digit := CStr.isDigit_decimal value.natAbs figure (by rw [starts]; exact List.mem_cons_self ..)
    have plain : figure ≠ 45 := by
      rintro rfl
      exact absurd digit (by decide)
    have none : (CStr.ofString "").bytes = [] := by decide
    rw [if_neg negative, none, List.nil_append, starts, List.cons_append,
      run_of_ok (accept_other plain _), ← List.cons_append, ← starts,
      numeral_run ends rest unit bound (fun same => absurd same Bool.false_ne_true),
      if_neg Bool.false_ne_true, Int.natAbs_of_nonneg (Int.not_lt.mp negative)]

end Numeral

end JsonParser

end Pomelo
