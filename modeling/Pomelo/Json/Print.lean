import Pomelo.Json
import Pomelo.Codec.DoubleOrder
import Mathlib.Data.Nat.Log

/-!
# The JSON printer

`pc_JSON_PrintUnformatted` with the functions it calls, and the conversions of
`sprintf` it relies on. The texts are values here; the blocks they are assembled
in are not modelled, and neither are texts whose length does not fit an `int`.
-/

namespace Pomelo

open Float.Model (Format UnpackedFloat)
open Float.Model.UnpackedFloat

/-- A quotient, rounded to nearest, ties to even. -/
def roundHalfEven (numerator denominator : Nat) : Nat :=
  let quotient := numerator / denominator
  let twice := 2 * (numerator % denominator)
  if twice < denominator ∨ twice = denominator ∧ quotient % 2 = 0 then quotient else quotient + 1

/-- The power of ten of the first digit of a quotient. -/
def decimalExponent (numerator denominator : Nat) : Int :=
  if denominator ≤ numerator then Nat.log 10 (numerator / denominator)
  else -(Nat.clog 10 ((denominator + numerator - 1) / numerator) : Nat)

namespace CStr

/-- `sprintf("%d")` -/
def signedDecimal (value : Int) : CStr :=
  (ofString (if value < 0 then "-" else "")).append (decimal value.natAbs)

/-- A numeral behind zeros that bring it to a width. -/
def padded (width value : Nat) : CStr :=
  (ofBytes (List.replicate (width - (decimal value).length) 48)).append (decimal value)

/-- A number of units of the last of some decimal places. -/
def placed (places units : Nat) : CStr :=
  if places = 0 then decimal units
  else (decimal (units / 10 ^ places)).append
    ((ofString ".").append (padded places (units % 10 ^ places)))

/-- The `%f` conversion of a quotient, with a number of decimal places. -/
def fixed (places numerator denominator : Nat) : CStr :=
  placed places (roundHalfEven (numerator * 10 ^ places) denominator)

/-- The `%e` conversion of a quotient. -/
def scientific (numerator denominator : Nat) : CStr :=
  let exponent := decimalExponent numerator denominator
  let units := roundHalfEven (numerator * 10 ^ (6 - exponent).toNat)
    (denominator * 10 ^ (exponent - 6).toNat)
  -- Rounding up may add a digit.
  let carried := decide (units = 10 ^ 7)
  let exponent := if carried then exponent + 1 else exponent
  let units := if carried then 10 ^ 6 else units
  (placed 6 units).append
    ((ofString (if exponent < 0 then "e-" else "e+")).append (padded 2 exponent.natAbs))

/-- The text of a `double`, for the conversion of a finite size. -/
def ofDouble (conversion : (numerator denominator : Nat) → CStr) (value : Codec.Double) : CStr :=
  (ofString (if value.msb then "-" else "")).append <|
    match unpack Format.binary64 value with
    | .notANumber => ofString "nan"
    | .infinity _ => ofString "inf"
    | .zero _ => conversion 0 1
    | .finite _ mantissa exponent _ =>
        conversion (mantissa * 2 ^ exponent.toNat) (2 ^ (-exponent).toNat)

example : ofDouble (fixed 6) 0x3FF8000000000000#64 = ofString "1.500000" := by decide +kernel
example : ofDouble scientific 0xBE112E0BE826D695#64 = ofString "-1.000000e-09" := by decide +kernel

end CStr

/-- `DBL_EPSILON` -/
def dblEpsilon : Codec.Double := 0x3CB0000000000000#64

/-- `INT_MAX` and `INT_MIN`, as they are compared with a `double`. -/
def intMax : Codec.Double := .ofInt (2 ^ 31 - 1)
def intMin : Codec.Double := .ofInt (-2 ^ 31)

/-- `print_number` -/
def printNumber (valuedouble : Codec.Double) : CStr :=
  let valueint := (Json.number valuedouble).valueint
  if ((Codec.Double.ofInt valueint).sub valuedouble).fabs.le dblEpsilon ∧
      valuedouble.le intMax ∧ intMin.le valuedouble then
    .signedDecimal valueint
  else if (valuedouble.floor.sub valuedouble).fabs.le dblEpsilon ∧
      valuedouble.fabs.lt (.ofScientific 1 60) then
    .ofDouble (.fixed 0) valuedouble
  else if valuedouble.fabs.lt (.ofScientific 1 (-6)) ∨
      (Codec.Double.ofScientific 1 9).lt valuedouble.fabs then
    .ofDouble .scientific valuedouble
  else .ofDouble (.fixed 6) valuedouble

/-- What `print_string_ptr` writes for a character: two letters for a quote, a
backslash and the controls with a name, the code of another control. -/
def printChar (token : UInt8) : CStr :=
  if token > 31 ∧ token ≠ 34 ∧ token ≠ 92 then .ofBytes [token]
  else if token = 92 then .ofString "\\\\"
  else if token = 34 then .ofString "\\\""
  else if token = 8 then .ofString "\\b"
  else if token = 12 then .ofString "\\f"
  else if token = 10 then .ofString "\\n"
  else if token = 13 then .ofString "\\r"
  else if token = 9 then .ofString "\\t"
  else (CStr.ofString "\\u00").append
    ((CStr.ofBytes [hexDigit (token / 16)]).append (.ofBytes [hexDigit (token % 16)]))
where
  hexDigit (digit : UInt8) : UInt8 := if digit < 10 then 48 + digit else 87 + digit

/-- `print_string_ptr` -/
def printStringPtr (str : CStr) : CStr :=
  (CStr.ofString "\"").append ((str.bytes.foldr (fun token rest => (printChar token).append rest)
    (.ofString "")).append (.ofString "\""))

mutual

/-- `print_value` without formatting. -/
def printValue : Json → CStr
  | .null => .ofString "null"
  | .false => .ofString "false"
  | .true => .ofString "true"
  | .number valuedouble => printNumber valuedouble
  | .string valuestring => printStringPtr valuestring
  | .array child =>
      (CStr.ofString "[").append ((printItems (.ofString "") child).append (.ofString "]"))
  | .object child =>
      (CStr.ofString "\x7b").append ((printFields (.ofString "") child).append (.ofString "\x7d"))
termination_by structural item => item

/-- The entries of `print_array`, with a comma between any two. -/
def printItems (separator : CStr) : List Json → CStr
  | [] => .ofString ""
  | item :: items =>
      separator.append ((printValue item).append (printItems (.ofString ",") items))
termination_by structural items => items

/-- The entries of `print_object`, with a comma between any two. -/
def printFields (separator : CStr) : List (CStr × Json) → CStr
  | [] => .ofString ""
  | field :: fields =>
      separator.append ((printField field).append (printFields (.ofString ",") fields))
termination_by structural fields => fields

def printField : CStr × Json → CStr
  | (string, value) => (printStringPtr string).append ((CStr.ofString ":").append (printValue value))
termination_by structural field => field

end

namespace CStr

@[simp] theorem bytes_append (first second : CStr) :
    (first.append second).bytes = first.bytes ++ second.bytes := rfl

@[simp] theorem length_append (first second : CStr) :
    (first.append second).length = first.length + second.length := by
  rw [length, append, List.length_append, length, length]

theorem length_decimal (value : Nat) :
    (decimal value).length = (Nat.toDigits 10 value).length := by
  rw [length, decimal_bytes, List.length_map]

/-- A number is printed with a digit at least. -/
theorem length_decimal_pos (value : Nat) : 1 ≤ (decimal value).length := by
  rw [length_decimal]
  exact Nat.length_toDigits_pos

/-- The text of an integer is one digit, or it has two letters. -/
theorem length_signedDecimal (value : Int) :
    0 ≤ value ∧ value < 10 ∧ (signedDecimal value).length = 1 ∨
      2 ≤ (signedDecimal value).length := by
  have some := length_decimal_pos value.natAbs
  rw [signedDecimal, length_append]
  by_cases negative : value < 0
  · have sign : (ofString (if value < 0 then "-" else "")).length = 1 := by
      rw [if_pos negative]
      decide
    omega
  · have sign : (ofString (if value < 0 then "-" else "")).length = 0 := by
      rw [if_neg negative]
      decide
    rw [sign, length_decimal] at *
    have digits := Nat.length_toDigits_le_iff (b := 10) (n := value.natAbs) (k := 1)
      (by decide) (by decide)
    omega

theorem length_fixed_pos (places numerator denominator : Nat) :
    1 ≤ (fixed places numerator denominator).length := by
  rw [fixed, placed]
  split
  · exact length_decimal_pos _
  · rw [length_append]
    exact Nat.le_add_right_of_le (length_decimal_pos _)

theorem length_scientific_pos (numerator denominator : Nat) :
    1 ≤ (scientific numerator denominator).length := by
  rw [scientific, length_append, placed, if_neg (by decide), length_append]
  exact Nat.le_add_right_of_le (Nat.le_add_right_of_le (length_decimal_pos _))

/-- Whatever the conversion, something is printed of a double. -/
theorem length_ofDouble_pos {conversion : Nat → Nat → CStr}
    (some : ∀ numerator denominator, 1 ≤ (conversion numerator denominator).length)
    (value : Codec.Double) : 1 ≤ (ofDouble conversion value).length := by
  rw [ofDouble, length_append]
  refine Nat.le_add_left_of_le ?_
  split
  · decide
  · decide
  · exact some _ _
  · exact some _ _

end CStr

/-- Every number is printed with a letter at least. -/
theorem length_printNumber_pos (valuedouble : Codec.Double) :
    1 ≤ (printNumber valuedouble).length := by
  simp only [printNumber]
  split_ifs
  · rcases CStr.length_signedDecimal (Json.number valuedouble).valueint with ⟨-, -, one⟩ | two
    · exact Nat.le_of_eq one.symm
    · omega
  · exact CStr.length_ofDouble_pos (CStr.length_fixed_pos 0) _
  · exact CStr.length_ofDouble_pos CStr.length_scientific_pos _
  · exact CStr.length_ofDouble_pos (CStr.length_fixed_pos 6) _

/-- A number that is the conversion of an `int` is printed as this `int`. -/
theorem printNumber_of_int {valuedouble : Codec.Double}
    (integer : valuedouble = .ofInt valuedouble.toCInt) :
    printNumber valuedouble = .signedDecimal valuedouble.toCInt := by
  have range := valuedouble.toCInt_range
  have value : (Json.number valuedouble).valueint = valuedouble.toCInt := rfl
  have near : ((Codec.Double.ofInt valuedouble.toCInt).sub valuedouble).fabs.le dblEpsilon := by
    rw [integer, Codec.Double.toCInt_ofInt range.1 range.2,
      Codec.Double.sub_ofInt_self range.1 (Int.le_of_lt range.2)]
    decide
  have high : valuedouble.le intMax := by
    rw [integer]
    exact Codec.Double.ofInt_le_ofInt range.1 (by decide) (by omega)
  have low : intMin.le valuedouble := by
    rw [integer]
    exact Codec.Double.ofInt_le_ofInt (by decide) (Int.le_of_lt range.2) range.1
  rw [printNumber]
  simp only [value]
  exact if_pos ⟨near, high, low⟩

/-- Every letter of a string is printed with a letter at least. -/
theorem length_printChar_pos {token : UInt8} (letter : token ≠ 0) :
    1 ≤ (printChar token).length := by
  unfold printChar
  split_ifs
  · have byte : (CStr.ofBytes [token]).bytes = [token] := by
      refine List.takeWhile_eq_self_iff.mpr fun byte member => ?_
      rw [List.mem_singleton.mp member]
      exact decide_eq_true letter
    rw [CStr.length, byte]
    exact Nat.le_refl 1
  all_goals first | decide | rw [CStr.length_append]; exact Nat.le_add_right_of_le (by decide)

/-- A printed string is as long as the string and its marks, or longer. -/
theorem length_printStringPtr_le (str : CStr) : str.length + 2 ≤ (printStringPtr str).length := by
  have letters (bytes : Bytes) (noZero : 0 ∉ bytes) : bytes.length ≤
      (bytes.foldr (fun token rest => (printChar token).append rest) (.ofString "")).length := by
    induction bytes with
    | nil => exact Nat.zero_le _
    | cons token bytes ih =>
        rw [List.mem_cons, not_or] at noZero
        have one := length_printChar_pos (Ne.symm noZero.1)
        have rest := ih noZero.2
        rw [List.length_cons, List.foldr_cons, CStr.length_append]
        omega
  have quote : (CStr.ofString "\"").length = 1 := by decide
  have inner := letters str.bytes str.noZero
  rw [printStringPtr, CStr.length_append, CStr.length_append, quote]
  rw [CStr.length]
  omega

/-- An array is printed as its items within brackets. -/
theorem length_printValue_array (items : List Json) :
    (printValue (.array items)).length = (printItems (.ofString "") items).length + 2 := by
  have opening : (CStr.ofString "[").length = 1 := by decide
  have closing : (CStr.ofString "]").length = 1 := by decide
  rw [printValue, CStr.length_append, CStr.length_append, opening, closing]
  omega

/-- An object is printed as its fields within braces. -/
theorem length_printValue_object (fields : List (CStr × Json)) :
    (printValue (.object fields)).length = (printFields (.ofString "") fields).length + 2 := by
  have opening : (CStr.ofString "\x7b").length = 1 := by decide
  have closing : (CStr.ofString "\x7d").length = 1 := by decide
  rw [printValue, CStr.length_append, CStr.length_append, opening, closing]
  omega

/-- A field is printed as its name, a colon and its value. -/
theorem length_printField (key : CStr) (value : Json) :
    (printField (key, value)).length =
      (printStringPtr key).length + 1 + (printValue value).length := by
  have colon : (CStr.ofString ":").length = 1 := by decide
  rw [printField, CStr.length_append, CStr.length_append, colon]
  omega

/-- A comma in front makes the entries of an array one byte longer, if there are
any. -/
theorem length_printItems_comma (items : List Json) :
    (items = [] ∧ (printItems (.ofString ",") items).length = 0) ∨
      (printItems (.ofString ",") items).length = (printItems (.ofString "") items).length + 1 := by
  have comma : (CStr.ofString ",").length = 1 := by decide
  have nothing : (CStr.ofString "").length = 0 := by decide
  cases items with
  | nil => exact Or.inl ⟨rfl, nothing⟩
  | cons item items =>
      simp only [printItems, CStr.length_append, comma, nothing]
      omega

/-- A list of fields that does not begin an object has a comma more. -/
theorem length_printFields_comma (fields : List (CStr × Json)) :
    (fields = [] ∧ (printFields (.ofString ",") fields).length = 0) ∨
      (printFields (.ofString ",") fields).length =
        (printFields (.ofString "") fields).length + 1 := by
  have comma : (CStr.ofString ",").length = 1 := by decide
  have nothing : (CStr.ofString "").length = 0 := by decide
  cases fields with
  | nil => exact Or.inl ⟨rfl, nothing⟩
  | cons field fields =>
      simp only [printFields, CStr.length_append, comma, nothing]
      omega

/-- Every further item is printed behind a comma. -/
theorem length_printItems_cons (item : Json) (items : List Json) :
    (printItems (.ofString ",") (item :: items)).length =
      1 + (printValue item).length + (printItems (.ofString ",") items).length := by
  have comma : (CStr.ofString ",").length = 1 := by decide
  rw [printItems, CStr.length_append, CStr.length_append, comma]
  omega

theorem length_printFields_cons (field : CStr × Json) (fields : List (CStr × Json)) :
    (printFields (.ofString ",") (field :: fields)).length =
      1 + (printField field).length + (printFields (.ofString ",") fields).length := by
  have comma : (CStr.ofString ",").length = 1 := by decide
  rw [printFields, CStr.length_append, CStr.length_append, comma]
  omega

end Pomelo
