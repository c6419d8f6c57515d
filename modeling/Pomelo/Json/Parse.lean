import Pomelo.Json
import Pomelo.Codec.DoubleOrder
import Pomelo.Parsing.Local

/-!
# The JSON parser

`pc_JSON_Parse` with the functions it calls. A pointer into the text is the memory from
there on, which goes on behind the text, so that nothing but the bytes themselves tells a
function where to stop. Every function reads on until it has an answer; where the memory
ends first it has read outside of it.
-/

namespace Pomelo

/-- An operation on the pointer into the text. A null result is a refusal. -/
abbrev JsonParser := Parsing.Reader UInt8 Stop

namespace JsonParser

/-- `*ptr` -/
def peek : JsonParser UInt8 := do
  match ← get with
  | [] => throw .outOfBounds
  | char :: _ => return char

/-- `ptr += count`, of a pointer that is followed later. -/
def advance (count : Nat) : JsonParser Unit := do
  let ptr ← get
  if count ≤ ptr.length then set (ptr.drop count) else throw .outOfBounds

/-- Steps over a character if it is there. -/
def accept (char : UInt8) : JsonParser Bool := do
  if (← peek) = char then
    advance 1
    return true
  else return false

/-- Steps over a character that has to be there. -/
def expect (char : UInt8) : JsonParser Unit := do
  if ← accept char then return else throw .refused

/-- `skip`, from a pointer that is not null. -/
def skipSpace : Bytes → Except Stop Bytes
  | [] => throw .outOfBounds
  | char :: ptr => if char ≠ 0 ∧ char ≤ 32 then skipSpace ptr else return char :: ptr

/-- `skip` -/
def skip : JsonParser Unit := do
  set (← skipSpace (← get))

/-- `char >= '0' && char <= '9'` -/
def isDigit (char : UInt8) : Bool := 48 ≤ char && char ≤ 57

/-- The digits at the pointer, and the memory behind them. -/
def takeDigits : Bytes → Except Stop (Bytes × Bytes)
  | [] => throw .outOfBounds
  | char :: ptr =>
      if isDigit char then do
        let (digits, ptr) ← takeDigits ptr
        return (char :: digits, ptr)
      else return ([], char :: ptr)

/-- A loop over digits. -/
def digits : JsonParser Bytes := takeDigits

/-- `parse_number` up to the point: the digits, which do not begin with a zero. -/
def whole : JsonParser Bytes := do
  if (← peek) ≥ 49 ∧ isDigit (← peek) then digits else return []

/-- The fractional part, if a digit follows the point. -/
def fraction : JsonParser Bytes := do
  let num ← get
  if ← accept 46 then
    let places ← digits
    if places = [] then set num
    return places
  else return []

/-- The sign of an exponent: whether it is negative. -/
def exponentSign : JsonParser Bool := do
  if ← accept 43 then return false else accept 45

/-- The exponent: whether it is negative, and its digits. -/
def exponent : JsonParser (Bool × Bytes) := do
  if (← peek) = 101 ∨ (← peek) = 69 then
    advance 1
    let negative ← exponentSign
    return (negative, ← digits)
  else return (false, [])

/-- `n=(n*10.0)+(*num++ -'0')`, for some digits. -/
def addDigits (n : Codec.Double) (digits : Bytes) : Codec.Double :=
  digits.foldl (fun n digit => (n.mul (.ofInt 10)).add (.ofInt (digit.toNat - 48))) n

/-- `scale--`, for some digits. -/
def placeScale (digits : Bytes) : Codec.Double :=
  digits.foldl (fun (scale : Codec.Double) _ => scale.sub (.ofInt 1)) (.ofInt 0)

/-- `subscale=(subscale*10)+(*num++ - '0')`, for some digits. Processors wrap an `int` that gets
too large. -/
def exponentValue (digits : Bytes) : Int :=
  digits.foldl (fun subscale digit =>
    (subscale * 10 + ((digit.toNat : Int) - 48) + 2 ^ 31) % 2 ^ 32 - 2 ^ 31) 0

/-- The value of a number. -/
def numberValue (pow : Codec.Double → Codec.Double → Codec.Double) (negative : Bool)
    (whole fraction : Bytes) (exponent : Bool × Bytes) : Codec.Double :=
  let sign : Codec.Double := .ofInt (if negative then -1 else 1)
  let n := addDigits (addDigits (.ofInt 0) whole) fraction
  let subscale := exponentValue exponent.2 * if exponent.1 then -1 else 1
  (sign.mul n).mul (pow (.ofInt 10) ((placeScale fraction).add (.ofInt subscale)))

/-- `parse_number`, for the function `pow` of the C library. -/
def parseNumber (pow : Codec.Double → Codec.Double → Codec.Double) : JsonParser Json := do
  let negative ← accept 45
  let _ ← accept 48
  let whole ← whole
  let fraction ← fraction
  let exponent ← exponent
  return .number (numberValue pow negative whole fraction exponent)

/-- The value of a hexadecimal digit. -/
def hexValue (char : UInt8) : Option Nat :=
  if 48 ≤ char ∧ char ≤ 57 then some (char.toNat - 48)
  else if 65 ≤ char ∧ char ≤ 70 then some (10 + char.toNat - 65)
  else if 97 ≤ char ∧ char ≤ 102 then some (10 + char.toNat - 97)
  else none

/-- `parse_hex4`, with a number of digits to go. -/
def parseHex : (digits h : Nat) → Bytes → Except Stop Nat
  | 0, h, _ => return h
  | _ + 1, _, [] => throw .outOfBounds
  | digits + 1, h, char :: str =>
      match hexValue char with
      | none => return 0
      | some value => parseHex digits (h <<< 4 + value) str

/-- `parse_hex4` -/
def parseHex4 (str : Bytes) : Except Stop Nat := parseHex 4 0 str

/-- The UTF-8 code of a character, as it is written from its last byte to its first. -/
def utf8 (uc : Nat) : Bytes :=
  let follow (uc : Nat) : UInt8 := UInt8.ofNat ((uc ||| 0x80) &&& 0xBF)
  if uc < 0x80 then [UInt8.ofNat uc]
  else if uc < 0x800 then [UInt8.ofNat (uc >>> 6 ||| 0xC0), follow uc]
  else if uc < 0x10000 then
    [UInt8.ofNat (uc >>> 12 ||| 0xE0), follow (uc >>> 6), follow uc]
  else
    [UInt8.ofNat (uc >>> 18 ||| 0xF0), follow (uc >>> 12), follow (uc >>> 6), follow uc]

/-- `ptr[0] == '\\' && ptr[1] == 'u'` -/
def atEscape : Bytes → Except Stop Bool
  | [] => throw .outOfBounds
  | char :: ptr =>
      if char ≠ 92 then return false
      else match ptr with
        | [] => throw .outOfBounds
        | next :: _ => return next = 117

/-- An escape with the code of a character, behind its `u`: what it writes, and how far the
pointer moves. -/
def unicode (str : Bytes) : Except Stop (Bytes × Nat) := do
  let uc ← parseHex4 str
  if (0xDC00 ≤ uc ∧ uc ≤ 0xDFFF) ∨ uc = 0 then return ([], 4)
  else if 0xD800 ≤ uc ∧ uc ≤ 0xDBFF then
    -- A second half has to follow.
    if ← atEscape (str.drop 4) then
      let uc2 ← parseHex4 (str.drop 6)
      if uc2 < 0xDC00 ∨ uc2 > 0xDFFF then return ([], 10)
      else return (utf8 (0x10000 + ((uc &&& 0x3FF) <<< 10 ||| uc2 &&& 0x3FF)), 10)
    else return ([], 4)
  else return (utf8 uc, 4)

/-- The case `'u'`. -/
def unicodeEscape : JsonParser Bytes := do
  let (out, count) ← unicode (← get)
  advance count
  return out

/-- The `switch` over the character behind a backslash. -/
def escape (char : UInt8) : JsonParser Bytes :=
  if char = 98 then return [8]
  else if char = 102 then return [12]
  else if char = 110 then return [10]
  else if char = 114 then return [13]
  else if char = 116 then return [9]
  else if char = 117 then unicodeEscape
  else return [char]

/-- What one pass through the loop of `parse_string` that copies the text writes. -/
def piece : JsonParser Bytes := do
  let char ← peek
  advance 1
  if char ≠ 92 then return [char]
  let char ← peek
  advance 1
  escape char

/-- The loop of `parse_string` that copies the text. -/
def unescape : (passes : Nat) → JsonParser Bytes
  | 0 => throw .outOfFuel
  | passes + 1 => do
      if (← peek) = 34 ∨ (← peek) = 0 then return []
      else
        let out ← piece
        return out ++ (← unescape passes)

/-- The loop of `parse_string` that counts the characters: an escape is one of them. -/
def countChars : Bytes → Except Stop Nat
  | [] => throw .outOfBounds
  | char :: ptr =>
      if char = 34 ∨ char = 0 then return 0
      else if char = 92 then
        match ptr with
        | [] => throw .outOfBounds
        | _ :: ptr => do return (← countChars ptr) + 1
      else do return (← countChars ptr) + 1

/-- `parse_string`, behind the opening quote. The block for the text has room for as many bytes
as were counted, and an `int` counts them. -/
def stringBody : JsonParser CStr := do
  let len ← countChars (← get)
  let out ← unescape ((← get).length + 1)
  if out.length ≤ len ∧ len + 1 < 2 ^ 31 then
    let _ ← accept 34
    return .ofBytes out
  else throw .outOfBounds

/-- `parse_string` -/
def parseString : JsonParser CStr := do
  expect 34
  stringBody

/-- `!strncmp(value, literal, strlen(literal))` -/
def startsWith : (literal value : Bytes) → Except Stop Bool
  | [], _ => return true
  | _ :: _, [] => throw .outOfBounds
  | letter :: literal, char :: value =>
      if char = letter then startsWith literal value else return false

section Containers

variable (parse : JsonParser Json)

/-- The loop over the items of an array, behind the first one. -/
def parseItems : (passes : Nat) → JsonParser (List Json)
  | 0 => throw .outOfFuel
  | passes + 1 => do
      if ← accept 44 then
        skip
        let item ← parse
        skip
        return item :: (← parseItems passes)
      else return []

/-- `parse_array` -/
def parseArray (passes : Nat) : JsonParser Json := do
  expect 91
  skip
  if ← accept 93 then return .array []
  skip
  let item ← parse
  skip
  let items ← parseItems parse passes
  expect 93
  return .array (item :: items)

/-- A member of an object, with the space around it. -/
def parseMember : JsonParser (CStr × Json) := do
  skip
  let string ← parseString
  skip
  expect 58
  skip
  let item ← parse
  skip
  return (string, item)

/-- The loop over the members of an object, behind the first one. -/
def parseMembers : (passes : Nat) → JsonParser (List (CStr × Json))
  | 0 => throw .outOfFuel
  | passes + 1 => do
      if ← accept 44 then
        let member ← parseMember parse
        return member :: (← parseMembers passes)
      else return []

/-- `parse_object` -/
def parseObject (passes : Nat) : JsonParser Json := do
  expect 123
  skip
  if ← accept 125 then return .object []
  let member ← parseMember parse
  let members ← parseMembers parse passes
  expect 125
  return .object (member :: members)

end Containers

/-- A literal, if the text starts with it. -/
def literal (word : String) : JsonParser Bool := do
  let letters := (CStr.ofString word).bytes
  if ← startsWith letters (← get) then
    advance letters.length
    return true
  else return false

/-- `parse_value`. A value is longer than its items, and each item has a byte, so more fuel
than there are bytes is enough. -/
def parseValue (pow : Codec.Double → Codec.Double → Codec.Double) : (fuel : Nat) → JsonParser Json
  | 0 => throw .outOfFuel
  | fuel + 1 => do
      if ← literal "null" then return .null
      if ← literal "false" then return .false
      if ← literal "true" then return .true
      let char ← peek
      if char = 34 then return .string (← parseString)
      if char = 45 ∨ isDigit char then parseNumber pow
      else if char = 91 then parseArray (parseValue pow fuel) fuel
      else if char = 123 then parseObject (parseValue pow fuel) fuel
      else throw .refused

end JsonParser

/-- `pc_JSON_ParseWithOpts`, where no terminator is required: the item, and the memory behind
its text. -/
def pcJSONParseText (pow : Codec.Double → Codec.Double → Codec.Double) (value : Bytes) :
    Except Stop (Json × Bytes) :=
  (do JsonParser.skip; JsonParser.parseValue pow (value.length + 1) : JsonParser Json).run value

end Pomelo
