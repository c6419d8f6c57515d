import Pomelo.Package.Format
import Pomelo.Codec.Binary64
import Mathlib.Data.List.TakeWhile

/-!
# JSON trees

The values of `pc_JSON.c` as far as the codec and the transport use them. A node
keeps the one field its type has; the fields the other types leave zero are what
the accessors return for them. `valueint` is not kept, since every function that
makes a number node sets it to `(int)valuedouble`.

Functions that would follow a null pointer stop with a `Stop`, so that a
statement about a result is also a statement about the pointers on the way.
-/

namespace Pomelo

/-- A C string: the bytes before its terminating zero. -/
structure CStr where
  bytes : Bytes
  noZero : 0 ∉ bytes
  deriving DecidableEq

namespace CStr

/-- The C string in a block of memory that holds a zero behind its bytes. -/
def ofBytes (bytes : Bytes) : CStr where
  bytes := bytes.takeWhile (fun byte => byte ≠ 0)
  noZero := fun member => by simpa using List.mem_takeWhile_imp member

/-- A C string literal. -/
def ofString (text : String) : CStr :=
  ofBytes (text.toList.map fun char => UInt8.ofNat char.toNat)

/-- `strlen` -/
def length (string : CStr) : Nat := string.bytes.length

/-- `strcat` -/
def append (first second : CStr) : CStr where
  bytes := first.bytes ++ second.bytes
  noZero := by simp [first.noZero, second.noZero]

/-- `sprintf("%u")` -/
def decimal (value : Nat) : CStr := ofBytes ((Nat.toDigits 10 value).map fun char =>
  UInt8.ofNat char.toNat)

@[ext] theorem ext {first second : CStr} (same : first.bytes = second.bytes) : first = second := by
  cases first
  cases second
  congr

/-- A C string is read back from its own bytes. -/
@[simp] theorem ofBytes_bytes (string : CStr) : ofBytes string.bytes = string := by
  refine CStr.ext (List.takeWhile_eq_self_iff.mpr fun byte member => ?_)
  exact decide_eq_true fun zero => string.noZero (zero ▸ member)

/-- The bytes of a numeral are its digits. -/
theorem decimal_bytes (value : Nat) : (decimal value).bytes =
    (Nat.toDigits 10 value).map fun char => UInt8.ofNat char.toNat := by
  refine List.takeWhile_eq_self_iff.mpr fun byte member => ?_
  obtain ⟨char, isDigit, rfl⟩ := List.mem_map.mp member
  have range := Nat.isDigit_of_mem_toDigits (by decide) (by decide) isDigit
  simp only [Char.isDigit, Bool.and_eq_true, decide_eq_true_eq] at range
  refine decide_eq_true fun zero => ?_
  have value := congrArg UInt8.toNat zero
  rw [UInt8.toNat_ofNat'] at value
  have none : (0 : UInt8).toNat = 0 := rfl
  have bounds : 48 ≤ char.toNat ∧ char.toNat ≤ 57 := range
  omega

/-- Different numbers have different numerals. -/
theorem decimal_inj {first second : Nat} (same : decimal first = decimal second) :
    first = second := by
  have digits (number : Nat) :
      (decimal number).bytes.map (fun byte => Char.ofNat byte.toNat) = Nat.toDigits 10 number := by
    rw [decimal_bytes, List.map_map]
    refine (List.map_congr_left fun char member => ?_).trans (List.map_id _)
    have range := Nat.isDigit_of_mem_toDigits (by decide) (by decide) member
    simp only [Char.isDigit, Bool.and_eq_true, decide_eq_true_eq] at range
    have bound : char.toNat ≤ 57 := range.2
    have small : char.toNat % 2 ^ 8 = char.toNat := by omega
    rw [Function.comp_apply, UInt8.toNat_ofNat', small, Char.ofNat_toNat, id_eq]
  calc first = Nat.ofDigitChars 10 (Nat.toDigits 10 first) 0 := Nat.ofDigitChars_ten_toDigits.symm
    _ = Nat.ofDigitChars 10 (Nat.toDigits 10 second) 0 := by rw [← digits, same, digits]
    _ = second := Nat.ofDigitChars_ten_toDigits

end CStr

/-- How a C function ends when it has no result to give. -/
inductive Stop where
  /-- It reports a failure to its caller. -/
  | refused
  /-- It follows a null pointer. -/
  | nullDeref
  /-- It reads or writes outside a block. -/
  | outOfBounds
  /-- It is still running when the given number of steps is used up. -/
  | outOfFuel
  /-- It calls `abort`, or one of its assertions fails. -/
  | aborted
  deriving DecidableEq, Repr

/-- A pointer that is about to be followed. -/
def deref {α : Type} : Option α → Except Stop α
  | some value => .ok value
  | none => .error .nullDeref

/-- A pointer that can be followed is followed. -/
theorem Stop.ok_bind {α β : Type} (value : α) (next : α → Except Stop β) :
    (Except.ok value >>= next) = next value := rfl

/-- A computation that ends well has ended well in its first part. -/
theorem Stop.bind_eq_ok {α β : Type} {first : Except Stop α} {next : α → Except Stop β} {result : β}
    (ends : first >>= next = .ok result) : ∃ value, first = .ok value ∧ next value = .ok result := by
  cases first with
  | error stop => exact absurd ends nofun
  | ok value => exact ⟨value, rfl, ends⟩

@[simp] theorem deref_some {α : Type} (value : α) : deref (some value) = .ok value := rfl
/-- `pc_JSON` -/
inductive Json where
  | null
  | false
  | true
  | number (valuedouble : Codec.Double)
  | string (valuestring : CStr)
  | array (child : List Json)
  | object (child : List (CStr × Json))

namespace Json

/-- `valueint` -/
def valueint : Json → Int
  | .number valuedouble => valuedouble.toCInt
  | .true => 1
  | _ => 0

/-- `valuedouble` -/
def valuedouble : Json → Codec.Double
  | .number valuedouble => valuedouble
  | _ => 0

/-- `valuestring` -/
def valuestring : Json → Option CStr
  | .string valuestring => some valuestring
  | _ => none

/-- `type == pc_JSON_Object` -/
def isObject : Json → Bool
  | .object _ => Bool.true
  | _ => Bool.false

/-- The first child under a key, of a node whose children all have keys. -/
def lookup (key : CStr) : Json → Option Json
  | .object fields => (fields.find? fun field => field.1 = key).map Prod.snd
  | _ => none

end Json

/-- `pc_JSON_GetObjectItem`. The children of an array have a null `string`, which
`strcmp` would follow. -/
def pcJSONGetObjectItem : Json → CStr → Except Stop (Option Json)
  | .array (_ :: _), _ => .error .nullDeref
  | object, string => .ok (object.lookup string)

/-- The conversion of a count to `int`. -/
def intCount (count : Nat) : Int := ((count : Int) + 2 ^ 31) % 2 ^ 32 - 2 ^ 31

/-- `pc_JSON_GetArraySize` -/
def pcJSONGetArraySize : Json → Int
  | .array items => intCount items.length
  | .object fields => intCount fields.length
  | _ => 0

/-- `pc_JSON_CreateNumber` -/
def pcJSONCreateNumber (num : Codec.Double) : Json := .number num

/-- `pc_JSON_AddItemToArray`, to a node that is an array. -/
def pcJSONAddItemToArray (array item : Json) : Json :=
  match array with
  | .array items => .array (items ++ [item])
  | other => other

/-- `pc_JSON_AddItemToObject`, to a node that is an object. -/
def pcJSONAddItemToObject (object : Json) (string : CStr) (item : Json) : Json :=
  match object with
  | .object fields => .object (fields ++ [(string, item)])
  | other => other

/-- The object after its first child under a key has been changed in place. -/
def Json.modifyItem (key : CStr) (change : Json → Json) : Json → Json
  | .object fields => .object (modifyFirst fields)
  | other => other
where
  /-- The first field under the key, changed. -/
  modifyFirst : List (CStr × Json) → List (CStr × Json)
    | [] => []
    | field :: fields =>
        if field.1 = key then (field.1, change field.2) :: fields
        else field :: modifyFirst fields

namespace Json

@[simp] theorem valueint_ofInt {value : Int} (low : -2 ^ 31 ≤ value) (high : value < 2 ^ 31) :
    (Json.number (Codec.Double.ofInt value)).valueint = value :=
  Codec.Double.toCInt_ofInt low high

/-- Induction over JSON trees, with a hypothesis for every child of a node. -/
theorem induct {motive : Json → Prop} (null : motive .null) (false : motive .false)
    (true : motive .true) (number : ∀ value, motive (.number value))
    (string : ∀ text, motive (.string text))
    (array : ∀ items, (∀ item ∈ items, motive item) → motive (.array items))
    (object : ∀ fields, (∀ field ∈ fields, motive field.2) → motive (.object fields))
    (json : Json) : motive json := by
  match json with
  | .null => exact null
  | .false => exact false
  | .true => exact true
  | .number value => exact number value
  | .string text => exact string text
  | .array items =>
      exact array items fun item member =>
        induct null false true number string array object item
  | .object fields =>
      exact object fields fun field member =>
        induct null false true number string array object field.2
termination_by json
decreasing_by
  · have smaller := List.sizeOf_lt_of_mem member
    simp only [Json.array.sizeOf_spec]
    omega
  · have smaller := List.sizeOf_lt_of_mem member
    obtain ⟨key, value⟩ := field
    simp only [Json.object.sizeOf_spec, Prod.mk.sizeOf_spec] at *
    omega

end Json

namespace Json

variable {key : CStr} {fields : List (CStr × Json)}

/-- A name that is free is not found. -/
theorem lookup_of_notMem (free : key ∉ fields.map Prod.fst) : (object fields).lookup key = none := by
  have absent : fields.find? (fun field => field.1 = key) = none := by
    refine List.find?_eq_none.mpr fun field member same => free ?_
    exact List.mem_map.mpr ⟨field, member, of_decide_eq_true same⟩
  rw [lookup, absent, Option.map_none]

/-- A field that is appended under a free name is found. -/
theorem lookup_append_of_notMem (free : key ∉ fields.map Prod.fst) (value : Json) :
    (object (fields ++ [(key, value)])).lookup key = some value := by
  have absent : fields.find? (fun field => field.1 = key) = none := by
    refine List.find?_eq_none.mpr fun field member same => free ?_
    exact List.mem_map.mpr ⟨field, member, of_decide_eq_true same⟩
  simp only [lookup, List.find?_append, absent, Option.none_or, List.find?_singleton,
    decide_true, if_true, Option.map_some]

/-- Changing that field changes nothing else. -/
theorem modifyItem_append_of_notMem (free : key ∉ fields.map Prod.fst) (value : Json)
    (change : Json → Json) :
    (object (fields ++ [(key, value)])).modifyItem key change =
      object (fields ++ [(key, change value)]) := by
  have first : modifyItem.modifyFirst key change (fields ++ [(key, value)]) =
      fields ++ [(key, change value)] := by
    induction fields with
    | nil => simp only [List.nil_append, modifyItem.modifyFirst, if_true]
    | cons field fields ih =>
        rw [List.map_cons, List.mem_cons, not_or] at free
        rw [List.cons_append, modifyItem.modifyFirst, if_neg (Ne.symm free.1), ih free.2,
          List.cons_append]
  rw [modifyItem, first]

end Json

/-- In an object `pc_JSON_GetObjectItem` is the lookup. -/
theorem pcJSONGetObjectItem_object (fields : List (CStr × Json)) (key : CStr) :
    pcJSONGetObjectItem (.object fields) key = .ok ((Json.object fields).lookup key) := rfl

end Pomelo
