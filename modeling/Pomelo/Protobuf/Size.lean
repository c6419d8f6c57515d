import Pomelo.Protobuf.Wire

/-!
# The size of a message

Every JSON text of a message has at least `textSize` bytes. A conforming message
whose text is shorter than 2^31 bytes has strings and arrays whose lengths fit an
`int`, and its wire format is at most sixteen times as long, so that no count of
the encoder wraps around.
-/

namespace Pomelo

mutual

/-- A lower bound on the length of a JSON text: brackets, quotes and separators,
and one byte for a number. -/
def Json.textSize : Json → Nat
  | .string text => text.length + 2
  | .array items => Json.itemsTextSize items + 1
  | .object fields => Json.fieldsTextSize fields + 1
  | _ => 1
termination_by structural json => json

def Json.itemsTextSize : List Json → Nat
  | [] => 0
  | item :: items => item.textSize + 1 + Json.itemsTextSize items
termination_by structural items => items

def Json.fieldsTextSize : List (CStr × Json) → Nat
  | [] => 0
  | field :: fields => Json.fieldTextSize field + Json.fieldsTextSize fields
termination_by structural fields => fields

def Json.fieldTextSize : CStr × Json → Nat
  | (key, value) => key.length + 4 + value.textSize
termination_by structural field => field

end

/-- Every item has a letter at least. -/
theorem Json.length_le_itemsTextSize (items : List Json) :
    items.length ≤ Json.itemsTextSize items := by
  induction items with
  | nil => exact Nat.zero_le _
  | cons item items ih =>
      rw [List.length_cons, Json.itemsTextSize]
      omega

variable {limits : Limits} {gprotos root : Json}

/-- The length prefix of fewer than 2^35 bytes. -/
theorem length_prefixed_le {bytes : Bytes} (small : bytes.length < 2 ^ 35) :
    (prefixed bytes).length ≤ bytes.length + 5 := by
  have digits : (Codec.leb128 bytes.length).length ≤ 4 + 1 := Codec.length_leb128_le small
  rw [prefixed, List.length_append]
  omega

/-- A tag takes five bytes at most. -/
theorem length_wireTag_le {spec : FieldSpec} (small : spec.tag < 2 ^ 29) :
    (wireTag spec).length ≤ 5 := by
  have low := spec.type.wireType_lt
  refine Codec.length_leb128_le (?_ : _ < 128 ^ (4 + 1))
  omega

/-- A scalar takes sixteen bytes for each letter at most. -/
theorem length_wireScalar_le {type : PbType} {value : Json}
    (conforms : conformsScalar limits type value) (small : value.textSize ≤ 2 ^ 31) :
    (wireScalar type value).length ≤ 16 * value.textSize := by
  unfold conformsScalar at conforms
  split at conforms
  · next bits =>
      have range := bits.toCInt_range
      have digits : (Codec.leb128 bits.toCInt.toNat).length ≤ 4 + 1 :=
        Codec.length_leb128_le (by omega)
      simp only [wireScalar, Json.valueint, Json.textSize]
      omega
  · next bits =>
      have range := bits.toCInt_range
      have digits : (Codec.leb128 (zigzag bits.toCInt)).length ≤ 4 + 1 :=
        Codec.length_leb128_le (by rw [zigzag]; split <;> omega)
      simp only [wireScalar, Json.valueint, Json.textSize]
      omega
  · next bits =>
      have range := bits.toCInt_range
      have digits : (Codec.leb128 (zigzag bits.toCInt)).length ≤ 4 + 1 :=
        Codec.length_leb128_le (by rw [zigzag]; split <;> omega)
      simp only [wireScalar, Json.valueint, Json.textSize]
      omega
  · simp only [wireScalar, List.length_reverse, Codec.length_beBytes, Json.textSize]
    omega
  · simp only [wireScalar, List.length_reverse, Codec.length_beBytes, Json.textSize]
    omega
  · next text =>
      rw [Json.textSize, CStr.length] at small ⊢
      have size := length_prefixed_le (show text.bytes.length < 2 ^ 35 by omega)
      simp only [wireScalar, Json.valuestring, Option.map_some, Option.getD_some]
      omega
  · cases conforms

mutual

theorem length_wireFields_le (wf : SchemaWF gprotos root) {protos : Json}
    (reached : Reaches gprotos root protos) :
    ∀ fields : List (CStr × Json), conformsFields limits gprotos protos fields →
      Json.fieldsTextSize fields ≤ 2 ^ 31 →
        (wireFields gprotos protos fields).length ≤ 16 * Json.fieldsTextSize fields
  | [], _, _ => by
      rw [wireFields, List.length_nil]
      exact Nat.zero_le _
  | field :: fields, conforms, small => by
      rw [conformsFields, Bool.and_eq_true_iff, Bool.and_eq_true_iff] at conforms
      rw [Json.fieldsTextSize] at small ⊢
      rw [wireFields, List.length_append]
      have first := length_wireField_le wf reached field conforms.1.1 (by omega)
      have rest := length_wireFields_le wf reached fields conforms.2 (by omega)
      omega
termination_by structural fields => fields

theorem length_wireField_le (wf : SchemaWF gprotos root) {protos : Json}
    (reached : Reaches gprotos root protos) :
    ∀ field : CStr × Json, conformsField limits gprotos protos field →
      Json.fieldTextSize field ≤ 2 ^ 31 →
        (wireField gprotos protos field).length ≤ 16 * Json.fieldTextSize field
  | (key, value), conforms, small => by
      rw [conformsField] at conforms
      rw [Json.fieldTextSize] at small ⊢
      rw [wireField]
      split at conforms
      · cases conforms
      next spec described =>
      obtain ⟨-, high, -⟩ := wf.number_of_fieldSpec? reached described
      split at conforms
      · next repeated =>
          simp only [repeated, if_true]
          have array := length_wireArray_le wf reached described value conforms (by omega)
          omega
      · next single =>
          simp only [single, if_false, List.length_append]
          have tag := length_wireTag_le high
          have content := length_wireValue_le wf reached described value conforms (by omega)
          omega
termination_by structural field => field

theorem length_wireArray_le (wf : SchemaWF gprotos root) {protos : Json} {key : CStr}
    {spec : FieldSpec} (reached : Reaches gprotos root protos)
    (described : fieldSpec? gprotos protos key = some spec) :
    ∀ value : Json, conformsArray limits gprotos spec.type value → value.textSize ≤ 2 ^ 31 →
      (wireArray gprotos spec value).length ≤ 16 * value.textSize
  | .array items, conforms, small => by
      obtain ⟨-, high, -⟩ := wf.number_of_fieldSpec? reached described
      have tag := length_wireTag_le high
      have count := Json.length_le_itemsTextSize items
      rw [conformsArray, Bool.and_eq_true_iff] at conforms
      rw [Json.textSize] at small ⊢
      rw [wireArray]
      split
      · have digits : (Codec.leb128 items.length).length ≤ 4 + 1 :=
          Codec.length_leb128_le (by omega)
        have elements := length_wireItems_le wf reached described [] (Nat.zero_le _) items
          conforms.2 (by omega)
        rw [List.length_append, List.length_append]
        omega
      · have elements := length_wireItems_le wf reached described (wireTag spec) tag items
          conforms.2 (by omega)
        omega
  | .null, conforms, _ | .false, conforms, _ | .true, conforms, _ | .number _, conforms, _
  | .string _, conforms, _ | .object _, conforms, _ => by cases conforms
termination_by structural value => value

theorem length_wireItems_le (wf : SchemaWF gprotos root) {protos : Json} {key : CStr}
    {spec : FieldSpec} (reached : Reaches gprotos root protos)
    (described : fieldSpec? gprotos protos key = some spec) (lead : Bytes) (short : lead.length ≤ 5) :
    ∀ items : List Json, conformsItems limits gprotos spec.type items →
      Json.itemsTextSize items ≤ 2 ^ 31 →
        (wireItems gprotos spec.type lead items).length ≤ 16 * Json.itemsTextSize items
  | [], _, _ => by
      rw [wireItems, List.length_nil]
      exact Nat.zero_le _
  | item :: items, conforms, small => by
      rw [conformsItems, Bool.and_eq_true_iff] at conforms
      rw [Json.itemsTextSize] at small ⊢
      rw [wireItems, List.length_append, List.length_append]
      have first := length_wireValue_le wf reached described item conforms.1 (by omega)
      have rest := length_wireItems_le wf reached described lead short items conforms.2 (by omega)
      omega
termination_by structural items => items

theorem length_wireValue_le (wf : SchemaWF gprotos root) {protos : Json} {key : CStr}
    {spec : FieldSpec} (reached : Reaches gprotos root protos)
    (described : fieldSpec? gprotos protos key = some spec) :
    ∀ value : Json, conformsValue limits gprotos spec.type value → value.textSize ≤ 2 ^ 31 →
      (wireValue gprotos spec.type value).length ≤ 16 * value.textSize
  | value, conforms, small => by
      cases type : spec.type with
      | scalar scalar =>
          rw [type, conformsValue] at conforms
          rw [wireValue]
          exact length_wireScalar_le conforms small
      | message definition =>
          rw [type] at conforms
          cases value with
          | object fields =>
              rw [conformsValue, Bool.and_eq_true_iff] at conforms
              rw [Json.textSize] at small ⊢
              have inner := length_wireFields_le wf (.field reached described type) fields
                conforms.1 (by omega)
              have size := length_prefixed_le
                (show (wireFields gprotos definition fields).length < 2 ^ 35 by omega)
              rw [wireValue]
              omega
          | null | false | true | number | string | array => cases conforms
termination_by structural value => value

end

/-- The limits leave room for every part of a message with a text and a wire
format of at most these lengths. -/
structure Limits.Admits (limits : Limits) (text wire : Nat) : Prop where
  string : ∀ size ≤ text, within size limits.string
  array : ∀ size ≤ text, within size limits.array
  message : ∀ size ≤ wire, within size limits.message

/-- The sizes that keep their value in the encoder alone, which counts a submessage
in a `size_t`. -/
def Limits.counted : Limits := ⟨some (2 ^ 31), some (2 ^ 31), some (2 ^ 64)⟩

/-- What can be counted can be encoded. -/
theorem Limits.counted_encodable : Limits.counted.Encodable :=
  ⟨fun _ => of_decide_eq_true, fun _ => of_decide_eq_true, fun _ => of_decide_eq_true⟩

/-- The limits of the count allow every message of this size. -/
theorem Limits.counted_admits : Limits.counted.Admits (2 ^ 31 - 1) (2 ^ 36) where
  string _ _ := decide_eq_true (by omega)
  array _ _ := decide_eq_true (by omega)
  message _ _ := decide_eq_true (by omega)

/-- The limits of the machine allow every message of this size. -/
theorem Limits.machine_admits : Limits.machine.Admits (2 ^ 31 - 1) (2 ^ 31) where
  string _ _ := decide_eq_true (by omega)
  array _ _ := decide_eq_true (by omega)
  message _ _ := decide_eq_true (by omega)

variable {target : Limits} {text wire : Nat}

mutual

/-- The fields of a small message conform to the limits. -/
theorem conformsFields_of_admits (admits : target.Admits text wire) {protos : Json} :
    ∀ fields : List (CStr × Json), conformsFields limits gprotos protos fields →
      Json.fieldsTextSize fields ≤ text → (wireFields gprotos protos fields).length ≤ wire →
        conformsFields target gprotos protos fields
  | [], _, _, _ => rfl
  | field :: fields, conforms, small, short => by
      rw [conformsFields, Bool.and_eq_true_iff, Bool.and_eq_true_iff] at conforms ⊢
      rw [Json.fieldsTextSize] at small
      rw [wireFields, List.length_append] at short
      have first := conformsField_of_admits admits field conforms.1.1 (by omega) (by omega)
      have rest := conformsFields_of_admits admits fields conforms.2 (by omega) (by omega)
      exact ⟨⟨first, conforms.1.2⟩, rest⟩
termination_by structural fields => fields

theorem conformsField_of_admits (admits : target.Admits text wire) {protos : Json} :
    ∀ field : CStr × Json, conformsField limits gprotos protos field →
      Json.fieldTextSize field ≤ text → (wireField gprotos protos field).length ≤ wire →
        conformsField target gprotos protos field
  | (key, value), conforms, small, short => by
      rw [conformsField] at conforms ⊢
      rw [Json.fieldTextSize] at small
      rw [wireField] at short
      split at conforms
      · cases conforms
      next spec described =>
      split at conforms
      · next repeated =>
          simp only [described, repeated, if_true] at short ⊢
          exact conformsArray_of_admits admits value conforms (by omega) short
      · next single =>
          simp only [described, single, if_false, List.length_append] at short ⊢
          exact conformsValue_of_admits admits value conforms (by omega) (by omega)
termination_by structural field => field

theorem conformsArray_of_admits (admits : target.Admits text wire) {spec : FieldSpec} :
    ∀ value : Json, conformsArray limits gprotos spec.type value → value.textSize ≤ text →
      (wireArray gprotos spec value).length ≤ wire → conformsArray target gprotos spec.type value
  | .array items, conforms, small, short => by
      have count := Json.length_le_itemsTextSize items
      rw [conformsArray, Bool.and_eq_true_iff] at conforms ⊢
      rw [Json.textSize] at small
      rw [wireArray] at short
      refine ⟨admits.array _ (by omega), ?_⟩
      split at short
      · rw [List.length_append, List.length_append] at short
        exact conformsItems_of_admits admits [] items conforms.2 (by omega) (by omega)
      · exact conformsItems_of_admits admits (wireTag spec) items conforms.2 (by omega) short
  | .null, conforms, _, _ | .false, conforms, _, _ | .true, conforms, _, _
  | .number _, conforms, _, _ | .string _, conforms, _, _ | .object _, conforms, _, _ => by
      cases conforms
termination_by structural value => value

theorem conformsItems_of_admits (admits : target.Admits text wire) {type : FieldType}
    (lead : Bytes) :
    ∀ items : List Json, conformsItems limits gprotos type items →
      Json.itemsTextSize items ≤ text → (wireItems gprotos type lead items).length ≤ wire →
        conformsItems target gprotos type items
  | [], _, _, _ => rfl
  | item :: items, conforms, small, short => by
      rw [conformsItems, Bool.and_eq_true_iff] at conforms ⊢
      rw [Json.itemsTextSize] at small
      rw [wireItems, List.length_append, List.length_append] at short
      exact ⟨conformsValue_of_admits admits item conforms.1 (by omega) (by omega),
        conformsItems_of_admits admits lead items conforms.2 (by omega) (by omega)⟩
termination_by structural items => items

theorem conformsValue_of_admits (admits : target.Admits text wire) {type : FieldType} :
    ∀ value : Json, conformsValue limits gprotos type value → value.textSize ≤ text →
      (wireValue gprotos type value).length ≤ wire → conformsValue target gprotos type value
  | value, conforms, small, short => by
      cases type with
      | scalar scalar =>
          rw [conformsValue] at conforms ⊢
          unfold conformsScalar at conforms ⊢
          split at conforms
          -- Only a string has a size of its own.
          case h_6 content =>
              rw [Json.textSize, CStr.length] at small
              exact admits.string _ (by omega)
          all_goals exact conforms
      | message definition =>
          cases value with
          | object fields =>
              rw [conformsValue, Bool.and_eq_true_iff] at conforms ⊢
              rw [Json.textSize] at small
              rw [wireValue, prefixed, List.length_append] at short
              have inner : (wireFields gprotos definition fields).length ≤ wire := by omega
              exact ⟨conformsFields_of_admits admits fields conforms.1 (by omega) inner,
                admits.message _ inner⟩
          | null | false | true | number | string | array => cases conforms
termination_by structural value => value

end

end Pomelo
