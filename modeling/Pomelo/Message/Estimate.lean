import Pomelo.Json.Print
import Pomelo.Message.RoundTrip

/-!
# The estimate for a protobuf body

`pc_body_pb_encode` takes twice the length of the JSON text as the size of its
buffer. With field numbers of one byte this is enough for everything but arrays
of doubles: an element of eight bytes may have a text of one digit and a comma.
-/

namespace Pomelo

mutual

/-- A value is printed in no fewer letters than its texts have. -/
theorem textSize_le_printValue : ∀ json : Json, json.textSize ≤ (printValue json).length
  | .null => by decide
  | .false => by decide
  | .true => by decide
  | .number valuedouble => by
      rw [Json.textSize, printValue]
      · exact length_printNumber_pos valuedouble
      all_goals rintro _ ⟨⟩
  | .string text => by
      rw [Json.textSize, printValue]
      exact length_printStringPtr_le text
  | .array items => by
      have entries := itemsTextSize_le_printItems items
      have comma := length_printItems_comma items
      rw [Json.textSize, length_printValue_array]
      omega
  | .object fields => by
      have entries := fieldsTextSize_le_printFields fields
      have comma := length_printFields_comma fields
      rw [Json.textSize, length_printValue_object]
      omega
termination_by structural json => json

theorem itemsTextSize_le_printItems : ∀ items : List Json,
    Json.itemsTextSize items ≤ (printItems (.ofString ",") items).length
  | [] => Nat.zero_le _
  | item :: items => by
      have first := textSize_le_printValue item
      have rest := itemsTextSize_le_printItems items
      rw [Json.itemsTextSize, length_printItems_cons]
      omega
termination_by structural items => items

theorem fieldsTextSize_le_printFields : ∀ fields : List (CStr × Json),
    Json.fieldsTextSize fields ≤ (printFields (.ofString ",") fields).length
  | [] => Nat.zero_le _
  | field :: fields => by
      have first := fieldTextSize_le_printField field
      have rest := fieldsTextSize_le_printFields fields
      rw [Json.fieldsTextSize, length_printFields_cons]
      omega
termination_by structural fields => fields

theorem fieldTextSize_le_printField : ∀ field : CStr × Json,
    Json.fieldTextSize field ≤ (printField field).length + 1
  | (key, value) => by
      have name := length_printStringPtr_le key
      have content := textSize_le_printValue value
      rw [Json.fieldTextSize, length_printField]
      omega
termination_by structural field => field

end

mutual

/-- Every field name in a value has a letter. -/
def Json.named : Json → Bool
  | .array items => Json.itemsNamed items
  | .object fields => Json.fieldsNamed fields
  | _ => Bool.true
termination_by structural json => json

def Json.itemsNamed : List Json → Bool
  | [] => Bool.true
  | item :: items => item.named && Json.itemsNamed items
termination_by structural items => items

def Json.fieldsNamed : List (CStr × Json) → Bool
  | [] => Bool.true
  | field :: fields => Json.fieldNamed field && Json.fieldsNamed fields
termination_by structural fields => fields

def Json.fieldNamed : CStr × Json → Bool
  | (key, value) => key.bytes ≠ [] && value.named
termination_by structural field => field

end

mutual

/-- Every array of doubles in a message has a text of four bytes for each element, the commas
among them. -/
def roomyFields (gprotos protos : Json) : List (CStr × Json) → Bool
  | [] => Bool.true
  | field :: fields => roomyField gprotos protos field && roomyFields gprotos protos fields
termination_by structural fields => fields

def roomyField (gprotos protos : Json) : CStr × Json → Bool
  | (key, value) =>
      match fieldSpec? gprotos protos key with
      | none => Bool.true
      | some spec =>
          if spec.option = .repeated then roomyArray gprotos spec.type value
          else roomyValue gprotos spec.type value
termination_by structural field => field

def roomyArray (gprotos : Json) (type : FieldType) : Json → Bool
  | .array items =>
      match type with
      | .scalar .double => 4 * items.length ≤ (printItems (.ofString ",") items).length
      | .scalar _ => Bool.true
      | .message _ => roomyItems gprotos type items
  | _ => Bool.true
termination_by structural value => value

def roomyItems (gprotos : Json) (type : FieldType) : List Json → Bool
  | [] => Bool.true
  | item :: items => roomyValue gprotos type item && roomyItems gprotos type items
termination_by structural items => items

def roomyValue (gprotos : Json) (type : FieldType) (value : Json) : Bool :=
  match type, value with
  | .message definition, .object fields => roomyFields gprotos definition fields
  | _, _ => Bool.true
termination_by structural value

end

/-- The definitions that named fields of a definition lead to, with room for the
text around a message of theirs. -/
inductive NamedReaches (gprotos root : Json) : Nat → Json → Prop where
  | root : NamedReaches gprotos root 0 root
  | field {size : Nat} {protos : Json} {key : CStr} {spec : FieldSpec} {definition : Json}
      (reached : NamedReaches gprotos root size protos) (letter : key.bytes ≠ [])
      (described : fieldSpec? gprotos protos key = some spec)
      (type : spec.type = .message definition) :
      NamedReaches gprotos root (size + (printStringPtr key).length + 5) definition

/-- The tag in front of every field has one byte. -/
def ShortTags (gprotos root : Json) : Prop :=
  ∀ protos, Reaches gprotos root protos → ∀ key spec,
    fieldSpec? gprotos protos key = some spec → spec.tag ≤ 15

/-- A named array of doubles, with room for the text around its elements. -/
def DoubleArrayWithin (gprotos root : Json) (size : Nat) : Prop :=
  ∃ outer protos key spec, NamedReaches gprotos root outer protos ∧ key.bytes ≠ [] ∧
    fieldSpec? gprotos protos key = some spec ∧ spec.option = .repeated ∧
      spec.type = .scalar .double ∧ outer + (printStringPtr key).length + 5 = size

variable {limits : Limits} {gprotos root : Json}

/-- A definition with named fields above it is reached. -/
theorem NamedReaches.reaches {size : Nat} {protos : Json}
    (reached : NamedReaches gprotos root size protos) : Reaches gprotos root protos := by
  induction reached with
  | root => exact .root
  | field _ _ described type ih => exact .field ih described type

/-- A short tag takes one byte. -/
theorem ShortTags.length_wireTag (short : ShortTags gprotos root) {protos : Json} {key : CStr}
    {spec : FieldSpec} (reached : Reaches gprotos root protos)
    (described : fieldSpec? gprotos protos key = some spec) : (wireTag spec).length = 1 := by
  have tag := short protos reached key spec described
  have low := spec.type.wireType_lt
  rw [wireTag, Codec.leb128_of_lt (by omega), List.length_singleton]

/-- What the wire format of one value may have beyond twice its text. -/
def FieldType.excess : FieldType → Nat
  | .scalar .double => 6
  | .scalar .string | .message _ => 1
  | .scalar _ => 2

/-- A number of one digit takes one byte, and every number at most five. -/
theorem length_leb128_signedDecimal {value : Int} {number : Nat} (bound : number < 2 ^ 32)
    (small : 0 ≤ value → value < 10 → number < 20) :
    (Codec.leb128 number).length ≤ 2 * (CStr.signedDecimal value).length + 2 := by
  have digits : (Codec.leb128 number).length ≤ 4 + 1 := Codec.length_leb128_le (by omega)
  rcases CStr.length_signedDecimal value with ⟨low, high, -⟩ | two
  · have one := small low high
    rw [Codec.leb128_of_lt (by omega), List.length_singleton]
    omega
  · omega

/-- An integer is encoded in at most twice its letters and two bytes. -/
theorem length_leb128_zigzag {value : Int} (range : -2 ^ 31 ≤ value ∧ value < 2 ^ 31) :
    (Codec.leb128 (zigzag value)).length ≤ 2 * (CStr.signedDecimal value).length + 2 := by
  refine length_leb128_signedDecimal ?_ ?_
  · rw [zigzag]
    split <;> omega
  · rw [zigzag]
    split <;> omega

/-- A scalar is encoded in at most twice its letters and its excess. -/
theorem length_wireScalar_le_printValue {type : PbType} {value : Json}
    (conforms : conformsScalar limits type value) (small : (printValue value).length < 2 ^ 30) :
    (wireScalar type value).length ≤
      2 * (printValue value).length + (FieldType.scalar type).excess := by
  unfold conformsScalar at conforms
  split at conforms
  · next bits =>
      rw [Bool.and_eq_true_iff, decide_eq_true_eq, decide_eq_true_eq] at conforms
      have range := bits.toCInt_range
      have value : (Json.number bits).valueint = bits.toCInt := rfl
      rw [printValue, printNumber_of_int conforms.1]
      exact length_leb128_signedDecimal (by omega) (by omega)
  · next bits =>
      rw [printValue, printNumber_of_int (of_decide_eq_true conforms)]
      exact length_leb128_zigzag bits.toCInt_range
  · next bits =>
      rw [printValue, printNumber_of_int (of_decide_eq_true conforms)]
      exact length_leb128_zigzag bits.toCInt_range
  · next bits =>
      have digit := length_printNumber_pos bits
      simp only [wireScalar, List.length_reverse, Codec.length_beBytes, printValue,
        FieldType.excess]
      omega
  · next bits =>
      have digit := length_printNumber_pos bits
      simp only [wireScalar, List.length_reverse, Codec.length_beBytes, printValue,
        FieldType.excess]
      omega
  · next text =>
      have letters := length_printStringPtr_le text
      rw [CStr.length] at letters
      rw [printValue] at small ⊢
      have size := length_prefixed_le (show text.bytes.length < 2 ^ 35 by omega)
      simp only [wireScalar, Json.valuestring, Option.map_some, Option.getD_some,
        FieldType.excess]
      omega
  · cases conforms

/-- No array of doubles is within reach. -/
def NoDoubleArrays (gprotos root : Json) : Prop := ∀ size, ¬ DoubleArrayWithin gprotos root size

/-- What is not an array has no room to leave. -/
theorem roomyItems_scalar (type : PbType) (items : List Json) :
    roomyItems gprotos (.scalar type) items := by
  induction items with
  | nil => rfl
  | cons item items ih =>
      rw [roomyItems, ih, Bool.and_true]
      cases item <;> rfl

mutual

/-- Messages have no array of doubles if there is none within reach. -/
theorem NoDoubleArrays.roomyFields (none : NoDoubleArrays gprotos root) {outer : Nat}
    {protos : Json} (reached : NamedReaches gprotos root outer protos) :
    ∀ fields : List (CStr × Json), Json.fieldsNamed fields →
      Pomelo.roomyFields gprotos protos fields
  | [], _ => rfl
  | field :: fields, named => by
      rw [Json.fieldsNamed, Bool.and_eq_true_iff] at named
      rw [Pomelo.roomyFields, none.roomyField reached field named.1,
        none.roomyFields reached fields named.2]
      rfl
termination_by structural fields => fields

/-- Without arrays of doubles a field of a definition is roomy. -/
theorem NoDoubleArrays.roomyField (none : NoDoubleArrays gprotos root) {outer : Nat}
    {protos : Json} (reached : NamedReaches gprotos root outer protos) :
    ∀ field : CStr × Json, Json.fieldNamed field → Pomelo.roomyField gprotos protos field
  | (key, value), named => by
      rw [Json.fieldNamed, Bool.and_eq_true_iff, decide_eq_true_eq] at named
      rw [Pomelo.roomyField]
      split
      · rfl
      next spec described =>
      split
      · next repeated =>
          have single : spec.type ≠ .scalar .double := fun type =>
            none _ ⟨outer, protos, key, spec, reached, named.1, described, repeated, type, rfl⟩
          exact none.roomyArray reached named.1 described single value named.2
      · exact none.roomyValue reached named.1 described value named.2
termination_by structural field => field

theorem NoDoubleArrays.roomyArray (none : NoDoubleArrays gprotos root) {outer : Nat}
    {protos : Json} {key : CStr} {spec : FieldSpec}
    (reached : NamedReaches gprotos root outer protos) (letter : key.bytes ≠ [])
    (described : fieldSpec? gprotos protos key = some spec)
    (single : spec.type ≠ .scalar .double) :
    ∀ value : Json, value.named → Pomelo.roomyArray gprotos spec.type value
  | .array items, named => by
      rw [Json.named] at named
      have elements := none.roomyItems reached letter described items named
      cases type : spec.type with
      | message definition =>
          rw [type] at elements
          exact elements
      | scalar scalar =>
          cases scalar with
          | double => exact absurd type single
          | uInt32 | int32 | sInt32 | float | string => rfl
  | .null, _ | .false, _ | .true, _ | .number _, _ | .string _, _ | .object _, _ => rfl
termination_by structural value => value

theorem NoDoubleArrays.roomyItems (none : NoDoubleArrays gprotos root) {outer : Nat}
    {protos : Json} {key : CStr} {spec : FieldSpec}
    (reached : NamedReaches gprotos root outer protos) (letter : key.bytes ≠ [])
    (described : fieldSpec? gprotos protos key = some spec) :
    ∀ items : List Json, Json.itemsNamed items → Pomelo.roomyItems gprotos spec.type items
  | [], _ => rfl
  | item :: items, named => by
      rw [Json.itemsNamed, Bool.and_eq_true_iff] at named
      rw [Pomelo.roomyItems, none.roomyValue reached letter described item named.1,
        none.roomyItems reached letter described items named.2]
      rfl
termination_by structural items => items

theorem NoDoubleArrays.roomyValue (none : NoDoubleArrays gprotos root) {outer : Nat}
    {protos : Json} {key : CStr} {spec : FieldSpec}
    (reached : NamedReaches gprotos root outer protos) (letter : key.bytes ≠ [])
    (described : fieldSpec? gprotos protos key = some spec) :
    ∀ value : Json, value.named → Pomelo.roomyValue gprotos spec.type value
  | value, named => by
      cases type : spec.type with
      | scalar scalar => cases value <;> rfl
      | message definition =>
          cases value with
          | object fields =>
              rw [Json.named] at named
              exact none.roomyFields (.field reached letter described type) fields named
          | null | false | true | number | string | array => rfl
termination_by structural value => value

end

/-- Every double takes eight bytes. -/
theorem length_wireItems_double (items : List Json) :
    (wireItems gprotos (.scalar .double) [] items).length = 8 * items.length := by
  induction items with
  | nil => rfl
  | cons item items ih =>
      rw [wireItems, List.length_append, ih, List.nil_append, wireValue, wireScalar,
        List.length_reverse, Codec.length_beBytes, List.length_cons]
      omega

/-- The fields leave room for the tag of a message around them. -/
theorem add_four_le_printValue {fields : List (CStr × Json)} {size : Nat}
    (empty : fields = [] → size = 0)
    (bound : size + 3 * fields.length ≤ 2 * (printFields (.ofString ",") fields).length) :
    size + 4 ≤ 2 * (printValue (.object fields)).length := by
  rw [length_printValue_object]
  rcases length_printFields_comma fields with ⟨none, nothing⟩ | comma
  · have zero := empty none
    omega
  · cases fields with
    | nil =>
        have zero := empty rfl
        omega
    | cons field fields =>
        rw [List.length_cons] at bound
        omega

mutual

/-- The fields of a roomy message are encoded in twice their letters. -/
theorem length_wireFields_le_printFields (wf : SchemaWF gprotos root)
    (short : ShortTags gprotos root) {protos : Json} (reached : Reaches gprotos root protos) :
    ∀ fields : List (CStr × Json), conformsFields limits gprotos protos fields →
      Json.fieldsNamed fields → roomyFields gprotos protos fields →
        (printFields (.ofString ",") fields).length < 2 ^ 30 →
          (wireFields gprotos protos fields).length + 3 * fields.length ≤
            2 * (printFields (.ofString ",") fields).length
  | [], _, _, _, _ => by
      rw [wireFields, List.length_nil]
      exact Nat.zero_le _
  | field :: fields, conforms, named, roomy, small => by
      rw [conformsFields, Bool.and_eq_true_iff, Bool.and_eq_true_iff] at conforms
      rw [Json.fieldsNamed, Bool.and_eq_true_iff] at named
      rw [roomyFields, Bool.and_eq_true_iff] at roomy
      rw [length_printFields_cons] at small ⊢
      rw [wireFields, List.length_append, List.length_cons]
      have first := length_wireField_le_printField wf short reached field conforms.1.1
        named.1 roomy.1 (by omega)
      have rest := length_wireFields_le_printFields wf short reached fields conforms.2
        named.2 roomy.2 (by omega)
      omega
termination_by structural fields => fields

theorem length_wireField_le_printField (wf : SchemaWF gprotos root)
    (short : ShortTags gprotos root) {protos : Json} (reached : Reaches gprotos root protos) :
    ∀ field : CStr × Json, conformsField limits gprotos protos field →
      Json.fieldNamed field → roomyField gprotos protos field →
        (printField field).length < 2 ^ 30 →
          (wireField gprotos protos field).length + 1 ≤ 2 * (printField field).length
  | (key, value), conforms, named, roomy, small => by
      rw [conformsField] at conforms
      rw [Json.fieldNamed, Bool.and_eq_true_iff, decide_eq_true_eq] at named
      rw [length_printField] at small ⊢
      rw [wireField]
      have letters := length_printStringPtr_le key
      have letter : 0 < key.length := List.length_pos_of_ne_nil named.1
      split at conforms
      · cases conforms
      next spec described =>
      rw [roomyField, described] at roomy
      dsimp only at roomy
      split at conforms
      · next repeated =>
          rw [if_pos repeated] at roomy
          have array := length_wireArray_le_printValue wf short reached described value conforms
            named.2 roomy (by omega)
          simp only [repeated, if_true]
          omega
      · next single =>
          rw [if_neg single] at roomy
          have tag := short.length_wireTag reached described
          have content := length_wireValue_le_printValue wf short reached described value conforms
            named.2 roomy (by omega)
          have excess : spec.type.excess ≤ 6 := by
            unfold FieldType.excess
            split <;> omega
          simp only [single, if_false, List.length_append]
          omega
termination_by structural field => field

theorem length_wireArray_le_printValue (wf : SchemaWF gprotos root)
    (short : ShortTags gprotos root) {protos : Json} {key : CStr} {spec : FieldSpec}
    (reached : Reaches gprotos root protos)
    (described : fieldSpec? gprotos protos key = some spec) :
    ∀ value : Json, conformsArray limits gprotos spec.type value → value.named →
      roomyArray gprotos spec.type value → (printValue value).length < 2 ^ 30 →
        (wireArray gprotos spec value).length ≤ 2 * (printValue value).length + 4
  | .array items, conforms, named, roomy, small => by
      have tag := short.length_wireTag reached described
      have count := Json.length_le_itemsTextSize items
      have text := itemsTextSize_le_printItems items
      have comma := length_printItems_comma items
      rw [conformsArray, Bool.and_eq_true_iff] at conforms
      rw [Json.named] at named
      rw [length_printValue_array] at small ⊢
      rw [wireArray]
      split
      · next packed =>
          have digits : (Codec.leb128 items.length).length ≤ 4 + 1 :=
            Codec.length_leb128_le (by omega)
          rw [List.length_append, List.length_append]
          cases type : spec.type with
          | message definition =>
              rw [type] at packed
              cases packed
          | scalar scalar =>
              by_cases double : scalar = .double
              · subst double
                rw [type, roomyArray, decide_eq_true_eq] at roomy
                have elements := @length_wireItems_double gprotos items
                omega
              · have excess : spec.type.excess ≤ 2 := by
                  rw [type]
                  cases scalar with
                  | double => exact absurd rfl double
                  | uInt32 | int32 | sInt32 | float | string => decide
                have roomy : roomyItems gprotos spec.type items := by
                  rw [type]
                  exact roomyItems_scalar scalar items
                have elements := length_wireItems_le_printItems wf short reached described []
                  (by rw [List.length_nil]; omega) items conforms.2 named roomy (by omega)
                rw [type] at elements
                omega
      · next unpacked =>
          have excess : spec.type.excess = 1 := by
            cases type : spec.type with
            | message definition => rfl
            | scalar scalar =>
                rw [type] at unpacked
                cases scalar with
                | string => rfl
                | uInt32 | int32 | sInt32 | float | double => exact absurd rfl unpacked
          have roomy : roomyItems gprotos spec.type items := by
            cases type : spec.type with
            | message definition =>
                rw [type] at roomy
                exact roomy
            | scalar scalar => exact roomyItems_scalar scalar items
          have elements := length_wireItems_le_printItems wf short reached described
            (wireTag spec) (by omega) items conforms.2 named roomy (by omega)
          omega
  | .null, conforms, _, _, _ | .false, conforms, _, _, _ | .true, conforms, _, _, _
  | .number _, conforms, _, _, _ | .string _, conforms, _, _, _
  | .object _, conforms, _, _, _ => by
      cases conforms
termination_by structural value => value

theorem length_wireItems_le_printItems (wf : SchemaWF gprotos root)
    (short : ShortTags gprotos root) {protos : Json} {key : CStr} {spec : FieldSpec}
    (reached : Reaches gprotos root protos)
    (described : fieldSpec? gprotos protos key = some spec) (lead : Bytes)
    (fits : lead.length + spec.type.excess ≤ 2) :
    ∀ items : List Json, conformsItems limits gprotos spec.type items → Json.itemsNamed items →
      roomyItems gprotos spec.type items →
        (printItems (.ofString ",") items).length < 2 ^ 30 →
          (wireItems gprotos spec.type lead items).length ≤
            2 * (printItems (.ofString ",") items).length
  | [], _, _, _, _ => by
      rw [wireItems, List.length_nil]
      exact Nat.zero_le _
  | item :: items, conforms, named, roomy, small => by
      rw [conformsItems, Bool.and_eq_true_iff] at conforms
      rw [Json.itemsNamed, Bool.and_eq_true_iff] at named
      rw [roomyItems, Bool.and_eq_true_iff] at roomy
      rw [length_printItems_cons] at small ⊢
      rw [wireItems, List.length_append, List.length_append]
      have first := length_wireValue_le_printValue wf short reached described item conforms.1
        named.1 roomy.1 (by omega)
      have rest := length_wireItems_le_printItems wf short reached described lead fits items
        conforms.2 named.2 roomy.2 (by omega)
      omega
termination_by structural items => items

theorem length_wireValue_le_printValue (wf : SchemaWF gprotos root)
    (short : ShortTags gprotos root) {protos : Json} {key : CStr} {spec : FieldSpec}
    (reached : Reaches gprotos root protos)
    (described : fieldSpec? gprotos protos key = some spec) :
    ∀ value : Json, conformsValue limits gprotos spec.type value → value.named →
      roomyValue gprotos spec.type value → (printValue value).length < 2 ^ 30 →
        (wireValue gprotos spec.type value).length ≤
          2 * (printValue value).length + spec.type.excess
  | value, conforms, named, roomy, small => by
      cases type : spec.type with
      | scalar scalar =>
          rw [type, conformsValue] at conforms
          rw [wireValue]
          exact length_wireScalar_le_printValue conforms small
      | message definition =>
          rw [type] at conforms roomy
          cases value with
          | object fields =>
              rw [conformsValue, Bool.and_eq_true_iff] at conforms
              rw [roomyValue] at roomy
              rw [Json.named] at named
              have comma := length_printFields_comma fields
              have size := length_printValue_object fields
              have inner := add_four_le_printValue (by rintro rfl; rw [wireFields]; rfl)
                (length_wireFields_le_printFields wf short (.field reached described type) fields
                  conforms.1 named roomy (by omega))
              have length := length_prefixed_le
                (show (wireFields gprotos definition fields).length < 2 ^ 35 by omega)
              rw [wireValue]
              change _ ≤ _ + 1
              omega
          | null | false | true | number | string | array => cases conforms
termination_by structural value => value

end

/-- The printer of `pc_JSON.c`, beside some parser. -/
def pcJSONText (parse : Bytes → Option (Json × Nat)) : JsonText where
  print item := some (printValue item)
  parse

/-- What is encoded in some buffer is encoded in one of twice the length of the
text, and `pc_body_pb_encode` returns it. -/
def EstimateSuffices (parse : Bytes → Option (Json × Nat)) (gprotos pbDef msg : Json) : Prop :=
  ∀ len stream, len < 2 ^ 64 → pcPbEncode len gprotos pbDef msg = (.ok (), stream) →
    ∃ buffer, pcPbEncode (2 * (printValue msg).length) gprotos pbDef msg = (.ok (), buffer) ∧
      buffer.state = stream.state ∧
        pcBodyPbEncode (pcJSONText parse) msg gprotos pbDef =
          .ok ⟨some stream.state, stream.state.length⟩

/-- A conforming message with names, whose doubled text has a length of type `int`. -/
structure Estimable (gprotos pbDef : Json) (fields : List (CStr × Json)) : Prop where
  conforms : conformsFields .unlimited gprotos pbDef fields
  named : Json.fieldsNamed fields
  short : (printValue (.object fields)).length < 2 ^ 30

variable {fields : List (CStr × Json)}

/-- A message within the estimate is counted without an overflow. -/
theorem Estimable.counted (estimable : Estimable gprotos root fields)
    (wf : SchemaWF gprotos root) :
    (wireFields gprotos root fields).length < 2 ^ 36 ∧
      conformsFields .counted gprotos root fields := by
  have text := textSize_le_printValue (.object fields)
  rw [Json.textSize] at text
  have short := estimable.short
  have wire := length_wireFields_le wf .root fields estimable.conforms (by omega)
  exact ⟨by omega, conformsFields_of_admits Limits.counted_admits fields estimable.conforms
    (by omega) (by omega)⟩

/-- The buffer of `pc_body_pb_encode` has twice the length of the text. -/
theorem pcBodyPbEncode_eq_pcPbEncode (parse : Bytes → Option (Json × Nat)) {msg : Json}
    (short : (printValue msg).length < 2 ^ 30) (gprotos pbDef : Json) :
    pcBodyPbEncode (pcJSONText parse) msg gprotos pbDef =
      match pcPbEncode (2 * (printValue msg).length) gprotos pbDef msg with
      | (.ok (), stream) => .ok ⟨some stream.state, toInt32 stream.bytesWritten⟩
      | (.error .refused, _) => .ok .failed
      | (.error stop, _) => .error stop := by
  have length : toInt32 (printValue msg).length = (printValue msg).length := by
    rw [toInt32]
    omega
  have size : toUInt64 (toInt32 ((printValue msg).length * pcPbEvalFactor)) =
      2 * (printValue msg).length := by
    rw [toUInt64, toInt32, pcPbEvalFactor]
    omega
  have text : pcBodyJsonEncode (pcJSONText parse) msg =
      ⟨some ((printValue msg).bytes ++ [0]), (printValue msg).length⟩ := by
    rw [pcBodyJsonEncode]
    simp only [pcJSONPrintUnformatted, pcJSONText, length]
  rw [pcBodyPbEncode, text]
  simp only
  rw [if_neg (by omega), size, pcLibMalloc, if_pos (by omega)]
  rcases pcPbEncode (2 * (printValue msg).length) gprotos pbDef msg with ⟨status | status, stream⟩
  · cases status <;> rfl
  · rfl

/-- Where the arrays of doubles leave room the estimate is enough. -/
theorem Estimable.estimateSuffices (estimable : Estimable gprotos root fields)
    (parse : Bytes → Option (Json × Nat)) (wf : SchemaWF gprotos root)
    (tags : ShortTags gprotos root) (roomy : roomyFields gprotos root fields) :
    EstimateSuffices parse gprotos root (.object fields) := by
  obtain ⟨small, counted⟩ := estimable.counted wf
  have short := estimable.short
  have length := length_printValue_object fields
  have comma := length_printFields_comma fields
  have fits := add_four_le_printValue (by rintro rfl; rw [wireFields]; rfl)
    (length_wireFields_le_printFields wf tags .root fields estimable.conforms
      estimable.named roomy (by omega))
  have encoded := @pcPbEncode_of_le _ _ _ Limits.counted_encodable wf _ counted
    (2 * (printValue (.object fields)).length) (by omega) (by omega)
  intro len stream bound accepted
  have room : (wireFields gprotos root fields).length ≤ len := by
    by_contra less
    have refused := pcPbEncode_of_lt Limits.counted_encodable wf counted (by omega)
      (Nat.lt_of_not_le less)
    rw [accepted] at refused
    cases refused
  rw [pcPbEncode_of_le Limits.counted_encodable wf counted bound room] at accepted
  obtain rfl := (Prod.mk.inj accepted).2
  refine ⟨_, encoded, rfl, ?_⟩
  have count : toInt32 ((wireFields gprotos root fields).length : Nat) =
      (wireFields gprotos root fields).length := by
    rw [toInt32]
    omega
  rw [pcBodyPbEncode_eq_pcPbEncode parse short, encoded]
  simp only [OStream.written, pbOStreamFromBuffer, List.nil_append, Nat.zero_add, count]

/-- A wire format of more than twice the text does not fit. -/
theorem Estimable.not_estimateSuffices (estimable : Estimable gprotos root fields)
    (parse : Bytes → Option (Json × Nat)) (wf : SchemaWF gprotos root)
    (long : 2 * (printValue (.object fields)).length < (wireFields gprotos root fields).length) :
    ¬ EstimateSuffices parse gprotos root (.object fields) := by
  obtain ⟨small, counted⟩ := estimable.counted wf
  have accepted := @pcPbEncode_of_le _ _ _ Limits.counted_encodable wf _ counted (2 ^ 36)
    (by decide) (by omega)
  have refused := pcPbEncode_of_lt Limits.counted_encodable wf counted (by omega) long
  intro enough
  obtain ⟨buffer, encoded, -⟩ := enough _ _ (by decide) accepted
  rw [encoded] at refused
  cases refused

/-- A message with one array of zeros. -/
def zeros (key : CStr) (count : Nat) : List (CStr × Json) :=
  [(key, .array (List.replicate count (.number 0)))]

/-- Zeros are printed as a letter and a comma each. -/
theorem length_printItems_zeros (count : Nat) :
    (printItems (.ofString ",") (List.replicate count (.number 0))).length = 2 * count := by
  have zero : (printNumber 0).length = 1 := by decide +kernel
  induction count with
  | zero => decide
  | succ count ih =>
      rw [List.replicate_succ, length_printItems_cons, ih, printValue, zero]
      omega

/-- An array of zeros is printed in two letters for each and a few more. -/
theorem length_printValue_zeros (key : CStr) (count : Nat) :
    (printValue (.object (zeros key count))).length ≤
      (printStringPtr key).length + 2 * count + 5 := by
  have items := length_printItems_zeros count
  have comma := length_printItems_comma (List.replicate count (.number 0))
  have fields := length_printFields_comma (zeros key count)
  have nothing : (CStr.ofString "").length = 0 := by decide
  rw [length_printValue_object, zeros, printFields, printFields, CStr.length_append,
    CStr.length_append, nothing, length_printField, length_printValue_array]
  rcases comma with ⟨none, empty⟩ | comma
  · obtain rfl : count = 0 := by
      have length := congrArg List.length none
      rwa [List.length_replicate] at length
    have shortest : (printItems (.ofString "") (List.replicate 0 (.number 0))).length = 0 := nothing
    omega
  · omega

/-- Zeros conform to an array of doubles. -/
theorem conformsItems_zeros (count : Nat) :
    conformsItems limits gprotos (.scalar .double) (List.replicate count (.number 0)) := by
  induction count with
  | zero => rfl
  | succ count ih =>
      rw [List.replicate_succ, conformsItems, Bool.and_eq_true_iff]
      exact ⟨rfl, ih⟩

theorem itemsNamed_zeros (count : Nat) :
    Json.itemsNamed (List.replicate count (.number 0)) := by
  induction count with
  | zero => rfl
  | succ count ih =>
      rw [List.replicate_succ, Json.itemsNamed, Bool.and_eq_true_iff]
      exact ⟨rfl, ih⟩

/-- A message of a definition within reach has a message of the root around it,
whose text is longer by the room for it at most. -/
theorem NamedReaches.wrap {size : Nat} {definition : Json}
    (reached : NamedReaches gprotos root size definition) :
    ∀ inner : List (CStr × Json), conformsFields .unlimited gprotos definition inner →
      Json.fieldsNamed inner →
        ∃ fields, conformsFields .unlimited gprotos root fields ∧ Json.fieldsNamed fields ∧
          (wireFields gprotos definition inner).length ≤ (wireFields gprotos root fields).length ∧
            (printValue (.object fields)).length ≤ (printValue (.object inner)).length + size := by
  induction reached with
  | root => exact fun inner conforms named => ⟨inner, conforms, named, Nat.le_refl _, Nat.le_refl _⟩
  | @field size protos key spec definition reached letter described type ih =>
      intro inner conforms named
      have nothing : (CStr.ofString "").length = 0 := by decide
      -- The message stands alone, or as the one element of an array.
      let value : Json := if spec.option = .repeated then .array [.object inner] else .object inner
      have object : conformsValue .unlimited gprotos spec.type (.object inner) := by
        rw [type, conformsValue, conforms]
        rfl
      have valueConforms : conformsField .unlimited gprotos protos (key, value) := by
        rw [conformsField, described]
        by_cases repeated : spec.option = .repeated
        · simp only [value, repeated, if_true, conformsArray, conformsItems, object, Bool.and_true]
          rfl
        · simp only [value, repeated, if_false, object]
      have valueNamed : value.named := by
        by_cases repeated : spec.option = .repeated
        · simp only [value, repeated, if_true, Json.named, Json.itemsNamed, named, Bool.and_true]
        · simp only [value, repeated, if_false, Json.named, named]
      have valueText : (printValue value).length ≤ (printValue (.object inner)).length + 2 := by
        by_cases repeated : spec.option = .repeated
        · simp only [value, repeated, if_true, length_printValue_array, printItems,
            CStr.length_append, nothing]
          omega
        · simp only [value, repeated, if_false]
          omega
      have valueWire : (wireFields gprotos definition inner).length ≤
          (wireField gprotos protos (key, value)).length := by
        have bytes : wireValue gprotos spec.type (.object inner) =
            prefixed (wireFields gprotos definition inner) := by rw [type, wireValue]
        have tagged : spec.type.packed = Bool.false := by rw [type]; rfl
        rw [wireField, described]
        by_cases repeated : spec.option = .repeated
        · simp only [value, repeated, if_true, wireArray, tagged, Bool.false_eq_true, if_false,
            wireItems, bytes, prefixed, List.length_append]
          omega
        · simp only [value, repeated, if_false, bytes, prefixed, List.length_append]
          omega
      obtain ⟨fields, outerConforms, outerNamed, wire, text⟩ := ih [(key, value)]
        (by
          rw [conformsFields, conformsFields, valueConforms]
          rfl)
        (by
          rw [Json.fieldsNamed, Json.fieldsNamed, Json.fieldNamed, valueNamed, decide_eq_true letter]
          rfl)
      refine ⟨fields, outerConforms, outerNamed, ?_, ?_⟩
      · rw [wireFields, wireFields, List.append_nil] at wire
        omega
      · have single := length_printValue_object [(key, value)]
        rw [printFields, printFields, CStr.length_append, CStr.length_append, nothing,
          length_printField] at single
        omega

/-- With an array of doubles within reach, some message is refused. -/
theorem DoubleArrayWithin.not_estimateSuffices {size : Nat}
    (array : DoubleArrayWithin gprotos root size) (within : size < 2 ^ 29)
    (parse : Bytes → Option (Json × Nat)) (wf : SchemaWF gprotos root) :
    ∃ fields, Estimable gprotos root fields ∧
      ¬ EstimateSuffices parse gprotos root (.object fields) := by
  obtain ⟨outer, protos, key, spec, reached, letter, described, repeated, type, rfl⟩ := array
  have conforms : conformsFields .unlimited gprotos protos (zeros key (2 ^ 28)) := by
    rw [zeros, conformsFields, conformsFields, conformsField, described]
    simp only [repeated, if_true, type, conformsArray, conformsItems_zeros, Bool.and_true]
    rfl
  have named : Json.fieldsNamed (zeros key (2 ^ 28)) := by
    rw [zeros, Json.fieldsNamed, Json.fieldsNamed, Json.fieldNamed, Json.named, itemsNamed_zeros,
      decide_eq_true letter]
    rfl
  have text := length_printValue_zeros key (2 ^ 28)
  have wire : 8 * 2 ^ 28 ≤ (wireFields gprotos protos (zeros key (2 ^ 28))).length := by
    rw [zeros, wireFields, wireFields, wireField, described]
    simp only [repeated, if_true, wireArray, type, FieldType.packed, List.length_append,
      length_wireItems_double, List.length_replicate]
    omega
  obtain ⟨fields, outerConforms, outerNamed, longer, around⟩ := reached.wrap _ conforms named
  have estimable : Estimable gprotos root fields := ⟨outerConforms, outerNamed, by omega⟩
  exact ⟨fields, estimable, estimable.not_estimateSuffices parse wf (by omega)⟩

/-- The estimate is enough for every message whose arrays of doubles have a text of four bytes
for each element, and so for every message where there are no such arrays. With one behind names
of fewer than 2^29 bytes it is not. -/
theorem estimateSuffices_of_noDoubleArrays (parse : Bytes → Option (Json × Nat))
    (wf : SchemaWF gprotos root) (tags : ShortTags gprotos root) :
    (∀ fields, Estimable gprotos root fields → roomyFields gprotos root fields →
        EstimateSuffices parse gprotos root (.object fields)) ∧
      (NoDoubleArrays gprotos root → ∀ fields, Estimable gprotos root fields →
        EstimateSuffices parse gprotos root (.object fields)) ∧
      ∀ size < 2 ^ 29, DoubleArrayWithin gprotos root size →
        ∃ fields, Estimable gprotos root fields ∧
          ¬ EstimateSuffices parse gprotos root (.object fields) := by
  refine ⟨fun fields estimable roomy => estimable.estimateSuffices parse wf tags roomy,
    fun none fields estimable => ?_, fun _ within array => array.not_estimateSuffices within parse wf⟩
  exact estimable.estimateSuffices parse wf tags (none.roomyFields .root fields estimable.named)

/-- The tag of the schema is short. -/
theorem shortTags_stringSchema : ShortTags (.object []) stringSchema := by
  intro protos reached key spec described
  obtain rfl := eq_root_of_reaches (fun _ _ _ => stringSchema_scalars) reached
  obtain ⟨free, proto, found⟩ := lookup_of_fieldSpec? described
  rcases stringSchema_fields free found with rfl | rfl
  · rw [stringSchema_name, Option.some.injEq] at described
    rw [← described]
    decide
  · rw [stringSchema_tags, Option.some.injEq] at described
    rw [← described]
    decide

/-- The schema has no array of doubles. -/
theorem noDoubleArrays_stringSchema : NoDoubleArrays (.object []) stringSchema := by
  rintro size ⟨outer, protos, key, spec, reached, -, described, -, type, -⟩
  obtain rfl := eq_root_of_reaches (fun _ _ _ => stringSchema_scalars) reached.reaches
  obtain ⟨free, proto, found⟩ := lookup_of_fieldSpec? described
  rcases stringSchema_fields free found with rfl | rfl
  · rw [stringSchema_name, Option.some.injEq] at described
    rw [← described] at type
    cases type
  · rw [stringSchema_tags, Option.some.injEq] at described
    rw [← described] at type
    cases type

/-- A message of one string. -/
def oneName : List (CStr × Json) := [(.ofString "name", .string (.ofString "pomelo"))]

/-- A definition with one array of doubles. -/
def doubleSchema : Json :=
  .object [(.ofString "__messages", .object []),
    (.ofString "__tags", .object [(.ofString "1", .string (.ofString "d"))]),
    (.ofString "d", fieldJson "repeated" "double" 1)]

theorem doubleSchema_fields {key : CStr} {proto : Json} (free : key ∉ reservedNames)
    (found : doubleSchema.lookup key = some proto) : key = .ofString "d" := by
  by_contra other
  have messages : key ≠ .ofString "__messages" := fun same => free (by rw [same]; decide)
  have tags : key ≠ .ofString "__tags" := fun same => free (by rw [same]; decide)
  simp [doubleSchema, Json.lookup, messages.symm, tags.symm, Ne.symm other] at found

theorem doubleSchema_d (gprotos : Json) : fieldSpec? gprotos doubleSchema (.ofString "d") =
    some ⟨.repeated, .scalar .double, 1⟩ := by
  rfl

theorem doubleSchema_spec {key : CStr} {spec : FieldSpec}
    (described : fieldSpec? gprotos doubleSchema key = some spec) :
    spec = ⟨.repeated, .scalar .double, 1⟩ := by
  obtain ⟨free, proto, found⟩ := lookup_of_fieldSpec? described
  obtain rfl := doubleSchema_fields free found
  rw [doubleSchema_d, Option.some.injEq] at described
  exact described.symm

theorem doubleSchema_scalars {key : CStr} {spec : FieldSpec} {definition : Json}
    (described : fieldSpec? gprotos doubleSchema key = some spec) :
    spec.type ≠ .message definition := by
  rw [doubleSchema_spec described]
  exact nofun

/-- A schema of one array of doubles. -/
theorem doubleSchema_wf (object : gprotos.isObject) : SchemaWF gprotos doubleSchema where
  object := object
  definitions := by
    intro protos reached
    obtain rfl := eq_root_of_reaches (fun _ _ _ => doubleSchema_scalars) reached
    refine ⟨rfl, ⟨_, rfl⟩, ⟨_, rfl⟩, fun key proto free found => ?_⟩
    obtain rfl := doubleSchema_fields free found
    exact ⟨_, doubleSchema_d gprotos, by decide, by decide, rfl⟩

theorem shortTags_doubleSchema : ShortTags (.object []) doubleSchema := by
  intro protos reached key spec described
  obtain rfl := eq_root_of_reaches (fun _ _ _ => doubleSchema_scalars) reached
  rw [doubleSchema_spec described]
  decide

/-- A message of one array of doubles. -/
def twoThousands : List (CStr × Json) :=
  [(.ofString "d", .array [.number (.ofInt 1000), .number (.ofInt (-2000))])]

/-- A name is not too long for the estimate, and neither are doubles of four letters. -/
theorem estimateSuffices_twoThousands :
    EstimateSuffices (fun _ => none) (.object []) stringSchema (.object oneName) ∧
      EstimateSuffices (fun _ => none) (.object []) doubleSchema (.object twoThousands) := by
  have strings := estimateSuffices_of_noDoubleArrays (fun _ => none) (stringSchema_wf rfl)
    shortTags_stringSchema
  have doubles := estimateSuffices_of_noDoubleArrays (fun _ => none) (doubleSchema_wf rfl)
    shortTags_doubleSchema
  exact ⟨strings.2.1 noDoubleArrays_stringSchema oneName
      ⟨by decide +kernel, by decide +kernel, by decide +kernel⟩,
    doubles.1 twoThousands ⟨by decide +kernel, by decide +kernel, by decide +kernel⟩
      (by decide +kernel)⟩

/-- The array of four zeros is within the range of the estimate. -/
theorem estimable_zeros : Estimable (.object []) doubleSchema (zeros (.ofString "d") 4) :=
  ⟨by decide +kernel, by decide +kernel, by decide +kernel⟩

/-- Four zeros take 34 bytes on the wire, and fifteen in the text. -/
theorem estimate_fails_zeros :
    let msg : Json := .object (zeros (.ofString "d") 4)
    SchemaWF (.object []) doubleSchema ∧ ShortTags (.object []) doubleSchema ∧
      Estimable (.object []) doubleSchema (zeros (.ofString "d") 4) ∧
        ¬ EstimateSuffices (fun _ => none) (.object []) doubleSchema msg ∧
          (pcPbEncode 34 (.object []) doubleSchema msg).1 = .ok () ∧
            pcBodyPbEncode (pcJSONText fun _ => none) msg (.object []) doubleSchema =
              .ok .failed :=
  ⟨doubleSchema_wf rfl, shortTags_doubleSchema, estimable_zeros,
    estimable_zeros.not_estimateSuffices _ (doubleSchema_wf rfl) (by decide +kernel),
    by decide +kernel, by decide +kernel⟩

end Pomelo
