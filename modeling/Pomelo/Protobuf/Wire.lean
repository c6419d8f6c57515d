import Pomelo.Protobuf.Types
import Pomelo.Codec.BigEndian
import Pomelo.Codec.Base128

/-!
# What a message means on the wire

The format that `pb_encode.c` and `pb_decode.c` share, apart from both walks.
`fieldSpec?` reads the description of a field out of a definition;
`wireFields` gives the bytes of a message, and `normalFields` the message that
these bytes are read back as. All three are plain functions of the schema and
the message, defined for every JSON tree.
-/

namespace Pomelo

/-- The options a field may have. -/
inductive FieldOption where
  | required
  | optional
  | repeated
  deriving DecidableEq, Repr

def FieldOption.ofText? (text : CStr) : Option FieldOption :=
  if text = .ofString "required" then some .required
  else if text = .ofString "optional" then some .optional
  else if text = .ofString "repeated" then some .repeated
  else none

/-- The type of a field, with the definition a message type stands for. -/
inductive FieldType where
  | scalar (type : PbType)
  | message (definition : Json)

/-- What a definition says about a field. -/
structure FieldSpec where
  option : FieldOption
  type : FieldType
  tag : Nat

namespace FieldType

def wireType : FieldType → Nat
  | .scalar .uInt32 | .scalar .int32 | .scalar .sInt32 => 0
  | .scalar .double => 1
  | .scalar .float => 5
  | .scalar .string | .message _ => 2

def packed : FieldType → Bool
  | .scalar .string | .message _ => false
  | .scalar _ => true

/-- A wire type has three bits. -/
theorem wireType_lt (type : FieldType) : type.wireType < 8 := by
  cases type with
  | scalar type => cases type <;> decide
  | message definition => exact (by decide : 2 < 8)

end FieldType

/-- The names that a definition uses for its own tables. -/
def reservedNames : List CStr := [.ofString "__messages", .ofString "__tags"]

/-- The type behind a type name: a scalar type, else one of the definition's
messages, else a root message. -/
def fieldType? (gprotos protos : Json) (typeText : CStr) : Option FieldType :=
  match pbGetType typeText with
  | some type => some (.scalar type)
  | none => do
      let messages ← protos.lookup (.ofString "__messages")
      let definition ← (messages.lookup typeText).or
        (gprotos.lookup ((CStr.ofString "message ").append typeText))
      return .message definition

/-- The description of a field, if the definition has a complete one. -/
def fieldSpec? (gprotos protos : Json) (key : CStr) : Option FieldSpec :=
  if key ∈ reservedNames then none
  else do
    let proto ← protos.lookup key
    let optionText ← (← proto.lookup (.ofString "option")).valuestring
    let option ← FieldOption.ofText? optionText
    let typeText ← (← proto.lookup (.ofString "type")).valuestring
    let type ← fieldType? gprotos protos typeText
    let tag ← proto.lookup (.ofString "tag")
    return { option, type, tag := tag.valueint.toNat }

/-- The zig-zag numbering of the integers. -/
def zigzag (value : Int) : Nat := if value < 0 then (-2 * value - 1).toNat else (2 * value).toNat

/-- The tag in front of a field. -/
def wireTag (spec : FieldSpec) : Bytes := Codec.leb128 (spec.tag * 8 + spec.type.wireType)

/-- Bytes behind their number. -/
def prefixed (bytes : Bytes) : Bytes := Codec.leb128 bytes.length ++ bytes

def wireScalar (type : PbType) (value : Json) : Bytes :=
  match type with
  | .uInt32 => Codec.leb128 value.valueint.toNat
  | .int32 | .sInt32 => Codec.leb128 (zigzag value.valueint)
  | .float => (Codec.beBytes 4 value.valuedouble.toSingle.toNat).reverse
  | .double => (Codec.beBytes 8 value.valuedouble.toNat).reverse
  | .string => prefixed ((value.valuestring.map CStr.bytes).getD [])

mutual

/-- The bytes of the fields of a message. -/
def wireFields (gprotos protos : Json) : List (CStr × Json) → Bytes
  | [] => []
  | field :: fields => wireField gprotos protos field ++ wireFields gprotos protos fields
termination_by structural fields => fields

def wireField (gprotos protos : Json) : CStr × Json → Bytes
  | (key, value) =>
      match fieldSpec? gprotos protos key with
      | none => []
      | some spec =>
          if spec.option = .repeated then wireArray gprotos spec value
          else wireTag spec ++ wireValue gprotos spec.type value
termination_by structural field => field

def wireArray (gprotos : Json) (spec : FieldSpec) : Json → Bytes
  | .array items =>
      if spec.type.packed then
        wireTag spec ++ (Codec.leb128 items.length ++ wireItems gprotos spec.type [] items)
      else wireItems gprotos spec.type (wireTag spec) items
  | _ => []
termination_by structural value => value

/-- The bytes of the elements of an array, each behind some leading bytes. -/
def wireItems (gprotos : Json) (type : FieldType) (lead : Bytes) : List Json → Bytes
  | [] => []
  | item :: items => lead ++ wireValue gprotos type item ++ wireItems gprotos type lead items
termination_by structural items => items

def wireValue (gprotos : Json) (type : FieldType) (value : Json) : Bytes :=
  match type, value with
  | .message definition, .object fields => prefixed (wireFields gprotos definition fields)
  | .message _, _ => prefixed []
  | .scalar type, value => wireScalar type value
termination_by structural value

end

mutual

/-- A message without its empty arrays of strings or messages, at every level. -/
def normalFields (gprotos protos : Json) : List (CStr × Json) → List (CStr × Json)
  | [] => []
  | field :: fields => normalField gprotos protos field ++ normalFields gprotos protos fields
termination_by structural fields => fields

def normalField (gprotos protos : Json) : CStr × Json → List (CStr × Json)
  | (key, value) =>
      match fieldSpec? gprotos protos key with
      | none => []
      | some spec =>
          if spec.option = .repeated then
            (normalArray gprotos spec.type value).map fun value => (key, value)
          else [(key, normalValue gprotos spec.type value)]
termination_by structural field => field

def normalArray (gprotos : Json) (type : FieldType) : Json → List Json
  | .array items =>
      if items = [] ∧ ¬ type.packed then [] else [.array (normalItems gprotos type items)]
  | _ => []
termination_by structural value => value

def normalItems (gprotos : Json) (type : FieldType) : List Json → List Json
  | [] => []
  | item :: items => normalValue gprotos type item :: normalItems gprotos type items
termination_by structural items => items

def normalValue (gprotos : Json) (type : FieldType) (value : Json) : Json :=
  match type, value with
  | .message definition, .object fields => .object (normalFields gprotos definition fields)
  | _, value => value
termination_by structural value

end

@[simp] theorem normalValue_scalar (gprotos : Json) (type : PbType) (value : Json) :
    normalValue gprotos (.scalar type) value = value := by
  cases value <;> rfl

/-- A definition whose tables are there, and whose fields are described and
found again by their numbers. -/
structure DefinitionWF (gprotos protos : Json) : Prop where
  object : protos.isObject
  messages : ∃ entries, protos.lookup (.ofString "__messages") = some (.object entries)
  tags : ∃ entries, protos.lookup (.ofString "__tags") = some (.object entries)
  fields : ∀ key proto, key ∉ reservedNames → protos.lookup key = some proto →
    ∃ spec, fieldSpec? gprotos protos key = some spec ∧ 1 ≤ spec.tag ∧ spec.tag < 2 ^ 29 ∧
      ((protos.lookup (.ofString "__tags")).bind fun tags => tags.lookup (.decimal spec.tag)) =
        some (.string key)

/-- The definitions that the fields of a definition lead to. -/
inductive Reaches (gprotos root : Json) : Json → Prop where
  | root : Reaches gprotos root root
  | field {protos : Json} {key : CStr} {spec : FieldSpec} {definition : Json}
      (reached : Reaches gprotos root protos)
      (described : fieldSpec? gprotos protos key = some spec)
      (type : spec.type = .message definition) : Reaches gprotos root definition

/-- Every definition of the schema is well formed. -/
structure SchemaWF (gprotos root : Json) : Prop where
  object : gprotos.isObject
  definitions : ∀ protos, Reaches gprotos root protos → DefinitionWF gprotos protos

/-- Bounds on the sizes in a message: the bytes of a string, the elements of an
array, and the bytes of a submessage on the wire. -/
structure Limits where
  string : Option Nat
  array : Option Nat
  message : Option Nat

def Limits.unlimited : Limits := ⟨none, none, none⟩

/-- The sizes that keep their value in the code: the first two pass through an
`int`, and the last is read as a `uint32_t`. -/
def Limits.machine : Limits := ⟨some (2 ^ 31), some (2 ^ 31), some (2 ^ 32)⟩

/-- A size is within a bound. -/
def within (size : Nat) : Option Nat → Bool
  | none => true
  | some bound => size < bound

/-- Sizes that keep their value in the encoder, which counts submessages in a
`size_t`. -/
structure Limits.Encodable (limits : Limits) : Prop where
  string : ∀ size, within size limits.string → size < 2 ^ 31
  array : ∀ size, within size limits.array → size < 2 ^ 31
  message : ∀ size, within size limits.message → size < 2 ^ 64

/-- What is encodable on the machine. -/
theorem Limits.machine_encodable : Limits.machine.Encodable where
  string _ small := of_decide_eq_true small
  array _ small := of_decide_eq_true small
  message _ small := Nat.lt_trans (of_decide_eq_true small) (by decide)

/-- A value of a scalar type. A number stands for an integer when it is the
conversion of one, and for a `float` when the conversion to `float` keeps it. -/
def conformsScalar (limits : Limits) (type : PbType) (value : Json) : Bool :=
  match type, value with
  | .uInt32, .number valuedouble =>
      valuedouble = .ofInt valuedouble.toCInt && 0 ≤ valuedouble.toCInt
  | .int32, .number valuedouble | .sInt32, .number valuedouble =>
      valuedouble = .ofInt valuedouble.toCInt
  | .float, .number valuedouble => valuedouble.toSingle.toDouble = valuedouble
  | .double, .number _ => true
  | .string, .string text => within text.bytes.length limits.string
  | _, _ => false

mutual

/-- The fields of a message that conforms to a definition: distinct known keys
with values of their types, all sizes within the limits. -/
def conformsFields (limits : Limits) (gprotos protos : Json) : List (CStr × Json) → Bool
  | [] => true
  | field :: fields =>
      conformsField limits gprotos protos field && field.1 ∉ fields.map Prod.fst &&
        conformsFields limits gprotos protos fields
termination_by structural fields => fields

def conformsField (limits : Limits) (gprotos protos : Json) : CStr × Json → Bool
  | (key, value) =>
      match fieldSpec? gprotos protos key with
      | none => false
      | some spec =>
          if spec.option = .repeated then conformsArray limits gprotos spec.type value
          else conformsValue limits gprotos spec.type value
termination_by structural field => field

def conformsArray (limits : Limits) (gprotos : Json) (type : FieldType) : Json → Bool
  | .array items => within items.length limits.array && conformsItems limits gprotos type items
  | _ => false
termination_by structural value => value

def conformsItems (limits : Limits) (gprotos : Json) (type : FieldType) : List Json → Bool
  | [] => true
  | item :: items =>
      conformsValue limits gprotos type item && conformsItems limits gprotos type items
termination_by structural items => items

def conformsValue (limits : Limits) (gprotos : Json) (type : FieldType) (value : Json) : Bool :=
  match type, value with
  | .message definition, .object fields =>
      conformsFields limits gprotos definition fields &&
        within (wireFields gprotos definition fields).length limits.message
  | .message _, _ => false
  | .scalar type, value => conformsScalar limits type value
termination_by structural value

end

theorem pcJSONGetObjectItem_of_isObject {object : Json} (isObject : object.isObject) (key : CStr) :
    pcJSONGetObjectItem object key = .ok (object.lookup key) := by
  cases object with
  | object fields => rfl
  | null | false | true | number | string | array => cases isObject

/-- What has a field is an object. -/
theorem Json.isObject_of_lookup {object value : Json} {key : CStr}
    (found : object.lookup key = some value) : object.isObject := by
  cases object with
  | object fields => rfl
  | null | false | true | number | string | array => cases found

/-- A field that is described stands in the definition, under a name of its own. -/
theorem lookup_of_fieldSpec? {gprotos protos : Json} {key : CStr} {spec : FieldSpec}
    (described : fieldSpec? gprotos protos key = some spec) :
    key ∉ reservedNames ∧ ∃ proto, protos.lookup key = some proto := by
  unfold fieldSpec? at described
  split at described
  · cases described
  · next free =>
      simp only [Option.bind_eq_bind, Option.bind_eq_some_iff] at described
      obtain ⟨proto, found, -⟩ := described
      exact ⟨free, proto, found⟩

/-- The number of a field has 29 bits. -/
theorem SchemaWF.number_of_fieldSpec? {gprotos root protos : Json} {key : CStr} {spec : FieldSpec}
    (wf : SchemaWF gprotos root) (reached : Reaches gprotos root protos)
    (described : fieldSpec? gprotos protos key = some spec) :
    1 ≤ spec.tag ∧ spec.tag < 2 ^ 29 ∧
      ((protos.lookup (.ofString "__tags")).bind fun tags => tags.lookup (.decimal spec.tag)) =
        some (.string key) := by
  obtain ⟨free, proto, found⟩ := lookup_of_fieldSpec? described
  obtain ⟨other, same, numbered⟩ := (wf.definitions protos reached).fields key proto free found
  rw [described] at same
  obtain rfl := Option.some.inj same
  exact numbered

/-- The two comparisons that both walks make with the text of an option. -/
theorem FieldOption.ofText?_cases {text : CStr} {option : FieldOption}
    (known : FieldOption.ofText? text = some option) :
    (option = .repeated ∧ text = .ofString "repeated" ∧
        ¬ (text = .ofString "required" ∨ text = .ofString "optional")) ∨
      option ≠ .repeated ∧ (text = .ofString "required" ∨ text = .ofString "optional") := by
  unfold FieldOption.ofText? at known
  split_ifs at known with required optional repeated <;> obtain rfl := Option.some.inj known
  · exact Or.inr ⟨by decide, Or.inl required⟩
  · exact Or.inr ⟨by decide, Or.inr optional⟩
  · exact Or.inl ⟨rfl, repeated, by simp only [required, optional, or_self, not_false_eq_true]⟩

/-- What both walks look up to resolve the type of a field. -/
inductive TypeIs (gprotos protos : Json) (text : CStr) : FieldType → Prop where
  | scalar {type : PbType} {messages : Option Json}
      (tables : pcJSONGetObjectItem protos (.ofString "__messages") = .ok messages)
      (known : pbGetType text = some type) : TypeIs gprotos protos text (.scalar type)
  | message {messages definition : Json}
      (tables : pcJSONGetObjectItem protos (.ofString "__messages") = .ok (some messages))
      (unknown : pbGetType text = none)
      (resolved : pbFindMessage gprotos messages text = .ok (some definition)) :
      TypeIs gprotos protos text (.message definition)

/-- The wire type in the tag is that of the type. -/
theorem pbGetConstantType_of_typeIs {gprotos protos : Json} {text : CStr} {type : FieldType}
    (typed : TypeIs gprotos protos text type) : pbGetConstantType text = type.wireType := by
  cases typed with
  | scalar tables known =>
      unfold pbGetType at known
      split_ifs at known <;> cases known <;> subst text <;> decide
  | message tables unknown resolved =>
      unfold pbGetType at unknown
      split_ifs at unknown with uInt32 int32 sInt32 float double string
      simp only [pbGetConstantType, uInt32, int32, sInt32, float, double, string, or_self, ↓reduceIte]
      rfl

/-- A type is packed if the code packs it. -/
theorem pbIsPacked_of_typeIs {gprotos protos : Json} {text : CStr} {type : FieldType}
    (typed : TypeIs gprotos protos text type) : pbIsPacked text = type.packed := by
  cases typed with
  | @scalar type _ tables known =>
      rw [pbIsPacked, known]
      cases type <;> rfl
  | message tables unknown resolved =>
      rw [pbIsPacked, unknown]
      rfl

/-- What both walks look up in the description of a field. -/
structure FieldIs (gprotos protos proto : Json) (spec : FieldSpec) : Prop where
  option : ∃ text, pbMemberText proto "option" = .ok text ∧
    FieldOption.ofText? text = some spec.option
  type : ∃ text, pbMemberText proto "type" = .ok text ∧ TypeIs gprotos protos text spec.type
  tag : ∃ node, pcJSONGetObjectItem proto (.ofString "tag") = .ok (some node) ∧
    node.valueint.toNat = spec.tag

/-- A text that a definition has is read. -/
theorem pbMemberText_of_lookup {proto node : Json} {name : String} {text : CStr}
    (found : proto.lookup (.ofString name) = some node) (string : node.valuestring = some text) :
    pbMemberText proto name = .ok text := by
  rw [pbMemberText, pcJSONGetObjectItem_of_isObject (Json.isObject_of_lookup found), found]
  change deref node.valuestring = _
  rw [string, deref_some]

/-- A message is found among the definitions of the root, or those around. -/
theorem pbFindMessage_of_isObject {gprotos messages : Json} {text : CStr}
    (roots : gprotos.isObject) (tables : messages.isObject) :
    pbFindMessage gprotos messages text = .ok ((messages.lookup text).or
      (gprotos.lookup ((CStr.ofString "message ").append text))) := by
  rw [pbFindMessage, pcJSONGetObjectItem_of_isObject tables]
  rw [Stop.ok_bind]
  cases messages.lookup text with
  | some subMsg => rfl
  | none => exact pcJSONGetObjectItem_of_isObject roots _

/-- A type that is described is what the code takes it for. -/
theorem typeIs_of_fieldType? {gprotos protos : Json} {text : CStr} {type : FieldType}
    (roots : gprotos.isObject) (wf : DefinitionWF gprotos protos)
    (typed : fieldType? gprotos protos text = some type) : TypeIs gprotos protos text type := by
  have tables := pcJSONGetObjectItem_of_isObject wf.object (.ofString "__messages")
  obtain ⟨entries, messages⟩ := wf.messages
  rw [messages] at tables
  unfold fieldType? at typed
  split at typed
  · next known =>
      obtain rfl := Option.some.inj typed
      exact .scalar tables known
  · next unknown =>
      simp only [messages, Option.bind_eq_bind, Option.bind_some, Option.bind_eq_some_iff] at typed
      obtain ⟨definition, resolved, same⟩ := typed
      obtain rfl := Option.some.inj same
      refine .message tables unknown ?_
      rw [pbFindMessage_of_isObject roots rfl, resolved]

/-- The description of a field is what the walks find under its key. -/
theorem fieldIs_of_fieldSpec? {gprotos protos : Json} {key : CStr} {spec : FieldSpec}
    (roots : gprotos.isObject) (wf : DefinitionWF gprotos protos)
    (described : fieldSpec? gprotos protos key = some spec) :
    ∃ proto, pcJSONGetObjectItem protos key = .ok (some proto) ∧
      FieldIs gprotos protos proto spec := by
  unfold fieldSpec? at described
  split at described
  · cases described
  · simp only [Option.bind_eq_bind, Option.bind_eq_some_iff] at described
    obtain ⟨proto, found, optionNode, optionFound, optionText, optionString, option, optionKnown,
      typeNode, typeFound, typeText, typeString, type, typed, tagNode, tagFound, same⟩ := described
    obtain rfl := Option.some.inj same
    have members := Json.isObject_of_lookup tagFound
    refine ⟨proto, (pcJSONGetObjectItem_of_isObject wf.object key).trans (by rw [found]), ?_, ?_, ?_⟩
    · exact ⟨optionText, pbMemberText_of_lookup optionFound optionString, optionKnown⟩
    · exact ⟨typeText, pbMemberText_of_lookup typeFound typeString, typeIs_of_fieldType? roots wf typed⟩
    · exact ⟨tagNode, (pcJSONGetObjectItem_of_isObject members _).trans (by rw [tagFound]), rfl⟩

end Pomelo
