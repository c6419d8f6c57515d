import Pomelo.Protobuf.AnyMessage
import Mathlib.Data.List.Forall2

/-!
# Unsigned numbers

A number of a field of type `uInt32` passes through the `int` that `valueint` is, is
converted to `uint64_t` with its sign, and read back without it. Every other part of a
message is read back as it is (`Carried`), so that each number can be followed along the
path to its position.
-/

namespace Pomelo

/-- A step into a JSON tree. -/
inductive JsonStep where
  | field (key : CStr)
  | item (index : Nat)

/-- The node at the end of a path. -/
def Json.at? : Json → List JsonStep → Option Json
  | value, [] => some value
  | value, .field key :: path => (value.lookup key).bind fun value => value.at? path
  | .array items, .item index :: path => items[index]?.bind fun item => item.at? path
  | _, .item _ :: _ => none

/-- The positions of type `uInt32` in the values of a type. -/
inductive UnsignedAt (gprotos : Json) : FieldType → List JsonStep → Prop where
  | here : UnsignedAt gprotos (.scalar .uInt32) []
  | single {protos : Json} {key : CStr} {spec : FieldSpec} {path : List JsonStep}
      (described : fieldSpec? gprotos protos key = some spec) (single : spec.option ≠ .repeated)
      (below : UnsignedAt gprotos spec.type path) :
      UnsignedAt gprotos (.message protos) (.field key :: path)
  | element {protos : Json} {key : CStr} {spec : FieldSpec} {index : Nat} {path : List JsonStep}
      (described : fieldSpec? gprotos protos key = some spec) (repeated : spec.option = .repeated)
      (below : UnsignedAt gprotos spec.type path) :
      UnsignedAt gprotos (.message protos) (.field key :: .item index :: path)

/-- A value of a scalar type, with the whole range of the unsigned type. -/
def plainScalar (type : PbType) (value : Json) : Prop :=
  match type with
  | .uInt32 => ∃ number : Nat, number < 2 ^ 32 ∧ value = .number (.ofInt number)
  | type => conformsScalar .machine type value

mutual

/-- The fields of a message that conforms to a definition, whatever its unsigned numbers are. -/
def plainFields (gprotos protos : Json) : List (CStr × Json) → Prop
  | [] => True
  | field :: fields => plainField gprotos protos field ∧ field.1 ∉ fields.map Prod.fst ∧
      plainFields gprotos protos fields
termination_by structural fields => fields

def plainField (gprotos protos : Json) : CStr × Json → Prop
  | (key, value) =>
      match fieldSpec? gprotos protos key with
      | none => False
      | some spec =>
          if spec.option = .repeated then plainArray gprotos spec.type value
          else plainValue gprotos spec.type value
termination_by structural field => field

def plainArray (gprotos : Json) (type : FieldType) : Json → Prop
  | .array items => items.length < 2 ^ 31 ∧ plainItems gprotos type items
  | _ => False
termination_by structural value => value

def plainItems (gprotos : Json) (type : FieldType) : List Json → Prop
  | [] => True
  | item :: items => plainValue gprotos type item ∧ plainItems gprotos type items
termination_by structural items => items

def plainValue (gprotos : Json) (type : FieldType) (value : Json) : Prop :=
  match type, value with
  | .message definition, .object fields => plainFields gprotos definition fields
  | .message _, _ => False
  | .scalar type, value => plainScalar type value
termination_by structural value

end

/-- What is read back of an unsigned number. -/
def carriedNumber (value : Json) : Json := .number (.ofInt (toUInt64 value.valueint))

/-- What is read back of a value of a scalar type. -/
def carriedScalar (type : PbType) (value : Json) : Json :=
  match type with
  | .uInt32 => carriedNumber value
  | _ => value

variable {gprotos root protos proto : Json}

/-- A value is written as some bytes, which are read as another value, in which each
unsigned number stands where it stood. -/
structure Carried (gprotos protos proto : Json) (type : FieldType) (value : Json) (bytes : Bytes)
    (result : Json) : Prop where
  emits : Emits (pbEncodeProto gprotos protos proto value fun subMsg =>
    pbEncode gprotos subMsg value) bytes
  length : bytes.length ≤ 10 + value.content
  reads : bytes.length < 2 ^ 32 → ∀ fuel, bytes.length ≤ fuel →
    Reads (decodeNode (pbDecode gprotos fuel) type) bytes result
  follows : ∀ path number, UnsignedAt gprotos type path → value.at? path = some number →
    result.at? path = some (carriedNumber number)

/-- The same of a field, which may be gone when it is an empty array. -/
structure CarriedField (gprotos protos : Json) (field : CStr × Json) (bytes : Bytes)
    (out : Option Json) : Prop where
  emits : Emits (pbEncodeField gprotos protos field) bytes
  length : bytes.length ≤ contentField field
  steps : bytes.length < 2 ^ 32 → ∀ before : List (CStr × Json), field.1 ∉ before.map Prod.fst →
    Steps gprotos protos bytes before (before ++ out.toList.map fun value => (field.1, value))
  follows : ∀ path number, UnsignedAt gprotos (.message protos) (.field field.1 :: path) →
    field.2.at? path = some number →
      ∃ kept, out = some kept ∧ kept.at? path = some (carriedNumber number)

/-- The same of the fields of a message. -/
structure CarriedFields (gprotos protos : Json) (fields : List (CStr × Json)) (bytes : Bytes)
    (out : List (CStr × Json)) : Prop where
  emits : Emits (pbEncodeFields gprotos protos fields) bytes
  length : bytes.length ≤ contentFields fields
  keys : ∀ field ∈ out, field.1 ∈ fields.map Prod.fst
  steps : bytes.length < 2 ^ 32 → ∀ before : List (CStr × Json),
    (∀ field ∈ fields, field.1 ∉ before.map Prod.fst) →
      Steps gprotos protos bytes before (before ++ out)
  follows : ∀ path number, UnsignedAt gprotos (.message protos) path →
    (Json.object fields).at? path = some number →
      (Json.object out).at? path = some (carriedNumber number)

/-- The empty path leads to the value itself. -/
theorem Json.at?_nil (value : Json) : value.at? [] = some value := by
  cases value <;> rfl

/-- A plain scalar takes ten bytes and its content at most. -/
theorem anyScalar_length {type : PbType} {value : Json} (plain : plainScalar type value) :
    (anyScalar type value).length ≤ 10 + value.content := by
  by_cases string : type = .string
  · subst string
    cases value with
    | string text =>
        have short : text.bytes.length < 2 ^ 31 := of_decide_eq_true plain
        have digits : (Codec.leb128 text.bytes.length).length ≤ 10 :=
          Codec.length_leb128_le (show text.bytes.length < 128 ^ (9 + 1) by omega)
        change (Codec.leb128 text.bytes.length ++ text.bytes).length ≤ 10 + text.bytes.length
        rw [List.length_append]
        exact Nat.add_le_add digits (Nat.le_refl _)
    | null | false | true | number | array | object => cases plain
  · exact (Walks.number string value).2.trans (Nat.le_add_right ..)

/-- A scalar is carried as it is, or as the number that the decoder makes of it. -/
theorem carried_scalar {spec : FieldSpec} {type : PbType} {value : Json}
    (field : FieldIs gprotos protos proto spec) (scalar : spec.type = .scalar type)
    (plain : plainScalar type value) :
    Carried gprotos protos proto spec.type value (anyScalar type value)
      (carriedScalar type value) where
  emits := by
    obtain ⟨text, textFound, typed⟩ := field.type
    rw [pbEncodeProto]
    refine Emits.liftM_bind textFound ?_
    rw [scalar] at typed
    cases typed with
    | scalar tables known =>
        refine Emits.liftM_bind tables ?_
        rw [known]
        cases type with
        | uInt32 => exact Emits.varint (toUInt64_lt _)
        | int32 | sInt32 | float | double | string =>
            exact Emits.scalar Limits.machine_encodable plain
  length := anyScalar_length plain
  reads _ fuel _ := by
    rw [scalar, decodeNode]
    cases type with
    | uInt32 => exact (Reads.varint (toUInt64_lt _)).bind_pure rfl
    | int32 | sInt32 | float | double | string => exact Reads.scalar plain
  follows path number position here := by
    rw [scalar] at position
    cases position with
    | here =>
        rw [Json.at?_nil] at here ⊢
        obtain rfl := Option.some.inj here
        rfl

/-- A message is carried as its fields are. -/
theorem carried_message {spec : FieldSpec} {definition : Json} {fields out : List (CStr × Json)}
    {body : Bytes} (field : FieldIs gprotos protos proto spec)
    (message : spec.type = .message definition) (small : contentFields fields < 2 ^ 63)
    (carried : CarriedFields gprotos definition fields body out) :
    Carried gprotos protos proto spec.type (.object fields) (prefixed body) (.object out) where
  emits := by
    obtain ⟨text, textFound, typed⟩ := field.type
    have bound := carried.length
    rw [pbEncodeProto]
    refine Emits.liftM_bind textFound ?_
    rw [message] at typed
    cases typed with
    | message tables unknown resolved =>
        refine Emits.liftM_bind tables ?_
        rw [unknown]
        refine Emits.liftM_bind resolved ?_
        refine Emits.submessage ?_ (by omega)
        rw [pbEncode]
        exact carried.emits
  length := by
    have bound := carried.length
    have digits : (Codec.leb128 body.length).length ≤ 10 :=
      Codec.length_leb128_le (show body.length < 128 ^ (9 + 1) by omega)
    rw [prefixed, List.length_append, Json.content]
    exact Nat.add_le_add digits bound
  reads short fuel enough := by
    rw [prefixed, List.length_append] at short enough
    rw [message, decodeNode]
    refine Reads.submessage (by omega) fun rest => ?_
    obtain ⟨remaining, -, run⟩ := carried.steps (by omega) [] (fun _ _ => List.not_mem_nil) fuel
      rest 0 (by omega)
    rw [Nat.add_zero] at run
    rw [run, List.nil_append, pbDecode_done]
  follows path number position here := by
    rw [message] at position
    exact carried.follows path number position here

/-- A single field is carried with its tag. -/
theorem carriedField_single {spec : FieldSpec} {key : CStr} {value result : Json} {bytes : Bytes}
    (wf : SchemaWF gprotos root) (reached : Reaches gprotos root protos)
    (described : fieldSpec? gprotos protos key = some spec) (single : spec.option ≠ .repeated)
    (found : pcJSONGetObjectItem protos key = .ok (some proto))
    (field : FieldIs gprotos protos proto spec)
    (carried : Carried gprotos protos proto spec.type value bytes result) :
    CarriedField gprotos protos (key, value) (wireTag spec ++ bytes) (some result) := by
  obtain ⟨low, high, -⟩ := wf.number_of_fieldSpec? reached described
  obtain ⟨text, textFound, option⟩ := field.option
  refine ⟨?_, ?_, fun short before free => ?_, fun path number position here => ?_⟩
  · rw [pbEncodeField]
    refine Emits.liftM_bind found (Emits.liftM_bind textFound ?_)
    rcases FieldOption.ofText?_cases option with ⟨repeated, -, -⟩ | ⟨-, known⟩
    · exact absurd repeated single
    · rw [if_pos known]
      exact (pbEncodeTagForField_emits field low high).bind carried.emits
  · have bound := carried.length
    have tag := wireTag_length high
    rw [contentField, List.length_append]
    omega
  · rw [List.length_append] at short
    refine Steps.pass low high fun fuel enough => ?_
    exact pbDecodeField_single (pbFindField_eq wf reached described found) field single
      (carried.reads (by omega) fuel enough)
  · refine ⟨result, rfl, ?_⟩
    cases position with
    | single again _ below =>
        obtain rfl := Option.some.inj (described.symm.trans again)
        exact carried.follows path number below here
    | element again repeated _ =>
        obtain rfl := Option.some.inj (described.symm.trans again)
        exact absurd repeated single

section Array

variable {spec : FieldSpec} {items : List Json} {parts : List (Bytes × Json)}

/-- The items are emitted one after another. -/
theorem carriedItems_emits {lead : PbWriter Unit} {bytes : Bytes} (emits : Emits lead bytes)
    (carried : List.Forall₂ (fun item part =>
      Carried gprotos protos proto spec.type item part.1 part.2) items parts) :
    Emits (pbEncodeElements gprotos protos proto lead items.length items)
      (parts.flatMap fun part => bytes ++ part.1) := by
  induction carried with
  | nil => exact Emits.pure_nil
  | cons first rest ih =>
      rw [List.length_cons, pbEncodeElements, List.flatMap_cons, List.append_assoc]
      exact emits.bind (first.emits.bind ih)

/-- They take no more than their content. -/
theorem carriedItems_length {bytes : Bytes} (tag : bytes.length ≤ 10)
    (carried : List.Forall₂ (fun item part =>
      Carried gprotos protos proto spec.type item part.1 part.2) items parts) :
    (parts.flatMap fun part => bytes ++ part.1).length ≤ contentItems items := by
  induction carried with
  | nil => exact Nat.le_refl _
  | cons first rest ih =>
      have bound := first.length
      rw [List.flatMap_cons, List.length_append, List.length_append, contentItems]
      omega

/-- A part is no longer than the whole. -/
theorem part_length {bytes : Bytes} {part : Bytes × Json} (member : part ∈ parts) :
    part.1.length ≤ (parts.flatMap fun part => bytes ++ part.1).length := by
  induction member with
  | head => rw [List.flatMap_cons, List.length_append, List.length_append]; omega
  | tail _ _ ih => rw [List.flatMap_cons, List.length_append]; omega

/-- Every part belongs to an item. -/
theorem exists_of_part {holds : Json → Bytes × Json → Prop} {part : Bytes × Json}
    (carried : List.Forall₂ holds items parts) (member : part ∈ parts) :
    ∃ item, holds item part := by
  induction carried with
  | nil => exact absurd member List.not_mem_nil
  | cons first rest ih =>
      rcases List.mem_cons.mp member with rfl | later
      · exact ⟨_, first⟩
      · exact ih later

/-- The elements of an array of strings or messages. -/
theorem carriedItems_steps {key : CStr} (wf : SchemaWF gprotos root)
    (reached : Reaches gprotos root protos)
    (described : fieldSpec? gprotos protos key = some spec) (repeated : spec.option = .repeated)
    (tagged : ¬ spec.type.packed) (found : pcJSONGetObjectItem protos key = .ok (some proto))
    (field : FieldIs gprotos protos proto spec)
    (carried : List.Forall₂ (fun item part =>
      Carried gprotos protos proto spec.type item part.1 part.2) items parts)
    (short : (parts.flatMap fun part => wireTag spec ++ part.1).length < 2 ^ 32)
    {before : List (CStr × Json)} (free : key ∉ before.map Prod.fst) :
    ∀ opened, Steps gprotos protos (parts.flatMap fun part => wireTag spec ++ part.1)
      (withArray before key opened) (withArray before key (if parts = [] then opened
        else some (opened.getD [] ++ parts.map Prod.snd))) := by
  obtain ⟨low, high, -⟩ := wf.number_of_fieldSpec? reached described
  induction carried with
  | nil =>
      intro opened
      exact Steps.refl _
  | @cons item part items parts first rest ih =>
      intro opened
      rw [List.flatMap_cons, List.length_append, List.length_append] at short
      have more := ih (by omega) (some (opened.getD [] ++ [part.2]))
      have joined : (if parts = [] then some (opened.getD [] ++ [part.2])
          else some (opened.getD [] ++ [part.2] ++ parts.map Prod.snd)) =
          some (opened.getD [] ++ (part :: parts).map Prod.snd) := by
        rw [List.map_cons, List.append_assoc, List.singleton_append]
        split
        · next empty => rw [empty, List.map_nil]
        · rfl
      rw [Option.getD_some, joined] at more
      rw [List.flatMap_cons, if_neg (List.cons_ne_nil _ _)]
      refine (Steps.pass low high fun fuel enough => ?_).trans more
      exact pbDecodeField_repeated (pbFindField_eq wf reached described found) field repeated
        (pbDecodeArray_tagged field tagged free (first.reads (by omega) fuel enough) opened)

/-- The numbers below the elements of an array. -/
theorem carriedItems_follows {path : List JsonStep} {number : Json} {index : Nat}
    (carried : List.Forall₂ (fun item part =>
      Carried gprotos protos proto spec.type item part.1 part.2) items parts)
    (below : UnsignedAt gprotos spec.type path)
    (here : (Json.array items).at? (.item index :: path) = some number) :
    (Json.array (parts.map Prod.snd)).at? (.item index :: path) = some (carriedNumber number) := by
  rw [Json.at?] at here ⊢
  induction carried generalizing index with
  | nil => cases here
  | @cons item part items parts first rest ih =>
      cases index with
      | zero => exact first.follows path number below here
      | succ index => exact ih here

/-- A packed array is carried behind its length. -/
theorem carriedField_packed {key : CStr} (wf : SchemaWF gprotos root)
    (reached : Reaches gprotos root protos)
    (described : fieldSpec? gprotos protos key = some spec) (repeated : spec.option = .repeated)
    (packed : spec.type.packed) (found : pcJSONGetObjectItem protos key = .ok (some proto))
    (field : FieldIs gprotos protos proto spec) (short : items.length < 2 ^ 31)
    (carried : List.Forall₂ (fun item part =>
      Carried gprotos protos proto spec.type item part.1 part.2) items parts) :
    CarriedField gprotos protos (key, .array items)
      (wireTag spec ++ (Codec.leb128 items.length ++ parts.flatMap Prod.fst))
      (some (.array (parts.map Prod.snd))) := by
  obtain ⟨low, high, -⟩ := wf.number_of_fieldSpec? reached described
  obtain ⟨text, textFound, option⟩ := field.option
  obtain ⟨type, typeFound, typed⟩ := field.type
  have elements : Emits (pbEncodeElements gprotos protos proto (pure ()) items.length items)
      (parts.flatMap Prod.fst) := carriedItems_emits Emits.pure_nil carried
  have bound : (parts.flatMap Prod.fst).length ≤ contentItems items :=
    @carriedItems_length gprotos protos proto spec items parts [] (Nat.zero_le _) carried
  refine ⟨?_, ?_, fun small before free => ?_, fun path number position here => ?_⟩
  · rw [pbEncodeField]
    refine Emits.liftM_bind found (Emits.liftM_bind textFound ?_)
    rcases FieldOption.ofText?_cases option with ⟨-, known, other⟩ | ⟨single, -⟩
    · rw [if_neg other, if_pos known, pbEncodeRepeated, pbEncodeArray]
      refine Emits.liftM_bind typeFound ?_
      simp only [pcJSONGetArraySize, toUInt64_intCount short, pbIsPacked_of_typeIs typed, packed,
        if_true]
      exact (pbEncodeTagForField_emits field low high).bind
        ((Emits.varint (Nat.lt_trans short (by decide))).bind elements)
    · exact absurd repeated single
  · have tag := wireTag_length high
    have digits : (Codec.leb128 items.length).length ≤ 10 :=
      Codec.length_leb128_le (show items.length < 128 ^ (9 + 1) by omega)
    rw [contentField, Json.content, List.length_append, List.length_append]
    omega
  · rw [List.length_append, List.length_append] at small
    obtain ⟨scalar, same⟩ := scalar_of_packed packed
    refine Steps.pass low high fun fuel enough => ?_
    rw [List.length_append] at enough
    refine pbDecodeField_repeated (pbFindField_eq wf reached described found) field repeated
      (pbDecodeArray_elements field packed free (Nat.lt_trans short (by decide)) ?_)
    rw [carried.length_eq]
    refine pbDecodeElements_each field same key (fun part member => ?_) []
    have inside : part.1.length ≤ (parts.flatMap Prod.fst).length := @part_length parts [] part member
    obtain ⟨item, here⟩ := exists_of_part carried member
    have read := here.reads (by omega) fuel (by omega)
    rwa [same] at read
  · refine ⟨_, rfl, ?_⟩
    cases position with
    | single again single _ =>
        obtain rfl := Option.some.inj (described.symm.trans again)
        exact absurd repeated single
    | element again _ below =>
        obtain rfl := Option.some.inj (described.symm.trans again)
        exact carriedItems_follows carried below here

/-- An array that is not packed is carried with a tag for each item. -/
theorem carriedField_tagged {key : CStr} (wf : SchemaWF gprotos root)
    (reached : Reaches gprotos root protos)
    (described : fieldSpec? gprotos protos key = some spec) (repeated : spec.option = .repeated)
    (tagged : ¬ spec.type.packed) (found : pcJSONGetObjectItem protos key = .ok (some proto))
    (field : FieldIs gprotos protos proto spec) (short : items.length < 2 ^ 31)
    (carried : List.Forall₂ (fun item part =>
      Carried gprotos protos proto spec.type item part.1 part.2) items parts) :
    CarriedField gprotos protos (key, .array items)
      (parts.flatMap fun part => wireTag spec ++ part.1)
      (if parts = [] then none else some (.array (parts.map Prod.snd))) := by
  obtain ⟨low, high, -⟩ := wf.number_of_fieldSpec? reached described
  obtain ⟨text, textFound, option⟩ := field.option
  obtain ⟨type, typeFound, typed⟩ := field.type
  have tag := pbEncodeTagForField_emits field low high
  refine ⟨?_, ?_, fun small before free => ?_, fun path number position here => ?_⟩
  · rw [pbEncodeField]
    refine Emits.liftM_bind found (Emits.liftM_bind textFound ?_)
    rcases FieldOption.ofText?_cases option with ⟨-, known, other⟩ | ⟨single, -⟩
    · rw [if_neg other, if_pos known, pbEncodeRepeated, pbEncodeArray]
      refine Emits.liftM_bind typeFound ?_
      simp only [pcJSONGetArraySize, toUInt64_intCount short, pbIsPacked_of_typeIs typed, tagged,
        Bool.false_eq_true, if_false]
      exact carriedItems_emits tag carried
    · exact absurd repeated single
  · have bound := carriedItems_length (wireTag_length high) carried
    rw [contentField, Json.content]
    omega
  · have steps := carriedItems_steps wf reached described repeated tagged found field carried small
      free none
    by_cases empty : parts = []
    · rw [if_pos empty] at steps ⊢
      rw [Option.toList_none, List.map_nil, List.append_nil]
      exact steps
    · rw [if_neg empty] at steps ⊢
      exact steps
  · cases position with
    | single again single _ =>
        obtain rfl := Option.some.inj (described.symm.trans again)
        exact absurd repeated single
    | element again _ below =>
        obtain rfl := Option.some.inj (described.symm.trans again)
        have kept := carriedItems_follows carried below here
        refine ⟨_, if_neg fun empty => ?_, kept⟩
        rw [empty] at kept
        cases kept

end Array

theorem carriedFields_nil : CarriedFields gprotos protos [] [] [] where
  emits := Emits.pure_nil
  length := Nat.le_refl _
  keys field member := absurd member List.not_mem_nil
  steps _ before _ := by
    rw [List.append_nil]
    exact Steps.refl before
  follows path number position here := by
    cases position with
    | single | element => cases here

/-- The first field of the name is found. -/
theorem Json.lookup_cons (key : CStr) (field : CStr × Json) (fields : List (CStr × Json)) :
    (Json.object (field :: fields)).lookup key =
      if field.1 = key then some field.2 else (Json.object fields).lookup key := by
  by_cases same : field.1 = key
  · simp only [Json.lookup, List.find?_cons, same, decide_true, if_true, Option.map_some]
  · simp only [Json.lookup, List.find?_cons, same, decide_false, if_false]

/-- A path goes through a field of an object. -/
theorem Json.at?_field (value : Json) (key : CStr) (path : List JsonStep) :
    value.at? (.field key :: path) = (value.lookup key).bind fun value => value.at? path := by
  cases value <;> rfl

/-- Fields are carried one after another. -/
theorem carriedFields_cons {field : CStr × Json} {fields rest : List (CStr × Json)}
    {bytes more : Bytes} {out : Option Json} (distinct : field.1 ∉ fields.map Prod.fst)
    (first : CarriedField gprotos protos field bytes out)
    (carried : CarriedFields gprotos protos fields more rest) :
    CarriedFields gprotos protos (field :: fields) (bytes ++ more)
      ((out.toList.map fun value => (field.1, value)) ++ rest) where
  emits := by
    rw [pbEncodeFields]
    exact first.emits.bind carried.emits
  length := by
    have bound := first.length
    have room := carried.length
    rw [List.length_append, contentFields]
    omega
  keys other member := by
    rw [List.map_cons]
    rcases List.mem_append.mp member with here | there
    · obtain ⟨value, -, rfl⟩ := List.mem_map.mp here
      exact List.mem_cons_self ..
    · exact List.mem_cons_of_mem _ (carried.keys other there)
  steps short before free := by
    rw [List.length_append] at short
    rw [← List.append_assoc]
    refine (first.steps (by omega) before (free field (List.mem_cons_self ..))).trans
      (carried.steps (by omega) _ fun other member taken => ?_)
    rw [List.map_append, List.mem_append] at taken
    rcases taken with taken | taken
    · exact free other (List.mem_cons_of_mem _ member) taken
    · obtain ⟨pair, inside, same⟩ := List.mem_map.mp taken
      obtain ⟨value, -, rfl⟩ := List.mem_map.mp inside
      exact distinct (List.mem_map.mpr ⟨other, member, same.symm⟩)
  follows path number position here := by
    obtain ⟨key, below, rfl⟩ : ∃ key below, path = .field key :: below := by
      cases position with
      | single | element => exact ⟨_, _, rfl⟩
    rw [Json.at?_field, Json.lookup_cons] at here
    rw [Json.at?_field]
    by_cases same : field.1 = key
    · subst same
      rw [if_pos rfl, Option.bind_some] at here
      obtain ⟨kept, rfl, there⟩ := first.follows below number position here
      change ((Json.object ((field.1, kept) :: rest)).lookup field.1).bind _ = _
      rw [Json.lookup_cons, if_pos rfl]
      exact there
    · rw [if_neg same] at here
      have there := carried.follows _ number position (by rw [Json.at?_field]; exact here)
      rw [Json.at?_field] at there
      cases out with
      | none => exact there
      | some kept =>
          change ((Json.object ((field.1, kept) :: rest)).lookup key).bind _ = _
          rw [Json.lookup_cons, if_neg same]
          exact there

/-- What is to be shown of a value, for any field that it may stand in. -/
def Carries (gprotos root value : Json) : Prop :=
  ∀ (protos proto : Json) (spec : FieldSpec) (key : CStr), Reaches gprotos root protos →
    fieldSpec? gprotos protos key = some spec → FieldIs gprotos protos proto spec →
      plainValue gprotos spec.type value → value.content < 2 ^ 63 →
        ∃ bytes result, Carried gprotos protos proto spec.type value bytes result

/-- The items are carried if each of them is. -/
theorem carried_items {items : List Json} {spec : FieldSpec} {key : CStr}
    (each : ∀ item ∈ items, Carries gprotos root item) (reached : Reaches gprotos root protos)
    (described : fieldSpec? gprotos protos key = some spec)
    (field : FieldIs gprotos protos proto spec) (plain : plainItems gprotos spec.type items)
    (small : contentItems items < 2 ^ 63) :
    ∃ parts : List (Bytes × Json), List.Forall₂ (fun item part =>
      Carried gprotos protos proto spec.type item part.1 part.2) items parts := by
  induction items with
  | nil => exact ⟨[], .nil⟩
  | cons item items ih =>
      rw [plainItems] at plain
      rw [contentItems] at small
      obtain ⟨bytes, result, first⟩ := each item (List.mem_cons_self ..) protos proto spec key
        reached described field plain.1 (by omega)
      obtain ⟨parts, rest⟩ := ih (fun item member => each item (List.mem_cons_of_mem _ member))
        plain.2 (by omega)
      exact ⟨(bytes, result) :: parts, .cons first rest⟩

/-- A field is carried if its value is, or the elements of its value are. -/
theorem carried_field (wf : SchemaWF gprotos root) {field : CStr × Json}
    (value : Carries gprotos root field.2)
    (elements : ∀ items, field.2 = .array items → ∀ item ∈ items, Carries gprotos root item)
    (reached : Reaches gprotos root protos) (plain : plainField gprotos protos field)
    (small : contentField field < 2 ^ 63) :
    ∃ bytes out, CarriedField gprotos protos field bytes out := by
  obtain ⟨key, node⟩ := field
  rw [plainField] at plain
  rw [contentField] at small
  cases described : fieldSpec? gprotos protos key with
  | none =>
      rw [described] at plain
      exact plain.elim
  | some spec =>
      rw [described] at plain
      dsimp only at plain
      obtain ⟨proto, found, field⟩ :=
        fieldIs_of_fieldSpec? wf.object (wf.definitions _ reached) described
      by_cases repeated : spec.option = .repeated
      · rw [if_pos repeated] at plain
        cases node with
        | array items =>
            rw [plainArray] at plain
            rw [Json.content] at small
            obtain ⟨parts, carried⟩ := carried_items (elements items rfl) reached described field
              plain.2 (by omega)
            by_cases packed : spec.type.packed = true
            · exact ⟨_, _, carriedField_packed wf reached described repeated packed found field
                plain.1 carried⟩
            · exact ⟨_, _, carriedField_tagged wf reached described repeated packed found field
                plain.1 carried⟩
        | null | false | true | number | string | object => exact plain.elim
      · rw [if_neg repeated] at plain
        obtain ⟨bytes, result, carried⟩ := value protos proto spec key reached described field plain
          (show node.content < 2 ^ 63 by omega)
        exact ⟨_, _, carriedField_single wf reached described repeated found field carried⟩

/-- The fields of a message are carried if their values are. -/
theorem carried_fields (wf : SchemaWF gprotos root) {fields : List (CStr × Json)}
    (each : ∀ field ∈ fields, Carries gprotos root field.2 ∧
      ∀ items, field.2 = .array items → ∀ item ∈ items, Carries gprotos root item)
    (reached : Reaches gprotos root protos) (plain : plainFields gprotos protos fields)
    (small : contentFields fields < 2 ^ 63) :
    ∃ bytes out, CarriedFields gprotos protos fields bytes out := by
  induction fields with
  | nil => exact ⟨[], [], carriedFields_nil⟩
  | cons field fields ih =>
      rw [plainFields] at plain
      rw [contentFields] at small
      obtain ⟨here, there⟩ := List.forall_mem_cons.mp each
      obtain ⟨bytes, out, first⟩ := carried_field wf here.1 here.2 reached plain.1 (by omega)
      obtain ⟨more, rest, carried⟩ := ih there plain.2.2 (by omega)
      exact ⟨_, _, carriedFields_cons plain.2.1 first carried⟩

/-- Every value is carried, and so are the elements of an array. -/
theorem carries (wf : SchemaWF gprotos root) (value : Json) : Carries gprotos root value ∧
    ∀ items, value = .array items → ∀ item ∈ items, Carries gprotos root item := by
  have scalars (value : Json) (flat : ∀ fields, value ≠ .object fields) :
      Carries gprotos root value := by
    intro protos proto spec key reached described field plain small
    cases type : spec.type with
    | scalar scalar =>
        rw [type, plainValue] at plain
        exact ⟨_, _, type ▸ carried_scalar field type plain⟩
    | message definition =>
        rw [type] at plain
        cases value with
        | object fields => exact absurd rfl (flat fields)
        | null | false | true | number | string | array => exact plain.elim
  induction value using Json.induct with
  | null | false | true | number | string => exact ⟨scalars _ (by rintro _ ⟨⟩), (by rintro _ ⟨⟩)⟩
  | array items each =>
      refine ⟨scalars _ (by rintro _ ⟨⟩), fun others same item member => ?_⟩
      obtain rfl := Json.array.inj same
      exact (each item member).1
  | object fields each =>
      refine ⟨fun protos proto spec key reached described field plain small => ?_, (by rintro _ ⟨⟩)⟩
      cases type : spec.type with
      | scalar scalar =>
          rw [type, plainValue] at plain
          exact ⟨_, _, type ▸ carried_scalar field type plain⟩
      | message definition =>
          rw [type, plainValue] at plain
          rw [Json.content] at small
          obtain ⟨body, out, carried⟩ := carried_fields wf each
            (.field reached described type) plain small
          exact ⟨_, _, type ▸ carried_message field type small carried⟩

/-- An unsigned number below 2^31 is read back as it is, and any other as 2^64 - 2^31. -/
theorem carriedNumber_ofInt {number : Nat} (range : number < 2 ^ 32) :
    carriedNumber (.number (.ofInt number)) =
      .number (.ofInt (if number < 2 ^ 31 then number else 2 ^ 64 - 2 ^ 31)) := by
  have converted := (@Codec.Double.truncate_ofInt number (by omega) (by omega)).2
  rw [carriedNumber, Json.valueint, converted]
  by_cases small : number < 2 ^ 31
  · rw [if_pos small, if_pos ⟨by omega, by omega⟩]
    have same : toUInt64 number = number := by
      rw [toUInt64]
      omega
    rw [same]
  · rw [if_neg small, if_neg fun both => small (by omega)]
    rfl

/-- Different numbers are different as doubles. -/
theorem carriedNumber_iff {number : Nat} (range : number < 2 ^ 32) :
    carriedNumber (.number (.ofInt number)) = .number (.ofInt number) ↔ number < 2 ^ 31 := by
  rw [carriedNumber_ofInt range]
  constructor
  · intro same
    by_contra large
    rw [if_neg large] at same
    have truncated := congrArg Codec.Double.truncate (Json.number.inj same)
    have wide : Codec.Double.truncate (.ofInt (2 ^ 64 - 2 ^ 31)) = 2 ^ 64 - 2 ^ 31 := by
      decide +kernel
    rw [wide, (@Codec.Double.truncate_ofInt number (by omega) (by omega)).1] at truncated
    omega
  · intro small
    rw [if_pos small]

/-- What is read of an encoded message at a position of type `uInt32`. -/
theorem pcPbDecode_unsigned (wf : SchemaWF gprotos root) {fields : List (CStr × Json)}
    (plain : plainFields gprotos root fields) (small : contentFields fields < 2 ^ 63)
    {capacity : Nat} (short : capacity < 2 ^ 32) {stream : OStream}
    (encoded : pcPbEncode capacity gprotos root (.object fields) = (.ok (), stream)) :
    ∃ out, pcPbDecode stream.state stream.bytesWritten gprotos root (.object []) =
        .ok (.object out) ∧
      ∀ path number, UnsignedAt gprotos (.message root) path →
        (Json.object fields).at? path = some number →
          (Json.object out).at? path = some (carriedNumber number) := by
  have each : ∀ field ∈ fields, Carries gprotos root field.2 ∧
      ∀ items, field.2 = .array items → ∀ item ∈ items, Carries gprotos root item :=
    fun field _ => carries wf field.2
  obtain ⟨bytes, out, carried⟩ := carried_fields wf each .root plain small
  have bound := carried.length
  have emits : Emits (pbEncode gprotos root (.object fields)) bytes := by
    rw [pbEncode]
    exact carried.emits
  have fits : bytes.length ≤ capacity := by
    by_contra long
    have refused := emits.refuses (pbOStreamFromBuffer capacity) rfl (Nat.zero_le _)
      (show capacity < 0 + bytes.length by omega) (show 0 + bytes.length < 2 ^ 64 by omega)
    rw [pcPbEncode] at encoded
    rw [encoded] at refused
    cases refused
  have written := emits.writes (pbOStreamFromBuffer capacity) rfl
    (show 0 + bytes.length ≤ capacity by omega) (show capacity < 2 ^ 64 by omega)
  rw [pcPbEncode, written] at encoded
  obtain rfl := (Prod.mk.inj encoded).2
  obtain ⟨remaining, -, run⟩ := carried.steps (by omega) [] (fun _ _ => List.not_mem_nil)
    bytes.length [] 0 (Nat.le_refl _)
  rw [List.append_nil, Nat.add_zero, List.nil_append] at run
  have state : ((pbOStreamFromBuffer capacity).written bytes).state = bytes := List.nil_append _
  have count : ((pbOStreamFromBuffer capacity).written bytes).bytesWritten = bytes.length :=
    Nat.zero_add _
  refine ⟨out, ?_, carried.follows⟩
  rw [state, count, pcPbDecode, run, pbDecode_done]

/-- An unsigned number survives exactly below 2^31, wherever it stands in a message. -/
theorem unsigned_iff (wf : SchemaWF gprotos root) {fields : List (CStr × Json)}
    (plain : plainFields gprotos root fields) (small : contentFields fields < 2 ^ 63)
    {capacity : Nat} (short : capacity < 2 ^ 32) {stream : OStream}
    (encoded : pcPbEncode capacity gprotos root (.object fields) = (.ok (), stream))
    {path : List JsonStep} (position : UnsignedAt gprotos (.message root) path) {number : Nat}
    (range : number < 2 ^ 32)
    (here : (Json.object fields).at? path = some (.number (.ofInt number))) :
    (∃ result, pcPbDecode stream.state stream.bytesWritten gprotos root (.object []) = .ok result ∧
      result.at? path = some (.number (.ofInt number))) ↔ number < 2 ^ 31 := by
  obtain ⟨out, decoded, follows⟩ := pcPbDecode_unsigned wf plain small short encoded
  have there := follows path _ position here
  rw [← carriedNumber_iff range]
  constructor
  · rintro ⟨result, same, kept⟩
    rw [decoded] at same
    obtain rfl := Except.ok.inj same
    exact Option.some.inj (there.symm.trans kept)
  · intro kept
    exact ⟨_, decoded, there.trans (congrArg some kept)⟩

/-- A definition with one unsigned number. -/
def unsignedSchema : Json :=
  .object [(.ofString "__messages", .object []),
    (.ofString "__tags", .object [(.ofString "1", .string (.ofString "id"))]),
    (.ofString "id", fieldJson "required" "uInt32" 1)]

theorem unsignedSchema_id (gprotos : Json) : fieldSpec? gprotos unsignedSchema (.ofString "id") =
    some ⟨.required, .scalar .uInt32, 1⟩ := by
  rfl

theorem unsignedSchema_fields {key : CStr} {proto : Json} (free : key ∉ reservedNames)
    (found : unsignedSchema.lookup key = some proto) : key = .ofString "id" := by
  by_contra other
  have messages : key ≠ .ofString "__messages" := fun same => free (by rw [same]; decide)
  have tags : key ≠ .ofString "__tags" := fun same => free (by rw [same]; decide)
  simp [unsignedSchema, Json.lookup, messages.symm, tags.symm, Ne.symm other] at found

theorem unsignedSchema_wf (object : gprotos.isObject) : SchemaWF gprotos unsignedSchema where
  object := object
  definitions := by
    intro protos reached
    have scalars (key : CStr) (spec : FieldSpec) (definition : Json)
        (described : fieldSpec? gprotos unsignedSchema key = some spec) :
        spec.type ≠ .message definition := by
      obtain ⟨free, proto, found⟩ := lookup_of_fieldSpec? described
      obtain rfl := unsignedSchema_fields free found
      rw [unsignedSchema_id, Option.some.injEq] at described
      rw [← described]
      exact nofun
    obtain rfl := eq_root_of_reaches scalars reached
    refine ⟨rfl, ⟨_, rfl⟩, ⟨_, rfl⟩, fun key proto free found => ?_⟩
    obtain rfl := unsignedSchema_fields free found
    exact ⟨_, unsignedSchema_id gprotos, by decide, by decide, rfl⟩

/-- A message with one number. -/
def unsignedMessage (number : Nat) : List (CStr × Json) :=
  [(.ofString "id", .number (.ofInt number))]

theorem unsignedMessage_plain {number : Nat} (range : number < 2 ^ 32) :
    plainFields (.object []) unsignedSchema (unsignedMessage number) := by
  rw [unsignedMessage, plainFields, plainField, unsignedSchema_id]
  exact ⟨⟨number, range, rfl⟩, List.not_mem_nil, trivial⟩

/-- Its number is at an unsigned position. -/
theorem unsignedSchema_position :
    UnsignedAt (.object []) (.message unsignedSchema) [.field (.ofString "id")] :=
  .single (unsignedSchema_id _) (by decide) .here

/-- The number 7 is read back. -/
theorem unsigned_seven : ∃ result, pcPbDecode [8, 7] 2 (.object []) unsignedSchema (.object []) =
    .ok result ∧ result.at? [.field (.ofString "id")] = some (.number (.ofInt (7 : Nat))) := by
  have encoded : pcPbEncode 16 (.object []) unsignedSchema (.object (unsignedMessage 7)) =
      (.ok (), ⟨true, [8, 7], 16, 2⟩) := by
    decide +kernel
  exact (unsigned_iff (unsignedSchema_wf rfl) (unsignedMessage_plain (by decide)) (by decide)
    (by decide) encoded unsignedSchema_position (by decide) rfl).mpr (by decide)

/-- The number 2^31 is not read back. -/
theorem unsigned_fails :
    let buffer : Bytes := [8, 0x80, 0x80, 0x80, 0x80, 0xF8, 0xFF, 0xFF, 0xFF, 0xFF, 0x01]
    pcPbEncode 16 (.object []) unsignedSchema (.object (unsignedMessage (2 ^ 31))) =
        (.ok (), ⟨true, buffer, 16, 11⟩) ∧
      ¬ ∃ result, pcPbDecode buffer 11 (.object []) unsignedSchema (.object []) = .ok result ∧
        result.at? [.field (.ofString "id")] = some (.number (.ofInt ((2 ^ 31 : Nat) : Int))) := by
  intro buffer
  have encoded : pcPbEncode 16 (.object []) unsignedSchema (.object (unsignedMessage (2 ^ 31))) =
      (.ok (), ⟨true, buffer, 16, 11⟩) := by
    decide +kernel
  refine ⟨encoded, ?_⟩
  rintro ⟨result, decoded, kept⟩
  obtain ⟨out, same, follows⟩ := pcPbDecode_unsigned (unsignedSchema_wf rfl)
    (unsignedMessage_plain (by decide)) (by decide) (by decide) encoded
  rw [decoded] at same
  obtain rfl := Except.ok.inj same
  have there := follows _ _ unsignedSchema_position rfl
  exact absurd ((carriedNumber_iff (by decide)).mp (Option.some.inj (there.symm.trans kept)))
    (by decide)

end Pomelo
