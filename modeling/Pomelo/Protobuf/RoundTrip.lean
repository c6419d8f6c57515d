import Pomelo.Protobuf.EncodeWire
import Pomelo.Protobuf.DecodeWire

/-!
# The protobuf round trip

What `pc_pb_encode` writes for a conforming message, `pc_pb_decode` reads back as
the normal form of the message. The sizes in the message have to keep their value
in the types the code gives them; a string of 2^32 bytes does not, and is written
as an empty one.
-/

namespace Pomelo

variable {gprotos root : Json}

/-- The decoder reads the wire format of a conforming message, whatever follows
it. -/
theorem pcPbDecode_wireFields (wf : SchemaWF gprotos root) {fields : List (CStr × Json)}
    (conforms : conformsFields .machine gprotos root fields) (rest : Bytes) :
    pcPbDecode (wireFields gprotos root fields ++ rest) (wireFields gprotos root fields).length
      gprotos root (.object []) = .ok (.object (normalFields gprotos root fields)) := by
  have read := pbDecode_reads wf .root _ fields rfl conforms
    (wireFields gprotos root fields).length rest (Nat.le_refl _)
  rw [pcPbDecode, read]

/-- The round trip: if a conforming message is encoded in a buffer, then the bytes
written there are decoded to its normal form. -/
theorem pcPbDecode_pcPbEncode (wf : SchemaWF gprotos root) {fields : List (CStr × Json)}
    (conforms : conformsFields .machine gprotos root fields)
    (small : (wireFields gprotos root fields).length < 2 ^ 64) {len : Nat} (size : len < 2 ^ 64)
    {stream : OStream} (encoded : pcPbEncode len gprotos root (.object fields) = (.ok (), stream)) :
    stream.bytesWritten = stream.state.length ∧
      pcPbDecode stream.state stream.bytesWritten gprotos root (.object []) =
        .ok (.object (normalFields gprotos root fields)) := by
  by_cases fits : (wireFields gprotos root fields).length ≤ len
  · rw [pcPbEncode_of_le Limits.machine_encodable wf conforms size fits] at encoded
    obtain rfl := (Prod.mk.inj encoded).2
    have written : ((pbOStreamFromBuffer len).written (wireFields gprotos root fields)).state =
        wireFields gprotos root fields := List.nil_append _
    have count :
        ((pbOStreamFromBuffer len).written (wireFields gprotos root fields)).bytesWritten =
          (wireFields gprotos root fields).length := Nat.zero_add _
    have read := pcPbDecode_wireFields wf conforms []
    rw [List.append_nil] at read
    rw [written, count]
    exact ⟨rfl, read⟩
  · have refused := pcPbEncode_of_lt Limits.machine_encodable wf conforms small (Nat.lt_of_not_le fits)
    rw [encoded] at refused
    cases refused

/-- A definition whose fields are scalars leads nowhere else. -/
theorem eq_root_of_reaches {protos : Json}
    (scalars : ∀ key spec definition, fieldSpec? gprotos root key = some spec →
      spec.type ≠ .message definition)
    (reached : Reaches gprotos root protos) : protos = root := by
  induction reached with
  | root => rfl
  | field reached described type ih =>
      subst ih
      exact absurd type (scalars _ _ _ described)

/-- A field description. -/
def fieldJson (option type : String) (tag : Int) : Json :=
  .object [(.ofString "option", .string (.ofString option)),
    (.ofString "type", .string (.ofString type)), (.ofString "tag", .number (.ofInt tag))]

/-- A definition with one string and one array of strings. -/
def stringSchema : Json :=
  .object [(.ofString "__messages", .object []),
    (.ofString "__tags", .object [(.ofString "1", .string (.ofString "name")),
      (.ofString "2", .string (.ofString "tags"))]),
    (.ofString "name", fieldJson "required" "string" 1),
    (.ofString "tags", fieldJson "repeated" "string" 2)]

theorem stringSchema_fields {key : CStr} {proto : Json} (free : key ∉ reservedNames)
    (found : stringSchema.lookup key = some proto) :
    key = .ofString "name" ∨ key = .ofString "tags" := by
  by_contra other
  rw [not_or] at other
  have messages : key ≠ .ofString "__messages" := fun same => free (by rw [same]; decide)
  have tags : key ≠ .ofString "__tags" := fun same => free (by rw [same]; decide)
  simp [stringSchema, Json.lookup, messages.symm, tags.symm, Ne.symm other.1, Ne.symm other.2] at found

theorem stringSchema_name (gprotos : Json) : fieldSpec? gprotos stringSchema (.ofString "name") =
    some ⟨.required, .scalar .string, 1⟩ := by
  rfl

theorem stringSchema_tags (gprotos : Json) : fieldSpec? gprotos stringSchema (.ofString "tags") =
    some ⟨.repeated, .scalar .string, 2⟩ := by
  rfl

theorem stringSchema_scalars {key : CStr} {spec : FieldSpec} {definition : Json}
    (described : fieldSpec? gprotos stringSchema key = some spec) :
    spec.type ≠ .message definition := by
  obtain ⟨free, proto, found⟩ := lookup_of_fieldSpec? described
  rcases stringSchema_fields free found with rfl | rfl
  · rw [stringSchema_name, Option.some.injEq] at described
    rw [← described]
    exact nofun
  · rw [stringSchema_tags, Option.some.injEq] at described
    rw [← described]
    exact nofun

theorem stringSchema_wf (object : gprotos.isObject) : SchemaWF gprotos stringSchema where
  object := object
  definitions := by
    intro protos reached
    obtain rfl := eq_root_of_reaches (fun _ _ _ => stringSchema_scalars) reached
    refine ⟨rfl, ⟨_, rfl⟩, ⟨_, rfl⟩, fun key proto free found => ?_⟩
    rcases stringSchema_fields free found with rfl | rfl
    · exact ⟨_, stringSchema_name gprotos, by decide, by decide, rfl⟩
    · exact ⟨_, stringSchema_tags gprotos, by decide, by decide, rfl⟩

/-- What is closed under the fields of its definitions is not left. -/
theorem mem_of_reaches {definitions : List Json}
    (closed : ∀ protos ∈ definitions, ∀ key spec definition,
      fieldSpec? gprotos protos key = some spec → spec.type = .message definition →
        definition ∈ definitions)
    (member : root ∈ definitions) {protos : Json} (reached : Reaches gprotos root protos) :
    protos ∈ definitions := by
  induction reached with
  | root => exact member
  | field reached described type ih => exact closed _ ih _ _ _ described type

/-- A definition of an item with a number and some weights. -/
def itemSchema : Json :=
  .object [(.ofString "__messages", .object []),
    (.ofString "__tags", .object [(.ofString "1", .string (.ofString "id")),
      (.ofString "2", .string (.ofString "weights"))]),
    (.ofString "id", fieldJson "required" "sInt32" 1),
    (.ofString "weights", fieldJson "repeated" "double" 2)]

/-- A definition with a string, an item and an array of numbers. -/
def cartSchema : Json :=
  .object [(.ofString "__messages", .object [(.ofString "Item", itemSchema)]),
    (.ofString "__tags", .object [(.ofString "1", .string (.ofString "name")),
      (.ofString "2", .string (.ofString "item")), (.ofString "3", .string (.ofString "counts"))]),
    (.ofString "name", fieldJson "required" "string" 1),
    (.ofString "item", fieldJson "optional" "Item" 2),
    (.ofString "counts", fieldJson "repeated" "uInt32" 3)]

/-- The descriptions of the fields of `itemSchema`. -/
theorem itemSchema_fieldSpec {key : CStr} {proto : Json} (free : key ∉ reservedNames)
    (found : itemSchema.lookup key = some proto) :
    (key = .ofString "id" ∧
        fieldSpec? gprotos itemSchema key = some ⟨.required, .scalar .sInt32, 1⟩) ∨
      key = .ofString "weights" ∧
        fieldSpec? gprotos itemSchema key = some ⟨.repeated, .scalar .double, 2⟩ := by
  have known : key = .ofString "id" ∨ key = .ofString "weights" := by
    by_contra other
    rw [not_or] at other
    have messages : key ≠ .ofString "__messages" := fun same => free (by rw [same]; decide)
    have tags : key ≠ .ofString "__tags" := fun same => free (by rw [same]; decide)
    simp [itemSchema, Json.lookup, messages.symm, tags.symm, Ne.symm other.1,
      Ne.symm other.2] at found
  rcases known with rfl | rfl
  · exact .inl ⟨rfl, rfl⟩
  · exact .inr ⟨rfl, rfl⟩

/-- The descriptions of the fields of `cartSchema`. -/
theorem cartSchema_fieldSpec {key : CStr} {proto : Json} (free : key ∉ reservedNames)
    (found : cartSchema.lookup key = some proto) :
    (key = .ofString "name" ∧
        fieldSpec? gprotos cartSchema key = some ⟨.required, .scalar .string, 1⟩) ∨
      (key = .ofString "item" ∧
        fieldSpec? gprotos cartSchema key = some ⟨.optional, .message itemSchema, 2⟩) ∨
      key = .ofString "counts" ∧
        fieldSpec? gprotos cartSchema key = some ⟨.repeated, .scalar .uInt32, 3⟩ := by
  have known : key = .ofString "name" ∨ key = .ofString "item" ∨ key = .ofString "counts" := by
    by_contra other
    rw [not_or, not_or] at other
    have messages : key ≠ .ofString "__messages" := fun same => free (by rw [same]; decide)
    have tags : key ≠ .ofString "__tags" := fun same => free (by rw [same]; decide)
    simp [cartSchema, Json.lookup, messages.symm, tags.symm, Ne.symm other.1,
      Ne.symm other.2.1, Ne.symm other.2.2] at found
  rcases known with rfl | rfl | rfl
  · exact .inl ⟨rfl, rfl⟩
  · exact .inr (.inl ⟨rfl, rfl⟩)
  · exact .inr (.inr ⟨rfl, rfl⟩)

/-- The schema reaches its own item and no other message. -/
theorem reaches_cartSchema {protos : Json} (reached : Reaches gprotos cartSchema protos) :
    protos = cartSchema ∨ protos = itemSchema := by
  refine List.mem_pair.mp (mem_of_reaches (fun protos member key spec definition described type => ?_)
    List.mem_cons_self reached)
  obtain ⟨free, proto, found⟩ := lookup_of_fieldSpec? described
  rcases List.mem_pair.mp member with rfl | rfl
  · rcases cartSchema_fieldSpec free found with ⟨-, same⟩ | ⟨-, same⟩ | ⟨-, same⟩
    all_goals
      cases Option.some.inj (same.symm.trans described)
      cases type
    exact List.mem_cons_of_mem _ List.mem_cons_self
  · rcases itemSchema_fieldSpec free found with ⟨-, same⟩ | ⟨-, same⟩
    all_goals
      cases Option.some.inj (same.symm.trans described)
      cases type

/-- The schema with a submessage is well formed. -/
theorem cartSchema_wf (object : gprotos.isObject) : SchemaWF gprotos cartSchema where
  object := object
  definitions := by
    intro protos reached
    rcases reaches_cartSchema reached with rfl | rfl
    · refine ⟨rfl, ⟨_, rfl⟩, ⟨_, rfl⟩, fun key proto free found => ?_⟩
      rcases cartSchema_fieldSpec free found with ⟨rfl, same⟩ | ⟨rfl, same⟩ | ⟨rfl, same⟩
      all_goals exact ⟨_, same, by decide, by decide, rfl⟩
    · refine ⟨rfl, ⟨_, rfl⟩, ⟨_, rfl⟩, fun key proto free found => ?_⟩
      rcases itemSchema_fieldSpec free found with ⟨rfl, same⟩ | ⟨rfl, same⟩
      all_goals exact ⟨_, same, by decide, by decide, rfl⟩

/-- A message with an item that weighs 1 and -2, and the counts 1 and 300. -/
def cartMessage : List (CStr × Json) :=
  [(.ofString "name", .string (.ofString "hi")),
    (.ofString "item", .object [(.ofString "id", .number (.ofInt (-7))),
      (.ofString "weights", .array [.number (.ofInt 1), .number (.ofInt (-2))])]),
    (.ofString "counts", .array [.number (.ofInt 1), .number (.ofInt 300)])]

/-- A submessage and two packed arrays are read back. -/
theorem pcPbDecode_pcPbEncode_nested :
    ∃ stream, pcPbEncode 64 (.object []) cartSchema (.object cartMessage) = (.ok (), stream) ∧
      stream.bytesWritten = stream.state.length ∧
        pcPbDecode stream.state stream.bytesWritten (.object []) cartSchema (.object []) =
          .ok (.object cartMessage) := by
  have conforms : conformsFields .machine (.object []) cartSchema cartMessage := by
    decide +kernel
  have length : (wireFields (.object []) cartSchema cartMessage).length = 31 := by
    decide +kernel
  have fits : (wireFields (.object []) cartSchema cartMessage).length ≤ 64 := by
    rw [length]
    decide
  have encoded :=
    pcPbEncode_of_le Limits.machine_encodable (cartSchema_wf rfl) conforms (by decide) fits
  exact ⟨_, encoded, pcPbDecode_pcPbEncode (cartSchema_wf rfl) conforms (by rw [length]; decide)
    (by decide) encoded⟩

/-- The text of 2^32 letters. -/
def longText : CStr where
  bytes := List.replicate (2 ^ 32) 97
  noZero := fun member => absurd (List.eq_of_mem_replicate member) (by decide)

/-- The length of the text is one more than 32 bits can count. -/
theorem length_longText : longText.bytes.length = 2 ^ 32 := List.length_replicate

/-- Nothing of a string of 2^32 bytes is written. -/
theorem pbEncodeFields_long {text : CStr} (long : text.bytes.length = 2 ^ 32) :
    Emits (pbEncodeFields (.object []) stringSchema [(.ofString "name", .string text)]) [10, 0] := by
  have wf : SchemaWF (.object []) stringSchema := stringSchema_wf rfl
  obtain ⟨proto, found, field⟩ :=
    fieldIs_of_fieldSpec? wf.object (wf.definitions _ .root) (stringSchema_name _)
  obtain ⟨text', textFound, option⟩ := field.option
  obtain ⟨type, typeFound, typed⟩ := field.type
  rcases FieldOption.ofText?_cases option with ⟨repeated, -, -⟩ | ⟨-, known⟩
  · cases repeated
  have tag : Emits (pbEncodeTagForField proto) [10] := by
    have emits := pbEncodeTagForField_emits field (by decide) (by decide)
    rwa [wireTag, Codec.leb128_of_lt (by decide)] at emits
  have nothing : Emits (pbWrite text.bytes 0) [] := Emits.pbWrite_take (Nat.zero_le _)
  have length : toUInt64 (intCount text.length) = 0 := by
    rw [CStr.length, long]
    decide
  rw [pbEncodeFields, pbEncodeFields, pbEncodeField]
  rw [← List.append_nil [10, 0]]
  refine Emits.bind ?_ Emits.pure_nil
  refine Emits.liftM_bind found (Emits.liftM_bind textFound ?_)
  rw [if_pos known]
  refine tag.bind (Emits.liftM_bind typeFound ?_)
  cases typed with
  | scalar tables scalar =>
      refine Emits.liftM_bind tables ?_
      rw [scalar]
      refine Emits.liftM_bind rfl ?_
      rw [length]
      have size : Emits (pbEncodeVarint 0) [0] := by
        have emits := Emits.varint (show 0 < 2 ^ 64 by decide)
        rwa [Codec.leb128_of_lt (by decide)] at emits
      exact size.bind nothing

/-- The message with the long text conforms, but for the sizes, is encoded in two
bytes, and is decoded to another message. -/
theorem pcPbDecode_pcPbEncode_long :
    let fields := [(CStr.ofString "name", Json.string longText)]
    SchemaWF (.object []) stringSchema ∧
      conformsFields .unlimited (.object []) stringSchema fields ∧
        ∃ stream, pcPbEncode 2 (.object []) stringSchema (.object fields) = (.ok (), stream) ∧
          pcPbDecode stream.state stream.bytesWritten (.object []) stringSchema (.object []) ≠
            .ok (.object (normalFields (.object []) stringSchema fields)) := by
  intro fields
  have emits := pbEncodeFields_long length_longText
  have encoded := emits.writes (pbOStreamFromBuffer 2) rfl (by decide) (by decide)
  refine ⟨stringSchema_wf rfl, by decide +kernel, _, encoded, ?_⟩
  -- The two bytes are those of the message with the empty text.
  have bytes : wireFields (.object []) stringSchema
      [(.ofString "name", .string (.ofString ""))] = [10, 0] := by decide +kernel
  have decoded := pcPbDecode_wireFields (stringSchema_wf rfl)
    (show conformsFields .machine (.object []) stringSchema
      [(.ofString "name", .string (.ofString ""))] by decide +kernel) []
  rw [bytes] at decoded
  intro same
  have both := decoded.symm.trans same
  simp only [fields, normalFields, normalField, stringSchema_name, reduceCtorEq, if_false,
    normalValue_scalar, List.append_nil, Except.ok.injEq, Json.object.injEq, List.cons.injEq,
    Prod.mk.injEq, Json.string.injEq, and_true, true_and] at both
  have lengths := congrArg (fun text => text.bytes.length) both
  rw [length_longText] at lengths
  cases lengths

end Pomelo
