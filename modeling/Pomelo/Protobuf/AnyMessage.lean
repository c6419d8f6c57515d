import Pomelo.Protobuf.Sizing

/-!
# The encoder on any message

`pb_encode` is given whatever the application has written. How its walk ends is a matter of
three properties of the message: `safeMessage` looks for null pointers up to the first key
without a field, `knownMessage` looks for such keys, and `completeMessage` for keys that get
no bytes.
-/

namespace Pomelo

mutual

/-- No key stands in a value. -/
def Json.keyless : Json → Bool
  | .array items => keylessItems items
  | .object fields => fields.isEmpty
  | _ => true
termination_by structural json => json

def keylessItems : List Json → Bool
  | [] => true
  | item :: items => item.keyless && keylessItems items
termination_by structural items => items

end

mutual

/-- The lengths of all texts and arrays fit an `int`. -/
def Json.sized : Json → Bool
  | .string text => text.length < 2 ^ 31
  | .array items => items.length < 2 ^ 31 && sizedItems items
  | .object fields => sizedFields fields
  | _ => true
termination_by structural json => json

def sizedItems : List Json → Bool
  | [] => true
  | item :: items => item.sized && sizedItems items
termination_by structural items => items

def sizedFields : List (CStr × Json) → Bool
  | [] => true
  | field :: fields => sizedField field && sizedFields fields
termination_by structural fields => fields

def sizedField : CStr × Json → Bool
  | (_, value) => value.sized
termination_by structural field => field

end

mutual

/-- Every key has a field, wherever the value of a field is taken for a message. -/
def knownFields (gprotos protos : Json) : List (CStr × Json) → Bool
  | [] => true
  | field :: fields => knownField gprotos protos field && knownFields gprotos protos fields
termination_by structural fields => fields

def knownField (gprotos protos : Json) : CStr × Json → Bool
  | (key, value) =>
      match fieldSpec? gprotos protos key with
      | none => false
      | some spec =>
          if spec.option = .repeated then knownArray gprotos spec.type value
          else knownValue gprotos spec.type value
termination_by structural field => field

def knownArray (gprotos : Json) (type : FieldType) : Json → Bool
  | .array items => knownItems gprotos type items
  | _ => true
termination_by structural value => value

def knownItems (gprotos : Json) (type : FieldType) : List Json → Bool
  | [] => true
  | item :: items => knownValue gprotos type item && knownItems gprotos type items
termination_by structural items => items

def knownValue (gprotos : Json) (type : FieldType) (value : Json) : Bool :=
  match type, value with
  | .message definition, .object fields => knownFields gprotos definition fields
  | _, _ => true
termination_by structural value

end

/-- The same of a message of any JSON type. -/
def knownMessage (gprotos protos : Json) : Json → Bool
  | .object fields => knownFields gprotos protos fields
  | _ => true

mutual

/-- Before the first key without a field there is no key of a table, no array with elements
where a message belongs, and nothing but a text where a string belongs. -/
def safeFields (gprotos protos : Json) : List (CStr × Json) → Bool
  | [] => true
  | field :: fields => safeField gprotos protos field &&
      (!knownField gprotos protos field || safeFields gprotos protos fields)
termination_by structural fields => fields

def safeField (gprotos protos : Json) : CStr × Json → Bool
  | (key, value) =>
      match fieldSpec? gprotos protos key with
      | none => key ∉ reservedNames
      | some spec =>
          if spec.option = .repeated then safeArray gprotos spec.type value
          else safeValue gprotos spec.type value
termination_by structural field => field

def safeArray (gprotos : Json) (type : FieldType) : Json → Bool
  | .array items => safeItems gprotos type items
  | _ => true
termination_by structural value => value

def safeItems (gprotos : Json) (type : FieldType) : List Json → Bool
  | [] => true
  | item :: items => safeValue gprotos type item &&
      (!knownValue gprotos type item || safeItems gprotos type items)
termination_by structural items => items

def safeValue (gprotos : Json) (type : FieldType) (value : Json) : Bool :=
  match type, value with
  | .message definition, .object fields => safeFields gprotos definition fields
  | .message _, .array items => items.isEmpty
  | .scalar .string, value => value.valuestring.isSome
  | _, _ => true
termination_by structural value

end

/-- The same of a message of any JSON type. -/
def safeMessage (gprotos protos : Json) : Json → Bool
  | .object fields => safeFields gprotos protos fields
  | .array items => items.isEmpty
  | _ => true

mutual

/-- Each repeated field has an array, which is not empty unless it is packed, and no key
stands where none is looked for. -/
def completeFields (gprotos protos : Json) : List (CStr × Json) → Bool
  | [] => true
  | field :: fields => completeField gprotos protos field && completeFields gprotos protos fields
termination_by structural fields => fields

def completeField (gprotos protos : Json) : CStr × Json → Bool
  | (key, value) =>
      match fieldSpec? gprotos protos key with
      | none => false
      | some spec =>
          if spec.option = .repeated then completeArray gprotos spec.type value
          else completeValue gprotos spec.type value
termination_by structural field => field

def completeArray (gprotos : Json) (type : FieldType) : Json → Bool
  | .array items => (type.packed || !items.isEmpty) && completeItems gprotos type items
  | _ => false
termination_by structural value => value

def completeItems (gprotos : Json) (type : FieldType) : List Json → Bool
  | [] => true
  | item :: items => completeValue gprotos type item && completeItems gprotos type items
termination_by structural items => items

def completeValue (gprotos : Json) (type : FieldType) (value : Json) : Bool :=
  match type, value with
  | .message definition, .object fields => completeFields gprotos definition fields
  | _, value => value.keyless
termination_by structural value

end

/-- The same of a message of any JSON type. -/
def completeMessage (gprotos protos : Json) : Json → Bool
  | .object fields => completeFields gprotos protos fields
  | value => value.keyless

/-- The bytes that stand for a value of any JSON type in a field of a scalar type. -/
def anyScalar (type : PbType) (value : Json) : Bytes :=
  match type with
  | .uInt32 => Codec.leb128 (toUInt64 value.valueint)
  | type => wireScalar type value

mutual

/-- Every key of a message has its own part of some bytes: the tag of its field and behind it
its value, for each element of an array that is not packed. -/
def representsFields (gprotos protos : Json) : List (CStr × Json) → Bytes → Prop
  | [], bytes => bytes = []
  | field :: fields, bytes => ∃ first rest, bytes = first ++ rest ∧
      representsField gprotos protos field first ∧ representsFields gprotos protos fields rest
termination_by structural fields => fields

def representsField (gprotos protos : Json) : CStr × Json → Bytes → Prop
  | (key, value), bytes =>
      match fieldSpec? gprotos protos key with
      | none => False
      | some spec =>
          if spec.option = .repeated then representsArray gprotos spec value bytes
          else ∃ body, bytes = wireTag spec ++ body ∧ representsValue gprotos spec.type value body
termination_by structural field => field

def representsArray (gprotos : Json) (spec : FieldSpec) : Json → Bytes → Prop
  | .array items, bytes =>
      if spec.type.packed then ∃ body, bytes = wireTag spec ++ body ∧
        ∃ elements, body = Codec.leb128 items.length ++ elements ∧
          representsItems gprotos spec.type [] items elements
      else items ≠ [] ∧ representsItems gprotos spec.type (wireTag spec) items bytes
  | _, _ => False
termination_by structural value => value

/-- The elements of an array, each behind some leading bytes. -/
def representsItems (gprotos : Json) (type : FieldType) (lead : Bytes) :
    List Json → Bytes → Prop
  | [], bytes => bytes = []
  | item :: items, bytes => ∃ body, bytes = lead ++ body ∧ ∃ first rest, body = first ++ rest ∧
      representsValue gprotos type item first ∧ representsItems gprotos type lead items rest
termination_by structural items => items

def representsValue (gprotos : Json) (type : FieldType) (value : Json) (bytes : Bytes) : Prop :=
  match type, value with
  | .message definition, .object fields => ∃ body, bytes = prefixed body ∧
      representsFields gprotos definition fields body
  | .message _, value => value.keyless ∧ bytes = prefixed []
  | .scalar type, value => value.keyless ∧ bytes = anyScalar type value
termination_by structural value

end

/-- The same of a message of any JSON type. -/
def represents (gprotos protos : Json) : Json → Bytes → Prop
  | .object fields, bytes => representsFields gprotos protos fields bytes
  | value, bytes => value.keyless ∧ bytes = []

/-- The encoder returns 0 or 1 in a buffer of any capacity, and 1 only with bytes that
represent every key. -/
structure Survives (gprotos protos msg : Json) : Prop where
  returns : ∀ capacity, capacity < 2 ^ 64 →
    (pcPbEncode capacity gprotos protos msg).1 = .ok () ∨
      (pcPbEncode capacity gprotos protos msg).1 = .error .refused
  represented : ∀ capacity, capacity < 2 ^ 64 →
    (pcPbEncode capacity gprotos protos msg).1 = .ok () →
      represents gprotos protos msg (pcPbEncode capacity gprotos protos msg).2.state

/-- The table of messages holds definitions, and the table of tags is entered by numbers. -/
structure TablesWF (gprotos root : Json) : Prop where
  messages : ∀ protos, Reaches gprotos root protos → ∀ table,
    protos.lookup (.ofString "__messages") = some table →
      ∀ key definition, table.lookup key = some definition → definition.isObject
  tags : ∀ protos, Reaches gprotos root protos → ∀ table,
    protos.lookup (.ofString "__tags") = some table →
      ∀ key name, table.lookup key = some name → ∃ number, key = .decimal number

/-- How a walk ends that is safe before the first key without a field. -/
def walkEnding (safe known : Bool) : Except Stop Unit :=
  if safe then if known then .ok () else .error .refused else .error .nullDeref

/-- An operation that ends as its part of the message says, and that has sent what represents
the part, if it ends well. -/
def Walks (act : PbWriter Unit) (safe known complete : Bool) (size : Nat)
    (represented : Bytes → Prop) : Prop :=
  ∃ output, Sends act output ∧ output.bytes.length ≤ size ∧
    output.ending = walkEnding safe known ∧
      (output.ending = .ok () → ∀ bytes, represented bytes ↔ complete ∧ bytes = output.bytes)

namespace Walks

variable {act first second : PbWriter Unit} {safe known complete : Bool} {size more : Nat}
  {represented : Bytes → Prop}

theorem mono (walks : Walks act safe known complete size represented) (le : size ≤ more) :
    Walks act safe known complete more represented := by
  obtain ⟨output, sends, bound, ending, shape⟩ := walks
  exact ⟨output, sends, bound.trans le, ending, shape⟩

/-- The same bytes, said in other words. -/
theorem congr {other : Bytes → Prop} (walks : Walks act safe known complete size represented)
    (same : ∀ bytes, other bytes ↔ represented bytes) :
    Walks act safe known complete size other := by
  obtain ⟨output, sends, bound, ending, shape⟩ := walks
  exact ⟨output, sends, bound, ending, fun ok bytes => (same bytes).trans (shape ok bytes)⟩

/-- A step that sends fixed bytes represents them. -/
theorem sends {bytes : Bytes} (sends : Sends act ⟨bytes, .ok ()⟩) (bound : bytes.length ≤ size)
    (complete : Bool) : Walks act true true complete size fun other => complete ∧ other = bytes :=
  ⟨_, sends, bound, rfl, fun _ _ => Iff.rfl⟩

/-- A refusal is safe, and represents nothing. -/
theorem refused : Walks (throw .refused) true false complete size represented :=
  ⟨_, Sends.throw .refused, Nat.zero_le _, rfl, nofun⟩

/-- A dereference of `NULL` is not safe. -/
theorem nullDeref : Walks (throw .nullDeref) false known complete size represented :=
  ⟨_, Sends.throw .nullDeref, Nat.zero_le _, rfl, nofun⟩

/-- What is read in front of a step may be replaced by its value. -/
theorem liftM_bind {α : Type} {value : α} {source : Except Stop α} {next : α → PbWriter Unit}
    (read : source = .ok value) (walks : Walks (next value) safe known complete size represented) :
    Walks (do next (← source)) safe known complete size represented := by
  subst read
  exact walks

theorem liftM_error {α : Type} {source : Except Stop α} {next : α → PbWriter Unit}
    (missing : source = .error .nullDeref) :
    Walks (do next (← source)) false known complete size represented := by
  subst missing
  exact ⟨_, Sends.ends fun stream => rfl, Nat.zero_le _, rfl, nofun⟩

/-- The second of two operations counts where the first one ends well. -/
theorem bind {safe' known' complete' : Bool} {represented' : Bytes → Prop}
    (head : Walks first safe known complete size represented)
    (tail : Walks second safe' known' complete' more represented') :
    Walks (do first; second) (safe && (!known || safe')) (known && known')
      (complete && complete') (size + more) fun bytes => ∃ front rest, bytes = front ++ rest ∧
        represented front ∧ represented' rest := by
  obtain ⟨⟨bytes, ending⟩, sends, bound, ends, shape⟩ := head
  obtain ⟨⟨rest, rested⟩, follows, room, stops, form⟩ := tail
  dsimp only at ends shape stops form bound room
  refine ⟨_, sends.bind follows, ?_⟩
  cases safe with
  | false =>
      obtain rfl : ending = .error .nullDeref := ends
      exact ⟨bound.trans (Nat.le_add_right ..), rfl, nofun⟩
  | true =>
      cases known with
      | false =>
          obtain rfl : ending = .error .refused := ends
          exact ⟨bound.trans (Nat.le_add_right ..), rfl, nofun⟩
      | true =>
          obtain rfl : ending = .ok () := ends
          refine ⟨?_, stops, fun ok other => ?_⟩
          · change (bytes ++ rest).length ≤ size + more
            rw [List.length_append]
            exact Nat.add_le_add bound room
          · change _ ↔ _ ∧ other = bytes ++ rest
            constructor
            · rintro ⟨front, behind, rfl, here, there⟩
              obtain ⟨whole, rfl⟩ := (shape rfl front).mp here
              obtain ⟨also, rfl⟩ := (form ok behind).mp there
              exact ⟨Bool.and_eq_true_iff.mpr ⟨whole, also⟩, rfl⟩
            · rintro ⟨whole, rfl⟩
              obtain ⟨here, there⟩ := Bool.and_eq_true_iff.mp whole
              exact ⟨bytes, rest, rfl, (shape rfl bytes).mpr ⟨here, rfl⟩,
                (form ok rest).mpr ⟨there, rfl⟩⟩

/-- Some bytes are sent in front. -/
theorem behind {lead : Bytes} (head : Sends first ⟨lead, .ok ()⟩) (bound : lead.length ≤ more)
    (walks : Walks second safe known complete size represented) :
    Walks (do first; second) safe known complete (more + size) fun bytes =>
      ∃ body, bytes = lead ++ body ∧ represented body := by
  have both := (sends head bound true).bind walks
  refine both.congr fun bytes => ⟨?_, ?_⟩
  · rintro ⟨body, rfl, here⟩
    exact ⟨lead, body, rfl, ⟨rfl, rfl⟩, here⟩
  · rintro ⟨front, body, rfl, ⟨-, rfl⟩, here⟩
    exact ⟨body, rfl, here⟩

/-- A submessage represents its body behind the length of it. -/
theorem submessage (walks : Walks act safe known complete size represented)
    (small : size < 2 ^ 63) :
    Walks (pbEncodeSubmessage act) safe known complete (10 + size) fun bytes =>
      ∃ body, bytes = prefixed body ∧ represented body := by
  obtain ⟨⟨bytes, ending⟩, sends, bound, ends, shape⟩ := walks
  dsimp only at ends shape bound
  refine ⟨_, sends.submessage (Nat.lt_of_le_of_lt bound (Nat.lt_trans small (by decide))), ?_⟩
  cases ending with
  | error stop => exact ⟨Nat.zero_le _, ends, nofun⟩
  | ok =>
      have digits : (Codec.leb128 bytes.length).length ≤ 9 + 1 :=
        Codec.length_leb128_le (show bytes.length < 128 ^ (9 + 1) by omega)
      refine ⟨?_, ends, fun _ other => ?_⟩
      · change (Codec.leb128 bytes.length ++ bytes).length ≤ 10 + size
        rw [List.length_append]
        exact Nat.add_le_add digits bound
      · change _ ↔ _ ∧ other = prefixed bytes
        constructor
        · rintro ⟨body, rfl, here⟩
          obtain ⟨whole, rfl⟩ := (shape rfl body).mp here
          exact ⟨whole, rfl⟩
        · rintro ⟨whole, rfl⟩
          exact ⟨bytes, rfl, (shape rfl bytes).mpr ⟨whole, rfl⟩⟩

end Walks

theorem Json.valueint_range (value : Json) :
    -2 ^ 31 ≤ value.valueint ∧ value.valueint < 2 ^ 31 := by
  cases value with
  | number bits => exact bits.toCInt_range
  | true => exact ⟨by decide, by decide⟩
  | null | false | string | array | object => exact ⟨Int.neg_nonpos_of_nonneg (by decide), by
      change (0 : Int) < 2 ^ 31
      decide⟩

namespace Sends

/-- An `int` is sent in the zigzag order. -/
theorem svarint {value : Int} (low : -2 ^ 31 ≤ value) (high : value < 2 ^ 31) :
    Sends (pbEncodeSvarint value) ⟨Codec.leb128 (zigzag value), .ok ()⟩ := by
  rw [pbEncodeSvarint_eq (by omega) (by omega)]
  exact varint (zigzag_lt (by omega) (by omega))

/-- A number of fixed width is sent with its least byte first. -/
theorem fixed (width pattern : Nat) :
    Sends (pbEncodeFixed width pattern) ⟨(Codec.beBytes width pattern).reverse, .ok ()⟩ := by
  have length : (Codec.beBytes width pattern).reverse.length = width := by
    rw [List.length_reverse, Codec.length_beBytes]
  have whole := write (Nat.le_of_eq length.symm)
  rwa [List.take_of_length_le (Nat.le_of_eq length)] at whole

/-- A text is sent behind its length. -/
theorem string {text : CStr} (short : text.length < 2 ^ 31) :
    Sends (pbEncodeString text.bytes (toUInt64 (intCount text.length)))
      ⟨prefixed text.bytes, .ok ()⟩ := by
  have whole := write (Nat.le_refl text.bytes.length)
  rw [List.take_length] at whole
  rw [toUInt64_intCount short]
  exact (varint (Nat.lt_trans short (by decide))).bind whole

end Sends

section Scalar

variable (gprotos : Json) (type : PbType) (value : Json)

theorem knownValue_scalar : knownValue gprotos (.scalar type) value = true := by
  cases value <;> rfl

theorem completeValue_scalar : completeValue gprotos (.scalar type) value = value.keyless := by
  cases value <;> rfl

theorem representsValue_scalar : representsValue gprotos (.scalar type) value =
    fun bytes => value.keyless ∧ bytes = anyScalar type value := by
  cases value <;> rfl

/-- A text must be there to be encoded. -/
theorem safeValue_string : safeValue gprotos (.scalar .string) value = value.valuestring.isSome := by
  cases value <;> rfl

/-- Any other scalar is encoded whatever the value is. -/
theorem safeValue_scalar (other : type ≠ .string) : safeValue gprotos (.scalar type) value = true := by
  cases type with
  | string => exact absurd rfl other
  | uInt32 | int32 | sInt32 | float | double => cases value <;> rfl

end Scalar

namespace Walks

/-- A number takes ten bytes at most. -/
theorem number {type : PbType} (other : type ≠ .string) (value : Json) :
    Sends (pbEncodeScalar type value) ⟨anyScalar type value, .ok ()⟩ ∧
      (anyScalar type value).length ≤ 10 := by
  obtain ⟨low, high⟩ := value.valueint_range
  have digits {count : Nat} (bound : count < 2 ^ 64) : (Codec.leb128 count).length ≤ 10 :=
    Codec.length_leb128_le (show count < 128 ^ (9 + 1) by omega)
  have bytes (width count : Nat) (le : width ≤ 10) :
      (Codec.beBytes width count).reverse.length ≤ 10 := by
    rw [List.length_reverse, Codec.length_beBytes]
    exact le
  cases type with
  | string => exact absurd rfl other
  | uInt32 => exact ⟨Sends.varint (toUInt64_lt _), digits (toUInt64_lt _)⟩
  | int32 | sInt32 =>
      exact ⟨Sends.svarint low high, digits (zigzag_lt (by omega) (by omega))⟩
  | float => exact ⟨Sends.fixed .., bytes _ _ (by decide)⟩
  | double => exact ⟨Sends.fixed .., bytes _ _ (by decide)⟩

/-- A value of any JSON type in a field of a scalar type. -/
theorem scalar (gprotos : Json) (type : PbType) {value : Json} (sized : value.sized) :
    Walks (pbEncodeScalar type value) (safeValue gprotos (.scalar type) value)
      (knownValue gprotos (.scalar type) value) (completeValue gprotos (.scalar type) value)
      (10 + value.content) (representsValue gprotos (.scalar type) value) := by
  rw [knownValue_scalar, completeValue_scalar, representsValue_scalar]
  by_cases string : type = .string
  · subst string
    rw [safeValue_string]
    cases value with
    | string text =>
        have short : text.length < 2 ^ 31 := of_decide_eq_true sized
        have digits : (Codec.leb128 text.length).length ≤ 10 :=
          Codec.length_leb128_le (show text.length < 128 ^ (9 + 1) by omega)
        have bytes : anyScalar .string (.string text) = prefixed text.bytes := rfl
        have bound : (prefixed text.bytes).length ≤ 10 + text.length := by
          rw [prefixed, List.length_append]
          exact Nat.add_le_add digits (Nat.le_refl _)
        rw [bytes, pbEncodeScalar, Json.content]
        exact Walks.liftM_bind rfl (Walks.sends (Sends.string short) bound _)
    | null | false | true | number | array | object => exact liftM_error rfl
  · rw [safeValue_scalar gprotos type value string]
    obtain ⟨sends, bound⟩ := number string value
    exact Walks.sends sends (bound.trans (Nat.le_add_right ..)) _

end Walks

theorem option_ne_decimal (number : Nat) : CStr.ofString "option" ≠ .decimal number := by
  intro same
  have letter : (111 : UInt8) ∈ (CStr.decimal number).bytes := by
    rw [← same]
    decide
  rw [CStr.decimal_bytes] at letter
  obtain ⟨char, isDigit, code⟩ := List.mem_map.mp letter
  have range := Nat.isDigit_of_mem_toDigits (by decide) (by decide) isDigit
  simp only [Char.isDigit, Bool.and_eq_true, decide_eq_true_eq] at range
  have value := congrArg UInt8.toNat code
  rw [UInt8.toNat_ofNat'] at value
  have letter : (111 : UInt8).toNat = 111 := rfl
  have bounds : 48 ≤ char.toNat ∧ char.toNat ≤ 57 := range
  omega

variable {gprotos root protos : Json}

/-- A table has no text that could be an option. -/
theorem TablesWF.noOption (tables : TablesWF gprotos root) (wf : SchemaWF gprotos root)
    (reached : Reaches gprotos root protos) {key : CStr} (reserved : key ∈ reservedNames) :
    ∃ table, protos.lookup key = some table ∧ pbMemberText table "option" = .error .nullDeref := by
  have definition := wf.definitions protos reached
  rcases List.mem_pair.mp reserved with rfl | rfl
  · obtain ⟨entries, found⟩ := definition.messages
    refine ⟨_, found, ?_⟩
    rw [pbMemberText, pcJSONGetObjectItem_of_isObject rfl]
    change (do deref (← deref ((Json.object entries).lookup (.ofString "option"))).valuestring) = _
    cases entry : (Json.object entries).lookup (.ofString "option") with
    | none => rfl
    | some definition =>
        have object := tables.messages protos reached _ found _ _ entry
        cases definition with
        | object fields => rfl
        | null | false | true | number | string | array => cases object
  · obtain ⟨entries, found⟩ := definition.tags
    refine ⟨_, found, ?_⟩
    rw [pbMemberText, pcJSONGetObjectItem_of_isObject rfl]
    change (do deref (← deref ((Json.object entries).lookup (.ofString "option"))).valuestring) = _
    cases entry : (Json.object entries).lookup (.ofString "option") with
    | none => rfl
    | some name =>
        obtain ⟨number, same⟩ := tables.tags protos reached _ found _ _ entry
        exact absurd same (option_ne_decimal number)

/-- A key that has no field belongs to a table or is not there at all. -/
theorem lookup_of_fieldSpec?_none (wf : DefinitionWF gprotos protos) {key : CStr}
    (none : fieldSpec? gprotos protos key = none) (free : key ∉ reservedNames) :
    protos.lookup key = .none := by
  cases found : protos.lookup key with
  | none => rfl
  | some proto =>
      obtain ⟨spec, described, -⟩ := wf.fields key proto free found
      rw [none] at described
      cases described

/-- A value of a message type is a message of its definition. -/
theorem safeValue_message (gprotos definition value : Json) :
    safeValue gprotos (.message definition) value = safeMessage gprotos definition value := by
  cases value <;> rfl

theorem knownValue_message (gprotos definition value : Json) :
    knownValue gprotos (.message definition) value = knownMessage gprotos definition value := by
  cases value <;> rfl

theorem completeValue_message (gprotos definition value : Json) :
    completeValue gprotos (.message definition) value =
      completeMessage gprotos definition value := by
  cases value <;> rfl

theorem representsValue_message (gprotos definition value : Json) (bytes : Bytes) :
    representsValue gprotos (.message definition) value bytes ↔
      ∃ body, bytes = prefixed body ∧ represents gprotos definition value body := by
  cases value with
  | object fields => exact Iff.rfl
  | null | false | true | number | string | array =>
      constructor
      · rintro ⟨keyless, rfl⟩
        exact ⟨[], rfl, keyless, rfl⟩
      · rintro ⟨body, rfl, keyless, rfl⟩
        exact ⟨keyless, rfl⟩

namespace Walks

/-- A value in a field, if the walk over it as a message is known. -/
theorem protoOf {proto value : Json} {spec : FieldSpec}
    (described : FieldIs gprotos protos proto spec) (sized : value.sized)
    (small : value.content < 2 ^ 63) {encode : Json → PbWriter Unit}
    (walks : ∀ definition, spec.type = .message definition →
      Walks (encode definition) (safeMessage gprotos definition value)
        (knownMessage gprotos definition value) (completeMessage gprotos definition value)
        value.content (represents gprotos definition value)) :
    Walks (pbEncodeProto gprotos protos proto value encode) (safeValue gprotos spec.type value)
      (knownValue gprotos spec.type value) (completeValue gprotos spec.type value)
      (10 + value.content) (representsValue gprotos spec.type value) := by
  obtain ⟨text, textFound, typed⟩ := described.type
  rw [pbEncodeProto]
  refine liftM_bind textFound ?_
  generalize spec.type = type at typed walks
  cases typed with
  | scalar tables known =>
      refine liftM_bind tables ?_
      rw [known]
      exact scalar gprotos _ sized
  | message tables unknown resolved =>
      refine liftM_bind tables ?_
      rw [unknown]
      refine liftM_bind resolved ?_
      rw [safeValue_message, knownValue_message, completeValue_message]
      exact ((walks _ rfl).submessage small).congr (representsValue_message gprotos _ value)

/-- An array where a message belongs has no keys to look up. -/
theorem unnamed (wf : DefinitionWF gprotos protos) (items : List Json) :
    Walks (pbEncodeUnnamed protos items) items.isEmpty true (Json.array items).keyless
      (contentItems items) (represents gprotos protos (.array items)) := by
  obtain ⟨entries, messages⟩ := wf.messages
  obtain ⟨fields, rfl⟩ : ∃ fields, protos = .object fields := by
    cases protos with
    | object fields => exact ⟨fields, rfl⟩
    | null | false | true | number | string | array => cases messages
  cases items with
  | nil => exact sends Sends.pure_ok (Nat.le_refl _) _
  | cons item items =>
      cases fields with
      | nil => cases messages
      | cons field fields => exact nullDeref

end Walks

/-- A tag takes ten bytes at most. -/
theorem wireTag_length {spec : FieldSpec} (high : spec.tag < 2 ^ 29) :
    (wireTag spec).length ≤ 10 := by
  have low := spec.type.wireType_lt
  exact Codec.length_leb128_le (show spec.tag * 8 + spec.type.wireType < 128 ^ (9 + 1) by omega)

/-- The tag of a field is sent as the schema says. -/
theorem pbEncodeTagForField_sends {proto : Json} {spec : FieldSpec}
    (field : FieldIs gprotos protos proto spec) (low : 1 ≤ spec.tag) (high : spec.tag < 2 ^ 29) :
    Sends (pbEncodeTagForField proto) ⟨wireTag spec, .ok ()⟩ := by
  have wireType := spec.type.wireType_lt
  rw [pbEncodeTagForField_eq field low high]
  exact Sends.varint (by omega)

mutual

/-- The walk over a message ends as the message says. -/
theorem pbEncode_walks (wf : SchemaWF gprotos root) (tables : TablesWF gprotos root) :
    ∀ (msg protos : Json), Reaches gprotos root protos → msg.sized → msg.content < 2 ^ 63 →
      Walks (pbEncode gprotos protos msg) (safeMessage gprotos protos msg)
        (knownMessage gprotos protos msg) (completeMessage gprotos protos msg) msg.content
        (represents gprotos protos msg)
  | .object fields, protos, reached, sized, small => by
      rw [Json.content] at small ⊢
      rw [Json.sized] at sized
      rw [pbEncode]
      exact pbEncodeFields_walks wf tables fields protos reached sized small
  | .array items, protos, reached, _, _ => by
      rw [pbEncode]
      exact Walks.unnamed (wf.definitions protos reached) items
  | .null, _, _, _, _ | .false, _, _, _, _ | .true, _, _, _, _ | .number _, _, _, _, _
  | .string _, _, _, _, _ => Walks.sends Sends.pure_ok (Nat.zero_le _) _
termination_by structural msg => msg

/-- The fields of a message are encoded one after another. -/
theorem pbEncodeFields_walks (wf : SchemaWF gprotos root) (tables : TablesWF gprotos root) :
    ∀ (fields : List (CStr × Json)) (protos : Json), Reaches gprotos root protos →
      sizedFields fields → contentFields fields < 2 ^ 63 →
        Walks (pbEncodeFields gprotos protos fields) (safeFields gprotos protos fields)
          (knownFields gprotos protos fields) (completeFields gprotos protos fields)
          (contentFields fields) (representsFields gprotos protos fields)
  | [], _, _, _, _ => (Walks.sends Sends.pure_ok (Nat.zero_le _) true).congr fun bytes =>
      (iff_and_self.mpr fun _ => rfl)
  | field :: fields, protos, reached, sized, small => by
      rw [contentFields] at small ⊢
      rw [sizedFields, Bool.and_eq_true_iff] at sized
      rw [pbEncodeFields]
      exact (pbEncodeField_walks wf tables field protos reached sized.1 (by omega)).bind
        (pbEncodeFields_walks wf tables fields protos reached sized.2 (by omega))
termination_by structural fields => fields

/-- A field is encoded as its option says. -/
theorem pbEncodeField_walks (wf : SchemaWF gprotos root) (tables : TablesWF gprotos root) :
    ∀ (field : CStr × Json) (protos : Json), Reaches gprotos root protos →
      sizedField field → contentField field < 2 ^ 63 →
        Walks (pbEncodeField gprotos protos field) (safeField gprotos protos field)
          (knownField gprotos protos field) (completeField gprotos protos field)
          (contentField field) (representsField gprotos protos field)
  | (key, value), protos, reached, sized, small => by
      rw [contentField] at small ⊢
      rw [sizedField] at sized
      have definition := wf.definitions protos reached
      rw [pbEncodeField, safeField, knownField, completeField]
      cases described : fieldSpec? gprotos protos key with
      | none =>
          dsimp only
          by_cases reserved : key ∈ reservedNames
          · obtain ⟨table, found, missing⟩ := tables.noOption wf reached reserved
            rw [decide_eq_false (not_not_intro reserved)]
            refine Walks.liftM_bind
              ((pcJSONGetObjectItem_of_isObject definition.object key).trans
                (congrArg Except.ok found)) ?_
            exact Walks.liftM_error missing
          · rw [decide_eq_true reserved]
            refine Walks.liftM_bind ((pcJSONGetObjectItem_of_isObject definition.object key).trans
              (congrArg Except.ok (lookup_of_fieldSpec?_none definition described reserved))) ?_
            exact Walks.refused
      | some spec =>
          dsimp only
          obtain ⟨proto, found, field⟩ := fieldIs_of_fieldSpec? wf.object definition described
          obtain ⟨text, textFound, option⟩ := field.option
          obtain ⟨low, high, -⟩ := wf.number_of_fieldSpec? reached described
          refine Walks.liftM_bind found (Walks.liftM_bind textFound ?_)
          rcases FieldOption.ofText?_cases option with ⟨repeated, known, other⟩ | ⟨single, known⟩
          · rw [if_pos repeated, if_pos repeated, if_pos repeated, if_neg other, if_pos known]
            refine ((pbEncodeRepeated_walks wf tables value protos proto spec key reached described field
              sized (by omega)).mono (by omega)).congr fun bytes => ?_
            rw [representsField, described]
            dsimp only
            rw [if_pos repeated]
          · rw [if_neg single, if_neg single, if_neg single, if_pos known]
            refine ((Walks.behind (pbEncodeTagForField_sends field low high) (wireTag_length high)
              (Walks.protoOf field sized (by omega) fun definition type =>
                pbEncode_walks wf tables value definition (.field reached described type) sized
                  (by omega))).mono (by omega)).congr fun bytes => ?_
            rw [representsField, described]
            dsimp only
            rw [if_neg single]
termination_by structural field => field

/-- A repeated field is encoded item by item, packed if its type is a number. -/
theorem pbEncodeRepeated_walks (wf : SchemaWF gprotos root) (tables : TablesWF gprotos root) :
    ∀ (value protos proto : Json) (spec : FieldSpec) (key : CStr), Reaches gprotos root protos →
      fieldSpec? gprotos protos key = some spec → FieldIs gprotos protos proto spec →
        value.sized → value.content < 2 ^ 63 →
          Walks (pbEncodeRepeated gprotos protos proto value) (safeArray gprotos spec.type value)
            (knownArray gprotos spec.type value) (completeArray gprotos spec.type value)
            (20 + value.content) (representsArray gprotos spec value)
  | .array items, protos, proto, spec, key, reached, described, field, sized, small => by
      rw [Json.content] at small ⊢
      rw [Json.sized, Bool.and_eq_true_iff] at sized
      have short : items.length < 2 ^ 31 := of_decide_eq_true sized.1
      have digits : (Codec.leb128 items.length).length ≤ 10 :=
        Codec.length_leb128_le (show items.length < 128 ^ (9 + 1) by omega)
      obtain ⟨text, textFound, typed⟩ := field.type
      obtain ⟨low, high, -⟩ := wf.number_of_fieldSpec? reached described
      have tag := pbEncodeTagForField_sends field low high
      have elements {act : PbWriter Unit} {lead : Bytes} (sends : Sends act ⟨lead, .ok ()⟩)
          (bound : lead.length ≤ 10) :=
        pbEncodeElements_walks wf tables items protos proto spec key act lead reached described field sends
          bound sized.2 small
      rw [pbEncodeRepeated, pbEncodeArray, safeArray, knownArray, completeArray]
      refine Walks.liftM_bind textFound ?_
      simp only [pcJSONGetArraySize, toUInt64_intCount short, pbIsPacked_of_typeIs typed]
      cases packed : spec.type.packed with
      | true =>
          have whole := Walks.behind tag (wireTag_length high) (Walks.behind
            (Sends.varint (Nat.lt_trans short (by decide))) digits
            (elements Sends.pure_ok (Nat.zero_le _)))
          refine (whole.mono (by omega)).congr fun bytes => ?_
          rw [representsArray, if_pos packed]
      | false =>
          obtain ⟨output, sends, bound, ending, shape⟩ := elements tag (wireTag_length high)
          refine ⟨output, sends, bound.trans (Nat.le_add_left ..), ending, fun ok bytes => ?_⟩
          rw [representsArray, if_neg (by rw [packed]; decide), shape ok bytes]
          cases items with
          | nil =>
              exact ⟨fun both => absurd rfl both.1, fun both => absurd both.1 Bool.false_ne_true⟩
          | cons item items => exact and_iff_right (List.cons_ne_nil item items)
  | .null, _, _, _, _, _, _, _, _, _ | .false, _, _, _, _, _, _, _, _, _
  | .true, _, _, _, _, _, _, _, _, _ | .number _, _, _, _, _, _, _, _, _, _
  | .string _, _, _, _, _, _, _, _, _, _ | .object _, _, _, _, _, _, _, _, _, _ => by
      rw [pbEncodeRepeated]
      · exact (Walks.sends Sends.pure_ok (Nat.zero_le _) false).congr fun bytes =>
          ⟨False.elim, fun both => absurd both.1 Bool.false_ne_true⟩
      · exact nofun
termination_by structural value => value

/-- The items of an array are encoded with what stands in front of each. -/
theorem pbEncodeElements_walks (wf : SchemaWF gprotos root) (tables : TablesWF gprotos root) :
    ∀ (items : List Json) (protos proto : Json) (spec : FieldSpec) (key : CStr)
      (lead : PbWriter Unit) (bytes : Bytes), Reaches gprotos root protos →
        fieldSpec? gprotos protos key = some spec → FieldIs gprotos protos proto spec →
          Sends lead ⟨bytes, .ok ()⟩ → bytes.length ≤ 10 → sizedItems items →
            contentItems items < 2 ^ 63 →
              Walks (pbEncodeElements gprotos protos proto lead items.length items)
                (safeItems gprotos spec.type items) (knownItems gprotos spec.type items)
                (completeItems gprotos spec.type items) (contentItems items)
                (representsItems gprotos spec.type bytes items)
  | [], _, _, _, _, _, _, _, _, _, _, _, _, _ =>
      (Walks.sends Sends.pure_ok (Nat.zero_le _) true).congr fun bytes =>
        (iff_and_self.mpr fun _ => rfl)
  | item :: items, protos, proto, spec, key, lead, bytes, reached, described, field, sends,
      bound, sized, small => by
      rw [contentItems] at small ⊢
      rw [sizedItems, Bool.and_eq_true_iff] at sized
      rw [List.length_cons, pbEncodeElements]
      have value : Walks (pbEncodeProto gprotos protos proto item
          fun subMsg => pbEncode gprotos subMsg item) _ _ _ _ _ :=
        Walks.protoOf field sized.1 (by omega) fun definition type =>
          pbEncode_walks wf tables item definition (.field reached described type) sized.1 (by omega)
      have rest := pbEncodeElements_walks wf tables items protos proto spec key lead bytes reached described
        field sends bound sized.2 (by omega)
      exact (Walks.behind sends bound (value.bind rest)).mono (by omega)
termination_by structural items => items

end

variable {msg : Json}

/-- In a buffer with room for its output a walk ends as without one, and else it is refused. -/
theorem pcPbEncode_of_sends {output : Output} (sends : Sends (pbEncode gprotos protos msg) output)
    (small : output.bytes.length < 2 ^ 63) {capacity : Nat} (wide : capacity < 2 ^ 64) :
    (output.bytes.length ≤ capacity → (pcPbEncode capacity gprotos protos msg).1 = output.ending ∧
      (pcPbEncode capacity gprotos protos msg).2.state = output.bytes) ∧
    (capacity < output.bytes.length →
      (pcPbEncode capacity gprotos protos msg).1 = .error .refused) := by
  refine ⟨fun fits => ?_, fun short => ?_⟩
  · have written := sends.writes (pbOStreamFromBuffer capacity) rfl
      ((Nat.zero_add _).trans_le fits) wide
    rw [pcPbEncode, written]
    exact ⟨rfl, List.nil_append _⟩
  · obtain ⟨sent, -, stopped⟩ := sends.refuses (pbOStreamFromBuffer capacity) rfl
      (Nat.zero_le _) (short.trans_eq (Nat.zero_add _).symm) (by
        change 0 + output.bytes.length < _
        omega)
    exact congrArg Prod.fst stopped

/-- The encoder survives exactly the messages that have no null pointer before the first key
without a field and that, if there is no such key, have bytes for every key. -/
theorem survives_iff (wf : SchemaWF gprotos root) (tables : TablesWF gprotos root)
    (sized : msg.sized) (small : msg.content < 2 ^ 63) :
    Survives gprotos root msg ↔ safeMessage gprotos root msg ∧
      (knownMessage gprotos root msg → completeMessage gprotos root msg) := by
  obtain ⟨output, sends, bound, ending, shape⟩ :=
    pbEncode_walks wf tables msg root .root sized small
  have room : output.bytes.length < 2 ^ 63 := Nat.lt_of_le_of_lt bound small
  constructor
  · intro survives
    have wide : output.bytes.length < 2 ^ 64 := Nat.lt_trans room (by decide)
    obtain ⟨same, state⟩ := (pcPbEncode_of_sends sends room wide).1 (Nat.le_refl _)
    have returns := survives.returns _ wide
    have represented := survives.represented _ wide
    rw [same, state] at represented
    rw [same, ending] at returns
    have safe : safeMessage gprotos root msg = true := by
      cases safe : safeMessage gprotos root msg with
      | true => rfl
      | false =>
          rw [safe] at returns
          rcases returns with ok | refused
          · exact absurd (ok : Except.error Stop.nullDeref = _) nofun
          · exact absurd (refused : Except.error Stop.nullDeref = _) nofun
    refine ⟨safe, fun known => ?_⟩
    have ok : output.ending = .ok () := by
      rw [ending, safe, known]
      rfl
    exact ((shape ok output.bytes).mp (represented ok)).1
  · rintro ⟨safe, complete⟩
    refine ⟨fun capacity wide => ?_, fun capacity wide ok => ?_⟩
    · by_cases fits : output.bytes.length ≤ capacity
      · rw [((pcPbEncode_of_sends sends room wide).1 fits).1, ending, safe]
        cases knownMessage gprotos root msg with
        | true => exact .inl rfl
        | false => exact .inr rfl
      · exact .inr ((pcPbEncode_of_sends sends room wide).2 (Nat.lt_of_not_le fits))
    · by_cases fits : output.bytes.length ≤ capacity
      · obtain ⟨same, state⟩ := (pcPbEncode_of_sends sends room wide).1 fits
        rw [same] at ok
        rw [state]
        refine (shape ok output.bytes).mpr ⟨complete ?_, rfl⟩
        rw [ending, safe] at ok
        cases known : knownMessage gprotos root msg with
        | true => rfl
        | false =>
            rw [known] at ok
            cases ok
      · rw [(pcPbEncode_of_sends sends room wide).2 (Nat.lt_of_not_le fits)] at ok
        cases ok

theorem stringSchema_tables : TablesWF (.object []) stringSchema where
  messages := by
    intro protos reached table found key definition entry
    obtain rfl := eq_root_of_reaches (fun _ _ _ => stringSchema_scalars) reached
    obtain rfl := Option.some.inj found
    cases entry
  tags := by
    intro protos reached table found key name entry
    obtain rfl := eq_root_of_reaches (fun _ _ _ => stringSchema_scalars) reached
    obtain rfl := Option.some.inj found
    by_cases first : key = .ofString "1"
    · exact ⟨1, first⟩
    by_cases second : key = .ofString "2"
    · exact ⟨2, second⟩
    simp [Json.lookup, Ne.symm first, Ne.symm second] at entry

/-- A message with a name and an unknown key is refused, and one with both fields accepted. -/
theorem survives_short :
    let other := Json.object [(.ofString "name", .string (.ofString "hi")),
      (.ofString "other", .null)]
    let both := Json.object [(.ofString "name", .string (.ofString "hi")),
      (.ofString "tags", .array [.string (.ofString "a"), .string (.ofString "b")])]
    (Survives (.object []) stringSchema other ∧
        (pcPbEncode 16 (.object []) stringSchema other).1 = .error .refused) ∧
      Survives (.object []) stringSchema both ∧
        (pcPbEncode 16 (.object []) stringSchema both).1 = .ok () := by
  intro other both
  have unknown : Survives (.object []) stringSchema other :=
    (survives_iff (stringSchema_wf rfl) stringSchema_tables (by decide +kernel)
      (by decide +kernel)).mpr ⟨by decide +kernel, by decide +kernel⟩
  have known : Survives (.object []) stringSchema both :=
    (survives_iff (stringSchema_wf rfl) stringSchema_tables (by decide +kernel)
      (by decide +kernel)).mpr ⟨by decide +kernel, by decide +kernel⟩
  exact ⟨⟨unknown, by decide +kernel⟩, known, by decide +kernel⟩

/-- A number where a string belongs is a null pointer to the encoder. -/
theorem survives_fails_number : ¬ Survives (.object []) stringSchema
    (.object [(.ofString "name", .number (.ofInt 1))]) := by
  intro survives
  have returns := survives.returns 16 (by decide)
  revert returns
  decide +kernel

end Pomelo
