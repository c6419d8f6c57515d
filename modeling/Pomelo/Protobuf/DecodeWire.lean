import Pomelo.Protobuf.Decode
import Pomelo.Protobuf.Wire

/-!
# The decoder reads the wire format

An operation `Reads` bytes as a value when it consumes exactly these bytes,
whatever follows them. The scalar readers read what the wire format writes; the
walk of `pb_decode.c` is followed field by field, each field adding its normal
form to the object under construction (`pbDecode_reads`).
-/

namespace Pomelo

variable {α β : Type}

/-- Exactly these bytes are consumed, and read as the value. -/
def Reads (act : PbReader α) (bytes : Bytes) (value : α) : Prop :=
  ∀ rest left, act.run ⟨bytes ++ rest, bytes.length + left⟩ = (.ok value, ⟨rest, left⟩)

namespace Reads

/-- A value is read from no bytes. -/
theorem pure_nil (value : α) : Reads (pure value) [] value := fun rest left => by
  rw [PbStream.run_pure, List.nil_append, List.length_nil, Nat.zero_add]

/-- One part is read after the other. -/
theorem bind {first : PbReader α} {next : α → PbReader β} {bytes more : Bytes} {value : α}
    {result : β} (head : Reads first bytes value) (tail : Reads (next value) more result) :
    Reads (first >>= next) (bytes ++ more) result := fun rest left => by
  rw [PbStream.run_bind, List.append_assoc, List.length_append, Nat.add_assoc, head]
  exact tail rest left

/-- The last step of a reader may only name its result. -/
theorem bind_pure {first : PbReader α} {next : α → PbReader β} {bytes : Bytes} {value : α}
    {result : β} (head : Reads first bytes value) (same : next value = pure result) :
    Reads (first >>= next) bytes result := by
  have both := head.bind (same ▸ pure_nil result)
  rwa [List.append_nil] at both

/-- What is read from the schema takes no bytes. -/
theorem liftM_bind {value : α} {source : Except Stop α} {next : α → PbReader β} {bytes : Bytes}
    {result : β} (read : source = .ok value) (tail : Reads (next value) bytes result) :
    Reads (do next (← source)) bytes result := by
  subst read
  exact tail

/-- Bytes are read as they are. -/
theorem pbRead (bytes : Bytes) : Reads (pbRead bytes.length) bytes bytes := fun rest left => by
  unfold Pomelo.pbRead
  rw [PbStream.run_bind, PbStream.run_get]
  simp only [Nat.not_lt_of_le (Nat.le_add_right _ _), List.length_append, if_false,
    List.take_left, List.drop_left, Nat.add_sub_cancel_left]
  rfl

/-- A varint is read above the bits that are there already. -/
theorem varintLoop {passes bitpos dest value : Nat} (aligned : bitpos + 7 * passes = 70)
    (more : bitpos < 64) (low : dest < 2 ^ bitpos) (high : value < 2 ^ (64 - bitpos)) :
    Reads (pbDecodeVarintLoop passes bitpos dest) (Codec.leb128 value)
      (dest + value * 2 ^ bitpos) := by
  induction passes generalizing bitpos dest value with
  | zero => omega
  | succ passes ih =>
      have width : 2 ^ (64 - bitpos) * 2 ^ bitpos = 2 ^ 64 := by
        rw [← Nat.pow_add, Nat.sub_add_cancel (Nat.le_of_lt more)]
      have step : ∀ digit, digit ≤ value →
          dest ||| digit <<< bitpos % 2 ^ 64 = dest + digit * 2 ^ bitpos := by
        intro digit bound
        have within : digit <<< bitpos < 2 ^ 64 := by
          rw [Nat.shiftLeft_eq, ← width]
          exact Nat.mul_lt_mul_of_pos_right (Nat.lt_of_le_of_lt bound high) (Nat.two_pow_pos _)
        rw [Nat.mod_eq_of_lt within, Codec.or_shiftLeft_eq_add low]
      rw [pbDecodeVarintLoop, if_pos more]
      by_cases small : value < 128
      · obtain ⟨bits, last⟩ := Codec.last_digit_bits small
        rw [Codec.leb128_of_lt small]
        refine (pbRead [UInt8.ofNat value]).bind_pure ?_
        simp only [List.headD_cons, bits, last, if_true, step value (Nat.le_refl _)]
      · have large := Nat.le_of_not_lt small
        obtain ⟨bits, marked⟩ := Codec.marked_digit_bits (Nat.mod_lt value (by decide : 128 > 0))
        have room : 8 ≤ 64 - bitpos := by
          by_contra short
          have few : 2 ^ (64 - bitpos) ≤ 2 ^ 7 := Nat.pow_le_pow_right (by decide) (by omega)
          omega
        have split : 2 ^ (64 - bitpos) = 2 ^ (64 - (bitpos + 7)) * 128 := by
          rw [show 64 - bitpos = 64 - (bitpos + 7) + 7 by omega, Nat.pow_add]
        have grown : 2 ^ (bitpos + 7) = 2 ^ bitpos * 128 := Nat.pow_add 2 bitpos 7
        rw [Codec.leb128_of_le large]
        refine (pbRead [UInt8.ofNat (value % 128 + 128)]).bind ?_
        simp only [List.headD_cons, bits, marked, if_false, step _ (Nat.mod_le value 128)]
        have total : dest + value % 128 * 2 ^ bitpos + value / 128 * 2 ^ (bitpos + 7) =
            dest + value * 2 ^ bitpos := by
          rw [grown, Nat.add_assoc, Nat.mul_comm (2 ^ bitpos), ← Nat.mul_assoc, ← Nat.add_mul,
            Nat.mod_add_div' value 128]
        rw [← total]
        refine ih (by omega) (by omega) ?_ ?_
        · have bound : value % 128 < 128 := Nat.mod_lt _ (by decide)
          have most : value % 128 * 2 ^ bitpos ≤ 127 * 2 ^ bitpos :=
            Nat.mul_le_mul_right _ (by omega)
          rw [grown]
          omega
        · rw [Nat.div_lt_iff_lt_mul (by decide), ← split]
          exact high

/-- A number of 64 bits is read back. -/
theorem varint {value : Nat} (bound : value < 2 ^ 64) :
    Reads pbDecodeVarint (Codec.leb128 value) value := by
  have whole : Reads pbDecodeVarint (Codec.leb128 value) (0 + value * 2 ^ 0) :=
    varintLoop rfl (by decide) (by decide) bound
  rwa [Nat.zero_add, Nat.pow_zero, Nat.mul_one] at whole

/-- A number of 32 bits is read back. -/
theorem varint32 {value : Nat} (bound : value < 2 ^ 32) :
    Reads pbDecodeVarint32 (Codec.leb128 value) value :=
  (varint (Nat.lt_trans bound (by decide))).bind_pure (by rw [Nat.mod_eq_of_lt bound])

/-- A signed number is read back from the zigzag order. -/
theorem svarint {value : Int} (low : -2 ^ 63 ≤ value) (high : value < 2 ^ 63) :
    Reads pbDecodeSvarint (Codec.leb128 (zigzag value)) value := by
  have bound : zigzag value < 2 ^ 64 := by
    rw [zigzag]
    split <;> omega
  refine (varint bound).bind_pure ?_
  have parity : zigzag value &&& 1 = zigzag value % 2 := Nat.and_one_is_mod _
  have half : zigzag value >>> 1 = zigzag value / 2 := Nat.shiftRight_eq_div_pow _ 1
  rw [parity, half, zigzag]
  split
  · rw [if_pos (by omega)]
    exact congrArg pure (by omega)
  · rw [if_neg (by omega)]
    exact congrArg pure (by omega)

/-- A number of fixed width is read back, its least byte first. -/
theorem fixed {width pattern : Nat} (bound : pattern < 256 ^ width) :
    Reads (pbDecodeFixed width) (Codec.beBytes width pattern).reverse pattern := by
  have block := pbRead (Codec.beBytes width pattern).reverse
  rw [List.length_reverse, Codec.length_beBytes] at block
  refine block.bind_pure ?_
  rw [List.reverse_reverse, Codec.beValue_beBytes_of_lt bound]

/-- A text is read back behind its length. -/
theorem string {text : CStr} (bound : text.bytes.length < 2 ^ 31) :
    Reads pbDecodeString (prefixed text.bytes) text := by
  rw [pbDecodeString_eq]
  refine (varint32 (Nat.lt_trans bound (by decide))).bind ?_
  have room : ¬ (text.bytes.length + 1) % 2 ^ 32 ≤ text.bytes.length := by omega
  simp only [if_neg room]
  exact (pbRead text.bytes).bind_pure (by rw [CStr.ofBytes_bytes])

theorem pattern_eq {width : Nat} (pattern : BitVec width) :
    BitVec.ofNat width pattern.toNat = pattern := by
  rw [BitVec.ofNat_toNat, BitVec.setWidth_eq]

/-- A scalar that conforms is read back. -/
theorem scalar {type : PbType} {value : Json} (conforms : conformsScalar .machine type value) :
    Reads (pbDecodeScalar type) (wireScalar type value) value := by
  unfold conformsScalar at conforms
  split at conforms
  · next bits =>
      have range := bits.toCInt_range
      obtain ⟨whole, unsigned⟩ := Bool.and_eq_true_iff.mp conforms
      have positive : 0 ≤ bits.toCInt := of_decide_eq_true unsigned
      refine (varint (show bits.toCInt.toNat < 2 ^ 64 by omega)).bind_pure ?_
      rw [Int.toNat_of_nonneg positive, pcJSONCreateNumber, ← of_decide_eq_true whole]
  · next bits =>
      have range := bits.toCInt_range
      refine (svarint (show -2 ^ 63 ≤ bits.toCInt by omega) (by omega)).bind_pure ?_
      rw [pcJSONCreateNumber, ← of_decide_eq_true conforms]
  · next bits =>
      have range := bits.toCInt_range
      refine (svarint (show -2 ^ 63 ≤ bits.toCInt by omega) (by omega)).bind_pure ?_
      rw [pcJSONCreateNumber, ← of_decide_eq_true conforms]
  · next bits =>
      refine (fixed bits.toSingle.isLt).bind_pure ?_
      have pattern : BitVec.ofNat 32 bits.toSingle.toNat = bits.toSingle := pattern_eq bits.toSingle
      rw [Json.valuedouble, pattern, of_decide_eq_true conforms, pcJSONCreateNumber]
  · next bits =>
      refine (fixed bits.isLt).bind_pure ?_
      have pattern : BitVec.ofNat 64 bits.toNat = bits := pattern_eq bits
      rw [Json.valuedouble, pattern, pcJSONCreateNumber]
  · next text => exact (string (of_decide_eq_true conforms)).bind_pure rfl
  · cases conforms

/-- A tag is read back without its wire type. -/
theorem tag {number wireType : Nat} (low : 1 ≤ number) (high : number < 2 ^ 29)
    (narrow : wireType < 8) :
    Reads pbDecodeTag (Codec.leb128 (number * 8 + wireType)) (some number) := by
  intro rest left
  have read := varint32 (show number * 8 + wireType < 2 ^ 32 by omega) rest left
  have shift : (number * 8 + wireType) >>> 3 = number := by
    rw [Nat.shiftRight_eq_div_pow]
    omega
  unfold pbDecodeTag
  rw [PbStream.run_bind, PbStream.run_tryCatch, PbStream.run_map, read]
  obtain ⟨less, succ⟩ := Nat.exists_eq_add_one.mpr (show 0 < number * 8 + wireType by omega)
  rw [succ] at shift ⊢
  exact congrArg (fun tag => (Except.ok (some tag), IStream.mk rest left)) shift

/-- A submessage is read through a stream of its own, up to its end. -/
theorem submessage {decode : PbReader Json} {bytes : Bytes} {value : Json}
    (bound : bytes.length < 2 ^ 32)
    (whole : ∀ rest, decode.run ⟨bytes ++ rest, bytes.length⟩ = (.ok value, ⟨rest, 0⟩)) :
    Reads (pbDecodeSubmessage decode) (prefixed bytes) value := by
  refine (varint32 bound).bind ?_
  intro rest left
  rw [PbStream.run_bind, PbStream.run_get]
  simp only [Nat.not_lt_of_le (Nat.le_add_right bytes.length left), if_false, whole]
  rw [Nat.add_sub_cancel_left]
  rfl

end Reads

section Field

variable {gprotos protos proto : Json} {spec : FieldSpec} {decode : Json → Json → PbReader Json}

/-- How a value of a type is read, apart from where it is put. -/
def decodeNode (decode : Json → Json → PbReader Json) : FieldType → PbReader Json
  | .scalar type => pbDecodeScalar type
  | .message definition => pbDecodeSubmessage (decode definition (.object []))

/-- A value is put into an object under its name. -/
theorem pbDecodeProto_object (field : FieldIs gprotos protos proto spec) {bytes : Bytes}
    {value : Json} (read : Reads (decodeNode decode spec.type) bytes value) (key : CStr)
    (fields : List (CStr × Json)) :
    Reads (pbDecodeProto decode gprotos protos proto (some key) (.object fields)) bytes
      (.object (fields ++ [(key, value)])) := by
  obtain ⟨text, textFound, typed⟩ := field.type
  unfold pbDecodeProto
  refine Reads.liftM_bind textFound ?_
  generalize spec.type = type at typed read
  cases typed with
  | scalar tables known =>
      refine Reads.liftM_bind tables ?_
      rw [known]
      exact read.bind_pure rfl
  | message tables unknown resolved =>
      refine Reads.liftM_bind tables ?_
      rw [unknown]
      refine Reads.liftM_bind resolved ?_
      exact read.bind_pure rfl

/-- A value is put at the end of an array. -/
theorem pbDecodeProto_array (field : FieldIs gprotos protos proto spec) {type : PbType}
    (scalar : spec.type = .scalar type) {bytes : Bytes} {value : Json}
    (read : Reads (pbDecodeScalar type) bytes value) (key : CStr) (items : List Json) :
    Reads (pbDecodeProto decode gprotos protos proto (some key) (.array items)) bytes
      (.array (items ++ [value])) := by
  obtain ⟨text, textFound, typed⟩ := field.type
  unfold pbDecodeProto
  refine Reads.liftM_bind textFound ?_
  rw [scalar] at typed
  cases typed with
  | scalar tables known =>
      refine Reads.liftM_bind tables ?_
      rw [known]
      exact read.bind_pure rfl

/-- A message without a name is an item. -/
theorem pbDecodeProto_unnamed (field : FieldIs gprotos protos proto spec) {definition : Json}
    (message : spec.type = .message definition) {bytes : Bytes} {value : Json}
    (read : Reads (decodeNode decode spec.type) bytes value) :
    Reads (pbDecodeProto decode gprotos protos proto none (.object [])) bytes value := by
  obtain ⟨text, textFound, typed⟩ := field.type
  unfold pbDecodeProto
  refine Reads.liftM_bind textFound ?_
  rw [message] at typed read
  cases typed with
  | message tables unknown resolved =>
      refine Reads.liftM_bind tables ?_
      rw [unknown]
      exact Reads.liftM_bind resolved read

/-- The elements of a packed array are read one after another. -/
theorem pbDecodeElements_each (field : FieldIs gprotos protos proto spec) {type : PbType}
    (scalar : spec.type = .scalar type) (key : CStr) {parts : List (Bytes × Json)}
    (read : ∀ part ∈ parts, Reads (pbDecodeScalar type) part.1 part.2) (done : List Json) :
    Reads (pbDecodeElements decode gprotos protos proto key parts.length (.array done))
      (parts.flatMap Prod.fst) (.array (done ++ parts.map Prod.snd)) := by
  induction parts generalizing done with
  | nil =>
      rw [List.map_nil, List.append_nil]
      exact Reads.pure_nil _
  | cons part parts ih =>
      have first := read part (List.mem_cons_self ..)
      have rest := ih (fun part member => read part (List.mem_cons_of_mem _ member))
        (done ++ [part.2])
      rw [List.append_assoc, List.singleton_append] at rest
      exact (pbDecodeProto_array field scalar first key done).bind rest

/-- The elements of an array of a scalar type on the wire. -/
theorem wireItems_scalar (gprotos : Json) (type : PbType) (items : List Json) :
    wireItems gprotos (.scalar type) [] items =
      (items.map fun item => (wireScalar type item, item)).flatMap Prod.fst := by
  induction items with
  | nil => rw [wireItems]; rfl
  | cons item items ih => rw [wireItems, wireValue, ih]; rfl

theorem normalItems_scalar (gprotos : Json) (type : PbType) (items : List Json) :
    normalItems gprotos (.scalar type) items = items := by
  induction items with
  | nil => rw [normalItems]
  | cons item items ih => rw [normalItems, normalValue_scalar, ih]

theorem conformsItems_scalar {limits : Limits} {gprotos : Json} {type : PbType} {items : List Json}
    (conforms : conformsItems limits gprotos (.scalar type) items) :
    ∀ item ∈ items, conformsScalar limits type item := by
  induction items with
  | nil => exact fun _ member => absurd member List.not_mem_nil
  | cons item items ih =>
      rw [conformsItems, conformsValue, Bool.and_eq_true_iff] at conforms
      exact List.forall_mem_cons.mpr ⟨conforms.1, ih conforms.2⟩

/-- The elements of a packed array are read back in their order. -/
theorem pbDecodeElements_reads (field : FieldIs gprotos protos proto spec) {type : PbType}
    (scalar : spec.type = .scalar type) (key : CStr) {items : List Json}
    (conforms : conformsItems .machine gprotos spec.type items) (done : List Json) :
    Reads (pbDecodeElements decode gprotos protos proto key items.length (.array done))
      (wireItems gprotos spec.type [] items)
      (.array (done ++ normalItems gprotos spec.type items)) := by
  have each := @pbDecodeElements_each gprotos protos proto spec decode field type scalar key
    (items.map fun item => (wireScalar type item, item)) (fun part member => by
      obtain ⟨item, inside, rfl⟩ := List.mem_map.mp member
      exact Reads.scalar (conformsItems_scalar (scalar ▸ conforms) item inside)) done
  have same : items.map (Prod.snd ∘ fun item => (wireScalar type item, item)) = items :=
    List.map_id' items
  rw [List.length_map, List.map_map, same, ← wireItems_scalar gprotos] at each
  rw [scalar, normalItems_scalar]
  exact each

end Field

/-- With enough fuel, the decoder takes the object from one list of fields to
another over these bytes, and goes on behind them with enough fuel. -/
def Steps (gprotos protos : Json) (bytes : Bytes) (before after : List (CStr × Json)) : Prop :=
  ∀ fuel rest left, bytes.length + left ≤ fuel →
    ∃ remaining, left ≤ remaining ∧
      (pbDecode gprotos fuel protos (.object before)).run ⟨bytes ++ rest, bytes.length + left⟩ =
        (pbDecode gprotos remaining protos (.object after)).run ⟨rest, left⟩

namespace Steps

variable {gprotos protos : Json}

theorem refl (fields : List (CStr × Json)) : Steps gprotos protos [] fields fields :=
  fun fuel rest left enough =>
    ⟨fuel, Nat.le_trans (Nat.le_add_left _ _) enough, by rw [List.length_nil, Nat.zero_add]; rfl⟩

/-- The fields of two parts are read one after another. -/
theorem trans {bytes more : Bytes} {first second third : List (CStr × Json)}
    (head : Steps gprotos protos bytes first second)
    (tail : Steps gprotos protos more second third) :
    Steps gprotos protos (bytes ++ more) first third := fun fuel rest left enough => by
  rw [List.length_append, Nat.add_assoc] at enough
  obtain ⟨between, enoughBetween, run⟩ := head fuel (more ++ rest) (more.length + left) enough
  obtain ⟨remaining, enoughLeft, run'⟩ := tail between rest left enoughBetween
  refine ⟨remaining, enoughLeft, ?_⟩
  rw [List.append_assoc, List.length_append, Nat.add_assoc, run, run']

/-- One pass through the loop: a tag and the value behind it. -/
theorem pass {spec : FieldSpec} {bytes : Bytes} {before after : List (CStr × Json)}
    (low : 1 ≤ spec.tag) (high : spec.tag < 2 ^ 29)
    (read : ∀ fuel, bytes.length ≤ fuel →
      Reads (pbDecodeField (pbDecode gprotos fuel) gprotos protos spec.tag (.object before)) bytes
        (.object after)) :
    Steps gprotos protos (wireTag spec ++ bytes) before after := fun fuel rest left enough => by
  have tagLength := Codec.length_leb128_pos (spec.tag * 8 + spec.type.wireType)
  rw [List.length_append] at enough
  change (Codec.leb128 (spec.tag * 8 + spec.type.wireType)).length + _ + _ ≤ _ at enough
  cases fuel with
  | zero => omega
  | succ fuel =>
      refine ⟨fuel, by omega, ?_⟩
      have tagRead := Reads.tag low high spec.type.wireType_lt (bytes ++ rest) (bytes.length + left)
      have more : ¬ (wireTag spec ++ bytes).length + left = 0 := by
        rw [List.length_append]
        change ¬ (Codec.leb128 (spec.tag * 8 + spec.type.wireType)).length + _ + _ = 0
        omega
      rw [pbDecode, PbStream.run_bind, PbStream.run_get]
      simp only [if_neg more]
      rw [PbStream.run_bind, List.append_assoc, List.length_append, Nat.add_assoc, wireTag, tagRead]
      simp only
      rw [PbStream.run_bind, read fuel (by omega) rest left]

end Steps

section Field

variable {gprotos root protos proto : Json} {key : CStr} {spec : FieldSpec}
  {decode : Json → Json → PbReader Json} {before : List (CStr × Json)}

/-- The field with this tag is found. -/
theorem pbFindField_eq (wf : SchemaWF gprotos root) (reached : Reaches gprotos root protos)
    (described : fieldSpec? gprotos protos key = some spec)
    (found : pcJSONGetObjectItem protos key = .ok (some proto)) :
    pbFindField protos spec.tag = .ok (key, proto) := by
  have definition := wf.definitions protos reached
  obtain ⟨-, -, numbered⟩ := wf.number_of_fieldSpec? reached described
  obtain ⟨entries, tags⟩ := definition.tags
  rw [tags, Option.bind_some] at numbered
  have tables := pcJSONGetObjectItem_of_isObject definition.object (.ofString "__tags")
  have numbers := pcJSONGetObjectItem_object entries (.decimal spec.tag)
  rw [tags] at tables
  rw [numbered] at numbers
  simp only [pbFindField, tables, Stop.ok_bind, numbers, Json.valuestring, deref_some, found]
  rfl

/-- A single field is read back. -/
theorem pbDecodeField_single (find : pbFindField protos spec.tag = .ok (key, proto))
    (field : FieldIs gprotos protos proto spec) (single : spec.option ≠ .repeated) {bytes : Bytes}
    {value : Json} (read : Reads (decodeNode decode spec.type) bytes value) :
    Reads (pbDecodeField decode gprotos protos spec.tag (.object before)) bytes
      (.object (before ++ [(key, value)])) := by
  obtain ⟨text, textFound, option⟩ := field.option
  unfold pbDecodeField
  refine Reads.liftM_bind find (Reads.liftM_bind textFound ?_)
  rcases FieldOption.ofText?_cases option with ⟨repeated, -, -⟩ | ⟨-, known⟩
  · exact absurd repeated single
  · rw [if_pos (Or.comm.mp known)]
    exact pbDecodeProto_object field read key before

/-- A repeated field is read back item by item. -/
theorem pbDecodeField_repeated (find : pbFindField protos spec.tag = .ok (key, proto))
    (field : FieldIs gprotos protos proto spec) (repeated : spec.option = .repeated) {bytes : Bytes}
    {after : List (CStr × Json)}
    (read : Reads (pbDecodeArray decode gprotos protos proto key (.object before)) bytes
      (.object after)) :
    Reads (pbDecodeField decode gprotos protos spec.tag (.object before)) bytes
      (.object after) := by
  obtain ⟨text, textFound, option⟩ := field.option
  unfold pbDecodeField
  refine Reads.liftM_bind find (Reads.liftM_bind textFound ?_)
  rcases FieldOption.ofText?_cases option with ⟨-, known, other⟩ | ⟨single, -⟩
  · rw [if_neg fun either => other (Or.comm.mp either), if_pos known]
    exact read
  · exact absurd repeated single

theorem scalar_of_packed {type : FieldType} (packed : type.packed) :
    ∃ scalar, type = .scalar scalar := by
  cases type with
  | scalar scalar => exact ⟨scalar, rfl⟩
  | message definition => cases packed

/-- A packed array is read at once, if its elements are. -/
theorem pbDecodeArray_elements (field : FieldIs gprotos protos proto spec)
    (packed : spec.type.packed) (free : key ∉ before.map Prod.fst) {count : Nat}
    (short : count < 2 ^ 32) {bytes : Bytes} {results : List Json}
    (elements : Reads (pbDecodeElements decode gprotos protos proto key count (.array [])) bytes
      (.array results)) :
    Reads (pbDecodeArray decode gprotos protos proto key (.object before))
      (Codec.leb128 count ++ bytes) (.object (before ++ [(key, .array results)])) := by
  obtain ⟨text, textFound, typed⟩ := field.type
  unfold pbDecodeArray
  refine Reads.liftM_bind textFound (Reads.liftM_bind (pcJSONGetObjectItem_object before key) ?_)
  rw [Json.lookup_of_notMem free, pbIsPacked_of_typeIs typed, if_pos packed]
  exact (Reads.varint32 short).bind (elements.bind_pure rfl)

/-- A packed array is read back. -/
theorem pbDecodeArray_packed (field : FieldIs gprotos protos proto spec)
    (packed : spec.type.packed) (free : key ∉ before.map Prod.fst) {items : List Json}
    (conforms : conformsItems .machine gprotos spec.type items) (short : items.length < 2 ^ 31) :
    Reads (pbDecodeArray decode gprotos protos proto key (.object before))
      (Codec.leb128 items.length ++ wireItems gprotos spec.type [] items)
      (.object (before ++ [(key, .array (normalItems gprotos spec.type items))])) := by
  obtain ⟨type, scalar⟩ := scalar_of_packed packed
  exact pbDecodeArray_elements field packed free (Nat.lt_trans short (by decide))
    (pbDecodeElements_reads field scalar key conforms [])

/-- The fields of an object behind which an array may have been opened. -/
def withArray (before : List (CStr × Json)) (key : CStr) : Option (List Json) → List (CStr × Json)
  | none => before
  | some items => before ++ [(key, .array items)]

/-- An element of an array of strings or messages opens the array, or is put
behind the elements that are there. -/
theorem pbDecodeArray_tagged (field : FieldIs gprotos protos proto spec)
    (tagged : ¬ spec.type.packed) (free : key ∉ before.map Prod.fst) {bytes : Bytes} {value : Json}
    (read : Reads (decodeNode decode spec.type) bytes value) :
    ∀ opened, Reads
      (pbDecodeArray decode gprotos protos proto key (.object (withArray before key opened)))
      bytes (.object (withArray before key (some (opened.getD [] ++ [value])))) := by
  obtain ⟨text, textFound, typed⟩ := field.type
  -- What is added to the array, for either type of element.
  have element : ∀ (done : List Json) {finish : Json → PbReader Json} {result : Json},
      finish (.array (done ++ [value])) = pure result →
        Reads (if pbGetType text = some .string then do
            finish (← pbDecodeProto decode gprotos protos proto (some key) (.array done))
          else do
            let value ← pbDecodeProto decode gprotos protos proto none (.object [])
            finish (pcJSONAddItemToArray (.array done) value)) bytes result := by
    intro done finish result same
    cases type : spec.type with
    | scalar scalar =>
        rw [type] at typed read tagged
        cases typed with
        | scalar tables known =>
            obtain rfl : scalar = .string := by
              cases scalar <;> first | rfl | exact absurd rfl tagged
            rw [if_pos known]
            exact (pbDecodeProto_array field type read key done).bind_pure same
    | message definition =>
        have unnamed := pbDecodeProto_unnamed field type read
        rw [type] at typed
        cases typed with
        | message tables unknown resolved =>
            rw [if_neg (by rw [unknown]; decide)]
            exact unnamed.bind_pure same
  intro opened
  unfold pbDecodeArray
  refine Reads.liftM_bind textFound (Reads.liftM_bind (pcJSONGetObjectItem_object _ key) ?_)
  rw [pbIsPacked_of_typeIs typed, if_neg tagged]
  cases opened with
  | none =>
      rw [withArray, Json.lookup_of_notMem free]
      exact element [] rfl
  | some done =>
      rw [withArray, Json.lookup_append_of_notMem free]
      exact element done (congrArg pure (Json.modifyItem_append_of_notMem free _ _))

/-- A value is read as its type says, if `pb_decode` reads the fields of a
message. -/
theorem decodeNode_reads {type : FieldType} {value : Json}
    (conforms : conformsValue .machine gprotos type value)
    (message : ∀ definition fields, type = .message definition → value = .object fields →
      ∀ rest, (decode definition (.object [])).run
        ⟨wireFields gprotos definition fields ++ rest,
          (wireFields gprotos definition fields).length⟩ =
        (.ok (.object (normalFields gprotos definition fields)), ⟨rest, 0⟩)) :
    Reads (decodeNode decode type) (wireValue gprotos type value)
      (normalValue gprotos type value) := by
  cases type with
  | scalar type =>
      rw [wireValue, normalValue_scalar]
      rw [conformsValue] at conforms
      exact Reads.scalar conforms
  | message definition =>
      cases value with
      | object fields =>
          rw [conformsValue, Bool.and_eq_true_iff] at conforms
          rw [wireValue, normalValue]
          exact Reads.submessage (of_decide_eq_true conforms.2) (message _ _ rfl rfl)
      | null | false | true | number | string | array => cases conforms

end Field

theorem keys_normalField (gprotos protos : Json) (field : CStr × Json) {key : CStr}
    (member : key ∈ (normalField gprotos protos field).map Prod.fst) : key = field.1 := by
  obtain ⟨name, value⟩ := field
  rw [normalField] at member
  split at member
  · cases member
  · split at member
    · rw [List.map_map, List.mem_map] at member
      obtain ⟨array, -, rfl⟩ := member
      rfl
    · simpa using member

/-- The end of the bytes is the end of the loop. -/
theorem pbDecode_done (gprotos protos result : Json) (fuel : Nat) (rest : Bytes) :
    (pbDecode gprotos fuel protos result).run ⟨rest, 0⟩ = (.ok result, ⟨rest, 0⟩) := by
  cases fuel <;> rfl

section Walk

variable {gprotos root : Json}

mutual

/-- `pb_decode` reads the bytes of a message as its normal form. -/
theorem pbDecode_reads (wf : SchemaWF gprotos root) {protos : Json}
    (reached : Reaches gprotos root protos) :
    ∀ (msg : Json) (fields : List (CStr × Json)), msg = .object fields →
      conformsFields .machine gprotos protos fields →
        ∀ fuel rest, (wireFields gprotos protos fields).length ≤ fuel →
          (pbDecode gprotos fuel protos (.object [])).run
              ⟨wireFields gprotos protos fields ++ rest,
                (wireFields gprotos protos fields).length⟩ =
            (.ok (.object (normalFields gprotos protos fields)), ⟨rest, 0⟩)
  | .object _, fields, rfl, conforms, fuel, rest, enough => by
      have steps := pbDecodeFields_steps wf reached _ conforms [] (fun _ _ => List.not_mem_nil)
      obtain ⟨remaining, -, run⟩ := steps fuel rest 0 enough
      rw [Nat.add_zero] at run
      rw [run, List.nil_append, pbDecode_done]
termination_by structural msg => msg

/-- The fields of a message are read back, one step for each. -/
theorem pbDecodeFields_steps (wf : SchemaWF gprotos root) {protos : Json}
    (reached : Reaches gprotos root protos) :
    ∀ fields : List (CStr × Json), conformsFields .machine gprotos protos fields →
      ∀ before : List (CStr × Json),
        (∀ field ∈ fields, field.1 ∉ before.map Prod.fst) →
          Steps gprotos protos (wireFields gprotos protos fields) before
            (before ++ normalFields gprotos protos fields)
  | [], _, before, _ => by
      rw [wireFields, normalFields, List.append_nil]
      exact Steps.refl before
  | field :: fields, conforms, before, free => by
      rw [conformsFields, Bool.and_eq_true_iff, Bool.and_eq_true_iff] at conforms
      have distinct : field.1 ∉ fields.map Prod.fst := of_decide_eq_true conforms.1.2
      rw [wireFields, normalFields, ← List.append_assoc]
      refine (pbDecodeField_steps wf reached field conforms.1.1 before
        (free field (List.mem_cons_self ..))).trans
          (pbDecodeFields_steps wf reached fields conforms.2 _ ?_)
      intro other member taken
      rw [List.map_append, List.mem_append] at taken
      rcases taken with taken | taken
      · exact free other (List.mem_cons_of_mem _ member) taken
      · rw [keys_normalField gprotos protos field taken |>.symm] at distinct
        exact distinct (List.mem_map_of_mem member)
termination_by structural fields => fields

/-- A field is read back in one step, or in one for each of its items. -/
theorem pbDecodeField_steps (wf : SchemaWF gprotos root) {protos : Json}
    (reached : Reaches gprotos root protos) :
    ∀ field : CStr × Json, conformsField .machine gprotos protos field →
      ∀ before : List (CStr × Json), field.1 ∉ before.map Prod.fst →
        Steps gprotos protos (wireField gprotos protos field) before
          (before ++ normalField gprotos protos field)
  | (key, value), conforms, before, free => by
      rw [conformsField] at conforms
      rw [wireField, normalField]
      split at conforms
      · cases conforms
      next spec described =>
      obtain ⟨proto, found, field⟩ :=
        fieldIs_of_fieldSpec? wf.object (wf.definitions _ reached) described
      obtain ⟨low, high, -⟩ := wf.number_of_fieldSpec? reached described
      by_cases repeated : spec.option = .repeated
      · rw [if_pos repeated] at conforms
        rw [if_pos repeated, if_pos repeated]
        exact pbDecodeArray_steps wf reached described value conforms repeated before free
      · rw [if_neg repeated] at conforms
        rw [if_neg repeated, if_neg repeated]
        refine Steps.pass low high fun fuel enough => ?_
        refine pbDecodeField_single (pbFindField_eq wf reached described found) field repeated ?_
        refine decodeNode_reads conforms fun definition fields type object rest => ?_
        rw [type, object, conformsValue, Bool.and_eq_true_iff] at conforms
        rw [type, object, wireValue, prefixed, List.length_append] at enough
        exact pbDecode_reads wf (.field reached described type) value fields object conforms.1 fuel
          rest (by omega)
termination_by structural field => field

theorem pbDecodeArray_steps (wf : SchemaWF gprotos root) {protos : Json} {key : CStr}
    {spec : FieldSpec} (reached : Reaches gprotos root protos)
    (described : fieldSpec? gprotos protos key = some spec) :
    ∀ value : Json, conformsArray .machine gprotos spec.type value → spec.option = .repeated →
      ∀ before : List (CStr × Json), key ∉ before.map Prod.fst →
        Steps gprotos protos (wireArray gprotos spec value) before
          (before ++ (normalArray gprotos spec.type value).map fun value => (key, value))
  | .array items, conforms, repeated, before, free => by
      obtain ⟨proto, found, field⟩ :=
        fieldIs_of_fieldSpec? wf.object (wf.definitions _ reached) described
      obtain ⟨low, high, -⟩ := wf.number_of_fieldSpec? reached described
      have find := pbFindField_eq wf reached described found
      rw [conformsArray, Bool.and_eq_true_iff] at conforms
      rw [wireArray, normalArray]
      by_cases packed : spec.type.packed = true
      · rw [if_pos packed, if_neg fun empty => empty.2 packed]
        exact Steps.pass low high fun fuel enough => pbDecodeField_repeated find field repeated
          (pbDecodeArray_packed field packed free conforms.2 (of_decide_eq_true conforms.1))
      · rw [if_neg packed]
        have steps := pbDecodeItems_steps wf reached described items conforms.2 repeated packed
          before free none
        by_cases empty : items = []
        · rw [if_pos empty] at steps
          rw [if_pos ⟨empty, packed⟩, List.map_nil, List.append_nil]
          exact steps
        · rw [if_neg empty] at steps
          rw [if_neg fun none => empty none.1]
          exact steps
  | .null, conforms, _, _, _ | .false, conforms, _, _, _ | .true, conforms, _, _, _
  | .number _, conforms, _, _, _ | .string _, conforms, _, _, _
  | .object _, conforms, _, _, _ => by cases conforms
termination_by structural value => value

/-- The elements of an array of strings or messages. -/
theorem pbDecodeItems_steps (wf : SchemaWF gprotos root) {protos : Json} {key : CStr}
    {spec : FieldSpec} (reached : Reaches gprotos root protos)
    (described : fieldSpec? gprotos protos key = some spec) :
    ∀ items : List Json, conformsItems .machine gprotos spec.type items → spec.option = .repeated →
      ¬ spec.type.packed → ∀ before : List (CStr × Json), key ∉ before.map Prod.fst →
        ∀ opened, Steps gprotos protos (wireItems gprotos spec.type (wireTag spec) items)
          (withArray before key opened)
          (withArray before key (if items = [] then opened
            else some (opened.getD [] ++ normalItems gprotos spec.type items)))
  | [], _, _, _, before, _, opened => by
      rw [wireItems, if_pos rfl]
      exact Steps.refl _
  | item :: items, conforms, repeated, tagged, before, free, opened => by
      obtain ⟨proto, found, field⟩ :=
        fieldIs_of_fieldSpec? wf.object (wf.definitions _ reached) described
      obtain ⟨low, high, -⟩ := wf.number_of_fieldSpec? reached described
      have find := pbFindField_eq wf reached described found
      rw [conformsItems, Bool.and_eq_true_iff] at conforms
      have rest := pbDecodeItems_steps wf reached described items conforms.2 repeated tagged before
        free (some (opened.getD [] ++ [normalValue gprotos spec.type item]))
      have joined : (if items = [] then some (opened.getD [] ++ [normalValue gprotos spec.type item])
          else some (opened.getD [] ++ [normalValue gprotos spec.type item] ++
            normalItems gprotos spec.type items)) =
          some (opened.getD [] ++ normalItems gprotos spec.type (item :: items)) := by
        rw [normalItems, List.append_assoc, List.singleton_append]
        split
        · next empty => rw [empty, normalItems]
        · rfl
      rw [Option.getD_some, joined] at rest
      rw [wireItems, if_neg (List.cons_ne_nil _ _)]
      refine (Steps.pass low high fun fuel enough => ?_).trans rest
      refine pbDecodeField_repeated find field repeated
        (pbDecodeArray_tagged field tagged free ?_ opened)
      refine decodeNode_reads conforms.1 fun definition fields type object rest => ?_
      have inner := conforms.1
      rw [type, object, conformsValue, Bool.and_eq_true_iff] at inner
      rw [type, object, wireValue, prefixed, List.length_append] at enough
      exact pbDecode_reads wf (.field reached described type) item fields object inner.1 fuel rest
        (by omega)
termination_by structural items => items

end

end Walk

end Pomelo
