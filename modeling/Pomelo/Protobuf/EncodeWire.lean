import Pomelo.Protobuf.Encode
import Pomelo.Protobuf.Wire

/-!
# The encoder writes the wire format

An operation `Emits` bytes when a counting stream counts them and a writing
stream takes all of them or refuses. The walk of `pb_encode.c` over a conforming
message emits exactly the bytes of the wire format (`pbEncodeFields_emits`).
-/

namespace Pomelo

/-- A sum of sizes is a `size_t`. -/
theorem sizeSum_lt (first second : Nat) : sizeSum first second < 2 ^ 64 :=
  Nat.mod_lt _ (by decide)

/-- Sizes are added in any order. -/
theorem sizeSum_sizeSum (first second third : Nat) :
    sizeSum (sizeSum first second) third = sizeSum first (second + third) := by
  rw [sizeSum, sizeSum, sizeSum, Nat.mod_add_mod, Nat.add_assoc]

/-- A small sum is not wrapped. -/
theorem sizeSum_of_lt {first second : Nat} (bound : first + second < 2 ^ 64) :
    sizeSum first second = first + second :=
  Nat.mod_eq_of_lt bound

/-- Writing is counting, or copying into the buffer if there is room. -/
theorem pbWrite_run (buf : Bytes) (count : Nat) (stream : OStream) :
    (pbWrite buf count).run stream =
      if stream.callback then
        if sizeSum stream.bytesWritten count > stream.maxSize then (.error .refused, stream)
        else if count > buf.length then (.error .outOfBounds, stream)
        else (.ok (), { stream with
          state := stream.state ++ buf.take count
          bytesWritten := sizeSum stream.bytesWritten count })
      else (.ok (), { stream with bytesWritten := sizeSum stream.bytesWritten count }) := by
  unfold pbWrite
  rw [PbStream.run_bind, PbStream.run_get]
  simp only
  split
  · split
    · rfl
    · split <;> rfl
  · rfl

namespace OStream

/-- A counting stream behind some bytes. -/
def counted (stream : OStream) (count : Nat) : OStream :=
  { stream with bytesWritten := sizeSum stream.bytesWritten count }

/-- A writing stream behind some bytes. -/
def written (stream : OStream) (bytes : Bytes) : OStream :=
  { stream with
    state := stream.state ++ bytes
    bytesWritten := stream.bytesWritten + bytes.length }

theorem counted_counted (stream : OStream) (first second : Nat) :
    (stream.counted first).counted second = stream.counted (first + second) := by
  simp only [counted, sizeSum_sizeSum]

theorem written_written (stream : OStream) (first second : Bytes) :
    (stream.written first).written second = stream.written (first ++ second) := by
  simp only [written, List.append_assoc, List.length_append, Nat.add_assoc]

end OStream

/-- A counting stream counts the bytes; a stream with a callback writes them, and
refuses when they do not fit. -/
structure Emits (act : PbWriter Unit) (bytes : Bytes) : Prop where
  counts : ∀ stream : OStream, stream.callback = false → stream.bytesWritten < 2 ^ 64 →
    act.run stream = (.ok (), stream.counted bytes.length)
  writes : ∀ stream : OStream, stream.callback = true →
    stream.bytesWritten + bytes.length ≤ stream.maxSize → stream.maxSize < 2 ^ 64 →
      act.run stream = (.ok (), stream.written bytes)
  refuses : ∀ stream : OStream, stream.callback = true →
    stream.bytesWritten ≤ stream.maxSize → stream.maxSize < stream.bytesWritten + bytes.length →
      stream.bytesWritten + bytes.length < 2 ^ 64 → (act.run stream).1 = .error .refused

namespace Emits

theorem pure_nil : Emits (pure ()) [] where
  counts stream counting bound := by
    rw [PbStream.run_pure, OStream.counted, List.length_nil, sizeSum_of_lt bound]
    rfl
  writes stream writing room bound := by
    rw [PbStream.run_pure, OStream.written, List.append_nil]
    rfl
  refuses stream writing room short bound := by
    rw [List.length_nil] at short
    omega

/-- One part is emitted after the other. -/
theorem bind {first second : PbWriter Unit} {bytes more : Bytes} (head : Emits first bytes)
    (tail : Emits second more) : Emits (do first; second) (bytes ++ more) where
  counts stream counting bound := by
    rw [PbStream.run_bind, head.counts stream counting bound]
    rw [List.length_append, ← OStream.counted_counted]
    exact tail.counts (stream.counted bytes.length) counting (sizeSum_lt ..)
  writes stream writing room bound := by
    rw [List.length_append, ← Nat.add_assoc] at room
    rw [PbStream.run_bind, head.writes stream writing (by omega) bound]
    rw [← OStream.written_written]
    exact tail.writes (stream.written bytes) writing room bound
  refuses stream writing room short bound := by
    rw [List.length_append, ← Nat.add_assoc] at short bound
    rw [PbStream.run_bind]
    by_cases fits : stream.bytesWritten + bytes.length ≤ stream.maxSize
    · rw [head.writes stream writing fits (by omega)]
      exact tail.refuses (stream.written bytes) writing fits short bound
    · have stopped := head.refuses stream writing room (by omega) (by omega)
      generalize first.run stream = result at stopped
      obtain ⟨status, after⟩ := result
      obtain rfl : status = .error .refused := stopped
      rfl

/-- What is read from the schema emits nothing. -/
theorem liftM_bind {α : Type} {value : α} {source : Except Stop α} {next : α → PbWriter Unit}
    {bytes : Bytes} (read : source = .ok value) (tail : Emits (next value) bytes) :
    Emits (do next (← source)) bytes := by
  subst read
  exact tail

/-- The first bytes of a block are written. -/
theorem pbWrite_take {buf : Bytes} {count : Nat} (within : count ≤ buf.length) :
    Emits (pbWrite buf count) (buf.take count) where
  counts stream counting bound := by
    rw [pbWrite_run, if_neg (by rw [counting]; decide), List.length_take_of_le within]
    rfl
  writes stream writing room bound := by
    rw [List.length_take_of_le within] at room
    have sum := sizeSum_of_lt (Nat.lt_of_le_of_lt room bound)
    rw [pbWrite_run, if_pos writing, if_neg (by rw [sum]; omega), if_neg (Nat.not_lt_of_le within),
      sum, OStream.written, List.length_take_of_le within]
  refuses stream writing room short bound := by
    rw [List.length_take_of_le within] at short bound
    rw [pbWrite_run, if_pos writing, if_pos (by rw [sizeSum_of_lt bound]; omega)]

/-- Bytes are emitted as they are. -/
theorem pbWrite (buf : Bytes) : Emits (pbWrite buf buf.length) buf := by
  have whole := pbWrite_take (Nat.le_refl buf.length)
  rwa [List.take_length] at whole

end Emits

/-- A number below 2^31 survives its way through an `int`. -/
theorem toUInt64_intCount {count : Nat} (bound : count < 2 ^ 31) :
    toUInt64 (intCount count) = count := by
  rw [intCount, toUInt64]
  omega

/-- The last group loses its mark. -/
theorem clear_mark {value : Nat} (small : value < 128) :
    UInt8.ofNat (value % 128 + 128) &&& 0x7F = UInt8.ofNat value := by
  apply UInt8.toNat_inj.mp
  have low : (value % 128 + 128) % 2 ^ 8 &&& 0x7F = (value % 128 + 128) % 2 ^ 8 % 128 :=
    Nat.and_two_pow_sub_one_eq_mod _ 7
  rw [UInt8.toNat_and, UInt8.toNat_ofNat', UInt8.toNat_ofNat']
  change (value % 128 + 128) % 2 ^ 8 &&& 0x7F = value % 2 ^ 8
  omega

/-- The groups of a positive number, once the last mark is cleared, are its
base-128 numeral. -/
theorem pbVarintGroups_eq {fuel value : Nat} (positive : value ≠ 0) (bound : value < 2 ^ fuel) :
    let buffer := pbVarintGroups fuel value
    buffer.set (buffer.length - 1) (buffer.getD (buffer.length - 1) 0 &&& 0x7F) =
      Codec.leb128 value ∧ buffer.length = (Codec.leb128 value).length := by
  induction fuel generalizing value with
  | zero => omega
  | succ fuel ih =>
      have group : UInt8.ofNat (value &&& 0x7F ||| 0x80) = UInt8.ofNat (value % 128 + 128) := by
        rw [Codec.and_or_eq_mod_add]
      have shift : value >>> 7 = value / 128 := Nat.shiftRight_eq_div_pow value 7
      simp only [pbVarintGroups, if_neg positive, group, shift]
      by_cases small : value < 128
      · have rest : pbVarintGroups fuel 0 = [] := by cases fuel <;> rfl
        rw [Nat.div_eq_of_lt small, rest, Codec.leb128_of_lt small, ← clear_mark small]
        exact ⟨rfl, rfl⟩
      · have large := Nat.le_of_not_lt small
        obtain ⟨groups, length⟩ := ih (show value / 128 ≠ 0 by omega) (by omega)
        obtain ⟨last, count⟩ := Nat.exists_eq_add_one.mpr (Codec.length_leb128_pos (value / 128))
        rw [← length] at count
        rw [Codec.leb128_of_le large, ← groups, List.length_cons, List.length_cons, List.length_set]
        simp only [count, Nat.add_sub_cancel, List.set_cons_succ, List.getD_cons_succ, and_self]

/-- A varint is written at once. -/
theorem pbEncodeVarint_eq {value : Nat} (bound : value < 2 ^ 64) :
    pbEncodeVarint value = pbWrite (Codec.leb128 value) (Codec.leb128 value).length := by
  rw [pbEncodeVarint]
  split
  · next zero =>
      rw [zero, Codec.leb128_of_lt (by decide)]
      rfl
  · next positive =>
      obtain ⟨groups, length⟩ := pbVarintGroups_eq positive bound
      simp only [groups]
      rw [length]

/-- The zigzag order has 64 bits. -/
theorem zigzag_lt {value : Int} (low : -2 ^ 63 ≤ value) (high : value < 2 ^ 63) :
    zigzag value < 2 ^ 64 := by
  rw [zigzag]
  split <;> omega

/-- A signed number is written as the varint of its number. -/
theorem pbEncodeSvarint_eq {value : Int} (low : -2 ^ 63 ≤ value) (high : value < 2 ^ 63) :
    pbEncodeSvarint value = pbEncodeVarint (zigzag value) := by
  rw [pbEncodeSvarint, zigzag]
  split
  · have numbered : 2 ^ 64 - 1 - toUInt64 (2 * value) = (-2 * value - 1).toNat := by
      rw [toUInt64]
      omega
    rw [numbered]
  · have numbered : toUInt64 (2 * value) = (2 * value).toNat := by
      rw [toUInt64]
      omega
    rw [numbered]

namespace Emits

/-- A number of 64 bits is emitted in base 128. -/
theorem varint {value : Nat} (bound : value < 2 ^ 64) :
    Emits (pbEncodeVarint value) (Codec.leb128 value) := by
  rw [pbEncodeVarint_eq bound]
  exact pbWrite _

/-- A signed number is emitted in the zigzag order. -/
theorem svarint {value : Int} (low : -2 ^ 63 ≤ value) (high : value < 2 ^ 63) :
    Emits (pbEncodeSvarint value) (Codec.leb128 (zigzag value)) := by
  rw [pbEncodeSvarint_eq low high]
  exact varint (zigzag_lt low high)

/-- A number of fixed width is emitted with its least byte first. -/
theorem fixed (width pattern : Nat) :
    Emits (pbEncodeFixed width pattern) (Codec.beBytes width pattern).reverse := by
  have whole := pbWrite (Codec.beBytes width pattern).reverse
  rwa [List.length_reverse, Codec.length_beBytes] at whole

/-- A text is emitted behind its length. -/
theorem string {bytes : Bytes} (bound : bytes.length < 2 ^ 64) :
    Emits (pbEncodeString bytes bytes.length) (prefixed bytes) :=
  (varint bound).bind (pbWrite bytes)

/-- A scalar that conforms is emitted as the wire format says. -/
theorem scalar {limits : Limits} (sizes : limits.Encodable) {type : PbType} {value : Json}
    (conforms : conformsScalar limits type value) :
    Emits (pbEncodeScalar type value) (wireScalar type value) := by
  unfold conformsScalar at conforms
  split at conforms
  · next bits =>
      have range := bits.toCInt_range
      have unsigned : 0 ≤ bits.toCInt := of_decide_eq_true (Bool.and_eq_true_iff.mp conforms).2
      have same : toUInt64 bits.toCInt = bits.toCInt.toNat := by
        rw [toUInt64]
        omega
      rw [pbEncodeScalar, wireScalar, Json.valueint, same]
      exact varint (by omega)
  · next bits =>
      have range := bits.toCInt_range
      exact svarint (by simp only [Json.valueint]; omega) (by simp only [Json.valueint]; omega)
  · next bits =>
      have range := bits.toCInt_range
      exact svarint (by simp only [Json.valueint]; omega) (by simp only [Json.valueint]; omega)
  · exact fixed ..
  · exact fixed ..
  · next text =>
      have short := sizes.string _ conforms
      refine liftM_bind rfl ?_
      rw [CStr.length, toUInt64_intCount short]
      exact string (Nat.lt_trans short (by decide))
  · cases conforms

/-- A submessage is written in its second pass as it was counted. -/
theorem substream {encode : PbWriter Unit} {bytes : Bytes} (emits : Emits encode bytes) :
    Emits (pbEncodeSubstream encode bytes.length) bytes where
  counts stream counting small := by
    rw [pbEncodeSubstream, PbStream.run_bind, PbStream.run_get]
    simp only [if_pos counting]
    rw [pbWrite_run, if_neg (by rw [counting]; decide)]
    rfl
  writes stream writing room small := by
    obtain ⟨callback, state, maxSize, bytesWritten⟩ := stream
    obtain rfl : callback = true := writing
    have fits : bytesWritten + bytes.length ≤ maxSize := room
    have bound : maxSize < 2 ^ 64 := small
    have again := emits.writes ⟨true, state, bytes.length, 0⟩ rfl
      (Nat.le_of_eq (Nat.zero_add _)) (Nat.lt_of_le_of_lt (Nat.le_of_add_left_le fits) bound)
    have count : ((OStream.mk true state bytes.length 0).written bytes).bytesWritten =
        bytes.length := Nat.zero_add _
    have sum : sizeSum bytesWritten bytes.length = bytesWritten + bytes.length :=
      sizeSum_of_lt (Nat.lt_of_le_of_lt fits bound)
    rw [pbEncodeSubstream, PbStream.run_bind, PbStream.run_get]
    simp only [Bool.true_eq_false, if_false, sum, Nat.not_lt_of_le fits, again, count, ne_eq,
      not_true_eq_false]
    rfl
  refuses stream writing room short small := by
    rw [pbEncodeSubstream, PbStream.run_bind, PbStream.run_get]
    simp only [writing, Bool.true_eq_false, if_false, sizeSum_of_lt small, gt_iff_lt, short,
      if_true]
    rfl

/-- A submessage is written behind its length. -/
theorem submessage {encode : PbWriter Unit} {bytes : Bytes} (emits : Emits encode bytes)
    (small : bytes.length < 2 ^ 64) : Emits (pbEncodeSubmessage encode) (prefixed bytes) := by
  have counted := emits.counts OStream.counting rfl (by decide)
  have size : (OStream.counting.counted bytes.length).bytesWritten = bytes.length := by
    change sizeSum 0 bytes.length = bytes.length
    rw [sizeSum_of_lt (by omega), Nat.zero_add]
  rw [pbEncodeSubmessage, counted]
  simp only [size]
  exact (varint small).bind emits.substream

end Emits

/-- A tag is the varint of its number and its wire type. -/
theorem pbEncodeTag_eq {wireType number : Nat} (low : wireType < 8) (bound : number < 2 ^ 29) :
    pbEncodeTag wireType number = pbEncodeVarint (number * 8 + wireType) := by
  have shifted : number <<< 3 % 2 ^ 32 = number <<< 3 := by
    rw [Nat.shiftLeft_eq]
    omega
  have joined : wireType ||| number <<< 3 % 2 ^ 32 = number * 8 + wireType := by
    rw [shifted, Codec.or_shiftLeft_eq_add (show wireType < 2 ^ 3 from low), Nat.add_comm]
    rfl
  rw [pbEncodeTag, joined]

/-- The tag carries the wire type of the field. -/
theorem pbEncodeTagForField_eq {gprotos protos proto : Json} {spec : FieldSpec}
    (field : FieldIs gprotos protos proto spec) (low : 1 ≤ spec.tag) (high : spec.tag < 2 ^ 29) :
    pbEncodeTagForField proto = pbEncodeVarint (spec.tag * 8 + spec.type.wireType) := by
  obtain ⟨text, textFound, typed⟩ := field.type
  obtain ⟨node, nodeFound, number⟩ := field.tag
  have same : (node.valueint % 2 ^ 32).toNat = spec.tag := by omega
  rw [pbEncodeTagForField, textFound, nodeFound]
  change pbEncodeTag (pbGetConstantType text) (node.valueint % 2 ^ 32).toNat = _
  rw [pbGetConstantType_of_typeIs typed, same, pbEncodeTag_eq spec.type.wireType_lt high]

theorem pbEncodeTagForField_emits {gprotos protos proto : Json} {spec : FieldSpec}
    (field : FieldIs gprotos protos proto spec) (low : 1 ≤ spec.tag) (high : spec.tag < 2 ^ 29) :
    Emits (pbEncodeTagForField proto) (wireTag spec) := by
  have wireType := spec.type.wireType_lt
  rw [pbEncodeTagForField_eq field low high]
  exact Emits.varint (by omega)

variable {limits : Limits} {gprotos root : Json}

/-- A value is emitted as its type says, if `pb_encode` emits the fields of a
message. -/
theorem pbEncodeProto_emits (sizes : limits.Encodable) {protos proto : Json} {spec : FieldSpec}
    (described : FieldIs gprotos protos proto spec) {value : Json}
    (conforms : conformsValue limits gprotos spec.type value) {encode : Json → PbWriter Unit}
    (emits : ∀ definition fields, spec.type = .message definition → value = .object fields →
      Emits (encode definition) (wireFields gprotos definition fields)) :
    Emits (pbEncodeProto gprotos protos proto value encode) (wireValue gprotos spec.type value) := by
  obtain ⟨text, textFound, typed⟩ := described.type
  rw [pbEncodeProto]
  refine Emits.liftM_bind textFound ?_
  generalize spec.type = type at typed conforms emits
  cases typed with
  | scalar tables known =>
      refine Emits.liftM_bind tables ?_
      rw [known, wireValue]
      rw [conformsValue] at conforms
      exact Emits.scalar sizes conforms
  | message tables unknown resolved =>
      refine Emits.liftM_bind tables ?_
      rw [unknown]
      refine Emits.liftM_bind resolved ?_
      cases value with
      | object fields =>
          rw [conformsValue, Bool.and_eq_true_iff] at conforms
          rw [wireValue]
          exact (emits _ fields rfl rfl).submessage (sizes.message _ conforms.2)
      | null | false | true | number | string | array => cases conforms

mutual

/-- A message is emitted field by field. -/
theorem pbEncode_emits (sizes : limits.Encodable) (wf : SchemaWF gprotos root) {protos : Json}
    (reached : Reaches gprotos root protos) :
    ∀ (msg : Json) (fields : List (CStr × Json)), msg = .object fields →
      conformsFields limits gprotos protos fields →
        Emits (pbEncode gprotos protos msg) (wireFields gprotos protos fields)
  | .object _, _, rfl, conforms => by
      rw [pbEncode]
      exact pbEncodeFields_emits sizes wf reached _ conforms
termination_by structural msg => msg

/-- The walk over a conforming message emits its wire format. -/
theorem pbEncodeFields_emits (sizes : limits.Encodable) (wf : SchemaWF gprotos root) {protos : Json}
    (reached : Reaches gprotos root protos) :
    ∀ fields : List (CStr × Json), conformsFields limits gprotos protos fields →
      Emits (pbEncodeFields gprotos protos fields) (wireFields gprotos protos fields)
  | [], _ => by
      rw [pbEncodeFields, wireFields]
      exact Emits.pure_nil
  | field :: fields, conforms => by
      rw [conformsFields, Bool.and_eq_true_iff, Bool.and_eq_true_iff] at conforms
      rw [pbEncodeFields, wireFields]
      exact (pbEncodeField_emits sizes wf reached field conforms.1.1).bind
        (pbEncodeFields_emits sizes wf reached fields conforms.2)
termination_by structural fields => fields

/-- A field is emitted as its option says. -/
theorem pbEncodeField_emits (sizes : limits.Encodable) (wf : SchemaWF gprotos root) {protos : Json}
    (reached : Reaches gprotos root protos) :
    ∀ field : CStr × Json, conformsField limits gprotos protos field →
      Emits (pbEncodeField gprotos protos field) (wireField gprotos protos field)
  | (key, value), conforms => by
      rw [conformsField] at conforms
      rw [pbEncodeField, wireField]
      split at conforms
      · cases conforms
      next spec described =>
      obtain ⟨proto, found, field⟩ :=
        fieldIs_of_fieldSpec? wf.object (wf.definitions _ reached) described
      obtain ⟨text, textFound, option⟩ := field.option
      obtain ⟨low, high, -⟩ := wf.number_of_fieldSpec? reached described
      refine Emits.liftM_bind found (Emits.liftM_bind textFound ?_)
      rcases FieldOption.ofText?_cases option with ⟨repeated, known, other⟩ | ⟨single, known⟩
      · rw [if_pos repeated] at conforms ⊢
        rw [if_neg other, if_pos known]
        exact pbEncodeRepeated_emits sizes wf reached described field value conforms
      · rw [if_neg single] at conforms ⊢
        rw [if_pos known]
        refine (pbEncodeTagForField_emits field low high).bind
          (pbEncodeProto_emits sizes field conforms ?_)
        intro definition fields type object
        rw [type, object, conformsValue, Bool.and_eq_true_iff] at conforms
        exact pbEncode_emits sizes wf (.field reached described type) value fields object conforms.1
termination_by structural field => field

/-- A repeated field is emitted item by item, or packed. -/
theorem pbEncodeRepeated_emits (sizes : limits.Encodable) (wf : SchemaWF gprotos root)
    {protos proto : Json} {key : CStr} {spec : FieldSpec} (reached : Reaches gprotos root protos)
    (described : fieldSpec? gprotos protos key = some spec)
    (field : FieldIs gprotos protos proto spec) :
    ∀ value : Json, conformsArray limits gprotos spec.type value →
      Emits (pbEncodeRepeated gprotos protos proto value) (wireArray gprotos spec value)
  | .array items, conforms => by
      obtain ⟨text, textFound, typed⟩ := field.type
      obtain ⟨low, high, -⟩ := wf.number_of_fieldSpec? reached described
      have tag := pbEncodeTagForField_emits field low high
      rw [conformsArray, Bool.and_eq_true_iff] at conforms
      have short := sizes.array _ conforms.1
      rw [pbEncodeRepeated, wireArray]
      refine Emits.liftM_bind textFound ?_
      simp only [pcJSONGetArraySize, toUInt64_intCount short, pbIsPacked_of_typeIs typed]
      split
      · exact tag.bind ((Emits.varint (Nat.lt_trans short (by decide))).bind
          (pbEncodeElements_emits sizes wf reached described field Emits.pure_nil items conforms.2))
      · exact pbEncodeElements_emits sizes wf reached described field tag items conforms.2
  | .null, conforms | .false, conforms | .true, conforms | .number _, conforms
  | .string _, conforms | .object _, conforms => by cases conforms
termination_by structural value => value

/-- The items are emitted with what stands in front of each. -/
theorem pbEncodeElements_emits (sizes : limits.Encodable) (wf : SchemaWF gprotos root)
    {protos proto : Json} {key : CStr} {spec : FieldSpec} (reached : Reaches gprotos root protos)
    (described : fieldSpec? gprotos protos key = some spec)
    (field : FieldIs gprotos protos proto spec) {lead : PbWriter Unit} {bytes : Bytes}
    (emits : Emits lead bytes) :
    ∀ items : List Json, conformsItems limits gprotos spec.type items →
      Emits (pbEncodeElements gprotos protos proto lead items.length items)
        (wireItems gprotos spec.type bytes items)
  | [], _ => by
      rw [List.length_nil, pbEncodeElements, wireItems]
      exact Emits.pure_nil
  | item :: items, conforms => by
      rw [conformsItems, Bool.and_eq_true_iff] at conforms
      rw [List.length_cons, pbEncodeElements, wireItems, List.append_assoc]
      refine emits.bind ((pbEncodeProto_emits sizes field conforms.1 ?_).bind
        (pbEncodeElements_emits sizes wf reached described field emits items conforms.2))
      intro definition fields type object
      have inner := conforms.1
      rw [type, object, conformsValue, Bool.and_eq_true_iff] at inner
      exact pbEncode_emits sizes wf (.field reached described type) item fields object inner.1
termination_by structural items => items

end

/-- A conforming message that fits the buffer is written. -/
theorem pcPbEncode_of_le (sizes : limits.Encodable) (wf : SchemaWF gprotos root)
    {fields : List (CStr × Json)}
    (conforms : conformsFields limits gprotos root fields) {len : Nat} (bound : len < 2 ^ 64)
    (fits : (wireFields gprotos root fields).length ≤ len) :
    pcPbEncode len gprotos root (.object fields) =
      (.ok (), (pbOStreamFromBuffer len).written (wireFields gprotos root fields)) :=
  (pbEncode_emits sizes wf .root _ fields rfl conforms).writes (pbOStreamFromBuffer len) rfl
    (by rw [pbOStreamFromBuffer, Nat.zero_add]; exact fits) bound

/-- A conforming message that does not fit the buffer is refused. -/
theorem pcPbEncode_of_lt (sizes : limits.Encodable) (wf : SchemaWF gprotos root)
    {fields : List (CStr × Json)}
    (conforms : conformsFields limits gprotos root fields) {len : Nat}
    (bound : (wireFields gprotos root fields).length < 2 ^ 64)
    (short : len < (wireFields gprotos root fields).length) :
    (pcPbEncode len gprotos root (.object fields)).1 = .error .refused :=
  (pbEncode_emits sizes wf .root _ fields rfl conforms).refuses (pbOStreamFromBuffer len) rfl
    (Nat.zero_le _) (by rw [pbOStreamFromBuffer, Nat.zero_add]; exact short)
    (by rw [pbOStreamFromBuffer, Nat.zero_add]; exact bound)

end Pomelo
