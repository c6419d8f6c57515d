import Pomelo.Protobuf.Bounded
import Pomelo.Protobuf.DecodeWire

/-!
# Complete messages

What it takes for bytes to be a message of a schema from the first byte to the last, and how
far the decoder checks it (`accepted_complete_iff`): the end of the buffer inside a tag counts
as the end of the message.
-/

namespace Pomelo

variable {α β : Type}

/-- A varint from its first to its last byte, of at most so many bytes. -/
def wholeVarint : (limit : Nat) → Bytes → Prop
  | 0, _ | _ + 1, [] => False
  | limit + 1, byte :: rest => if byte &&& 0x80 = 0 then rest = [] else wholeVarint limit rest

/-- The number that the bytes of a varint stand for, from a bit position on. -/
def varintValue (bitpos : Nat) : Bytes → Nat
  | [] => 0
  | byte :: rest => (byte &&& 0x7F).toNat <<< bitpos % 2 ^ 64 ||| varintValue (bitpos + 7) rest

/-- The number of a varint as far as the decoder looks at it. -/
def varintNumber (bytes : Bytes) : Nat := varintValue 0 bytes % 2 ^ 32

/-- Bytes behind their number. -/
def lengthPrefixed (bytes : Bytes) : Prop :=
  ∃ front body, bytes = front ++ body ∧ wholeVarint 10 front ∧ body.length = varintNumber front

/-- The bytes of a value of a scalar type. -/
def wholeScalar : PbType → Bytes → Prop
  | .uInt32, bytes | .int32, bytes | .sInt32, bytes => wholeVarint 10 bytes
  | .float, bytes => bytes.length = 4
  | .double, bytes => bytes.length = 8
  | .string, bytes => lengthPrefixed bytes

/-- So many values of a scalar type, one behind the other. -/
def wholeElements (type : PbType) : (count : Nat) → Bytes → Prop
  | 0, bytes => bytes = []
  | count + 1, bytes =>
      ∃ first rest, bytes = first ++ rest ∧ wholeScalar type first ∧ wholeElements type count rest

/-- The field that a definition gives to a number. -/
def fieldAt? (gprotos protos : Json) (number : Nat) : Option FieldSpec := do
  let tags ← protos.lookup (.ofString "__tags")
  let name ← (← tags.lookup (.decimal number)).valuestring
  fieldSpec? gprotos protos name

/-- The values of a field are together behind one tag. -/
def FieldSpec.packed (spec : FieldSpec) : Bool := spec.option = .repeated && spec.type.packed

/-- A part of a message. -/
inductive Part where
  | value (type : FieldType)
  /-- A field behind its tag. -/
  | field (spec : FieldSpec)
  | message (protos : Json)

/-- Bytes are a part of a message, with nothing missing. -/
inductive Complete (gprotos : Json) : Part → Bytes → Prop where
  | scalar {type : PbType} {bytes : Bytes} (whole : wholeScalar type bytes) :
      Complete gprotos (.value (.scalar type)) bytes
  | submessage {definition : Json} {bytes front body : Bytes} (split : bytes = front ++ body)
      (varint : wholeVarint 10 front) (length : body.length = varintNumber front)
      (message : Complete gprotos (.message definition) body) :
      Complete gprotos (.value (.message definition)) bytes
  | packed {spec : FieldSpec} {type : PbType} {bytes front rest : Bytes} (packed : spec.packed)
      (scalar : spec.type = .scalar type) (split : bytes = front ++ rest)
      (varint : wholeVarint 10 front)
      (elements : wholeElements type (varintNumber front) rest) :
      Complete gprotos (.field spec) bytes
  | single {spec : FieldSpec} {bytes : Bytes} (single : ¬ spec.packed)
      (value : Complete gprotos (.value spec.type) bytes) : Complete gprotos (.field spec) bytes
  | stop {protos : Json} : Complete gprotos (.message protos) []
  /-- A tag that is zero ends a message, whatever comes behind it. -/
  | zero {protos : Json} {bytes tag rest : Bytes} (split : bytes = tag ++ rest)
      (varint : wholeVarint 10 tag) (zero : varintNumber tag = 0) :
      Complete gprotos (.message protos) bytes
  | next {protos : Json} {spec : FieldSpec} {bytes tag field rest : Bytes}
      (split : bytes = tag ++ field ++ rest) (varint : wholeVarint 10 tag)
      (nonzero : varintNumber tag ≠ 0)
      (described : fieldAt? gprotos protos (varintNumber tag >>> 3) = some spec)
      (value : Complete gprotos (.field spec) field)
      (message : Complete gprotos (.message protos) rest) :
      Complete gprotos (.message protos) bytes

/-- A varint ends in one place only. -/
theorem wholeVarint_unique {limit limit' : Nat} {first second more more' : Bytes}
    (whole : wholeVarint limit first) (whole' : wholeVarint limit' second)
    (same : first ++ more = second ++ more') : first = second := by
  induction first generalizing limit limit' second with
  | nil => cases limit <;> exact absurd whole id
  | cons byte rest ih =>
      cases second with
      | nil => cases limit' <;> exact absurd whole' id
      | cons byte' rest' =>
          obtain ⟨rfl, tail⟩ := List.cons.inj same
          cases limit with
          | zero => exact absurd whole id
          | succ limit =>
              cases limit' with
              | zero => exact absurd whole' id
              | succ limit' =>
                  rw [wholeVarint] at whole whole'
                  split at whole
                  · next last =>
                    rw [if_pos last] at whole'
                    rw [whole, whole']
                  · next more =>
                    rw [if_neg more] at whole'
                    rw [ih whole whole' tail]

/-- A varint takes a byte at least. -/
theorem ne_nil_of_wholeVarint {limit : Nat} {bytes : Bytes} (whole : wholeVarint limit bytes) :
    bytes ≠ [] := by
  rintro rfl
  cases limit <;> exact whole

/-- What has its length in front ends in one place only. -/
theorem lengthPrefixed_unique {first second more more' : Bytes} (whole : lengthPrefixed first)
    (whole' : lengthPrefixed second) (same : first ++ more = second ++ more') : first = second := by
  obtain ⟨front, body, rfl, varint, length⟩ := whole
  obtain ⟨front', body', rfl, varint', length'⟩ := whole'
  rw [List.append_assoc, List.append_assoc] at same
  obtain rfl := wholeVarint_unique varint varint' same
  have body := (List.append_inj (List.append_cancel_left same) (length.trans length'.symm)).1
  rw [body]

theorem wholeScalar_unique {type : PbType} {first second more more' : Bytes}
    (whole : wholeScalar type first) (whole' : wholeScalar type second)
    (same : first ++ more = second ++ more') : first = second := by
  cases type with
  | uInt32 | int32 | sInt32 => exact wholeVarint_unique whole whole' same
  | float | double => exact (List.append_inj same (whole.trans whole'.symm)).1
  | string => exact lengthPrefixed_unique whole whole' same

theorem wholeElements_unique {type : PbType} {count : Nat} {first second more more' : Bytes}
    (whole : wholeElements type count first) (whole' : wholeElements type count second)
    (same : first ++ more = second ++ more') : first = second := by
  induction count generalizing first second with
  | zero => rw [whole, whole']
  | succ count ih =>
      obtain ⟨value, rest, rfl, scalar, elements⟩ := whole
      obtain ⟨value', rest', rfl, scalar', elements'⟩ := whole'
      rw [List.append_assoc, List.append_assoc] at same
      obtain rfl := wholeScalar_unique scalar scalar' same
      rw [ih elements elements' (List.append_cancel_left same)]

/-- How far a value goes, whether or not it is complete. -/
def valueExtent : FieldType → Bytes → Prop
  | .scalar type, bytes => wholeScalar type bytes
  | .message _, bytes => lengthPrefixed bytes

/-- How far a field goes behind its tag. -/
def fieldExtent (spec : FieldSpec) (bytes : Bytes) : Prop :=
  if spec.packed then
    ∃ type front rest, spec.type = .scalar type ∧ bytes = front ++ rest ∧ wholeVarint 10 front ∧
      wholeElements type (varintNumber front) rest
  else valueExtent spec.type bytes

theorem valueExtent_unique {type : FieldType} {first second more more' : Bytes}
    (extent : valueExtent type first) (extent' : valueExtent type second)
    (same : first ++ more = second ++ more') : first = second := by
  cases type with
  | scalar type => exact wholeScalar_unique extent extent' same
  | message definition => exact lengthPrefixed_unique extent extent' same

theorem fieldExtent_unique {spec : FieldSpec} {first second more more' : Bytes}
    (extent : fieldExtent spec first) (extent' : fieldExtent spec second)
    (same : first ++ more = second ++ more') : first = second := by
  rw [fieldExtent] at extent extent'
  split at extent
  · next packed =>
    rw [if_pos packed] at extent'
    obtain ⟨type, front, rest, scalar, rfl, varint, elements⟩ := extent
    obtain ⟨type', front', rest', scalar', rfl, varint', elements'⟩ := extent'
    obtain rfl := FieldType.scalar.inj (scalar.symm.trans scalar')
    rw [List.append_assoc, List.append_assoc] at same
    obtain rfl := wholeVarint_unique varint varint' same
    rw [wholeElements_unique elements elements' (List.append_cancel_left same)]
  · next single =>
    rw [if_neg single] at extent'
    exact valueExtent_unique extent extent' same

namespace Complete

variable {gprotos : Json}

/-- A complete value is as long as it says. -/
theorem valueExtent {type : FieldType} {bytes : Bytes}
    (complete : Complete gprotos (.value type) bytes) : valueExtent type bytes := by
  cases complete with
  | scalar whole => exact whole
  | submessage split varint length message => exact ⟨_, _, split, varint, length⟩

/-- A complete field is as long as it says. -/
theorem fieldExtent {spec : FieldSpec} {bytes : Bytes}
    (complete : Complete gprotos (.field spec) bytes) : fieldExtent spec bytes := by
  rw [Pomelo.fieldExtent]
  cases complete with
  | packed packed scalar split varint elements =>
      rw [if_pos packed]
      exact ⟨_, _, _, scalar, split, varint, elements⟩
  | single single value =>
      rw [if_neg single]
      exact value.valueExtent

/-- A field without packing is complete if its value is. -/
theorem single_iff {spec : FieldSpec} (single : ¬ spec.packed) {bytes : Bytes} :
    Complete gprotos (.field spec) bytes ↔ Complete gprotos (.value spec.type) bytes := by
  constructor
  · intro complete
    cases complete with
    | packed packed scalar split varint elements => exact absurd packed single
    | single single value => exact value
  · exact .single single

/-- A message in a message is complete if its body is. -/
theorem submessage_iff {definition : Json} {front body : Bytes} (varint : wholeVarint 10 front)
    (length : body.length = varintNumber front) :
    Complete gprotos (.value (.message definition)) (front ++ body) ↔
      Complete gprotos (.message definition) body := by
  constructor
  · rintro (_ | ⟨split, varint', -, message⟩)
    obtain rfl := wholeVarint_unique varint varint' split
    rwa [List.append_cancel_left split]
  · exact fun message => .submessage rfl varint length message

/-- A field behind its tag, and the rest of the message. -/
theorem next_iff {protos : Json} {spec : FieldSpec} {tag field rest : Bytes}
    (varint : wholeVarint 10 tag) (nonzero : varintNumber tag ≠ 0)
    (described : fieldAt? gprotos protos (varintNumber tag >>> 3) = some spec)
    (extent : Pomelo.fieldExtent spec field) :
    Complete gprotos (.message protos) (tag ++ field ++ rest) ↔
      Complete gprotos (.field spec) field ∧ Complete gprotos (.message protos) rest := by
  constructor
  · intro complete
    generalize joined : tag ++ field ++ rest = bytes at complete
    cases complete with
    | stop =>
        rw [List.append_assoc] at joined
        exact absurd (List.append_eq_nil_iff.mp joined).1 (ne_nil_of_wholeVarint varint)
    | zero split varint' zero =>
        rw [split, List.append_assoc] at joined
        obtain rfl := wholeVarint_unique varint varint' joined
        exact absurd zero nonzero
    | next split varint' nonzero' described' value message =>
        rw [split, List.append_assoc, List.append_assoc] at joined
        obtain rfl := wholeVarint_unique varint varint' joined
        obtain rfl := Option.some.inj (described.symm.trans described')
        have tail := List.append_cancel_left joined
        obtain rfl := fieldExtent_unique extent value.fieldExtent tail
        rw [List.append_cancel_left tail]
        exact ⟨value, message⟩
  · exact fun ⟨value, message⟩ => .next rfl varint nonzero described value message

/-- A message does not end inside a tag. -/
theorem not_of_cut {protos : Json} {bytes : Bytes} (some : bytes ≠ [])
    (cut : ∀ front rest, bytes = front ++ rest → ¬ wholeVarint 10 front) :
    ¬ Complete gprotos (.message protos) bytes := by
  intro complete
  cases complete with
  | stop => exact some rfl
  | zero split varint zero => exact cut _ _ split varint
  | next split varint nonzero described value message =>
      exact cut _ _ (split.trans (List.append_assoc _ _ _)) varint

end Complete

/-- What the bytes are that a reader has used when it gives a value. -/
def Gets (act : PbReader α) (holds : α → Bytes → Prop) : Prop :=
  ∀ stream value after, act.run stream = (.ok value, after) →
    ∃ used, stream.state = used ++ after.state ∧
      used.length + after.bytesLeft = stream.bytesLeft ∧ holds value used

namespace Gets

theorem pure (value : α) : Gets (pure value) fun result used => result = value ∧ used = [] := by
  rintro stream result after ⟨⟩
  exact ⟨[], rfl, Nat.zero_add _, rfl, rfl⟩

/-- What stops says nothing about the bytes. -/
theorem stopped (stop : Stop) (holds : α → Bytes → Prop) : Gets (throw stop) holds := by
  rintro stream result after ⟨⟩

/-- Less may be said about the bytes. -/
theorem mono {act : PbReader α} {holds weaker : α → Bytes → Prop} (gets : Gets act holds)
    (weaken : ∀ value used, holds value used → weaker value used) : Gets act weaker := by
  intro stream value after run
  obtain ⟨used, state, count, held⟩ := gets stream value after run
  exact ⟨used, state, count, weaken value used held⟩

/-- The second step begins where the first one ended. -/
theorem bind {act : PbReader α} {next : α → PbReader β} {holds : α → Bytes → Prop}
    {rest : α → β → Bytes → Prop} (head : Gets act holds)
    (tail : ∀ value, Gets (next value) (rest value)) :
    Gets (act >>= next) fun result used => ∃ value front back,
      used = front ++ back ∧ holds value front ∧ rest value result back := by
  intro stream result last run
  rw [PbStream.run_bind] at run
  generalize first : act.run stream = outcome at run
  obtain ⟨stop | value, after⟩ := outcome
  · cases run
  · obtain ⟨front, state, count, held⟩ := head stream value after first
    obtain ⟨back, state', count', held'⟩ := tail value after result last run
    refine ⟨front ++ back, ?_, ?_, value, front, back, rfl, held, held'⟩
    · rw [state, state', List.append_assoc]
    · rw [List.length_append]
      omega

/-- As many bytes are read as are asked for. -/
theorem pbRead (count : Nat) :
    Gets (pbRead count) fun block used => block = used ∧ used.length = count := by
  intro stream block after run
  rw [Pomelo.pbRead, PbStream.run_bind, PbStream.run_get] at run
  dsimp only at run
  split at run
  · cases run
  next enough =>
  split at run
  · cases run
  next there =>
  cases run
  have length : (stream.state.take count).length = count := List.length_take_of_le (by omega)
  refine ⟨_, (List.take_append_drop count stream.state).symm, ?_, rfl, length⟩
  rw [length]
  exact Nat.add_sub_cancel' (Nat.le_of_not_lt enough)

/-- The loop of the groups reads a whole varint. -/
theorem varintLoop (passes bitpos dest : Nat) : Gets (pbDecodeVarintLoop passes bitpos dest)
    fun value used => wholeVarint passes used ∧ value = dest ||| varintValue bitpos used := by
  induction passes generalizing bitpos dest with
  | zero => exact stopped _ _
  | succ passes ih =>
      rw [pbDecodeVarintLoop]
      split
      · have rest (block : Bytes) : Gets
            (if block.headD 0 &&& 0x80 = 0 then
              Pure.pure (dest ||| (block.headD 0 &&& 0x7F).toNat <<< bitpos % 2 ^ 64)
            else pbDecodeVarintLoop passes (bitpos + 7)
              (dest ||| (block.headD 0 &&& 0x7F).toNat <<< bitpos % 2 ^ 64))
            fun value used => wholeVarint (passes + 1) (block.headD 0 :: used) ∧
              value = dest ||| varintValue bitpos (block.headD 0 :: used) := by
          split
          · next last =>
            refine (pure _).mono ?_
            rintro value used ⟨rfl, rfl⟩
            rw [wholeVarint, if_pos last]
            exact ⟨rfl, (congrArg (dest ||| ·) (Nat.or_zero _)).symm⟩
          · next more =>
            refine (ih _ _).mono ?_
            rintro value used ⟨whole, rfl⟩
            rw [wholeVarint, if_neg more]
            exact ⟨whole, Nat.or_assoc _ _ _⟩
        refine ((pbRead 1).bind rest).mono ?_
        rintro value used ⟨block, front, back, rfl, ⟨rfl, length⟩, held⟩
        obtain ⟨byte, rfl⟩ := List.length_eq_one_iff.mp length
        exact held
      · exact stopped _ _

/-- A varint has ten bytes at most. -/
theorem varint : Gets pbDecodeVarint fun value used =>
    wholeVarint 10 used ∧ value = varintValue 0 used :=
  (varintLoop 10 0 0).mono fun _ _ ⟨whole, same⟩ => ⟨whole, same.trans (Nat.zero_or _)⟩

theorem varint32 : Gets pbDecodeVarint32 fun value used =>
    wholeVarint 10 used ∧ value = varintNumber used := by
  refine (varint.bind fun value => pure _).mono ?_
  rintro result used ⟨value, front, back, rfl, ⟨whole, rfl⟩, rfl, rfl⟩
  rw [List.append_nil]
  exact ⟨whole, rfl⟩

/-- A scalar is read as a whole. -/
theorem scalar (type : PbType) :
    Gets (pbDecodeScalar type) fun _ used => wholeScalar type used := by
  have fixed (width : Nat) : Gets (pbDecodeFixed width) fun _ used => used.length = width := by
    refine ((pbRead width).bind fun block => pure _).mono ?_
    rintro value used ⟨block, front, back, rfl, ⟨-, length⟩, -, rfl⟩
    rwa [List.append_nil]
  have node {α : Type} {act : PbReader α} {holds : Bytes → Prop}
      (gets : Gets act fun _ used => holds used) (make : α → Json) :
      Gets (do return make (← act)) fun _ used => holds used := by
    refine (gets.bind fun value => pure _).mono ?_
    rintro result used ⟨value, front, back, rfl, held, -, rfl⟩
    rwa [List.append_nil]
  have svarint : Gets pbDecodeSvarint fun _ used => wholeVarint 10 used := by
    have rest (value : Nat) : Gets (if value &&& 1 = 1 then
        Pure.pure (-(value >>> 1 : Nat) - 1 : Int) else Pure.pure (value >>> 1 : Nat))
        fun _ used => used = [] := by
      split
      · exact (pure _).mono fun _ _ held => held.2
      · exact (pure _).mono fun _ _ held => held.2
    refine (varint.bind rest).mono ?_
    rintro value used ⟨number, front, back, rfl, ⟨whole, -⟩, rfl⟩
    rwa [List.append_nil]
  have string : Gets pbDecodeString fun _ used => lengthPrefixed used := by
    rw [pbDecodeString_eq]
    have rest (strLen : Nat) : Gets (do
        if (strLen + 1) % 2 ^ 32 ≤ strLen then throw .outOfBounds
        return CStr.ofBytes (← Pomelo.pbRead strLen) : PbReader CStr)
        fun _ used => used.length = strLen := by
      split
      · exact stopped _ _
      · refine ((pbRead strLen).bind fun bytes => pure _).mono ?_
        rintro value used ⟨bytes, front, back, rfl, ⟨-, length⟩, -, rfl⟩
        rwa [List.append_nil]
    refine (varint32.bind rest).mono ?_
    rintro text used ⟨strLen, front, body, rfl, ⟨whole, rfl⟩, length⟩
    exact ⟨front, body, rfl, whole, length⟩
  cases type with
  | uInt32 => exact node (varint.mono fun _ _ held => held.1) _
  | int32 | sInt32 => exact node svarint _
  | float => exact node (fixed 4) _
  | double => exact node (fixed 8) _
  | string => exact node string _

end Gets

/-- A varint that is not there to its last byte. -/
theorem pbDecodeVarintLoop_cut (passes bitpos dest : Nat) {stream after : IStream}
    (run : (pbDecodeVarintLoop passes bitpos dest).run stream = (.error .refused, after)) :
    ∃ used, stream.state = used ++ after.state ∧
      used.length + after.bytesLeft = stream.bytesLeft ∧
        ∀ front rest, used = front ++ rest → ¬ wholeVarint passes front := by
  have still (stream : IStream) (limit : Nat) : ∃ used, stream.state = used ++ stream.state ∧
      used.length + stream.bytesLeft = stream.bytesLeft ∧
        ∀ front rest, used = front ++ rest → ¬ wholeVarint limit front := by
    refine ⟨[], rfl, Nat.zero_add _, fun front rest split whole => ?_⟩
    exact ne_nil_of_wholeVarint whole (List.append_eq_nil_iff.mp split.symm).1
  induction passes generalizing bitpos dest stream with
  | zero =>
      cases run
      exact still _ 0
  | succ passes ih =>
      rw [pbDecodeVarintLoop] at run
      split at run
      · rw [PbStream.run_bind] at run
        generalize read : (pbRead 1).run stream = outcome at run
        obtain ⟨stop | block, middle⟩ := outcome
        · rw [pbRead, PbStream.run_bind, PbStream.run_get] at read
          dsimp only at read
          split at read
          · cases read
            cases run
            exact still _ _
          split at read
          · cases read
            cases run
          · cases read
        · obtain ⟨used, state, count, rfl, length⟩ := Gets.pbRead 1 stream block middle read
          obtain ⟨byte, rfl⟩ := List.length_eq_one_iff.mp length
          dsimp only [List.headD] at run
          split at run
          · cases run
          next more =>
          obtain ⟨used, state', count', cut⟩ := ih _ _ run
          rw [List.length_singleton] at count
          refine ⟨byte :: used, ?_, ?_, fun front rest split whole => ?_⟩
          · rw [state, state']
            rfl
          · rw [List.length_cons]
            omega
          · cases front with
            | nil => exact whole
            | cons first front =>
                obtain ⟨rfl, tail⟩ := List.cons.inj split
                rw [wholeVarint, if_neg more] at whole
                exact cut front rest tail whole
      · cases run
        exact still _ _

/-- What is there in the place of a tag. -/
inductive TagBytes (stream : IStream) : Except Stop (Option Nat) × IStream → Prop where
  | tag {after : IStream} {used : Bytes} (state : stream.state = used ++ after.state)
      (count : used.length + after.bytesLeft = stream.bytesLeft) (whole : wholeVarint 10 used)
      (nonzero : varintNumber used ≠ 0) :
      TagBytes stream (.ok (some (varintNumber used >>> 3)), after)
  | zero {after : IStream} {used : Bytes} (state : stream.state = used ++ after.state)
      (count : used.length + after.bytesLeft = stream.bytesLeft) (whole : wholeVarint 10 used)
      (zero : varintNumber used = 0) (run : (pbDecodeVarint32.run stream).1 = .ok 0) :
      TagBytes stream (.ok none, after)
  | cut {after : IStream} {used : Bytes} (state : stream.state = used ++ after.state)
      (count : used.length + after.bytesLeft = stream.bytesLeft) (empty : after.bytesLeft = 0)
      (cut : ∀ front rest, used = front ++ rest → ¬ wholeVarint 10 front)
      (run : (pbDecodeVarint32.run stream).1 = .error .refused) :
      TagBytes stream (.ok none, after)
  | stopped {stop : Stop} {after : IStream} : TagBytes stream (.error stop, after)

/-- A tag is read, or cut, or at the end of the message. -/
theorem pbDecodeTag_bytes (stream : IStream) : TagBytes stream (pbDecodeTag.run stream) := by
  have gets := Gets.varint32 stream
  have cut (after : IStream)
      (run : pbDecodeVarint32.run stream = (.error .refused, after)) :
      ∃ used, stream.state = used ++ after.state ∧
        used.length + after.bytesLeft = stream.bytesLeft ∧
          ∀ front rest, used = front ++ rest → ¬ wholeVarint 10 front := by
    rw [pbDecodeVarint32, pbDecodeVarint, PbStream.run_bind] at run
    generalize loop : (pbDecodeVarintLoop 10 0 0).run stream = outcome at run
    obtain ⟨stop | value, middle⟩ := outcome
    · cases run
      exact pbDecodeVarintLoop_cut 10 0 0 loop
    · cases run
  rw [pbDecodeTag_eq]
  generalize run : pbDecodeVarint32.run stream = outcome at gets cut
  obtain ⟨stop | (_ | temp), after⟩ := outcome
  · dsimp only
    split
    · next ended =>
      obtain ⟨rfl, empty⟩ := ended
      obtain ⟨used, state, count, absent⟩ := cut after rfl
      exact .cut state count empty absent (by rw [run])
    · exact .stopped
  · obtain ⟨used, state, count, whole, number⟩ := gets 0 after rfl
    exact .zero state count whole number.symm (by rw [run])
  · obtain ⟨used, state, count, whole, number⟩ := gets (temp + 1) after rfl
    have tag : TagBytes stream (.ok (some (varintNumber used >>> 3)), after) :=
      .tag state count whole (by omega)
    rwa [← number] at tag

/-- The bytes of no message end inside a tag. -/
def Uncut (notes : List PbNote) : Prop := ∀ depth, .cut depth ∉ notes

/-- Notes are without a cut if both parts are. -/
theorem uncut_append {notes more : List PbNote} :
    Uncut (notes ++ more) ↔ Uncut notes ∧ Uncut more := by
  simp only [Uncut, List.mem_append, not_or, forall_and]

/-- Any other note is no cut. -/
theorem uncut_singleton {note : PbNote} (other : ∀ depth, note ≠ .cut depth) : Uncut [note] :=
  fun depth member => other depth (List.mem_singleton.mp member).symm

/-- A note that is not about the end of a message at a tag. -/
def PbNote.endless : PbNote → Bool
  | .ended .. | .cut _ => false
  | _ => true

/-- No message ends at a tag. -/
def Endless (notes : List PbNote) : Prop := ∀ note ∈ notes, note.endless

/-- Notes are without an end if both parts are. -/
theorem endless_append {notes more : List PbNote} :
    Endless (notes ++ more) ↔ Endless notes ∧ Endless more := List.forall_mem_append

/-- Without an end no tag is cut. -/
theorem Endless.uncut {notes : List PbNote} (endless : Endless notes) : Uncut notes :=
  fun _ member => absurd (endless _ member) Bool.false_ne_true

/-- What is noted when nothing more is read: messages end because no bytes are left for them. -/
def PbNote.resting : PbNote → Prop
  | .turn _ stream => stream.bytesLeft = 0
  | .closed .. => True
  | _ => False

instance (note : PbNote) : Decidable note.resting :=
  match note with
  | .turn _ stream => inferInstanceAs (Decidable (stream.bytesLeft = 0))
  | .closed .. => inferInstanceAs (Decidable True)
  | .ended .. | .cut _ | .text _ | .block _ | .created => inferInstanceAs (Decidable False)

/-- Nothing more is read. -/
def Resting (notes : List PbNote) : Prop := ∀ note ∈ notes, note.resting

instance (notes : List PbNote) : Decidable (Resting notes) :=
  inferInstanceAs (Decidable (∀ note ∈ notes, note.resting))

/-- Where the loops only begin and end again, no tag is cut. -/
theorem Resting.endless {notes : List PbNote} (resting : Resting notes) : Endless notes := by
  intro note member
  have rests := resting note member
  cases note with
  | turn | closed => rfl
  | ended | cut | text | block | created => exact rests.elim

/-- A message below a depth is ended by a zero tag, and nothing is read behind it. -/
def EndsEarly (depth : Nat) (notes : List PbNote) : Prop :=
  ∃ front deeper left back, notes = front ++ .ended deeper left :: back ∧ depth < deeper ∧
    Whole depth front ∧ Resting back

/-- Without an end nothing ends early. -/
theorem Endless.not_endsEarly {notes : List PbNote} (endless : Endless notes) {depth : Nat} :
    ¬ EndsEarly depth notes := by
  rintro ⟨front, deeper, left, back, rfl, -⟩
  exact absurd (endless (.ended deeper left) (by simp)) Bool.false_ne_true

/-- The end of a message comes in the first notes or in the others. -/
theorem endsEarly_append {depth : Nat} {notes more : List PbNote}
    (early : EndsEarly depth (notes ++ more)) :
    Whole depth notes ∧ EndsEarly depth more ∨ EndsEarly depth notes ∧ Resting more := by
  obtain ⟨front, deeper, left, back, split, deep, whole, resting⟩ := early
  rcases List.append_eq_append_iff.mp split with ⟨between, rfl, tail⟩ | ⟨between, rfl, tail⟩
  · exact .inl ⟨(whole_append.mp whole).1,
      between, deeper, left, back, tail, deep, (whole_append.mp whole).2, resting⟩
  · cases between with
    | nil =>
        exact .inl ⟨(List.append_nil front).symm ▸ whole, [], deeper, left, back, tail.symm, deep,
          fun _ _ member => absurd member List.not_mem_nil, resting⟩
    | cons note between =>
        obtain ⟨rfl, rfl⟩ := List.cons.inj tail
        obtain ⟨between, more⟩ := List.forall_mem_append.mp resting
        exact .inr ⟨⟨front, deeper, left, _, rfl, deep, whole, between⟩, more⟩

/-- The message is the one right below, or deeper. -/
theorem EndsEarly.succ {depth : Nat} {notes : List PbNote} (early : EndsEarly depth notes) :
    Whole (depth + 1) notes ∨ EndsEarly (depth + 1) notes := by
  obtain ⟨front, deeper, left, back, rfl, deep, whole, resting⟩ := early
  have whole := (whole_succ.mp whole).1
  by_cases here : deeper = depth + 1
  · refine .inl (whole_append.mpr ⟨whole, fun other left member deeper' => ?_⟩)
    rcases List.mem_cons.mp member with same | member
    · cases same
      omega
    · exact absurd (resting.endless _ member) Bool.false_ne_true
  · exact .inr ⟨front, deeper, left, back, rfl, by omega, whole, resting⟩

/-- Where every message that is ended ahead of its last byte is the last thing that is read,
there is one such message at most. -/
theorem whole_or_endsEarly {notes : List PbNote} (depth : Nat)
    (last : ∀ before deeper left after, notes = before ++ .ended deeper left :: after →
      depth < deeper → left = 0 ∨ Resting after) : Whole depth notes ∨ EndsEarly depth notes := by
  induction notes with
  | nil => exact .inl fun _ _ member => absurd member List.not_mem_nil
  | cons note notes ih =>
      by_cases ended : ∃ deeper left, note = .ended deeper left ∧ depth < deeper ∧ left ≠ 0
      · obtain ⟨deeper, left, rfl, deep, some_left⟩ := ended
        have resting := (last [] deeper left notes rfl deep).resolve_left some_left
        exact .inr ⟨[], deeper, left, notes, rfl, deep,
          fun _ _ member => absurd member List.not_mem_nil, resting⟩
      · have single : Whole depth [note] := fun deeper left member deep => by
          by_contra some_left
          exact ended ⟨deeper, left, (List.mem_singleton.mp member).symm, deep, some_left⟩
        refine (ih fun before deeper left after split => ?_).imp (fun whole => ?_) fun early => ?_
        · exact last (note :: before) deeper left after (congrArg (note :: ·) split)
        · exact whole_append.mpr ⟨single, whole⟩
        · obtain ⟨front, deeper, left, back, rfl, deep, whole, resting⟩ := early
          exact ⟨note :: front, deeper, left, back, rfl, deep, whole_append.mpr ⟨single, whole⟩,
            resting⟩

/-- An operation that notes no end of a message: what the bytes are that it uses. -/
def Uses (act : PbWatcher α) (extent : Bytes → Prop) : Prop :=
  ∀ before value after, act.run before = (.ok value, after) →
    ∃ notes used, after.notes = before.notes ++ notes ∧ Endless notes ∧
      before.stream.state = used ++ after.stream.state ∧
        used.length + after.stream.bytesLeft = before.stream.bytesLeft ∧ extent used

/-- An operation that leaves the stream alone. -/
abbrev Remarks (act : PbWatcher α) : Prop := Uses act (· = [])

namespace Uses

variable {extent : Bytes → Prop}

/-- A value is noted by nothing. -/
theorem pure (value : α) : Remarks (pure value) := by
  rintro before other after ⟨⟩
  exact ⟨[], [], (List.append_nil _).symm, fun _ member => absurd member List.not_mem_nil, rfl,
    Nat.zero_add _, rfl⟩

theorem liftM (source : Except Stop α) : Remarks (liftM source) := by
  cases source with
  | ok value => exact pure value
  | error stop => rintro before other after ⟨⟩

/-- A note about anything but the end of a loop. -/
theorem note {note : PbNote} (other : note.endless) : Remarks (PbWatcher.note note) := by
  rintro before value after ⟨⟩
  exact ⟨[note], [], rfl, List.forall_mem_singleton.mpr other, rfl, Nat.zero_add _, rfl⟩

/-- A note about the text that is read. -/
theorem noteText : Remarks PbWatcher.noteText := by
  intro before value after run
  rw [PbWatcher.noteText, PbStream.run_bind, PbStream.run_get] at run
  dsimp only at run
  cases size : pbDecodeVarint32.run before.stream with
  | mk status stream =>
      rw [size] at run
      cases status with
      | error stop => exact pure () before value after run
      | ok strLen =>
          have noted := congrArg Prod.snd run
          change WatchedStream.mk before.stream (before.notes ++ [PbNote.text strLen] ++
            [PbNote.block (pbStringBlock strLen stream)]) = after at noted
          subst noted
          refine ⟨_, [], List.append_assoc .., ?_, rfl, Nat.zero_add _, rfl⟩
          exact endless_append.mpr ⟨List.forall_mem_singleton.mpr rfl,
            List.forall_mem_singleton.mpr rfl⟩

/-- More may be said about the bytes. -/
theorem mono {act : PbWatcher α} {wider : Bytes → Prop} (uses : Uses act extent)
    (weaken : ∀ bytes, extent bytes → wider bytes) : Uses act wider := by
  intro before value after run
  obtain ⟨notes, used, noted, endless, state, count, far⟩ := uses before value after run
  exact ⟨notes, used, noted, endless, state, count, weaken used far⟩

/-- Two steps use what the first and the second one use. -/
theorem bind {first : PbWatcher α} {next : α → PbWatcher β} {extent' extent'' : Bytes → Prop}
    (head : Uses first extent') (tail : ∀ value, Uses (next value) extent'')
    (join : ∀ front back, extent' front → extent'' back → extent (front ++ back)) :
    Uses (first >>= next) extent := by
  intro before result last run
  rw [PbStream.run_bind] at run
  generalize start : first.run before = outcome at run
  obtain ⟨stop | value, after⟩ := outcome
  · cases run
  · obtain ⟨notes, front, noted, endless, state, count, far⟩ := head before value after start
    obtain ⟨more, back, noted', endless', state', count', far'⟩ :=
      tail value after result last run
    refine ⟨notes ++ more, front ++ back, by rw [noted', noted, List.append_assoc],
      endless_append.mpr ⟨endless, endless'⟩, ?_, ?_, join front back far far'⟩
    · rw [state, state', List.append_assoc]
    · rw [List.length_append]
      omega

/-- Behind what leaves the stream alone. -/
theorem remarks_bind {first : PbWatcher α} (remarks : Remarks first) {next : α → PbWatcher β}
    (tail : ∀ value, Uses (next value) extent) : Uses (first >>= next) extent :=
  remarks.bind tail (by rintro _ back rfl far; exact far)

/-- Ahead of what leaves the stream alone. -/
theorem then_remarks {first : PbWatcher α} {next : α → PbWatcher β} (head : Uses first extent)
    (remarks : ∀ value, Remarks (next value)) : Uses (first >>= next) extent :=
  head.bind remarks (by rintro front _ far rfl; rwa [List.append_nil])

/-- Behind a reader that is not noted. -/
theorem read_bind {act : PbReader α} {holds : α → Bytes → Prop} (gets : Gets act holds)
    {next : α → PbWatcher β} {extent' : α → Bytes → Prop}
    (tail : ∀ value, Uses (next value) (extent' value))
    (join : ∀ value front back, holds value front → extent' value back → extent (front ++ back)) :
    Uses (PbWatcher.read act >>= next) extent := by
  intro before result last run
  rw [PbStream.run_bind] at run
  have read : (PbWatcher.read act).run before =
      ((act.run before.stream).1, ⟨(act.run before.stream).2, before.notes⟩) := rfl
  rw [read] at run
  have gets := gets before.stream
  generalize act.run before.stream = outcome at run gets
  obtain ⟨stop | value, after⟩ := outcome
  · cases run
  · obtain ⟨front, state, count, held⟩ := gets value after rfl
    obtain ⟨notes, back, noted, endless, state', count', far⟩ :=
      tail value ⟨after, before.notes⟩ result last run
    refine ⟨notes, front ++ back, noted, endless, ?_, ?_, join value front back held far⟩
    · rw [state, List.append_assoc, ← state']
    · rw [List.length_append]
      dsimp only at count'
      omega

end Uses

/-- The bytes that are left in a message. -/
def IStream.rest (stream : IStream) : Bytes := stream.state.take stream.bytesLeft

/-- What the bytes are that an operation has used when it gives a value: how far they go, and
what is true of them if no message is cut. If a submessage is ended ahead of its last byte and
nothing is read behind it, they are all that were left. -/
def Parses (depth : Nat) (act : PbWatcher α) (extent complete : Bytes → Prop) : Prop :=
  ∀ before value after, act.run before = (.ok value, after) →
    ∃ notes, after.notes = before.notes ++ notes ∧
      (Whole depth notes → ∃ used, before.stream.state = used ++ after.stream.state ∧
        used.length + after.stream.bytesLeft = before.stream.bytesLeft ∧
          extent used ∧ (complete used ↔ Uncut notes)) ∧
      (EndsEarly depth notes → after.stream.bytesLeft = 0 →
        before.stream.bytesLeft ≤ before.stream.state.length →
          extent before.stream.rest ∧ (complete before.stream.rest ↔ Uncut notes))

namespace Parses

variable {depth : Nat} {extent complete : Bytes → Prop}

/-- The same bytes, said in other words. -/
theorem mono {act : PbWatcher α} {extent' complete' : Bytes → Prop}
    (parses : Parses depth act extent complete)
    (same : ∀ bytes, extent bytes → extent' bytes ∧ (complete' bytes ↔ complete bytes)) :
    Parses depth act extent' complete' := by
  intro before value after run
  obtain ⟨notes, noted, parsed, ended⟩ := parses before value after run
  refine ⟨notes, noted, fun whole => ?_, fun early empty there => ?_⟩
  · obtain ⟨used, state, count, far, uncut⟩ := parsed whole
    exact ⟨used, state, count, (same used far).1, (same used far).2.trans uncut⟩
  · obtain ⟨far, uncut⟩ := ended early empty there
    exact ⟨(same _ far).1, (same _ far).2.trans uncut⟩

/-- What needs no loop is complete where it is read as a whole. -/
theorem of_uses {act : PbWatcher α} (uses : Uses act extent)
    (full : ∀ bytes, extent bytes → complete bytes) : Parses depth act extent complete := by
  intro before value after run
  obtain ⟨notes, used, noted, endless, state, count, far⟩ := uses before value after run
  exact ⟨notes, noted,
    fun _ => ⟨used, state, count, far, iff_of_true (full used far) endless.uncut⟩,
    fun early => absurd early endless.not_endsEarly⟩

/-- Behind what leaves the stream alone. -/
theorem remarks_bind {first : PbWatcher α} (remarks : Remarks first) {next : α → PbWatcher β}
    (tail : ∀ value, Parses depth (next value) extent complete) :
    Parses depth (first >>= next) extent complete := by
  intro before result last run
  rw [PbStream.run_bind] at run
  generalize head : first.run before = outcome at run
  obtain ⟨stop | value, after⟩ := outcome
  · cases run
  · obtain ⟨more, _, noted, endless, state, count, rfl⟩ := remarks before value after head
    obtain ⟨notes, noted', parsed, ended⟩ := tail value after result last run
    have stream : after.stream = before.stream := by
      have bytesLeft := (Nat.zero_add _).symm.trans count
      exact (congr (congrArg IStream.mk state) bytesLeft.symm).symm
    rw [stream] at parsed ended
    refine ⟨more ++ notes, by rw [noted', noted, List.append_assoc], fun whole => ?_,
      fun early empty there => ?_⟩
    · obtain ⟨used, state, count, far, same⟩ := parsed (whole_append.mp whole).2
      exact ⟨used, state, count, far, by rw [uncut_append, and_iff_right endless.uncut, same]⟩
    · rcases endsEarly_append early with ⟨-, early⟩ | ⟨early, -⟩
      · rw [uncut_append, and_iff_right endless.uncut]
        exact ended early empty there
      · exact absurd early endless.not_endsEarly

/-- What is read from the schema may be used. -/
theorem liftM_bind {source : Except Stop α} {next : α → PbWatcher β}
    (tail : ∀ value, source = .ok value → Parses depth (next value) extent complete) :
    Parses depth (do next (← source)) extent complete := by
  cases source with
  | ok value => exact tail value rfl
  | error stop => rintro before value after ⟨⟩

/-- Ahead of what leaves the stream alone. -/
theorem then_remarks {first : PbWatcher α} {next : α → PbWatcher β}
    (head : Parses depth first extent complete) (remarks : ∀ value, Remarks (next value)) :
    Parses depth (first >>= next) extent complete := by
  intro before result last run
  rw [PbStream.run_bind] at run
  generalize start : first.run before = outcome at run
  obtain ⟨stop | value, after⟩ := outcome
  · cases run
  · obtain ⟨notes, noted, parsed, ended⟩ := head before value after start
    obtain ⟨more, _, noted', endless, state, count, rfl⟩ := remarks value after result last run
    have bytesLeft : last.stream.bytesLeft = after.stream.bytesLeft :=
      (Nat.zero_add _).symm.trans count
    rw [List.nil_append] at state
    refine ⟨notes ++ more, by rw [noted', noted, List.append_assoc], fun whole => ?_,
      fun early empty there => ?_⟩
    · rw [uncut_append, and_iff_left endless.uncut, bytesLeft, ← state]
      exact parsed (whole_append.mp whole).1
    · rw [uncut_append, and_iff_left endless.uncut]
      rcases endsEarly_append early with ⟨-, early⟩ | ⟨early, -⟩
      · exact absurd early endless.not_endsEarly
      · exact ended early (bytesLeft ▸ empty) there

end Parses

/-- What the loop over the fields of a message has read: with the bytes that a zero tag leaves
behind, a message exactly if none is cut. -/
structure LoopParsed (gprotos : Json) (depth : Nat) (protos : Json) (before after : WatchedStream)
    (notes : List PbNote) : Prop where
  noted : after.notes = before.notes ++ .turn depth before.stream :: notes
  /-- Nothing is read in a message without bytes. -/
  stopped : before.stream.bytesLeft = 0 → after.stream = before.stream
  finished : after.stream.bytesLeft = 0 ∨ .ended depth after.stream.bytesLeft ∈ notes
  whole : Whole depth notes → ∃ used, before.stream.state = used ++ after.stream.state ∧
    used.length + after.stream.bytesLeft = before.stream.bytesLeft ∧
      ∀ tail, tail.length = after.stream.bytesLeft →
        (Complete gprotos (.message protos) (used ++ tail) ↔ Uncut notes)
  early : EndsEarly depth notes → before.stream.bytesLeft ≤ before.stream.state.length →
    after.stream.bytesLeft = 0 ∧
      (Complete gprotos (.message protos) before.stream.rest ↔ Uncut notes)

def LoopParses (gprotos : Json) (depth : Nat) (protos : Json) (act : PbWatcher Json) : Prop :=
  ∀ before value after, act.run before = (.ok value, after) →
    ∃ notes, LoopParsed gprotos depth protos before after notes

/-- A scalar is used as a whole. -/
theorem watchScalar_uses (type : PbType) : Uses (watchScalar type) (wholeScalar type) := by
  have noted : Uses (do
      let value ← PbWatcher.read (pbDecodeScalar type)
      PbWatcher.note .created
      return value) (wholeScalar type) := by
    have remark (value : Json) : Remarks (do PbWatcher.note .created; return value) :=
      Uses.remarks_bind (.note rfl) fun _ => .pure value
    refine .read_bind (.scalar type) remark ?_
    rintro value front back whole rfl
    rwa [List.append_nil]
  rw [watchScalar]
  split
  · exact .remarks_bind .noteText fun _ => noted
  · exact noted

/-- A turn of the loop is no end. -/
theorem endless_turn (depth : Nat) (stream : IStream) : Endless [.turn depth stream] :=
  List.forall_mem_singleton.mpr rfl

/-- A submessage is complete unless its loop ends before its length does. -/
theorem watchSubmessage_parses {gprotos : Json} {depth : Nat} {definition : Json}
    {decode : PbWatcher Json} (loops : LoopParses gprotos (depth + 1) definition decode) :
    Parses depth (watchSubmessage decode) lengthPrefixed
      (Complete gprotos (.value (.message definition))) := by
  intro before value after run
  rw [watchSubmessage_run] at run
  have read : (PbWatcher.read pbDecodeVarint32).run before =
      ((pbDecodeVarint32.run before.stream).1,
        ⟨(pbDecodeVarint32.run before.stream).2, before.notes⟩) := rfl
  rw [read] at run
  have gets := Gets.varint32 before.stream
  generalize pbDecodeVarint32.run before.stream = outcome at run gets
  obtain ⟨stop | size, stream⟩ := outcome
  · cases run
  obtain ⟨front, state, count, varint, rfl⟩ := gets size stream rfl
  dsimp only at run
  split at run
  · cases run
  next fits =>
  have parsed := loops ⟨{ stream with bytesLeft := varintNumber front }, before.notes⟩
  generalize decode.run ⟨{ stream with bytesLeft := varintNumber front }, before.notes⟩ = result
    at run parsed
  obtain ⟨stop | dest, ⟨substream, more⟩⟩ := result
  · cases run
  cases run
  obtain ⟨notes, loop⟩ := parsed _ _ rfl
  have noted := loop.noted
  have parsed := loop.whole
  have finished := loop.finished
  dsimp only at noted parsed finished
  have turn := endless_turn (depth + 1) { stream with bytesLeft := varintNumber front }
  have closed : Endless [.closed (varintNumber front) stream.state substream.state] :=
    List.forall_mem_singleton.mpr rfl
  have same : Uncut ([.turn (depth + 1) { stream with bytesLeft := varintNumber front }] ++ notes ++
      [.closed (varintNumber front) stream.state substream.state]) ↔ Uncut notes := by
    rw [uncut_append, uncut_append, and_iff_right turn.uncut, and_iff_left closed.uncut]
  refine ⟨[.turn (depth + 1) { stream with bytesLeft := varintNumber front }] ++ notes ++
      [.closed (varintNumber front) stream.state substream.state],
    by rw [noted]; simp only [List.append_assoc, List.cons_append, List.nil_append], fun whole => ?_, fun early empty there => ?_⟩
  · obtain ⟨whole, ended⟩ := whole_succ.mp (whole_append.mp (whole_append.mp whole).1).2
    have none_left : substream.bytesLeft = 0 := finished.elim id fun member => ended _ member
    obtain ⟨body, state', count', complete⟩ := parsed whole
    have length : body.length = varintNumber front := by omega
    have complete := complete [] (by rw [none_left]; rfl)
    rw [List.append_nil] at complete
    refine ⟨front ++ body, ?_, ?_, ⟨front, body, rfl, varint, length⟩, ?_⟩
    · rw [state, state', List.append_assoc]
      rfl
    · rw [List.length_append]
      dsimp only [IStream.close]
      omega
    · rw [Complete.submessage_iff varint length, complete, same]
  · -- The message that has been ended is this one, or it is deeper.
    have early : EndsEarly depth notes := by
      rcases endsEarly_append early with ⟨-, early⟩ | ⟨early, -⟩
      · exact absurd early closed.not_endsEarly
      rcases endsEarly_append early with ⟨-, early⟩ | ⟨early, -⟩
      · exact early
      · exact absurd early turn.not_endsEarly
    dsimp only [IStream.close] at empty
    have size : stream.bytesLeft = varintNumber front := by omega
    have enough : varintNumber front ≤ stream.state.length := by
      rw [state, List.length_append] at there
      omega
    have complete : Complete gprotos (.message definition) (stream.state.take (varintNumber front)) ↔
        Uncut notes := by
      rcases early.succ with whole | early
      · obtain ⟨body, state', count', complete⟩ := parsed whole
        have tail : stream.state.take (varintNumber front) =
            body ++ substream.state.take substream.bytesLeft := by
          rw [state', ← count', List.take_length_add_append]
        rw [state', List.length_append] at enough
        rw [tail]
        exact complete _ (List.length_take_of_le (by omega))
      · exact (loop.early early enough).2
    have length : (stream.state.take (varintNumber front)).length = varintNumber front :=
      List.length_take_of_le enough
    have rest : before.stream.rest = front ++ stream.state.take (varintNumber front) := by
      rw [IStream.rest, state, ← count, size, List.take_length_add_append]
    rw [rest, Complete.submessage_iff varint length, complete, same]
    exact ⟨⟨front, _, rfl, varint, length⟩, Iff.rfl⟩

section Walk

variable {decode : (protos result : Json) → PbWatcher Json} {gprotos protos proto : Json}
  {depth : Nat} {spec : FieldSpec}

/-- A value of a scalar type, in the field of a message. -/
theorem watchProto_uses (field : FieldIs gprotos protos proto spec) {type : PbType}
    (scalar : spec.type = .scalar type) (key : Option CStr) (result : Json) :
    Uses (watchProto decode gprotos protos proto key result) (wholeScalar type) := by
  obtain ⟨text, textFound, typed⟩ := field.type
  rw [scalar] at typed
  rw [watchProto, textFound, PbStream.liftM_ok_bind]
  cases typed with
  | @scalar type messages tables known =>
      rw [tables, PbStream.liftM_ok_bind, known]
      exact (watchScalar_uses type).then_remarks fun value => .liftM (pbAddValue result key value)

/-- A value is complete unless a loop within it ends early. -/
theorem watchProto_parses (field : FieldIs gprotos protos proto spec)
    (loops : ∀ definition result, spec.type = .message definition →
      LoopParses gprotos (depth + 1) definition (decode definition result))
    (key : Option CStr) (result : Json) :
    Parses depth (watchProto decode gprotos protos proto key result) (valueExtent spec.type)
      (Complete gprotos (.value spec.type)) := by
  obtain ⟨text, textFound, typed⟩ := field.type
  have single (type : PbType) (scalar : spec.type = .scalar type) :
      Parses depth (watchProto decode gprotos protos proto key result) (valueExtent spec.type)
        (Complete gprotos (.value spec.type)) := by
    rw [scalar]
    exact .of_uses (watchProto_uses field scalar key result) fun _ => .scalar
  rw [watchProto, textFound, PbStream.liftM_ok_bind] at single ⊢
  generalize spec.type = type at typed loops single
  cases typed with
  | @scalar type messages tables known => exact single type rfl
  | @message messages definition tables unknown resolved =>
      rw [tables, PbStream.liftM_ok_bind, unknown]
      dsimp only
      rw [resolved, PbStream.liftM_ok_bind]
      cases key with
      | none => exact watchSubmessage_parses (loops definition _ rfl)
      | some key =>
          exact .remarks_bind (.note rfl) fun _ =>
            (watchSubmessage_parses (loops definition _ rfl)).then_remarks fun _ => .pure _

/-- The elements of a packed array are used one by one. -/
theorem watchElements_uses (field : FieldIs gprotos protos proto spec) {type : PbType}
    (scalar : spec.type = .scalar type) (key : CStr) (size : Nat) (array : Json) :
    Uses (watchElements decode gprotos protos proto key size array)
      (wholeElements type size) := by
  induction size generalizing array with
  | zero => exact .pure array
  | succ size ih =>
      exact (watchProto_uses field scalar (some key) array).bind ih
        fun front back whole elements => ⟨front, back, rfl, whole, elements⟩

/-- A repeated field is complete unless a loop within it ends early. -/
theorem watchArray_parses (field : FieldIs gprotos protos proto spec)
    (repeated : spec.option = .repeated)
    (loops : ∀ definition result, spec.type = .message definition →
      LoopParses gprotos (depth + 1) definition (decode definition result))
    (key : CStr) (result : Json) :
    Parses depth (watchArray decode gprotos protos proto key result) (fieldExtent spec)
      (Complete gprotos (.field spec)) := by
  obtain ⟨text, textFound, typed⟩ := field.type
  have single (free : ¬ spec.packed) {act : PbWatcher Json}
      (value : Parses depth act (valueExtent spec.type) (Complete gprotos (.value spec.type))) :
      Parses depth act (fieldExtent spec) (Complete gprotos (.field spec)) := by
    refine value.mono fun bytes far => ⟨?_, Complete.single_iff free⟩
    rwa [fieldExtent, if_neg free]
  have branches (array : Json) (finish : Json → Json) : Parses depth
      (if pbIsPacked text then do
          let size ← PbWatcher.read pbDecodeVarint32
          let array ← watchElements decode gprotos protos proto key size array
          return finish array
        else if pbGetType text = some .string then do
          let array ← watchProto decode gprotos protos proto (some key) array
          return finish array
        else do
          PbWatcher.note .created
          let value ← watchProto decode gprotos protos proto none (.object [])
          return finish (pcJSONAddItemToArray array value)) (fieldExtent spec)
      (Complete gprotos (.field spec)) := by
    rw [pbIsPacked_of_typeIs typed]
    split
    · next packed =>
      obtain ⟨type, scalar⟩ := scalar_of_packed packed
      have packed : spec.packed := by
        rw [FieldSpec.packed, packed, repeated]
        rfl
      have elements : Uses (do
          let size ← PbWatcher.read pbDecodeVarint32
          let array ← watchElements decode gprotos protos proto key size array
          return finish array) fun bytes => ∃ front back, bytes = front ++ back ∧
            wholeVarint 10 front ∧ wholeElements type (varintNumber front) back := by
        refine .read_bind .varint32 (fun size => (watchElements_uses field scalar key size
          array).then_remarks fun _ => .pure _) ?_
        rintro size front back ⟨varint, rfl⟩ elements
        exact ⟨front, back, rfl, varint, elements⟩
      refine .of_uses (elements.mono ?_) ?_
      · rintro bytes ⟨front, back, split, varint, elements⟩
        rw [fieldExtent, if_pos packed]
        exact ⟨type, front, back, scalar, split, varint, elements⟩
      · intro bytes far
        rw [fieldExtent, if_pos packed] at far
        obtain ⟨type, front, back, scalar, split, varint, elements⟩ := far
        exact .packed packed scalar split varint elements
    · next loose =>
      have free : ¬ spec.packed := by
        rw [FieldSpec.packed, Bool.and_eq_true]
        exact fun packed => loose packed.2
      split
      · exact single free ((watchProto_parses field loops (some key) array).then_remarks
          fun _ => .pure _)
      · exact single free (.remarks_bind (.note rfl) fun _ =>
          (watchProto_parses field loops none _).then_remarks fun _ => .pure _)
  rw [watchArray, textFound, PbStream.liftM_ok_bind]
  refine .liftM_bind fun existing _ => ?_
  cases existing with
  | none =>
      exact .remarks_bind (.note rfl) fun _ =>
        branches (.array []) fun array => pcJSONAddItemToObject result key array
  | some array => exact branches array fun array => result.modifyItem key fun _ => array

theorem watchField_parses (field : FieldIs gprotos protos proto spec) {name : CStr} {tag : Nat}
    (found : pbFindField protos tag = .ok (name, proto))
    (loops : ∀ definition result, spec.type = .message definition →
      LoopParses gprotos (depth + 1) definition (decode definition result)) (result : Json) :
    Parses depth (watchField decode gprotos protos tag result) (fieldExtent spec)
      (Complete gprotos (.field spec)) := by
  obtain ⟨text, textFound, option⟩ := field.option
  rw [watchField, found, PbStream.liftM_ok_bind]
  dsimp only
  rw [textFound, PbStream.liftM_ok_bind]
  obtain ⟨repeated, known, other⟩ | ⟨once, known⟩ := FieldOption.ofText?_cases option
  · rw [if_neg fun either => other (Or.comm.mp either), if_pos known]
    exact watchArray_parses field repeated loops name result
  · rw [if_pos (Or.comm.mp known)]
    have free : ¬ spec.packed := by
      rw [FieldSpec.packed, Bool.and_eq_true, decide_eq_true_eq]
      exact fun packed => once packed.1
    refine (watchProto_parses field loops (some name) result).mono fun bytes far =>
      ⟨?_, Complete.single_iff free⟩
    rwa [fieldExtent, if_neg free]

end Walk

/-- The numbers of a definition lead to its fields. -/
structure NumbersWF (gprotos root : Json) : Prop where
  fields : ∀ protos, Reaches gprotos root protos → ∀ tags,
    protos.lookup (.ofString "__tags") = some tags → ∀ number member,
      tags.lookup (.decimal number) = some member → (fieldAt? gprotos protos number).isSome

/-- A tag belongs to a field of the definition, or is refused. -/
theorem pbFindField_cases {gprotos root protos : Json} (wf : SchemaWF gprotos root)
    (numbers : NumbersWF gprotos root) (reached : Reaches gprotos root protos) (tag : Nat) :
    pbFindField protos tag = .error .refused ∨
      ∃ name proto spec, pbFindField protos tag = .ok (name, proto) ∧
        fieldAt? gprotos protos tag = some spec ∧ fieldSpec? gprotos protos name = some spec ∧
          FieldIs gprotos protos proto spec := by
  have definition := wf.definitions protos reached
  obtain ⟨entries, table⟩ := definition.tags
  have tables := pcJSONGetObjectItem_of_isObject definition.object (.ofString "__tags")
  rw [table] at tables
  rw [pbFindField, tables, Stop.ok_bind]
  dsimp only
  rw [pcJSONGetObjectItem_object, Stop.ok_bind]
  cases entry : (Json.object entries).lookup (.decimal tag) with
  | none => exact .inl rfl
  | some member =>
      obtain ⟨spec, described⟩ := Option.isSome_iff_exists.mp
        (numbers.fields protos reached _ table tag member entry)
      have same := described
      rw [fieldAt?, table, Option.bind_eq_bind, Option.bind_some, entry] at same
      rw [Option.bind_some] at same
      obtain ⟨name, string, known⟩ := Option.bind_eq_some_iff.mp same
      obtain ⟨proto, found, field⟩ := fieldIs_of_fieldSpec? wf.object definition known
      refine .inr ⟨name, proto, spec, ?_, described, known, field⟩
      dsimp only
      rw [string, deref_some, Stop.ok_bind, found]
      rfl

section Loop

variable {gprotos protos : Json} {depth : Nat} {before after : WatchedStream}

/-- The end of a message, at its last byte. -/
theorem LoopParsed.done (gprotos : Json) (depth : Nat) (protos : Json)
    (empty : before.stream.bytesLeft = 0) : LoopParsed gprotos depth protos before
      ⟨before.stream, before.notes ++ [.turn depth before.stream]⟩ [] where
  noted := rfl
  stopped _ := rfl
  finished := .inl empty
  whole _ := by
    refine ⟨[], rfl, Nat.zero_add _, fun tail length => ?_⟩
    obtain rfl := List.length_eq_zero_iff.mp (length.trans empty)
    exact iff_of_true .stop fun _ => List.not_mem_nil
  early early := by
    have endless : Endless [] := fun _ member => absurd member List.not_mem_nil
    exact absurd early endless.not_endsEarly

/-- The end of a message at a tag that is zero. -/
theorem LoopParsed.zero {stream : IStream} {used : Bytes} (more : before.stream.bytesLeft ≠ 0)
    (state : before.stream.state = used ++ stream.state)
    (count : used.length + stream.bytesLeft = before.stream.bytesLeft)
    (whole : wholeVarint 10 used) (zero : varintNumber used = 0) :
    LoopParsed gprotos depth protos before ⟨stream, (before.notes ++ [.turn depth before.stream]) ++
      [.ended depth stream.bytesLeft]⟩ [.ended depth stream.bytesLeft] where
  noted := List.append_assoc _ _ _
  stopped empty := absurd empty more
  finished := .inr (by simp)
  whole _ := ⟨used, state, count, fun tail _ =>
    iff_of_true (.zero rfl whole zero) (uncut_singleton (by nofun))⟩
  early early := by
    obtain ⟨front, deeper, left, back, split, deep, -⟩ := early
    have member : PbNote.ended deeper left ∈ [PbNote.ended depth stream.bytesLeft] := by
      rw [split]
      simp
    cases List.mem_singleton.mp member
    exact absurd deep (Nat.lt_irrefl _)

/-- The end of a message inside a tag. -/
theorem LoopParsed.cut {stream : IStream} {used : Bytes} (more : before.stream.bytesLeft ≠ 0)
    (state : before.stream.state = used ++ stream.state)
    (count : used.length + stream.bytesLeft = before.stream.bytesLeft)
    (empty : stream.bytesLeft = 0)
    (cut : ∀ front rest, used = front ++ rest → ¬ wholeVarint 10 front) :
    LoopParsed gprotos depth protos before ⟨stream, (before.notes ++ [.turn depth before.stream]) ++
      [.cut depth]⟩ [.cut depth] where
  noted := List.append_assoc _ _ _
  stopped empty := absurd empty more
  finished := .inl empty
  whole _ := by
    refine ⟨used, state, count, fun tail length => ?_⟩
    obtain rfl := List.length_eq_zero_iff.mp (length.trans empty)
    rw [List.append_nil]
    refine iff_of_false (Complete.not_of_cut ?_ cut) fun uncut => uncut depth (by simp)
    rintro rfl
    rw [List.length_nil] at count
    omega
  early early := by
    obtain ⟨front, deeper, left, back, split, -⟩ := early
    have member : PbNote.ended deeper left ∈ [PbNote.cut depth] := by
      rw [split]
      simp
    cases List.mem_singleton.mp member

/-- A field behind its tag, and the rest of the message. -/
theorem LoopParsed.next {spec : FieldSpec} {middle last : WatchedStream} {stream : IStream}
    {tag : Bytes} (more : before.stream.bytesLeft ≠ 0)
    (state : before.stream.state = tag ++ stream.state)
    (count : tag.length + stream.bytesLeft = before.stream.bytesLeft)
    (whole : wholeVarint 10 tag) (nonzero : varintNumber tag ≠ 0)
    (described : fieldAt? gprotos protos (varintNumber tag >>> 3) = some spec)
    {act : PbWatcher Json} {value : Json}
    (field : Parses depth act (fieldExtent spec) (Complete gprotos (.field spec)))
    (run : act.run ⟨stream, before.notes ++ [.turn depth before.stream]⟩ = (.ok value, middle))
    {later : List PbNote} (loop : LoopParsed gprotos depth protos middle last later) :
    ∃ notes, LoopParsed gprotos depth protos before last notes := by
  obtain ⟨notes, noted, parsed, ended⟩ := field _ value middle run
  have noted' := loop.noted
  have turn := endless_turn depth middle.stream
  have same : Uncut (notes ++ ([.turn depth middle.stream] ++ later)) ↔
      Uncut notes ∧ Uncut later := by
    rw [uncut_append, uncut_append, and_iff_right turn.uncut]
  refine ⟨notes ++ ([.turn depth middle.stream] ++ later), ?_, fun empty => absurd empty more,
    ?_, fun whole' => ?_, fun early there => ?_⟩
  · rw [noted', noted]
    simp only [List.append_assoc, List.cons_append, List.nil_append]
  · exact loop.finished.imp_right fun member =>
      List.mem_append_right _ (List.mem_append_right _ member)
  · obtain ⟨here, there⟩ := whole_append.mp whole'
    obtain ⟨used, state', count', far, uncut⟩ := parsed here
    obtain ⟨used', state'', count'', complete⟩ := loop.whole (whole_append.mp there).2
    dsimp only at state' count'
    refine ⟨tag ++ used ++ used', ?_, ?_, fun tail length => ?_⟩
    · rw [state, state', state'']
      simp only [List.append_assoc]
    · rw [List.length_append, List.length_append]
      omega
    · rw [List.append_assoc (tag ++ used), Complete.next_iff whole nonzero described far, uncut,
        complete tail length, same]
  · have here : stream.bytesLeft ≤ stream.state.length := by
      rw [state, List.length_append] at there
      omega
    rw [same]
    have rest : before.stream.rest = tag ++ stream.rest := by
      rw [IStream.rest, state, ← count, List.take_length_add_append, IStream.rest]
    rw [rest]
    rcases endsEarly_append early with ⟨whole', early⟩ | ⟨early, resting⟩
    · -- The field is whole, and what is ended comes behind it.
      have early : EndsEarly depth later := by
        rcases endsEarly_append early with ⟨-, early⟩ | ⟨early, -⟩
        · exact early
        · exact absurd early turn.not_endsEarly
      obtain ⟨used, state', count', far, uncut⟩ := parsed whole'
      dsimp only at state' count'
      obtain ⟨empty, complete⟩ := loop.early early (by
        rw [state', List.length_append] at here
        omega)
      have behind : stream.rest = used ++ middle.stream.rest := by
        rw [IStream.rest, state', ← count', List.take_length_add_append, IStream.rest]
      rw [behind, ← List.append_assoc, Complete.next_iff whole nonzero described far, uncut,
        complete]
      exact ⟨empty, Iff.rfl⟩
    · -- The message ends with the field, as nothing is read behind it.
      have empty : middle.stream.bytesLeft = 0 :=
        resting (.turn depth middle.stream) (List.mem_append_left _ List.mem_cons_self)
      obtain ⟨far, complete⟩ := ended early empty here
      have quiet : Resting later := (List.forall_mem_append.mp resting).2
      rw [← List.append_nil (tag ++ stream.rest), Complete.next_iff whole nonzero described far,
        complete, loop.stopped empty]
      exact ⟨empty, and_congr_right fun _ => iff_of_true .stop quiet.endless.uncut⟩

end Loop

/-- The loop parses its message, by induction on the fuel: each turn takes a field, the last one
the end. -/
theorem watchDecode_parses {gprotos root : Json} (wf : SchemaWF gprotos root)
    (numbers : NumbersWF gprotos root) (fuel depth : Nat) {protos : Json}
    (reached : Reaches gprotos root protos) (result : Json) :
    LoopParses gprotos depth protos (watchDecode gprotos fuel depth protos result) := by
  induction fuel generalizing depth protos result with
  | zero =>
      intro before value after run
      rw [watchDecode_run_zero] at run
      split at run
      · next empty =>
        cases run
        exact ⟨[], .done gprotos depth protos empty⟩
      · cases run
  | succ fuel ih =>
      intro before value after run
      rw [watchDecode_run] at run
      split at run
      · next empty =>
        cases run
        exact ⟨[], .done gprotos depth protos empty⟩
      next more =>
      have tag := pbDecodeTag_bytes before.stream
      rw [watchTag_run] at run
      have read : (PbWatcher.read pbDecodeTag).run
          ⟨before.stream, before.notes ++ [.turn depth before.stream]⟩ =
            ((pbDecodeTag.run before.stream).1,
              ⟨(pbDecodeTag.run before.stream).2, before.notes ++ [.turn depth before.stream]⟩) :=
        rfl
      rw [read] at run
      generalize pbDecodeTag.run before.stream = outcome at run tag
      cases tag with
      | stopped => cases run
      | cut state count empty absent short =>
          dsimp only at run
          rw [short] at run
          cases run
          exact ⟨_, .cut more state count empty absent⟩
      | zero state count whole zero ok =>
          dsimp only at run
          rw [ok] at run
          cases run
          exact ⟨_, .zero more state count whole zero⟩
      | @tag stream used state count whole nonzero =>
          dsimp only at run
          obtain refused | ⟨name, proto, spec, found, described, known, field⟩ :=
            pbFindField_cases wf numbers reached (varintNumber used >>> 3)
          · rw [watchField, refused] at run
            cases run
          have inner (definition result : Json) (message : spec.type = .message definition) :
              LoopParses gprotos (depth + 1) definition
                (watchDecode gprotos fuel (depth + 1) definition result) :=
            ih (depth + 1) (reached.field known message) result
          have parses : Parses depth (watchField (watchDecode gprotos fuel (depth + 1)) gprotos
              protos (varintNumber used >>> 3) result) (fieldExtent spec)
              (Complete gprotos (.field spec)) := watchField_parses field found inner result
          rw [PbStream.run_bind] at run
          generalize pass : (watchField (watchDecode gprotos fuel (depth + 1)) gprotos protos
            (varintNumber used >>> 3) result).run
            ⟨stream, before.notes ++ [.turn depth before.stream]⟩ = outcome at run
          obtain ⟨stop | next, middle⟩ := outcome
          · cases run
          · obtain ⟨later, loop⟩ := ih depth reached next middle value after run
            exact LoopParsed.next more state count whole nonzero described parses pass loop

/-- If nothing is read behind a submessage that is ended ahead of its last byte, then bytes that
the decoder accepts are a complete message exactly if neither they nor a submessage end inside
a tag. -/
theorem accepted_complete_iff {gprotos protos result value : Json} (wf : SchemaWF gprotos protos)
    (numbers : NumbersWF gprotos protos) {buf : Bytes}
    (accepted : pcPbDecode buf buf.length gprotos protos result = .ok value)
    (last : ∀ before depth left after, (watchPbDecode buf buf.length gprotos protos result).2 =
      before ++ .ended (depth + 1) left :: after → left = 0 ∨ Resting after) :
    Complete gprotos (.message protos) buf ↔
      ∀ depth, .cut depth ∉ (watchPbDecode buf buf.length gprotos protos result).2 := by
  have parses := watchDecode_parses wf numbers buf.length 0 .root result
    ⟨{ state := buf, bytesLeft := buf.length }, []⟩
  rw [← watchPbDecode_fst] at accepted
  rw [watchPbDecode] at accepted last ⊢
  generalize (watchDecode gprotos buf.length 0 protos result).run
    ⟨{ state := buf, bytesLeft := buf.length }, []⟩ = outcome at parses accepted last
  obtain ⟨status, after⟩ := outcome
  obtain rfl : status = .ok value := accepted
  obtain ⟨notes, loop⟩ := parses value after rfl
  have noted : after.notes = [.turn 0 { state := buf, bytesLeft := buf.length }] ++ notes :=
    loop.noted
  have turn := endless_turn 0 { state := buf, bytesLeft := buf.length }
  change Complete gprotos (.message protos) buf ↔ Uncut after.notes
  have same : Uncut after.notes ↔ Uncut notes := by
    rw [noted, uncut_append, and_iff_right turn.uncut]
  have ends : Whole 0 notes ∨ EndsEarly 0 notes := by
    refine whole_or_endsEarly 0 fun before deeper left behind split deep => ?_
    obtain ⟨depth, rfl⟩ := Nat.exists_eq_succ_of_ne_zero (Nat.pos_iff_ne_zero.mp deep)
    refine last ([.turn 0 { state := buf, bytesLeft := buf.length }] ++ before) depth left behind ?_
    rw [List.append_assoc, ← split]
    exact noted
  rw [same]
  rcases ends with whole | early
  · obtain ⟨used, state, count, complete⟩ := loop.whole whole
    dsimp only at state count
    have length : buf.length = used.length + after.stream.state.length := by
      rw [state, List.length_append]
    rw [state]
    exact complete after.stream.state (by omega)
  · have complete := (loop.early early (Nat.le_refl _)).2
    rwa [show IStream.rest { state := buf, bytesLeft := buf.length } = buf from
      List.take_length] at complete

/-- The numbers of the schema and of its item lead to their fields. -/
theorem cartSchema_numbers : NumbersWF (.object []) cartSchema where
  fields := by
    intro protos reached tags found number member entry
    rcases reaches_cartSchema reached with rfl | rfl
    · obtain rfl := Option.some.inj found
      by_cases first : CStr.decimal number = .ofString "1"
      · rw [fieldAt?, first]
        decide
      by_cases second : CStr.decimal number = .ofString "2"
      · rw [fieldAt?, second]
        decide
      by_cases third : CStr.decimal number = .ofString "3"
      · rw [fieldAt?, third]
        decide
      simp [Json.lookup, Ne.symm first, Ne.symm second, Ne.symm third] at entry
    · obtain rfl := Option.some.inj found
      by_cases first : CStr.decimal number = .ofString "1"
      · rw [fieldAt?, first]
        decide
      by_cases second : CStr.decimal number = .ofString "2"
      · rw [fieldAt?, second]
        decide
      simp [Json.lookup, Ne.symm first, Ne.symm second] at entry

/-- A name, and an item that is ended ahead of its last byte. -/
def nameAndItem : Bytes := [0x0A, 0x01, 0x68, 0x12, 0x02, 0x00, 0x05]

/-- What is noted when the item is read: nothing is read behind its zero tag. -/
theorem watchPbDecode_nameAndItem :
    (watchPbDecode nameAndItem nameAndItem.length (.object []) cartSchema (.object [])).2 =
      [.turn 0 ⟨nameAndItem, 7⟩, .text 1, .block ⟨2, 1, 1⟩, .created] ++
        [.turn 0 ⟨[0x12, 0x02, 0x00, 0x05], 4⟩, .created, .turn 1 ⟨[0x00, 0x05], 2⟩] ++
          .ended 1 1 :: [.closed 2 [0x00, 0x05] [0x05], .turn 0 ⟨[0x05], 0⟩] := by
  decide +kernel

/-- A message with a name and an item. -/
theorem accepted_complete_nameAndItem :
    Complete (.object []) (.message cartSchema) nameAndItem := by
  have notes := watchPbDecode_nameAndItem
  have ran : (pcPbDecode nameAndItem nameAndItem.length (.object []) cartSchema
      (.object [])).isOk := by
    decide +kernel
  cases accepted : pcPbDecode nameAndItem nameAndItem.length (.object []) cartSchema
      (.object []) with
  | error stop =>
      rw [accepted] at ran
      exact absurd ran Bool.false_ne_true
  | ok value =>
      refine (accepted_complete_iff (cartSchema_wf rfl) cartSchema_numbers accepted
        fun before depth left after split => ?_).mpr fun depth member => ?_
      · have tail : PbNote.ended (depth + 1) left :: after <:+ _ := ⟨before, split.symm.trans notes⟩
        simp [List.suffix_cons_iff] at tail
        exact .inr (tail.2 ▸ by decide)
      · rw [notes] at member
        simp at member

/-- The first byte of a tag is accepted as a message without fields. -/
theorem accepted_complete_fails :
    pcPbDecode [0x80] 1 (.object []) stringSchema (.object []) = .ok (.object []) ∧
      ¬ Complete (.object []) (.message stringSchema) [0x80] := by
  refine ⟨rfl, Complete.not_of_cut (by decide) fun front rest split whole => ?_⟩
  cases front with
  | nil => exact whole
  | cons byte front =>
      obtain ⟨rfl, tail⟩ := List.cons.inj split
      obtain rfl := (List.append_eq_nil_iff.mp tail.symm).1
      exact whole

end Pomelo
