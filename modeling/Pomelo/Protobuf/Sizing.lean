import Pomelo.Protobuf.RoundTrip

/-!
# Sizing and writing

`pb_encode` runs over every submessage twice, first to count it and then to write it. An
operation `Sends` an output when a counting stream counts the bytes of the output, and a
stream with a callback takes all of them or refuses somewhere on the way. The walk over
any message is such an operation, whether it ends well or not, as long as no length of a
text that it writes is negative as an `int`.
-/

namespace Pomelo

/-- The bytes that an operation gives to a stream, and how it ends behind them. -/
structure Output where
  bytes : Bytes
  ending : Except Stop Unit

namespace Output

/-- Nothing more is sent. -/
def ends (ending : Except Stop Unit) : Output := ⟨[], ending⟩

/-- The output of two operations, of which the second needs the first to end well. -/
def andThen (first second : Output) : Output :=
  match first.ending with
  | .ok () => ⟨first.bytes ++ second.bytes, second.ending⟩
  | .error _ => first

/-- The output behind its length, if it is whole. -/
def framed (output : Output) : Output :=
  match output.ending with
  | .ok () => ⟨prefixed output.bytes, .ok ()⟩
  | .error stop => ends (.error stop)

end Output

/-- A counting stream counts the output; a stream with a callback takes it, or refuses
behind the part of it that it has room for. -/
structure Sends (act : PbWriter Unit) (output : Output) : Prop where
  counts : ∀ stream : OStream, stream.callback = false → stream.bytesWritten < 2 ^ 64 →
    act.run stream = (output.ending, stream.counted output.bytes.length)
  writes : ∀ stream : OStream, stream.callback = true →
    stream.bytesWritten + output.bytes.length ≤ stream.maxSize → stream.maxSize < 2 ^ 64 →
      act.run stream = (output.ending, stream.written output.bytes)
  refuses : ∀ stream : OStream, stream.callback = true →
    stream.bytesWritten ≤ stream.maxSize →
      stream.maxSize < stream.bytesWritten + output.bytes.length →
        stream.bytesWritten + output.bytes.length < 2 ^ 64 →
          ∃ sent, stream.bytesWritten + sent.length ≤ stream.maxSize ∧
            act.run stream = (.error .refused, stream.written sent)

theorem OStream.written_nil (stream : OStream) : stream.written [] = stream := by
  rw [written, List.append_nil]
  rfl

namespace Sends

theorem ends {act : PbWriter Unit} {ending : Except Stop Unit}
    (same : ∀ stream, act.run stream = (ending, stream)) : Sends act (.ends ending) where
  counts stream counting bound := by
    have none : stream.counted 0 = stream := by
      rw [OStream.counted, sizeSum_of_lt bound]
      rfl
    exact (same stream).trans (congrArg (Prod.mk ending) none.symm)
  writes stream writing room bound :=
    (same stream).trans (congrArg (Prod.mk ending) stream.written_nil.symm)
  refuses stream writing room short bound := by
    rw [Output.ends, List.length_nil] at short
    omega

theorem pure_ok : Sends (pure ()) (.ends (.ok ())) := ends fun stream => PbStream.run_pure () stream

theorem throw (stop : Stop) : Sends (throw stop) (.ends (.error stop)) :=
  ends fun stream => PbStream.run_throw stop stream

/-- The first bytes of a block are written at once. -/
theorem write {buf : Bytes} {count : Nat} (within : count ≤ buf.length) :
    Sends (pbWrite buf count) ⟨buf.take count, .ok ()⟩ where
  counts := (Emits.pbWrite_take within).counts
  writes := (Emits.pbWrite_take within).writes
  refuses stream writing room short bound := by
    dsimp only at short bound
    rw [List.length_take_of_le within] at short bound
    refine ⟨[], room, ?_⟩
    rw [pbWrite_run, if_pos writing, if_pos (by rw [sizeSum_of_lt bound]; omega),
      stream.written_nil]

/-- The second part is sent behind the first, unless that one stops. -/
theorem bind {first second : PbWriter Unit} {output more : Output} (head : Sends first output)
    (tail : Sends second more) : Sends (do first; second) (output.andThen more) := by
  obtain ⟨bytes, ending⟩ := output
  cases ending with
  | error stop =>
      refine ⟨fun stream counting bound => ?_, fun stream writing room bound => ?_,
        fun stream writing room short bound => ?_⟩
      · rw [PbStream.run_bind, head.counts stream counting bound]
        rfl
      · rw [PbStream.run_bind, head.writes stream writing room bound]
        rfl
      · obtain ⟨sent, fits, stopped⟩ := head.refuses stream writing room short bound
        refine ⟨sent, fits, ?_⟩
        rw [PbStream.run_bind, stopped]
  | ok =>
      obtain ⟨rest, ending⟩ := more
      refine ⟨fun stream counting bound => ?_, fun stream writing room bound => ?_,
        fun stream writing room short bound => ?_⟩
      · change _ = (ending, stream.counted (bytes ++ rest).length)
        rw [PbStream.run_bind, head.counts stream counting bound, List.length_append,
          ← OStream.counted_counted]
        exact tail.counts (stream.counted bytes.length) counting (sizeSum_lt ..)
      · change _ = (ending, stream.written (bytes ++ rest))
        change stream.bytesWritten + (bytes ++ rest).length ≤ _ at room
        rw [List.length_append, ← Nat.add_assoc] at room
        have fits : stream.bytesWritten + bytes.length ≤ stream.maxSize := by omega
        rw [PbStream.run_bind, head.writes stream writing fits bound, ← OStream.written_written]
        exact tail.writes (stream.written bytes) writing room bound
      · change _ < stream.bytesWritten + (bytes ++ rest).length at short
        change stream.bytesWritten + (bytes ++ rest).length < _ at bound
        rw [List.length_append, ← Nat.add_assoc] at short bound
        rw [PbStream.run_bind]
        by_cases fits : stream.bytesWritten + bytes.length ≤ stream.maxSize
        · obtain ⟨sent, inside, stopped⟩ :=
            tail.refuses (stream.written bytes) writing fits short bound
          refine ⟨bytes ++ sent, ?_, ?_⟩
          · rw [List.length_append, ← Nat.add_assoc]
            exact inside
          · rw [head.writes stream writing fits (by omega), ← OStream.written_written]
            exact stopped
        · have long : stream.maxSize < stream.bytesWritten + bytes.length := Nat.lt_of_not_le fits
          have small : stream.bytesWritten + bytes.length < 2 ^ 64 := by omega
          obtain ⟨sent, inside, stopped⟩ := head.refuses stream writing room long small
          exact ⟨sent, inside, by rw [stopped]⟩

/-- What is sent whole is emitted. -/
theorem emits {act : PbWriter Unit} {bytes : Bytes} (sends : Sends act ⟨bytes, .ok ()⟩) :
    Emits act bytes where
  counts := sends.counts
  writes := sends.writes
  refuses stream writing room short bound := by
    obtain ⟨sent, -, stopped⟩ := sends.refuses stream writing room short bound
    rw [stopped]

/-- A submessage that has been counted is sent in its second pass, or refused before it. -/
theorem substream {encode : PbWriter Unit} {bytes : Bytes} (sends : Sends encode ⟨bytes, .ok ()⟩) :
    Sends (pbEncodeSubstream encode bytes.length) ⟨bytes, .ok ()⟩ where
  counts := sends.emits.substream.counts
  writes := sends.emits.substream.writes
  refuses stream writing room short bound := by
    dsimp only at short bound
    refine ⟨[], room, ?_⟩
    rw [pbEncodeSubstream, PbStream.run_bind, PbStream.run_get]
    simp only [writing, Bool.true_eq_false, if_false, sizeSum_of_lt bound, gt_iff_lt, short,
      if_true, stream.written_nil]
    rfl

/-- A number is sent in base 128. -/
theorem varint {value : Nat} (bound : value < 2 ^ 64) :
    Sends (pbEncodeVarint value) ⟨Codec.leb128 value, .ok ()⟩ := by
  have whole := write (Nat.le_refl (Codec.leb128 value).length)
  rw [List.take_length] at whole
  rwa [pbEncodeVarint_eq bound]

/-- A submessage that is counted is sent behind its length; one that is not counted is not
sent at all. -/
theorem submessage {encode : PbWriter Unit} {output : Output} (sends : Sends encode output)
    (small : output.bytes.length < 2 ^ 64) : Sends (pbEncodeSubmessage encode) output.framed := by
  have counted := sends.counts OStream.counting rfl (by decide)
  have size : (OStream.counting.counted output.bytes.length).bytesWritten =
      output.bytes.length := by
    change sizeSum 0 output.bytes.length = output.bytes.length
    rw [sizeSum_of_lt (by omega), Nat.zero_add]
  rw [pbEncodeSubmessage, counted]
  obtain ⟨bytes, ending⟩ := output
  cases ending with
  | ok =>
      simp only [size]
      exact (varint small).bind sends.substream
  | error stop => exact throw stop

/-- A stream with a callback never gets more than it has room for. -/
theorem bounded {act : PbWriter Unit} {output : Output} (sends : Sends act output)
    {stream : OStream} (writing : stream.callback = true)
    (room : stream.bytesWritten ≤ stream.maxSize) (bound : stream.maxSize < 2 ^ 64)
    (small : stream.bytesWritten + output.bytes.length < 2 ^ 64) :
    ∃ sent, (act.run stream).2 = stream.written sent ∧
      stream.bytesWritten + sent.length ≤ stream.maxSize := by
  by_cases fits : stream.bytesWritten + output.bytes.length ≤ stream.maxSize
  · exact ⟨output.bytes, by rw [sends.writes stream writing fits bound], fits⟩
  · obtain ⟨sent, inside, stopped⟩ :=
      sends.refuses stream writing room (Nat.lt_of_not_le fits) small
    exact ⟨sent, by rw [stopped], inside⟩

end Sends

mutual

/-- What the nodes below a node take in memory at least: each is a `pc_JSON` of 64 bytes,
and a text is kept in a block of its own. -/
def Json.content : Json → Nat
  | .string text => text.length
  | .array items => contentItems items
  | .object fields => contentFields fields
  | _ => 0
termination_by structural json => json

def contentItems : List Json → Nat
  | [] => 0
  | item :: items => 64 + item.content + contentItems items
termination_by structural items => items

def contentFields : List (CStr × Json) → Nat
  | [] => 0
  | field :: fields => contentField field + contentFields fields
termination_by structural fields => fields

def contentField : CStr × Json → Nat
  | (_, value) => 64 + value.content
termination_by structural field => field

end

/-- The definition that `pb_encode_proto` finds for a type that is no scalar. -/
def pbSubMessage (gprotos protos : Json) (typeText : CStr) : Except Stop (Option Json) := do
  match ← pcJSONGetObjectItem protos (.ofString "__messages") with
  | none => return none
  | some messages => pbFindMessage gprotos messages typeText

/-- The texts that `pb_encode_proto` writes, for those in a submessage. -/
def pbTextsProto (gprotos protos proto value : Json) (texts : (protos : Json) → List CStr) :
    List CStr :=
  match pbMemberText proto "type" with
  | .error _ => []
  | .ok typeText =>
      match pbGetType typeText with
      | some .string => value.valuestring.toList
      | some _ => []
      | none =>
          match pbSubMessage gprotos protos typeText with
          | .ok (some subMsg) => texts subMsg
          | _ => []

mutual

/-- The texts that `pb_encode` writes as strings, as far as it gets. -/
def pbTexts (gprotos protos : Json) : Json → List CStr
  | .object fields => pbTextsFields gprotos protos fields
  | _ => []
termination_by structural msg => msg

def pbTextsFields (gprotos protos : Json) : List (CStr × Json) → List CStr
  | [] => []
  | field :: fields => pbTextsField gprotos protos field ++ pbTextsFields gprotos protos fields
termination_by structural fields => fields

def pbTextsField (gprotos protos : Json) : CStr × Json → List CStr
  | (key, value) =>
      match pcJSONGetObjectItem protos key with
      | .ok (some proto) =>
          match pbMemberText proto "option" with
          | .error _ => []
          | .ok optionText =>
              if optionText = .ofString "required" ∨ optionText = .ofString "optional" then
                pbTextsProto gprotos protos proto value fun subMsg => pbTexts gprotos subMsg value
              else if optionText = .ofString "repeated" then
                pbTextsRepeated gprotos protos proto value
              else []
      | _ => []
termination_by structural field => field

def pbTextsRepeated (gprotos protos proto : Json) : Json → List CStr
  | .array items =>
      pbTextsElements gprotos protos proto items (toUInt64 (pcJSONGetArraySize (.array items)))
  | _ => []
termination_by structural value => value

def pbTextsElements (gprotos protos proto : Json) : List Json → (len : Nat) → List CStr
  | item :: items, len + 1 =>
      pbTextsProto gprotos protos proto item (fun subMsg => pbTexts gprotos subMsg item) ++
        pbTextsElements gprotos protos proto items len
  | _, _ => []
termination_by structural items => items

end

/-- A text whose length is not negative as an `int`. -/
def CStr.Counted (text : CStr) : Prop := 0 ≤ intCount text.length

instance (text : CStr) : Decidable text.Counted := inferInstanceAs (Decidable (0 ≤ _))

/-- An operation that sends some output of at most a given size. -/
def Steady (act : PbWriter Unit) (size : Nat) : Prop :=
  ∃ output, Sends act output ∧ output.bytes.length ≤ size

namespace Steady

variable {act first second : PbWriter Unit} {size more : Nat}

theorem mono (steady : Steady act size) (le : size ≤ more) : Steady act more := by
  obtain ⟨output, sends, bound⟩ := steady
  exact ⟨output, sends, bound.trans le⟩

theorem pure_ok : Steady (pure ()) size := ⟨_, Sends.pure_ok, Nat.zero_le _⟩

theorem throw (stop : Stop) : Steady (throw stop) size := ⟨_, Sends.throw stop, Nat.zero_le _⟩

/-- What is written from a buffer is steady within it. -/
theorem write {buf : Bytes} {count : Nat} (within : count ≤ buf.length) :
    Steady (pbWrite buf count) count :=
  ⟨_, Sends.write within, List.length_take_le ..⟩

/-- The sizes of two parts add up. -/
theorem bind (head : Steady first size) (tail : Steady second more) :
    Steady (do first; second) (size + more) := by
  obtain ⟨⟨bytes, ending⟩, sends, bound⟩ := head
  obtain ⟨⟨rest, rested⟩, follows, room⟩ := tail
  refine ⟨_, sends.bind follows, ?_⟩
  cases ending with
  | ok =>
      change (bytes ++ rest).length ≤ size + more
      rw [List.length_append]
      exact Nat.add_le_add bound room
  | error stop => exact bound.trans (Nat.le_add_right size more)

/-- What is read from the schema is the same in both passes. -/
theorem liftM_bind {α : Type} {source : Except Stop α} {next : α → PbWriter Unit}
    (tail : ∀ value, source = .ok value → Steady (next value) size) :
    Steady (do next (← source)) size := by
  cases source with
  | ok value => exact tail value rfl
  | error stop => exact ⟨_, Sends.ends fun stream => rfl, Nat.zero_le _⟩

/-- A number takes ten bytes at most. -/
theorem varint {value : Nat} (bound : value < 2 ^ 64) : Steady (pbEncodeVarint value) 10 :=
  ⟨_, Sends.varint bound, Codec.length_leb128_le (show value < 128 ^ (9 + 1) by omega)⟩

theorem svarint (value : Int) : Steady (pbEncodeSvarint value) 10 := by
  rw [pbEncodeSvarint]
  split
  · exact varint (by omega)
  · exact varint (Int.toNat_lt' (by decide) |>.mpr (Int.emod_lt_of_pos _ (by decide)))

theorem fixed (width pattern : Nat) : Steady (pbEncodeFixed width pattern) width :=
  write (by rw [List.length_reverse, Codec.length_beBytes])

theorem tag (wiretype fieldNumber : Nat) (low : wiretype < 8) :
    Steady (pbEncodeTag wiretype fieldNumber) 10 := by
  have shifted : fieldNumber <<< 3 % 2 ^ 32 < 2 ^ 32 := Nat.mod_lt _ (by decide)
  have joined := Nat.or_lt_two_pow (show wiretype < 2 ^ 32 by omega) shifted
  exact varint (Nat.lt_trans joined (by decide))

end Steady

theorem toUInt64_lt (value : Int) : toUInt64 value < 2 ^ 64 := by
  rw [toUInt64]
  omega

/-- A text that is counted is no longer than its letters. -/
theorem toUInt64_intCount_le {text : CStr} (counted : text.Counted) :
    toUInt64 (intCount text.length) ≤ text.bytes.length := by
  have length : text.bytes.length = text.length := rfl
  rw [CStr.Counted] at counted
  rw [toUInt64, length]
  rw [intCount] at *
  omega

theorem pbGetConstantType_lt (typeText : CStr) : pbGetConstantType typeText < 8 := by
  rw [pbGetConstantType]
  split_ifs <;> decide

namespace Steady

variable {gprotos protos proto value : Json}

theorem tagForField (proto : Json) : Steady (pbEncodeTagForField proto) 10 := by
  rw [pbEncodeTagForField]
  refine liftM_bind fun typeText _ => liftM_bind fun node _ => liftM_bind fun tag _ => ?_
  exact Steady.tag _ _ (pbGetConstantType_lt typeText)

/-- A scalar takes ten bytes and its content at most. -/
theorem scalar (type : PbType) (value : Json)
    (counted : type = .string → ∀ text ∈ value.valuestring, text.Counted) :
    Steady (pbEncodeScalar type value) (10 + value.content) := by
  have ten : 10 ≤ 10 + value.content := Nat.le_add_right _ _
  unfold pbEncodeScalar
  cases type with
  | uInt32 => exact (varint (toUInt64_lt _)).mono ten
  | int32 | sInt32 => exact (svarint _).mono ten
  | float => exact (fixed 4 _).mono (by omega)
  | double => exact (fixed 8 _).mono (by omega)
  | string =>
      refine liftM_bind fun text found => ?_
      have there : value = .string text := by
        cases value with
        | string other =>
            cases found
            rfl
        | null | false | true | number | array | object => cases found
      subst there
      have inside := toUInt64_intCount_le (counted rfl text rfl)
      rw [Json.content]
      exact (varint (toUInt64_lt _)).bind ((write inside).mono inside)

/-- A submessage takes its size and the bytes of it. -/
theorem submessage {encode : PbWriter Unit} {size : Nat} (steady : Steady encode size)
    (small : size < 2 ^ 63) : Steady (pbEncodeSubmessage encode) (10 + size) := by
  obtain ⟨⟨bytes, ending⟩, sends, bound⟩ := steady
  refine ⟨_, sends.submessage (Nat.lt_of_le_of_lt bound (Nat.lt_trans small (by decide))), ?_⟩
  cases ending with
  | ok =>
      have digits : (Codec.leb128 bytes.length).length ≤ 9 + 1 :=
        Codec.length_leb128_le (show bytes.length < 128 ^ (9 + 1) by
          change bytes.length ≤ size at bound
          omega)
      change (Codec.leb128 bytes.length ++ bytes).length ≤ 10 + size
      rw [List.length_append]
      exact Nat.add_le_add digits bound
  | error stop => exact Nat.zero_le _

/-- An item without a name takes nothing. -/
theorem unnamed (protos : Json) (items : List Json) : Steady (pbEncodeUnnamed protos items) 0 := by
  unfold pbEncodeUnnamed
  split
  · exact pure_ok
  · exact throw _
  · exact throw _
  · exact throw _

/-- A value is sent as its type says, if `pb_encode` sends a submessage. -/
theorem protoOf {encode : Json → PbWriter Unit} {texts : Json → List CStr}
    (small : value.content < 2 ^ 63)
    (counted : ∀ text ∈ pbTextsProto gprotos protos proto value texts, text.Counted)
    (steady : ∀ subMsg, (∀ text ∈ texts subMsg, text.Counted) →
      Steady (encode subMsg) value.content) :
    Steady (pbEncodeProto gprotos protos proto value encode) (10 + value.content) := by
  rw [pbEncodeProto]
  refine liftM_bind fun typeText read => liftM_bind fun messages tables => ?_
  rw [pbTextsProto, read] at counted
  dsimp only at counted
  cases known : pbGetType typeText with
  | some type =>
      refine scalar type value fun string text there => counted text ?_
      rw [known, string]
      exact Option.mem_toList.mpr there
  | none =>
      rw [known] at counted
      cases messages with
      | none => exact pure_ok
      | some messages =>
          refine liftM_bind fun found resolved => ?_
          cases found with
          | none => exact throw _
          | some subMsg =>
              have sub : pbSubMessage gprotos protos typeText = .ok (some subMsg) := by
                rw [pbSubMessage, tables]
                exact resolved
              rw [sub] at counted
              exact submessage (steady subMsg counted) small

end Steady

section Walk

variable {gprotos : Json}

mutual

/-- The walk over any message is steady, if its texts are counted. -/
theorem pbEncode_steady :
    ∀ (msg protos : Json), msg.content < 2 ^ 63 →
      (∀ text ∈ pbTexts gprotos protos msg, text.Counted) →
        Steady (pbEncode gprotos protos msg) msg.content
  | .object fields, protos, small, counted => by
      rw [Json.content] at small ⊢
      rw [pbTexts] at counted
      rw [pbEncode]
      exact pbEncodeFields_steady fields protos small counted
  | .array items, protos, _, _ => by
      rw [pbEncode]
      exact (Steady.unnamed protos items).mono (Nat.zero_le _)
  | .null, _, _, _ | .false, _, _, _ | .true, _, _, _ | .number _, _, _, _
  | .string _, _, _, _ => Steady.pure_ok
termination_by structural msg => msg

/-- The fields of a message take their content at most. -/
theorem pbEncodeFields_steady :
    ∀ (fields : List (CStr × Json)) (protos : Json), contentFields fields < 2 ^ 63 →
      (∀ text ∈ pbTextsFields gprotos protos fields, text.Counted) →
        Steady (pbEncodeFields gprotos protos fields) (contentFields fields)
  | [], _, _, _ => Steady.pure_ok
  | field :: fields, protos, small, counted => by
      rw [contentFields] at small ⊢
      rw [pbTextsFields] at counted
      rw [pbEncodeFields]
      exact (pbEncodeField_steady field protos (by omega)
        fun text member => counted text (List.mem_append_left _ member)).bind
          (pbEncodeFields_steady fields protos (by omega)
            fun text member => counted text (List.mem_append_right _ member))
termination_by structural fields => fields

theorem pbEncodeField_steady :
    ∀ (field : CStr × Json) (protos : Json), contentField field < 2 ^ 63 →
      (∀ text ∈ pbTextsField gprotos protos field, text.Counted) →
        Steady (pbEncodeField gprotos protos field) (contentField field)
  | (key, value), protos, small, counted => by
      rw [contentField] at small ⊢
      rw [pbTextsField] at counted
      rw [pbEncodeField]
      refine Steady.liftM_bind fun found look => ?_
      cases found with
      | none => exact Steady.throw _
      | some proto =>
          refine Steady.liftM_bind fun optionText read => ?_
          rw [look] at counted
          dsimp only at counted
          rw [read] at counted
          dsimp only at counted
          split
          next single =>
            rw [if_pos single] at counted
            exact ((Steady.tagForField proto).bind (Steady.protoOf (by omega) counted
              fun subMsg => pbEncode_steady value subMsg (by omega))).mono (by omega)
          next other =>
            rw [if_neg other] at counted
            split
            next repeated =>
              rw [if_pos repeated] at counted
              exact (pbEncodeRepeated_steady value protos proto (by omega) counted).mono (by omega)
            next => exact Steady.pure_ok
termination_by structural field => field

/-- A repeated field takes two tags more. -/
theorem pbEncodeRepeated_steady :
    ∀ (value protos proto : Json), value.content < 2 ^ 63 →
      (∀ text ∈ pbTextsRepeated gprotos protos proto value, text.Counted) →
        Steady (pbEncodeRepeated gprotos protos proto value) (value.content + 20)
  | .array items, protos, proto, small, counted => by
      rw [Json.content] at small ⊢
      rw [pbTextsRepeated] at counted
      rw [pbEncodeRepeated, pbEncodeArray]
      refine Steady.liftM_bind fun typeText _ => ?_
      dsimp only
      have bound := toUInt64_lt (pcJSONGetArraySize (.array items))
      generalize toUInt64 (pcJSONGetArraySize (.array items)) = len at counted bound
      have elements (lead : PbWriter Unit) (steady : Steady lead 10) :=
        pbEncodeElements_steady items protos proto len lead small counted steady
      split
      · exact ((Steady.tagForField proto).bind
          ((Steady.varint bound).bind (elements _ Steady.pure_ok))).mono (by omega)
      · exact (elements _ (Steady.tagForField proto)).mono (by omega)
  | .null, _, _, _, _ | .false, _, _, _, _ | .true, _, _, _, _ | .number _, _, _, _, _
  | .string _, _, _, _, _ | .object _, _, _, _, _ => by
      rw [pbEncodeRepeated]
      · exact Steady.pure_ok
      · exact nofun
termination_by structural value => value

/-- The items of an array take a tag each. -/
theorem pbEncodeElements_steady :
    ∀ (items : List Json) (protos proto : Json) (len : Nat) (lead : PbWriter Unit),
      contentItems items < 2 ^ 63 →
        (∀ text ∈ pbTextsElements gprotos protos proto items len, text.Counted) →
          Steady lead 10 →
            Steady (pbEncodeElements gprotos protos proto lead len items) (contentItems items)
  | [], _, _, len, _, _, _, _ => by
      cases len with
      | zero => exact Steady.pure_ok
      | succ len => exact Steady.throw _
  | item :: items, protos, proto, len, lead, small, counted, steady => by
      cases len with
      | zero => exact Steady.pure_ok
      | succ len =>
          rw [contentItems] at small ⊢
          rw [pbTextsElements] at counted
          rw [pbEncodeElements]
          have value : Steady (pbEncodeProto gprotos protos proto item
              fun subMsg => pbEncode gprotos subMsg item) (10 + item.content) :=
            Steady.protoOf (by omega) (fun text member => counted text
              (List.mem_append_left _ member)) fun subMsg => pbEncode_steady item subMsg (by omega)
          have rest := pbEncodeElements_steady items protos proto len lead (by omega)
            (fun text member => counted text (List.mem_append_right _ member)) steady
          exact (steady.bind (value.bind rest)).mono (by omega)
termination_by structural items => items

end

end Walk

/-- An operation that leaves the callback of a stream alone, and that does not end well on
a stream with a callback where it is blocked. -/
structure Blocked (act : PbWriter Unit) (blocked : Prop) : Prop where
  callback : ∀ stream : OStream, (act.run stream).2.callback = stream.callback
  bounded : ∀ stream : OStream, stream.bytesWritten < 2 ^ 64 →
    (act.run stream).2.bytesWritten < 2 ^ 64
  never : blocked → ∀ stream : OStream, stream.callback = true → (act.run stream).1 ≠ .ok ()

namespace Blocked

variable {act first second : PbWriter Unit} {blocked further : Prop}

theorem mono (block : Blocked act blocked) (more : further → blocked) : Blocked act further :=
  ⟨block.callback, block.bounded, fun stopped => block.never (more stopped)⟩

/-- Where nothing is written nothing blocks. -/
theorem pure_ok : Blocked (pure ()) False := ⟨fun _ => rfl, fun _ bound => bound, False.elim⟩

theorem throw (stop : Stop) : Blocked (throw stop) True :=
  ⟨fun _ => rfl, fun _ bound => bound, fun _ _ _ => nofun⟩

/-- Two parts are blocked if one of them is. -/
theorem bind (head : Blocked first blocked) (tail : Blocked second further) :
    Blocked (do first; second) (blocked ∨ further) := by
  refine ⟨fun stream => ?_, fun stream bound => ?_, fun stopped stream writing => ?_⟩
  · have kept := head.callback stream
    rw [PbStream.run_bind]
    generalize first.run stream = result at kept
    obtain ⟨status | status, after⟩ := result
    · exact kept
    · exact (tail.callback after).trans kept
  · have kept := head.bounded stream bound
    rw [PbStream.run_bind]
    generalize first.run stream = result at kept
    obtain ⟨status | status, after⟩ := result
    · exact kept
    · exact tail.bounded after kept
  · have kept := head.callback stream
    have never := fun blocked => head.never blocked stream writing
    rw [PbStream.run_bind]
    generalize first.run stream = result at kept never
    obtain ⟨status | status, after⟩ := result
    · exact nofun
    · rcases stopped with before | behind
      · exact absurd rfl (never before)
      · exact tail.never behind after (kept.trans writing)

/-- What is read from the schema blocks nothing. -/
theorem liftM_bind {α : Type} {source : Except Stop α} {next : α → PbWriter Unit}
    (tail : ∀ value, source = .ok value → Blocked (next value) blocked) :
    Blocked (do next (← source)) blocked := by
  cases source with
  | ok value => exact tail value rfl
  | error stop => exact ⟨fun _ => rfl, fun _ bound => bound, fun _ _ _ => nofun⟩

/-- More bytes than a block has are not written. -/
theorem write (buf : Bytes) (count : Nat) : Blocked (pbWrite buf count) (buf.length < count) := by
  refine ⟨fun stream => ?_, fun stream bound => ?_, fun exceeded stream writing => ?_⟩
  · rw [pbWrite_run]
    split_ifs <;> rfl
  · rw [pbWrite_run]
    split_ifs
    · exact bound
    · exact bound
    · exact sizeSum_lt ..
    · exact sizeSum_lt ..
  · rw [pbWrite_run, if_pos writing]
    split_ifs <;> exact nofun

theorem varint (value : Nat) : Blocked (pbEncodeVarint value) False := by
  rw [pbEncodeVarint]
  split
  · exact (write _ _).mono False.elim
  · exact (write _ _).mono False.elim

theorem svarint (value : Int) : Blocked (pbEncodeSvarint value) False := by
  rw [pbEncodeSvarint]
  split
  · exact varint _
  · exact varint _

theorem tagForField (proto : Json) : Blocked (pbEncodeTagForField proto) False := by
  rw [pbEncodeTagForField]
  exact liftM_bind fun typeText _ => liftM_bind fun node _ => liftM_bind fun tag _ => varint _

/-- A text that is not counted blocks. -/
theorem scalar (type : PbType) (value : Json) (small : value.content < 2 ^ 63) :
    Blocked (pbEncodeScalar type value)
      (type = .string ∧ ∃ text ∈ value.valuestring, ¬ text.Counted) := by
  unfold pbEncodeScalar
  cases type with
  | uInt32 => exact (varint _).mono fun other => absurd other.1 nofun
  | int32 | sInt32 => exact (svarint _).mono fun other => absurd other.1 nofun
  | float | double => exact (write _ _).mono fun other => absurd other.1 nofun
  | string =>
      refine liftM_bind fun text found => ?_
      refine ((varint _).bind (write _ _)).mono fun stopped => .inr ?_
      obtain ⟨-, other, there, uncounted⟩ := stopped
      cases value with
      | string written =>
          cases found
          obtain rfl := Option.some.inj there
          have length : text.bytes.length = text.length := rfl
          rw [Json.content] at small
          rw [CStr.Counted] at uncounted
          rw [toUInt64, length]
          rw [intCount] at *
          omega
      | null | false | true | number | array | object => cases there

/-- A submessage is blocked by its content. -/
theorem submessage {encode : PbWriter Unit} (block : Blocked encode blocked) :
    Blocked (pbEncodeSubmessage encode) blocked := by
  rw [pbEncodeSubmessage]
  rcases encode.run OStream.counting with ⟨status | status, substream⟩
  · exact (throw status).mono fun _ => trivial
  · refine ((varint _).bind
      ⟨fun stream => ?_, fun stream bound => ?_, fun stopped stream writing => ?_⟩).mono .inr
    · rw [pbEncodeSubstream, PbStream.run_bind, PbStream.run_get]
      dsimp only
      split
      · exact (write _ _).callback stream
      split
      · rfl
      · rcases encode.run { stream with
          maxSize := substream.bytesWritten, bytesWritten := 0 } with ⟨status | status, after⟩
        · rfl
        · dsimp only
          rw [PbStream.run_bind, PbStream.run_set]
          dsimp only
          split <;> rfl
    · rw [pbEncodeSubstream, PbStream.run_bind, PbStream.run_get]
      dsimp only
      split
      · exact (write _ _).bounded stream bound
      split
      · exact bound
      · rcases encode.run { stream with
          maxSize := substream.bytesWritten, bytesWritten := 0 } with ⟨status | status, after⟩
        · exact sizeSum_lt ..
        · dsimp only
          rw [PbStream.run_bind, PbStream.run_set]
          dsimp only
          split <;> exact sizeSum_lt ..
    · have never := block.never stopped
        { stream with maxSize := substream.bytesWritten, bytesWritten := 0 } writing
      rw [pbEncodeSubstream, PbStream.run_bind, PbStream.run_get]
      dsimp only
      rw [if_neg (by rw [writing]; decide)]
      split
      · rintro ⟨⟩
      · generalize encode.run { stream with
          maxSize := substream.bytesWritten, bytesWritten := 0 } = result at never
        obtain ⟨status | status, after⟩ := result
        · rintro ⟨⟩
        · exact absurd rfl never

theorem unnamed (protos : Json) (items : List Json) :
    Blocked (pbEncodeUnnamed protos items) False := by
  unfold pbEncodeUnnamed
  split
  · exact pure_ok
  · exact (throw _).mono False.elim
  · exact (throw _).mono False.elim
  · exact (throw _).mono False.elim

end Blocked

namespace Blocked

variable {gprotos protos proto value : Json}

/-- A value is blocked by its texts. -/
theorem protoOf {encode : Json → PbWriter Unit} {texts : Json → List CStr}
    (small : value.content < 2 ^ 63)
    (block : ∀ subMsg, Blocked (encode subMsg) (∃ text ∈ texts subMsg, ¬ text.Counted)) :
    Blocked (pbEncodeProto gprotos protos proto value encode)
      (∃ text ∈ pbTextsProto gprotos protos proto value texts, ¬ text.Counted) := by
  rw [pbEncodeProto]
  refine liftM_bind fun typeText read => liftM_bind fun messages tables => ?_
  rw [pbTextsProto, read]
  dsimp only
  cases known : pbGetType typeText with
  | some type =>
      refine (scalar type value small).mono ?_
      rintro ⟨text, member, uncounted⟩
      cases type with
      | string => exact ⟨rfl, text, Option.mem_toList.mp member, uncounted⟩
      | uInt32 | int32 | sInt32 | float | double => exact absurd member List.not_mem_nil
  | none =>
      dsimp only
      have none (unresolved : ∀ subMsg, pbSubMessage gprotos protos typeText ≠ .ok (some subMsg)) :
          ¬ ∃ text ∈ (match pbSubMessage gprotos protos typeText with
            | .ok (some subMsg) => texts subMsg
            | _ => []), ¬ text.Counted := by
        rintro ⟨text, member, -⟩
        split at member
        next subMsg resolved => exact unresolved subMsg resolved
        next => exact absurd member List.not_mem_nil
      cases messages with
      | none =>
          refine pure_ok.mono (none fun subMsg resolved => ?_)
          rw [pbSubMessage, tables] at resolved
          cases Except.ok.inj resolved
      | some messages =>
          refine liftM_bind fun found resolved => ?_
          have sub : pbSubMessage gprotos protos typeText = .ok found := by
            rw [pbSubMessage, tables]
            exact resolved
          cases found with
          | none =>
              refine (throw _).mono fun _ => trivial
          | some subMsg =>
              rw [sub]
              exact submessage (block subMsg)

end Blocked

section Walk

variable {gprotos : Json}

/-- A text of two lists is one of the first or the second. -/
theorem exists_mem_append {first second : List CStr} {holds : CStr → Prop} :
    (∃ text ∈ first ++ second, holds text) ↔
      (∃ text ∈ first, holds text) ∨ ∃ text ∈ second, holds text := by
  simp only [List.mem_append, or_and_right, exists_or]

mutual

/-- The walk over a message that has a text which is not counted is blocked. -/
theorem pbEncode_blocked :
    ∀ (msg protos : Json), msg.content < 2 ^ 63 →
      Blocked (pbEncode gprotos protos msg) (∃ text ∈ pbTexts gprotos protos msg, ¬ text.Counted)
  | .object fields, protos, small => by
      rw [Json.content] at small
      rw [pbTexts, pbEncode]
      exact pbEncodeFields_blocked fields protos small
  | .array items, protos, _ => by
      rw [pbEncode]
      refine (Blocked.unnamed protos items).mono fun ⟨text, member, _⟩ => ?_
      exact absurd member List.not_mem_nil
  | .null, _, _ | .false, _, _ | .true, _, _ | .number _, _, _ | .string _, _, _ =>
      Blocked.pure_ok.mono fun ⟨_, member, _⟩ => absurd member List.not_mem_nil
termination_by structural msg => msg

/-- The fields of a message are blocked by a text that is not counted. -/
theorem pbEncodeFields_blocked :
    ∀ (fields : List (CStr × Json)) (protos : Json), contentFields fields < 2 ^ 63 →
      Blocked (pbEncodeFields gprotos protos fields)
        (∃ text ∈ pbTextsFields gprotos protos fields, ¬ text.Counted)
  | [], _, _ => Blocked.pure_ok.mono fun ⟨_, member, _⟩ => absurd member List.not_mem_nil
  | field :: fields, protos, small => by
      rw [contentFields] at small
      rw [pbTextsFields, pbEncodeFields]
      exact ((pbEncodeField_blocked field protos (by omega)).bind
        (pbEncodeFields_blocked fields protos (by omega))).mono exists_mem_append.mp
termination_by structural fields => fields

theorem pbEncodeField_blocked :
    ∀ (field : CStr × Json) (protos : Json), contentField field < 2 ^ 63 →
      Blocked (pbEncodeField gprotos protos field)
        (∃ text ∈ pbTextsField gprotos protos field, ¬ text.Counted)
  | (key, value), protos, small => by
      rw [contentField] at small
      rw [pbTextsField, pbEncodeField]
      refine Blocked.liftM_bind fun found look => ?_
      rw [look]
      cases found with
      | none => exact (Blocked.throw _).mono fun _ => trivial
      | some proto =>
          refine Blocked.liftM_bind fun optionText read => ?_
          dsimp only
          rw [read]
          dsimp only
          split
          · exact ((Blocked.tagForField proto).bind (Blocked.protoOf (by omega)
              fun subMsg => pbEncode_blocked value subMsg (by omega))).mono .inr
          split
          · exact pbEncodeRepeated_blocked value protos proto (by omega)
          · exact Blocked.pure_ok.mono fun ⟨_, member, _⟩ => absurd member List.not_mem_nil
termination_by structural field => field

theorem pbEncodeRepeated_blocked :
    ∀ (value protos proto : Json), value.content < 2 ^ 63 →
      Blocked (pbEncodeRepeated gprotos protos proto value)
        (∃ text ∈ pbTextsRepeated gprotos protos proto value, ¬ text.Counted)
  | .array items, protos, proto, small => by
      rw [Json.content] at small
      rw [pbTextsRepeated, pbEncodeRepeated, pbEncodeArray]
      refine Blocked.liftM_bind fun typeText _ => ?_
      dsimp only
      generalize toUInt64 (pcJSONGetArraySize (.array items)) = len
      have elements (lead : PbWriter Unit) (block : Blocked lead False) :=
        pbEncodeElements_blocked items protos proto len lead small block
      split
      · exact ((Blocked.tagForField proto).bind
          ((Blocked.varint len).bind (elements _ Blocked.pure_ok))).mono fun stopped =>
            .inr (.inr stopped)
      · exact elements _ (Blocked.tagForField proto)
  | .null, _, _, _ | .false, _, _, _ | .true, _, _, _ | .number _, _, _, _
  | .string _, _, _, _ | .object _, _, _, _ => by
      rw [pbEncodeRepeated]
      · exact Blocked.pure_ok.mono fun ⟨_, member, _⟩ => absurd member List.not_mem_nil
      · exact nofun
termination_by structural value => value

theorem pbEncodeElements_blocked :
    ∀ (items : List Json) (protos proto : Json) (len : Nat) (lead : PbWriter Unit),
      contentItems items < 2 ^ 63 → Blocked lead False →
        Blocked (pbEncodeElements gprotos protos proto lead len items)
          (∃ text ∈ pbTextsElements gprotos protos proto items len, ¬ text.Counted)
  | [], _, _, len, _, _, _ => by
      cases len with
      | zero => exact Blocked.pure_ok.mono fun ⟨_, member, _⟩ => absurd member List.not_mem_nil
      | succ len => exact (Blocked.throw _).mono fun _ => trivial
  | item :: items, protos, proto, len, lead, small, block => by
      cases len with
      | zero => exact Blocked.pure_ok.mono fun ⟨_, member, _⟩ => absurd member List.not_mem_nil
      | succ len =>
          rw [contentItems] at small
          rw [pbTextsElements, pbEncodeElements]
          have value : Blocked (pbEncodeProto gprotos protos proto item
              fun subMsg => pbEncode gprotos subMsg item) _ :=
            Blocked.protoOf (by omega) fun subMsg => pbEncode_blocked item subMsg (by omega)
          have rest := pbEncodeElements_blocked items protos proto len lead (by omega) block
          exact (block.bind (value.bind rest)).mono fun stopped =>
            .inr (exists_mem_append.mp stopped)
termination_by structural items => items

end

end Walk

/-- What a counting stream has counted at the end of the walk over a message. -/
def pbSizing (gprotos protos msg : Json) : Except Stop Nat :=
  match (pbEncode gprotos protos msg).run .counting with
  | (.ok (), stream) => .ok stream.bytesWritten
  | (.error stop, _) => .error stop

/-- The messages that the walk over a message comes to, with the definitions that they are
encoded by. -/
inductive PbVisits (gprotos : Json) : (protos msg definition value : Json) → Prop where
  | self (protos msg : Json) : PbVisits gprotos protos msg protos msg
  | single {protos proto subMsg definition value inner : Json} {fields : List (CStr × Json)}
      {key optionText typeText : CStr} (member : (key, value) ∈ fields)
      (found : pcJSONGetObjectItem protos key = .ok (some proto))
      (option : pbMemberText proto "option" = .ok optionText)
      (single : optionText = .ofString "required" ∨ optionText = .ofString "optional")
      (type : pbMemberText proto "type" = .ok typeText) (message : pbGetType typeText = none)
      (resolved : pbSubMessage gprotos protos typeText = .ok (some subMsg))
      (below : PbVisits gprotos subMsg value definition inner) :
      PbVisits gprotos protos (.object fields) definition inner
  | element {protos proto subMsg definition item inner : Json} {fields : List (CStr × Json)}
      {items : List Json} {key typeText : CStr} (member : (key, .array items) ∈ fields)
      (found : pcJSONGetObjectItem protos key = .ok (some proto))
      (option : pbMemberText proto "option" = .ok (.ofString "repeated"))
      (type : pbMemberText proto "type" = .ok typeText) (message : pbGetType typeText = none)
      (resolved : pbSubMessage gprotos protos typeText = .ok (some subMsg))
      (visited : item ∈ items.take (toUInt64 (pcJSONGetArraySize (.array items))))
      (below : PbVisits gprotos subMsg item definition inner) :
      PbVisits gprotos protos (.object fields) definition inner

/-- The sizing pass and the writing pass agree on a message, in a buffer of any capacity. -/
structure PassesAgree (gprotos protos msg : Json) : Prop where
  /-- A message that is counted is written if and only if it fits. -/
  fits : ∀ size, pbSizing gprotos protos msg = .ok size → ∀ capacity, size ≤ capacity →
    capacity < 2 ^ 64 → ∃ stream, pcPbEncode capacity gprotos protos msg = (.ok (), stream) ∧
      stream.bytesWritten = size ∧ stream.state.length = size
  overflows : ∀ size, pbSizing gprotos protos msg = .ok size → ∀ capacity, capacity < size →
    (pcPbEncode capacity gprotos protos msg).1 = .error .refused
  refused : pbSizing gprotos protos msg = .error .refused → ∀ capacity, capacity < 2 ^ 64 →
    (pcPbEncode capacity gprotos protos msg).1 = .error .refused
  bounded : ∀ capacity, capacity < 2 ^ 64 →
    (pcPbEncode capacity gprotos protos msg).2.state.length ≤ capacity
  /-- The stream of a submessage gets no more than the length that has been announced. -/
  announced : ∀ definition value, PbVisits gprotos protos msg definition value →
    ∀ size, pbSizing gprotos definition value = .ok size → ∀ stream : OStream,
      stream.callback = true → stream.maxSize = size → stream.bytesWritten = 0 →
        ((pbEncode gprotos definition value).run stream).2.state.length ≤
          stream.state.length + size

section Visits

variable {gprotos protos proto : Json}

/-- A field has no more content than all the fields. -/
theorem contentField_le {field : CStr × Json} {fields : List (CStr × Json)}
    (member : field ∈ fields) : contentField field ≤ contentFields fields := by
  induction member with
  | head => rw [contentFields]; exact Nat.le_add_right _ _
  | tail _ _ ih => rw [contentFields]; exact ih.trans (Nat.le_add_left _ _)

/-- An item has no more content than all the items. -/
theorem content_le_contentItems {item : Json} {items : List Json} (member : item ∈ items) :
    item.content ≤ contentItems items := by
  induction member with
  | head => rw [contentItems]; omega
  | tail _ _ ih => rw [contentItems]; omega

/-- The texts of a field are texts of the message. -/
theorem pbTextsField_subset {field : CStr × Json} {fields : List (CStr × Json)}
    (member : field ∈ fields) :
    pbTextsField gprotos protos field ⊆ pbTextsFields gprotos protos fields := by
  induction member with
  | head => rw [pbTextsFields]; exact List.subset_append_left ..
  | tail _ _ ih =>
      rw [pbTextsFields]
      exact List.Subset.trans ih (List.subset_append_right ..)

/-- The texts of an item are texts of the array. -/
theorem pbTextsElements_subset {item : Json} {items : List Json} {len : Nat}
    (member : item ∈ items.take len) :
    pbTextsProto gprotos protos proto item (fun subMsg => pbTexts gprotos subMsg item) ⊆
      pbTextsElements gprotos protos proto items len := by
  induction items generalizing len with
  | nil => rw [List.take_nil] at member; exact absurd member List.not_mem_nil
  | cons first items ih =>
      cases len with
      | zero => exact absurd member List.not_mem_nil
      | succ len =>
          rw [List.take_succ_cons] at member
          rw [pbTextsElements]
          rcases List.mem_cons.mp member with rfl | later
          · exact List.subset_append_left ..
          · exact List.Subset.trans (ih later) (List.subset_append_right ..)

/-- The texts of a value of a message type are those of the message. -/
theorem pbTextsProto_message {subMsg value : Json} {typeText : CStr} {texts : Json → List CStr}
    (type : pbMemberText proto "type" = .ok typeText) (message : pbGetType typeText = none)
    (resolved : pbSubMessage gprotos protos typeText = .ok (some subMsg)) :
    pbTextsProto gprotos protos proto value texts = texts subMsg := by
  simp only [pbTextsProto, type, message, resolved]

/-- The walk comes to nothing that is not below the message. -/
theorem PbVisits.within {msg definition value : Json}
    (visits : PbVisits gprotos protos msg definition value) :
    value.content ≤ msg.content ∧
      pbTexts gprotos definition value ⊆ pbTexts gprotos protos msg := by
  induction visits with
  | self protos msg => exact ⟨Nat.le_refl _, List.Subset.refl _⟩
  | @single protos proto subMsg definition value inner fields key optionText typeText member
      found option single type message resolved below ih =>
      have inside := contentField_le member
      have texts := @pbTextsField_subset gprotos protos _ _ member
      rw [contentField] at inside
      rw [pbTextsField, found] at texts
      dsimp only at texts
      rw [option] at texts
      dsimp only at texts
      rw [if_pos single, pbTextsProto_message type message resolved] at texts
      rw [Json.content, pbTexts]
      exact ⟨by omega, List.Subset.trans ih.2 texts⟩
  | @element protos proto subMsg definition item inner fields items key typeText member found
      option type message resolved visited below ih =>
      have inside := contentField_le member
      have low := content_le_contentItems (List.mem_of_mem_take visited)
      have texts := @pbTextsField_subset gprotos protos _ _ member
      rw [contentField, Json.content] at inside
      rw [pbTextsField, found] at texts
      dsimp only at texts
      rw [option] at texts
      dsimp only at texts
      rw [if_neg (by decide), if_pos rfl, pbTextsRepeated] at texts
      have element := @pbTextsElements_subset gprotos protos proto _ _ _ visited
      rw [pbTextsProto_message type message resolved] at element
      rw [Json.content, pbTexts]
      exact ⟨by omega, List.Subset.trans ih.2 (List.Subset.trans element texts)⟩

end Visits

section Agree

variable {gprotos protos msg : Json}

/-- What is sent is counted by a counting stream. -/
theorem pbSizing_of_sends {output : Output} (sends : Sends (pbEncode gprotos protos msg) output)
    (small : output.bytes.length < 2 ^ 64) :
    pbSizing gprotos protos msg = output.ending.map fun _ => output.bytes.length := by
  have size : (OStream.counting.counted output.bytes.length).bytesWritten =
      output.bytes.length := by
    change sizeSum 0 output.bytes.length = _
    rw [sizeSum_of_lt (by omega), Nat.zero_add]
  rw [pbSizing, sends.counts OStream.counting rfl (by decide)]
  obtain ⟨bytes, stop | ok⟩ := output
  · rfl
  · exact congrArg Except.ok size

/-- If every text is counted the two passes agree. -/
theorem passesAgree_of_counted (small : msg.content < 2 ^ 63)
    (counted : ∀ text ∈ pbTexts gprotos protos msg, text.Counted) :
    PassesAgree gprotos protos msg := by
  obtain ⟨output, sends, room⟩ := pbEncode_steady msg protos small counted
  have bound : output.bytes.length < 2 ^ 63 := Nat.lt_of_le_of_lt room small
  have sized := pbSizing_of_sends sends (by omega)
  have ends {size : Nat} (ok : pbSizing gprotos protos msg = .ok size) :
      output.ending = .ok () ∧ size = output.bytes.length := by
    rw [sized] at ok
    obtain ⟨bytes, stop | ⟨⟩⟩ := output
    · cases ok
    · exact ⟨rfl, (Except.ok.inj ok).symm⟩
  refine ⟨fun size ok capacity fits wide => ?_, fun size ok capacity short => ?_,
    fun refused capacity wide => ?_, fun capacity wide => ?_,
    fun definition value visits size ok stream writing limit none => ?_⟩
  · obtain ⟨ending, rfl⟩ := ends ok
    have written := sends.writes (pbOStreamFromBuffer capacity) rfl
      ((Nat.zero_add _).trans_le fits) wide
    rw [ending] at written
    exact ⟨_, written, Nat.zero_add _, congrArg List.length (List.nil_append _)⟩
  · obtain ⟨ending, rfl⟩ := ends ok
    obtain ⟨sent, -, stopped⟩ := sends.refuses (pbOStreamFromBuffer capacity) rfl
      (Nat.zero_le _) (short.trans_eq (Nat.zero_add _).symm) (by
        change 0 + output.bytes.length < _
        omega)
    exact congrArg Prod.fst stopped
  · have ending : output.ending = .error .refused := by
      rw [sized] at refused
      obtain ⟨bytes, stop | ⟨⟩⟩ := output
      · exact congrArg Except.error (Except.error.inj refused)
      · cases refused
    by_cases fits : output.bytes.length ≤ capacity
    · have written := sends.writes (pbOStreamFromBuffer capacity) rfl
        ((Nat.zero_add _).trans_le fits) wide
      exact (congrArg Prod.fst written).trans ending
    · obtain ⟨sent, -, stopped⟩ := sends.refuses (pbOStreamFromBuffer capacity) rfl
        (Nat.zero_le _) ((Nat.lt_of_not_le fits).trans_eq (Nat.zero_add _).symm) (by
          change 0 + output.bytes.length < _
          omega)
      exact congrArg Prod.fst stopped
  · obtain ⟨sent, state, inside⟩ := @Sends.bounded _ _ sends (pbOStreamFromBuffer capacity) rfl
      (Nat.zero_le _) wide (by
        change 0 + output.bytes.length < _
        omega)
    rw [pcPbEncode, state]
    change ([] ++ sent).length ≤ capacity
    change 0 + sent.length ≤ capacity at inside
    rw [List.nil_append]
    omega
  · obtain ⟨below, texts⟩ := visits.within
    obtain ⟨inner, sendsInner, roomInner⟩ := pbEncode_steady value definition (by omega)
      fun text member => counted text (texts member)
    have sizedInner := pbSizing_of_sends sendsInner (by omega)
    have size_eq : size = inner.bytes.length := by
      rw [ok] at sizedInner
      obtain ⟨bytes, stop | ⟨⟩⟩ := inner
      · cases sizedInner
      · exact Except.ok.inj sizedInner
    obtain ⟨sent, state, inside⟩ := sendsInner.bounded writing (by omega) (by omega) (by omega)
    rw [state, OStream.written, List.length_append]
    omega

/-- A text that is not counted keeps the writing pass from agreeing with a sizing pass that
has ended well. -/
theorem counted_of_passesAgree (small : msg.content < 2 ^ 63) {size : Nat}
    (sized : pbSizing gprotos protos msg = .ok size) (agree : PassesAgree gprotos protos msg) :
    ∀ text ∈ pbTexts gprotos protos msg, text.Counted := by
  intro text member
  by_contra uncounted
  have wide : size < 2 ^ 64 := by
    have bound := (@pbEncode_blocked gprotos msg protos small).bounded .counting (by decide)
    rw [pbSizing] at sized
    generalize (pbEncode gprotos protos msg).run .counting = result at sized bound
    obtain ⟨stop | ⟨⟩, stream⟩ := result
    · cases sized
    · exact (Except.ok.inj sized) ▸ bound
  obtain ⟨stream, written, -, -⟩ := agree.fits size sized size (Nat.le_refl _) wide
  exact (pbEncode_blocked msg protos small).never ⟨text, member, uncounted⟩
    (pbOStreamFromBuffer size) rfl (congrArg Prod.fst written)

/-- The two passes agree on every message whose texts have no negative length, and of the
messages that the sizing pass accepts on these alone. -/
theorem passesAgree_iff (small : msg.content < 2 ^ 63) :
    ((∀ text ∈ pbTexts gprotos protos msg, text.Counted) → PassesAgree gprotos protos msg) ∧
      ∀ size, pbSizing gprotos protos msg = .ok size →
        (PassesAgree gprotos protos msg ↔ ∀ text ∈ pbTexts gprotos protos msg, text.Counted) :=
  ⟨passesAgree_of_counted small, fun _ sized =>
    ⟨counted_of_passesAgree small sized, passesAgree_of_counted small⟩⟩

end Agree

/-- A message whose text is short. -/
theorem passesAgree_short :
    PassesAgree (.object []) stringSchema
      (.object [(.ofString "name", .string (.ofString "hi"))]) :=
  (passesAgree_iff (by decide +kernel)).1 (by decide +kernel)

/-- A text of the given length. -/
def letters (count : Nat) : CStr where
  bytes := List.replicate count 97
  noZero := fun member => absurd (List.eq_of_mem_replicate member) (by decide)

theorem letters_length (count : Nat) : (letters count).length = count :=
  List.length_replicate ..

/-- An array with a text of 2^31 - 1 letters and one of 2^31. -/
def longTexts : List Json := [.string (letters (2 ^ 31 - 1)), .string (letters (2 ^ 31))]

/-- A counting stream counts an operation that may give it more than there is. -/
def Counts (act : PbWriter Unit) (count : Nat) : Prop :=
  ∀ stream : OStream, stream.callback = false → stream.bytesWritten < 2 ^ 64 →
    act.run stream = (.ok (), stream.counted count)

namespace Counts

variable {act first second : PbWriter Unit} {count more : Nat}

theorem write (buf : Bytes) (count : Nat) : Counts (pbWrite buf count) count := by
  intro stream counting small
  rw [pbWrite_run, if_neg (by rw [counting]; decide)]
  rfl

/-- Two parts are counted one after the other. -/
theorem bind (head : Counts first count) (tail : Counts second more) :
    Counts (do first; second) (count + more) := by
  intro stream counting small
  rw [PbStream.run_bind, head stream counting small, ← OStream.counted_counted]
  exact tail (stream.counted count) counting (sizeSum_lt ..)

theorem liftM_bind {α : Type} {value : α} {source : Except Stop α} {next : α → PbWriter Unit}
    (read : source = .ok value) (tail : Counts (next value) count) :
    Counts (do next (← source)) count := by
  subst read
  exact tail

/-- A text is counted with its length in front. -/
theorem string (text : CStr) {size : Nat} (read : toUInt64 (intCount text.length) = size)
    (bound : size < 2 ^ 64) :
    Counts (pbEncodeScalar .string (.string text)) ((Codec.leb128 size).length + size) := by
  rw [pbEncodeScalar]
  refine liftM_bind rfl ?_
  rw [read]
  exact bind (Sends.varint bound).counts (write _ _)

end Counts

/-- What is counted for two elements of the array of strings. -/
theorem twoStrings_counts (first second : CStr) {size more : Nat}
    (read : toUInt64 (intCount first.length) = size) (bound : size < 2 ^ 64)
    (further : toUInt64 (intCount second.length) = more) (small : more < 2 ^ 64) :
    Counts (pbEncode (.object []) stringSchema
      (.object [(.ofString "tags", .array [.string first, .string second])]))
      (1 + ((Codec.leb128 size).length + size +
        (1 + ((Codec.leb128 more).length + more)))) := by
  have field := fieldIs_of_fieldSpec? rfl
    ((stringSchema_wf rfl).definitions _ .root) (stringSchema_tags (.object []))
  obtain ⟨proto, found, field⟩ := field
  obtain ⟨option, optionFound, described⟩ := field.option
  obtain ⟨type, typeFound, typed⟩ := field.type
  have one : (wireTag ⟨.repeated, .scalar .string, 2⟩).length = 1 := by decide +kernel
  have tag : Counts (pbEncodeTagForField proto) _ :=
    (pbEncodeTagForField_emits field (by decide) (by decide)).counts
  rw [one] at tag
  have element (text : CStr) {size : Nat} (read : toUInt64 (intCount text.length) = size)
      (bound : size < 2 ^ 64) : Counts (pbEncodeProto (.object []) stringSchema proto
        (.string text) fun subMsg => pbEncode (.object []) subMsg (.string text))
          ((Codec.leb128 size).length + size) := by
    rw [pbEncodeProto]
    refine Counts.liftM_bind typeFound ?_
    cases typed with
    | scalar tables known =>
        refine Counts.liftM_bind tables ?_
        rw [known]
        exact Counts.string text read bound
  have unpacked : pbIsPacked type = false := pbIsPacked_of_typeIs typed
  have two : toUInt64 (pcJSONGetArraySize (.array [.string first, .string second])) = 2 :=
    @toUInt64_intCount 2 (by decide)
  have elements := Counts.bind tag (Counts.bind (element first read bound)
    (Counts.bind tag (Counts.bind (element second further small) Emits.pure_nil.counts)))
  have whole : Counts (pbEncodeField (.object []) stringSchema
      (.ofString "tags", .array [.string first, .string second]))
      (1 + ((Codec.leb128 size).length + size + (1 + ((Codec.leb128 more).length + more)))) := by
    rw [pbEncodeField]
    refine Counts.liftM_bind found (Counts.liftM_bind optionFound ?_)
    rcases FieldOption.ofText?_cases described with ⟨-, known, other⟩ | ⟨other, -⟩
    · rw [if_neg other, if_pos known, pbEncodeRepeated, pbEncodeArray]
      refine Counts.liftM_bind typeFound ?_
      rw [two]
      simp only [unpacked, Bool.false_eq_true, if_false]
      exact elements
    · exact absurd rfl other
  have fields := Counts.bind whole Emits.pure_nil.counts
  rw [pbEncode, pbEncodeFields]
  exact fields

/-- The length of the second text wraps around the sum. -/
theorem longTexts_sized : pbSizing (.object []) stringSchema
    (.object [(.ofString "tags", .array longTexts)]) = .ok 16 := by
  have first : toUInt64 (intCount (letters (2 ^ 31 - 1)).length) = 2 ^ 31 - 1 := by
    rw [letters_length]
    decide
  have second : toUInt64 (intCount (letters (2 ^ 31)).length) = 2 ^ 64 - 2 ^ 31 := by
    rw [letters_length]
    decide
  have five : (Codec.leb128 (2 ^ 31 - 1)).length = 5 := by decide +kernel
  have ten : (Codec.leb128 (2 ^ 64 - 2 ^ 31)).length = 10 := by decide +kernel
  have counts := twoStrings_counts _ _ first (by decide) second (by decide)
  rw [five, ten] at counts
  rw [pbSizing, longTexts, counts .counting rfl (by decide)]
  decide

theorem twoStrings_texts (first second : CStr) : pbTexts (.object []) stringSchema
    (.object [(.ofString "tags", .array [.string first, .string second])]) = [first, second] := by
  obtain ⟨proto, found, field⟩ := fieldIs_of_fieldSpec? rfl
    ((stringSchema_wf rfl).definitions _ .root) (stringSchema_tags (.object []))
  obtain ⟨option, optionFound, described⟩ := field.option
  obtain ⟨type, typeFound, typed⟩ := field.type
  have two : toUInt64 (pcJSONGetArraySize (.array [.string first, .string second])) = 2 :=
    @toUInt64_intCount 2 (by decide)
  have known : pbGetType type = some .string := by
    cases typed with
    | scalar tables known => exact known
  have element (text : CStr) (texts : Json → List CStr) : pbTextsProto (.object []) stringSchema
      proto (.string text) texts = [text] := by
    simp only [pbTextsProto, typeFound, known]
    rfl
  rw [pbTexts, pbTextsFields, pbTextsField, found]
  dsimp only
  rw [optionFound]
  dsimp only
  rcases FieldOption.ofText?_cases described with ⟨-, known, other⟩ | ⟨other, -⟩
  · rw [if_neg other, if_pos known, pbTextsRepeated, two, pbTextsElements, pbTextsElements,
      element, element, pbTextsElements]
    · rfl
    · exact nofun
  · exact absurd rfl other

/-- The content is that of both texts. -/
theorem twoStrings_content (first second : CStr) :
    (Json.object [(.ofString "tags", .array [.string first, .string second])]).content =
      192 + first.length + second.length := by
  simp only [Json.content, contentFields, contentField, contentItems]
  omega

/-- The sizing pass counts 16 bytes, and the writing pass does not end well in 16 bytes. -/
theorem passesAgree_fails : ¬ PassesAgree (.object []) stringSchema
    (.object [(.ofString "tags", .array longTexts)]) := by
  have small : (Json.object [(.ofString "tags", .array longTexts)]).content < 2 ^ 63 := by
    rw [longTexts, twoStrings_content, letters_length, letters_length]
    omega
  have member : letters (2 ^ 31) ∈ pbTexts (.object []) stringSchema
      (.object [(.ofString "tags", .array longTexts)]) := by
    rw [longTexts, twoStrings_texts]
    exact List.mem_cons_of_mem _ (List.mem_singleton_self _)
  intro agree
  have counted := counted_of_passesAgree small longTexts_sized agree _ member
  rw [CStr.Counted, letters_length] at counted
  exact absurd counted (by decide)

end Pomelo
