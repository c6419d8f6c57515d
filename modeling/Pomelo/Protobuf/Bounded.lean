import Mathlib.Data.Set.Defs
import Pomelo.Protobuf.Submessages

/-!
# The bounds of a run of the decoder

With definitions that say what each field is, the decoder ends on every buffer, within bounds
that are linear in the size of the buffer, whatever counts and sizes the buffer announces
(`bounded_iff`). A string of the largest size is the exception: there is no room for the zero
behind it.
-/

namespace Pomelo

variable {α β : Type}

/-- Definitions with a type and an option for each field and with names in their tables of
tags, that lead to one another. -/
structure Typed (gprotos : Json) (definitions : Set Json) : Prop where
  global : gprotos.isObject
  object : ∀ protos ∈ definitions, protos.isObject
  fields : ∀ protos ∈ definitions, ∀ key proto, key ∉ reservedNames →
    protos.lookup key = some proto → proto.isObject ∧
      (∃ type, proto.lookup (.ofString "type") = some (.string type)) ∧
        ∃ option, proto.lookup (.ofString "option") = some (.string option)
  tags : ∀ protos ∈ definitions, ∀ tags, protos.lookup (.ofString "__tags") = some tags →
    tags.isObject ∧ ∀ key member, tags.lookup key = some member →
      ∃ name, member = .string name ∧ name ∉ reservedNames
  messages : ∀ protos ∈ definitions, ∀ messages,
    protos.lookup (.ofString "__messages") = some messages → messages.isObject ∧
      ∀ key definition, messages.lookup key = some definition → definition ∈ definitions
  roots : ∀ type definition,
    gprotos.lookup ((CStr.ofString "message ").append type) = some definition →
      definition ∈ definitions

theorem getObjectItem_of_object {object : Json} (isObject : object.isObject) (key : CStr) :
    pcJSONGetObjectItem object key = .ok (object.lookup key) := by
  cases object with
  | object fields => rfl
  | _ => cases isObject

/-- An operation that follows no null pointer, and what holds of its value. -/
def Spares (act : PbReader α) (post : α → Prop) : Prop :=
  ∀ stream, (act.run stream).1 ≠ .error .nullDeref ∧
    ∀ value, (act.run stream).1 = .ok value → post value

namespace Spares

theorem pure {post : α → Prop} {value : α} (holds : post value) : Spares (pure value) post := by
  refine fun stream => ⟨nofun, fun other same => ?_⟩
  obtain rfl := Except.ok.inj same
  exact holds

theorem throw {stop : Stop} (other : stop ≠ .nullDeref) (post : α → Prop) :
    Spares (throw stop) post :=
  fun _ => ⟨fun same => other (Except.error.inj same), nofun⟩

theorem mono {act : PbReader α} {post weaker : α → Prop} (spares : Spares act post)
    (weaken : ∀ value, post value → weaker value) : Spares act weaker :=
  fun stream => ⟨(spares stream).1, fun value same => weaken value ((spares stream).2 value same)⟩

theorem bind {act : PbReader α} {next : α → PbReader β} {mid : α → Prop} {post : β → Prop}
    (head : Spares act mid) (tail : ∀ value, mid value → Spares (next value) post) :
    Spares (act >>= next) post := by
  intro stream
  obtain ⟨safe, holds⟩ := head stream
  rw [PbStream.run_bind]
  generalize act.run stream = outcome at safe holds
  obtain ⟨stop | value, after⟩ := outcome
  · exact ⟨fun same => safe (congrArg Except.error (Except.error.inj same)), nofun⟩
  · exact tail value (holds value rfl) after

theorem pbRead (count : Nat) : Spares (pbRead count) fun _ => True := by
  intro stream
  rw [Pomelo.pbRead, PbStream.run_bind, PbStream.run_get]
  dsimp only
  split
  · exact ⟨(by rintro ⟨⟩), (by rintro _ ⟨⟩)⟩
  split
  · exact ⟨(by rintro ⟨⟩), (by rintro _ ⟨⟩)⟩
  · exact ⟨(by rintro ⟨⟩), fun _ _ => trivial⟩

theorem varintLoop (passes bitpos dest : Nat) :
    Spares (pbDecodeVarintLoop passes bitpos dest) fun _ => True := by
  induction passes generalizing bitpos dest with
  | zero => exact throw (by decide) _
  | succ passes ih =>
      rw [pbDecodeVarintLoop]
      split
      · refine (pbRead 1).bind fun block _ => ?_
        dsimp only
        split
        · exact pure trivial
        · exact ih _ _
      · exact throw (by decide) _

theorem varint : Spares pbDecodeVarint fun _ => True := varintLoop 10 0 0

theorem varint32 : Spares pbDecodeVarint32 fun _ => True := varint.bind fun _ _ => pure trivial

/-- A scalar is read without a definition. -/
theorem scalar (type : PbType) : Spares (pbDecodeScalar type) fun _ => True := by
  have fixed (width : Nat) : Spares (pbDecodeFixed width) fun _ => True :=
    (pbRead width).bind fun _ _ => pure trivial
  have svarint : Spares pbDecodeSvarint fun _ => True := by
    refine varint.bind fun value _ => ?_
    split
    · exact pure trivial
    · exact pure trivial
  have string : Spares pbDecodeString fun _ => True := by
    rw [pbDecodeString_eq]
    refine varint32.bind fun strLen _ => ?_
    dsimp only
    split
    · exact throw (by decide) _
    · exact (pbRead strLen).bind fun _ _ => pure trivial
  cases type with
  | uInt32 => exact varint.bind fun _ _ => pure trivial
  | int32 | sInt32 => exact svarint.bind fun _ _ => pure trivial
  | float => exact (fixed 4).bind fun _ _ => pure trivial
  | double => exact (fixed 8).bind fun _ _ => pure trivial
  | string => exact string.bind fun _ _ => pure trivial

theorem tag : Spares pbDecodeTag fun _ => True := by
  intro stream
  have spared := varint32 stream
  rw [pbDecodeTag_eq]
  generalize pbDecodeVarint32.run stream = outcome at spared
  obtain ⟨stop | (_ | temp), after⟩ := outcome
  · dsimp only
    split
    · exact ⟨nofun, fun _ _ => trivial⟩
    · exact ⟨fun same => spared.1 (congrArg Except.error (Except.error.inj same)), nofun⟩
  · exact ⟨nofun, fun _ _ => trivial⟩
  · exact ⟨nofun, fun _ _ => trivial⟩

/-- A submessage follows no null pointer if its content does not. -/
theorem submessage {decode : PbReader Json} {post : Json → Prop} (spares : Spares decode post) :
    Spares (pbDecodeSubmessage decode) post := by
  refine varint32.bind fun size _ => ?_
  intro stream
  rw [PbStream.run_bind, PbStream.run_get]
  dsimp only
  split
  · exact ⟨nofun, nofun⟩
  · obtain ⟨safe, holds⟩ := spares { stream with bytesLeft := size }
    generalize decode.run { stream with bytesLeft := size } = outcome at safe holds
    obtain ⟨stop | dest, after⟩ := outcome
    · exact ⟨fun same => safe (congrArg Except.error (Except.error.inj same)), nofun⟩
    · refine ⟨nofun, fun value same => ?_⟩
      obtain rfl := Except.ok.inj same
      exact holds _ rfl

end Spares

namespace Typed

variable {gprotos : Json} {definitions : Set Json} {protos proto : Json}

/-- A text that a definition has is found. -/
theorem memberText (object : proto.isObject) {name : String} {text : CStr}
    (found : proto.lookup (.ofString name) = some (.string text)) :
    pbMemberText proto name = .ok text := by
  rw [pbMemberText, getObjectItem_of_object object, found]
  rfl

/-- Tags lead to fields with a type and an option. -/
theorem findField (typed : Typed gprotos definitions) (known : protos ∈ definitions) (tag : Nat) :
    pbFindField protos tag = .error .refused ∨
      ∃ name proto type option, pbFindField protos tag = .ok (name, proto) ∧
        pbMemberText proto "type" = .ok type ∧ pbMemberText proto "option" = .ok option := by
  have object := typed.object protos known
  rw [pbFindField, getObjectItem_of_object object, Stop.ok_bind]
  cases table : protos.lookup (.ofString "__tags") with
  | none => exact .inl rfl
  | some tags =>
      obtain ⟨object', names⟩ := typed.tags protos known tags table
      dsimp only
      rw [getObjectItem_of_object object', Stop.ok_bind]
      cases entry : tags.lookup (CStr.decimal tag) with
      | none => exact .inl rfl
      | some member =>
          obtain ⟨name, rfl, free⟩ := names _ member entry
          dsimp only [Json.valuestring]
          rw [deref_some, Stop.ok_bind, getObjectItem_of_object object, Stop.ok_bind]
          cases found : protos.lookup name with
          | none => exact .inl rfl
          | some proto =>
              obtain ⟨object'', ⟨type, hasType⟩, option, hasOption⟩ :=
                typed.fields protos known name proto free found
              exact .inr ⟨name, proto, type, option, rfl, memberText object'' hasType,
                memberText object'' hasOption⟩

/-- Names of types lead to definitions. -/
theorem findMessage (typed : Typed gprotos definitions) (known : protos ∈ definitions)
    {messages : Json} (found : protos.lookup (.ofString "__messages") = some messages)
    (type : CStr) :
    ∃ found, pbFindMessage gprotos messages type = .ok found ∧
      ∀ definition, found = some definition → definition ∈ definitions := by
  obtain ⟨object, members⟩ := typed.messages protos known messages found
  rw [pbFindMessage, getObjectItem_of_object object, Stop.ok_bind]
  cases own : messages.lookup type with
  | some definition =>
      refine ⟨some definition, rfl, fun other same => ?_⟩
      obtain rfl := Option.some.inj same
      exact members type definition own
  | none =>
      dsimp only
      rw [getObjectItem_of_object typed.global]
      exact ⟨_, rfl, fun definition same => typed.roots type definition same⟩

end Typed

/-- A result stays an object when an item is added. -/
theorem isObject_addItem {result : Json} (object : result.isObject) (key : CStr) (item : Json) :
    (pcJSONAddItemToObject result key item).isObject := by
  cases result with
  | object fields => rfl
  | _ => cases object

/-- It stays one when an item is changed. -/
theorem isObject_modifyItem {result : Json} (object : result.isObject) (key : CStr)
    (change : Json → Json) : (result.modifyItem key change).isObject := by
  cases result with
  | object fields => rfl
  | _ => cases object

section Walk

variable {gprotos protos proto : Json} {definitions : Set Json}
  {decode : (protos result : Json) → PbReader Json}

/-- A value of a typed field is decoded without following a null pointer. -/
theorem pbDecodeProto_spares (typed : Typed gprotos definitions) (known : protos ∈ definitions)
    (spares : ∀ protos ∈ definitions, ∀ result, result.isObject →
      Spares (decode protos result) fun value => value.isObject)
    {typeText : CStr} (text : pbMemberText proto "type" = .ok typeText) (key : Option CStr)
    (result : Json) (keyed : key = none → pbGetType typeText = none ∧ result.isObject) :
    Spares (pbDecodeProto decode gprotos protos proto key result)
      fun value => result.isObject → value.isObject := by
  rw [pbDecodeProto, text, getObjectItem_of_object (typed.object protos known)]
  rw [PbStream.liftM_ok_bind, PbStream.liftM_ok_bind]
  cases scalar : pbGetType typeText with
  | some type =>
      refine (Spares.scalar type).bind fun value _ => ?_
      cases key with
      | none => exact absurd (keyed rfl).1 (by rw [scalar]; nofun)
      | some key =>
          rw [pbAddValue]
          split
          · next object => exact Spares.pure fun _ => isObject_addItem object key value
          · next other => exact Spares.pure fun object => absurd object other
  | none =>
      cases messages : protos.lookup (.ofString "__messages") with
      | none => exact Spares.pure id
      | some messages =>
          obtain ⟨found, same, member⟩ := typed.findMessage known messages typeText
          dsimp only
          rw [same, PbStream.liftM_ok_bind]
          cases found with
          | none => exact Spares.throw (by decide) _
          | some subMsg =>
              have spares := spares subMsg (member subMsg rfl)
              cases key with
              | none => exact (spares result (keyed rfl).2).submessage.mono fun _ object _ => object
              | some key =>
                  exact (spares (.object []) rfl).submessage.bind fun subValue _ =>
                    Spares.pure fun object => isObject_addItem object key subValue

theorem pbDecodeElements_spares (typed : Typed gprotos definitions) (known : protos ∈ definitions)
    (spares : ∀ protos ∈ definitions, ∀ result, result.isObject →
      Spares (decode protos result) fun value => value.isObject)
    {typeText : CStr} (text : pbMemberText proto "type" = .ok typeText) (key : CStr) (size : Nat)
    (array : Json) :
    Spares (pbDecodeElements decode gprotos protos proto key size array) fun _ => True := by
  induction size generalizing array with
  | zero => exact Spares.pure trivial
  | succ size ih =>
      exact (pbDecodeProto_spares typed known spares text (some key) array nofun).bind
        fun array _ => ih array

theorem pbDecodeArray_spares (typed : Typed gprotos definitions) (known : protos ∈ definitions)
    (spares : ∀ protos ∈ definitions, ∀ result, result.isObject →
      Spares (decode protos result) fun value => value.isObject)
    {typeText : CStr} (text : pbMemberText proto "type" = .ok typeText) (key : CStr)
    {result : Json} (object : result.isObject) :
    Spares (pbDecodeArray decode gprotos protos proto key result) fun value => value.isObject := by
  rw [pbDecodeArray, text, getObjectItem_of_object object, PbStream.liftM_ok_bind,
    PbStream.liftM_ok_bind]
  have branches (array : Json) (finish : Json → Json) (kept : ∀ array, (finish array).isObject) :
      Spares (if pbIsPacked typeText then do
          let size ← pbDecodeVarint32
          let array ← pbDecodeElements decode gprotos protos proto key size array
          return finish array
        else if pbGetType typeText = some .string then do
          let array ← pbDecodeProto decode gprotos protos proto (some key) array
          return finish array
        else do
          let value ← pbDecodeProto decode gprotos protos proto none (.object [])
          return finish (pcJSONAddItemToArray array value)) fun value => value.isObject := by
    have ended (array : Json) : Spares (pure (finish array)) fun value : Json => value.isObject :=
      Spares.pure (kept array)
    split
    · exact Spares.varint32.bind fun size _ =>
        (pbDecodeElements_spares typed known spares text key size array).bind fun array _ =>
          ended array
    · next loose =>
      split
      · exact (pbDecodeProto_spares typed known spares text (some key) array nofun).bind
          fun array _ => ended array
      · next other =>
        have untyped : pbGetType typeText = none := by
          cases known : pbGetType typeText with
          | none => rfl
          | some type =>
              rw [known] at other
              exact absurd (by rw [pbIsPacked, known]; simpa using other) loose
        exact (pbDecodeProto_spares typed known spares text none _ fun _ => ⟨untyped, rfl⟩).bind
          fun _ _ => ended _
  cases result.lookup key with
  | none =>
      exact branches (.array []) (fun array => pcJSONAddItemToObject result key array)
        fun array => isObject_addItem object key array
  | some existing =>
      exact branches existing (fun array => result.modifyItem key fun _ => array)
        fun array => isObject_modifyItem object key fun _ => array

theorem pbDecodeField_spares (typed : Typed gprotos definitions) (known : protos ∈ definitions)
    (spares : ∀ protos ∈ definitions, ∀ result, result.isObject →
      Spares (decode protos result) fun value => value.isObject)
    (tag : Nat) {result : Json} (object : result.isObject) :
    Spares (pbDecodeField decode gprotos protos tag result) fun value => value.isObject := by
  rw [pbDecodeField]
  obtain refused | ⟨name, proto, type, option, found, hasType, hasOption⟩ :=
    typed.findField known tag
  · rw [refused]
    exact Spares.throw (by decide) _
  · rw [found, PbStream.liftM_ok_bind]
    dsimp only
    rw [hasOption, PbStream.liftM_ok_bind]
    split
    · exact (pbDecodeProto_spares typed known spares hasType (some name) result nofun).mono
        fun _ kept => kept object
    split
    · exact pbDecodeArray_spares typed known spares hasType name object
    · exact Spares.pure object

end Walk

/-- A message of a typed definition is decoded without following a null pointer, by induction on
the fuel. -/
theorem pbDecode_spares {gprotos : Json} {definitions : Set Json}
    (typed : Typed gprotos definitions) (fuel : Nat) {protos result : Json}
    (known : protos ∈ definitions) (object : result.isObject) :
    Spares (pbDecode gprotos fuel protos result) fun value => value.isObject := by
  have ended {result : Json} (object : result.isObject) :
      Spares (pure result) fun value : Json => value.isObject := Spares.pure object
  induction fuel generalizing protos result with
  | zero =>
      intro stream
      rw [pbDecode, PbStream.run_bind, PbStream.run_get]
      dsimp only
      split
      · exact ended object stream
      · exact Spares.throw (by decide) _ stream
  | succ fuel ih =>
      intro stream
      rw [pbDecode, PbStream.run_bind, PbStream.run_get]
      dsimp only
      split
      · exact ended object stream
      · refine Spares.tag.bind (fun tag _ => ?_) stream
        cases tag with
        | none => exact Spares.pure object
        | some tag =>
            exact (pbDecodeField_spares typed known (fun protos known result object =>
              ih known object) tag object).bind fun result object => ih known object

/-- A run on a buffer that ends, within bounds that the size of the buffer gives. A read or a
write outside of a block is no end. -/
structure Bounded (size : Nat) (status : Except Stop Json) (notes : List PbNote) : Prop where
  ends : status = .error .refused ∨ ∃ value, status = .ok value
  nested : ∀ depth stream, .turn depth stream ∈ notes → depth ≤ size
  created : notes.count .created ≤ 2 * size

/-- The decoder ends within its bounds exactly if no string is announced with 2^32-1 bytes. -/
theorem bounded_iff {gprotos protos result : Json} {definitions : Set Json}
    (typed : Typed gprotos definitions) (known : protos ∈ definitions) (object : result.isObject)
    (buf : Bytes) :
    let run := watchPbDecode buf buf.length gprotos protos result
    Bounded buf.length run.1 run.2 ↔ .text (2 ^ 32 - 1) ∉ run.2 := by
  intro run
  obtain ⟨after, loop⟩ := watchPbDecode_trail buf [] gprotos protos result
  rw [List.append_nil] at loop
  have spares : run.1 ≠ .error .nullDeref := by
    have spares := (pbDecode_spares typed buf.length known object ⟨buf, buf.length⟩).1
    rwa [← pcPbDecode, ← watchPbDecode_fst] at spares
  change LoopTrail 0 _ after run.1 run.2 at loop
  constructor
  · intro bounded wraps
    have outside := loop.stops.inside.mpr wraps
    obtain refused | ⟨value, ok⟩ := bounded.ends
    · rw [refused] at outside
      cases outside
    · rw [ok] at outside
      cases outside
  · intro fits
    refine ⟨?_, fun depth stream member => ?_, ?_⟩
    · have inside : run.1 ≠ .error .outOfBounds := mt loop.stops.inside.mp fits
      have fueled := loop.stops.fueled
      have running := loop.stops.running
      cases status : run.1 with
      | ok value => exact .inr ⟨value, rfl⟩
      | error stop =>
          rw [status] at spares inside fueled running
          cases stop with
          | refused => exact .inl rfl
          | nullDeref => exact absurd rfl spares
          | outOfBounds => exact absurd rfl inside
          | outOfFuel => exact absurd rfl fueled
          | aborted => exact absurd rfl running
    · have bound := loop.shallow depth stream member
      dsimp only at bound
      omega
    · have bound := loop.created
      dsimp only at bound
      omega

/-- A list of names, as a message that may hold another one. -/
def namesSchema : Json :=
  .object [(.ofString "__messages", .object []),
    (.ofString "__tags", .object [(.ofString "1", .string (.ofString "next")),
      (.ofString "2", .string (.ofString "name"))]),
    (.ofString "next", fieldJson "optional" "Names" 1),
    (.ofString "name", fieldJson "optional" "string" 2)]

def namesRoots : Json := .object [(.ofString "message Names", namesSchema)]

theorem namesSchema_fields {key : CStr} {proto : Json} (free : key ∉ reservedNames)
    (found : namesSchema.lookup key = some proto) :
    proto = fieldJson "optional" "Names" 1 ∨ proto = fieldJson "optional" "string" 2 := by
  have messages : key ≠ .ofString "__messages" := fun same => free (by rw [same]; decide)
  have tags : key ≠ .ofString "__tags" := fun same => free (by rw [same]; decide)
  by_cases next : key = .ofString "next"
  · subst next
    exact .inl (Option.some.inj found).symm
  by_cases name : key = .ofString "name"
  · subst name
    exact .inr (Option.some.inj found).symm
  simp [namesSchema, Json.lookup, messages.symm, tags.symm, Ne.symm next, Ne.symm name] at found

/-- A definition that refers to itself is typed. -/
theorem namesSchema_typed : Typed namesRoots {namesSchema} where
  global := rfl
  object := by
    rintro protos rfl
    rfl
  fields := by
    rintro protos rfl key proto free found
    obtain rfl | rfl := namesSchema_fields free found
    · exact ⟨rfl, ⟨_, rfl⟩, _, rfl⟩
    · exact ⟨rfl, ⟨_, rfl⟩, _, rfl⟩
  tags := by
    rintro protos rfl tags found
    obtain rfl := Option.some.inj found
    refine ⟨rfl, fun key member entry => ?_⟩
    by_cases first : key = .ofString "1"
    · subst first
      obtain rfl := Option.some.inj entry
      exact ⟨_, rfl, by decide⟩
    by_cases second : key = .ofString "2"
    · subst second
      obtain rfl := Option.some.inj entry
      exact ⟨_, rfl, by decide⟩
    simp [Json.lookup, Ne.symm first, Ne.symm second] at entry
  messages := by
    rintro protos rfl messages found
    obtain rfl := Option.some.inj found
    exact ⟨rfl, (by rintro _ _ ⟨⟩)⟩
  roots type definition found := by
    by_cases same : (CStr.ofString "message ").append type = .ofString "message Names"
    · rw [same] at found
      exact (Option.some.inj found).symm
    · simp [namesRoots, Json.lookup, Ne.symm same] at found

/-- A message in a message in a message. -/
theorem bounded_three :
    let run := watchPbDecode [0x0A, 0x04, 0x0A, 0x02, 0x0A, 0x00] 6 namesRoots namesSchema
      (.object [])
    Bounded 6 run.1 run.2 :=
  (bounded_iff namesSchema_typed rfl rfl [0x0A, 0x04, 0x0A, 0x02, 0x0A, 0x00]).mpr
    (by decide +kernel)

/-- For a name of 2^32-1 bytes nothing is allocated, and its zero is stored. -/
theorem bounded_fails :
    let run := watchPbDecode [0x12, 0xFF, 0xFF, 0xFF, 0xFF, 0x0F] 6 namesRoots namesSchema
      (.object [])
    Typed namesRoots {namesSchema} ∧ ¬ Bounded 6 run.1 run.2 := by
  refine ⟨namesSchema_typed, fun bounded => ?_⟩
  have outside : (watchPbDecode [0x12, 0xFF, 0xFF, 0xFF, 0xFF, 0x0F] 6 namesRoots namesSchema
      (.object [])).1 = .error .outOfBounds := by
    rw [watchPbDecode_fst]
    rfl
  obtain refused | ⟨value, ok⟩ := bounded.ends
  · rw [refused] at outside
    cases outside
  · rw [ok] at outside
    cases outside

end Pomelo
