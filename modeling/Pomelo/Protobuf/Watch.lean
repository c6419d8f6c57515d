import Pomelo.Protobuf.Decode

/-!
# The decoder under observation

The functions of `pb_decode.c` once more, on a stream that is kept together with notes of
what has happened on it. Without its notes a run is the run of the decoder
(`watchDecode_erases`).
-/

namespace Pomelo

/-- What is noted in a run of the decoder. -/
inductive PbNote where
  /-- The loop of `pb_decode` looks at `bytes_left`, in a message at some depth. -/
  | turn (depth : Nat) (stream : IStream)
  /-- A tag that is zero ends a message, with some bytes left. -/
  | ended (depth bytesLeft : Nat)
  /-- The bytes of a message end inside a tag. -/
  | cut (depth : Nat)
  /-- `pb_decode_submessage` returns 1: the announced size, the memory behind the prefix and
  the memory that is read next. -/
  | closed (size : Nat) (start next : Bytes)
  /-- `str_len` of a string. -/
  | text (strLen : Nat)
  /-- The block that a string is read into. -/
  | block (block : StringBlock)
  /-- A node for a field or for an element of an array is created. -/
  | created
  deriving DecidableEq

/-- A stream and the notes of a run on it. -/
structure WatchedStream where
  stream : IStream
  notes : List PbNote

/-- An operation on a stream that is watched. -/
abbrev PbWatcher := PbStream WatchedStream

namespace PbWatcher

variable {α : Type}

/-- An operation that is not noted. -/
def read (act : PbReader α) : PbWatcher α := fun watched =>
  match act.run watched.stream with
  | (status, stream) => (status, { watched with stream })

def note (note : PbNote) : PbWatcher Unit := fun watched =>
  (.ok (), { watched with notes := watched.notes ++ [note] })

/-- The size of the string that is read next and its block are noted, if it has a size. -/
def noteText : PbWatcher Unit := do
  match pbDecodeVarint32.run (← get).stream with
  | (.ok strLen, stream) => do
      note (.text strLen)
      note (.block (pbStringBlock strLen stream))
  | (.error _, _) => return

/-- The end of a message is noted, for the stream in front of what should be a tag. -/
def noteEnd (depth : Nat) (start : IStream) : PbWatcher Unit := do
  match (pbDecodeVarint32.run start).1 with
  | .ok _ => note (.ended depth (← get).stream.bytesLeft)
  | .error _ => note (.cut depth)

end PbWatcher

/-- `pb_decode_tag` -/
def watchTag (depth : Nat) : PbWatcher (Option Nat) := do
  let start ← get
  let tag ← PbWatcher.read pbDecodeTag
  if tag.isNone then PbWatcher.noteEnd depth start.stream
  return tag

/-- `pb_make_string_substream`, `pb_decode` on the substream and `pb_close_string_substream`. -/
def watchSubmessage (decode : PbWatcher Json) : PbWatcher Json := do
  let size ← PbWatcher.read pbDecodeVarint32
  let ⟨stream, notes⟩ ← get
  if stream.bytesLeft < size then throw .refused
  let (status, ⟨substream, notes⟩) := decode.run ⟨{ stream with bytesLeft := size }, notes⟩
  set (WatchedStream.mk
    { stream with
      state := substream.state
      bytesLeft := stream.bytesLeft - size } notes)
  match status with
  | .ok dest =>
      PbWatcher.note (.closed size stream.state substream.state)
      return dest
  | .error stop => throw stop

/-- `pb_decode_proto` for the scalar types. -/
def watchScalar (type : PbType) : PbWatcher Json := do
  if type = .string then PbWatcher.noteText
  let value ← PbWatcher.read (pbDecodeScalar type)
  PbWatcher.note .created
  return value

section Walk

variable (decode : (protos result : Json) → PbWatcher Json) (gprotos protos proto : Json)

/-- `pb_decode_proto` -/
def watchProto (key : Option CStr) (result : Json) : PbWatcher Json := do
  let typeText ← pbMemberText proto "type"
  let messages ← pcJSONGetObjectItem protos (.ofString "__messages")
  match pbGetType typeText with
  | some type => pbAddValue result key (← watchScalar type)
  | none =>
      match messages with
      | none => return result
      | some messages =>
          match ← pbFindMessage gprotos messages typeText with
          | none => throw .refused
          | some subMsg =>
              match key with
              | none => watchSubmessage (decode subMsg result)
              | some key =>
                  PbWatcher.note .created
                  let subValue ← watchSubmessage (decode subMsg (.object []))
                  return pcJSONAddItemToObject result key subValue

/-- The loop over a packed array. -/
def watchElements (key : CStr) : (size : Nat) → (array : Json) → PbWatcher Json
  | 0, array => return array
  | size + 1, array => do
      watchElements key size (← watchProto decode gprotos protos proto (some key) array)

/-- `pb_decode_array` -/
def watchArray (key : CStr) (result : Json) : PbWatcher Json := do
  let typeText ← pbMemberText proto "type"
  let existing ← pcJSONGetObjectItem result key
  let array := existing.getD (.array [])
  if existing.isNone then PbWatcher.note .created
  let array ←
    if pbIsPacked typeText then do
      let size ← PbWatcher.read pbDecodeVarint32
      watchElements decode gprotos protos proto key size array
    else if pbGetType typeText = some .string then
      watchProto decode gprotos protos proto (some key) array
    else do
      PbWatcher.note .created
      let value ← watchProto decode gprotos protos proto none (.object [])
      pure (pcJSONAddItemToArray array value)
  match existing with
  | none => return pcJSONAddItemToObject result key array
  | some _ => return result.modifyItem key fun _ => array

/-- One pass through the loop of `pb_decode`, behind its tag. -/
def watchField (tag : Nat) (result : Json) : PbWatcher Json := do
  let (name, proto) ← pbFindField protos tag
  let optionText ← pbMemberText proto "option"
  if optionText = .ofString "optional" ∨ optionText = .ofString "required" then
    watchProto decode gprotos protos proto (some name) result
  else if optionText = .ofString "repeated" then
    watchArray decode gprotos protos proto name result
  else return result

end Walk

/-- `pb_decode`, in a message at some depth. -/
def watchDecode (gprotos : Json) :
    (fuel depth : Nat) → (protos result : Json) → PbWatcher Json
  | 0, depth, _, result => do
      PbWatcher.note (.turn depth (← get).stream)
      if (← get).stream.bytesLeft = 0 then return result else throw .outOfFuel
  | fuel + 1, depth, protos, result => do
      PbWatcher.note (.turn depth (← get).stream)
      if (← get).stream.bytesLeft = 0 then return result
      else
        match ← watchTag depth with
        | none => return result
        | some tag =>
            let result ←
              watchField (watchDecode gprotos fuel (depth + 1)) gprotos protos tag result
            watchDecode gprotos fuel depth protos result

/-- `pc_pb_decode`: how it ends, and the notes of the run. -/
def watchPbDecode (buf : Bytes) (len : Nat) (gprotos protos result : Json) :
    Except Stop Json × List PbNote :=
  match (watchDecode gprotos len 0 protos result).run ⟨{ state := buf, bytesLeft := len }, []⟩ with
  | (status, watched) => (status, watched.notes)

/-- An operation that does to the stream what another one does. -/
def Erases {α : Type} (watcher : PbWatcher α) (reader : PbReader α) : Prop :=
  ∀ watched, (watcher.run watched).1 = (reader.run watched.stream).1 ∧
    (watcher.run watched).2.stream = (reader.run watched.stream).2

namespace Erases

variable {α β : Type}

/-- A value is noted by nothing. -/
theorem pure (value : α) : Erases (pure value) (pure value) := fun _ => ⟨rfl, rfl⟩

theorem throw (stop : Stop) : Erases (throw stop : PbWatcher α) (throw stop) :=
  fun _ => ⟨rfl, rfl⟩

/-- What is not watched is as it was. -/
theorem read (act : PbReader α) : Erases (PbWatcher.read act) act := fun _ => ⟨rfl, rfl⟩

/-- Two watched parts erase to the two parts. -/
theorem bind {first : PbWatcher α} {plain : PbReader α} {next : α → PbWatcher β}
    {rest : α → PbReader β} (head : Erases first plain)
    (tail : ∀ value, Erases (next value) (rest value)) :
    Erases (first >>= next) (plain >>= rest) := by
  intro watched
  obtain ⟨status, stream⟩ := head watched
  rw [PbStream.run_bind, PbStream.run_bind]
  generalize first.run watched = result at status stream
  generalize plain.run watched.stream = other at status stream
  obtain ⟨value | stop, after⟩ := result <;> obtain ⟨value' | stop', after'⟩ := other
  all_goals cases status
  · exact ⟨rfl, stream⟩
  · obtain rfl : after.stream = after' := stream
    exact tail _ after

theorem liftM (source : Except Stop α) : Erases (liftM source : PbWatcher α) (liftM source) :=
  fun _ => ⟨by cases source <;> rfl, by cases source <;> rfl⟩

/-- What is read from the schema is not watched. -/
theorem liftM_bind {source : Except Stop α} {next : α → PbWatcher β} {rest : α → PbReader β}
    (tail : ∀ value, source = .ok value → Erases (next value) (rest value)) :
    Erases (do next (← source)) (do rest (← source)) := by
  cases source with
  | error stop => exact fun _ => ⟨rfl, rfl⟩
  | ok value => exact tail value rfl

/-- A note is no part of the run. -/
theorem note_bind {note : PbNote} {next : Unit → PbWatcher α} {reader : PbReader α}
    (tail : Erases (next ()) reader) : Erases (PbWatcher.note note >>= next) reader :=
  fun watched => tail { watched with notes := watched.notes ++ [note] }

/-- Looking at the stream changes nothing. -/
theorem get_bind {next : WatchedStream → PbWatcher α} {reader : PbReader α}
    (tail : ∀ watched, Erases (next watched) reader) : Erases (do next (← get)) reader :=
  fun watched => tail watched watched

end Erases

/-- An operation that only notes. -/
def Notes {α : Type} (act : PbWatcher α) (value : α) : Prop :=
  ∀ watched, (act.run watched).1 = .ok value ∧ (act.run watched).2.stream = watched.stream

theorem Notes.then_pure {α β : Type} {act : PbWatcher α} {value : α} (notes : Notes act value)
    (result : β) : Notes (do let _ ← act; return result) result := by
  intro watched
  obtain ⟨status, stream⟩ := notes watched
  rw [PbStream.run_bind]
  generalize act.run watched = outcome at status stream
  obtain ⟨stop | value, after⟩ := outcome
  · cases status
  · exact ⟨rfl, stream⟩

namespace Erases

variable {α β : Type}

/-- Notes at the end of an operation are no part of the run. -/
theorem then_notes {first : PbWatcher α} {plain : PbReader α} {next : α → PbWatcher α}
    (head : Erases first plain) (tail : ∀ value, Notes (next value) value) :
    Erases (first >>= next) plain := by
  intro watched
  obtain ⟨status, stream⟩ := head watched
  rw [PbStream.run_bind]
  generalize first.run watched = result at status stream
  obtain ⟨value | stop, after⟩ := result
  · exact ⟨status, stream⟩
  · obtain ⟨same, still⟩ := tail _ after
    exact ⟨same.trans status, still.trans stream⟩

/-- Notes at the start of an operation are no part of the run. -/
theorem notes_bind {first : PbWatcher α} {value : α} {next : α → PbWatcher β}
    {reader : PbReader β} (head : Notes first value) (tail : Erases (next value) reader) :
    Erases (first >>= next) reader := by
  intro watched
  obtain ⟨status, stream⟩ := head watched
  rw [PbStream.run_bind]
  generalize first.run watched = result at status stream
  obtain ⟨stop | value', after⟩ := result
  · cases status
  · obtain rfl := Except.ok.inj status
    have still : after.stream = watched.stream := stream
    rw [← still]
    exact tail after

end Erases

namespace PbWatcher

theorem noteText_notes : Notes noteText () := by
  intro watched
  rw [noteText, PbStream.run_bind, PbStream.run_get]
  dsimp only
  obtain ⟨stop | strLen, stream⟩ := pbDecodeVarint32.run watched.stream
  · exact ⟨rfl, rfl⟩
  · exact ⟨rfl, rfl⟩

theorem noteEnd_notes (depth : Nat) (start : IStream) : Notes (noteEnd depth start) () := by
  intro watched
  rw [noteEnd]
  cases (pbDecodeVarint32.run start).1 with
  | ok value => exact ⟨rfl, rfl⟩
  | error stop => exact ⟨rfl, rfl⟩

end PbWatcher

/-- The watched tag is the tag. -/
theorem watchTag_erases (depth : Nat) : Erases (watchTag depth) pbDecodeTag := by
  refine Erases.get_bind fun start => (Erases.read _).then_notes fun tag => ?_
  cases tag with
  | some tag => exact fun _ => ⟨rfl, rfl⟩
  | none => exact (PbWatcher.noteEnd_notes depth start.stream).then_pure none

/-- The watched submessage is the submessage. -/
theorem watchSubmessage_erases {decode : PbWatcher Json} {plain : PbReader Json}
    (erases : Erases decode plain) :
    Erases (watchSubmessage decode) (pbDecodeSubmessage plain) := by
  refine (Erases.read _).bind fun size => ?_
  rintro ⟨stream, notes⟩
  obtain ⟨status, substream⟩ := erases ⟨{ stream with bytesLeft := size }, notes⟩
  rw [PbStream.run_bind, PbStream.run_get, PbStream.run_bind, PbStream.run_get]
  dsimp only at status substream ⊢
  split
  · exact ⟨rfl, rfl⟩
  · generalize decode.run ⟨{ stream with bytesLeft := size }, notes⟩ = result at status substream
    generalize plain.run { stream with bytesLeft := size } = other at status substream
    obtain ⟨stop | dest, ⟨inner, more⟩⟩ := result <;> obtain ⟨stop' | dest', after⟩ := other
    all_goals cases status
    all_goals
      obtain rfl : inner = after := substream
      exact ⟨rfl, rfl⟩

/-- The watched scalar is the scalar. -/
theorem watchScalar_erases (type : PbType) : Erases (watchScalar type) (pbDecodeScalar type) := by
  have noted : Erases (do
      let value ← PbWatcher.read (pbDecodeScalar type)
      PbWatcher.note .created
      return value) (pbDecodeScalar type) :=
    (Erases.read _).then_notes fun value _ => ⟨rfl, rfl⟩
  rw [watchScalar]
  split
  · exact noted.notes_bind PbWatcher.noteText_notes
  · exact noted

section Walk

variable {decode : (protos result : Json) → PbWatcher Json}
  {plain : (protos result : Json) → PbReader Json} {gprotos protos proto : Json}

/-- The watched value is the value. -/
theorem watchProto_erases
    (erases : ∀ protos result, Erases (decode protos result) (plain protos result))
    (key : Option CStr) (result : Json) :
    Erases (watchProto decode gprotos protos proto key result)
      (pbDecodeProto plain gprotos protos proto key result) := by
  refine Erases.liftM_bind fun typeText _ => Erases.liftM_bind fun messages _ => ?_
  cases pbGetType typeText with
  | some type => exact (watchScalar_erases type).bind fun value => Erases.liftM _
  | none =>
      cases messages with
      | none => exact Erases.pure result
      | some messages =>
          refine Erases.liftM_bind fun found _ => ?_
          cases found with
          | none => exact Erases.throw _
          | some subMsg =>
              cases key with
              | none => exact watchSubmessage_erases (erases _ _)
              | some key =>
                  exact ((watchSubmessage_erases (erases _ _)).bind fun _ =>
                    Erases.pure _).note_bind

/-- The watched elements are the elements. -/
theorem watchElements_erases
    (erases : ∀ protos result, Erases (decode protos result) (plain protos result))
    (key : CStr) (size : Nat) (array : Json) :
    Erases (watchElements decode gprotos protos proto key size array)
      (pbDecodeElements plain gprotos protos proto key size array) := by
  induction size generalizing array with
  | zero => exact Erases.pure array
  | succ size ih => exact (watchProto_erases erases (some key) array).bind ih

/-- The watched array is the array. -/
theorem watchArray_erases
    (erases : ∀ protos result, Erases (decode protos result) (plain protos result))
    (key : CStr) (result : Json) :
    Erases (watchArray decode gprotos protos proto key result)
      (pbDecodeArray plain gprotos protos proto key result) := by
  refine Erases.liftM_bind fun typeText _ => Erases.liftM_bind fun existing _ => ?_
  -- What both do with the array, for either way to put it into the object.
  have branches (array : Json) (finish : Json → Json) : Erases
      (if pbIsPacked typeText then do
          let size ← PbWatcher.read pbDecodeVarint32
          let array ← watchElements decode gprotos protos proto key size array
          return finish array
        else if pbGetType typeText = some .string then do
          let array ← watchProto decode gprotos protos proto (some key) array
          return finish array
        else do
          PbWatcher.note .created
          let value ← watchProto decode gprotos protos proto none (.object [])
          return finish (pcJSONAddItemToArray array value))
      (if pbIsPacked typeText then do
          let size ← pbDecodeVarint32
          let array ← pbDecodeElements plain gprotos protos proto key size array
          return finish array
        else if pbGetType typeText = some .string then do
          let array ← pbDecodeProto plain gprotos protos proto (some key) array
          return finish array
        else do
          let value ← pbDecodeProto plain gprotos protos proto none (.object [])
          return finish (pcJSONAddItemToArray array value)) := by
    split
    · exact (Erases.read _).bind fun size =>
        (watchElements_erases erases key size array).bind fun _ => Erases.pure _
    split
    · exact (watchProto_erases erases (some key) array).bind fun _ => Erases.pure _
    · exact ((watchProto_erases erases none _).bind fun _ => Erases.pure _).note_bind
  cases existing with
  | none =>
      exact (branches (.array []) fun array => pcJSONAddItemToObject result key array).note_bind
  | some array => exact branches array fun array => result.modifyItem key fun _ => array

/-- The watched field is the field. -/
theorem watchField_erases
    (erases : ∀ protos result, Erases (decode protos result) (plain protos result))
    (tag : Nat) (result : Json) :
    Erases (watchField decode gprotos protos tag result)
      (pbDecodeField plain gprotos protos tag result) := by
  refine Erases.liftM_bind fun found _ => Erases.liftM_bind fun optionText _ => ?_
  split
  · exact watchProto_erases erases _ _
  split
  · exact watchArray_erases erases _ _
  · exact Erases.pure _

end Walk

/-- The watched decoder is the decoder. -/
theorem watchDecode_erases (gprotos : Json) (fuel depth : Nat) (protos result : Json) :
    Erases (watchDecode gprotos fuel depth protos result)
      (pbDecode gprotos fuel protos result) := by
  induction fuel generalizing depth protos result with
  | zero =>
      refine Erases.get_bind fun watched => Erases.note_bind ?_
      intro watched
      rw [PbStream.run_bind, PbStream.run_get, pbDecode, PbStream.run_bind, PbStream.run_get]
      dsimp only
      split
      · exact ⟨rfl, rfl⟩
      · exact ⟨rfl, rfl⟩
  | succ fuel ih =>
      refine Erases.get_bind fun watched => Erases.note_bind ?_
      intro watched
      rw [PbStream.run_bind, PbStream.run_get, pbDecode, PbStream.run_bind, PbStream.run_get]
      dsimp only
      split
      · exact ⟨rfl, rfl⟩
      · refine (watchTag_erases depth).bind (fun tag => ?_) watched
        cases tag with
        | none => exact Erases.pure result
        | some tag =>
            exact (watchField_erases (fun protos result => ih (depth + 1) protos result) tag
              result).bind fun result => ih depth protos result

/-- How the watched decoder ends is how the decoder ends. -/
theorem watchPbDecode_fst (buf : Bytes) (len : Nat) (gprotos protos result : Json) :
    (watchPbDecode buf len gprotos protos result).1 = pcPbDecode buf len gprotos protos result :=
  (watchDecode_erases gprotos len 0 protos result ⟨{ state := buf, bytesLeft := len }, []⟩).1

end Pomelo
