import Pomelo.Protobuf.Types
import Pomelo.Codec.BigEndian

/-!
# The protobuf encoder

`pb_encode.c` on a machine whose `size_t` has 64 bits. An output stream counts
the bytes it is given, and writes them too when it has a callback; a submessage
is first counted, to find the length of its prefix, and then written. The stream
as it is at the end of a run is kept when the run fails.

The functions that walk a message are recursive in the message, so the callers
of `pb_encode` and of the loop over an array get these walks as arguments.
-/

namespace Pomelo

/-- `pb_ostream_t`. The bytes written through the callback are kept in `state`. -/
structure OStream where
  callback : Bool
  state : Bytes
  maxSize : Nat
  bytesWritten : Nat
  deriving DecidableEq, Repr

/-- An operation on an output stream. -/
abbrev PbWriter := PbStream OStream

/-- A sum of type `size_t`. -/
def sizeSum (first second : Nat) : Nat := (first + second) % 2 ^ 64

/-- The conversion of an integer to `uint64_t` or `size_t`. -/
def toUInt64 (value : Int) : Nat := (value % 2 ^ 64).toNat

/-- `pb_ostream_from_buffer` -/
def pbOStreamFromBuffer (bufsize : Nat) : OStream where
  callback := true
  state := []
  maxSize := bufsize
  bytesWritten := 0

/-- A stream that only counts. -/
def OStream.counting : OStream where
  callback := false
  state := []
  maxSize := 0
  bytesWritten := 0

/-- `pb_write`, with `buf_write` as the callback. -/
def pbWrite (buf : Bytes) (count : Nat) : PbWriter Unit := do
  let stream ← get
  if stream.callback then
    if sizeSum stream.bytesWritten count > stream.maxSize then throw .refused
    if count > buf.length then throw .outOfBounds
    set { stream with
      state := stream.state ++ buf.take count
      bytesWritten := sizeSum stream.bytesWritten count }
  else
    set { stream with bytesWritten := sizeSum stream.bytesWritten count }

/-- The loop of `pb_encode_varint`, which ends after at most 64 halvings. -/
def pbVarintGroups : (fuel : Nat) → (value : Nat) → Bytes
  | 0, _ => []
  | fuel + 1, value =>
      if value = 0 then []
      else UInt8.ofNat (value &&& 0x7F ||| 0x80) :: pbVarintGroups fuel (value >>> 7)

/-- `pb_encode_varint` -/
def pbEncodeVarint (value : Nat) : PbWriter Unit :=
  if value = 0 then pbWrite [0] 1
  else
    let buffer := pbVarintGroups 64 value
    let last := buffer.length - 1
    pbWrite (buffer.set last (buffer.getD last 0 &&& 0x7F)) buffer.length

/-- `pb_encode_svarint` -/
def pbEncodeSvarint (value : Int) : PbWriter Unit :=
  if value < 0 then pbEncodeVarint (2 ^ 64 - 1 - toUInt64 (2 * value))
  else pbEncodeVarint (toUInt64 (2 * value))

/-- `pb_encode_fixed32` and `pb_encode_fixed64`: the bytes of a pattern, least
significant first. -/
def pbEncodeFixed (width : Nat) (pattern : Nat) : PbWriter Unit :=
  pbWrite (Codec.beBytes width pattern).reverse width

/-- `pb_encode_string` -/
def pbEncodeString (buffer : Bytes) (size : Nat) : PbWriter Unit := do
  pbEncodeVarint size
  pbWrite buffer size

/-- `pb_encode_tag` -/
def pbEncodeTag (wiretype fieldNumber : Nat) : PbWriter Unit :=
  pbEncodeVarint (wiretype ||| fieldNumber <<< 3 % 2 ^ 32)

/-- `pb_encode_tag_for_field` -/
def pbEncodeTagForField (field : Json) : PbWriter Unit := do
  let typeText ← pbMemberText field "type"
  let tag ← deref (← pcJSONGetObjectItem field (.ofString "tag"))
  pbEncodeTag (pbGetConstantType typeText) (tag.valueint % 2 ^ 32).toNat

/-- The second half of `pb_encode_submessage`, once the submessage has been
counted: it is written through the same callback, within the counted size. -/
def pbEncodeSubstream (encode : PbWriter Unit) (size : Nat) : PbWriter Unit := do
  let stream ← get
  if stream.callback = false then
    pbWrite [] size
  else if sizeSum stream.bytesWritten size > stream.maxSize then
    throw .refused
  else
    let (status, substream) := encode.run { stream with maxSize := size, bytesWritten := 0 }
    set { stream with
      state := substream.state
      bytesWritten := sizeSum stream.bytesWritten substream.bytesWritten }
    match status with
    | .error stop => throw stop
    | .ok () => if substream.bytesWritten ≠ size then throw .refused

/-- `pb_encode_submessage`, for a call of `pb_encode`. -/
def pbEncodeSubmessage (encode : PbWriter Unit) : PbWriter Unit :=
  match encode.run OStream.counting with
  | (.error stop, _) => throw stop
  | (.ok (), substream) => do
      pbEncodeVarint substream.bytesWritten
      pbEncodeSubstream encode substream.bytesWritten

/-- `pb_encode_array`, for the loop over the elements: it is given what is
written before each element and the number of elements. -/
def pbEncodeArray (proto array : Json) (elements : PbWriter Unit → Nat → PbWriter Unit) :
    PbWriter Unit := do
  let typeText ← pbMemberText proto "type"
  let len := toUInt64 (pcJSONGetArraySize array)
  if pbIsPacked typeText then
    pbEncodeTagForField proto
    pbEncodeVarint len
    elements (pure ()) len
  else
    elements (pbEncodeTagForField proto) len

/-- `pb_encode_proto` for the scalar types. -/
def pbEncodeScalar (type : PbType) (value : Json) : PbWriter Unit := do
  match type with
  | .uInt32 => pbEncodeVarint (toUInt64 value.valueint)
  | .int32 | .sInt32 => pbEncodeSvarint value.valueint
  | .float => pbEncodeFixed 4 value.valuedouble.toSingle.toNat
  | .double => pbEncodeFixed 8 value.valuedouble.toNat
  | .string =>
      let str ← deref value.valuestring
      -- The length passes through an `int`.
      pbEncodeString str.bytes (toUInt64 (intCount str.length))

/-- `pb_encode` for the elements of an array, which have no keys to look up. -/
def pbEncodeUnnamed (protos : Json) (items : List Json) : PbWriter Unit :=
  match items, protos with
  | [], _ => pure ()
  | _, .object (_ :: _) | _, .array (_ :: _) => throw .nullDeref
  | _, _ => throw .refused

/-- `pb_encode_proto`, for the call of `pb_encode` on the value. -/
def pbEncodeProto (gprotos protos proto value : Json) (encode : (protos : Json) → PbWriter Unit) :
    PbWriter Unit := do
  let typeText ← pbMemberText proto "type"
  let messages ← pcJSONGetObjectItem protos (.ofString "__messages")
  match pbGetType typeText with
  | some type => pbEncodeScalar type value
  | none =>
      match messages with
      | none => pure ()
      | some messages =>
          match ← pbFindMessage gprotos messages typeText with
          | none => throw .refused
          | some subMsg => pbEncodeSubmessage (encode subMsg)

mutual

/-- `pb_encode` -/
def pbEncode (gprotos protos : Json) : (msg : Json) → PbWriter Unit
  | .object fields => pbEncodeFields gprotos protos fields
  | .array items => pbEncodeUnnamed protos items
  | _ => pure ()
termination_by structural msg => msg

/-- The loop of `pb_encode` over the members of a message. -/
def pbEncodeFields (gprotos protos : Json) : List (CStr × Json) → PbWriter Unit
  | [] => pure ()
  | field :: fields => do
      pbEncodeField gprotos protos field
      pbEncodeFields gprotos protos fields
termination_by structural fields => fields

/-- One pass through the loop of `pb_encode`. -/
def pbEncodeField (gprotos protos : Json) : CStr × Json → PbWriter Unit
  | (key, value) => do
      match ← pcJSONGetObjectItem protos key with
      | none => throw .refused
      | some proto =>
          let optionText ← pbMemberText proto "option"
          if optionText = .ofString "required" ∨ optionText = .ofString "optional" then
            pbEncodeTagForField proto
            pbEncodeProto gprotos protos proto value fun subMsg => pbEncode gprotos subMsg value
          else if optionText = .ofString "repeated" then
            pbEncodeRepeated gprotos protos proto value
          else pure ()
termination_by structural field => field

/-- The call of `pb_encode_array`, for a value that is an array. -/
def pbEncodeRepeated (gprotos protos proto : Json) : (value : Json) → PbWriter Unit
  | .array items =>
      pbEncodeArray proto (.array items) fun lead len =>
        pbEncodeElements gprotos protos proto lead len items
  | _ => pure ()
termination_by structural value => value

/-- The loops of `pb_encode_array`, for a number of elements. -/
def pbEncodeElements (gprotos protos proto : Json) (lead : PbWriter Unit) :
    (len : Nat) → List Json → PbWriter Unit
  | 0, [] => pure ()
  | _ + 1, [] => throw .nullDeref
  | 0, _ :: _ => pure ()
  | len + 1, item :: items => do
      lead
      pbEncodeProto gprotos protos proto item fun subMsg => pbEncode gprotos subMsg item
      pbEncodeElements gprotos protos proto lead len items
termination_by structural _ items => items

end

/-- `pc_pb_encode`: how it ends, and the stream over the buffer. -/
def pcPbEncode (len : Nat) (gprotos protos msg : Json) : Except Stop Unit × OStream :=
  (pbEncode gprotos protos msg).run (pbOStreamFromBuffer len)

end Pomelo
