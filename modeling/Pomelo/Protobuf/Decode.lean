import Pomelo.Protobuf.Types
import Pomelo.Codec.BigEndian

/-!
# The protobuf decoder

`pb_decode.c`. An input stream is a read pointer and the number of bytes that may
still be read there. A submessage is read through a stream of its own, whose
pointer the enclosing stream takes over at the end. The stream as it is at the
end of a run is kept when the run fails; the object under construction is not,
since the caller deletes it.
-/

namespace Pomelo

/-- `pb_istream_t`. The memory from the read pointer on is kept in `state`. -/
structure IStream where
  state : Bytes
  bytesLeft : Nat
  deriving DecidableEq, Repr

/-- An operation on an input stream. -/
abbrev PbReader := PbStream IStream

/-- `pb_read`, with `buf_read` as the callback. -/
def pbRead (count : Nat) : PbReader Bytes := do
  let stream ← get
  if stream.bytesLeft < count then throw .refused
  if stream.state.length < count then throw .outOfBounds
  set { stream with
    state := stream.state.drop count
    bytesLeft := stream.bytesLeft - count }
  return stream.state.take count

/-- No more bytes are read than are asked for. -/
theorem length_le_of_pbRead {count : Nat} {stream : IStream} {bytes : Bytes}
    (read : ((pbRead count).run stream).1 = .ok bytes) : bytes.length ≤ count := by
  rw [pbRead, PbStream.run_bind, PbStream.run_get] at read
  dsimp only at read
  split at read
  · cases read
  split at read
  · cases read
  · obtain rfl := Except.ok.inj read
    exact List.length_take_le ..

/-- The loop of `pb_decode_varint`: at `bitpos` 70 it has made all its passes. -/
def pbDecodeVarintLoop : (passes : Nat) → (bitpos dest : Nat) → PbReader Nat
  | 0, _, _ => throw .refused
  | passes + 1, bitpos, dest => do
      if bitpos < 64 then
        let byte := (← pbRead 1).headD 0
        let dest := dest ||| (byte &&& 0x7F).toNat <<< bitpos % 2 ^ 64
        if byte &&& 0x80 = 0 then return dest
        else pbDecodeVarintLoop passes (bitpos + 7) dest
      else throw .refused

/-- `pb_decode_varint` -/
def pbDecodeVarint : PbReader Nat := pbDecodeVarintLoop 10 0 0

/-- `pb_decode_varint32` -/
def pbDecodeVarint32 : PbReader Nat := do
  let temp ← pbDecodeVarint
  return temp % 2 ^ 32

/-- `pb_decode_svarint` -/
def pbDecodeSvarint : PbReader Int := do
  let value ← pbDecodeVarint
  if value &&& 1 = 1 then return -(value >>> 1 : Nat) - 1
  else return (value >>> 1 : Nat)

/-- `pb_decode_fixed32` and `pb_decode_fixed64`: the pattern whose bytes are
read, least significant first. -/
def pbDecodeFixed (width : Nat) : PbReader Nat := do
  return Codec.beValue (← pbRead width).reverse

/-- The block of a string: the bytes that `pb_decode_proto` allocates, how many of them
`pb_read` copies, and where `pb_decode_string` stores the zero. -/
structure StringBlock where
  allocated : Nat
  copied : Nat
  terminator : Nat
  deriving DecidableEq, Repr

/-- Nothing is written behind the block. -/
def StringBlock.Fits (block : StringBlock) : Prop :=
  block.copied < block.allocated ∧ block.terminator < block.allocated

instance (block : StringBlock) : Decidable block.Fits := inferInstanceAs (Decidable (_ ∧ _))

/-- The block for `str_len` bytes of a stream. The sum has the type `uint32_t`, and the zero is
stored whether or not the bytes could be read. -/
def pbStringBlock (strLen : Nat) (stream : IStream) : StringBlock where
  allocated := (strLen + 1) % 2 ^ 32
  copied :=
    match ((pbRead strLen).run stream).1 with
    | .ok bytes => bytes.length
    | .error _ => 0
  terminator := strLen

/-- `pb_decode_strlen` and `pb_decode_string`, into the block of the string. -/
def pbDecodeString : PbReader CStr := do
  let strLen ← pbDecodeVarint32
  if ¬ (pbStringBlock strLen (← get)).Fits then throw .outOfBounds
  return .ofBytes (← pbRead strLen)

/-- No more is copied than has been asked for. -/
theorem pbStringBlock_copied_le (strLen : Nat) (stream : IStream) :
    (pbStringBlock strLen stream).copied ≤ strLen := by
  rw [pbStringBlock]
  dsimp only
  split
  next bytes read => exact length_le_of_pbRead read
  · exact Nat.zero_le _

/-- A string fits its block if the allocated size has not wrapped around. -/
theorem pbStringBlock_fits_iff (strLen : Nat) (stream : IStream) :
    (pbStringBlock strLen stream).Fits ↔ strLen < (strLen + 1) % 2 ^ 32 := by
  have copied := pbStringBlock_copied_le strLen stream
  constructor
  · exact fun fits => fits.2
  · exact fun room => ⟨Nat.lt_of_le_of_lt copied room, room⟩

/-- A string is read behind its length, unless its block is too small. -/
theorem pbDecodeString_eq : pbDecodeString = (do
    let strLen ← pbDecodeVarint32
    if (strLen + 1) % 2 ^ 32 ≤ strLen then throw .outOfBounds
    return .ofBytes (← pbRead strLen) : PbReader CStr) := by
  rw [pbDecodeString]
  congr 1
  funext strLen
  have fits (stream : IStream) : (¬ (pbStringBlock strLen stream).Fits) =
      ((strLen + 1) % 2 ^ 32 ≤ strLen) := by
    rw [pbStringBlock_fits_iff, Nat.not_lt]
  simp only [fits]
  rfl

/-- `pb_decode_tag`, which gives no tag at the end of the message. -/
def pbDecodeTag : PbReader (Option Nat) := do
  let temp ← tryCatch (some <$> pbDecodeVarint32) fun stop => do
    if stop = .refused ∧ (← get).bytesLeft = 0 then return none else throw stop
  match temp with
  | none | some 0 => return none
  | some temp => return some (temp >>> 3)

/-- `pb_make_string_substream`, `pb_decode` on the substream and
`pb_close_string_substream`. -/
def pbDecodeSubmessage (decode : PbReader Json) : PbReader Json := do
  let size ← pbDecodeVarint32
  let stream ← get
  if stream.bytesLeft < size then throw .refused
  let (status, substream) := decode.run { stream with bytesLeft := size }
  set { stream with
    state := substream.state
    bytesLeft := stream.bytesLeft - size }
  match status with
  | .ok dest => return dest
  | .error stop => throw stop

/-- How a value is added to the object or the array under construction. -/
def pbAddValue (result : Json) (key : Option CStr) (item : Json) : Except Stop Json :=
  if result.isObject then do
    let key ← deref key
    return pcJSONAddItemToObject result key item
  else return pcJSONAddItemToArray result item

/-- `pb_decode_proto` for the scalar types: the node made from the bytes. -/
def pbDecodeScalar : PbType → PbReader Json
  | .uInt32 => return pcJSONCreateNumber (.ofInt (← pbDecodeVarint))
  | .int32 | .sInt32 => return pcJSONCreateNumber (.ofInt (← pbDecodeSvarint))
  | .float =>
      return pcJSONCreateNumber (Codec.Single.toDouble (BitVec.ofNat 32 (← pbDecodeFixed 4)))
  | .double => return pcJSONCreateNumber (BitVec.ofNat 64 (← pbDecodeFixed 8))
  | .string => return .string (← pbDecodeString)

section Walk

variable (decode : (protos result : Json) → PbReader Json) (gprotos protos proto : Json)

/-- `pb_decode_proto`, for a call of `pb_decode`. -/
def pbDecodeProto (key : Option CStr) (result : Json) : PbReader Json := do
  let typeText ← pbMemberText proto "type"
  let messages ← pcJSONGetObjectItem protos (.ofString "__messages")
  match pbGetType typeText with
  | some type => pbAddValue result key (← pbDecodeScalar type)
  | none =>
      match messages with
      | none => return result
      | some messages =>
          match ← pbFindMessage gprotos messages typeText with
          | none => throw .refused
          | some subMsg =>
              match key with
              | none => pbDecodeSubmessage (decode subMsg result)
              | some key =>
                  let subValue ← pbDecodeSubmessage (decode subMsg (.object []))
                  return pcJSONAddItemToObject result key subValue

/-- The loop over a packed array. -/
def pbDecodeElements (key : CStr) : (size : Nat) → (array : Json) → PbReader Json
  | 0, array => return array
  | size + 1, array => do
      pbDecodeElements key size (← pbDecodeProto decode gprotos protos proto (some key) array)

/-- `pb_decode_array` -/
def pbDecodeArray (key : CStr) (result : Json) : PbReader Json := do
  let typeText ← pbMemberText proto "type"
  let existing ← pcJSONGetObjectItem result key
  let array := existing.getD (.array [])
  let array ←
    if pbIsPacked typeText then do
      let size ← pbDecodeVarint32
      pbDecodeElements decode gprotos protos proto key size array
    else if pbGetType typeText = some .string then
      pbDecodeProto decode gprotos protos proto (some key) array
    else do
      let value ← pbDecodeProto decode gprotos protos proto none (.object [])
      pure (pcJSONAddItemToArray array value)
  match existing with
  | none => return pcJSONAddItemToObject result key array
  | some _ => return result.modifyItem key fun _ => array

/-- The member of `protos` with a field number, through `__tags`. -/
def pbFindField (tag : Nat) : Except Stop (CStr × Json) := do
  match ← pcJSONGetObjectItem protos (.ofString "__tags") with
  | none => throw .refused
  | some tags =>
      match ← pcJSONGetObjectItem tags (CStr.decimal tag) with
      | none => throw .refused
      | some member =>
          let name ← deref member.valuestring
          match ← pcJSONGetObjectItem protos name with
          | none => throw .refused
          | some proto => return (name, proto)

/-- One pass through the loop of `pb_decode`, behind its tag. -/
def pbDecodeField (tag : Nat) (result : Json) : PbReader Json := do
  let (name, proto) ← pbFindField protos tag
  let optionText ← pbMemberText proto "option"
  if optionText = .ofString "optional" ∨ optionText = .ofString "required" then
    pbDecodeProto decode gprotos protos proto (some name) result
  else if optionText = .ofString "repeated" then
    pbDecodeArray decode gprotos protos proto name result
  else return result

end Walk

/-- `pb_decode`. Every pass consumes a byte, and a submessage is shorter than
what is left, so a fuel equal to the number of bytes is enough. -/
def pbDecode (gprotos : Json) : (fuel : Nat) → (protos result : Json) → PbReader Json
  | 0, _, result => do if (← get).bytesLeft = 0 then return result else throw .outOfFuel
  | fuel + 1, protos, result => do
      if (← get).bytesLeft = 0 then return result
      else
        match ← pbDecodeTag with
        | none => return result
        | some tag =>
            let result ← pbDecodeField (pbDecode gprotos fuel) gprotos protos tag result
            pbDecode gprotos fuel protos result

/-- `pc_pb_decode`: the object decoded from the first bytes of a block. -/
def pcPbDecode (buf : Bytes) (len : Nat) (gprotos protos result : Json) : Except Stop Json :=
  ((pbDecode gprotos len protos result).run { state := buf, bytesLeft := len }).1

end Pomelo
