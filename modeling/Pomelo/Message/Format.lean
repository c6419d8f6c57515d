import Pomelo.Json
import Pomelo.Codec.Base128
import Pomelo.Protobuf.Encode

/-!
# The message format

The layer of `pr_msg.c` below the bodies: a flag byte with the type of the
message, the request id in base-128 digits, and the route, either as a code of
two bytes or as a length byte with the text. The lengths are the C ones:
`pc_buf_t.len` is an `int`, which becomes a `size_t` on the way in.
-/

namespace Pomelo

/-- `PC_NOTIFY_PUSH_REQ_ID` -/
def pcNotifyPushReqId : Nat := 0

/-- `PC_INVALID_REQ_ID` -/
def pcInvalidReqId : Nat := 2 ^ 32 - 1

/-- `pc_msg_type` -/
inductive MsgType where
  | request
  | notify
  | response
  | push
  deriving DecidableEq, Repr

namespace MsgType

def code : MsgType → Nat
  | request => 0
  | notify => 1
  | response => 2
  | push => 3

/-- `PC_IS_VALID_TYPE`, with the type it is valid for. -/
def ofCode? : Nat → Option MsgType
  | 0 => some request
  | 1 => some notify
  | 2 => some response
  | 3 => some push
  | _ => none

/-- `PC_MSG_HAS_ID` -/
def hasId : MsgType → Bool
  | request | response => true
  | notify | push => false

/-- `PC_MSG_HAS_ROUTE` -/
def hasRoute : MsgType → Bool
  | response => false
  | request | notify | push => true

@[simp] theorem ofCode?_code (type : MsgType) : ofCode? type.code = some type := by
  cases type <;> rfl

end MsgType

/-- `pc_buf_t`, with the memory from `base` on. -/
structure PcBuf where
  base : Option Bytes
  len : Int
  deriving DecidableEq, Repr

/-- What the encoders return when they fail. -/
def PcBuf.failed : PcBuf where
  base := none
  len := -1

/-- `pc_msg_t` -/
structure PcMsg where
  id : Nat
  route : Option CStr
  msg : Option CStr
  deriving DecidableEq

/-- The union `route` of `pc__msg_raw_t`. -/
inductive RawRoute where
  | code (routeCode : Nat)
  | str (routeStr : Option CStr)
  deriving DecidableEq

/-- `pc__msg_raw_t` -/
structure MsgRaw where
  id : Nat
  type : MsgType
  isRouteCompressed : Bool
  route : RawRoute
  body : PcBuf
  deriving DecidableEq

/-- `pc_lib_malloc`, which aborts when no block of that size can exist. -/
def pcLibMalloc (size : Nat) : Except Stop Unit :=
  if size < 2 ^ 63 then pure () else throw .aborted

/-- The conversion of a number to `int`. -/
def toInt32 (value : Int) : Int := (value + 2 ^ 31) % 2 ^ 32 - 2 ^ 31

/-- `pc__msg_encode_flag` -/
def pcMsgEncodeFlag (type : MsgType) (compressRoute : Bool) : UInt8 :=
  UInt8.ofNat (type.code <<< 1 ||| compressRoute.toNat)

/-- `pc__msg_encode_id` -/
def pcMsgEncodeId (id : Nat) : Bytes :=
  let tmp := id &&& 0x7F
  let next := id >>> 7
  if next ≠ 0 then UInt8.ofNat (tmp + 128) :: pcMsgEncodeId next else [UInt8.ofNat tmp]
termination_by id
decreasing_by
  rw [Nat.shiftRight_eq_div_pow] at *
  omega

/-- `pc__msg_id_length` -/
def pcMsgIdLength (id : Nat) : Nat :=
  if id >>> 7 > 0 then (1 + pcMsgIdLength (id >>> 7)) % 2 ^ 8 else 1
termination_by id
decreasing_by
  rw [Nat.shiftRight_eq_div_pow] at *
  omega

/-- `pc__msg_encode_route` -/
def pcMsgEncodeRouteStr (route : CStr) (routeLen : Nat) : Except Stop Bytes :=
  -- The text is followed by its zero.
  if routeLen > route.length + 1 then throw .outOfBounds
  else pure (UInt8.ofNat (routeLen &&& 0xFF) :: (route.bytes ++ [0]).take routeLen)

/-- The end of both encoders: the block is allocated, and what precedes the body
is written in it, and then the body. -/
def pcMsgFill (msgLen : Nat) (head : Bytes) (body : PcBuf) : Except Stop PcBuf := do
  pcLibMalloc msgLen
  let count := toUInt64 body.len
  let data ← deref body.base
  if head.length + count > msgLen ∨ count > data.length then throw .outOfBounds
  return { base := some (head ++ data.take count), len := toInt32 msgLen }

/-- `pc_msg_encode_route`. The parts of `msg_len` are added as `int`s, and processors wrap a sum
that gets too large. -/
def pcMsgEncodeRoute (id : Nat) (type : MsgType) (route : CStr) (msg : PcBuf) :
    Except Stop PcBuf := do
  let idLen := if type.hasId then pcMsgIdLength id else 0
  let routeLen := if type.hasRoute then route.length % 2 ^ 16 else 0
  let msgLen := toUInt64 (toInt32 ((1 + idLen + 1 + routeLen : Nat) + msg.len))
  let routeBytes ← if type.hasRoute then pcMsgEncodeRouteStr route routeLen else pure []
  let idBytes := if type.hasId then pcMsgEncodeId id else []
  pcMsgFill msgLen (pcMsgEncodeFlag type false :: idBytes ++ routeBytes) msg

/-- `pc_msg_encode_code`. The parts of `msg_len` are added as `int`s here, too. -/
def pcMsgEncodeCode (id : Nat) (type : MsgType) (routeCode : Int) (body : PcBuf) :
    Except Stop PcBuf :=
  let idLen := if type.hasId then pcMsgIdLength id else 0
  let routeLen := if type.hasRoute then 2 else 0
  let msgLen := toUInt64 (toInt32 ((1 + idLen + routeLen : Nat) + body.len))
  let idBytes := if type.hasId then pcMsgEncodeId id else []
  let routeBytes :=
    if type.hasRoute then
      [UInt8.ofNat (routeCode / 2 ^ 8 % 2 ^ 8).toNat, UInt8.ofNat (routeCode % 2 ^ 8).toNat]
    else []
  pcMsgFill msgLen (pcMsgEncodeFlag type true :: idBytes ++ routeBytes) body

/-- A byte of a block of memory. -/
def byteAt (data : Bytes) (offset : Nat) : Except Stop UInt8 :=
  match data[offset]? with
  | some byte => pure byte
  | none => throw .outOfBounds

/-- The loop that reads the id from the memory at `offset`: the id, and the
offset behind it. -/
def pcMsgDecodeId (len : Nat) : (data : Bytes) → (offset i id : Nat) → Except Stop (Nat × Nat)
  | [], offset, _, _ => if offset < len then throw .outOfBounds else throw .refused
  | m :: data, offset, i, id =>
      if offset < len then
        -- Processors shift an `int` by the distance modulo 32.
        let id := (id + (m &&& 0x7F).toNat <<< (7 * i % 32)) % 2 ^ 32
        if m &&& 0x80 ≠ 0 then pcMsgDecodeId len data (offset + 1) (i + 1) id
        else pure (id, offset + 1)
      else throw .refused

/-- The part of `pc_msg_decode_to_raw` that reads the id behind the flag: the id, and
the offset behind it. -/
def pcMsgDecodeRawId (type : MsgType) (data : Bytes) (len : Nat) : Except Stop (Nat × Nat) :=
  if type.hasId then pcMsgDecodeId len (data.drop 1) 1 0 0 else pure (pcNotifyPushReqId, 1)

/-- The value of a `char`, converted to `size_t`. -/
def Platform.charToSize (platform : Platform) (char : UInt8) : Nat :=
  if platform.charSigned ∧ 128 ≤ char.toNat then char.toNat + (2 ^ 64 - 256) else char.toNat

/-- The route at `offset`, and the offset behind it. -/
def pcMsgDecodeRoute (platform : Platform) (data : Bytes) (len offset : Nat)
    (isRouteCompressed : Bool) : Except Stop (RawRoute × Nat) :=
  if isRouteCompressed then
    if offset + 2 - 1 < len then do
      let high ← byteAt data offset
      let low ← byteAt data (offset + 1)
      return (.code (high.toNat <<< 8 ||| low.toNat), offset + 2)
    else throw .refused
  else if offset + 1 - 1 < len then do
    let char ← byteAt data offset
    let routeLen := platform.charToSize char
    let offset := offset + 1
    if (offset + routeLen + (2 ^ 64 - 1)) % 2 ^ 64 < len then
      pcLibMalloc ((routeLen + 1) % 2 ^ 64)
      if offset + routeLen > data.length then throw .outOfBounds
      return (.str (some (.ofBytes ((data.drop offset).take routeLen))), offset + routeLen)
    else throw .refused
  else throw .refused

/-- The part of `pc_msg_decode_to_raw` that reads the route. -/
def pcMsgDecodeRawRoute (platform : Platform) (type : MsgType) (data : Bytes) (len offset : Nat)
    (isRouteCompressed : Bool) : Except Stop (RawRoute × Nat) :=
  if type.hasRoute then pcMsgDecodeRoute platform data len offset isRouteCompressed
  else pure (if isRouteCompressed then .code 0 else .str none, offset)

/-- `pc_msg_decode_to_raw` -/
def pcMsgDecodeToRaw (platform : Platform) (buf : PcBuf) : Except Stop MsgRaw := do
  let data ← deref buf.base
  let len := toUInt64 buf.len
  if len < 1 then throw .refused
  let flag ← byteAt data 0
  let isRouteCompressed := flag &&& 0x01 ≠ 0
  match MsgType.ofCode? (flag >>> 1).toNat with
  | none => throw .refused
  | some type => do
      let (id, offset) ← pcMsgDecodeRawId type data len
      let (route, offset) ← pcMsgDecodeRawRoute platform type data len offset isRouteCompressed
      if id = pcInvalidReqId then throw .aborted
      let bodyLen : Nat := (len + (2 ^ 64 - offset)) % 2 ^ 64
      return { id, type, isRouteCompressed, route
               body := { base := some (data.drop offset), len := toInt32 bodyLen } }

end Pomelo
