import Pomelo.Message.Format
import Pomelo.Protobuf.Decode

/-!
# The message codec

`pr_msg_json.c`, `pr_msg_pb.c` and the two functions of `pr_msg.c` over them. The
JSON printer and parser are parameters. A body is protobuf when the set of
definitions has one for the route, and JSON otherwise; a route is written as a
code when the dictionary has a positive one.
-/

namespace Pomelo

/-- The printer and the parser of `pc_JSON.c`. The parser is given the memory
from the text on, and reports how far the text reaches. -/
structure JsonText where
  print : Json → Option CStr
  parse : Bytes → Option (Json × Nat)

/-- `pc_JSON_PrintUnformatted` -/
def pcJSONPrintUnformatted (text : JsonText) (item : Json) : Option CStr := text.print item

/-- `skip`, as the number of bytes that are skipped. -/
def pcJSONSkip (bytes : Bytes) : Nat :=
  (bytes.takeWhile fun byte => byte ≠ 0 ∧ byte ≤ 32).length

/-- `pc_JSON_ParseWithOpts` -/
def pcJSONParseWithOpts (text : JsonText) (value : Bytes) (requireNullTerminated : Bool) :
    Except Stop (Json × Nat) :=
  match text.parse value with
  | none => throw .refused
  | some (item, last) =>
      if requireNullTerminated then do
        let last := last + pcJSONSkip (value.drop last)
        if (← byteAt value last) ≠ 0 then throw .refused
        return (item, last)
      else return (item, last)

/-- `pc_body_json_encode` -/
def pcBodyJsonEncode (text : JsonText) (msg : Json) : PcBuf :=
  match pcJSONPrintUnformatted text msg with
  | none => .failed
  | some res => { base := some (res.bytes ++ [0]), len := toInt32 res.length }

/-- `pc_body_json_decode`, from the memory at the offset. -/
def pcBodyJsonDecode (text : JsonText) (data : Bytes) (len : Nat) : Except Stop Json := do
  let (res, last) ← pcJSONParseWithOpts text data false
  if last ≠ len then throw .refused
  return res

/-- `PC_PB_EVAL_FACTOR` -/
def pcPbEvalFactor : Int := 2

/-- `pc_body_pb_encode` -/
def pcBodyPbEncode (text : JsonText) (msg gprotos pbDef : Json) : Except Stop PcBuf := do
  let jsonBuf := pcBodyJsonEncode text msg
  if jsonBuf.len = -1 then return .failed
  let evalSize := toUInt64 (toInt32 (jsonBuf.len * pcPbEvalFactor))
  pcLibMalloc evalSize
  match pcPbEncode evalSize gprotos pbDef msg with
  | (.ok (), stream) => return { base := some stream.state, len := toInt32 stream.bytesWritten }
  | (.error .refused, _) => return .failed
  | (.error stop, _) => throw stop

/-- `pc_body_pb_decode`, from the memory at the offset. -/
def pcBodyPbDecode (data : Bytes) (len : Nat) (gprotos pbDef : Json) : Except Stop Json :=
  pcPbDecode data len gprotos pbDef (.object [])

/-- The member of a table that may be missing. -/
def pcTableItem (table : Option Json) (key : CStr) : Except Stop (Option Json) :=
  match table with
  | none => pure none
  | some table => pcJSONGetObjectItem table key

/-- The body of `pc_default_msg_encode`. -/
def pcMsgEncodeBody (text : JsonText) (clientProtos : Option Json) (route : CStr) (jsonMsg : Json) :
    Except Stop PcBuf := do
  match clientProtos, ← pcTableItem clientProtos route with
  | some clientProtos, some pbDef => pcBodyPbEncode text jsonMsg clientProtos pbDef
  | _, _ => return pcBodyJsonEncode text jsonMsg

/-- `route_code` of `pc_default_msg_encode` -/
def pcMsgRouteCode (route2code : Option Json) (route : CStr) : Except Stop Int := do
  match ← pcTableItem route2code route with
  | some (.number code) => return (Json.number code).valueint
  | _ => return -1

/-- `pc_default_msg_encode` -/
def pcDefaultMsgEncode (text : JsonText) (route2code clientProtos : Option Json) (msg : PcMsg) :
    Except Stop PcBuf := do
  match msg.msg, msg.route with
  | some msgText, some route =>
      match pcJSONParseWithOpts text (msgText.bytes ++ [0]) true with
      | .error .refused => return .failed
      | .error stop => throw stop
      | .ok (jsonMsg, _) => do
          let body ← pcMsgEncodeBody text clientProtos route jsonMsg
          if body.len = -1 then
            if body.base.isSome then throw .aborted
            return .failed
          if body.base.isNone then throw .aborted
          let type := if msg.id = pcNotifyPushReqId then .notify else .request
          let routeCode ← pcMsgRouteCode route2code route
          if routeCode > 0 then pcMsgEncodeCode msg.id type routeCode body
          else pcMsgEncodeRoute msg.id type route body
  | _, _ => throw .aborted

/-- `pc__resolve_dictionary` -/
def pcResolveDictionary (code2route : Option Json) (code : Nat) : Except Stop CStr := do
  match ← pcJSONGetObjectItem (← deref code2route) (.decimal code) with
  | some (.string route) => return route
  | _ => throw .aborted

/-- The route that `pc_default_msg_decode` gives a message, if it has one. -/
def pcMsgResolveRoute (code2route : Option Json) (raw : MsgRaw) : Except Stop (Option CStr) :=
  if raw.type.hasRoute then
    match raw.route with
    | .code routeCode => do return some (← pcResolveDictionary code2route routeCode)
    | .str routeStr => return routeStr
  else return none

/-- The body that `pc_default_msg_decode` reads, of a message with this route. -/
def pcMsgDecodeBody (text : JsonText) (serverProtos : Option Json) (route : Option CStr)
    (data : Bytes) (len : Nat) : Except Stop Json :=
  match route with
  | none => pcBodyJsonDecode text data len
  | some route => do
      match serverProtos, ← pcTableItem serverProtos route with
      | some serverProtos, some pbDef => pcBodyPbDecode data len serverProtos pbDef
      | _, _ => pcBodyJsonDecode text data len

/-- A message that could not be decoded. -/
def PcMsg.invalid : PcMsg where
  id := pcInvalidReqId
  route := none
  msg := none

/-- The end of `pc_default_msg_decode`, for a message with an acceptable route. -/
def pcMsgDecodeText (text : JsonText) (serverProtos : Option Json) (raw : MsgRaw)
    (route : Option CStr) : Except Stop PcMsg :=
  if raw.body.len > 0 then do
    let data ← deref raw.body.base
    match pcMsgDecodeBody text serverProtos route data (toUInt64 raw.body.len) with
    | .error .refused => return .invalid
    | .error stop => throw stop
    | .ok jsonMsg =>
        match pcJSONPrintUnformatted text jsonMsg with
        | none => throw .aborted
        | some data => return { id := raw.id, route, msg := some data }
  else return { id := raw.id, route, msg := none }

/-- `pc_default_msg_decode` -/
def pcDefaultMsgDecode (platform : Platform) (text : JsonText) (code2route serverProtos : Option Json)
    (buf : PcBuf) : Except Stop PcMsg := do
  if buf.base.isNone then throw .aborted
  match pcMsgDecodeToRaw platform buf with
  | .error .refused => return .invalid
  | .error stop => throw stop
  | .ok raw => do
      if raw.id = pcInvalidReqId then throw .aborted
      let route ← pcMsgResolveRoute code2route raw
      if raw.type.hasRoute ∧ route.isNone then return .invalid
      pcMsgDecodeText text serverProtos raw route

/-- `pr_default_msg_encoder`, with the tables of the transport. -/
def prDefaultMsgEncoder (platform : Platform) (text : JsonText)
    (routeToCode clientProtos : Option Json) (msg : PcMsg) : Except Stop UvBuf := do
  let pb ← pcDefaultMsgEncode text routeToCode clientProtos msg
  return { base := pb.base, len := platform.uvLen pb.len }

/-- `pr_default_msg_decoder`, with the tables of the transport. -/
def prDefaultMsgDecoder (platform : Platform) (text : JsonText)
    (codeToRoute serverProtos : Option Json) (buf : UvBuf) : Except Stop PcMsg :=
  pcDefaultMsgDecode platform text codeToRoute serverProtos
    { base := buf.base, len := toInt32 buf.len }

end Pomelo
