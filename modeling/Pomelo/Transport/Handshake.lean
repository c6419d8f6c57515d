import Pomelo.Transport.State

/-!
# The handshake

The texts that the handshake sends and what it reads from the answer of the server:
the heartbeat interval, and whether the dictionary and the protobuf definitions are
switched off, kept or exchanged. Each of the two is a version with two tables, which
are there together or not at all.
-/

namespace Pomelo

/-- `pc_JSON_DetachItemFromObject`. What is left of the object is not looked at under
the key again. -/
def pcJSONDetachItemFromObject (object : Json) (string : CStr) : Except Stop (Option Json) :=
  pcJSONGetObjectItem object string

/-- A version and its two tables. -/
structure TableSet where
  version : Option Json
  first : Option Json
  second : Option Json

namespace TableSet

/-- All three are null. -/
def absent : TableSet where
  version := none
  first := none
  second := none

/-- All three are set. -/
def whole (tables : TableSet) : Bool :=
  tables.version.isSome && tables.first.isSome && tables.second.isSome

/-- All three are null. -/
def empty (tables : TableSet) : Bool :=
  tables.version.isNone && tables.first.isNone && tables.second.isNone

end TableSet

/-- `dict_ver`, `route_to_code` and `code_to_route`. -/
def Transport.dict (tcp : Transport) : TableSet where
  version := tcp.dictVer
  first := tcp.routeToCode
  second := tcp.codeToRoute

/-- `proto_ver`, `client_protos` and `server_protos`. -/
def Transport.protos (tcp : Transport) : TableSet where
  version := tcp.protoVer
  first := tcp.clientProtos
  second := tcp.serverProtos

def Transport.setDict (tables : TableSet) (tcp : Transport) : Transport :=
  { tcp with
    dictVer := tables.version
    routeToCode := tables.first
    codeToRoute := tables.second }

def Transport.setProtos (tables : TableSet) (tcp : Transport) : Transport :=
  { tcp with
    protoVer := tables.version
    clientProtos := tables.first
    serverProtos := tables.second }

/-- Adds an item to an object, if there is one. -/
def addOption (key : String) (item : Option Json) (object : Json) : Json :=
  match item with
  | none => object
  | some item => pcJSONAddItemToObject object (CStr.ofString key) item

/-- The body of the handshake package. -/
def handshakeBody (platformType version : CStr) (tcp : Transport) : Json :=
  let sys := (Json.object []) |> addOption "protoVersion" tcp.protoVer
    |> addOption "dictVersion" tcp.dictVer
    |> addOption "type" (some (.string platformType))
    |> addOption "version" (some (.string version))
  (Json.object []) |> addOption "sys" (some sys) |> addOption "user" tcp.handshakeOpts

/-- `PC_HANDSHAKE_OK` -/
def pcHandshakeOk : Int := 200

/-- `PC_HEARTBEAT_TIMEOUT_FACTOR` -/
def pcHeartbeatTimeoutFactor : Int := 2

/-- The two tests of the answer: its `code` is `PC_HANDSHAKE_OK`, and it has a `sys`. -/
def handshakeSys (res : Json) : Except Stop (Option Json) := do
  match ← pcJSONGetObjectItem res (CStr.ofString "code") with
  | some (.number code) =>
      if (Json.number code).valueint = pcHandshakeOk then
        pcJSONGetObjectItem res (CStr.ofString "sys")
      else return none
  | _ => return none

/-- The heartbeat interval of the answer. -/
def handshakeHeartbeat (sys : Json) : Except Stop Int := do
  match ← pcJSONGetObjectItem sys (CStr.ofString "heartbeat") with
  | some (.number interval) => return (Json.number interval).valueint
  | _ => return -1

/-- What the answer makes of one set of tables: the set, whether it has changed, and
whether the two assertions on it hold. -/
def handshakeTables (use : Option Json) (fresh : Except Stop TableSet) (tables : TableSet) :
    Except Stop (TableSet × Bool × Bool) :=
  match use with
  | none | some .false =>
      if tables.whole then return (.absent, true, true) else return (tables, false, true)
  | some _ => do
      let fresh ← fresh
      if fresh.version.isSome then return (fresh, true, fresh.whole)
      else return (tables, false, fresh.empty && tables.whole)

/-- The dictionary of the answer. -/
def handshakeDict (sys : Json) : Except Stop TableSet := do
  let first ← pcJSONDetachItemFromObject sys (CStr.ofString "routeToCode")
  let second ← pcJSONDetachItemFromObject sys (CStr.ofString "codeToRoute")
  let version ← pcJSONDetachItemFromObject sys (CStr.ofString "dictVersion")
  return { version, first, second }

/-- The protobuf definitions of the answer. -/
def handshakeProtos (sys : Json) : Except Stop TableSet := do
  match ← pcJSONGetObjectItem sys (CStr.ofString "protos") with
  | none => return .absent
  | some protos =>
      let second ← pcJSONDetachItemFromObject protos (CStr.ofString "server")
      let first ← pcJSONDetachItemFromObject protos (CStr.ofString "client")
      let version ← pcJSONDetachItemFromObject protos (CStr.ofString "version")
      return { version, first, second }

/-- What an accepted answer sets. -/
structure HandshakeResult where
  tcp : Transport
  needSync : Bool
  dictAsserted : Bool
  protosAsserted : Bool

/-- The heartbeat fields after the handshake. -/
def Transport.setHeartbeat (interval : Int) (tcp : Transport) : Transport :=
  if interval ≤ 0 then { tcp with hbInterval := -1, hbTimeout := -1 }
  else { tcp with
    hbInterval := interval
    hbTimeout := toInt32 (interval * pcHeartbeatTimeoutFactor) }

/-- `tcp__on_handshake_resp`, from the heartbeat to the protobuf definitions. -/
def handshakeAccept (sys : Json) (tcp : Transport) : Except Stop HandshakeResult := do
  let tcp := tcp.setHeartbeat (← handshakeHeartbeat sys)
  let useDict ← pcJSONGetObjectItem sys (CStr.ofString "useDict")
  let dict ← handshakeTables useDict (handshakeDict sys) tcp.dict
  let useProto ← pcJSONGetObjectItem sys (CStr.ofString "useProto")
  let protos ← handshakeTables useProto (handshakeProtos sys) tcp.protos
  return {
    tcp := (tcp.setDict dict.1).setProtos protos.1
    needSync := dict.2.1 || protos.2.1
    dictAsserted := dict.2.2
    protosAsserted := protos.2.2 }

/-- The text that is written to the local storage. -/
def localStorage (tcp : Transport) : Json :=
  (Json.object []) |> addOption "dv" tcp.dictVer
    |> addOption "r2c" tcp.routeToCode
    |> addOption "c2r" tcp.codeToRoute
    |> addOption "pv" tcp.protoVer
    |> addOption "pc" tcp.clientProtos
    |> addOption "ps" tcp.serverProtos

/-- A set of tables that is not complete is dropped. -/
def TableSet.orAbsent (tables : TableSet) : TableSet := if tables.whole then tables else .absent

/-- The part of `tr_uv_tcp_init` that loads the local storage. -/
def loadLocalStorage (text : JsonText) (stored : Option CStr) (tcp : Transport) :
    Except Stop Transport :=
  match stored with
  | none => return tcp
  | some stored =>
      match pcJSONParseWithOpts text (stored.bytes ++ [0]) false with
      | .error .refused => return tcp
      | .error stop => throw stop
      | .ok (lc, _) => do
          let r2c ← pcJSONDetachItemFromObject lc (CStr.ofString "r2c")
          let c2r ← pcJSONDetachItemFromObject lc (CStr.ofString "c2r")
          let dv ← pcJSONDetachItemFromObject lc (CStr.ofString "dv")
          let pc ← pcJSONDetachItemFromObject lc (CStr.ofString "pc")
          let ps ← pcJSONDetachItemFromObject lc (CStr.ofString "ps")
          let pv ← pcJSONDetachItemFromObject lc (CStr.ofString "pv")
          return (tcp.setDict (TableSet.mk dv r2c c2r).orAbsent).setProtos
            (TableSet.mk pv pc ps).orAbsent

end Pomelo
