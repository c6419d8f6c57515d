import Pomelo.Transport.Calls
import Pomelo.Transport.Handshake

/-!
# The callbacks of the event loop

`tr_uv_tcp_aux.c` and the package handler of `tr_uv_tcp_i.c`. A callback runs to its
end on the loop thread. Where it delivers something to a client that does not poll,
code of the user runs in the middle of it, and other threads go on.
-/

namespace Pomelo

variable (env : Env)

/-- `pc_trans_fire_event`, as the transport calls it. -/
def fireEvent (type : EvType) (arg1 arg2 : Option CStr) (sys : Sys) : Sys :=
  pcTransFireEvent (loopReceiver env) env.config.enablePolling type.code arg1 arg2
    (sys.note (.fire type))

/-- An event with the reason for it. -/
def fireReason (type : EvType) (reason : String) (sys : Sys) : Sys :=
  fireEvent env type (some (CStr.ofString reason)) none sys

/-- The completion of a write item, by its type. -/
def completeItem (item : WriteItem) (rc : Int) (sys : Sys) : Sys :=
  match item.type with
  | .resp => pcTransResp (loopReceiver env) env.config.enablePolling item.reqId rc none sys
  | .notify => pcTransSent (loopReceiver env) env.config.enablePolling item.seqNum rc sys
  | _ => sys

/-- An item is completed and given back. -/
def dropItem (item : WriteItem) (rc : Int) (sys : Sys) : Sys :=
  (completeItem env item rc sys).wq (WriteQueues.recycle item)

/-- The loop over a queue whose items are all dropped: `tcp__reset_wi` in `tcp__reset`,
and the failed `uv_write` of `tcp__write_async_cb`. Nothing else links items there, so
it takes as many passes as there are items. -/
def dropItems (queue : WiQueue) (rc : Int) : (passes : Nat) → Sys → Sys
  | 0, sys => sys
  | passes + 1, sys =>
      match sys.state.tcp.wq.items queue with
      | [] => sys
      | item :: rest =>
          dropItems queue rc passes (dropItem env item rc (sys.wq (WriteQueues.setItems queue rest)))

/-- `tcp__reset` up to the socket. -/
def Transport.stopAll (tcp : Transport) : Transport :=
  { tcp with
    state := .notConn
    pkgParser := pcPkgParserReset tcp.pkgParser
    hbTimeoutTimer := tcp.hbTimeoutTimer.stop
    hbTimer := tcp.hbTimer.stop
    checkTimeout := tcp.checkTimeout.stop
    reconnDelayTimer := tcp.reconnDelayTimer.stop
    connTimeout := tcp.connTimeout.stop
    isWaitingHb := false
    hbRtt := -1
    reading := false }

/-- `uv_close` of the socket, unless the client is INITED. -/
def Core.closeSocket (core : Core) : Core :=
  if core.client.state ≠ .inited ∧ core.tcp.socket ≠ .closing then
    { core with tcp := { core.tcp with socket := .closing } }
  else core

/-- The items that wait for the connection go behind the ones that are being written. -/
def WriteQueues.gather (queues : WriteQueues) : WriteQueues :=
  { queues with
    writing := queues.writing ++ queues.connPending ++ queues.writeWait
    connPending := []
    writeWait := [] }

/-- The loops of `tcp__reset` over the two queues that are left. -/
def resetItems (sys : Sys) : Sys :=
  let sys := (sys.hold true).wq WriteQueues.gather
  let sys := dropItems env .writing pcRcReset sys.state.tcp.wq.writing.length sys
  let sys := dropItems env .respPending pcRcReset sys.state.tcp.wq.respPending.length sys
  sys.hold false

/-- `tcp__reset` -/
def tcpReset (sys : Sys) : Sys :=
  let sys := ((sys.note .reset).tcp Transport.stopAll).change Core.closeSocket
  (resetItems env sys).note .resetDone

/-- The end of `tcp__reconn` when there is no further attempt. -/
def giveUp (reason : String) (sys : Sys) : Sys :=
  ((fireReason env .connectFailed reason sys).note .gaveUp).tcp fun tcp =>
    { tcp with reconnTimes := 0, state := .notConn }

/-- The loop that looks for the first shift that leaves nothing of the factor. An
`int` needs no more than 31 passes. -/
def shiftsToZero (factor : Nat) : (passes : Nat) → (shift : Nat) → Nat
  | 0, shift => shift
  | passes + 1, shift =>
      if factor >>> shift = 0 then shift else shiftsToZero factor passes (shift + 1)

/-- `factor` of `tcp__reconn` -/
def reconnFactor (config : ClientConfig) : Int :=
  if config.reconnDelay = 0 then 1
  else
    let factor := config.reconnDelayMax.tdiv config.reconnDelay
    if factor ≤ 0 then 1 else factor

/-- `max_reconn_incr`, once it is known. -/
def maxReconnIncr (config : ClientConfig) (known : Int) : Int :=
  if known ≠ 0 then known
  else if !config.reconnExpBackoff then toInt32 (reconnFactor config + 1)
  else shiftsToZero (reconnFactor config).toNat 31 1 + 1

/-- The delay before it is made random. -/
def reconnBase (config : ClientConfig) (maxReconnIncr reconnTimes : Int) : Int :=
  if reconnTimes ≥ maxReconnIncr then config.reconnDelayMax
  else if !config.reconnExpBackoff then toInt32 (config.reconnDelay * reconnTimes)
  else toInt32 (config.reconnDelay * 2 ^ (reconnTimes - 1).toNat)

/-- `(rand() % timeout) + timeout / 2` -/
def reconnDelay (base : Int) (rand : Nat) : Except Stop Int :=
  if base = 0 then throw .aborted
  else return toInt32 ((rand : Int).tmod base + base.tdiv 2)

/-- `reconn_delay_timer` is started. -/
def armReconn (sys : Sys) : Sys :=
  let sys := sys.tcp fun tcp =>
    { tcp with maxReconnIncr := maxReconnIncr env.config tcp.maxReconnIncr }
  let base := reconnBase env.config sys.state.tcp.maxReconnIncr sys.state.tcp.reconnTimes
  match reconnDelay base (env.rand sys) with
  | .error stop => sys.crash stop
  | .ok delay =>
      (sys.note (.reconnArmed delay)).tcp fun tcp =>
        { tcp with reconnDelayTimer := .start tcp.loopTime (toInt32 (delay * 1000)) }

/-- `tcp__reconn` behind its reset. -/
def reconnAgain (sys : Sys) : Sys :=
  let sys := sys.tcp fun tcp => { tcp with state := .connecting }
  if !env.config.enableReconn then giveUp env "Reconn Disabled" sys
  else
    let sys := sys.tcp fun tcp => { tcp with reconnTimes := toInt32 (tcp.reconnTimes + 1) }
    if env.config.reconnMaxRetry ≠ pcAlwaysRetry
        ∧ env.config.reconnMaxRetry < sys.state.tcp.reconnTimes then
      giveUp env "Exceed Max Retry" sys
    else armReconn env sys

/-- `tcp__reconn` -/
def tcpReconn (sys : Sys) : Sys := reconnAgain env (tcpReset env (sys.note .reconn))

/-- `tcp__reconn_delay_timer_cb` -/
def tcpReconnDelayTimerCb (sys : Sys) : Sys :=
  sys.tcp fun tcp =>
    { tcp with reconnDelayTimer := tcp.reconnDelayTimer.stop, connAsync := true }

/-- A failed attempt: the event, and the next attempt. -/
def attemptFailed (reason : String) (sys : Sys) : Sys :=
  tcpReconn env (fireReason env .connectError reason sys)

/-- `tcp__conn_async_cb` up to `uv_tcp_init`. -/
def beginAttempt (sys : Sys) : Sys :=
  let sys := (sys.note .attempt).tcp fun tcp => { tcp with state := .connecting }
  let sys := sys.assert (fun core => core.tcp.host.isSome) .host
  sys.tcp fun tcp => { tcp with socket := .open, reading := false }

/-- The attempt of `tcp__conn_async_cb`. -/
def startAttempt (resolved : Bool) (ret : Int) (sys : Sys) : Sys :=
  let sys := beginAttempt sys
  if !resolved then attemptFailed env "DNS Resolve Error" sys
  else if ret ≠ 0 then attemptFailed env "UV Conn Error" sys
  else
    let sys := sys.tcp fun tcp => { tcp with isConnecting := true }
    if env.config.connTimeout ≠ pcWithoutTimeout then
      sys.tcp fun tcp =>
        { tcp with connTimeout := .start tcp.loopTime (toInt32 (env.config.connTimeout * 1000)) }
    else sys

/-- `tcp__conn_async_cb` -/
def tcpConnAsyncCb (resolved : Bool) (ret : Int) (sys : Sys) : Sys :=
  let sys := sys.tcp fun tcp => { tcp with connAsync := false }
  if sys.state.tcp.isConnecting then sys else startAttempt env resolved ret sys

/-- `tcp__conn_timeout_cb` -/
def tcpConnTimeoutCb (sys : Sys) : Sys :=
  let sys := sys.assert (fun core => core.tcp.isConnecting) .connTimeoutConnecting
  sys.tcp fun tcp => { tcp with connTimeout := tcp.connTimeout.stop, socket := .closing }

/-- A write item for a package of the transport's own. -/
def Core.internalItem (core : Core) (buf : UvBuf) : WriteItem where
  slot := core.tcp.wq.nextSlot
  type := .internal
  buf
  seqNum := 2 ^ 32 - 1
  reqId := 2 ^ 32 - 1
  ts := core.clock
  timeout := pcWithoutTimeout
  born := 0

/-- A package of the transport's own is queued before all others and signalled. -/
def sendFirst (buf : UvBuf) (sys : Sys) : Sys :=
  let item := sys.state.internalItem buf
  let sys := sys.wq fun queues =>
    { queues.allocate item.slot with writeWait := item :: queues.writeWait }
  sys.tcp fun tcp => { tcp with writeAsync := true }

/-- A package of the transport's own is queued behind all others and signalled. -/
def sendLast (buf : UvBuf) (sys : Sys) : Sys :=
  let item := sys.state.internalItem buf
  let sys := sys.wq fun queues =>
    { queues.allocate item.slot with writeWait := queues.writeWait ++ [item] }
  sys.tcp fun tcp => { tcp with writeAsync := true }

/-- `tcp__send_handshake` -/
def tcpSendHandshake (sys : Sys) : Sys :=
  let sys := sys.assert (fun core => core.tcp.state = .handshakeing) .sendHandshakeState
  let sys := sys.assert (fun core =>
    (core.tcp.protos.whole || core.tcp.protos.empty) &&
      (core.tcp.dict.whole || core.tcp.dict.empty)) .sendHandshakeTables
  match env.text.print (handshakeBody env.platformType env.version sys.state.tcp) with
  | none => sys.crash .nullDeref
  | some data =>
      sendFirst (pcPkgEncode env.platform PkgType.handshake.code (some data.bytes) data.length) sys

/-- `hs_timeout` of `tcp__conn_done_cb`: what is left of the connect timeout. -/
def Transport.handshakeTimeout (tcp : Transport) : Int :=
  toInt32 ((tcp.connTimeout.timeout : Int) - tcp.loopTime)

/-- `tcp__conn_done_cb` when the connection is up. -/
def connDoneUp (hsTimeout : Int) (ret : Int) (sys : Sys) : Sys :=
  let sys := sys.tcp fun tcp => { tcp with state := .handshakeing }
  if ret ≠ 0 then tcpReconn env sys
  else
    let sys := tcpSendHandshake env (sys.tcp fun tcp => { tcp with reading := true })
    if env.config.connTimeout ≠ pcWithoutTimeout then
      sys.tcp fun tcp => { tcp with handshakeTimer := .start tcp.loopTime hsTimeout }
    else sys

/-- `tcp__conn_done_cb` -/
def tcpConnDoneCb (status ret : Int) (sys : Sys) : Sys :=
  let sys := sys.assert (fun core => core.tcp.isConnecting) .connDoneConnecting
  let hsTimeout := sys.state.tcp.handshakeTimeout
  let sys := sys.tcp fun tcp => { tcp with
    isConnecting := false
    connTimeout :=
      if env.config.connTimeout ≠ pcWithoutTimeout then tcp.connTimeout.stop
      else tcp.connTimeout }
  if status = 0 then connDoneUp env hsTimeout ret sys
  else if status = uvECanceled then attemptFailed env "Connect Timeout" sys
  else attemptFailed env "Connect Error" sys

/-- `tcp__handshake_timer_cb` -/
def tcpHandshakeTimerCb (sys : Sys) : Sys := attemptFailed env "Connect Timeout" sys

/-- `check_timeout` is started unless it is active. -/
def Transport.startCheck (need : Bool) (tcp : Transport) : Transport :=
  if need && !tcp.checkTimeout.active then
    { tcp with checkTimeout := .start tcp.loopTime 2000 }
  else tcp

/-- The items that were queued before the handshake was done go behind the others. -/
def WriteQueues.drain (queues : WriteQueues) : WriteQueues :=
  { queues with writeWait := queues.writeWait ++ queues.connPending, connPending := [] }

/-- The items that wait are handed to `uv_write`. -/
def WriteQueues.beginWrite (queues : WriteQueues) : WriteQueues :=
  { queues with writing := queues.writing ++ queues.writeWait, writeWait := [] }

/-- `tcp__write_async_cb` from `uv_write` on. -/
def writeItems (needCheck : Bool) (ret : Int) (sys : Sys) : Sys :=
  let sys := (sys.note (.write sys.state.tcp.wq.writeWait ret)).wq WriteQueues.beginWrite
  if ret ≠ 0 then
    let sys := sys.hold true
    (dropItems env .writing ret sys.state.tcp.wq.writing.length sys).hold false
  else (sys.tcp fun tcp => { tcp with isWriting := true }).tcp (Transport.startCheck needCheck)

/-- `need_check` of `tcp__write_async_cb`, when the queues have been looked through. -/
def WriteQueues.needCheck (queues : WriteQueues) : Bool :=
  queues.writeWait.any fun item => item.type ≠ .internal && item.timed

/-- The first part of `tcp__write_async_cb`: once the handshake is done, what was queued
before joins the other items. -/
def drainPending (sys : Sys) : Sys :=
  if sys.state.tcp.state = .done then sys.wq WriteQueues.drain else sys

/-- The items queued before the handshake keep the check for timeouts going. -/
def Transport.pendingCheck (tcp : Transport) : Bool := tcp.state ≠ .done && tcp.wq.connPending ≠ []

/-- `tcp__write_async_cb` -/
def tcpWriteAsyncCb (ret : Int) (sys : Sys) : Sys :=
  let sys := sys.tcp fun tcp => { tcp with writeAsync := false }
  if sys.state.tcp.state = .notConn ∨ sys.state.tcp.isWriting then sys
  else
    let sys := drainPending sys
    let needCheck := sys.state.tcp.pendingCheck || sys.state.tcp.wq.needCheck
    if sys.state.tcp.wq.writeWait = [] then sys.tcp (Transport.startCheck needCheck)
    else writeItems env needCheck ret sys

/-- The loop of `tcp__write_done_cb`: a request that has been written waits for its
answer, everything else is dropped. -/
def finishWrites (rc : Int) : (passes : Nat) → Sys → Sys
  | 0, sys => sys
  | passes + 1, sys =>
      match sys.state.tcp.wq.writing with
      | [] => sys
      | item :: rest =>
          let sys := sys.wq (WriteQueues.setItems .writing rest)
          if rc = pcRcOk ∧ item.type = .resp then
            finishWrites rc passes (sys.wq fun queues =>
              { queues with respPending := queues.respPending ++ [item] })
          else finishWrites rc passes (dropItem env item rc sys)

/-- `tcp__write_done_cb` -/
def tcpWriteDoneCb (status : Int) (sys : Sys) : Sys :=
  let sys := sys.assert (fun core => core.tcp.isWriting) .writeDoneWriting
  let sys := (sys.tcp fun tcp => { tcp with isWriting := false }).hold true
  let rc := if status = 0 then pcRcOk else pcRcError
  let sys := finishWrites env rc sys.state.tcp.wq.writing.length sys
  (sys.hold false).tcp fun tcp => { tcp with writeAsync := true }

/-- `ct > wi->ts + wi->timeout`, for an item that has a timeout. -/
def WriteItem.expired (item : WriteItem) (ct : Nat) : Bool :=
  item.timed && (ct : Int) > item.ts + item.timeout

/-- The check of a queue starts. -/
def WriteQueues.beginCheck (queue : WiQueue) (queues : WriteQueues) : WriteQueues :=
  { queues with tmp := some (queue, []) }

/-- An item stays in the queue that is checked. -/
def WriteQueues.keep (item : WriteItem) (queues : WriteQueues) : WriteQueues :=
  { queues with tmp := queues.tmp.map fun (queue, items) => (queue, items ++ [item]) }

/-- The items that stay are put back. -/
def WriteQueues.endCheck (queue : WiQueue) (queues : WriteQueues) : WriteQueues :=
  { queues.setItems queue (queues.whole queue) with tmp := none }

/-- The loop of `tcp__check_queue_timeout`, for at most the given number of passes; it
returns `cont`. -/
def checkQueueLoop (queue : WiQueue) (ct : Nat) :
    (passes : Nat) → (cont : Bool) → Sys → Sys × Bool
  | 0, cont, sys => (sys.crash .outOfFuel, cont)
  | passes + 1, cont, sys =>
      match sys.state.tcp.wq.items queue with
      | [] => (sys, cont)
      | item :: rest =>
          let sys := sys.wq (WriteQueues.setItems queue rest)
          if item.expired ct then
            checkQueueLoop queue ct passes cont (dropItem env item pcRcTimeout sys)
          else
            checkQueueLoop queue ct passes (cont || item.timed) (sys.wq (WriteQueues.keep item))

/-- `tcp__check_queue_timeout` -/
def tcpCheckQueueTimeout (queue : WiQueue) (cont : Bool) (sys : Sys) : Sys × Bool :=
  let sys := sys.wq (WriteQueues.beginCheck queue)
  let (sys, cont) := checkQueueLoop env queue sys.state.clock env.passes cont sys
  (sys.wq (WriteQueues.endCheck queue), cont)

/-- `tcp__write_check_timeout_cb` -/
def tcpWriteCheckTimeoutCb (sys : Sys) : Sys :=
  let sys := sys.hold true
  let (sys, cont) := tcpCheckQueueTimeout env .connPending false sys
  let (sys, cont) := tcpCheckQueueTimeout env .writeWait cont sys
  let (sys, cont) := tcpCheckQueueTimeout env .respPending cont sys
  (sys.hold false).tcp (Transport.startCheck cont)

/-- `tcp__send_heartbeat` -/
def tcpSendHeartbeat (sys : Sys) : Sys :=
  let sys := sys.assert (fun core => core.tcp.state = .done) .heartbeatSent
  sendLast (pcPkgEncode env.platform PkgType.heartbeat.code none 0) sys

/-- `tcp__heartbeat_timer_cb` -/
def tcpHeartbeatTimerCb (sys : Sys) : Sys :=
  let sys := sys.assert (fun core => !core.tcp.isWaitingHb && core.tcp.state = .done)
    .heartbeatTimer
  (tcpSendHeartbeat env sys).tcp fun tcp => { tcp with
    isWaitingHb := true
    hbTimeoutTimer := .start tcp.loopTime (toInt32 (tcp.hbTimeout * 1000)) }

/-- `tcp__heartbeat_timeout_cb` -/
def tcpHeartbeatTimeoutCb (sys : Sys) : Sys :=
  let sys := sys.assert (fun core => core.tcp.isWaitingHb) .heartbeatTimeout
  tcpReconn env (fireReason env .unexpectedDisconnect "HB Timeout" sys)

/-- The round-trip time of a heartbeat that is answered now. -/
def Transport.rtt (tcp : Transport) : Int :=
  let start := toInt32 ((tcp.hbTimeoutTimer.timeout : Int) - toInt32 (tcp.hbTimeout * 1000))
  toInt32 ((tcp.loopTime : Int) - start)

/-- `tcp__on_heartbeat` -/
def tcpOnHeartbeat (sys : Sys) : Sys :=
  if !sys.state.tcp.isWaitingHb then sys
  else
    let sys := sys.assert (fun core => core.tcp.state = .done) .heartbeatState
    let sys := sys.assert (fun core => core.tcp.hbTimeoutTimer.active) .heartbeatActive
    sys.tcp fun tcp => { tcp with
      hbTimeoutTimer := tcp.hbTimeoutTimer.stop
      isWaitingHb := false
      hbRtt := if tcp.hbRtt = -1 then tcp.rtt else (toInt32 (tcp.hbRtt * 2 + tcp.rtt)).tdiv 3
      hbTimer := .start tcp.loopTime (toInt32 (tcp.hbInterval * 1000)) }

/-- A message that cannot be used. -/
def protoError (reason : String) (sys : Sys) : Sys :=
  tcpReconn env (fireReason env .protoError reason sys)

/-- The items that the search for an answered request looks at are requests. -/
def WriteQueues.respTypes (reqId : Nat) (queues : WriteQueues) : Bool :=
  let seen := queues.respPending.takeWhile fun item => item.reqId ≠ reqId
  let next := (queues.respPending.drop seen.length).take 1
  (seen ++ next).all fun item => item.type = .resp

/-- The item of an answered request is taken out of `resp_pending_queue`. -/
def WriteQueues.answer (reqId : Nat) (queues : WriteQueues) : WriteQueues :=
  match queues.respPending.find? fun item => item.reqId = reqId with
  | none => queues
  | some item =>
      { queues with
        respPending := queues.respPending.eraseP fun item => item.reqId = reqId }.recycle item

/-- The answer to a request is delivered. -/
def onResponse (reqId : Nat) (msg : CStr) (sys : Sys) : Sys :=
  let sys := pcTransResp (loopReceiver env) env.config.enablePolling reqId pcRcOk (some msg) sys
  let sys := sys.assert (fun core => core.tcp.wq.respTypes reqId) .respPendingType
  sys.wq (WriteQueues.answer reqId)

/-- `tcp__on_data_recieved` with a decoded message. -/
def onMessage (msg : PcMsg) (sys : Sys) : Sys :=
  match msg.msg with
  | none => protoError env "Decode Error" sys
  | some text =>
      if msg.id = pcInvalidReqId then protoError env "Decode Error" sys
      else if msg.id = pcNotifyPushReqId ∧ msg.route.isNone then
        protoError env "No Route Specified" sys
      else
        let sys := sys.assert
          (fun _ => decide (msg.id = pcNotifyPushReqId) == msg.route.isSome) .dataRoute
        if msg.id ≠ pcNotifyPushReqId then onResponse env msg.id text sys
        else fireEvent env .userDefinedPush msg.route (some text) sys

/-- `tcp__on_data_recieved` -/
def tcpOnDataRecieved (data : Option Bytes) (len : Nat) (sys : Sys) : Sys :=
  match prDefaultMsgDecoder env.platform env.text sys.state.tcp.codeToRoute
      sys.state.tcp.serverProtos { base := data, len } with
  | .error .aborted => (sys.note (.assertion .dataReceived)).crash .aborted
  | .error stop => sys.crash stop
  | .ok msg => onMessage env msg sys

/-- `tcp__on_kick_recieved` -/
def tcpOnKickRecieved (sys : Sys) : Sys :=
  tcpReset env (fireEvent env .kickedByServer none none sys)

/-- A handshake that the answer ends. -/
def handshakeFailed (sys : Sys) : Sys :=
  tcpReset env (fireReason env .connectFailed "Handshake Error" sys)

/-- The answer is kept in the local storage. -/
def storeHandshake (needSync : Bool) (sys : Sys) : Sys :=
  if env.config.localStorageCb && needSync then
    match env.text.print (localStorage sys.state.tcp) with
    | none => sys
    | some data => sys.change fun core => { core with stored := some data }
  else sys

/-- `tcp__send_handshake_ack` -/
def tcpSendHandshakeAck (sys : Sys) : Sys :=
  sendFirst (pcPkgEncode env.platform PkgType.handshakeAck.code none 0) sys

/-- The end of `tcp__on_handshake_resp`. -/
def handshakeDone (sys : Sys) : Sys :=
  let sys := sys.tcp fun tcp => { tcp with
    state := .done
    hbTimer :=
      if tcp.hbInterval ≠ -1 then .start tcp.loopTime (toInt32 (tcp.hbInterval * 1000))
      else tcp.hbTimer }
  let sys := fireEvent env .connected none none sys
  sys.tcp fun tcp => { tcp with writeAsync := true }

/-- `tcp__on_handshake_resp` from where the answer is accepted. -/
def handshakeAccepted (result : HandshakeResult) (sys : Sys) : Sys :=
  let sys := sys.assert (fun _ => result.dictAsserted) .handshakeDict
  let sys := sys.assert (fun _ => result.protosAsserted) .handshakeProtos
  let sys := storeHandshake env result.needSync (sys.tcp fun _ => result.tcp)
  handshakeDone env (tcpSendHandshakeAck env sys)

/-- `tcp__on_handshake_resp` with the parsed answer. -/
def onHandshakeRes (res : Json) (sys : Sys) : Sys :=
  match handshakeSys res with
  | .error stop => sys.crash stop
  | .ok none => handshakeFailed env sys
  | .ok (some answer) =>
      match handshakeAccept answer sys.state.tcp with
      | .error stop => sys.crash stop
      | .ok result => handshakeAccepted env result sys

/-- `tcp__on_handshake_resp` -/
def tcpOnHandshakeResp (data : Option Bytes) (sys : Sys) : Sys :=
  let sys := sys.assert (fun core => core.tcp.state = .handshakeing) .handshakeState
  let sys := sys.tcp fun tcp => { tcp with
    reconnTimes := 0
    handshakeTimer :=
      if env.config.connTimeout ≠ pcWithoutTimeout then tcp.handshakeTimer.stop
      else tcp.handshakeTimer }
  match data.bind env.text.parse with
  | none => (handshakeFailed env sys).crash .nullDeref
  | some (res, _) => onHandshakeRes env res sys

/-- `tr_tcp_on_pkg_handler` -/
def trTcpOnPkgHandler (type : UInt8) (data : Option Bytes) (len : Nat) (sys : Sys) : Sys :=
  let sys := (sys.note (.package type data)).assert (fun _ =>
    type = PkgType.handshake.code || type = PkgType.heartbeat.code ||
      type = PkgType.data.code || type = PkgType.kick.code) .pkgType
  match PkgType.ofCode? type with
  | some .handshake => tcpOnHandshakeResp env data sys
  | some .heartbeat => tcpOnHeartbeat sys
  | some .data => tcpOnDataRecieved env data len sys
  | some .kick => tcpOnKickRecieved env sys
  | _ => sys

/-- The handler as the parser calls it. The parser is a field of the transport, which
the handler may reset. After a crash nothing is handled. -/
def onPkg : OnPkgHandler Sys := fun type data len (parser, sys) =>
  if sys.state.crashed then (parser, sys)
  else
    let sys := trTcpOnPkgHandler env type data len
      (sys.tcp fun tcp => { tcp with pkgParser := parser })
    (sys.state.tcp.pkgParser, sys)

/-- `tcp__on_tcp_read_cb` with the bytes of a chunk. -/
def tcpOnTcpReadCb (data : Bytes) (sys : Sys) : Sys :=
  let fed := pcPkgParserFeed (onPkg env) data (sys.state.tcp.pkgParser, sys)
  fed.2.tcp fun tcp => { tcp with pkgParser := fed.1 }

/-- `tcp__on_tcp_read_cb` with an error. -/
def tcpOnTcpReadError (sys : Sys) : Sys :=
  tcpReconn env (fireReason env .unexpectedDisconnect "Read Error Or Close" sys)

/-- `tcp__disconnect_async_cb` -/
def tcpDisconnectAsyncCb (sys : Sys) : Sys :=
  let sys := tcpReset env (sys.tcp fun tcp => { tcp with disconnectAsync := false })
  fireEvent env .disconnect none none (sys.tcp fun tcp => { tcp with reconnTimes := 0 })

/-- `tcp__cleanup_async_cb` behind its reset: what is freed, and the handles that are
closed. -/
def Transport.cleanUp (tcp : Transport) : Transport :=
  { (tcp.setDict .absent).setProtos .absent with
    host := none
    handshakeOpts := none
    reconnTimes := 0
    connTimeout := tcp.connTimeout.stop
    reconnDelayTimer := tcp.reconnDelayTimer.stop
    handshakeTimer := tcp.handshakeTimer.stop
    checkTimeout := tcp.checkTimeout.stop
    hbTimer := tcp.hbTimer.stop
    hbTimeoutTimer := tcp.hbTimeoutTimer.stop
    connAsync := false
    writeAsync := false
    disconnectAsync := false }

/-- `tcp__cleanup_async_cb` -/
def tcpCleanupAsyncCb (sys : Sys) : Sys :=
  let sys := tcpReset env (sys.tcp fun tcp => { tcp with cleanupAsync := false })
  (sys.tcp Transport.cleanUp).change fun core => { core with closed := true }

end Pomelo
