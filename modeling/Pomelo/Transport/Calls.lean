import Pomelo.Transport.State

/-!
# Calls of the API on the TCP transport

`pc_pomelo.c` with the functions of `tr_uv_tcp_i.c` that it calls, cut into the
stages between which other threads can run. A stage is a section under one mutex, a
signal, or a read of a field that another thread writes.
-/

namespace Pomelo

namespace Sys

/-- The call goes on to a stage. -/
def stage (id : Nat) (stage : Stage) (sys : Sys) : Sys :=
  sys.change fun core => { core with
    calls := core.calls.map fun call => if call.id = id then { call with stage } else call }

/-- The call returns. -/
def returns (id : Nat) (rc : Int) (sys : Sys) : Sys :=
  (sys.note (.returned id rc)).change fun core => { core with
    calls := core.calls.filter fun call => call.id ≠ id }

end Sys

variable (env : Env)

/-- `(unsigned int)-1`, as the length of a buffer. -/
def unsignedMinusOne : Nat := 2 ^ 32 - 1

/-- The two encoders of `tr_uv_tcp_send`, unless one of them is seen to fail. -/
def trUvTcpSendEncode (tcp : Transport) (req : PendingReq) : Except Stop (Option UvBuf) := do
  let buf ← prDefaultMsgEncoder env.platform env.text tcp.routeToCode tcp.clientProtos
    { id := req.reqId, route := some req.route, msg := some req.msg }
  if buf.len = unsignedMinusOne then return none
  let pkgBuf := pcPkgEncode env.platform PkgType.data.code buf.base buf.len
  if pkgBuf.len = unsignedMinusOne then return none
  return some pkgBuf

/-- `tr_uv_tcp_send` up to its critical section. -/
def trUvTcpSend (id : Nat) (kind : ReqKind) (req : PendingReq) (sys : Sys) : Sys :=
  if !sys.state.client.hasTrans then sys.crash .nullDeref
  else if sys.state.tcp.state = .notConn then sys.stage id (.sendFailed kind req pcRcInvalidState)
  else
    let sys := sys.assert (fun _ => req.reqId ≠ pcInvalidReqId) .sendReqId
    match trUvTcpSendEncode env sys.state.tcp req with
    | .error stop => sys.crash stop
    | .ok none => sys.stage id (.sendFailed kind req pcRcError)
    | .ok (some buf) => sys.stage id (.insert kind req buf)

/-- The write item of a message. -/
def Core.newItem (core : Core) (req : PendingReq) (buf : UvBuf) : WriteItem where
  slot := core.tcp.wq.nextSlot
  type := if req.reqId = pcNotifyPushReqId then .notify else .resp
  buf
  seqNum := req.seqNum
  reqId := req.reqId
  ts := core.clock
  timeout := req.timeout
  born := core.nextBorn

/-- The item is linked: behind `write_wait_queue` when the handshake is done, and
behind `conn_pending_queue` before. -/
def Core.insert (core : Core) (item : WriteItem) : Core :=
  let queues := core.tcp.wq.allocate item.slot
  let queues :=
    if core.tcp.state = .done then { queues with writeWait := queues.writeWait ++ [item] }
    else { queues with connPending := queues.connPending ++ [item] }
  { core with tcp := { core.tcp with wq := queues }, nextBorn := core.nextBorn + 1 }

/-- The critical section of `tr_uv_tcp_send`. -/
def trUvTcpSendInsert (id : Nat) (kind : ReqKind) (req : PendingReq) (buf : UvBuf) (sys : Sys) :
    Sys :=
  let item := sys.state.newItem req buf
  ((sys.note (.accepted item)).change fun core => core.insert item).stage id (.signal kind req)

/-- `tr_uv_tcp_send` behind its critical section. -/
def trUvTcpSendSignal (id : Nat) (sys : Sys) : Sys :=
  let sys :=
    if sys.state.tcp.state ≠ .notConn then sys.tcp fun tcp => { tcp with writeAsync := true }
    else sys
  sys.returns id pcRcOk

/-- The section of `pc_request_with_timeout` and `pc_notify_with_timeout` that links the
entry. -/
def pcLink (id : Nat) (kind : ReqKind) (route msg : CStr) (timeout : Int) (sys : Sys) : Sys :=
  let req := sys.state.client.newReq kind id route msg timeout
  (sys.client fun client => client.enqueue kind id route msg timeout).stage id (.send kind req)

/-- The end of `pc_request_with_timeout` and `pc_notify_with_timeout` after a failed
`trans->send`. -/
def pcRollback (id : Nat) (kind : ReqKind) (req : PendingReq) (rc : Int) (sys : Sys) : Sys :=
  (sys.client fun client => client.modifyPool kind (ReqPool.rollback req)).returns id rc

/-- `pc_JSON_Parse`, of a C string. -/
def pcJSONParse (text : JsonText) (value : CStr) : Except Stop Json :=
  (pcJSONParseWithOpts text (value.bytes ++ [0]) false).map Prod.fst

/-- The part of `tr_uv_tcp_connect` that sets up the connection. -/
def Transport.setTarget (host : CStr) (port : Int) (handshakeOpts : Option Json)
    (tcp : Transport) : Transport :=
  { tcp with handshakeOpts, host := some host, port, connAsync := true }

/-- `tr_uv_tcp_connect`, and the return of `pc_client_connect` when it succeeds. -/
def trUvTcpConnect (id : Nat) (host : CStr) (port : Int) (handshakeOpts : Option CStr)
    (sys : Sys) : Sys :=
  if !sys.state.client.hasTrans then sys.crash .nullDeref
  else
    match handshakeOpts with
    | none => (sys.tcp (Transport.setTarget host port none)).returns id pcRcOk
    | some opts =>
        match pcJSONParse env.text opts with
        | .error .refused =>
            (sys.tcp fun tcp => { tcp with handshakeOpts := none }).stage id
              (.connectFailed pcRcInvalidJson)
        | .error stop => sys.crash stop
        | .ok opts => (sys.tcp (Transport.setTarget host port (some opts))).returns id pcRcOk

/-- `tr_uv_tcp_disconnect` and the return of `pc_client_disconnect`. -/
def trUvTcpDisconnect (id : Nat) (sys : Sys) : Sys :=
  if !sys.state.client.hasTrans then sys.crash .nullDeref
  else (sys.tcp fun tcp => { tcp with disconnectAsync := true }).returns id pcRcOk

/-- The callbacks of a poll run on the thread that polls; what they call are further
calls of that thread. -/
def pollReceiver : Receiver Sys where
  client := fun sys => sys.state.client
  change := Sys.client
  see := fun sight sys => sys.note (.sight sight)

/-- What follows a poll. -/
def afterPoll (id : Nat) (next : Option UserCall) (sys : Sys) : Sys :=
  match next with
  | none => sys.returns id pcRcOk
  | some .cleanup => sys.stage id .cleanedUp
  | some call => sys.stage id (.check call)

/-- The start of `pc_client_poll`. A poll that another thread is in makes this one wait,
and a poll that this thread is in makes it return; either way it handles no event now. -/
def enterPoll (id : Nat) (next : Option UserCall) (sys : Sys) : Sys :=
  if sys.state.client.isInPoll then afterPoll id next sys
  else (sys.client fun client => { client with isInPoll := true }).stage id (.polling next)

/-- The search of `pc__trans_resp` or `pc__trans_sent` in a poll, and the start of the
callback. -/
def pollComplete (id : Nat) (event : PendingEvent) (next : Option UserCall) (kind : ReqKind)
    (key : Nat) (rc : Int) (resp : Option CStr) (sys : Sys) : Sys :=
  match sys.state.client.take kind key with
  | none => sys.stage id (.handling event none next)
  | some (target, client) =>
      let sys := (pcClientRcStr pollReceiver rc sys).client fun _ => client
      (sys.note (.sight (.completed kind target rc resp))).stage id
        (.handling event (some (kind, target)) next)

/-- One pass of the loop of `pc_client_poll`, up to the callback. -/
def pollNext (id : Nat) (next : Option UserCall) (sys : Sys) : Sys :=
  match sys.state.client.pendingEvQueue with
  | [] => afterPoll id next (sys.client fun client => { client with isInPoll := false })
  | event :: rest =>
      let sys := sys.client fun client => { client with pendingEvQueue := rest }
      let sys := pollReceiver.assert (sys.state.client.eventBusy event) (.eventAssertion event) sys
      match event.data with
      | .ev evType arg1 arg2 =>
          (pcTransFireEventNow pollReceiver evType arg1 arg2 sys).stage id
            (.handling event none next)
      | .notify seqNum rc => pollComplete id event next .notify seqNum rc none sys
      | .req reqId rc resp => pollComplete id event next .request reqId rc resp sys

/-- The rest of the pass, when the callback has returned. -/
def pollHandled (id : Nat) (event : PendingEvent) (target : Option (ReqKind × PendingReq))
    (next : Option UserCall) (sys : Sys) : Sys :=
  let sys :=
    match target with
    | none => sys
    | some (kind, req) => sys.client fun client => client.modifyPool kind (ReqPool.release req)
  (sys.client (Client.releaseEvent event)).stage id (.polling next)

/-- `pc_client_cleanup` after `tr_uv_tcp_cleanup` has joined the loop thread. -/
def pcReleaseTransport (id : Nat) (sys : Sys) : Sys :=
  let sys := sys.client fun client => { client with hasTrans := false }
  if env.config.enablePolling then enterPoll id (some .cleanup) sys
  else sys.stage id .cleanedUp

/-- The end of `pc_client_cleanup`. -/
def pcCleanedUp (id : Nat) (sys : Sys) : Sys :=
  let sys := sys.assert (fun core =>
    core.client.requests.queue.isEmpty && core.client.notifies.queue.isEmpty) .cleanupQueues
  let sys := sys.client fun client => { client with
    evHandlers := []
    reqIdSeq := 1
    seqNum := 0
    inited := false
    state := .notInited }
  sys.returns id pcRcOk

/-- The functions that call `pc_client_poll` first. -/
def UserCall.polls : UserCall → Bool
  | .api (.connect ..) | .api .disconnect | .poll => true
  | _ => false

/-- The checks of a call, and what follows them at once. -/
def checkCall (id : Nat) (thread : Thread) (call : UserCall) (sys : Sys) : Sys :=
  match call with
  | .api (.send kind args timeout) =>
      match sys.state.client.sendCheck kind args timeout, args with
      | some rc, _ => sys.returns id rc
      | none, some (route, msg) => sys.stage id (.link kind route msg timeout)
      | none, none => sys.returns id pcRcInvalidArg
  | .api (.connect host port handshakeOpts) =>
      match sys.state.client.pcConnectCheck host port, host with
      | some rc, _ => sys.returns id rc
      | none, some host => sys.stage id (.setConnecting host port handshakeOpts)
      | none, none => sys.returns id pcRcInvalidArg
  | .api .disconnect =>
      match sys.state.client.pcDisconnectCheck with
      | some rc => sys.returns id rc
      | none => sys.stage id .setDisconnecting
  | .api .connQuality =>
      if sys.state.client.hasTrans then sys.returns id sys.state.tcp.hbRtt
      else sys.crash .nullDeref
  | .api .transData =>
      if sys.state.client.hasTrans then sys.returns id pcRcOk else sys.crash .nullDeref
  | .poll => sys.returns id pcRcError
  | .cleanup =>
      if !sys.state.client.inited then sys.returns id pcRcOk
      else if !sys.state.client.hasTrans then sys.crash .nullDeref
      else if thread = .loop then sys.returns id pcRcInvalidThread
      else (sys.tcp fun tcp => { tcp with cleanupAsync := true }).stage id .joining

/-- A call goes on from a stage. -/
def runStage (id : Nat) (thread : Thread) (stage : Stage) (sys : Sys) : Sys :=
  match stage with
  | .start call =>
      if env.config.enablePolling && call.polls then
        enterPoll id (if call = .poll then none else some call) sys
      else checkCall id thread call sys
  | .check call => checkCall id thread call sys
  | .link kind route msg timeout => pcLink id kind route msg timeout sys
  | .send kind req => trUvTcpSend env id kind req sys
  | .insert kind req buf => trUvTcpSendInsert id kind req buf sys
  | .signal _ _ => trUvTcpSendSignal id sys
  | .sendFailed kind req rc => pcRollback id kind req rc sys
  | .setConnecting host port handshakeOpts =>
      (sys.client (Client.setState .connecting)).stage id (.connect host port handshakeOpts)
  | .connect host port handshakeOpts => trUvTcpConnect env id host port handshakeOpts sys
  | .connectFailed rc => (sys.client (Client.setState .inited)).returns id rc
  | .setDisconnecting => (sys.client (Client.setState .disconnecting)).stage id .disconnect
  | .disconnect => trUvTcpDisconnect id sys
  | .polling next => pollNext id next sys
  | .handling event target next => pollHandled id event target next sys
  | .joining => pcReleaseTransport env id sys
  | .cleanedUp => pcCleanedUp id sys

/-- The loop thread ends when its handles are closed and no request is outstanding. -/
def Core.ended (core : Core) : Bool := core.closed && !core.tcp.isConnecting && !core.tcp.isWriting

/-- A call that has to wait: for `wq_mutex`, or for the loop thread to end. -/
def Core.blocked (core : Core) (call : Call) : Bool :=
  match call.stage with
  | .insert .. => core.wqHeld && call.thread = .user
  | .joining => !core.ended
  | _ => false

/-- A call goes on, if it does not have to wait. -/
def advance (id : Nat) (sys : Sys) : Sys :=
  match sys.state.calls.find? fun call => call.id = id with
  | none => sys
  | some call =>
      if sys.state.blocked call then sys
      else runStage env id call.thread call.stage (sys.note (.call id call.stage))

/-- A call begins. -/
def beginCall (thread : Thread) (call : UserCall) (sys : Sys) : Sys :=
  sys.change fun core => { core with
    calls := core.calls ++ [{ id := core.nextCall, thread, stage := .start call }]
    nextCall := core.nextCall + 1 }

/-- Code of the user, or the clock. -/
def act (sys : Sys) : Act → Sys
  | .begin thread call => beginCall thread call sys
  | .advance id => advance env id sys
  | .tick seconds => sys.change fun core => { core with clock := core.clock + seconds }

/-- A call on the loop thread goes on until it returns. -/
def finishCall (sys : Sys) (call : Call) : Sys :=
  if call.thread = .loop then
    (List.replicate 8 (Act.advance call.id)).foldl (act env) sys
  else sys

/-- Code of the user runs on the loop thread, and on other threads meanwhile. The
calls that it makes on the loop thread have returned when it does. -/
def upcall (sys : Sys) : Sys :=
  let sys := (env.user sys).foldl (act env) sys
  sys.state.calls.foldl (finishCall env) sys

/-- The callbacks of a client that does not poll run on the loop thread. -/
def loopReceiver : Receiver Sys where
  client := fun sys => sys.state.client
  change := Sys.client
  see := fun sight sys =>
    match sight with
    | .event .. | .completed .. => upcall env (sys.note (.sight sight))
    | _ => sys.note (.sight sight)

end Pomelo
