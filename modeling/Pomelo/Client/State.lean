import Pomelo.Message.Format

/-!
# The client

`pc_client_t`: its state, the two pools of requests and notifies, and the queue of
events that a polling client has not handled yet. A pool is an array of
preallocated slots and the queue of the entries that wait for their callback. An
entry is linked by the node it was allocated in, a slot of the array or a block of
the heap, and a node can be linked again by a later call once it is idle.

The functions of `pc_pomelo.c` and `pc_trans.c` are given here as the sections of
code that they run under one mutex.
-/

namespace Pomelo

/-- `PC_RC_OK` -/
def pcRcOk : Int := 0

/-- `PC_RC_ERROR` -/
def pcRcError : Int := -1

/-- `PC_RC_TIMEOUT` -/
def pcRcTimeout : Int := -2

/-- `PC_RC_INVALID_JSON` -/
def pcRcInvalidJson : Int := -3

/-- `PC_RC_INVALID_ARG` -/
def pcRcInvalidArg : Int := -4

/-- `PC_RC_INVALID_THREAD` -/
def pcRcInvalidThread : Int := -6

/-- `PC_RC_INVALID_STATE` -/
def pcRcInvalidState : Int := -9

/-- `PC_RC_RESET` -/
def pcRcReset : Int := -11

/-- `PC_RC_MIN` -/
def pcRcMin : Int := -12

/-- `PC_WITHOUT_TIMEOUT` -/
def pcWithoutTimeout : Int := -1

/-- `PC_ALWAYS_RETRY` -/
def pcAlwaysRetry : Int := -1

/-- `PC_PRE_ALLOC_REQUEST_SLOT_COUNT` -/
def pcPreAllocRequestSlotCount : Nat := 4

/-- `PC_PRE_ALLOC_NOTIFY_SLOT_COUNT` -/
def pcPreAllocNotifySlotCount : Nat := 4

/-- `PC_PRE_ALLOC_EVENT_SLOT_COUNT` -/
def pcPreAllocEventSlotCount : Nat := pcPreAllocNotifySlotCount + pcPreAllocRequestSlotCount + 2

/-- `PC_ST_NOT_INITED` and the other client states. -/
inductive ClientState where
  | notInited
  | inited
  | connecting
  | connected
  | disconnecting
  deriving DecidableEq, Repr

/-- `PC_EV_USER_DEFINED_PUSH` and the other event types. -/
inductive EvType where
  | userDefinedPush
  | connected
  | connectError
  | connectFailed
  | disconnect
  | kickedByServer
  | unexpectedDisconnect
  | protoError
  deriving DecidableEq, Repr

namespace EvType

def code : EvType → Int
  | userDefinedPush => 0
  | connected => 1
  | connectError => 2
  | connectFailed => 3
  | disconnect => 4
  | kickedByServer => 5
  | unexpectedDisconnect => 6
  | protoError => 7

/-- The event type of a number, if it is below `PC_EV_COUNT`. -/
def ofCode? (code : Int) : Option EvType :=
  [userDefinedPush, connected, connectError, connectFailed, disconnect, kickedByServer,
    unexpectedDisconnect, protoError].find? (fun type => type.code = code)

@[simp] theorem ofCode?_code (type : EvType) : ofCode? type.code = some type := by
  cases type <;> rfl

/-- The arguments an event has to come with: a push its route and message, an
error its reason. -/
def hasArgs (type : EvType) (arg1 arg2 : Option CStr) : Bool :=
  match type with
  | userDefinedPush => arg1.isSome && arg2.isSome
  | connectError | unexpectedDisconnect | protoError | connectFailed => arg1.isSome
  | _ => true

end EvType

/-- `pc_client_config_t`, with whether there is a `local_storage_cb`. -/
structure ClientConfig where
  connTimeout : Int
  enableReconn : Bool
  reconnMaxRetry : Int
  reconnDelay : Int
  reconnDelayMax : Int
  reconnExpBackoff : Bool
  enablePolling : Bool
  localStorageCb : Bool

/-- `PC_CLIENT_CONFIG_DEFAULT` -/
def pcClientConfigDefault : ClientConfig where
  connTimeout := 30
  enableReconn := true
  reconnMaxRetry := pcAlwaysRetry
  reconnDelay := 2
  reconnDelayMax := 30
  reconnExpBackoff := true
  enablePolling := false
  localStorageCb := false

/-- `pc_request_t` or `pc_notify_t`; the two are kept by the same code. -/
inductive ReqKind where
  | request
  | notify
  deriving DecidableEq, Repr

/-- A preallocated request or notify, as far as it is looked at when it is handed
out. -/
structure ReqSlot where
  busy : Bool
  route : Option CStr
  msg : Option CStr
  deriving DecidableEq

/-- A slot as `pc_client_init` leaves it. -/
def ReqSlot.idle : ReqSlot where
  busy := false
  route := none
  msg := none

/-- The memory an entry was allocated in. -/
inductive ReqNode where
  | slot (index : Nat)
  | heap (call : Nat)
  deriving DecidableEq, Repr

/-- A request or a notify that has been linked in its queue, with the number of the
call that made it. A notify has the id `PC_NOTIFY_PUSH_REQ_ID`. -/
structure PendingReq where
  call : Nat
  node : ReqNode
  route : CStr
  msg : CStr
  seqNum : Nat
  timeout : Int
  reqId : Nat
  deriving DecidableEq

/-- What the transport names an entry by. -/
def PendingReq.key (kind : ReqKind) (req : PendingReq) : Nat :=
  match kind with
  | .request => req.reqId
  | .notify => req.seqNum

/-- `requests` and `req_queue`, or `notifies` and `notify_queue`. -/
structure ReqPool where
  slots : List ReqSlot
  queue : List PendingReq

namespace ReqPool

/-- A pool as `pc_client_init` leaves it. -/
def init (count : Nat) : ReqPool where
  slots := List.replicate count .idle
  queue := []

/-- The first slot that is `PC_PRE_ALLOC_IS_IDLE`. -/
def firstIdle (pool : ReqPool) : Option Nat :=
  pool.slots.findIdx? fun slot => !slot.busy

/-- The node that the next entry is allocated in. -/
def nextNode (pool : ReqPool) (call : Nat) : ReqNode :=
  match pool.firstIdle with
  | some index => .slot index
  | none => .heap call

/-- Writes to the slot of a node. -/
def setSlot (pool : ReqPool) (node : ReqNode) (slot : ReqSlot) : ReqPool :=
  match node with
  | .slot index => { pool with slots := pool.slots.set index slot }
  | .heap _ => pool

/-- Links a new entry at the tail and marks its slot busy. -/
def link (pool : ReqPool) (req : PendingReq) : ReqPool :=
  let pool := { pool with queue := pool.queue ++ [req] }
  pool.setSlot req.node { busy := true, route := some req.route, msg := some req.msg }

/-- The search of `pc__trans_resp` and `pc__trans_sent`: the first entry under a
key, and the pool without it. -/
def take (kind : ReqKind) (key : Nat) (pool : ReqPool) : Option (PendingReq × ReqPool) :=
  match pool.queue.find? fun req => req.key kind = key with
  | none => none
  | some target =>
      some (target, { pool with queue := pool.queue.eraseP fun req => req.key kind = key })

/-- The release of an entry after its callback. -/
def release (req : PendingReq) (pool : ReqPool) : ReqPool :=
  pool.setSlot req.node .idle

/-- The release of an entry that could not be sent: what is linked through its
node is taken out of the queue. -/
def rollback (req : PendingReq) (pool : ReqPool) : ReqPool :=
  let pool := { pool with queue := pool.queue.eraseP fun other => other.node = req.node }
  pool.setSlot req.node .idle

end ReqPool

/-- The union `data` of `pc_event_t`. -/
inductive EventData where
  | ev (evType : Int) (arg1 arg2 : Option CStr)
  | notify (seqNum : Nat) (rc : Int)
  | req (reqId : Nat) (rc : Int) (resp : Option CStr)
  deriving DecidableEq

/-- `pc_event_t`, with the index of its preallocated slot if it has one. -/
structure PendingEvent where
  slot : Option Nat
  data : EventData
  deriving DecidableEq

/-- `pc_client_t` -/
structure Client where
  inited : Bool
  hasTrans : Bool
  state : ClientState
  evHandlers : List Nat
  seqNum : Nat
  reqIdSeq : Nat
  requests : ReqPool
  notifies : ReqPool
  pendingEvents : List Bool
  pendingEvQueue : List PendingEvent
  isInPoll : Bool

/-- `pc_client_init`, with the event handlers that are added before the first
event. -/
def pcClientInit (evHandlers : List Nat) : Client where
  inited := true
  hasTrans := true
  state := .inited
  evHandlers
  seqNum := 0
  reqIdSeq := 1
  requests := .init pcPreAllocRequestSlotCount
  notifies := .init pcPreAllocNotifySlotCount
  pendingEvents := List.replicate pcPreAllocEventSlotCount false
  pendingEvQueue := []
  isInPoll := false

namespace Client

/-- `pc_client_state` -/
def pcClientState (client : Client) : ClientState :=
  if client.inited then client.state else .notInited

def setState (state : ClientState) (client : Client) : Client := { client with state }

/-- The pool of a kind. -/
def pool (client : Client) : ReqKind → ReqPool
  | .request => client.requests
  | .notify => client.notifies

/-- Acts on the pool of a kind. -/
def modifyPool (kind : ReqKind) (act : ReqPool → ReqPool) (client : Client) : Client :=
  match kind with
  | .request => { client with requests := act client.requests }
  | .notify => { client with notifies := act client.notifies }

/-- `req_id_seq`, after it has been moved off the two reserved ids. -/
def nextReqId (client : Client) : Nat :=
  if client.reqIdSeq = pcNotifyPushReqId ∨ client.reqIdSeq = pcInvalidReqId then 1
  else client.reqIdSeq

/-- The entry that a call is about to link. -/
def newReq (kind : ReqKind) (call : Nat) (route msg : CStr) (timeout : Int) (client : Client) :
    PendingReq where
  call
  node := (client.pool kind).nextNode call
  route
  msg
  seqNum := client.seqNum
  timeout
  reqId :=
    match kind with
    | .request => client.nextReqId
    | .notify => pcNotifyPushReqId

/-- The section of `pc_request_with_timeout` and `pc_notify_with_timeout` that links
a new entry. -/
def enqueue (kind : ReqKind) (call : Nat) (route msg : CStr) (timeout : Int) (client : Client) :
    Client :=
  let req := client.newReq kind call route msg timeout
  let client := { client with
    seqNum := (client.seqNum + 1) % 2 ^ 32
    reqIdSeq :=
      match kind with
      | .request => (client.nextReqId + 1) % 2 ^ 32
      | .notify => client.reqIdSeq }
  client.modifyPool kind fun pool => pool.link req

/-- The client without the entry that `pc__trans_resp` or `pc__trans_sent` takes. -/
def take (kind : ReqKind) (key : Nat) (client : Client) : Option (PendingReq × Client) :=
  match (client.pool kind).take kind key with
  | none => none
  | some (target, pool) => some (target, client.modifyPool kind fun _ => pool)

/-- The assertion of `pc__trans_fire_event` on the client state. -/
def allows (client : Client) (type : EvType) : Bool :=
  match type with
  | .connected => client.state = .connecting
  | .connectError | .connectFailed => client.state = .connecting || client.state = .disconnecting
  | .disconnect => client.state = .disconnecting
  | .kickedByServer => client.state = .connected || client.state = .disconnecting
  | .unexpectedDisconnect | .protoError =>
      client.state = .connecting || client.state = .connected || client.state = .disconnecting
  | .userDefinedPush => true

/-- The state that `pc__trans_fire_event` sets. -/
def fire (type : EvType) (client : Client) : Client :=
  match type with
  | .connected => client.setState .connected
  | .connectFailed | .disconnect | .kickedByServer => client.setState .inited
  | .unexpectedDisconnect | .protoError => client.setState .connecting
  | .connectError | .userDefinedPush => client

/-- The body of `pc__trans_queue_event`, `pc__trans_queue_sent` and
`pc__trans_queue_resp`. -/
def queueEvent (data : EventData) (client : Client) : Client :=
  match client.pendingEvents.findIdx? fun busy => !busy with
  | some slot =>
      { client with
        pendingEvents := client.pendingEvents.set slot true
        pendingEvQueue := client.pendingEvQueue ++ [{ slot := some slot, data }] }
  | none =>
      { client with pendingEvQueue := client.pendingEvQueue ++ [{ slot := none, data }] }

/-- The end of `pc__handle_event`. -/
def releaseEvent (event : PendingEvent) (client : Client) : Client :=
  match event.slot with
  | some slot => { client with pendingEvents := client.pendingEvents.set slot false }
  | none => client

end Client

end Pomelo
