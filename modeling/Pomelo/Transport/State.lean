import Pomelo.Client.Delivery
import Pomelo.Message.Codec
import Pomelo.Transition.Recorded

/-!
# The state of the system

`tr_uv_tcp_transport_t` with the client it serves, the calls of the API that are
under way, and the parts of the event loop that the transport uses: its timers, its
async handles and its one socket. A state is recorded together with what happened on
the way to it, so that a condition on a run can be said of single events.
-/

namespace Pomelo

/-- `tr_uv_tcp_state_t` -/
inductive TcpState where
  | notConn
  | connecting
  | handshakeing
  | done
  deriving DecidableEq, Repr

/-- `uv_timer_t`: whether it is active, and the loop time it is or was due at. -/
structure UvTimer where
  active : Bool
  timeout : Nat
  deriving DecidableEq, Repr

namespace UvTimer

/-- `uv_timer_init` -/
def init : UvTimer where
  active := false
  timeout := 0

/-- `uv_timer_start`. The sum saturates. -/
def start (loopTime : Nat) (timeout : Int) : UvTimer where
  active := true
  timeout := min (loopTime + toUInt64 timeout) (2 ^ 64 - 1)

/-- `uv_timer_stop` -/
def stop (timer : UvTimer) : UvTimer := { timer with active := false }

@[simp] theorem active_stop (timer : UvTimer) : timer.stop.active = false := rfl
@[simp] theorem active_start (loopTime : Nat) (timeout : Int) :
    (start loopTime timeout).active = true := rfl

end UvTimer

/-- The socket handle: never initialised, open, or passed to `uv_close`. -/
inductive UvSocket where
  | none
  | open
  | closing
  deriving DecidableEq, Repr

/-- `UV_ECANCELED` -/
def uvECanceled : Int := -125

/-- `TR_UV_WI_TYPE_NONE` and the other types of a write item. -/
inductive WiType where
  | none
  | notify
  | resp
  | internal
  deriving DecidableEq, Repr

/-- `tr_uv_wi_t`, with the index of its preallocated slot if it has one. Items that
`tr_uv_tcp_send` accepts are numbered in the order of its critical sections. -/
structure WriteItem where
  slot : Option Nat
  type : WiType
  buf : UvBuf
  seqNum : Nat
  reqId : Nat
  ts : Nat
  timeout : Int
  born : Nat
  deriving DecidableEq, Repr

/-- The type byte of the package in the buffer of an item. -/
def WriteItem.pkgType (item : WriteItem) : Option UInt8 :=
  match item.buf.base with
  | some (type :: _) => some type
  | _ => none

/-- `wi->timeout != PC_WITHOUT_TIMEOUT` -/
def WriteItem.timed (item : WriteItem) : Bool := item.timeout ≠ pcWithoutTimeout

/-- `TR_UV_PRE_ALLOC_WI_SLOT_COUNT` -/
def trUvPreAllocWiSlotCount : Nat := pcPreAllocNotifySlotCount + pcPreAllocRequestSlotCount + 1

/-- The queues that items are dropped from. -/
inductive WiQueue where
  | connPending
  | writeWait
  | writing
  | respPending
  deriving DecidableEq, Repr

/-- The four queues of the transport and the busy flags of `pre_wis`. While
`tcp__check_queue_timeout` looks through one of the queues, `tmp` holds the items that
stay in it. -/
structure WriteQueues where
  connPending : List WriteItem
  writeWait : List WriteItem
  writing : List WriteItem
  respPending : List WriteItem
  preWis : List Bool
  tmp : Option (WiQueue × List WriteItem)
  deriving DecidableEq

namespace WriteQueues

def init : WriteQueues where
  connPending := []
  writeWait := []
  writing := []
  respPending := []
  preWis := List.replicate trUvPreAllocWiSlotCount false
  tmp := none

/-- The items of one queue. -/
def items (queues : WriteQueues) : WiQueue → List WriteItem
  | .connPending => queues.connPending
  | .writeWait => queues.writeWait
  | .writing => queues.writing
  | .respPending => queues.respPending

/-- Exchanges the items of one queue. -/
def setItems (queue : WiQueue) (items : List WriteItem) (queues : WriteQueues) : WriteQueues :=
  match queue with
  | .connPending => { queues with connPending := items }
  | .writeWait => { queues with writeWait := items }
  | .writing => { queues with writing := items }
  | .respPending => { queues with respPending := items }

/-- The items of a queue that the check for timeouts has put aside. -/
def tmpOf (queues : WriteQueues) (queue : WiQueue) : List WriteItem :=
  match queues.tmp with
  | some (checked, items) => if checked = queue then items else []
  | none => []

/-- The items of one queue in their order, with those that the check for timeouts has
put aside. -/
def whole (queues : WriteQueues) (queue : WiQueue) : List WriteItem :=
  queues.tmpOf queue ++ queues.items queue

/-- The slot that the next write item is allocated in. -/
def nextSlot (queues : WriteQueues) : Option Nat := queues.preWis.findIdx? fun busy => !busy

/-- Marks the slot of a new item busy. -/
def allocate (slot : Option Nat) (queues : WriteQueues) : WriteQueues :=
  match slot with
  | some slot => { queues with preWis := queues.preWis.set slot true }
  | none => queues

/-- Gives a write item back. -/
def recycle (item : WriteItem) (queues : WriteQueues) : WriteQueues :=
  match item.slot with
  | some slot => { queues with preWis := queues.preWis.set slot false }
  | none => queues

/-- The slots are beside the queues. -/
@[simp] theorem items_allocate (slot : Option Nat) (queues : WriteQueues) (queue : WiQueue) :
    (queues.allocate slot).items queue = queues.items queue := by
  cases slot <;> cases queue <;> rfl

@[simp] theorem tmp_allocate (slot : Option Nat) (queues : WriteQueues) :
    (queues.allocate slot).tmp = queues.tmp := by
  cases slot <;> rfl

@[simp] theorem items_recycle (item : WriteItem) (queues : WriteQueues) (queue : WiQueue) :
    (queues.recycle item).items queue = queues.items queue := by
  rw [recycle]
  cases item.slot <;> cases queue <;> rfl

@[simp] theorem tmp_recycle (item : WriteItem) (queues : WriteQueues) :
    (queues.recycle item).tmp = queues.tmp := by
  rw [recycle]
  cases item.slot <;> rfl

end WriteQueues

/-- `tr_uv_tcp_transport_t`, with whether its socket is being read and the time of
its loop. -/
structure Transport where
  state : TcpState
  socket : UvSocket
  reading : Bool
  loopTime : Nat
  connTimeout : UvTimer
  reconnDelayTimer : UvTimer
  handshakeTimer : UvTimer
  checkTimeout : UvTimer
  hbTimer : UvTimer
  hbTimeoutTimer : UvTimer
  connAsync : Bool
  writeAsync : Bool
  disconnectAsync : Bool
  cleanupAsync : Bool
  reconnTimes : Int
  isConnecting : Bool
  maxReconnIncr : Int
  host : Option CStr
  port : Int
  handshakeOpts : Option Json
  wq : WriteQueues
  isWriting : Bool
  hbInterval : Int
  hbTimeout : Int
  isWaitingHb : Bool
  hbRtt : Int
  pkgParser : PkgParser
  routeToCode : Option Json
  codeToRoute : Option Json
  dictVer : Option Json
  serverProtos : Option Json
  clientProtos : Option Json
  protoVer : Option Json

/-- The thread a call runs on: the one of the event loop, inside a callback, or
another one. -/
inductive Thread where
  | loop
  | user
  deriving DecidableEq, Repr

/-- A call that code of the user makes. -/
inductive UserCall where
  | api (call : ApiCall)
  | poll
  | cleanup
  deriving DecidableEq

/-- How far a call has got. Between two stages other threads can run. -/
inductive Stage where
  | start (call : UserCall)
  /-- The checks of the call are next. -/
  | check (call : UserCall)
  /-- The section that links a new entry is next. -/
  | link (kind : ReqKind) (route msg : CStr) (timeout : Int)
  /-- `trans->send` is next. -/
  | send (kind : ReqKind) (req : PendingReq)
  /-- The critical section of `tr_uv_tcp_send` is next. -/
  | insert (kind : ReqKind) (req : PendingReq) (buf : UvBuf)
  /-- The item is queued; the signal is next. -/
  | signal (kind : ReqKind) (req : PendingReq)
  /-- The rollback of a message that could not be sent is next. -/
  | sendFailed (kind : ReqKind) (req : PendingReq) (rc : Int)
  /-- The client was found INITED; setting it CONNECTING is next. -/
  | setConnecting (host : CStr) (port : Int) (handshakeOpts : Option CStr)
  /-- `trans->connect` is next. -/
  | connect (host : CStr) (port : Int) (handshakeOpts : Option CStr)
  /-- Setting the client INITED again is next. -/
  | connectFailed (rc : Int)
  /-- Setting the client DISCONNECTING is next. -/
  | setDisconnecting
  /-- `trans->disconnect` is next. -/
  | disconnect
  /-- In the loop of `pc_client_poll`; what follows the poll. -/
  | polling (next : Option UserCall)
  /-- A callback that the poll has called is running. -/
  | handling (event : PendingEvent) (target : Option (ReqKind × PendingReq))
      (next : Option UserCall)
  /-- Waiting for the loop thread to end. -/
  | joining
  /-- The poll of `pc_client_cleanup` is over. -/
  | cleanedUp
  deriving DecidableEq

/-- A call under way. -/
structure Call where
  id : Nat
  thread : Thread
  stage : Stage
  deriving DecidableEq

/-- The state of the system: the client, the transport, the calls under way, the
clock, the local storage, and whether the loop thread holds `wq_mutex`, has closed
its handles, or the process has crashed. -/
structure Core where
  client : Client
  tcp : Transport
  calls : List Call
  nextCall : Nat
  nextBorn : Nat
  clock : Nat
  stored : Option CStr
  wqHeld : Bool
  closed : Bool
  crashed : Bool

/-- A callback of the event loop, with what the loop and the network have for it. -/
inductive LoopEvent where
  /-- `tcp__conn_async_cb`, with whether the host is resolved and the result of
  `uv_tcp_connect`. -/
  | connAsync (resolved : Bool) (ret : Int)
  /-- `tcp__write_async_cb`, with the result of `uv_write`. -/
  | writeAsync (ret : Int)
  | disconnectAsync
  | cleanupAsync
  | reconnDelayTimer
  | connTimeout
  | handshakeTimer
  | checkTimeout
  | hbTimer
  | hbTimeoutTimer
  /-- `tcp__conn_done_cb`, with its status and the result of `uv_read_start`. -/
  | connDone (status ret : Int)
  | writeDone (status : Int)
  /-- `tcp__on_tcp_read_cb` with a negative count. -/
  | readError
  | read (data : Bytes)
  deriving DecidableEq, Repr

/-- The assertions of the transport. -/
inductive TcpAssertion where
  | connTimeoutConnecting
  | connDoneConnecting
  | writeDoneWriting
  | host
  | pkgType
  | dataReceived
  | dataRoute
  | respPendingType
  | handshakeState
  | sendHandshakeState
  | sendHandshakeTables
  | handshakeDict
  | handshakeProtos
  | heartbeatSent
  | heartbeatTimer
  | heartbeatState
  | heartbeatActive
  | heartbeatTimeout
  | sendReqId
  | cleanupQueues
  deriving DecidableEq, Repr

/-- What a run takes note of. -/
inductive Point where
  /-- A callback of the loop starts. -/
  | callback (event : LoopEvent)
  /-- A call goes on from a stage. -/
  | call (id : Nat) (stage : Stage)
  | returned (id : Nat) (rc : Int)
  /-- `pc__trans_fire_event` is called. -/
  | fire (type : EvType)
  /-- A callback of the user starts, or an assertion of the client fails. -/
  | sight (sight : Sight)
  | assertion (site : TcpAssertion)
  /-- `tcp__reset` starts, and returns. -/
  | reset
  | resetDone
  /-- `tcp__reconn` is called. -/
  | reconn
  /-- `tcp__reconn` is about to end without another attempt. -/
  | gaveUp
  /-- `reconn_delay_timer` is started. -/
  | reconnArmed (delay : Int)
  /-- `tcp__conn_async_cb` starts an attempt. -/
  | attempt
  /-- `tr_tcp_on_pkg_handler` is called. -/
  | package (type : UInt8) (data : Option Bytes)
  /-- The critical section of `tr_uv_tcp_send` has queued an item. -/
  | accepted (item : WriteItem)
  /-- `uv_write` is called. -/
  | write (items : List WriteItem) (ret : Int)
  /-- The process crashes. -/
  | crash (stop : Stop)

/-- The system with the record of its run. -/
abbrev Sys := Transition.Recorded Core Point

/-- What user code does while a callback runs on the loop thread: it begins a call,
on this thread or another one, one of the calls goes on, or time passes. -/
inductive Act where
  | begin (thread : Thread) (call : UserCall)
  | advance (id : Nat)
  | tick (seconds : Nat)
  deriving DecidableEq

/-- What the code is given from outside. The user and the random numbers may depend
on all that happened before. `passes` bounds the loop of `tcp__check_queue_timeout`. -/
structure Env where
  platform : Platform
  text : JsonText
  config : ClientConfig
  platformType : CStr
  version : CStr
  user : Sys → List Act
  rand : Sys → Nat
  passes : Nat

namespace Sys

/-- Acts on the state. -/
abbrev change (act : Core → Core) (sys : Sys) : Sys := Transition.Recorded.change act sys

/-- Notes an event in the present state. -/
abbrev note (event : Point) (sys : Sys) : Sys := Transition.Recorded.note event sys

/-- Acts on the client. -/
def client (act : Client → Client) (sys : Sys) : Sys :=
  sys.change fun core => { core with client := act core.client }

/-- Acts on the transport. -/
def tcp (act : Transport → Transport) (sys : Sys) : Sys :=
  sys.change fun core => { core with tcp := act core.tcp }

/-- Acts on the write queues. -/
def wq (act : WriteQueues → WriteQueues) (sys : Sys) : Sys :=
  sys.change fun core => { core with tcp := { core.tcp with wq := act core.tcp.wq } }

/-- Locks or unlocks `wq_mutex` on the loop thread. -/
def hold (held : Bool) (sys : Sys) : Sys := sys.change fun core => { core with wqHeld := held }

/-- An assertion of the transport. -/
def assert (holds : Core → Bool) (site : TcpAssertion) (sys : Sys) : Sys :=
  if holds sys.state then sys else sys.note (.assertion site)

@[simp] theorem state_assert (holds : Core → Bool) (site : TcpAssertion) (sys : Sys) :
    (sys.assert holds site).state = sys.state := by
  rw [assert]
  split <;> rfl

/-- The process crashes. -/
def crash (stop : Stop) (sys : Sys) : Sys :=
  (sys.note (.crash stop)).change fun core => { core with crashed := true }

end Sys

end Pomelo
