import Mathlib.Data.PNat.Basic
import Pomelo.Transport.Callbacks
import Pomelo.Transport.TlsDrain

/-!
# The write items of the TLS transport

The callbacks of `tr_uv_tls_aux.c` that write, with what they call of `tr_uv_tcp_aux.c`. A
message goes from `conn_pending_queue` to `write_wait_queue`, is encrypted by `SSL_write` into
the output BIO, and waits in `when_tcp_is_writing_queue` and `writing_queue` until the bytes
have been written. What `SSL_write` could not take yet is copied, and the copy is tried again
before anything else. What the TCP transport does beside this, at its own callbacks, is one of
a few acts on the items, and may happen in any order.
-/

namespace Pomelo

open Transition Recorded

/-- The queues that a write item can be linked in. -/
inductive TlsQueue where
  | connPending
  | writeWait
  | whenTcpIsWriting
  | writing
  | respPending
  deriving DecidableEq

/-- `retry_wb`, a copy of the bytes of an item. The item is a record: the copy outlives it. -/
structure RetryWb where
  buf : UvBuf
  item : WriteItem
  deriving DecidableEq

/-- The part of `tr_uv_tls_transport_t` that the writing uses. `pending` is `BIO_pending` of the
output BIO. -/
structure TlsWrites where
  state : TcpState
  isWriting : Bool
  isHandshakeCompleted : Bool
  pending : Nat
  connPending : List WriteItem
  writeWait : List WriteItem
  whenTcpIsWriting : List WriteItem
  writing : List WriteItem
  respPending : List WriteItem
  shouldRetry : Option WriteItem
  retryWb : Option RetryWb
  preWis : List Bool
  writeAsync : Bool
  checkTimeout : Bool
  clock : Nat
  nextBorn : Nat
  hung : Bool

/-- What is noted of a run. An answer of the server is noted with its id, a write with the item
whose bytes are written. -/
inductive TlsNote where
  | queued (item : WriteItem)
  | left (item : WriteItem)
  | sslWrite (item : WriteItem) (buf : UvBuf) (result : SslWrite)
  | sslClear
  | reported (item : WriteItem) (rc : Int)
  | answered (reqId : Nat)
  | recycled (item : WriteItem)
  | fired
  | assertion
  deriving DecidableEq

abbrev TlsRun := Recorded TlsWrites TlsNote

/-- A message that `tr_uv_tcp_send` has encoded. -/
structure TlsMessage where
  buf : UvBuf
  seqNum : Nat
  reqId : Nat
  timeout : Int
  deriving DecidableEq

/-- What the user, the TLS library and libuv do at each point of a run: the messages that
callbacks of the user and other threads send, the result of `SSL_write` and the length of the
record it writes, the bytes that the library writes otherwise, the result of `uv_write`, and
whether `tcp__reconn` gives up. -/
structure TlsEnv where
  sends : TlsRun → List TlsMessage
  sslWrite : TlsRun → SslWrite
  record : TlsRun → ℕ+
  flight : TlsRun → Nat
  uvWrite : TlsRun → Int
  givesUp : TlsRun → Bool
  passes : Nat

namespace TlsWrites

/-- Nothing has been sent. -/
def init : TlsWrites where
  state := .notConn
  isWriting := false
  isHandshakeCompleted := false
  pending := 0
  connPending := []
  writeWait := []
  whenTcpIsWriting := []
  writing := []
  respPending := []
  shouldRetry := none
  retryWb := none
  preWis := List.replicate trUvPreAllocWiSlotCount false
  writeAsync := false
  checkTimeout := false
  clock := 0
  nextBorn := 0
  hung := false

/-- The items of one queue. -/
def items (writes : TlsWrites) : TlsQueue → List WriteItem
  | .connPending => writes.connPending
  | .writeWait => writes.writeWait
  | .whenTcpIsWriting => writes.whenTcpIsWriting
  | .writing => writes.writing
  | .respPending => writes.respPending

/-- Exchanges the items of one queue. -/
def setItems (queue : TlsQueue) (items : List WriteItem) (writes : TlsWrites) : TlsWrites :=
  match queue with
  | .connPending => { writes with connPending := items }
  | .writeWait => { writes with writeWait := items }
  | .whenTcpIsWriting => { writes with whenTcpIsWriting := items }
  | .writing => { writes with writing := items }
  | .respPending => { writes with respPending := items }

/-- `QUEUE_INSERT_TAIL` -/
def push (queue : TlsQueue) (item : WriteItem) (writes : TlsWrites) : TlsWrites :=
  writes.setItems queue (writes.items queue ++ [item])

/-- The slot that the next write item is allocated in. -/
def nextSlot (writes : TlsWrites) : Option Nat := writes.preWis.findIdx? fun busy => !busy

/-- A new item, in an idle slot or on the heap. -/
def newItem (type : WiType) (message : TlsMessage) (writes : TlsWrites) : WriteItem where
  slot := writes.nextSlot
  type
  buf := message.buf
  seqNum := message.seqNum
  reqId := message.reqId
  ts := writes.clock
  timeout := message.timeout
  born := writes.nextBorn

/-- Marks the slot of a new item busy. -/
def allocate (item : WriteItem) (writes : TlsWrites) : TlsWrites :=
  match item.slot with
  | some slot =>
      { writes with preWis := writes.preWis.set slot true, nextBorn := writes.nextBorn + 1 }
  | none => { writes with nextBorn := writes.nextBorn + 1 }

/-- `PC_PRE_ALLOC_SET_IDLE`, or the release of an item on the heap. -/
def idle (item : WriteItem) (writes : TlsWrites) : TlsWrites :=
  match item.slot with
  | some slot => { writes with preWis := writes.preWis.set slot false }
  | none => writes

/-- The queue that messages are linked in. -/
def inbox (writes : TlsWrites) : TlsQueue :=
  if writes.state = .done then .writeWait else .connPending

/-- `tr_uv_tcp_send` behind its encoding. Its test of the state may be long past. -/
def trUvTcpSend (message : TlsMessage) (run : TlsRun) : TlsRun :=
  let type := if message.reqId = pcNotifyPushReqId then .notify else .resp
  let item := run.state.newItem type message
  (run.note (.queued item)).change fun writes =>
    let writes := (writes.allocate item).push writes.inbox item
    { writes with writeAsync := writes.writeAsync || writes.state ≠ .notConn }

/-- A package of the transport's own. -/
def internalMessage (buf : UvBuf) : TlsMessage where
  buf
  seqNum := 2 ^ 32 - 1
  reqId := 2 ^ 32 - 1
  timeout := pcWithoutTimeout

/-- The end of `tcp__send_handshake` and `tcp__send_handshake_ack`. -/
def sendFirst (buf : UvBuf) (run : TlsRun) : TlsRun :=
  let item := run.state.newItem .internal (internalMessage buf)
  (run.note (.queued item)).change fun writes =>
    { writes.allocate item with writeWait := item :: writes.writeWait, writeAsync := true }

/-- The end of `tcp__send_heartbeat`. -/
def sendLast (buf : UvBuf) (run : TlsRun) : TlsRun :=
  let item := run.state.newItem .internal (internalMessage buf)
  (run.note (.queued item)).change fun writes =>
    { (writes.allocate item).push .writeWait item with writeAsync := true }

variable (env : TlsEnv)

/-- Callbacks of the user and other threads send messages. -/
def others (run : TlsRun) : TlsRun :=
  (env.sends run).foldl (fun run message => trUvTcpSend message run) run

/-- `pc_trans_fire_event` -/
def fireEvent (run : TlsRun) : TlsRun := others env (run.note .fired)

/-- The report of an item to the client, by its type. -/
def reportItem (item : WriteItem) (rc : Int) (run : TlsRun) : TlsRun :=
  match item.type with
  | .resp | .notify => others env (run.note (.reported item rc))
  | _ => run

/-- An item is given back. -/
def recycleItem (item : WriteItem) (run : TlsRun) : TlsRun :=
  (run.note (.recycled item)).change (idle item)

/-- An item that has been taken out of its queue is reported and given back. -/
def dropItem (item : WriteItem) (rc : Int) (run : TlsRun) : TlsRun :=
  recycleItem item (reportItem env item rc run)

/-- The loops of `tcp__reset`, over a queue that nothing else is linked in meanwhile. -/
def dropItems (queue : TlsQueue) (rc : Int) : (passes : Nat) → TlsRun → TlsRun
  | 0, run => run
  | passes + 1, run =>
      match run.state.items queue with
      | [] => run
      | item :: rest =>
          dropItems queue rc passes (dropItem env item rc (run.change (setItems queue rest)))

/-- The items that wait for the connection go behind the ones that are being written. -/
def gather (writes : TlsWrites) : TlsWrites :=
  { writes with
    writing := writes.writing ++ writes.connPending ++ writes.writeWait
    connPending := []
    writeWait := [] }

/-- `tcp__reset` -/
def tcpReset (run : TlsRun) : TlsRun :=
  let run := run.change fun writes => { writes with state := .notConn, checkTimeout := false }
  let run := run.change gather
  let run := dropItems env .writing pcRcReset run.state.writing.length run
  dropItems env .respPending pcRcReset run.state.respPending.length run

/-- `tls__write_to_tcp` -/
def tlsWriteToTcp (run : TlsRun) : TlsRun :=
  if run.state.isWriting then run
  else if run.state.pending = 0 then
    let run := if run.state.whenTcpIsWriting = [] then run else run.note .assertion
    run.change fun writes => { writes with writeAsync := true }
  else
    let run := run.change fun writes => { writes with
      writing := writes.writing ++ writes.whenTcpIsWriting
      whenTcpIsWriting := [] }
    let isWriting := env.uvWrite run = 0
    run.change fun writes => { writes with isWriting, pending := 0 }

/-- What `tls__reset` does between its alert and `tcp__reset`. -/
def clear (writes : TlsWrites) : TlsWrites :=
  { writes with
    isHandshakeCompleted := false
    pending := 0
    writing := writes.writing ++ writes.shouldRetry.toList ++ writes.whenTcpIsWriting
    whenTcpIsWriting := []
    shouldRetry := none
    retryWb := none }

/-- `tls__reset` -/
def tlsReset (run : TlsRun) : TlsRun :=
  let alert := env.flight run
  let run := run.change fun writes => { writes with pending := writes.pending + alert }
  let run := tlsWriteToTcp env run
  tcpReset env ((run.note .sslClear).change clear)

/-- `tcp__reconn` -/
def tcpReconn (run : TlsRun) : TlsRun :=
  let run := (tlsReset env run).change fun writes => { writes with state := .connecting }
  if env.givesUp run then
    (fireEvent env run).change fun writes => { writes with state := .notConn }
  else run

/-- `tls__emit_error_event` -/
def tlsEmitErrorEvent (run : TlsRun) : TlsRun :=
  if run.state.isHandshakeCompleted then tcpReconn env (fireEvent env run)
  else tlsReset env (fireEvent env run)

/-- `head` of `tls__write_to_bio` -/
def head (writes : TlsWrites) : TlsQueue :=
  if writes.isWriting then .whenTcpIsWriting else .writing

/-- The items that have waited for the connection go behind `write_wait_queue`. -/
def movePending (writes : TlsWrites) : TlsWrites :=
  if writes.state = .done then
    { writes with connPending := [], writeWait := writes.writeWait ++ writes.connPending }
  else writes

/-- `SSL_write` takes the bytes and writes a record. -/
def accept (record : ℕ+) (writes : TlsWrites) : TlsWrites :=
  { writes with isHandshakeCompleted := true, pending := writes.pending + record }

/-- A loop that other threads keep going on and on. -/
def hang (run : TlsRun) : TlsRun := run.change fun writes => { writes with hung := true }

/-- The end of `tls__write_to_bio`. -/
def writeBioEnd (flag : Bool) (run : TlsRun) : TlsRun :=
  let run := run.change fun writes => { writes with checkTimeout := true }
  if flag then tlsWriteToTcp env run else run

/-- The loop of `tls__write_to_bio`. Other threads may send between two passes. -/
def writeBioLoop (head : TlsQueue) : (passes : Nat) → (flag : Bool) → TlsRun → TlsRun
  | 0, _, run => hang run
  | passes + 1, flag, run =>
      let run := others env run
      match run.state.writeWait with
      | [] => writeBioEnd env flag run
      | item :: rest =>
          let run := (run.note (.left item)).change (setItems .writeWait rest)
          let result := env.sslWrite run
          let record := env.record run
          let flight := env.flight run
          let run := run.note (.sslWrite item item.buf result)
          match result with
          | .full =>
              writeBioLoop head passes true
                (run.change fun writes => (writes.accept record).push head item)
          | .retry =>
              writeBioEnd env flag (run.change fun writes => { writes with
                pending := writes.pending + flight
                shouldRetry := some item
                retryWb := some { buf := item.buf, item } })
          | .error =>
              tlsEmitErrorEvent env (run.change fun writes => { writes with
                pending := writes.pending + flight
                shouldRetry := some item })

/-- The copy has been written, and the item, if it has not timed out, goes on. -/
def retried (head : TlsQueue) (record : ℕ+) (writes : TlsWrites) : TlsWrites :=
  let writes := writes.accept record
  { writes.setItems head (writes.items head ++ writes.shouldRetry.toList) with
    shouldRetry := none
    retryWb := none }

/-- `tls__write_to_bio` with a copy to try again. -/
def writeBioRetry (head : TlsQueue) (retry : RetryWb) (run : TlsRun) : TlsRun :=
  let result := env.sslWrite run
  let record := env.record run
  let flight := env.flight run
  let run := run.note (.sslWrite retry.item retry.buf result)
  match result with
  | .full => writeBioLoop env head env.passes true (run.change (retried head record))
  | .retry =>
      writeBioEnd env false (run.change fun writes =>
        { writes with pending := writes.pending + flight })
  | .error =>
      tlsEmitErrorEvent env (run.change fun writes => { writes with
        pending := writes.pending + flight
        retryWb := none })

/-- `tls__write_to_bio` -/
def tlsWriteToBio (run : TlsRun) : TlsRun :=
  if run.state.state = .notConn then run
  else
    let head := run.state.head
    let run := run.change movePending
    match run.state.retryWb with
    | some retry => writeBioRetry env head retry run
    | none => writeBioLoop env head env.passes false run

/-- The loop of `tls__write_done_cb`. -/
def finishWrites (rc : Int) : (passes : Nat) → TlsRun → TlsRun
  | 0, run => run
  | passes + 1, run =>
      match run.state.writing with
      | [] => run
      | item :: rest =>
          let run := run.change (setItems .writing rest)
          if rc = pcRcOk ∧ item.type = .resp then
            finishWrites rc passes (run.change (push .respPending item))
          else finishWrites rc passes (dropItem env item rc run)

/-- `tls__write_done_cb` -/
def tlsWriteDoneCb (status : Int) (run : TlsRun) : TlsRun :=
  let run := run.change fun writes => { writes with isWriting := false }
  let rc := if status = 0 then pcRcOk else pcRcError
  tlsWriteToTcp env (finishWrites env rc run.state.writing.length run)

/-- The loop of `tcp__check_queue_timeout` and what follows it. The items that stay are put
aside in `tmp`. -/
def checkQueueLoop (queue : TlsQueue) (ct : Nat) :
    (passes : Nat) → (cont : Bool) → (tmp : List WriteItem) → TlsRun → TlsRun × Bool
  | 0, cont, tmp, run =>
      (hang (run.change fun writes => writes.setItems queue (writes.items queue ++ tmp)), cont)
  | passes + 1, cont, tmp, run =>
      match run.state.items queue with
      | [] => (run.change fun writes => writes.setItems queue (writes.items queue ++ tmp), cont)
      | item :: rest =>
          let run := run.change (setItems queue rest)
          if item.expired ct then
            checkQueueLoop queue ct passes cont tmp (dropItem env item pcRcTimeout run)
          else checkQueueLoop queue ct passes (cont || item.timed) (tmp ++ [item]) run

/-- `tcp__check_queue_timeout` -/
def tcpCheckQueueTimeout (queue : TlsQueue) (cont : Bool) (run : TlsRun) : TlsRun × Bool :=
  checkQueueLoop env queue run.state.clock env.passes cont [] run

/-- `uv_timer_start` of `check_timeout`, when there is something to check. -/
def startCheck (cont : Bool) (run : TlsRun) : TlsRun :=
  run.change fun writes => { writes with checkTimeout := writes.checkTimeout || cont }

/-- `tcp__write_check_timeout_cb` -/
def tcpWriteCheckTimeoutCb (run : TlsRun) : TlsRun :=
  let (run, cont) := tcpCheckQueueTimeout env .connPending false run
  let (run, cont) := tcpCheckQueueTimeout env .writeWait cont run
  let (run, cont) := tcpCheckQueueTimeout env .respPending cont run
  startCheck cont run

/-- The item that is to be tried again times out. Its copy stays. -/
def dropRetry (item : WriteItem) (run : TlsRun) : TlsRun :=
  recycleItem item ((reportItem env item pcRcTimeout run).change fun writes =>
    { writes with shouldRetry := none })

/-- `tls__write_timeout_check_cb` -/
def tlsWriteTimeoutCheckCb (run : TlsRun) : TlsRun :=
  let run := match run.state.shouldRetry with
    | some item => if item.expired run.state.clock then dropRetry env item run else run
    | none => run
  let (run, cont) := tcpCheckQueueTimeout env .whenTcpIsWriting false run
  tcpWriteCheckTimeoutCb env (startCheck cont run)

/-- The answer to a request: the request is completed, and the item that waits for it is given
back. -/
def tcpOnResponse (reqId : Nat) (run : TlsRun) : TlsRun :=
  let run := others env (run.note (.answered reqId))
  match run.state.respPending.find? fun item => item.reqId = reqId with
  | none => run
  | some item =>
      recycleItem item (run.change fun writes =>
        { writes with respPending := writes.respPending.eraseP fun item => item.reqId = reqId })

/-- What the code that the transport shares with the TCP transport does to the write items: it
enters a state, fires an event, sends a package, hands on an answer, resets or reconnects.
`SSL_read` may complete the handshake, write into the output BIO or fail. -/
inductive TlsAct where
  | enter (state : TcpState)
  | fire
  | sendFirst (buf : UvBuf)
  | sendLast (buf : UvBuf)
  | send (message : TlsMessage)
  | response (reqId : Nat)
  | reset
  | reconn
  | sslRead (bytes : Nat) (completed : Bool)
  | sslFails

def act (run : TlsRun) : TlsAct → TlsRun
  | .enter state => run.change fun writes => { writes with state }
  | .fire => fireEvent env run
  | .sendFirst buf => sendFirst buf run
  | .sendLast buf => sendLast buf run
  | .send message => trUvTcpSend message run
  | .response reqId => tcpOnResponse env reqId run
  | .reset => tlsReset env run
  | .reconn => tcpReconn env run
  | .sslRead bytes completed => run.change fun writes => { writes with
      pending := writes.pending + bytes
      isHandshakeCompleted := writes.isHandshakeCompleted || completed }
  | .sslFails => tlsEmitErrorEvent env run

/-- What happens in one step. -/
inductive TlsLabel where
  | send (message : TlsMessage)
  | tick (seconds : Nat)
  | writeAsync
  | writeDone (status : Int)
  | checkTimeout
  /-- `tls__on_tcp_read_cb`, with what comes of the bytes. -/
  | read (acts : List TlsAct)
  /-- `tls__conn_done_cb`, with what comes of the connection. -/
  | connDone (acts : List TlsAct)
  /-- Another callback of the TCP transport. -/
  | tcp (acts : List TlsAct)

/-- `tls__cycle`, where `tls__read_from_bio` leads to some acts. -/
def tlsCycle (acts : List TlsAct) (run : TlsRun) : TlsRun :=
  tlsWriteToTcp env (acts.foldl (act env) (tlsWriteToBio env run))

/-- One step, if it can be taken. A timer that fires and an async handle that is run are no
longer active. -/
def step (label : TlsLabel) (run : TlsRun) : Option TlsRun :=
  if run.state.hung then none
  else
    match label with
    | .send message => some (trUvTcpSend message run)
    | .tick seconds =>
        some (run.change fun writes => { writes with clock := writes.clock + seconds })
    | .writeAsync =>
        if run.state.writeAsync then
          some (tlsWriteToBio env (run.change fun writes => { writes with writeAsync := false }))
        else none
    | .writeDone status =>
        if run.state.isWriting then some (tlsWriteDoneCb env status run) else none
    | .checkTimeout =>
        if run.state.checkTimeout then
          some (tlsWriteTimeoutCheckCb env
            (run.change fun writes => { writes with checkTimeout := false }))
        else none
    | .read acts => some (tlsCycle env acts run)
    | .connDone acts => some (tlsWriteToTcp env (acts.foldl (act env) run))
    | .tcp acts => some (acts.foldl (act env) run)

/-- One step leads from one state to another. -/
def Step (first second : TlsRun) : Prop := ∃ label, step env label first = some second

/-- What any order of the steps can lead to. -/
def Reachable (run : TlsRun) : Prop := Relation.ReflTransGen (Step env) ⟨init, []⟩ run

end TlsWrites

end Pomelo
