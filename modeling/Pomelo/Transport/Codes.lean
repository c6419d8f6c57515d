import Pomelo.Transport.Phase
import Pomelo.Transport.TlsLedger

/-!
# The codes of the reports

What the transport hands to `pc_trans_resp` and `pc_trans_sent` ends in a callback of the
user, at once or out of the queue of a polling client. The TLS transport translates every
status of libuv, and so does `tcp__write_done_cb`; `tcp__write_async_cb` passes the result of
`uv_write` on. So the codes are the ones of the client as long as `uv_write` does not refuse a
message (`codes_of_reachable`).
-/

namespace Pomelo

open Transition Recorded

variable {env : Env} {first second third : Sys}

/-- The codes that a transport reports with. -/
def rcReported (rc : Int) : Bool :=
  rc = pcRcOk || rc = pcRcError || rc = pcRcTimeout || rc = pcRcReset

/-- They have names. -/
theorem rcKnown_of_rcReported {rc : Int} (reported : rcReported rc) : rcKnown rc := by
  simp only [rcReported, Bool.or_eq_true, decide_eq_true_eq, or_assoc] at reported
  rcases reported with rfl | rfl | rfl | rfl <;> rfl

/-- What is reported has one of the codes. -/
def TlsNote.coded : TlsNote → Bool
  | .reported _ rc => rcReported rc
  | _ => true

namespace TlsWrites

variable {env : TlsEnv} {run : TlsRun}

/-- What is reported, if anything, has one of the codes. -/
abbrev Codes : TlsRun → TlsRun → Prop := Adds TlsNote.coded

namespace Codes

theorem change (act : TlsWrites → TlsWrites) (run : TlsRun) : Codes run (run.change act) :=
  .of_notes rfl

/-- A loop adds what its passes add. -/
theorem foldl {ι : Type} {step : TlsRun → ι → TlsRun} (codes : ∀ run item, Codes run (step run item))
    (items : List ι) (run : TlsRun) : Codes run (items.foldl step run) := by
  induction items generalizing run with
  | nil => exact .refl run
  | cons item items ih => exact (codes run item).trans (ih (step run item))

theorem trUvTcpSend (run : TlsRun) (message : TlsMessage) :
    Codes run (TlsWrites.trUvTcpSend message run) :=
  (Adds.note rfl run).trans (change _ _)

theorem sendFirst (buf : UvBuf) (run : TlsRun) : Codes run (TlsWrites.sendFirst buf run) :=
  (Adds.note rfl run).trans (change _ _)

theorem sendLast (buf : UvBuf) (run : TlsRun) : Codes run (TlsWrites.sendLast buf run) :=
  (Adds.note rfl run).trans (change _ _)

theorem others (run : TlsRun) : Codes run (TlsWrites.others env run) := foldl trUvTcpSend _ run

theorem fireEvent (run : TlsRun) : Codes run (TlsWrites.fireEvent env run) :=
  (Adds.note rfl run).trans (others _)

theorem recycleItem (item : WriteItem) (run : TlsRun) :
    Codes run (TlsWrites.recycleItem item run) :=
  (Adds.note rfl run).trans (change _ _)

section Reports

variable {rc : Int} (reported : rcReported rc)

include reported

/-- What is reported of an item has its code. -/
theorem reportItem (item : WriteItem) (run : TlsRun) :
    Codes run (TlsWrites.reportItem env item rc run) := by
  have coded : (TlsNote.reported item rc).coded := reported
  have noted : Codes run (run.note (.reported item rc)) := .note coded run
  rw [TlsWrites.reportItem]
  split
  · exact noted.trans (others _)
  · exact noted.trans (others _)
  · exact .refl run

theorem dropItem (item : WriteItem) (run : TlsRun) :
    Codes run (TlsWrites.dropItem env item rc run) :=
  (reportItem reported item run).trans (recycleItem item _)

/-- A loop that drops items reports their code. -/
theorem dropItems (queue : TlsQueue) (passes : Nat) (run : TlsRun) :
    Codes run (TlsWrites.dropItems env queue rc passes run) := by
  induction passes generalizing run with
  | zero => exact .refl run
  | succ passes ih =>
      rw [TlsWrites.dropItems]
      split
      · exact .refl run
      · exact ((change _ run).trans (dropItem reported _ _)).trans (ih _)

theorem finishWrites (passes : Nat) (run : TlsRun) :
    Codes run (TlsWrites.finishWrites env rc passes run) := by
  induction passes generalizing run with
  | zero => exact .refl run
  | succ passes ih =>
      rw [TlsWrites.finishWrites]
      split
      · exact .refl run
      · dsimp only
        split
        · exact ((change _ run).trans (change _ _)).trans (ih _)
        · exact ((change _ run).trans (dropItem reported _ _)).trans (ih _)

end Reports

theorem tcpReset (run : TlsRun) : Codes run (TlsWrites.tcpReset env run) :=
  (((change _ run).trans (change _ _)).trans (dropItems rfl _ _ _)).trans (dropItems rfl _ _ _)

theorem tlsWriteToTcp (run : TlsRun) : Codes run (TlsWrites.tlsWriteToTcp env run) := by
  rw [TlsWrites.tlsWriteToTcp]
  split
  · exact .refl run
  split
  · dsimp only
    split
    · exact change _ run
    · exact (Adds.note rfl run).trans (change _ _)
  · exact (change _ run).trans (change _ _)

/-- The reset reports the code for it. -/
theorem tlsReset (run : TlsRun) : Codes run (TlsWrites.tlsReset env run) := by
  have cleared (run : TlsRun) : Codes run ((run.note .sslClear).change clear) :=
    (Adds.note rfl run).trans (change _ _)
  exact (((change _ run).trans (tlsWriteToTcp _)).trans (cleared _)).trans (tcpReset _)

theorem tcpReconn (run : TlsRun) : Codes run (TlsWrites.tcpReconn env run) := by
  have again : Codes run ((TlsWrites.tlsReset env run).change fun writes =>
      { writes with state := .connecting }) := (tlsReset run).trans (change _ _)
  rw [TlsWrites.tcpReconn]
  split
  · exact (again.trans (fireEvent _)).trans (change _ _)
  · exact again

/-- The error event reports an error. -/
theorem tlsEmitErrorEvent (run : TlsRun) : Codes run (TlsWrites.tlsEmitErrorEvent env run) := by
  rw [TlsWrites.tlsEmitErrorEvent]
  split
  · exact (fireEvent run).trans (tcpReconn _)
  · exact (fireEvent run).trans (tlsReset _)

theorem writeBioEnd (flag : Bool) (run : TlsRun) :
    Codes run (TlsWrites.writeBioEnd env flag run) := by
  rw [TlsWrites.writeBioEnd]
  split
  · exact (change _ run).trans (tlsWriteToTcp _)
  · exact change _ run

/-- The loop over a queue reports the error of the item that could not be written. -/
theorem writeBioLoop (head : TlsQueue) (passes : Nat) (flag : Bool) (run : TlsRun) :
    Codes run (TlsWrites.writeBioLoop env head passes flag run) := by
  induction passes generalizing flag run with
  | zero => exact change _ run
  | succ passes ih =>
      have sent : Codes run (TlsWrites.others env run) := others run
      rw [TlsWrites.writeBioLoop]
      split
      · exact sent.trans (writeBioEnd flag _)
      next item rest waits =>
        have left : Codes run (((TlsWrites.others env run).note (.left item)).change
            (setItems .writeWait rest)) := (sent.trans (.note rfl _)).trans (change _ _)
        generalize ((TlsWrites.others env run).note (.left item)).change
          (setItems .writeWait rest) = taken at left ⊢
        dsimp only
        have written := left.trans
          (Adds.note (show TlsNote.coded (.sslWrite item item.buf (env.sslWrite taken)) from rfl) taken)
        split
        · exact (written.trans (change _ _)).trans (ih _ _)
        · exact (written.trans (change _ _)).trans (writeBioEnd _ _)
        · exact (written.trans (change _ _)).trans (tlsEmitErrorEvent _)

theorem writeBioRetry (head : TlsQueue) (retry : RetryWb) (run : TlsRun) :
    Codes run (TlsWrites.writeBioRetry env head retry run) := by
  have written := Adds.note
    (show TlsNote.coded (.sslWrite retry.item retry.buf (env.sslWrite run)) from rfl) run
  rw [TlsWrites.writeBioRetry]
  split
  · exact (written.trans (change _ _)).trans (writeBioLoop ..)
  · exact (written.trans (change _ _)).trans (writeBioEnd ..)
  · exact (written.trans (change _ _)).trans (tlsEmitErrorEvent _)

theorem tlsWriteToBio (run : TlsRun) : Codes run (TlsWrites.tlsWriteToBio env run) := by
  rw [TlsWrites.tlsWriteToBio]
  split
  · exact .refl run
  · dsimp only
    split
    · exact (change _ run).trans (writeBioRetry ..)
    · exact (change _ run).trans (writeBioLoop ..)

/-- The status of libuv is translated. -/
theorem tlsWriteDoneCb (status : Int) (run : TlsRun) :
    Codes run (TlsWrites.tlsWriteDoneCb env status run) := by
  have translated : rcReported (if status = 0 then pcRcOk else pcRcError) := by
    split <;> rfl
  exact ((change _ run).trans (finishWrites translated _ _)).trans (tlsWriteToTcp _)

/-- Overdue items are reported with the code for it. -/
theorem checkQueueLoop (queue : TlsQueue) (ct passes : Nat) (cont : Bool) (tmp : List WriteItem)
    (run : TlsRun) : Codes run (TlsWrites.checkQueueLoop env queue ct passes cont tmp run).1 := by
  induction passes generalizing cont tmp run with
  | zero => exact (change _ run).trans (change _ _)
  | succ passes ih =>
      rw [TlsWrites.checkQueueLoop]
      split
      · exact change _ run
      · dsimp only
        split
        · exact ((change _ run).trans (dropItem rfl _ _)).trans (ih _ _ _)
        · exact (change _ run).trans (ih _ _ _)

theorem tcpWriteCheckTimeoutCb (run : TlsRun) :
    Codes run (TlsWrites.tcpWriteCheckTimeoutCb env run) :=
  (((checkQueueLoop ..).trans (checkQueueLoop ..)).trans (checkQueueLoop ..)).trans (change _ _)

theorem tlsWriteTimeoutCheckCb (run : TlsRun) :
    Codes run (TlsWrites.tlsWriteTimeoutCheckCb env run) := by
  have dropped (item : WriteItem) (run : TlsRun) : Codes run (dropRetry env item run) :=
    ((reportItem rfl item run).trans (change _ _)).trans (recycleItem item _)
  rw [TlsWrites.tlsWriteTimeoutCheckCb]
  refine ((Adds.trans ?_ (checkQueueLoop ..)).trans (change _ _)).trans (tcpWriteCheckTimeoutCb _)
  split
  · split
    · exact dropped _ run
    · exact .refl run
  · exact .refl run

theorem tcpOnResponse (reqId : Nat) (run : TlsRun) :
    Codes run (TlsWrites.tcpOnResponse env reqId run) := by
  have answered : Codes run (TlsWrites.others env (run.note (.answered reqId))) :=
    (Adds.note rfl run).trans (others _)
  rw [TlsWrites.tcpOnResponse]
  split
  · exact answered
  · exact (answered.trans (change _ _)).trans (recycleItem ..)

theorem act (run : TlsRun) (act : TlsAct) : Codes run (TlsWrites.act env run act) := by
  cases act with
  | enter state => exact change _ run
  | fire => exact fireEvent run
  | sendFirst buf => exact sendFirst buf run
  | sendLast buf => exact sendLast buf run
  | send message => exact trUvTcpSend run message
  | response reqId => exact tcpOnResponse reqId run
  | reset => exact tlsReset run
  | reconn => exact tcpReconn run
  | sslRead bytes completed => exact change _ run
  | sslFails => exact tlsEmitErrorEvent run

/-- Every step reports codes of the client. -/
theorem step {first second : TlsRun} (step : Step env first second) : Codes first second := by
  obtain ⟨label, next⟩ := step
  unfold TlsWrites.step at next
  split at next
  · cases next
  cases label with
  | send message => exact Option.some.inj next ▸ trUvTcpSend first message
  | tick seconds => exact Option.some.inj next ▸ change _ first
  | writeAsync =>
      dsimp only at next
      split at next
      · exact Option.some.inj next ▸ (change _ first).trans (tlsWriteToBio _)
      · cases next
  | writeDone status =>
      dsimp only at next
      split at next
      · exact Option.some.inj next ▸ tlsWriteDoneCb status first
      · cases next
  | checkTimeout =>
      dsimp only at next
      split at next
      · exact Option.some.inj next ▸ (change _ first).trans (tlsWriteTimeoutCheckCb _)
      · cases next
  | read acts =>
      exact Option.some.inj next ▸ ((tlsWriteToBio first).trans (foldl act acts _)).trans
        (tlsWriteToTcp _)
  | connDone acts => exact Option.some.inj next ▸ (foldl act acts first).trans (tlsWriteToTcp _)
  | tcp acts => exact Option.some.inj next ▸ foldl act acts first

theorem of_reachable (reachable : Reachable env run) : Codes ⟨init, []⟩ run := by
  induction reachable with
  | refl => exact .refl _
  | tail _ last ih => exact ih.trans (step last)

end Codes

end TlsWrites

/-- A completion has one of the codes, and `pc_client_rc_str` has a name for each code. -/
def Point.coded : Point → Bool
  | .sight (.completed _ _ rc _) => rcReported rc
  | .sight (.rcStrAssertion _) => false
  | _ => true

/-- No code is looked at. -/
def Point.codeless : Point → Bool
  | .sight (.completed ..) | .sight (.rcStrAssertion _) => false
  | _ => true

/-- A report in the queue of a polling client has one of the codes. -/
def EventData.coded : EventData → Bool
  | .ev .. => true
  | .notify _ rc | .req _ rc _ => rcReported rc

/-- What makes no code makes none of another kind. -/
theorem Point.coded_of_codeless (point : Point) (codeless : point.codeless) : point.coded := by
  cases point with
  | sight sight => cases sight <;> first | rfl | exact absurd codeless Bool.false_ne_true
  | _ => rfl

/-- All codes of a run, in the reports that have been made and in the ones that are queued, are
codes of the transport. -/
structure Coded (sys : Sys) : Prop where
  made : ∀ entry ∈ sys.notes, entry.1.coded
  queued : ∀ event ∈ sys.state.client.pendingEvQueue, event.data.coded

/-- Nothing is reported with a code. -/
structure Codeless (first second : Sys) : Prop where
  notes : Adds Point.codeless first second
  queue : second.state.client.pendingEvQueue = first.state.client.pendingEvQueue

namespace Codeless

/-- What leaves the notes and the events. -/
theorem of_notes (notes : second.notes = first.notes)
    (queue : second.state.client.pendingEvQueue = first.state.client.pendingEvQueue) :
    Codeless first second :=
  ⟨.of_notes notes, queue⟩

theorem refl (sys : Sys) : Codeless sys sys := of_notes rfl rfl

theorem trans (left : Codeless first second) (right : Codeless second third) :
    Codeless first third :=
  ⟨left.notes.trans right.notes, right.queue.trans left.queue⟩

theorem note {point : Point} (codeless : point.codeless) (sys : Sys) :
    Codeless sys (sys.note point) :=
  ⟨.note codeless sys, rfl⟩

theorem client {act : Client → Client} {sys : Sys}
    (queue : (act sys.state.client).pendingEvQueue = sys.state.client.pendingEvQueue) :
    Codeless sys (sys.client act) :=
  of_notes rfl queue

theorem tcp (act : Transport → Transport) (sys : Sys) : Codeless sys (sys.tcp act) :=
  of_notes rfl rfl

theorem wq (act : WriteQueues → WriteQueues) (sys : Sys) : Codeless sys (sys.wq act) :=
  of_notes rfl rfl

theorem hold (held : Bool) (sys : Sys) : Codeless sys (sys.hold held) := of_notes rfl rfl

theorem stage (id : Nat) (stage : Stage) (sys : Sys) : Codeless sys (sys.stage id stage) :=
  of_notes rfl rfl

theorem returns (id : Nat) (rc : Int) (sys : Sys) : Codeless sys (sys.returns id rc) :=
  (note rfl sys).trans (of_notes rfl rfl)

theorem crash (stop : Stop) (sys : Sys) : Codeless sys (sys.crash stop) :=
  (note rfl sys).trans (of_notes rfl rfl)

theorem assert (holds : Core → Bool) (site : TcpAssertion) (sys : Sys) :
    Codeless sys (sys.assert holds site) := by
  rw [Sys.assert]
  split
  · exact refl sys
  · exact note rfl sys

/-- An assertion of the polling functions. -/
theorem pollAssert (holds : Bool) {sight : Sight} (codeless : (Point.sight sight).codeless)
    (sys : Sys) : Codeless sys (pollReceiver.assert holds sight sys) := by
  rw [Receiver.assert]
  split
  · exact refl sys
  · exact note codeless sys

/-- A loop makes no code if its passes make none. -/
theorem foldl {ι : Type} {step : Sys → ι → Sys} (codeless : ∀ sys item, Codeless sys (step sys item))
    (items : List ι) (sys : Sys) : Codeless sys (items.foldl step sys) := by
  induction items generalizing sys with
  | nil => exact refl sys
  | cons item items ih => exact (codeless sys item).trans (ih (step sys item))

theorem modifyPool (kind : ReqKind) (act : ReqPool → ReqPool) (sys : Sys) :
    Codeless sys (sys.client fun client => client.modifyPool kind act) :=
  client (by cases kind <;> rfl)

theorem fire (type : EvType) (sys : Sys) : Codeless sys (sys.client (Client.fire type)) :=
  client (by cases type <;> rfl)

/-- Taking a request out of its queue leaves the events. -/
theorem take {kind : ReqKind} {key : Nat} {target : PendingReq} {next : Client} {sys : Sys}
    (found : sys.state.client.take kind key = some (target, next)) :
    Codeless sys (sys.client fun _ => next) := by
  refine client ?_
  rw [Client.take] at found
  split at found
  · cases found
  · cases found
    cases kind <;> rfl

/-- An event that has been handled leaves the queue. -/
theorem releaseEvent (event : PendingEvent) (sys : Sys) :
    Codeless sys (sys.client (Client.releaseEvent event)) := by
  refine client ?_
  rw [Client.releaseEvent]
  split <;> rfl

theorem fireEventNow (evType : Int) (arg1 arg2 : Option CStr) (sys : Sys) :
    Codeless sys (pcTransFireEventNow pollReceiver evType arg1 arg2 sys) := by
  rw [pcTransFireEventNow]
  split
  · exact refl sys
  next type _ =>
    split
    · exact ((pollAssert _ rfl sys).trans (fire type _)).trans (foldl (fun sys handler =>
        (note rfl sys : Codeless sys (sys.note (.sight (.event handler type arg1 arg2))))) _ _)
    · exact refl sys

/-- What is plain for the transport. -/
theorem of_plain (plain : Plain first second) : Codeless first second where
  notes := by
    obtain ⟨new, notes, plainNotes⟩ := plain.notes
    refine ⟨new, notes, fun entry member => ?_⟩
    have plain := plainNotes entry member
    cases point : entry.1 <;> rw [point] at plain <;>
      first | rfl | exact absurd plain Bool.false_ne_true
  queue := congrArg Client.pendingEvQueue plain.client

theorem afterPoll (id : Nat) (next : Option UserCall) (sys : Sys) :
    Codeless sys (Pomelo.afterPoll id next sys) := by
  unfold Pomelo.afterPoll
  split
  · exact returns id _ sys
  · exact stage id _ sys
  · exact stage id _ sys

theorem enterPoll (id : Nat) (next : Option UserCall) (sys : Sys) :
    Codeless sys (Pomelo.enterPoll id next sys) := by
  rw [Pomelo.enterPoll]
  split
  · exact afterPoll id next sys
  · exact (client rfl).trans (stage id _ _)

/-- A handled event is given back. -/
theorem pollHandled (id : Nat) (event : PendingEvent) (target : Option (ReqKind × PendingReq))
    (next : Option UserCall) (sys : Sys) :
    Codeless sys (Pomelo.pollHandled id event target next sys) := by
  cases target with
  | none => exact (releaseEvent event sys).trans (stage id _ _)
  | some target =>
      exact ((modifyPool target.1 (ReqPool.release target.2) sys).trans
        (releaseEvent event _)).trans (stage id _ _)

theorem checkCall (id : Nat) (thread : Thread) (call : UserCall) (sys : Sys) :
    Codeless sys (Pomelo.checkCall id thread call sys) := by
  cases call with
  | poll => exact returns id _ sys
  | cleanup =>
      rw [Pomelo.checkCall]
      split
      · exact returns id _ sys
      split
      · exact crash _ sys
      split
      · exact returns id _ sys
      · exact (tcp _ sys).trans (stage id _ _)
  | api call =>
      cases call <;> unfold Pomelo.checkCall <;> dsimp only <;> split <;>
        first | exact returns id _ sys | exact stage id _ sys | exact crash _ sys

/-- Handing an item over makes no code. -/
theorem trUvTcpSend (id : Nat) (kind : ReqKind) (req : PendingReq) (sys : Sys) :
    Codeless sys (Pomelo.trUvTcpSend env id kind req sys) := by
  rw [Pomelo.trUvTcpSend]
  split
  · exact crash _ sys
  split
  · exact stage id _ sys
  · dsimp only
    split
    · exact (assert _ .sendReqId sys).trans (crash _ _)
    · exact (assert _ .sendReqId sys).trans (stage id _ _)
    · exact (assert _ .sendReqId sys).trans (stage id _ _)

theorem trUvTcpConnect (id : Nat) (host : CStr) (port : Int) (handshakeOpts : Option CStr)
    (sys : Sys) : Codeless sys (Pomelo.trUvTcpConnect env id host port handshakeOpts sys) := by
  unfold Pomelo.trUvTcpConnect
  split
  · exact crash _ sys
  split
  · exact (tcp _ sys).trans (returns id _ _)
  split
  · exact (tcp _ sys).trans (stage id _ _)
  · exact crash _ sys
  · exact (tcp _ sys).trans (returns id _ _)

theorem trUvTcpSendSignal (id : Nat) (sys : Sys) :
    Codeless sys (Pomelo.trUvTcpSendSignal id sys) := by
  rw [Pomelo.trUvTcpSendSignal]
  split
  · exact (tcp _ sys).trans (returns id _ _)
  · exact returns id _ sys

theorem pcReleaseTransport (id : Nat) (sys : Sys) :
    Codeless sys (Pomelo.pcReleaseTransport env id sys) := by
  rw [Pomelo.pcReleaseTransport]
  split
  · exact (client rfl).trans (enterPoll id _ _)
  · exact (client rfl).trans (stage id _ _)

/-- A stage other than a pass of `pc_client_poll` reports nothing. -/
theorem runStage {id : Nat} {thread : Thread} {stage : Stage}
    (other : ∀ next, stage ≠ .polling next) (sys : Sys) :
    Codeless sys (Pomelo.runStage env id thread stage sys) := by
  cases stage with
  | start call =>
      rw [Pomelo.runStage]
      split
      · exact enterPoll ..
      · exact checkCall ..
  | check call => exact checkCall ..
  | link kind route msg timeout =>
      refine (client ?_).trans (Codeless.stage id _ _)
      cases kind <;> rfl
  | send kind req => exact trUvTcpSend ..
  | insert kind req buf =>
      have noted : Codeless sys (sys.note (.accepted (sys.state.newItem req buf))) := note rfl sys
      exact noted.trans (of_notes rfl rfl)
  | signal kind req => exact trUvTcpSendSignal ..
  | sendFailed kind req rc => exact (modifyPool kind _ sys).trans (returns id _ _)
  | setConnecting host port handshakeOpts => exact (client rfl).trans (Codeless.stage id _ _)
  | connect host port handshakeOpts => exact trUvTcpConnect ..
  | connectFailed rc => exact (client rfl).trans (returns id _ _)
  | setDisconnecting => exact (client rfl).trans (Codeless.stage id _ _)
  | disconnect =>
      rw [Pomelo.runStage, trUvTcpDisconnect]
      split
      · exact crash _ sys
      · exact (tcp _ sys).trans (returns id _ _)
  | polling next => exact absurd rfl (other next)
  | handling event target next => exact pollHandled ..
  | joining => exact pcReleaseTransport ..
  | cleanedUp => exact ((assert _ .cleanupQueues sys).trans (client rfl)).trans (returns id _ _)

end Codeless

namespace Coded

/-- What makes no code keeps those of the others. -/
theorem codeless (coded : Coded first) (codeless : Codeless first second) : Coded second where
  made := by
    obtain ⟨new, notes, without⟩ := codeless.notes
    intro entry member
    rw [notes] at member
    rcases List.mem_append.mp member with inNew | before
    · exact Point.coded_of_codeless _ (without entry inNew)
    · exact coded.made entry before
  queued := codeless.queue.symm ▸ coded.queued

theorem note {point : Point} (coded : Coded first) (allowed : point.coded) :
    Coded (first.note point) where
  made entry member := by
    rcases List.mem_cons.mp member with rfl | before
    · exact allowed
    · exact coded.made entry before
  queued := coded.queued

/-- A loop keeps the codes if its passes do. -/
theorem foldl {ι : Type} {step : Sys → ι → Sys} (keeps : ∀ sys item, Coded sys → Coded (step sys item))
    (items : List ι) {sys : Sys} (coded : Coded sys) : Coded (items.foldl step sys) := by
  induction items generalizing sys with
  | nil => exact coded
  | cons item items ih => exact ih (keeps sys item coded)

/-- An event that is queued has a code of the client. -/
theorem queueEvent {data : EventData} (coded : Coded first) (allowed : data.coded) :
    Coded (first.client (Client.queueEvent data)) where
  made := coded.made
  queued := by
    have added (slot : Option Nat) : ∀ event ∈ first.state.client.pendingEvQueue ++
        [PendingEvent.mk slot data], event.data.coded := by
      intro event member
      rcases List.mem_append.mp member with before | last
      · exact coded.queued event before
      · rw [List.mem_singleton.mp last]
        exact allowed
    change ∀ event ∈ (first.state.client.queueEvent data).pendingEvQueue, _
    rw [Client.queueEvent]
    split
    · exact added _
    · exact added _

/-- A polled completion reports the code of its event. -/
theorem pollComplete {id : Nat} {event : PendingEvent} {next : Option UserCall} {kind : ReqKind}
    {key : Nat} {rc : Int} {resp : Option CStr} {sys : Sys} (coded : Coded sys)
    (allowed : rcReported rc) :
    Coded (Pomelo.pollComplete id event next kind key rc resp sys) := by
  rw [Pomelo.pollComplete]
  split
  · exact coded.codeless (.stage id _ sys)
  next target client found =>
    have named : pcClientRcStr pollReceiver rc sys = sys := by
      rw [pcClientRcStr, Receiver.assert, rcKnown_of_rcReported allowed]
      rfl
    have completed : (Point.sight (.completed kind target rc resp)).coded := allowed
    rw [named]
    exact ((coded.codeless (.take found)).note completed).codeless (.stage id _ _)

/-- A pass of `pc_client_poll` completes with the code that was queued. -/
theorem pollNext {id : Nat} {next : Option UserCall} {sys : Sys} (coded : Coded sys) :
    Coded (Pomelo.pollNext id next sys) := by
  rw [Pomelo.pollNext]
  split
  · exact (coded.codeless (.client rfl)).codeless (.afterPoll id next _)
  next event rest queue =>
    have all := coded.queued
    rw [queue] at all
    have allowed := all event List.mem_cons_self
    have popped : Coded (sys.client fun client => { client with pendingEvQueue := rest }) :=
      ⟨coded.made, fun other member => all other (List.mem_cons_of_mem _ member)⟩
    have busy : (Point.sight (.eventAssertion event)).codeless := rfl
    have begun := popped.codeless (.pollAssert ((sys.client fun client =>
      { client with pendingEvQueue := rest }).state.client.eventBusy event) busy _)
    dsimp only
    split
    next same => exact (begun.codeless (.fireEventNow ..)).codeless (.stage id _ _)
    next same =>
      rw [same] at allowed
      exact begun.pollComplete allowed
    next same =>
      rw [same] at allowed
      exact begun.pollComplete allowed

theorem act (sys : Sys) (act : Act) (coded : Coded sys) : Coded (Pomelo.act env sys act) := by
  cases act with
  | begin thread call => exact coded.codeless (.of_notes rfl rfl)
  | tick seconds => exact coded.codeless (.of_notes rfl rfl)
  | advance id =>
      rw [Pomelo.act, advance]
      split
      · exact coded
      next call found =>
        have noted : Coded (sys.note (.call id call.stage)) := coded.note rfl
        split
        · exact coded
        by_cases other : ∀ next, call.stage ≠ .polling next
        · exact noted.codeless (.runStage other _)
        · simp only [not_forall, not_not] at other
          obtain ⟨next, stage⟩ := other
          rw [stage] at noted ⊢
          exact noted.pollNext

/-- The code of the user makes no code of its own. -/
theorem upcall (coded : Coded first) : Coded (Pomelo.upcall env first) := by
  have finished (sys : Sys) (call : Call) (coded : Coded sys) :
      Coded (Pomelo.finishCall env sys call) := by
    rw [Pomelo.finishCall]
    split
    · exact coded.foldl act _
    · exact coded
  exact (coded.foldl act _).foldl finished _

theorem see {sight : Sight} (coded : Coded first) (allowed : (Point.sight sight).coded) :
    Coded ((loopReceiver env).see sight first) := by
  have noted := coded.note allowed
  cases sight with
  | event handler type arg1 arg2 => exact noted.upcall
  | completed kind req rc resp => exact noted.upcall
  | stateAssertion type state => exact noted
  | rcStrAssertion rc => exact noted
  | eventAssertion event => exact noted

theorem pcTransFire {type : EvType} {arg1 arg2 : Option CStr} (coded : Coded first) :
    Coded (Pomelo.pcTransFire (loopReceiver env) type arg1 arg2 first) := by
  have asserted : Coded ((loopReceiver env).assert (first.state.client.allows type)
      (.stateAssertion type first.state.client.state) first) := by
    rw [Receiver.assert]
    split
    · exact coded
    · exact coded.see rfl
  exact (asserted.codeless (.fire type _)).foldl (fun sys handler coded =>
    (coded.see rfl : Coded ((loopReceiver env).see (.event handler type arg1 arg2) sys))) _

theorem fireEvent {type : EvType} {arg1 arg2 : Option CStr} (coded : Coded first) :
    Coded (Pomelo.fireEvent env type arg1 arg2 first) := by
  have noted : Coded (first.note (.fire type)) := coded.note rfl
  rw [Pomelo.fireEvent, pcTransFireEvent]
  split
  · rw [pcTransQueueEvent]
    split
    · exact noted
    split
    · exact noted.queueEvent rfl
    · exact noted
  · rw [pcTransFireEventNow]
    split
    · exact noted
    split
    · exact noted.pcTransFire
    · exact noted

section Reports

variable {rc : Int} (allowed : rcReported rc)

include allowed

/-- `pc_client_rc_str` has a name for the code. -/
theorem pcClientRcStr_eq (sys : Sys) : pcClientRcStr (loopReceiver env) rc sys = sys := by
  rw [pcClientRcStr, Receiver.assert, rcKnown_of_rcReported allowed]
  rfl

/-- A completion reports the code that it is given. -/
theorem pcTransCompleteNow {kind : ReqKind} {key : Nat} {resp : Option CStr} (coded : Coded first) :
    Coded (Pomelo.pcTransCompleteNow (loopReceiver env) kind key rc resp first) := by
  rw [Pomelo.pcTransCompleteNow]
  split
  · exact coded
  next target client found =>
    have completed : (Point.sight (.completed kind target rc resp)).coded := allowed
    rw [pcClientRcStr_eq allowed]
    exact ((coded.codeless (.take found)).see completed).codeless (.modifyPool kind _ _)

theorem pcTransResp {reqId : Nat} {resp : Option CStr} (coded : Coded first) :
    Coded (Pomelo.pcTransResp (loopReceiver env) env.config.enablePolling reqId rc resp first) := by
  rw [Pomelo.pcTransResp]
  split
  · rw [pcTransQueueResp, pcClientRcStr_eq allowed]
    exact coded.queueEvent allowed
  · exact coded.pcTransCompleteNow allowed

theorem pcTransSent {seqNum : Nat} (coded : Coded first) :
    Coded (Pomelo.pcTransSent (loopReceiver env) env.config.enablePolling seqNum rc first) := by
  rw [Pomelo.pcTransSent]
  split
  · rw [pcTransQueueSent, pcClientRcStr_eq allowed]
    exact coded.queueEvent allowed
  · exact coded.pcTransCompleteNow allowed

theorem dropItem {item : WriteItem} (coded : Coded first) :
    Coded (Pomelo.dropItem env item rc first) := by
  have completed : Coded (completeItem env item rc first) := by
    rw [completeItem]
    split
    · exact coded.pcTransResp allowed
    · exact coded.pcTransSent allowed
    · exact coded
  exact completed.codeless (.wq _ _)

/-- A queue that is dropped is reported with one code. -/
theorem dropItems {queue : WiQueue} (passes : Nat) (coded : Coded first) :
    Coded (Pomelo.dropItems env queue rc passes first) := by
  induction passes generalizing first with
  | zero => exact coded
  | succ passes ih =>
      rw [Pomelo.dropItems]
      split
      · exact coded
      · exact ih ((coded.codeless (.wq _ _)).dropItem allowed)

/-- The writes that are finished are reported with the translated status. -/
theorem finishWrites (passes : Nat) (coded : Coded first) :
    Coded (Pomelo.finishWrites env rc passes first) := by
  induction passes generalizing first with
  | zero => exact coded
  | succ passes ih =>
      rw [Pomelo.finishWrites]
      split
      · exact coded
      · dsimp only
        split
        · exact ih ((coded.codeless (.wq _ _)).codeless (.wq _ _))
        · exact ih ((coded.codeless (.wq _ _)).dropItem allowed)

end Reports

/-- A reset reports the code for it. -/
theorem tcpReset (coded : Coded first) : Coded (Pomelo.tcpReset env first) := by
  have closed (core : Core) : core.closeSocket.client = core.client := by
    rw [Core.closeSocket]
    split <;> rfl
  have begun : Coded (((first.note .reset).tcp Transport.stopAll).change Core.closeSocket) := by
    have stopped : Coded ((first.note .reset).tcp Transport.stopAll) :=
      (coded.note rfl).codeless (.tcp _ _)
    exact stopped.codeless (.of_notes rfl (congrArg Client.pendingEvQueue (closed _)))
  rw [Pomelo.tcpReset]
  generalize ((first.note .reset).tcp Transport.stopAll).change Core.closeSocket = mid at begun ⊢
  have gathered := (begun.codeless (.hold true _)).codeless (.wq WriteQueues.gather _)
  have reset : rcReported pcRcReset := rfl
  exact (((gathered.dropItems reset _).dropItems reset _).codeless (.hold false _)).note rfl

theorem giveUp {reason : String} (coded : Coded first) : Coded (Pomelo.giveUp env reason first) := by
  have fired : Coded (fireReason env .connectFailed reason first) := coded.fireEvent
  have gaveUp : Point.gaveUp.coded := rfl
  exact (fired.note gaveUp).codeless (.tcp _ _)

theorem tcpReconn (coded : Coded first) : Coded (Pomelo.tcpReconn env first) := by
  have noted : Coded (first.note .reconn) := coded.note rfl
  have reset : Coded (Pomelo.tcpReset env (first.note .reconn)) := noted.tcpReset
  have again := reset.codeless (.tcp (fun tcp => { tcp with state := .connecting }) _)
  have armed (sys : Sys) : Codeless sys (armReconn env sys) := by
    rw [armReconn]
    split
    · exact (Codeless.tcp _ sys).trans (.crash _ _)
    · exact ((Codeless.tcp _ sys).trans (.note rfl _)).trans (.tcp _ _)
  rw [Pomelo.tcpReconn, reconnAgain]
  split
  · exact again.giveUp
  · dsimp only
    split
    · exact (again.codeless (.tcp _ _)).giveUp
    · exact (again.codeless (.tcp _ _)).codeless (armed _)

theorem reconnWith {type : EvType} {reason : String} (coded : Coded first) :
    Coded (Pomelo.tcpReconn env (fireReason env type reason first)) :=
  (coded.fireEvent : Coded (fireReason env type reason first)).tcpReconn

/-- Overdue items are reported with the code for it. -/
theorem checkQueueLoop {queue : WiQueue} {ct : Nat} (passes : Nat) (cont : Bool)
    (coded : Coded first) : Coded (Pomelo.checkQueueLoop env queue ct passes cont first).1 := by
  induction passes generalizing cont first with
  | zero => exact coded.codeless (.crash _ _)
  | succ passes ih =>
      rw [Pomelo.checkQueueLoop]
      split
      · exact coded
      · dsimp only
        split
        · have timeout : rcReported pcRcTimeout := rfl
          exact ih _ ((coded.codeless (.wq _ _)).dropItem timeout)
        · exact ih _ ((coded.codeless (.wq _ _)).codeless (.wq _ _))

theorem tcpWriteCheckTimeoutCb (coded : Coded first) :
    Coded (Pomelo.tcpWriteCheckTimeoutCb env first) := by
  have checked (queue : WiQueue) (cont : Bool) (sys : Sys) (coded : Coded sys) :
      Coded (tcpCheckQueueTimeout env queue cont sys).1 :=
    ((coded.codeless (.wq _ _)).checkQueueLoop _ _).codeless (.wq _ _)
  have held := coded.codeless (.hold true _)
  have ended (need : Bool) (sys : Sys) :
      Codeless sys ((sys.hold false).tcp (Transport.startCheck need)) :=
    (Codeless.hold false sys).trans (.tcp _ _)
  exact (checked .respPending _ _ (checked .writeWait _ _
    (checked .connPending false _ held))).codeless (ended _ _)

/-- The status of libuv is translated. -/
theorem tcpWriteDoneCb {status : Int} (coded : Coded first) :
    Coded (Pomelo.tcpWriteDoneCb env status first) := by
  have translated : rcReported (if status = 0 then pcRcOk else pcRcError) := by
    split <;> rfl
  have begun := ((coded.codeless (.assert (fun core => core.tcp.isWriting) .writeDoneWriting _)).codeless
    (.tcp (fun tcp => { tcp with isWriting := false }) _)).codeless (.hold true _)
  have ended (sys : Sys) :
      Codeless sys ((sys.hold false).tcp fun tcp => { tcp with writeAsync := true }) :=
    (Codeless.hold false sys).trans (.tcp _ _)
  exact (begun.finishWrites translated _).codeless (ended _)

end Coded

/-- `uv_write` does not refuse a message. -/
def WritesSound (point : Point) (core : Core) : Prop :=
  match point with
  | .write items ret => ret = 0 ∨
      ∀ item ∈ core.tcp.wq.writing ++ items, item.type ≠ .resp ∧ item.type ≠ .notify
  | _ => True

instance (point : Point) (core : Core) : Decidable (WritesSound point core) := by
  unfold WritesSound
  split <;> infer_instance

namespace Codeless

/-- Packages of the transport's own are dropped without a report. -/
theorem dropItems {rc : Int} (passes : Nat) {sys : Sys}
    (own : ∀ item ∈ sys.state.tcp.wq.writing, item.type ≠ .resp ∧ item.type ≠ .notify) :
    Codeless sys (Pomelo.dropItems env .writing rc passes sys) := by
  induction passes generalizing sys with
  | zero => exact refl sys
  | succ passes ih =>
      rw [Pomelo.dropItems]
      split
      · exact refl sys
      next item rest items =>
        change sys.state.tcp.wq.writing = item :: rest at items
        rw [items] at own
        obtain ⟨resp, notify⟩ := own item List.mem_cons_self
        have silent (sys : Sys) : completeItem env item rc sys = sys := by
          rw [completeItem]
          split
          · exact absurd ‹_› resp
          · exact absurd ‹_› notify
          · rfl
        have left : ((sys.wq (WriteQueues.setItems .writing rest)).wq
            (WriteQueues.recycle item)).state.tcp.wq.writing = rest :=
          WriteQueues.items_recycle item (sys.state.tcp.wq.setItems .writing rest) .writing
        rw [dropItem, silent]
        refine ((wq _ sys).trans (wq _ _)).trans (ih fun other member => ?_)
        rw [left] at member
        exact own other (List.mem_cons_of_mem _ member)

/-- A write that is refused reports nothing, unless a message is refused. -/
theorem writeItems {needCheck : Bool} {ret : Int} {sys : Sys}
    (sound : ret = 0 ∨ ∀ item ∈ sys.state.tcp.wq.writing ++ sys.state.tcp.wq.writeWait,
      item.type ≠ .resp ∧ item.type ≠ .notify) :
    Codeless sys (Pomelo.writeItems env needCheck ret sys) := by
  have begun : Codeless sys ((sys.note (.write sys.state.tcp.wq.writeWait ret)).wq
      WriteQueues.beginWrite) := (note rfl sys).trans (wq _ _)
  rw [Pomelo.writeItems]
  split
  next refused =>
    exact ((begun.trans (hold true _)).trans (dropItems _ (sound.resolve_left refused))).trans
      (hold false _)
  next => exact (begun.trans (tcp _ _)).trans (tcp _ _)

/-- The call of `uv_write` is noted. -/
theorem mem_writeItems (needCheck : Bool) (ret : Int) (sys : Sys) :
    (.write sys.state.tcp.wq.writeWait ret, sys.state) ∈
      (Pomelo.writeItems env needCheck ret sys).notes := by
  rw [Pomelo.writeItems]
  split
  · exact (Quiet.dropItems ..).notes.suffix.subset List.mem_cons_self
  · exact List.mem_cons_self

/-- Where `uv_write` refuses no message, nothing is reported. -/
theorem tcpWriteAsyncCb {ret : Int} {sys : Sys}
    (meets : (Pomelo.tcpWriteAsyncCb env ret sys).Meets WritesSound) :
    Codeless sys (Pomelo.tcpWriteAsyncCb env ret sys) := by
  have cleared : Codeless sys (sys.tcp fun tcp => { tcp with writeAsync := false }) := tcp _ sys
  have drained (sys : Sys) : Codeless sys (drainPending sys) := by
    rw [drainPending]
    split
    · exact wq _ sys
    · exact refl sys
  rw [Pomelo.tcpWriteAsyncCb] at meets ⊢
  dsimp only at meets ⊢
  generalize sys.tcp _ = first at cleared meets ⊢
  split at meets
  next idle =>
    rw [if_pos idle]
    exact cleared
  next active =>
    rw [if_neg active]
    have before := cleared.trans (drained first)
    generalize drainPending first = mid at before meets ⊢
    split at meets
    next empty =>
      rw [if_pos empty]
      exact before.trans (tcp _ mid)
    next filled =>
      rw [if_neg filled]
      exact before.trans (writeItems (meets _ (mem_writeItems _ ret mid)))

end Codeless

namespace Coded

variable {sys : Sys}

theorem plain (coded : Coded first) (plain : Plain first second) : Coded second :=
  coded.codeless (.of_plain plain)

/-- A turn of the loop reports codes of the client. -/
theorem turn {event : LoopEvent} (coded : Coded first) (turn : Turn env event first second)
    (meets : second.Meets WritesSound) : Coded second := by
  cases turn with
  | plain plain => exact coded.plain plain
  | attempt idle before between after begins =>
      have attempted := ((coded.plain before).note (rfl : Point.attempt.coded)).codeless
        (.tcp (fun tcp => { tcp with state := .connecting, socket := .open, reading := false }) _)
      exact ((attempted.plain between).codeless (.tcp _ _)).plain after
  | attemptFails reason idle before after =>
      have attempted := ((coded.plain before).note (rfl : Point.attempt.coded)).codeless
        (.tcp (fun tcp => { tcp with state := .connecting, socket := .open, reading := false }) _)
      exact (attempted.plain after).reconnWith
  | connects timer handshake connecting up after =>
      have connected : Coded first.connect := coded.codeless (.tcp _ _)
      exact (connected.plain after).codeless (.of_notes rfl rfl)
  | connectsUnsent timer connecting up after =>
      have connected : Coded first.connect := coded.codeless (.tcp _ _)
      exact ((connected.plain after).codeless (.crash _ _)).codeless (.tcp _ _)
  | readFails connecting after => exact ((coded.codeless (.tcp _ _)).plain after).tcpReconn
  | connectFails reason connecting after =>
      exact ((coded.codeless (.tcp _ _)).plain after).reconnWith
  | connTimeout after => exact (coded.codeless (.tcp _ _)).plain after
  | handshakeLate late active => exact (coded.codeless (.tcp _ _)).reconnWith
  | heartbeatLate active after => exact ((coded.codeless (.tcp _ _)).plain after).reconnWith
  | readError reading up => exact coded.reconnWith
  | @heartbeat mid last timer active before after armed =>
      have sent : Codeless mid ((sendLast (pcPkgEncode env.platform PkgType.heartbeat.code none 0)
          mid).tcp fun tcp => { tcp with isWaitingHb := true, hbTimeoutTimer := timer }) :=
        .of_notes rfl rfl
      exact (((coded.codeless (.tcp _ _)).plain before).codeless sent).plain after
  | reconnDelay active => exact coded.codeless (.tcp _ _)
  | disconnected before after => exact ((coded.plain before).tcpReset.plain after).fireEvent
  | cleanedUp before =>
      have ended (sys : Sys) : Codeless sys sys.cleanUp := .of_notes rfl rfl
      exact (coded.plain before).tcpReset.codeless (ended _)
  | writes ret => exact coded.codeless (.tcpWriteAsyncCb meets)
  | written status done writing => exact coded.tcpWriteDoneCb
  | checks active => exact (coded.codeless (.tcp _ _)).tcpWriteCheckTimeoutCb

theorem handles {type : UInt8} (coded : Coded first) (handles : Handles env type first second) :
    Coded second := by
  cases handles with
  | plain plain => exact coded.plain plain
  | kicked kick before => exact (coded.plain before).fireEvent.tcpReset
  | failed timer handshake before after =>
      exact ((coded.plain before).codeless (.tcp _ _)).plain after
  | @refused mid next last timer handshake before between after =>
      have failed : Coded (handshakeFailed env next) := by
        have fired : Coded (fireReason env .connectFailed "Handshake Error" next) :=
          (((coded.plain before).codeless (.tcp _ _)).plain between).fireEvent
        exact fired.tcpReset
      exact failed.plain after
  | @accepted mid next last timer hbTimer handshake before between after =>
      have acked : Codeless next ((tcpSendHandshakeAck env next).tcp fun tcp =>
          { tcp with state := .done, hbTimer := hbTimer }) := .of_notes rfl rfl
      have done := (((coded.plain before).codeless (.tcp _ _)).plain between).codeless acked
      exact done.fireEvent.plain after
  | undecodable reason data before => exact (coded.plain before).reconnWith
  | pushed route text data before => exact (coded.plain before).fireEvent
  | answered reqId text data before after =>
      have ok : rcReported pcRcOk := rfl
      exact (((coded.plain before).pcTransResp ok).plain after).codeless (.wq _ _)
  | heartbeat timer beat waiting before after armed =>
      exact ((coded.plain before).codeless (.tcp _ _)).plain after

theorem keeps_step (step : Step env first second) : Keeps WritesSound Coded first second := by
  refine leads_acts_step id ?_ (fun _ coded => coded.codeless (.tcp _ _))
    (fun _ coded => coded.codeless (.tcp _ _)) ?_ (fun coded => coded.note rfl) ?_ step
  · exact fun sys act => ⟨(Quiet.of_deliver (.act act)).notes.suffix, fun _ => Coded.act sys act⟩
  · intro event first ready other
    have turn : Turn env event (first.note (.callback event)) _ := turn_of_ready ready other
    refine ⟨(List.suffix_cons _ _).trans turn.suffix, fun meets coded => ?_⟩
    have noted : Coded (first.note (.callback event)) := coded.note rfl
    exact noted.turn turn meets
  · intro type data len first running
    have handles : Handles env type (first.note (.package type data)) _ :=
      handles_trTcpOnPkgHandler type data len first
    refine ⟨(List.suffix_cons _ _).trans handles.suffix, fun _ coded => ?_⟩
    have noted : Coded (first.note (.package type data)) := coded.note rfl
    exact noted.handles handles

theorem of_reachable (reached : Reachable env sys) (meets : sys.Meets WritesSound) : Coded sys := by
  obtain ⟨evHandlers, tcp, stored, init, ran⟩ := reached
  have start : Coded (Sys.init evHandlers tcp stored) :=
    ⟨fun _ member => absurd member List.not_mem_nil, fun _ member => absurd member List.not_mem_nil⟩
  exact holds_of_reachable start keeps_step ran meets

end Coded

/-- Which error it is that libuv has for a write is not told: packages that are refused are
dropped without a report, and any error of the callback is the same. -/
structure ErrorsHidden (env : Env) (sys : Sys) : Prop where
  refused : ∀ ret next, ret ≠ 0 → step env (.loop (.writeAsync ret)) sys = some next →
    next.Meets WritesSound → Codeless sys next
  failed : ∀ status other, status ≠ 0 → other ≠ 0 →
    tcpWriteDoneCb env status sys = tcpWriteDoneCb env other sys

/-- The error of a write is hidden in any state. -/
theorem errorsHidden (env : Env) (sys : Sys) : ErrorsHidden env sys where
  refused ret next refused taken meets := by
    unfold step at taken
    split at taken
    · cases taken
    · dsimp only at taken
      split at taken
      · obtain rfl := Option.some.inj taken
        have noted : Codeless sys (sys.note (.callback (.writeAsync ret))) := .note rfl sys
        exact noted.trans (.tcpWriteAsyncCb meets)
      · cases taken
  failed status other error another := by
    rw [tcpWriteDoneCb, tcpWriteDoneCb, if_neg error, if_neg another]

/-- **Known codes.** The reports of a TCP transport whose messages `uv_write` does not refuse
have codes of the client, and so have the reports of every TLS transport. -/
theorem codes_of_reachable {tlsEnv : TlsEnv} {sys : Sys} {run : TlsRun}
    (reached : Reachable env sys) (meets : sys.Meets WritesSound)
    (reachedTls : TlsWrites.Reachable tlsEnv run) :
    (Coded sys ∧ ErrorsHidden env sys) ∧ (∀ entry ∈ run.notes, entry.1.coded) ∧
      ∀ status other, status ≠ 0 → other ≠ 0 →
        TlsWrites.tlsWriteDoneCb tlsEnv status run = TlsWrites.tlsWriteDoneCb tlsEnv other run := by
  refine ⟨⟨.of_reachable reached meets, errorsHidden env sys⟩, ?_, ?_⟩
  · obtain ⟨new, notes, coded⟩ := TlsWrites.Codes.of_reachable reachedTls
    rw [notes, List.append_nil]
    exact coded
  · intro status other error another
    rw [TlsWrites.tlsWriteDoneCb, TlsWrites.tlsWriteDoneCb, if_neg error, if_neg another]

/-- A message has been written, and over TLS a request has been answered. -/
theorem codes_notifyInFlight :
    ∃ sys run, SampleEnds (fun _ => []) (notifyInFlight ++ [.loop (.writeDone (-32))]) sys ∧
      TlsWrites.SampleEnds TlsWrites.requestAnswered run ∧
      (Coded sys ∧ ErrorsHidden (.sample fun _ => []) sys) ∧
      (∀ entry ∈ run.notes, entry.1.coded) ∧
      ∀ status other, status ≠ 0 → other ≠ 0 →
        TlsWrites.tlsWriteDoneCb TlsWrites.sampleEnv status run =
          TlsWrites.tlsWriteDoneCb TlsWrites.sampleEnv other run := by
  obtain ⟨sys, ends, meets⟩ := exists_sampleEnds (fun _ => [])
    (notifyInFlight ++ [.loop (.writeDone (-32))]) (fun sys => sys.Meets WritesSound) (by decide +kernel)
  obtain ⟨run, endsTls, -⟩ := TlsWrites.exists_sampleEnds TlsWrites.requestAnswered
    (fun _ => True) (by decide +kernel)
  exact ⟨sys, run, ends, endsTls, codes_of_reachable ends.reachable meets endsTls.reachable⟩

/-- A notify is sent, and `uv_write` refuses it. -/
def notifyRefused (ret : Int) : List Label :=
  handshakeAnswered ++ messageSent 1 .notify 5 ++ [.loop (.writeAsync ret)]

/-- The point is a notify that is completed with a code. -/
def Point.completesNotify (rc : Int) : Point → Bool
  | .sight (.completed .notify _ code _) => code = rc
  | _ => false

/-- A broken pipe is passed on, and a missing file looks like a timeout. -/
theorem codes_fail_notifyRefused :
    (¬ ∀ (env : Env) (sys : Sys), Reachable env sys → Coded sys) ∧
      (∃ sys, SampleEnds (fun _ => []) (notifyRefused (-32)) sys ∧
        sys.notes.any fun entry => entry.1.completesNotify (-32)) ∧
      ∃ sys, SampleEnds (fun _ => []) (notifyRefused (-2)) sys ∧
        sys.notes.any fun entry => entry.1.completesNotify pcRcTimeout := by
  refine ⟨fun claim => ?_, exists_sampleEnds _ _ _ (by decide +kernel),
    exists_sampleEnds _ _ _ (by decide +kernel)⟩
  obtain ⟨sys, ends, broken⟩ := exists_sampleEnds (fun _ => []) (notifyRefused (-32))
    (fun sys => ¬ ∀ entry ∈ sys.notes, entry.1.coded) (by decide +kernel)
  exact broken (claim _ _ ends.reachable).made

end Pomelo
