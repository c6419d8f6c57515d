import Pomelo.Transport.Turn

/-!
# What the calls of users go through

Seen from the calls of users, a callback of the loop is a sequence of few things: code of the
user runs, an entry is taken out of its queue and completed, its node is released. Whatever the
transport does between two of these is apart from the calls, the entries and the completions.
-/

namespace Pomelo

open Transition Recorded

variable {env : Env} {cond : Point → Core → Prop} {inv : Sys → Prop} {first second third : Sys}

/-- The notes of neither a call nor a completion. -/
def Point.apart : Point → Bool
  | .call .. | .sight (.completed ..) => false
  | _ => true

/-- The entries of the client and the calls under way are the same. -/
structure Apart (first second : Sys) : Prop where
  pool : ∀ kind, second.state.client.pool kind = first.state.client.pool kind
  calls : second.state.calls = first.state.calls
  nextCall : second.state.nextCall = first.state.nextCall
  notes : Adds Point.apart first second

namespace Apart

theorem refl (sys : Sys) : Apart sys sys := ⟨fun _ => rfl, rfl, rfl, .refl sys⟩

theorem trans (left : Apart first second) (right : Apart second third) : Apart first third where
  pool kind := (right.pool kind).trans (left.pool kind)
  calls := right.calls.trans left.calls
  nextCall := right.nextCall.trans left.nextCall
  notes := left.notes.trans right.notes

theorem note {point : Point} (apart : point.apart) (sys : Sys) : Apart sys (sys.note point) :=
  ⟨fun _ => rfl, rfl, rfl, .note apart sys⟩

/-- What the loop does to the transport stays apart from the calls. -/
theorem tcp (act : Transport → Transport) (sys : Sys) : Apart sys (sys.tcp act) :=
  ⟨fun _ => rfl, rfl, rfl, .of_notes rfl⟩

theorem wq (act : WriteQueues → WriteQueues) (sys : Sys) : Apart sys (sys.wq act) :=
  ⟨fun _ => rfl, rfl, rfl, .of_notes rfl⟩

theorem hold (held : Bool) (sys : Sys) : Apart sys (sys.hold held) :=
  ⟨fun _ => rfl, rfl, rfl, .of_notes rfl⟩

theorem crash (stop : Stop) (sys : Sys) : Apart sys (sys.crash stop) :=
  ⟨fun _ => rfl, rfl, rfl, .note rfl sys⟩

theorem assert (holds : Core → Bool) (site : TcpAssertion) (sys : Sys) :
    Apart sys (sys.assert holds site) := by
  unfold Sys.assert
  split
  · exact refl sys
  · exact note rfl sys

theorem closeSocket (sys : Sys) : Apart sys (sys.change Core.closeSocket) := by
  have same (core : Core) : core.closeSocket.client = core.client ∧
      core.closeSocket.calls = core.calls ∧ core.closeSocket.nextCall = core.nextCall := by
    unfold Core.closeSocket
    split <;> exact ⟨rfl, rfl, rfl⟩
  obtain ⟨client, calls, nextCall⟩ := same sys.state
  exact ⟨fun kind => congrArg (Client.pool · kind) client, calls, nextCall, .of_notes rfl⟩

/-- A change of the client beside its pools. -/
theorem client {act : Client → Client} {sys : Sys}
    (pool : ∀ kind, (act sys.state.client).pool kind = sys.state.client.pool kind) :
    Apart sys (sys.client act) :=
  ⟨pool, rfl, rfl, .of_notes rfl⟩

theorem fire (type : EvType) (sys : Sys) : Apart sys (sys.client (Client.fire type)) := by
  apply client
  intro kind
  cases type <;> cases kind <;> rfl

theorem queue (data : EventData) (sys : Sys) : Apart sys (sys.client (Client.queueEvent data)) := by
  apply client
  intro kind
  unfold Client.queueEvent
  split <;> cases kind <;> rfl

end Apart

/-- One thing that the calls can tell. -/
inductive UserStep (env : Env) (sys : Sys) : Sys → Prop where
  | apart {next : Sys} (apart : Apart sys next) : UserStep env sys next
  | act (act : Act) : UserStep env sys (Pomelo.act env sys act)
  | complete {kind : ReqKind} {key : Nat} {target : PendingReq} {client : Client}
      (found : sys.state.client.take kind key = some (target, client)) (rc : Int)
      (resp : Option CStr) :
      UserStep env sys ((sys.client fun _ => client).note (.sight (.completed kind target rc resp)))
  | release (kind : ReqKind) (target : PendingReq) :
      UserStep env sys (sys.client fun client => client.modifyPool kind (ReqPool.release target))

/-- Any number of them. -/
abbrev UserSteps (env : Env) : Sys → Sys → Prop := Relation.ReflTransGen (UserStep env)

namespace UserSteps

/-- What stays apart is no step of a user. -/
theorem of_apart (apart : Apart first second) : UserSteps env first second := .single (.apart apart)

theorem tcp (act : Transport → Transport) (sys : Sys) : UserSteps env sys (sys.tcp act) :=
  of_apart (.tcp act sys)

theorem assert (holds : Core → Bool) (site : TcpAssertion) (sys : Sys) :
    UserSteps env sys (sys.assert holds site) := of_apart (.assert holds site sys)

/-- A loop takes the steps of its passes. -/
theorem foldl {ι : Type} {step : Sys → ι → Sys} (steps : ∀ sys item, UserSteps env sys (step sys item))
    (items : List ι) (sys : Sys) : UserSteps env sys (items.foldl step sys) := by
  induction items generalizing sys with
  | nil => exact .refl
  | cons item items ih => exact (steps sys item).trans (ih (step sys item))

/-- The code of the user takes its own steps. -/
theorem upcall (sys : Sys) : UserSteps env sys (Pomelo.upcall env sys) := by
  have acts (sys : Sys) (act : Act) : UserSteps env sys (Pomelo.act env sys act) :=
    .single (.act act)
  have finished (sys : Sys) (call : Call) : UserSteps env sys (finishCall env sys call) := by
    unfold finishCall
    split
    · exact foldl acts _ sys
    · exact .refl
  exact (foldl acts _ sys).trans (foldl finished _ _)

/-- Something other than a completion is seen. -/
theorem see {sight : Sight} (apart : (Point.sight sight).apart) (sys : Sys) :
    UserSteps env sys ((loopReceiver env).see sight sys) := by
  have noted : UserSteps env sys (sys.note (.sight sight)) := of_apart (.note apart sys)
  cases sight with
  | event handler type arg1 arg2 => exact noted.trans (upcall _)
  | completed kind req rc resp => exact absurd apart Bool.false_ne_true
  | stateAssertion type state => exact noted
  | rcStrAssertion rc => exact noted
  | eventAssertion event => exact noted

/-- The assertion about a code is apart. -/
theorem rcStr (rc : Int) (sys : Sys) :
    UserSteps env sys (pcClientRcStr (loopReceiver env) rc sys) := by
  unfold pcClientRcStr Receiver.assert
  split
  · exact .refl
  · exact see rfl sys

/-- An event runs the code of its handlers. -/
theorem fireEvent (type : EvType) (arg1 arg2 : Option CStr) (sys : Sys) :
    UserSteps env sys (Pomelo.fireEvent env type arg1 arg2 sys) := by
  have noted : UserSteps env sys (sys.note (.fire type)) := of_apart (.note rfl sys)
  unfold Pomelo.fireEvent
  apply noted.trans
  generalize sys.note (.fire type) = noted
  unfold pcTransFireEvent
  split
  · rw [pcTransQueueEvent, EvType.ofCode?_code]
    dsimp only
    split
    · exact of_apart (.queue _ _)
    · exact .refl
  · rw [pcTransFireEventNow, EvType.ofCode?_code]
    dsimp only
    split
    · unfold pcTransFire Receiver.assert
      have asserted : UserSteps env noted (if noted.state.client.allows type then noted
          else (loopReceiver env).see (.stateAssertion type noted.state.client.state) noted) := by
        split
        · exact .refl
        · exact see rfl _
      exact (asserted.trans (of_apart (.fire type _))).trans
        (foldl (fun sys handler => see rfl sys) _ _)
    · exact .refl

/-- A completion runs the code of its callback. -/
theorem completeNow (kind : ReqKind) (key : Nat) (rc : Int) (resp : Option CStr) (sys : Sys) :
    UserSteps env sys (pcTransCompleteNow (loopReceiver env) kind key rc resp sys) := by
  unfold pcTransCompleteNow
  cases found : ((loopReceiver env).client sys).take kind key with
  | none => exact .refl
  | some taken =>
      obtain ⟨target, client⟩ := taken
      have found : (pcClientRcStr (loopReceiver env) rc sys).state.client.take kind key =
          some (target, client) := by
        rw [client_pcClientRcStr]
        exact found
      exact (((rcStr rc sys).tail (.complete found rc resp)).trans (upcall _)).tail
        (.release kind target)

theorem resp (reqId : Nat) (rc : Int) (resp : Option CStr) (sys : Sys) :
    UserSteps env sys
      (pcTransResp (loopReceiver env) env.config.enablePolling reqId rc resp sys) := by
  unfold pcTransResp
  split
  · exact (rcStr rc sys).trans (of_apart (.queue _ _))
  · exact completeNow .request reqId rc resp sys

theorem sent (seqNum : Nat) (rc : Int) (sys : Sys) :
    UserSteps env sys (pcTransSent (loopReceiver env) env.config.enablePolling seqNum rc sys) := by
  unfold pcTransSent
  split
  · exact (rcStr rc sys).trans (of_apart (.queue _ _))
  · exact completeNow .notify seqNum rc none sys

/-- An item that is dropped runs its callback. -/
theorem dropItem (item : WriteItem) (rc : Int) (sys : Sys) :
    UserSteps env sys (Pomelo.dropItem env item rc sys) := by
  have completed : UserSteps env sys (completeItem env item rc sys) := by
    unfold completeItem
    split
    · exact resp item.reqId rc none sys
    · exact sent item.seqNum rc sys
    · exact .refl
  exact completed.trans (of_apart (.wq _ _))

/-- A queue that is dropped runs them all. -/
theorem dropItems (queue : WiQueue) (rc : Int) (passes : Nat) (sys : Sys) :
    UserSteps env sys (Pomelo.dropItems env queue rc passes sys) := by
  induction passes generalizing sys with
  | zero => exact .refl
  | succ passes ih =>
      unfold Pomelo.dropItems
      split
      · exact .refl
      · exact ((of_apart (.wq _ sys)).trans (dropItem _ rc _)).trans (ih _)

/-- A reset runs the callbacks of what it drops. -/
theorem tcpReset (sys : Sys) : UserSteps env sys (Pomelo.tcpReset env sys) := by
  have stopped : Apart sys (((sys.note .reset).tcp Transport.stopAll).change Core.closeSocket) :=
    ((Apart.note rfl sys).trans (.tcp _ _)).trans (.closeSocket _)
  have items (sys : Sys) : UserSteps env sys (resetItems env sys) :=
    (((of_apart ((Apart.hold true sys).trans (.wq _ _))).trans (dropItems ..)).trans
      (dropItems ..)).trans (of_apart (.hold false _))
  exact ((of_apart stopped).trans (items _)).trans (of_apart (.note rfl _))

theorem giveUp (reason : String) (sys : Sys) : UserSteps env sys (Pomelo.giveUp env reason sys) :=
  ((fireEvent .connectFailed _ _ sys).trans (of_apart (.note rfl _))).trans (tcp _ _)

theorem reconnAgain (sys : Sys) : UserSteps env sys (Pomelo.reconnAgain env sys) := by
  have armed (sys : Sys) : UserSteps env sys (armReconn env sys) := by
    unfold armReconn
    dsimp only
    split
    · exact (tcp _ sys).trans (of_apart (.crash _ _))
    next delay _ =>
      have noted (sys : Sys) : Apart sys (sys.note (.reconnArmed delay)) := .note rfl sys
      exact of_apart (((Apart.tcp _ sys).trans (noted _)).trans (.tcp _ _))
  unfold Pomelo.reconnAgain
  split
  · exact (tcp _ sys).trans (giveUp _ _)
  · dsimp only
    split
    · exact ((tcp _ sys).trans (tcp _ _)).trans (giveUp _ _)
    · exact ((tcp _ sys).trans (tcp _ _)).trans (armed _)

theorem tcpReconn (sys : Sys) : UserSteps env sys (Pomelo.tcpReconn env sys) :=
  ((of_apart (.note rfl sys)).trans (tcpReset _)).trans (reconnAgain _)

/-- An event is fired, and another attempt follows. -/
theorem fire_tcpReconn (type : EvType) (reason : String) (sys : Sys) :
    UserSteps env sys (Pomelo.tcpReconn env (fireReason env type reason sys)) :=
  (fireEvent type _ _ sys).trans (tcpReconn _)

theorem sendFirst (buf : UvBuf) (sys : Sys) : UserSteps env sys (Pomelo.sendFirst buf sys) := by
  unfold Pomelo.sendFirst
  exact of_apart ((Apart.wq _ sys).trans (.tcp _ _))

/-- Starting an attempt runs no code, unless it fails. -/
theorem startAttempt (resolved : Bool) (ret : Int) (sys : Sys) :
    UserSteps env sys (Pomelo.startAttempt env resolved ret sys) := by
  have begun : UserSteps env sys (beginAttempt sys) := by
    unfold beginAttempt
    exact of_apart ((((Apart.note rfl sys).trans (.tcp _ _)).trans (.assert _ _ _)).trans (.tcp _ _))
  unfold Pomelo.startAttempt
  dsimp only
  split
  · exact begun.trans (fire_tcpReconn ..)
  split
  · exact begun.trans (fire_tcpReconn ..)
  split
  · exact (begun.trans (tcp _ _)).trans (tcp _ _)
  · exact begun.trans (tcp _ _)

theorem tcpConnAsyncCb (resolved : Bool) (ret : Int) (sys : Sys) :
    UserSteps env sys (Pomelo.tcpConnAsyncCb env resolved ret sys) := by
  unfold Pomelo.tcpConnAsyncCb
  dsimp only
  split
  · exact tcp _ sys
  · exact (tcp _ sys).trans (startAttempt ..)

theorem tcpSendHandshake (sys : Sys) : UserSteps env sys (Pomelo.tcpSendHandshake env sys) := by
  unfold Pomelo.tcpSendHandshake
  dsimp only
  split
  · exact of_apart (((Apart.assert _ _ sys).trans (.assert _ _ _)).trans (.crash _ _))
  · exact (of_apart ((Apart.assert _ _ sys).trans (.assert _ _ _))).trans (sendFirst ..)

/-- The end of the attempt runs the handlers. -/
theorem tcpConnDoneCb (status ret : Int) (sys : Sys) :
    UserSteps env sys (Pomelo.tcpConnDoneCb env status ret sys) := by
  have up (hsTimeout : Int) (sys : Sys) : UserSteps env sys (connDoneUp env hsTimeout ret sys) := by
    unfold connDoneUp
    dsimp only
    split
    · exact (tcp _ sys).trans (tcpReconn _)
    split
    · exact (((tcp _ sys).trans (tcp _ _)).trans (tcpSendHandshake _)).trans (tcp _ _)
    · exact ((tcp _ sys).trans (tcp _ _)).trans (tcpSendHandshake _)
  unfold Pomelo.tcpConnDoneCb
  dsimp only
  split
  · exact ((assert _ _ sys).trans (tcp _ _)).trans (up _ _)
  split
  · exact ((assert _ _ sys).trans (tcp _ _)).trans (fire_tcpReconn ..)
  · exact ((assert _ _ sys).trans (tcp _ _)).trans (fire_tcpReconn ..)

/-- A write that is refused runs the callbacks. -/
theorem tcpWriteAsyncCb (ret : Int) (sys : Sys) :
    UserSteps env sys (Pomelo.tcpWriteAsyncCb env ret sys) := by
  have drained (sys : Sys) : UserSteps env sys (drainPending sys) := by
    unfold drainPending
    split
    · exact of_apart (.wq _ sys)
    · exact .refl
  have written (need : Bool) (sys : Sys) : UserSteps env sys (writeItems env need ret sys) := by
    have begun : Apart sys ((sys.note (.write sys.state.tcp.wq.writeWait ret)).wq
        WriteQueues.beginWrite) := (Apart.note rfl sys).trans (.wq _ _)
    unfold writeItems
    split
    · exact ((of_apart (begun.trans (.hold true _))).trans (dropItems ..)).trans
        (of_apart (.hold false _))
    · exact of_apart ((begun.trans (.tcp _ _)).trans (.tcp _ _))
  unfold Pomelo.tcpWriteAsyncCb
  dsimp only
  split
  · exact tcp _ sys
  split
  · exact ((tcp _ sys).trans (drained _)).trans (tcp _ _)
  · exact ((tcp _ sys).trans (drained _)).trans (written _ _)

theorem tcpWriteDoneCb (status : Int) (sys : Sys) :
    UserSteps env sys (Pomelo.tcpWriteDoneCb env status sys) := by
  have finished (rc : Int) (passes : Nat) (sys : Sys) :
      UserSteps env sys (finishWrites env rc passes sys) := by
    induction passes generalizing sys with
    | zero => exact .refl
    | succ passes ih =>
        unfold finishWrites
        split
        · exact .refl
        · dsimp only
          split
          · exact (of_apart ((Apart.wq _ sys).trans (.wq _ _))).trans (ih _)
          · exact ((of_apart (.wq _ sys)).trans (dropItem _ rc _)).trans (ih _)
  unfold Pomelo.tcpWriteDoneCb
  exact (((of_apart (((Apart.assert _ _ sys).trans (.tcp _ _)).trans (.hold true _))).trans
    (finished ..)).trans (of_apart (.hold false _))).trans (tcp _ _)

theorem tcpWriteCheckTimeoutCb (sys : Sys) :
    UserSteps env sys (Pomelo.tcpWriteCheckTimeoutCb env sys) := by
  have looked (queue : WiQueue) (ct passes : Nat) (cont : Bool) (sys : Sys) :
      UserSteps env sys (checkQueueLoop env queue ct passes cont sys).1 := by
    induction passes generalizing cont sys with
    | zero => exact of_apart (.crash _ sys)
    | succ passes ih =>
        unfold checkQueueLoop
        split
        · exact .refl
        · dsimp only
          split
          · exact ((of_apart (.wq _ sys)).trans (dropItem ..)).trans (ih _ _)
          · exact (of_apart ((Apart.wq _ sys).trans (.wq _ _))).trans (ih _ _)
  have checked (queue : WiQueue) (cont : Bool) (sys : Sys) :
      UserSteps env sys (tcpCheckQueueTimeout env queue cont sys).1 :=
    ((of_apart (.wq _ sys)).trans (looked ..)).trans (of_apart (.wq _ _))
  exact (((((of_apart (.hold true sys)).trans (checked ..)).trans (checked ..)).trans
    (checked ..)).trans (of_apart (.hold false _))).trans (tcp _ _)

/-- A message runs the callback of its request, or the handlers. -/
theorem onMessage (msg : PcMsg) (sys : Sys) : UserSteps env sys (Pomelo.onMessage env msg sys) := by
  have answered (reqId : Nat) (text : CStr) (sys : Sys) :
      UserSteps env sys (onResponse env reqId text sys) :=
    ((resp reqId pcRcOk (some text) sys).trans (assert _ _ _)).trans (of_apart (.wq _ _))
  unfold Pomelo.onMessage
  split
  · exact fire_tcpReconn ..
  split
  · exact fire_tcpReconn ..
  split
  · exact fire_tcpReconn ..
  dsimp only
  split
  · exact (assert _ _ sys).trans (answered _ _ _)
  · exact (assert _ _ sys).trans (fireEvent ..)

theorem handshakeFailed (sys : Sys) : UserSteps env sys (Pomelo.handshakeFailed env sys) :=
  (fireEvent .connectFailed _ _ sys).trans (tcpReset _)

theorem handshakeAccepted (result : HandshakeResult) (sys : Sys) :
    UserSteps env sys (Pomelo.handshakeAccepted env result sys) := by
  have stored (need : Bool) (sys : Sys) : UserSteps env sys (storeHandshake env need sys) := by
    unfold storeHandshake
    split
    · split
      · exact .refl
      · exact of_apart ⟨fun _ => rfl, rfl, rfl, .of_notes rfl⟩
    · exact .refl
  have done (sys : Sys) : UserSteps env sys (handshakeDone env sys) := by
    unfold handshakeDone
    exact ((tcp _ sys).trans (fireEvent ..)).trans (tcp _ _)
  exact ((((((assert _ _ sys).trans (assert _ _ _)).trans (tcp _ _)).trans (stored _ _)).trans
    (sendFirst ..))).trans (done _)

/-- The answer of the server runs the handlers. -/
theorem tcpOnHandshakeResp (data : Option Bytes) (sys : Sys) :
    UserSteps env sys (Pomelo.tcpOnHandshakeResp env data sys) := by
  have answered (res : Json) (sys : Sys) : UserSteps env sys (onHandshakeRes env res sys) := by
    unfold onHandshakeRes
    split
    · exact of_apart (.crash _ sys)
    · exact handshakeFailed sys
    split
    · exact of_apart (.crash _ sys)
    · exact handshakeAccepted ..
  unfold Pomelo.tcpOnHandshakeResp
  dsimp only
  split
  · exact (((assert _ _ sys).trans (tcp _ _)).trans (handshakeFailed _)).trans
      (of_apart (.crash _ _))
  · exact ((assert _ _ sys).trans (tcp _ _)).trans (answered _ _)

/-- Handling a package is a sequence of user steps. -/
theorem trTcpOnPkgHandler (type : UInt8) (data : Option Bytes) (len : Nat) (sys : Sys) :
    UserSteps env sys (Pomelo.trTcpOnPkgHandler env type data len sys) := by
  have noted : UserSteps env sys (sys.note (.package type data)) := of_apart (.note rfl sys)
  unfold Pomelo.trTcpOnPkgHandler
  dsimp only
  split
  · exact (noted.trans (assert _ _ _)).trans (tcpOnHandshakeResp ..)
  · apply (noted.trans (assert _ _ _)).trans
    unfold tcpOnHeartbeat
    split
    · exact .refl
    · exact ((assert _ _ _).trans (assert _ _ _)).trans (tcp _ _)
  · apply (noted.trans (assert _ _ _)).trans
    unfold tcpOnDataRecieved
    split
    · exact of_apart ((Apart.note rfl _).trans (.crash _ _))
    · exact of_apart (.crash _ _)
    · exact onMessage ..
  · exact ((noted.trans (assert _ _ _)).trans (fireEvent ..)).trans (tcpReset _)
  · exact noted.trans (assert _ _ _)

theorem runLoop {event : LoopEvent} (other : ∀ data, event ≠ .read data) (sys : Sys) :
    UserSteps env sys (Pomelo.runLoop env event sys) := by
  unfold Pomelo.runLoop
  cases event with
  | connAsync resolved ret => exact tcpConnAsyncCb ..
  | writeAsync ret => exact tcpWriteAsyncCb ..
  | disconnectAsync =>
      exact (((tcp _ sys).trans (tcpReset _)).trans (tcp _ _)).trans (fireEvent ..)
  | cleanupAsync =>
      have closed (sys : Sys) : Apart sys sys.cleanUp := ⟨fun _ => rfl, rfl, rfl, .of_notes rfl⟩
      exact ((tcp _ sys).trans (tcpReset _)).trans (of_apart (closed _))
  | reconnDelayTimer =>
      unfold tcpReconnDelayTimerCb
      exact tcp _ sys
  | connTimeout =>
      unfold tcpConnTimeoutCb
      exact (assert _ _ sys).trans (tcp _ _)
  | handshakeTimer => exact (tcp _ sys).trans (fire_tcpReconn ..)
  | checkTimeout => exact (tcp _ sys).trans (tcpWriteCheckTimeoutCb _)
  | hbTimer =>
      have sent (sys : Sys) : UserSteps env sys (tcpSendHeartbeat env sys) := by
        unfold tcpSendHeartbeat sendLast
        exact of_apart (((Apart.assert _ _ sys).trans (.wq _ _)).trans (.tcp _ _))
      unfold tcpHeartbeatTimerCb
      exact (((tcp _ sys).trans (assert _ _ _)).trans (sent _)).trans (tcp _ _)
  | hbTimeoutTimer => exact ((tcp _ sys).trans (assert _ _ _)).trans (fire_tcpReconn ..)
  | connDone status ret => exact tcpConnDoneCb ..
  | writeDone status => exact tcpWriteDoneCb ..
  | readError => exact fire_tcpReconn ..
  | read data => exact absurd rfl (other data)

end UserSteps

/-- The notes so far are kept. -/
theorem UserStep.suffix (step : UserStep env first second) : first.notes <:+ second.notes := by
  cases step with
  | apart apart => exact apart.notes.suffix
  | act act => exact (Quiet.of_deliver (.act act)).notes.suffix
  | complete found rc resp => exact List.suffix_cons _ _
  | release kind target => exact List.suffix_refl _

/-- What is kept by each of the things that the calls can tell is kept by every step of the
system. -/
theorem keeps_of_userStep
    (keep : ∀ {first second}, UserStep env first second → inv first → inv second)
    (step : Step env first second) : Keeps (fun _ _ => True) inv first second := by
  have keeps {first second : Sys} (steps : UserSteps env first second) :
      Keeps (fun _ _ => True) inv first second := by
    induction steps with
    | refl => exact Leads.refl _
    | tail _ last ih => exact ih.trans ⟨last.suffix, fun _ => keep last⟩
  apply leads_acts_step id _ _ _ _ _ _ step
  · exact fun sys act => keeps (.single (.act act))
  · exact fun milliseconds holds => keep (.apart (.tcp _ _)) holds
  · exact fun parser holds => keep (.apart (.tcp _ _)) holds
  · intro event first ready other
    have noted : Keeps (fun _ _ => True) inv first (first.note (.callback event)) :=
      keeps (.of_apart (.note rfl first))
    exact noted.trans (keeps (.runLoop other _))
  · exact fun holds => keep (.apart (.note rfl _)) holds
  · exact fun type data len first running => keeps (.trTcpOnPkgHandler type data len first)

end Pomelo
