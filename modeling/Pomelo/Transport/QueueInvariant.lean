import Pomelo.Transport.Queues

/-!
# Invariants of the queues

What the transport does to its queues, one operation at a time. An invariant that does
not see the rest of the transport is shown by going through these operations: user code,
the loops that drop items, the packages of the transport's own, the drain and the write of
`tcp__write_async_cb`, the checks for timeouts and the answers.
-/

namespace Pomelo

open Transition Recorded

variable {env : Env} {cond : Point → Core → Prop} {inv : Sys → Prop} {first second third : Sys}

/-- The notes that neither the queues nor the client have to do with. -/
def Point.besideQueues : Point → Bool
  | .attempt | .write .. | .accepted _ | .sight _ | .call .. | .returned .. => false
  | _ => true

/-- The queues, the client and the calls are the same. -/
structure Beside (first second : Sys) : Prop where
  wq : second.state.tcp.wq = first.state.tcp.wq
  nextBorn : second.state.nextBorn = first.state.nextBorn
  client : second.state.client = first.state.client
  calls : second.state.calls = first.state.calls
  notes : Adds Point.besideQueues first second

namespace Beside

/-- One step beside the queues after another. -/
theorem trans (left : Beside first second) (right : Beside second third) : Beside first third where
  wq := right.wq.trans left.wq
  nextBorn := right.nextBorn.trans left.nextBorn
  client := right.client.trans left.client
  calls := right.calls.trans left.calls
  notes := left.notes.trans right.notes

theorem note {point : Point} (beside : point.besideQueues) (sys : Sys) :
    Beside sys (sys.note point) :=
  ⟨rfl, rfl, rfl, rfl, Adds.note beside sys⟩

/-- A change of the transport beside its queues. -/
theorem tcp {act : Transport → Transport} (sys : Sys)
    (wq : (act sys.state.tcp).wq = sys.state.tcp.wq) : Beside sys (sys.tcp act) :=
  ⟨wq, rfl, rfl, rfl, .of_notes rfl⟩

theorem hold (held : Bool) (sys : Sys) : Beside sys (sys.hold held) :=
  ⟨rfl, rfl, rfl, rfl, .of_notes rfl⟩

theorem crash (stop : Stop) (sys : Sys) : Beside sys (sys.crash stop) :=
  ⟨rfl, rfl, rfl, rfl, Adds.note rfl sys⟩

/-- Closing the socket touches no queue. -/
theorem closeSocket (sys : Sys) : Beside sys (sys.change Core.closeSocket) := by
  have closed (core : Core) : core.closeSocket.tcp.wq = core.tcp.wq ∧
      core.closeSocket.nextBorn = core.nextBorn ∧ core.closeSocket.client = core.client ∧
      core.closeSocket.calls = core.calls := by
    rw [Core.closeSocket]
    split <;> exact ⟨rfl, rfl, rfl, rfl⟩
  obtain ⟨wq, nextBorn, client, calls⟩ := closed sys.state
  exact ⟨wq, nextBorn, client, calls, .of_notes rfl⟩

theorem cleanUp (sys : Sys) : Beside sys sys.cleanUp := ⟨rfl, rfl, rfl, rfl, .of_notes rfl⟩

theorem of_plain (plain : Plain first second) : Beside first second where
  wq := plain.tcp.wq
  nextBorn := plain.nextBorn
  client := plain.client
  calls := plain.calls
  notes := by
    refine Adds.mono (fun point plain => ?_) plain.notes
    cases point <;> first | rfl | exact absurd plain Bool.false_ne_true

end Beside

/-- A package of the transport's own is queued before or behind the others. -/
def WriteQueues.push (ahead : Bool) (item : WriteItem) (queues : WriteQueues) : WriteQueues :=
  { queues.allocate item.slot with
    writeWait := if ahead then item :: queues.writeWait else queues.writeWait ++ [item] }

/-- A request that has been written waits for its answer. -/
def WriteQueues.await (item : WriteItem) (rest : List WriteItem) (queues : WriteQueues) :
    WriteQueues :=
  { queues with writing := rest, respPending := queues.respPending ++ [item] }

/-- The operations that leave the connection alone keep an invariant. -/
structure QueueRules (env : Env) (cond : Point → Core → Prop) (inv : Sys → Prop) : Prop where
  aside : ∀ {first second}, Beside first second →
    second.state.tcp.link = first.state.tcp.link → inv first → inv second
  deliver : ∀ {first second}, Deliver env first second → Keeps cond inv first second
  drop : ∀ {sys : Sys} {queue item rest} (rc : Int), queue = .writing ∨ queue = .respPending →
    sys.state.tcp.wq.items queue = item :: rest →
    Keeps cond inv sys (dropItem env item rc (sys.wq (WriteQueues.setItems queue rest)))
  drain : ∀ {sys : Sys}, sys.state.tcp.state = .done → inv sys → inv (sys.wq WriteQueues.drain)
  write : ∀ {sys : Sys} (ret : Int), sys.state.tcp.isWriting = false → inv sys →
    inv ((sys.note (.write sys.state.tcp.wq.writeWait ret)).wq WriteQueues.beginWrite)
  await : ∀ {sys : Sys} {item rest}, sys.state.tcp.wq.writing = item :: rest →
    item.type = .resp → inv sys → inv (sys.wq (WriteQueues.await item rest))
  check : ∀ {sys : Sys} (queue : WiQueue) (cont : Bool), queue ≠ .writing →
    Keeps cond inv sys (tcpCheckQueueTimeout env queue cont sys).1

/-- The operations keep an invariant of the queues that does not see the connection. -/
structure QueueInvariant (env : Env) (cond : Point → Core → Prop) (inv : Sys → Prop) : Prop
    extends QueueRules env cond inv where
  beside : ∀ {first second}, Beside first second → inv first → inv second
  attempt : ∀ {sys : Sys}, inv sys → inv (sys.note .attempt)
  gather : ∀ {sys : Sys}, inv sys → inv (sys.wq WriteQueues.gather)
  push : ∀ {sys : Sys} {buf} (ahead : Bool), inv sys →
    inv (sys.wq (WriteQueues.push ahead (sys.state.internalItem buf)))
  answer : ∀ {first second : Sys} {reqId : Nat} {text : CStr},
    Plain (pcTransResp (loopReceiver env) env.config.enablePolling reqId pcRcOk (some text) first)
      second → Keeps cond inv first (second.wq (WriteQueues.answer reqId))

namespace QueueRules

variable (rules : QueueRules env cond inv)

include rules

/-- What happens beside the queues and leaves the link keeps the invariant. -/
theorem keeps (beside : Beside first second)
    (link : second.state.tcp.link = first.state.tcp.link) : Keeps cond inv first second :=
  ⟨beside.notes.suffix, fun _ => rules.aside beside link⟩

theorem tcp {act : Transport → Transport} {sys : Sys}
    (link : (act sys.state.tcp).link = sys.state.tcp.link)
    (wq : (act sys.state.tcp).wq = sys.state.tcp.wq) : Keeps cond inv sys (sys.tcp act) :=
  rules.keeps (.tcp sys wq) link

theorem hold (held : Bool) (sys : Sys) : Keeps cond inv sys (sys.hold held) :=
  rules.keeps (.hold held sys) rfl

theorem plain (plain : Plain first second) : Keeps cond inv first second :=
  rules.keeps (.of_plain plain) plain.tcp.link

theorem fireEvent (type : EvType) (arg1 arg2 : Option CStr) (sys : Sys) :
    Keeps cond inv sys (Pomelo.fireEvent env type arg1 arg2 sys) := by
  have noted : Keeps cond inv sys (sys.note (.fire type)) := rules.keeps (.note rfl sys) rfl
  exact noted.trans (keeps_delivered rules.deliver (delivered_fireEvent type arg1 arg2 sys))

/-- Dropping the queue of written or answered items keeps it. -/
theorem dropItems {queue : WiQueue} (which : queue = .writing ∨ queue = .respPending) (rc : Int)
    (passes : Nat) (sys : Sys) : Keeps cond inv sys (Pomelo.dropItems env queue rc passes sys) := by
  induction passes generalizing sys with
  | zero => exact Leads.refl sys
  | succ passes ih =>
      rw [Pomelo.dropItems]
      split
      · exact Leads.refl sys
      next items => exact (rules.drop rc which items).trans (ih _)

/-- Writing the queues keeps it where nothing is being written. -/
theorem writeItems (needCheck : Bool) (ret : Int) (sys : Sys)
    (idle : sys.state.tcp.isWriting = false) :
    Keeps cond inv sys (Pomelo.writeItems env needCheck ret sys) := by
  have begun : Keeps cond inv sys ((sys.note (.write sys.state.tcp.wq.writeWait ret)).wq
      WriteQueues.beginWrite) := ⟨List.suffix_cons _ _, fun _ => rules.write ret idle⟩
  rw [Pomelo.writeItems]
  split
  · exact ((begun.trans (rules.hold true _)).trans
      (rules.dropItems (.inl rfl) ..)).trans (rules.hold false _)
  · exact (begun.trans (rules.tcp rfl rfl)).trans (rules.plain (.startCheck ..))

theorem tcpWriteAsyncCb (ret : Int) (sys : Sys) :
    Keeps cond inv sys (Pomelo.tcpWriteAsyncCb env ret sys) := by
  have cleared : Keeps cond inv sys (sys.tcp fun tcp => { tcp with writeAsync := false }) :=
    rules.tcp rfl rfl
  have drained (sys : Sys) : Keeps cond inv sys (drainPending sys) := by
    rw [drainPending]
    split
    next done => exact ⟨List.suffix_refl _, fun _ => rules.drain done⟩
    · exact Leads.refl sys
  rw [Pomelo.tcpWriteAsyncCb]
  dsimp only
  split
  · exact cleared
  next other =>
    split
    · exact (cleared.trans (drained _)).trans (rules.plain (.startCheck ..))
    · refine (cleared.trans (drained _)).trans (rules.writeItems _ ret _ ?_)
      have idle := Bool.eq_false_of_not_eq_true (not_or.mp other).2
      rw [drainPending]
      split <;> exact idle

theorem finishWrites (rc : Int) (passes : Nat) (sys : Sys) :
    Keeps cond inv sys (Pomelo.finishWrites env rc passes sys) := by
  induction passes generalizing sys with
  | zero => exact Leads.refl sys
  | succ passes ih =>
      rw [Pomelo.finishWrites]
      split
      · exact Leads.refl sys
      next item rest items =>
        dsimp only
        split
        next waits =>
          have awaited : Keeps cond inv sys (sys.wq (WriteQueues.await item rest)) :=
            ⟨List.suffix_refl _, fun _ => rules.await items waits.2⟩
          exact awaited.trans (ih _)
        · exact (rules.drop rc (.inl rfl) items).trans (ih _)

theorem tcpWriteDoneCb (status : Int) (sys : Sys) :
    Keeps cond inv sys (Pomelo.tcpWriteDoneCb env status sys) := by
  have begun (sys : Sys) : Keeps cond inv sys
      ((sys.tcp fun tcp => { tcp with isWriting := false }).hold true) :=
    rules.keeps ((Beside.tcp sys rfl).trans (.hold true _)) rfl
  have ended (sys : Sys) : Keeps cond inv sys
      ((sys.hold false).tcp fun tcp => { tcp with writeAsync := true }) :=
    rules.keeps ((Beside.hold false sys).trans (.tcp _ rfl)) rfl
  exact (((rules.plain (.assert _ _ sys)).trans (begun _)).trans
    (rules.finishWrites ..)).trans (ended _)

theorem tcpWriteCheckTimeoutCb (sys : Sys) :
    Keeps cond inv sys (Pomelo.tcpWriteCheckTimeoutCb env sys) := by
  have ended (cont : Bool) (sys : Sys) :
      Keeps cond inv sys ((sys.hold false).tcp (Transport.startCheck cont)) :=
    (rules.hold false sys).trans (rules.plain (.startCheck ..))
  exact ((((rules.hold true sys).trans (rules.check .connPending _ nofun)).trans
    (rules.check .writeWait _ nofun)).trans (rules.check .respPending _ nofun)).trans
      (ended _ _)

end QueueRules

namespace QueueInvariant

variable (invariant : QueueInvariant env cond inv)

include invariant

/-- Where the link does not matter, neither does what happens to it. -/
theorem keeps (beside : Beside first second) : Keeps cond inv first second :=
  ⟨beside.notes.suffix, fun _ => invariant.beside beside⟩

theorem tcp {act : Transport → Transport} {sys : Sys}
    (wq : (act sys.state.tcp).wq = sys.state.tcp.wq) : Keeps cond inv sys (sys.tcp act) :=
  invariant.keeps (.tcp sys wq)

/-- The reset of the items keeps the invariant. -/
theorem resetItems (sys : Sys) : Keeps cond inv sys (Pomelo.resetItems env sys) := by
  have gathered : Keeps cond inv (sys.hold true) ((sys.hold true).wq WriteQueues.gather) :=
    ⟨List.suffix_refl _, fun _ => invariant.gather⟩
  have begun := (invariant.keeps (.hold true sys)).trans gathered
  exact ((begun.trans (invariant.dropItems (.inl rfl) ..)).trans
    (invariant.dropItems (.inr rfl) ..)).trans (invariant.keeps (.hold false _))

theorem tcpReset (sys : Sys) : Keeps cond inv sys (Pomelo.tcpReset env sys) := by
  have stopped : Beside sys (((sys.note .reset).tcp Transport.stopAll).change Core.closeSocket) :=
    ((Beside.note rfl sys).trans (.tcp _ rfl)).trans (.closeSocket _)
  exact ((invariant.keeps stopped).trans (invariant.resetItems _)).trans
    (invariant.keeps (.note rfl _))

theorem giveUp (reason : String) (sys : Sys) :
    Keeps cond inv sys (Pomelo.giveUp env reason sys) := by
  have ended (sys : Sys) : Beside sys ((sys.note .gaveUp).tcp fun tcp =>
      { tcp with reconnTimes := 0, state := .notConn }) := (Beside.note rfl sys).trans (.tcp _ rfl)
  exact (invariant.fireEvent _ _ _ sys).trans (invariant.keeps (ended _))

theorem armReconn (sys : Sys) : Keeps cond inv sys (Pomelo.armReconn env sys) := by
  rw [Pomelo.armReconn]
  split
  · exact invariant.keeps ((Beside.tcp sys rfl).trans (.crash _ _))
  next delay _ =>
    have noted (sys : Sys) : Beside sys (sys.note (.reconnArmed delay)) := .note rfl sys
    exact invariant.keeps (((Beside.tcp sys rfl).trans (noted _)).trans (.tcp _ rfl))

theorem reconnAgain (sys : Sys) : Keeps cond inv sys (Pomelo.reconnAgain env sys) := by
  have again : Keeps cond inv sys (sys.tcp fun tcp => { tcp with state := .connecting }) :=
    invariant.tcp rfl
  rw [Pomelo.reconnAgain]
  split
  · exact again.trans (invariant.giveUp _ _)
  · have counted (sys : Sys) : Keeps cond inv sys (sys.tcp fun tcp =>
      { tcp with reconnTimes := toInt32 (tcp.reconnTimes + 1) }) := invariant.tcp rfl
    dsimp only
    split
    · exact (again.trans (counted _)).trans (invariant.giveUp _ _)
    · exact (again.trans (counted _)).trans (invariant.armReconn _)

theorem tcpReconn (sys : Sys) : Keeps cond inv sys (Pomelo.tcpReconn env sys) :=
  ((invariant.keeps (.note rfl sys)).trans (invariant.tcpReset _)).trans (invariant.reconnAgain _)

theorem fire_tcpReconn (type : EvType) (arg1 arg2 : Option CStr) (sys : Sys) :
    Keeps cond inv sys (Pomelo.tcpReconn env (Pomelo.fireEvent env type arg1 arg2 sys)) :=
  (invariant.fireEvent type arg1 arg2 sys).trans (invariant.tcpReconn _)

theorem signalled (sys : Sys) :
    Keeps cond inv sys (sys.tcp fun tcp => { tcp with writeAsync := true }) := invariant.tcp rfl

/-- An internal package goes in front of the queue. -/
theorem sendFirst (buf : UvBuf) (sys : Sys) : Keeps cond inv sys (Pomelo.sendFirst buf sys) := by
  have pushed : Keeps cond inv sys (sys.wq (WriteQueues.push true (sys.state.internalItem buf))) :=
    ⟨List.suffix_refl _, fun _ => invariant.push true⟩
  exact pushed.trans (invariant.signalled _)

theorem sendLast (buf : UvBuf) (sys : Sys) : Keeps cond inv sys (Pomelo.sendLast buf sys) := by
  have pushed : Keeps cond inv sys (sys.wq (WriteQueues.push false (sys.state.internalItem buf))) :=
    ⟨List.suffix_refl _, fun _ => invariant.push false⟩
  exact pushed.trans (invariant.signalled _)

/-- Fields are set, and a plain step follows. -/
theorem tcp_plain {act : Transport → Transport}
    (wq : (act first.state.tcp).wq = first.state.tcp.wq)
    (after : Plain (first.tcp act) second) : Keeps cond inv first second :=
  (invariant.tcp wq).trans (invariant.plain after)

/-- A turn of the loop keeps the invariant. -/
theorem turn {event : LoopEvent} (turn : Turn env event (first.note (.callback event)) second) :
    Keeps cond inv first second := by
  have noted : Keeps cond inv first (first.note (.callback event)) :=
    invariant.keeps (.note rfl first)
  refine noted.trans ?_
  have attempt {mid next : Sys} (before : Plain (first.note (.callback event)) mid)
      (after : Plain mid.attempt next) : Keeps cond inv (first.note (.callback event)) next := by
    have begun : Keeps cond inv mid (mid.note .attempt) :=
      ⟨List.suffix_cons _ _, fun _ => invariant.attempt⟩
    exact ((invariant.plain before).trans begun).trans (invariant.tcp_plain rfl after)
  cases turn with
  | plain plain => exact invariant.plain plain
  | attempt idle before between after =>
      exact (attempt before between).trans (invariant.tcp_plain rfl after)
  | attemptFails reason idle before after =>
      exact (attempt before after).trans (invariant.fire_tcpReconn ..)
  | @connects last buf timer handshake connecting up after =>
      have connected : Keeps cond inv (first.note (.callback event)) last :=
        invariant.tcp_plain rfl after
      exact (connected.trans (invariant.sendFirst buf last)).trans (invariant.tcp rfl)
  | @connectsUnsent last timer connecting up after =>
      have connected : Keeps cond inv (first.note (.callback event)) last :=
        invariant.tcp_plain rfl after
      exact (connected.trans (invariant.plain (.crash _ last))).trans (invariant.tcp rfl)
  | readFails connecting after =>
      exact (invariant.tcp_plain rfl after).trans (invariant.tcpReconn _)
  | connectFails reason connecting after =>
      exact (invariant.tcp_plain rfl after).trans (invariant.fire_tcpReconn ..)
  | connTimeout after => exact invariant.tcp_plain rfl after
  | handshakeLate late active =>
      exact Leads.trans (invariant.tcp rfl) (invariant.fire_tcpReconn ..)
  | heartbeatLate active after =>
      exact (invariant.tcp_plain rfl after).trans (invariant.fire_tcpReconn ..)
  | readError reading up => exact invariant.fire_tcpReconn ..
  | @heartbeat mid last timer active before after =>
      have stopped : Keeps cond inv (first.note (.callback event)) mid :=
        invariant.tcp_plain rfl before
      exact (stopped.trans (invariant.sendLast _ mid)).trans (invariant.tcp_plain rfl after)
  | reconnDelay active => exact invariant.tcp rfl
  | disconnected before after =>
      exact (((invariant.plain before).trans (invariant.tcpReset _)).trans
        (invariant.plain after)).trans (invariant.fireEvent ..)
  | cleanedUp before =>
      exact ((invariant.plain before).trans (invariant.tcpReset _)).trans
        (invariant.keeps (.cleanUp _))
  | writes ret => exact invariant.tcpWriteAsyncCb ret _
  | written status done writing => exact invariant.tcpWriteDoneCb status _
  | checks active => exact Leads.trans (invariant.tcp rfl) (invariant.tcpWriteCheckTimeoutCb _)

theorem package {type : UInt8} {data : Option Bytes}
    (handles : Handles env type (first.note (.package type data)) second) :
    Keeps cond inv first second := by
  have noted : Keeps cond inv first (first.note (.package type data)) :=
    invariant.keeps (.note rfl first)
  refine noted.trans ?_
  cases handles with
  | plain plain => exact invariant.plain plain
  | kicked kick before =>
      exact ((invariant.plain before).trans (invariant.fireEvent ..)).trans (invariant.tcpReset _)
  | failed timer handshake before after =>
      exact (invariant.plain before).trans (invariant.tcp_plain rfl after)
  | @refused mid next last timer handshake before between after =>
      have answered : Keeps cond inv (first.note (.package type data)) next :=
        (invariant.plain before).trans (invariant.tcp_plain rfl between)
      have reset : Keeps cond inv next (handshakeFailed env next) :=
        (invariant.fireEvent ..).trans (invariant.tcpReset _)
      exact (answered.trans reset).trans (invariant.plain after)
  | @accepted mid next last timer hbTimer handshake before between after =>
      have answered : Keeps cond inv (first.note (.package type data)) next :=
        (invariant.plain before).trans (invariant.tcp_plain rfl between)
      have acked : Keeps cond inv next ((tcpSendHandshakeAck env next).tcp fun tcp =>
          { tcp with state := .done, hbTimer := hbTimer }) :=
        (invariant.sendFirst _ next).trans (invariant.tcp rfl)
      exact ((answered.trans acked).trans (invariant.fireEvent ..)).trans (invariant.plain after)
  | undecodable reason data before =>
      exact (invariant.plain before).trans (invariant.fire_tcpReconn ..)
  | pushed route text data before => exact (invariant.plain before).trans (invariant.fireEvent ..)
  | answered reqId text data before after =>
      exact (invariant.plain before).trans (invariant.answer after)
  | heartbeat timer beat waiting before after =>
      exact (invariant.plain before).trans (invariant.tcp_plain rfl after)

/-- Every step keeps an invariant of the queues. -/
theorem step (step : Step env first second) : Keeps cond inv first second :=
  keeps_step invariant.deliver (fun plain => invariant.beside (.of_plain plain))
    (fun _ turn => invariant.turn turn) (fun start => invariant.beside (.note rfl _) start)
    (fun handles => invariant.package handles) step

end QueueInvariant

end Pomelo
