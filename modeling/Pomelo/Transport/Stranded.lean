import Pomelo.Transport.Queues

/-!
# Nothing is left in a dead transport

A transport that is NOT_CONN was reset, and has queued nothing since: its queues are
empty, and no heartbeat is due that would put something into them.
-/

namespace Pomelo

open Transition Recorded

variable {env : Env} {first second : Sys}

/-- A call is in `tr_uv_tcp_send`. -/
def Stage.sending : Stage → Bool
  | .send .. | .insert .. | .signal .. => true
  | _ => false

/-- No write item is left in a transport that is NOT_CONN, unless a message is just being
sent. -/
def NoneStranded (sys : Sys) : Prop :=
  sys.state.tcp.state = .notConn → (∀ call ∈ sys.state.calls, call.stage.sending = false) →
    ∀ queue, sys.state.tcp.wq.items queue = []

def Point.isGaveUp (point : Point) : Bool := point matches .gaveUp

/-- The condition on the notes of a run. -/
structure StrandsNone (point : Point) (core : Core) : Prop where
  /-- The critical section of `tr_uv_tcp_send` does not run in a transport that is NOT_CONN. -/
  accepted : point.isAccepted → core.tcp.state ≠ .notConn
  /-- Nothing is queued when `tcp__reconn` gives up. -/
  gaveUp : point.isGaveUp → core.tcp.wq.connPending = []

instance (point : Point) (core : Core) : Decidable (StrandsNone point core) :=
  decidable_of_iff ((point.isAccepted → core.tcp.state ≠ .notConn) ∧
      (point.isGaveUp → core.tcp.wq.connPending = []))
    ⟨fun ⟨accepted, gaveUp⟩ => ⟨accepted, gaveUp⟩, fun ⟨accepted, gaveUp⟩ => ⟨accepted, gaveUp⟩⟩

/-- Nothing is queued, and no heartbeat will be. -/
structure Barren (sys : Sys) : Prop where
  items : ∀ queue, sys.state.tcp.wq.items queue = []
  hbTimer : sys.state.tcp.link.hbTimer = false
  isWaitingHb : sys.state.tcp.link.isWaitingHb = false

/-- A transport that is NOT_CONN is barren. -/
def Rested (sys : Sys) : Prop := sys.state.tcp.link.state = .notConn → Barren sys

namespace Rested

/-- A transport in another state need not be. -/
theorem of_ne (other : first.state.tcp.link.state ≠ .notConn) : Rested first :=
  fun notConn => absurd notConn other

/-- What leaves the link and fills no empty queue. -/
theorem map (rested : Rested first) (link : second.state.tcp.link = first.state.tcp.link)
    (items : ∀ queue, first.state.tcp.wq.items queue = [] →
      second.state.tcp.wq.items queue = []) : Rested second := by
  intro notConn
  rw [link] at notConn
  have barren := rested notConn
  exact ⟨fun queue => items queue (barren.items queue), link ▸ barren.hbTimer,
    link ▸ barren.isWaitingHb⟩

theorem same (rested : Rested first) (link : second.state.tcp.link = first.state.tcp.link)
    (wq : second.state.tcp.wq = first.state.tcp.wq) : Rested second :=
  rested.map link fun _ => wq ▸ id

theorem plain (rested : Rested first) (plain : Plain first second) : Rested second :=
  rested.same plain.tcp.link plain.tcp.wq

/-- A message is queued in a transport that is not NOT_CONN. -/
theorem keeps_deliver (deliver : Deliver env first second) :
    Keeps StrandsNone Rested first second := by
  refine Pomelo.keeps_deliver (fun still rested => ?_) (fun {sys item} _ cond _ => ?_) deliver
  · exact rested.same (Quiet.of_still still).aside.link still.wq
  · exact .of_ne ((Quiet.accept item sys).aside.link ▸ cond.accepted rfl)

/-- A delivery that meets the condition leaves the transport at rest. -/
theorem delivered (rested : Rested first) (delivered : Delivered env first second)
    (meets : second.Meets StrandsNone) : Rested second :=
  (keeps_delivered keeps_deliver delivered).holds meets rested

theorem fireEvent (rested : Rested first) (type : EvType) (arg1 arg2 : Option CStr)
    (meets : (Pomelo.fireEvent env type arg1 arg2 first).Meets StrandsNone) :
    Rested (Pomelo.fireEvent env type arg1 arg2 first) := by
  have noted : Rested (first.note (.fire type)) := rested.same rfl rfl
  exact noted.delivered (delivered_fireEvent type arg1 arg2 first) meets

end Rested

/-- Nothing is queued while the loops of `tcp__reset` run. -/
theorem connPending_resetItems (state : first.state.tcp.state = .notConn)
    (meets : (resetItems env first).Meets StrandsNone) :
    (resetItems env first).state.tcp.wq.connPending = [] := by
  let gone (sys : Sys) : Prop :=
    sys.state.tcp.link.state = .notConn ∧ sys.state.tcp.wq.items .connPending = []
  have deliver {first second : Sys} (deliver : Deliver env first second) :
      Keeps StrandsNone gone first second :=
    keeps_deliver (fun still gone => ⟨(Quiet.of_still still).aside.link ▸ gone.1, still.wq ▸ gone.2⟩)
      (fun _ cond gone => absurd gone.1 (cond.accepted rfl)) deliver
  have recycle {sys : Sys} {item : WriteItem} (start : gone sys) :
      gone (sys.wq (WriteQueues.recycle item)) :=
    ⟨start.1, (WriteQueues.items_recycle item _ .connPending).trans start.2⟩
  have pop {queue : WiQueue} (other : .connPending ≠ queue) {sys : Sys} {item : WriteItem}
      {rest : List WriteItem} (_ : sys.state.tcp.wq.items queue = item :: rest) (start : gone sys) :
      gone (sys.wq (WriteQueues.setItems queue rest)) :=
    ⟨start.1, (WriteQueues.items_setItems_of_ne other rest _).trans start.2⟩
  have written (passes : Nat) (sys : Sys) :
      Keeps StrandsNone gone sys (dropItems env .writing pcRcReset passes sys) :=
    keeps_dropItems deliver recycle (pop (show WiQueue.connPending ≠ .writing from nofun)) _ _ sys
  have answered (passes : Nat) (sys : Sys) :
      Keeps StrandsNone gone sys (dropItems env .respPending pcRcReset passes sys) :=
    keeps_dropItems deliver recycle (pop (show WiQueue.connPending ≠ .respPending from nofun)) _ _
      sys
  exact (((written _ _).trans (answered _ _)).holds meets ⟨state, rfl⟩).2

/-- `tcp__reset` leaves a barren transport. -/
theorem barren_tcpReset (sys : Sys) (meets : (tcpReset env sys).Meets StrandsNone) :
    Barren (tcpReset env sys) where
  items queue := by
    by_cases pending : queue = .connPending
    · subst pending
      have closed := link_closeSocket ((sys.note .reset).tcp Transport.stopAll).state
      exact connPending_resetItems (congrArg Link.state closed) (meets_note.mp meets).2
    · exact items_tcpReset sys pending
  hbTimer := by
    rw [link_tcpReset]
    rfl
  isWaitingHb := by
    rw [link_tcpReset]
    rfl

/-- What leaves the queues and the timers. -/
theorem Barren.tcp {sys : Sys} (barren : Barren sys) {act : Transport → Transport}
    (wq : (act sys.state.tcp).wq = sys.state.tcp.wq)
    (hbTimer : (act sys.state.tcp).hbTimer = sys.state.tcp.hbTimer)
    (isWaitingHb : (act sys.state.tcp).isWaitingHb = sys.state.tcp.isWaitingHb) :
    Barren (sys.tcp act) where
  items queue := (congrArg (·.items queue) wq).trans (barren.items queue)
  hbTimer := (congrArg UvTimer.active hbTimer).trans barren.hbTimer
  isWaitingHb := isWaitingHb.trans barren.isWaitingHb

/-- `tcp__reconn` gives up when nothing has been queued since its reset. -/
theorem barren_giveUp {sys : Sys} (barren : Barren sys) (reason : String)
    (connecting : sys.state.tcp.state = .connecting)
    (meets : (giveUp env reason sys).Meets StrandsNone) : Barren (giveUp env reason sys) := by
  let fired := fireReason env .connectFailed reason sys
  have fills : Fills sys fired := .fireEvent env _ _ _ sys
  have link : fired.state.tcp.link = sys.state.tcp.link := link_fireEvent _ _ _ sys
  have none : fired.state.tcp.wq.connPending = [] :=
    (meets (.gaveUp, fired.state) (List.mem_cons_self ..)).gaveUp rfl
  suffices ended : Barren (fired.note .gaveUp) from ended.tcp rfl rfl rfl
  refine ⟨fun queue => ?_, ?_, ?_⟩
  · by_cases pending : queue = .connPending
    · exact pending ▸ none
    · refine (fills.items queue ?_).trans (barren.items queue)
      rw [connecting]
      exact pending
  · exact link ▸ barren.hbTimer
  · exact link ▸ barren.isWaitingHb

/-- Arming the timer leaves the phase. -/
theorem state_armReconn (sys : Sys) :
    (armReconn env sys).state.tcp.link.state = sys.state.tcp.link.state := by
  rw [armReconn]
  split <;> rfl

theorem rested_reconnAgain {sys : Sys} (barren : Barren sys)
    (meets : (reconnAgain env sys).Meets StrandsNone) : Rested (reconnAgain env sys) := by
  have again : Barren (sys.tcp fun tcp => { tcp with state := .connecting }) :=
    barren.tcp rfl rfl rfl
  rw [reconnAgain] at meets ⊢
  split at meets
  next disabled =>
    rw [if_pos disabled]
    exact fun _ => barren_giveUp again _ rfl meets
  next enabled =>
    rw [if_neg enabled]
    dsimp only at meets ⊢
    have counted : Barren ((sys.tcp fun tcp => { tcp with state := .connecting }).tcp fun tcp =>
        { tcp with reconnTimes := toInt32 (tcp.reconnTimes + 1) }) := again.tcp rfl rfl rfl
    split at meets
    next exceeded =>
      rw [if_pos exceeded]
      exact fun _ => barren_giveUp counted _ rfl meets
    next more =>
      rw [if_neg more]
      refine .of_ne ?_
      rw [state_armReconn]
      rintro ⟨⟩

theorem rested_tcpReconn (sys : Sys) (meets : (tcpReconn env sys).Meets StrandsNone) :
    Rested (tcpReconn env sys) :=
  rested_reconnAgain (barren_tcpReset _ (meets.of_suffix (reconnected_reconnAgain env _).notes.suffix))
    meets

theorem rested_tcpReset (sys : Sys) (meets : (tcpReset env sys).Meets StrandsNone) :
    Rested (tcpReset env sys) :=
  fun _ => barren_tcpReset sys meets

/-- Without a write nothing is finished. -/
theorem finishWrites_nil (rc : Int) (passes : Nat) {sys : Sys}
    (empty : sys.state.tcp.wq.writing = []) : finishWrites env rc passes sys = sys := by
  cases passes with
  | zero => rfl
  | succ passes => rw [finishWrites, empty]

/-- An empty queue is not changed by its check. -/
theorem tcp_checkQueueLoop_nil {queue : WiQueue} (ct passes : Nat) (cont : Bool) {sys : Sys}
    (empty : sys.state.tcp.wq.items queue = []) :
    (checkQueueLoop env queue ct passes cont sys).1.state.tcp = sys.state.tcp := by
  cases passes with
  | zero => rfl
  | succ passes => rw [checkQueueLoop, empty]

namespace Barren

/-- What is plain leaves the queues empty. -/
theorem plain (barren : Barren first) (plain : Plain first second) : Barren second where
  items queue := (congrArg (·.items queue) plain.tcp.wq).trans (barren.items queue)
  hbTimer := plain.tcp.link ▸ barren.hbTimer
  isWaitingHb := plain.tcp.link ▸ barren.isWaitingHb

theorem cleanUp (barren : Barren first) : Barren first.cleanUp :=
  ⟨fun queue => barren.items queue, rfl, barren.isWaitingHb⟩

theorem hold (barren : Barren first) (held : Bool) : Barren (first.hold held) :=
  ⟨barren.items, barren.hbTimer, barren.isWaitingHb⟩

theorem tcpCheckQueueTimeout (barren : Barren first) (queue : WiQueue) (cont : Bool) :
    Barren (Pomelo.tcpCheckQueueTimeout env queue cont first).1 := by
  have begun : Barren (first.wq (WriteQueues.beginCheck queue)) :=
    ⟨barren.items, barren.hbTimer, barren.isWaitingHb⟩
  have tcp : (checkQueueLoop env queue first.state.clock env.passes cont
      (first.wq (WriteQueues.beginCheck queue))).1.state.tcp =
      (first.wq (WriteQueues.beginCheck queue)).state.tcp :=
    tcp_checkQueueLoop_nil _ _ cont (begun.items queue)
  have looped : Barren (checkQueueLoop env queue first.state.clock env.passes cont
      (first.wq (WriteQueues.beginCheck queue))).1 :=
    ⟨tcp ▸ begun.items, tcp ▸ begun.hbTimer, tcp ▸ begun.isWaitingHb⟩
  have whole : (checkQueueLoop env queue first.state.clock env.passes cont
      (first.wq (WriteQueues.beginCheck queue))).1.state.tcp.wq.whole queue = [] := by
    rw [tcp]
    exact (WriteQueues.whole_beginCheck queue _ queue).trans (barren.items queue)
  refine ⟨fun other => ?_, looped.hbTimer, looped.isWaitingHb⟩
  refine (WriteQueues.items_endCheck queue other _).trans ?_
  split
  · exact whole
  · exact looped.items other

end Barren

namespace Rested

/-- Fields are set that have nothing to do with it. -/
theorem tcp (rested : Rested first) {act : Transport → Transport}
    (state : (act first.state.tcp).state = first.state.tcp.state)
    (wq : (act first.state.tcp).wq = first.state.tcp.wq)
    (hbTimer : (act first.state.tcp).hbTimer = first.state.tcp.hbTimer)
    (isWaitingHb : (act first.state.tcp).isWaitingHb = first.state.tcp.isWaitingHb) :
    Rested (first.tcp act) :=
  fun notConn => (rested (state.symm.trans notConn)).tcp wq hbTimer isWaitingHb

theorem tcpWriteAsyncCb (rested : Rested first) (ret : Int) :
    Rested (Pomelo.tcpWriteAsyncCb env ret first) := by
  intro notConn
  rw [(Aside.tcpWriteAsyncCb ret first).link] at notConn
  have same : Pomelo.tcpWriteAsyncCb env ret first =
      first.tcp fun tcp => { tcp with writeAsync := false } := if_pos (.inl notConn)
  rw [same]
  exact (rested notConn).tcp rfl rfl rfl

theorem tcpWriteDoneCb (rested : Rested first) (status : Int) :
    Rested (Pomelo.tcpWriteDoneCb env status first) := by
  intro notConn
  rw [(Aside.tcpWriteDoneCb status first).link] at notConn
  have asserted : Barren (first.assert (fun core => core.tcp.isWriting) .writeDoneWriting) :=
    (rested notConn).plain (.assert _ _ first)
  have begun : Barren (((first.assert (fun core => core.tcp.isWriting) .writeDoneWriting).tcp
      fun tcp => { tcp with isWriting := false }).hold true) :=
    (asserted.tcp rfl rfl rfl).hold true
  rw [Pomelo.tcpWriteDoneCb]
  refine Barren.tcp (Barren.hold ?_ false) rfl rfl rfl
  rw [finishWrites_nil _ _ (begun.items .writing)]
  exact begun

theorem tcpWriteCheckTimeoutCb (rested : Rested first) :
    Rested (Pomelo.tcpWriteCheckTimeoutCb env first) := by
  intro notConn
  rw [(Aside.tcpWriteCheckTimeoutCb first).link] at notConn
  refine Barren.plain (Barren.hold ?_ false) (.startCheck ..)
  refine .tcpCheckQueueTimeout ?_ .respPending _
  refine .tcpCheckQueueTimeout ?_ .writeWait _
  exact ((rested notConn).hold true).tcpCheckQueueTimeout .connPending false

/-- Before a step that keeps a transport that is not NOT_CONN from becoming so. -/
theorem of_link (state : second.state.tcp.link.state = first.state.tcp.link.state)
    (up : first.state.tcp.link.state ≠ .notConn) : Rested second :=
  .of_ne (state.symm ▸ up)

/-- A turn of the loop leaves nothing behind that is not connected. -/
theorem turn {event : LoopEvent} (turn : Turn env event (first.note (.callback event)) second)
    (meets : second.Meets StrandsNone) (start : Rested first) : Rested second := by
  have rested : Rested (first.note (.callback event)) := start.same rfl rfl
  cases turn with
  | plain plain => exact rested.plain plain
  | @attempt mid next last idle before between after =>
      have state : second.state.tcp.link.state = .connecting :=
        (congrArg Link.state after.tcp.link).trans (congrArg Link.state between.tcp.link)
      exact .of_ne (state.symm ▸ nofun)
  | attemptFails reason idle before after => exact rested_tcpReconn _ meets
  | @connects last buf timer handshake set isUp after =>
      have state : last.state.tcp.link.state = .handshakeing := congrArg Link.state after.tcp.link
      exact .of_ne (show last.state.tcp.link.state ≠ .notConn from state.symm ▸ nofun)
  | @connectsUnsent last timer set isUp after =>
      have state : last.state.tcp.link.state = .handshakeing := congrArg Link.state after.tcp.link
      exact .of_ne (show last.state.tcp.link.state ≠ .notConn from state.symm ▸ nofun)
  | readFails set after => exact rested_tcpReconn _ meets
  | connectFails reason set after => exact rested_tcpReconn _ meets
  | connTimeout after =>
      have closed : Rested ((first.note (.callback event)).tcp fun tcp =>
        { tcp with socket := .closing }) := rested.tcp rfl rfl rfl rfl
      exact closed.plain after
  | handshakeLate late active => exact rested_tcpReconn _ meets
  | heartbeatLate active after => exact rested_tcpReconn _ meets
  | readError reading isUp => exact rested_tcpReconn _ meets
  | @heartbeat mid last timer active before after =>
      have up : first.state.tcp.link.state ≠ .notConn := fun notConn =>
        absurd (active.symm.trans (rested notConn).hbTimer) nofun
      have stopped := congrArg Link.state before.tcp.link
      have sent := congrArg Link.state after.tcp.link
      exact .of_link (sent.trans stopped) up
  | reconnDelay active => exact rested.tcp rfl rfl rfl rfl
  | @disconnected mid last before after =>
      have reset := rested_tcpReset mid ((meets.of_suffix (suffix_fireEvent ..)).of_suffix after.suffix)
      exact (reset.plain after).fireEvent _ _ _ meets
  | @cleanedUp mid before =>
      exact fun _ => (barren_tcpReset mid ((meets_cleanUp _).mp meets)).cleanUp
  | writes ret => exact rested.tcpWriteAsyncCb ret
  | written status done writing => exact rested.tcpWriteDoneCb status
  | checks active =>
      have stopped : Rested ((first.note (.callback event)).tcp fun tcp =>
        { tcp with checkTimeout := tcp.checkTimeout.stop }) := rested.tcp rfl rfl rfl rfl
      exact stopped.tcpWriteCheckTimeoutCb

theorem package {type : UInt8} {data : Option Bytes}
    (handles : Handles env type (first.note (.package type data)) second)
    (meets : second.Meets StrandsNone) (start : Rested first) : Rested second := by
  have rested : Rested (first.note (.package type data)) := start.same rfl rfl
  cases handles with
  | plain plain => exact rested.plain plain
  | kicked kick before => exact rested_tcpReset _ meets
  | @failed mid last timer handshake before after =>
      have set : Rested (mid.tcp fun tcp => { tcp with handshakeTimer := timer }) :=
        (rested.plain before).tcp rfl rfl rfl rfl
      exact set.plain after
  | refused timer handshake before between after =>
      have reset : Rested (handshakeFailed env _) := rested_tcpReset _ (meets.of_suffix after.suffix)
      exact reset.plain after
  | @accepted mid next last timer hbTimer handshake before between after =>
      have state : second.state.tcp.link.state = .done := by
        rw [after.tcp.link, link_fireEvent]
        rfl
      exact .of_ne (state.symm ▸ nofun)
  | undecodable reason data before => exact rested_tcpReconn _ meets
  | pushed route text data before => exact (rested.plain before).fireEvent _ _ _ meets
  | @answered mid last reqId text data before after =>
      have meets : last.Meets StrandsNone := meets
      have answered := (rested.plain before).delivered
        (delivered_pcTransResp reqId pcRcOk (some text) mid) (meets.of_suffix after.suffix)
      exact (answered.plain after).map rfl fun queue empty =>
        WriteQueues.items_answer_of_empty reqId empty
  | @heartbeat mid timer beat waiting before last after =>
      have up : first.state.tcp.link.state ≠ .notConn := fun notConn =>
        absurd (waiting.symm.trans (rested notConn).isWaitingHb) nofun
      have same := congrArg Link.state before.tcp.link
      have answered := congrArg Link.state after.tcp.link
      exact .of_link (answered.trans same) up

end Rested

/-- In every run whose steps meet the condition, a dead transport is empty. -/
theorem noneStranded_of_reachable {sys : Sys} (reached : Reachable env sys)
    (meets : sys.Meets StrandsNone) : NoneStranded sys := by
  obtain ⟨evHandlers, tcp, stored, init, ran⟩ := reached
  have start : Rested (Sys.init evHandlers tcp stored) := by
    have alike : Transport.init.Alike tcp := alike_loadLocalStorage init
    refine fun _ => ⟨fun queue => ?_, congrArg Link.hbTimer alike.link,
      congrArg Link.isWaitingHb alike.link⟩
    have wq : (Sys.init evHandlers tcp stored).state.tcp.wq = WriteQueues.init := alike.wq
    rw [wq]
    cases queue <;> rfl
  have rested : Rested sys := holds_of_reachable start (fun step =>
    keeps_turn_step Rested.keeps_deliver (fun plain rested => rested.plain plain)
      (fun _ turn meets rested => rested.turn turn meets) (fun rested => rested.same rfl rfl)
      (fun handles meets rested => rested.package handles meets) step) ran meets
  exact fun notConn _ => (rested notConn).items

/-- The user disconnects. -/
def disconnects (id : Nat) : List Label :=
  [.begin (.api .disconnect), .advance id, .advance id, .advance id, .loop .disconnectAsync]

/-- The user disconnects while a message is being written: it has been queued before the
reset, and none is being sent after it. -/
theorem noneStranded_disconnects :
    ∃ sys, SampleEnds (fun _ => []) (notifyInFlight ++ disconnects 2) sys ∧
      sys.Meets StrandsNone ∧ (sys.notes.filter fun entry => entry.1.isAccepted).length = 1 ∧
      sys.state.tcp.state = .notConn ∧ (∀ call ∈ sys.state.calls, call.stage.sending = false) ∧
      NoneStranded sys := by
  obtain ⟨sys, ends, meets, accepted⟩ := exists_sampleEnds (fun _ => [])
    (notifyInFlight ++ disconnects 2) (fun sys => sys.Meets StrandsNone ∧
      (sys.notes.filter fun entry => entry.1.isAccepted).length = 1 ∧
      sys.state.tcp.state = .notConn ∧ ∀ call ∈ sys.state.calls, call.stage.sending = false)
    (by decide +kernel)
  exact ⟨sys, ends, meets, accepted.1, accepted.2.1, accepted.2.2,
    noneStranded_of_reachable ends.reachable meets⟩

/-- A message is sent while the handshake is under way, and the user disconnects before
it has been queued. -/
def sendOvertaken : List Label :=
  handshakeSent ++ (messageSent 1 .notify 5).take 4 ++ disconnects 2 ++ [.advance 1, .advance 1]

/-- The message is queued all the same, and the call returns. -/
theorem noneStranded_fails_sendOvertaken :
    ¬ ∀ (env : Env) (sys : Sys), Reachable env sys → NoneStranded sys := by
  intro claim
  obtain ⟨sys, ends, dead, returned, left⟩ := exists_sampleEnds (fun _ => []) sendOvertaken
    (fun sys => sys.state.tcp.state = .notConn ∧
      (∀ call ∈ sys.state.calls, call.stage.sending = false) ∧
      sys.state.tcp.wq.items .connPending ≠ []) (by decide +kernel)
  exact left (claim _ _ ends.reachable dead returned .connPending)

end Pomelo
