import Pomelo.Transport.Opening
import Pomelo.Transport.Settings

/-!
# The supervision by heartbeats

Once a handshake has announced an interval, either the next heartbeat is due or the
answer to the last one is awaited, until the connection ends. The two timers and the flag
are changed by the callbacks of the timers, by the packages of the server, by the
handshake and by every reset. An attempt to connect changes the state alone, so the timers
outlive a connection when one is started while the connection is up.
-/

namespace Pomelo

open Transition Recorded

variable {env : Env} {first second third : Sys}

/-- Exactly one of the timers runs on a connection that has heartbeats, and none
otherwise. -/
structure Core.Supervised (core : Core) : Prop where
  one : core.tcp.state = .done → 0 < core.tcp.hbInterval →
    core.tcp.hbTimer.active = !core.tcp.hbTimeoutTimer.active
  waiting : core.tcp.state = .done → 0 < core.tcp.hbInterval →
    core.tcp.isWaitingHb = core.tcp.hbTimeoutTimer.active
  silent : core.tcp.state ≠ .done → core.tcp.hbTimer.active = false ∧
    core.tcp.hbTimeoutTimer.active = false ∧ core.tcp.isWaitingHb = false

instance (core : Core) : Decidable core.Supervised :=
  decidable_of_iff ((core.tcp.state = .done → 0 < core.tcp.hbInterval →
      core.tcp.hbTimer.active = !core.tcp.hbTimeoutTimer.active) ∧
    (core.tcp.state = .done → 0 < core.tcp.hbInterval →
      core.tcp.isWaitingHb = core.tcp.hbTimeoutTimer.active) ∧
    (core.tcp.state ≠ .done → core.tcp.hbTimer.active = false ∧
      core.tcp.hbTimeoutTimer.active = false ∧ core.tcp.isWaitingHb = false))
    ⟨fun ⟨one, waiting, silent⟩ => ⟨one, waiting, silent⟩,
      fun supervised => ⟨supervised.one, supervised.waiting, supervised.silent⟩⟩

/-- An assertion of `tcp__send_heartbeat`, `tcp__heartbeat_timer_cb`,
`tcp__heartbeat_timeout_cb` or `tcp__on_heartbeat` fails. -/
def Point.failsHeartbeat (point : Point) : Bool :=
  point matches .assertion .heartbeatSent | .assertion .heartbeatTimer |
    .assertion .heartbeatTimeout | .assertion .heartbeatState | .assertion .heartbeatActive

/-- Another assertion fails. -/
def Point.failsElsewhere (point : Point) : Bool :=
  (point matches .assertion _) && !point.failsHeartbeat

/-- An attempt that `uv_tcp_connect` takes is about to be started. -/
def Point.startsAttempt (point : Point) : Bool := point matches .callback (.connAsync true 0)

/-- No assertion fails elsewhere, and no attempt is started on a connection that has
heartbeats. -/
structure Undisturbed (point : Point) (core : Core) : Prop where
  elsewhere : point.failsElsewhere = false
  attempt : point.startsAttempt → core.tcp.isConnecting = false → core.tcp.state = .done →
    core.tcp.hbInterval ≤ 0

instance (point : Point) (core : Core) : Decidable (Undisturbed point core) :=
  decidable_of_iff (point.failsElsewhere = false ∧ (point.startsAttempt →
      core.tcp.isConnecting = false → core.tcp.state = .done → core.tcp.hbInterval ≤ 0))
    ⟨fun ⟨elsewhere, attempt⟩ => ⟨elsewhere, attempt⟩, fun cond => ⟨cond.elsewhere, cond.attempt⟩⟩

/-- The heartbeat of a connection with an interval, and that there is none while a
connect request is outstanding. -/
structure Link.Supervised (link : Link) (interval : Int) : Prop where
  connecting : link.isConnecting = true → link.Down
  one : link.state = .done → (link.hbTimer || link.hbTimeoutTimer) = decide (0 < interval)
  both : link.state = .done → (link.hbTimer && link.hbTimeoutTimer) = false
  waiting : link.state = .done → link.isWaitingHb = link.hbTimeoutTimer
  silent : link.state ≠ .done →
    link.hbTimer = false ∧ link.hbTimeoutTimer = false ∧ link.isWaitingHb = false

namespace Link.Supervised

variable {link : Link} {interval : Int}

/-- A connection that is not up, or not yet, has no heartbeat. -/
theorem of_silent (other : link.state ≠ .done) (connecting : link.isConnecting = true → link.Down)
    (hbTimer : link.hbTimer = false) (hbTimeoutTimer : link.hbTimeoutTimer = false)
    (isWaitingHb : link.isWaitingHb = false) : link.Supervised interval where
  connecting := connecting
  one done := absurd done other
  both done := absurd done other
  waiting done := absurd done other
  silent _ := ⟨hbTimer, hbTimeoutTimer, isWaitingHb⟩

/-- A reset stops the timers of the heartbeat. -/
theorem of_reset (closes : Bool) (state : TcpState) (armed : Bool)
    (down : state = .notConn ∨ state = .connecting) (interval : Int) :
    Supervised { link.reset closes with state, reconnDelayTimer := armed } interval := by
  have other : state ≠ .done := by rcases down with rfl | rfl <;> decide
  exact ⟨fun _ => down, fun done => absurd done other, fun done => absurd done other,
    fun done => absurd done other, fun _ => ⟨rfl, rfl, rfl⟩⟩

/-- Behind a reset the heartbeat is supervised. -/
theorem tcpReset (sys : Sys) (interval : Int) :
    (Pomelo.tcpReset env sys).state.tcp.link.Supervised interval := by
  rw [link_tcpReset]
  exact of_reset _ .notConn false (.inl rfl) interval

theorem tcpReconn (sys : Sys) (interval : Int) :
    (Pomelo.tcpReconn env sys).state.tcp.link.Supervised interval := by
  obtain ⟨state, armed, down, link⟩ := link_tcpReconn env sys
  rw [link]
  exact of_reset _ state armed down interval

/-- A timer of the heartbeat only runs on a connection that is up. -/
theorem done_of_hbTimer (supervised : link.Supervised interval) (active : link.hbTimer = true) :
    link.state = .done := by
  by_contra other
  exact absurd (active.symm.trans (supervised.silent other).1) nofun

/-- A connection without an interval has no heartbeat. -/
theorem idle (supervised : link.Supervised interval) (without : link.state = .done → interval ≤ 0) :
    link.hbTimer = false ∧ link.hbTimeoutTimer = false ∧ link.isWaitingHb = false := by
  by_cases done : link.state = .done
  · have one := supervised.one done
    rw [decide_eq_false (Int.not_lt.mpr (without done))] at one
    obtain ⟨hbTimer, hbTimeoutTimer⟩ := Bool.or_eq_false_iff.mp one
    exact ⟨hbTimer, hbTimeoutTimer, (supervised.waiting done).trans hbTimeoutTimer⟩
  · exact supervised.silent done

/-- Only a connection that is up waits for a heartbeat. -/
theorem done_of_waiting (supervised : link.Supervised interval)
    (waiting : link.isWaitingHb = true) : link.state = .done := by
  by_contra other
  exact absurd (waiting.symm.trans (supervised.silent other).2.2) nofun

/-- The timeout runs for an answer that is waited for. -/
theorem waiting_of_hbTimeoutTimer (supervised : link.Supervised interval)
    (active : link.hbTimeoutTimer = true) : link.isWaitingHb = true := by
  by_cases done : link.state = .done
  · exact (supervised.waiting done).trans active
  · exact absurd (active.symm.trans (supervised.silent done).2.1) nofun

/-- While the next heartbeat is due, no answer is awaited. -/
theorem not_waiting_of_hbTimer (supervised : link.Supervised interval)
    (active : link.hbTimer = true) : link.isWaitingHb = false := by
  have done := supervised.done_of_hbTimer active
  have both := supervised.both done
  rw [active, Bool.true_and] at both
  exact (supervised.waiting done).trans both

/-- A heartbeat is sent. -/
theorem beat (supervised : link.Supervised interval) (active : link.hbTimer = true) :
    Supervised { link with hbTimer := false, isWaitingHb := true, hbTimeoutTimer := true }
      interval := by
  have done := supervised.done_of_hbTimer active
  have one := supervised.one done
  rw [active, Bool.true_or] at one
  exact ⟨supervised.connecting, fun _ => one, fun _ => rfl, fun _ => rfl,
    fun other => absurd done other⟩

/-- A heartbeat is answered. -/
theorem answered (supervised : link.Supervised interval) (waiting : link.isWaitingHb = true) :
    Supervised { link with hbTimeoutTimer := false, isWaitingHb := false, hbTimer := true }
      interval := by
  have done := supervised.done_of_waiting waiting
  have one := supervised.one done
  rw [← supervised.waiting done, waiting, Bool.or_true] at one
  exact ⟨supervised.connecting, fun _ => one, fun _ => rfl, fun _ => rfl,
    fun other => absurd done other⟩

/-- The handshake is done. -/
theorem accept (supervised : link.Supervised interval) (state : link.state = .handshakeing)
    (armed : Bool) (later : Int) (due : armed = decide (0 < later)) :
    Supervised { link with state := .done, hbTimer := armed } later := by
  obtain ⟨-, hbTimeoutTimer, isWaitingHb⟩ := supervised.silent (by rw [state]; decide)
  refine ⟨fun connecting => ?_, fun _ => ?_, fun _ => ?_, fun _ => ?_, fun other => absurd rfl other⟩
  · have down := supervised.connecting connecting
    rw [Down, state] at down
    exact absurd down (by decide)
  · rw [hbTimeoutTimer, Bool.or_false]
    exact due
  · rw [hbTimeoutTimer, Bool.and_false]
  · exact isWaitingHb.trans hbTimeoutTimer.symm

end Link.Supervised

section Turns

variable {event : LoopEvent} {interval : Int}

/-- An attempt is started on a connection without heartbeats. -/
theorem Link.Supervised.attempt {mid last : Sys}
    (supervised : first.state.tcp.link.Supervised interval)
    (without : first.state.tcp.state = .done → interval ≤ 0) (before : Plain first mid)
    (after : Plain mid.attempt last) (connecting : Bool) :
    Supervised { last.state.tcp.link with isConnecting := connecting } interval := by
  obtain ⟨hbTimer, hbTimeoutTimer, isWaitingHb⟩ := supervised.idle without
  have link : last.state.tcp.link =
      { first.state.tcp.link with state := .connecting, socket := .open, reading := false } :=
    after.tcp.link.trans (congrArg
      (fun link => { link with state := .connecting, socket := .open, reading := false })
      before.tcp.link)
  rw [link]
  exact of_silent nofun (fun _ => .inr rfl) hbTimer hbTimeoutTimer isWaitingHb

/-- A connection that comes up has no heartbeat yet. -/
theorem Link.Supervised.connect {last : Sys} (supervised : first.state.tcp.link.Supervised interval)
    (connecting : first.state.tcp.isConnecting = true) (after : Plain first.connect last)
    (handshakeTimer : Bool) : Supervised { last.state.tcp.link with handshakeTimer } interval := by
  obtain ⟨hbTimer, hbTimeoutTimer, isWaitingHb⟩ :=
    supervised.silent (supervised.connecting connecting).not_done
  have link : last.state.tcp.link = { first.state.tcp.link with
      isConnecting := false, state := .handshakeing, reading := true } := after.tcp.link
  rw [link]
  exact of_silent nofun (fun still => absurd still Bool.false_ne_true) hbTimer hbTimeoutTimer
    isWaitingHb

/-- A turn leaves a supervised connection, if no attempt is started on one that has
heartbeats. -/
theorem Turn.supervised (turn : Turn env event first second)
    (without : event = .connAsync true 0 → first.state.tcp.isConnecting = false →
      first.state.tcp.state = .done → interval ≤ 0)
    (supervised : first.state.tcp.link.Supervised interval) :
    second.state.tcp.link.Supervised interval := by
  have kept {last : Sys} (link : last.state.tcp.link = first.state.tcp.link) :
      last.state.tcp.link.Supervised interval := link ▸ supervised
  cases turn with
  | plain plain => exact kept plain.tcp.link
  | attempt idle before between after begins =>
      rw [after.tcp.link]
      exact supervised.attempt (without begins idle) before between true
  | attemptFails reason idle before after => exact .tcpReconn _ _
  | @connects last buf timer handshake connecting up after =>
      exact supervised.connect connecting after timer.active
  | @connectsUnsent last timer connecting up after =>
      exact supervised.connect connecting after timer.active
  | readFails connecting after => exact .tcpReconn _ _
  | connectFails reason connecting after => exact .tcpReconn _ _
  | connTimeout after =>
      rw [after.tcp.link]
      exact ⟨supervised.connecting, supervised.one, supervised.both, supervised.waiting,
        supervised.silent⟩
  | handshakeLate late active => exact .tcpReconn _ _
  | heartbeatLate active after => exact .tcpReconn _ _
  | readError reading up => exact .tcpReconn _ _
  | @heartbeat mid last timer active before after armed =>
      have link : second.state.tcp.link = { first.state.tcp.link with
          hbTimer := false, isWaitingHb := true, hbTimeoutTimer := timer.active } :=
        after.tcp.link.trans (congrArg
          (fun link => { link with isWaitingHb := true, hbTimeoutTimer := timer.active })
          before.tcp.link)
      rw [link, armed]
      exact supervised.beat active
  | reconnDelay active =>
      exact ⟨supervised.connecting, supervised.one, supervised.both, supervised.waiting,
        supervised.silent⟩
  | disconnected before after =>
      rw [link_fireEvent, after.tcp.link]
      exact .tcpReset _ _
  | @cleanedUp mid before =>
      have reset : (tcpReset env mid).state.tcp.link.Supervised interval := .tcpReset _ _
      have other : (tcpReset env mid).state.tcp.link.state ≠ .done := by
        rw [link_tcpReset]
        exact nofun
      have quiet := reset.silent other
      rw [link_cleanUp]
      generalize (tcpReset env mid).state.tcp.link = link at reset quiet other
      exact .of_silent other reset.connecting rfl rfl quiet.2.2
  | writes ret => exact kept (Aside.tcpWriteAsyncCb ret first).link
  | written status done writing => exact kept (Aside.tcpWriteDoneCb status first).link
  | checks active => exact kept (aside_checks first).link

/-- So does a package other than the answer to a handshake. -/
theorem Handles.supervised {type : UInt8} (other : type ≠ PkgType.handshake.code)
    (handles : Handles env type first second)
    (supervised : first.state.tcp.link.Supervised interval) :
    second.state.tcp.link.Supervised interval := by
  have kept {last : Sys} (link : last.state.tcp.link = first.state.tcp.link) :
      last.state.tcp.link.Supervised interval := link ▸ supervised
  cases handles with
  | plain plain => exact kept plain.tcp.link
  | kicked kick before => exact .tcpReset _ _
  | failed timer handshake before after => exact absurd handshake other
  | refused timer handshake before between after => exact absurd handshake other
  | accepted timer hbTimer handshake before between after => exact absurd handshake other
  | undecodable reason data before => exact .tcpReconn _ _
  | pushed route text data before => exact kept ((link_fireEvent _ _ _ _).trans before.tcp.link)
  | answered reqId text data before after =>
      exact kept (before.aside.trans ((aside_pcTransResp ..).trans after.aside)).link
  | @heartbeat mid timer beat waiting before last after armed =>
      have link : second.state.tcp.link = { first.state.tcp.link with
          hbTimeoutTimer := false, isWaitingHb := false, hbTimer := timer.active } :=
        after.tcp.link.trans (congrArg (fun link =>
          { link with hbTimeoutTimer := false, isWaitingHb := false, hbTimer := timer.active })
          before.tcp.link)
      rw [link, armed]
      exact supervised.answered waiting

end Turns

/-- The interval that an accepted answer sets. -/
theorem hbInterval_handshakeAccept {answer : Json} {tcp : Transport} {result : HandshakeResult}
    (accepted : handshakeAccept answer tcp = .ok result) :
    result.tcp.hbInterval = -1 ∨ 0 < result.tcp.hbInterval := by
  rw [handshakeAccept] at accepted
  obtain ⟨interval, -, accepted⟩ := Stop.bind_eq_ok accepted
  obtain ⟨useDict, -, accepted⟩ := Stop.bind_eq_ok accepted
  obtain ⟨dict, -, accepted⟩ := Stop.bind_eq_ok accepted
  obtain ⟨useProto, -, accepted⟩ := Stop.bind_eq_ok accepted
  obtain ⟨protos, -, accepted⟩ := Stop.bind_eq_ok accepted
  cases accepted
  change (tcp.setHeartbeat interval).hbInterval = -1 ∨ 0 < (tcp.setHeartbeat interval).hbInterval
  rw [Transport.setHeartbeat]
  split
  · exact .inl rfl
  next positive => exact .inr (Int.not_le.mp positive)

/-- The connection when an answer has been accepted. -/
theorem link_handshakeAccepted {answer : Json} {result : HandshakeResult} {sys : Sys}
    (accepted : handshakeAccept answer sys.state.tcp = .ok result) :
    (handshakeAccepted env result sys).state.tcp.link = { sys.state.tcp.link with
      state := .done
      hbTimer := if result.tcp.hbInterval ≠ -1 then true else sys.state.tcp.link.hbTimer } := by
  have stored := state_storeHandshake env result.needSync
    (((sys.assert (fun _ => result.dictAsserted) .handshakeDict).assert
      (fun _ => result.protosAsserted) .handshakeProtos).tcp fun _ => result.tcp)
  rw [handshakeAccepted]
  generalize storeHandshake env result.needSync _ = mid at stored ⊢
  have tcp : mid.state.tcp = result.tcp := congrArg Core.tcp stored
  have done (first : Sys) : (handshakeDone env first).state.tcp.link =
      { first.state.tcp.link with
        state := .done
        hbTimer := if first.state.tcp.hbInterval ≠ -1 then true else first.state.tcp.link.hbTimer } := by
    rw [handshakeDone]
    refine (link_fireEvent .connected none none _).trans ?_
    by_cases beats : first.state.tcp.hbInterval = -1
    · simp [Sys.tcp, Transport.link, beats]
    · simp [Sys.tcp, Transport.link, beats]
  have acked : (tcpSendHandshakeAck env mid).state.tcp.link = mid.state.tcp.link := rfl
  have interval : (tcpSendHandshakeAck env mid).state.tcp.hbInterval = mid.state.tcp.hbInterval := rfl
  rw [done, acked, interval, tcp, (alike_handshakeAccept accepted).link]

/-- The system is supervised, with the interval that it has now. -/
def Sys.Supervised (sys : Sys) : Prop :=
  sys.state.tcp.link.Supervised sys.state.tcp.hbInterval

/-- The timers in the state are those of the link. -/
theorem Sys.Supervised.core {sys : Sys} (supervised : sys.Supervised) : sys.state.Supervised where
  one done positive := by
    have one := Link.Supervised.one supervised done
    have both := Link.Supervised.both supervised done
    rw [decide_eq_true positive] at one
    change (sys.state.tcp.hbTimer.active || sys.state.tcp.hbTimeoutTimer.active) = true at one
    change (sys.state.tcp.hbTimer.active && sys.state.tcp.hbTimeoutTimer.active) = false at both
    cases timer : sys.state.tcp.hbTimer.active <;>
      cases late : sys.state.tcp.hbTimeoutTimer.active <;> simp_all
  waiting done _ := Link.Supervised.waiting supervised done
  silent := Link.Supervised.silent supervised

theorem Sys.Supervised.crash {sys : Sys} (supervised : sys.Supervised) (stop : Stop) :
    (sys.crash stop).Supervised := supervised

/-- A handshake that is under way is answered. -/
theorem supervised_handshakeAccepted {answer : Json} {result : HandshakeResult} {sys : Sys}
    (accepted : handshakeAccept answer sys.state.tcp = .ok result) (supervised : sys.Supervised)
    (state : sys.state.tcp.state = .handshakeing) :
    (handshakeAccepted env result sys).Supervised := by
  have interval : (handshakeAccepted env result sys).state.tcp.hbInterval =
      result.tcp.hbInterval :=
    congrArg Settings.hbInterval (settings_handshakeAccepted env result sys)
  have quiet : sys.state.tcp.link.hbTimer = false :=
    (Link.Supervised.silent supervised (by
      change sys.state.tcp.state ≠ .done
      rw [state]
      decide)).1
  rw [Sys.Supervised, interval, link_handshakeAccepted accepted]
  refine Link.Supervised.accept supervised state _ _ ?_
  rcases hbInterval_handshakeAccept accepted with none | positive
  · rw [none, if_neg (not_not.mpr rfl), quiet]
    rfl
  · rw [if_pos (by omega), decide_eq_true positive]

/-- The answer of the server sets up the supervision. -/
theorem supervised_tcpOnHandshakeResp (data : Option Bytes) {sys : Sys}
    (supervised : sys.Supervised) (state : sys.state.tcp.state = .handshakeing) :
    (tcpOnHandshakeResp env data sys).Supervised := by
  have reading : (handshakeAnswering env sys).Supervised := by
    rw [handshakeAnswering, Sys.assert, if_pos (decide_eq_true state)]
    exact ⟨supervised.connecting, supervised.one, supervised.both, supervised.waiting,
      supervised.silent⟩
  have same : (handshakeAnswering env sys).state.tcp.state = .handshakeing := by
    rw [handshakeAnswering, Sys.assert, if_pos (decide_eq_true state)]
    exact state
  have failed : (handshakeFailed env (handshakeAnswering env sys)).Supervised := .tcpReset _ _
  rcases tcpOnHandshakeResp_cases env data sys with ⟨stop, handled⟩ | handled | ⟨stop, handled⟩ |
    ⟨answer, result, accepted, handled⟩
  · rw [handled]
    exact reading.crash stop
  · rw [handled]
    exact failed
  · rw [handled]
    exact failed.crash stop
  · rw [handled]
    exact supervised_handshakeAccepted accepted reading same

/-- No assertion of the heartbeat fails. -/
def Calm (first second : Sys) : Prop := Adds (fun point => !point.failsHeartbeat) first second

namespace Calm

theorem refl (sys : Sys) : Calm sys sys := Adds.refl sys

theorem trans (left : Calm first second) (right : Calm second third) : Calm first third :=
  Adds.trans left right

theorem of_notes (notes : second.notes = first.notes) : Calm first second := Adds.of_notes notes

theorem note {point : Point} (calm : point.failsHeartbeat = false) (sys : Sys) :
    Calm sys (sys.note point) :=
  Adds.note (by rw [calm]; rfl) sys

theorem tcp (act : Transport → Transport) (sys : Sys) : Calm sys (sys.tcp act) := of_notes rfl

theorem wq (act : WriteQueues → WriteQueues) (sys : Sys) : Calm sys (sys.wq act) := of_notes rfl

theorem hold (held : Bool) (sys : Sys) : Calm sys (sys.hold held) := of_notes rfl

theorem crash (stop : Stop) (sys : Sys) : Calm sys (sys.crash stop) :=
  (note rfl sys).trans (of_notes rfl)

/-- Another assertion may fail. -/
theorem assert {site : TcpAssertion} (other : (Point.assertion site).failsHeartbeat = false)
    (holds : Core → Bool) (sys : Sys) : Calm sys (sys.assert holds site) := by
  rw [Sys.assert]
  split
  · exact refl sys
  · exact note other sys

/-- An assertion that holds is passed. -/
theorem passed {holds : Core → Bool} {sys : Sys} (known : holds sys.state = true)
    (site : TcpAssertion) : Calm sys (sys.assert holds site) := by
  rw [Sys.assert, if_pos known]
  exact refl sys

theorem of_quiet (quiet : Quiet first second) : Calm first second := by
  refine Adds.mono (fun point delivery => ?_) quiet.notes
  cases point with
  | assertion site => cases site <;> first | rfl | exact absurd delivery Bool.false_ne_true
  | _ => rfl

variable (env)

theorem fireEvent (type : EvType) (arg1 arg2 : Option CStr) (sys : Sys) :
    Calm sys (Pomelo.fireEvent env type arg1 arg2 sys) :=
  (note rfl sys).trans (of_quiet (quiet_fireEvent env type arg1 arg2 sys))

theorem tcpReset (sys : Sys) : Calm sys (Pomelo.tcpReset env sys) := by
  refine Adds.mono (fun point kind => ?_) (@adds_tcpReset env sys)
  cases point with
  | assertion site => cases site <;> first | rfl | exact absurd kind Bool.false_ne_true
  | _ => rfl

theorem tcpReconn (sys : Sys) : Calm sys (Pomelo.tcpReconn env sys) := by
  have again : Calm (sys.note .reconn) (Pomelo.tcpReconn env sys) := by
    refine Adds.mono (fun point kind => ?_) (@adds_tcpReconn env sys)
    cases point with
    | assertion site => cases site <;> first | rfl | exact absurd kind Bool.false_ne_true
    | _ => rfl
  exact (note rfl sys).trans again

/-- An event, and then the next attempt. -/
theorem fire_tcpReconn (type : EvType) (arg1 arg2 : Option CStr) (sys : Sys) :
    Calm sys (Pomelo.tcpReconn env (Pomelo.fireEvent env type arg1 arg2 sys)) :=
  (fireEvent env type arg1 arg2 sys).trans (tcpReconn env _)

theorem tcpConnAsyncCb (resolved : Bool) (ret : Int) (sys : Sys) :
    Calm sys (Pomelo.tcpConnAsyncCb env resolved ret sys) := by
  have begun (sys : Sys) : Calm sys (beginAttempt sys) :=
    (((note rfl sys).trans (tcp _ _)).trans (assert rfl _ _)).trans (tcp _ _)
  have cleared : Calm sys (sys.tcp fun tcp => { tcp with connAsync := false }) := tcp _ sys
  rw [Pomelo.tcpConnAsyncCb]
  split
  · exact cleared
  refine cleared.trans ?_
  rw [startAttempt]
  split
  · exact (begun _).trans (fire_tcpReconn env _ _ _ _)
  split
  · exact (begun _).trans (fire_tcpReconn env _ _ _ _)
  split
  · exact ((begun _).trans (tcp _ _)).trans (tcp _ _)
  · exact (begun _).trans (tcp _ _)

theorem tcpConnDoneCb (status ret : Int) (sys : Sys) :
    Calm sys (Pomelo.tcpConnDoneCb env status ret sys) := by
  have sent (sys : Sys) : Calm sys (tcpSendHandshake env sys) := by
    have asserted (sys : Sys) : Calm sys
        ((sys.assert (fun core => core.tcp.state = .handshakeing) .sendHandshakeState).assert
          (fun core => (core.tcp.protos.whole || core.tcp.protos.empty) &&
            (core.tcp.dict.whole || core.tcp.dict.empty)) .sendHandshakeTables) :=
      (assert rfl _ sys).trans (assert rfl _ _)
    rw [tcpSendHandshake]
    split
    · exact (asserted sys).trans (crash _ _)
    · exact (asserted sys).trans (of_notes rfl)
  have up (hsTimeout : Int) (sys : Sys) : Calm sys (connDoneUp env hsTimeout ret sys) := by
    rw [connDoneUp]
    dsimp only
    split
    · exact (tcp _ sys).trans (tcpReconn env _)
    split
    · exact (((tcp _ sys).trans (tcp _ _)).trans (sent _)).trans (tcp _ _)
    · exact ((tcp _ sys).trans (tcp _ _)).trans (sent _)
  have begun : Calm sys (sys.assert (fun core => core.tcp.isConnecting) .connDoneConnecting) :=
    assert rfl _ sys
  rw [Pomelo.tcpConnDoneCb]
  split
  · exact (begun.trans (tcp _ _)).trans (up _ _)
  split
  · exact (begun.trans (tcp _ _)).trans (fire_tcpReconn env _ _ _ _)
  · exact (begun.trans (tcp _ _)).trans (fire_tcpReconn env _ _ _ _)

theorem tcpWriteAsyncCb (ret : Int) (sys : Sys) :
    Calm sys (Pomelo.tcpWriteAsyncCb env ret sys) := by
  have drained (sys : Sys) : Calm sys (drainPending sys) := by
    rw [drainPending]
    split
    · exact wq _ sys
    · exact refl sys
  have written (need : Bool) (sys : Sys) : Calm sys (writeItems env need ret sys) := by
    have begun : Calm sys ((sys.note (.write sys.state.tcp.wq.writeWait ret)).wq
        WriteQueues.beginWrite) := (note rfl sys).trans (wq _ _)
    rw [writeItems]
    split
    · exact ((begun.trans (hold true _)).trans (of_quiet (.dropItems ..))).trans (hold false _)
    · exact (begun.trans (tcp _ _)).trans (tcp _ _)
  rw [Pomelo.tcpWriteAsyncCb]
  dsimp only
  split
  · exact tcp _ sys
  split
  · exact ((tcp _ sys).trans (drained _)).trans (tcp _ _)
  · exact ((tcp _ sys).trans (drained _)).trans (written _ _)

theorem tcpWriteDoneCb (status : Int) (sys : Sys) :
    Calm sys (Pomelo.tcpWriteDoneCb env status sys) := by
  have begun : Calm sys (((sys.assert (fun core => core.tcp.isWriting) .writeDoneWriting).tcp
      fun tcp => { tcp with isWriting := false }).hold true) :=
    (assert rfl _ sys).trans (of_notes rfl)
  have finished (rc : Int) (passes : Nat) (sys : Sys) : Calm sys (finishWrites env rc passes sys) :=
    of_quiet (.finishWrites rc passes sys)
  have ended (sys : Sys) : Calm sys ((sys.hold false).tcp fun tcp => { tcp with writeAsync := true }) :=
    of_notes rfl
  exact (begun.trans (finished _ _ _)).trans (ended _)

theorem tcpWriteCheckTimeoutCb (sys : Sys) : Calm sys (Pomelo.tcpWriteCheckTimeoutCb env sys) :=
  (of_quiet ((((Quiet.hold true sys).trans (.tcpCheckQueueTimeout ..)).trans
    (.tcpCheckQueueTimeout ..)).trans (.tcpCheckQueueTimeout ..))).trans (of_notes rfl)

/-- The next heartbeat is due, and none is awaited. -/
theorem tcpHeartbeatTimerCb {sys : Sys} (done : sys.state.tcp.state = .done)
    (free : sys.state.tcp.isWaitingHb = false) : Calm sys (Pomelo.tcpHeartbeatTimerCb env sys) := by
  have sent : Calm sys (tcpSendHeartbeat env sys) :=
    (passed (decide_eq_true done) .heartbeatSent).trans (of_notes rfl)
  rw [Pomelo.tcpHeartbeatTimerCb, Sys.assert, if_pos (by rw [done, free]; rfl)]
  exact sent.trans (tcp _ _)

/-- The timeout of the heartbeat is calm where an answer is waited for. -/
theorem tcpHeartbeatTimeoutCb {sys : Sys} (waiting : sys.state.tcp.isWaitingHb = true) :
    Calm sys (Pomelo.tcpHeartbeatTimeoutCb env sys) :=
  (passed waiting .heartbeatTimeout).trans (fire_tcpReconn env _ _ _ _)

theorem tcpDisconnectAsyncCb (sys : Sys) : Calm sys (Pomelo.tcpDisconnectAsyncCb env sys) :=
  (((tcp _ sys).trans (tcpReset env _)).trans (tcp _ _)).trans (fireEvent env _ _ _ _)

theorem tcpCleanupAsyncCb (sys : Sys) : Calm sys (Pomelo.tcpCleanupAsyncCb env sys) := by
  have closed (sys : Sys) : Calm sys sys.cleanUp := of_notes rfl
  exact ((tcp _ sys).trans (tcpReset env _)).trans (closed _)

/-- No callback other than a read fails an assertion of the heartbeat in a system that is
supervised. -/
theorem runLoop {event : LoopEvent} {sys : Sys} (ready : sys.state.ready event = true)
    (other : ∀ data, event ≠ .read data) (supervised : sys.Supervised) :
    Calm sys (Pomelo.runLoop env event sys) := by
  have due {timer : UvTimer} (ready : (sys.state.tcp.due timer && !sys.state.closed) = true) :
      timer.active = true := Transport.due_active (Bool.and_eq_true_iff.mp ready).1
  cases event with
  | connAsync resolved ret => exact tcpConnAsyncCb env resolved ret sys
  | writeAsync ret => exact tcpWriteAsyncCb env ret sys
  | disconnectAsync => exact tcpDisconnectAsyncCb env sys
  | cleanupAsync => exact tcpCleanupAsyncCb env sys
  | reconnDelayTimer => exact tcp _ sys
  | connTimeout => exact (assert rfl _ sys).trans (tcp _ _)
  | handshakeTimer => exact (tcp _ sys).trans (fire_tcpReconn env _ _ _ _)
  | checkTimeout => exact (tcp _ sys).trans (tcpWriteCheckTimeoutCb env _)
  | hbTimer =>
      have active : sys.state.tcp.link.hbTimer = true := due ready
      have stopped : Calm sys (sys.tcp fun tcp => { tcp with hbTimer := tcp.hbTimer.stop }) :=
        tcp _ sys
      exact stopped.trans (tcpHeartbeatTimerCb env
        (Link.Supervised.done_of_hbTimer supervised active)
        (Link.Supervised.not_waiting_of_hbTimer supervised active))
  | hbTimeoutTimer =>
      have active : sys.state.tcp.link.hbTimeoutTimer = true := due ready
      have stopped : Calm sys
          (sys.tcp fun tcp => { tcp with hbTimeoutTimer := tcp.hbTimeoutTimer.stop }) := tcp _ sys
      exact stopped.trans (tcpHeartbeatTimeoutCb env
        (Link.Supervised.waiting_of_hbTimeoutTimer supervised active))
  | connDone status ret => exact tcpConnDoneCb env status ret sys
  | writeDone status => exact tcpWriteDoneCb env status sys
  | readError => exact fire_tcpReconn env _ _ _ sys
  | read data => exact absurd rfl (other data)

theorem onMessage (msg : PcMsg) (sys : Sys) : Calm sys (Pomelo.onMessage env msg sys) := by
  have routed (sys : Sys) : Calm sys (sys.assert
      (fun _ => decide (msg.id = pcNotifyPushReqId) == msg.route.isSome) .dataRoute) :=
    assert rfl _ sys
  have answered (reqId : Nat) (text : CStr) (sys : Sys) :
      Calm sys (onResponse env reqId text sys) := by
    have delivered : Calm sys (pcTransResp (loopReceiver env) env.config.enablePolling reqId
        pcRcOk (some text) sys) := of_quiet (.of_delivered (delivered_pcTransResp ..))
    exact (delivered.trans (assert rfl _ _)).trans (wq _ _)
  rw [Pomelo.onMessage]
  split
  · exact fire_tcpReconn env _ _ _ sys
  split
  · exact fire_tcpReconn env _ _ _ sys
  split
  · exact fire_tcpReconn env _ _ _ sys
  dsimp only
  split
  · exact (routed sys).trans (answered _ _ _)
  · exact (routed sys).trans (fireEvent env _ _ _ _)

theorem tcpOnDataRecieved (data : Option Bytes) (len : Nat) (sys : Sys) :
    Calm sys (Pomelo.tcpOnDataRecieved env data len sys) := by
  rw [Pomelo.tcpOnDataRecieved]
  split
  · exact (note rfl sys).trans (crash _ _)
  · exact crash _ sys
  · exact onMessage env _ sys

/-- The heartbeat of the server is calm where the heartbeat is supervised. -/
theorem tcpOnHeartbeat {sys : Sys} (supervised : sys.Supervised) :
    Calm sys (Pomelo.tcpOnHeartbeat sys) := by
  rw [Pomelo.tcpOnHeartbeat]
  split
  · exact refl sys
  next waiting =>
    have awaited : sys.state.tcp.isWaitingHb = true := by
      simpa only [Bool.not_eq_true', Bool.not_eq_false] using waiting
    have waiting : sys.state.tcp.link.isWaitingHb = true := awaited
    have done := Link.Supervised.done_of_waiting supervised waiting
    have active : sys.state.tcp.hbTimeoutTimer.active = true :=
      (Link.Supervised.waiting supervised done).symm.trans waiting
    have first : Calm sys (sys.assert (fun core => core.tcp.state = .done) .heartbeatState) :=
      passed (decide_eq_true done) _
    have second : Calm (sys.assert (fun core => core.tcp.state = .done) .heartbeatState)
        ((sys.assert (fun core => core.tcp.state = .done) .heartbeatState).assert
          (fun core => core.tcp.hbTimeoutTimer.active) .heartbeatActive) :=
      passed (by rw [Sys.state_assert]; exact active) _
    exact (first.trans second).trans (tcp _ _)

theorem handshakeAccepted (result : HandshakeResult) (sys : Sys) :
    Calm sys (Pomelo.handshakeAccepted env result sys) := by
  have stored (sys : Sys) : Calm sys (storeHandshake env result.needSync sys) := by
    rw [storeHandshake]
    split
    · split
      · exact refl sys
      · exact of_notes rfl
    · exact refl sys
  have done (sys : Sys) : Calm sys (handshakeDone env sys) := by
    rw [handshakeDone]
    exact ((tcp _ sys).trans (fireEvent env _ _ _ _)).trans (tcp _ _)
  have acked (sys : Sys) : Calm sys (tcpSendHandshakeAck env sys) := of_notes rfl
  rw [Pomelo.handshakeAccepted]
  exact (((((assert rfl _ sys).trans (assert rfl _ _)).trans (tcp _ _)).trans (stored _)).trans
    (acked _)).trans (done _)

theorem handshakeAnswering (sys : Sys) : Calm sys (Pomelo.handshakeAnswering env sys) :=
  (assert rfl _ sys).trans (tcp _ _)

/-- What follows on the assertion that a handshake is under way. -/
theorem answers (data : Option Bytes) (sys : Sys) :
    Calm (Pomelo.handshakeAnswering env sys) (tcpOnHandshakeResp env data sys) := by
  have failed : Calm (Pomelo.handshakeAnswering env sys)
      (handshakeFailed env (Pomelo.handshakeAnswering env sys)) :=
    (fireEvent env _ _ _ _).trans (tcpReset env _)
  rcases tcpOnHandshakeResp_cases env data sys with ⟨stop, handled⟩ | handled | ⟨stop, handled⟩ |
    ⟨answer, result, accepted, handled⟩
  · exact handled ▸ crash _ _
  · exact handled ▸ failed
  · exact handled ▸ failed.trans (crash _ _)
  · exact handled ▸ handshakeAccepted env result _

/-- No package fails an assertion of the heartbeat in a system that is supervised. -/
theorem trTcpOnPkgHandler (type : UInt8) (data : Option Bytes) (len : Nat) {sys : Sys}
    (supervised : sys.Supervised) : Calm sys (Pomelo.trTcpOnPkgHandler env type data len sys) := by
  have noted : Calm sys ((sys.note (.package type data)).assert (fun _ =>
      type = PkgType.handshake.code || type = PkgType.heartbeat.code ||
        type = PkgType.data.code || type = PkgType.kick.code) .pkgType) :=
    (note rfl sys).trans (assert rfl _ _)
  have same : ((sys.note (.package type data)).assert (fun _ =>
      type = PkgType.handshake.code || type = PkgType.heartbeat.code ||
        type = PkgType.data.code || type = PkgType.kick.code) .pkgType).Supervised := by
    rw [Sys.Supervised, Sys.state_assert]
    exact supervised
  refine noted.trans ?_
  rw [Pomelo.trTcpOnPkgHandler]
  generalize (sys.note (.package type data)).assert _ .pkgType = first at same ⊢
  split
  · exact (handshakeAnswering env first).trans (answers env data first)
  · exact tcpOnHeartbeat same
  · exact tcpOnDataRecieved env data len first
  · exact (fireEvent env _ _ _ first).trans (tcpReset env _)
  · exact refl first

end Calm

/-- What a run keeps: the supervision, and that no assertion of the heartbeat has failed. -/
structure Watched (sys : Sys) : Prop where
  supervised : sys.Supervised
  calm : ∀ entry ∈ sys.notes, entry.1.failsHeartbeat = false

/-- Notes that are calm are added. -/
theorem Watched.calmly (watched : Watched first) (calm : Calm first second)
    (supervised : second.Supervised) : Watched second where
  supervised := supervised
  calm := by
    refine Adds.induct (fun notes => ∀ entry ∈ notes, entry.1.failsHeartbeat = false) calm
      watched.calm fun {event state notes} kind earlier => ?_
    exact List.forall_mem_cons.mpr ⟨Bool.eq_false_of_not_eq_true fun fails => by
      rw [fails] at kind
      exact absurd kind Bool.false_ne_true, earlier⟩

/-- The interval is not changed by a callback other than a read. -/
theorem hbInterval_runLoop {event : LoopEvent} (other : ∀ data, event ≠ .read data) (sys : Sys) :
    (runLoop env event sys).state.tcp.hbInterval = sys.state.tcp.hbInterval := by
  by_cases cleanup : event = .cleanupAsync
  · subst cleanup
    have reset := congrArg Frame.settings
      (frame_tcpReset env (sys.tcp fun tcp => { tcp with cleanupAsync := false }))
    have closed (sys : Sys) : sys.cleanUp.state.tcp.hbInterval = sys.state.tcp.hbInterval := rfl
    exact (closed _).trans (congrArg Settings.hbInterval reset)
  · exact congrArg Settings.hbInterval (settings_runLoop env other cleanup sys)

/-- A callback other than a read keeps the supervision. -/
theorem Watched.callback {event : LoopEvent} (watched : Watched first)
    (ready : first.state.ready event = true) (other : ∀ data, event ≠ .read data)
    (meets : (runLoop env event (first.note (.callback event))).Meets Undisturbed) :
    Watched (runLoop env event (first.note (.callback event))) := by
  have noted : Watched (first.note (.callback event)) :=
    watched.calmly (.note rfl first) watched.supervised
  have calm := @Calm.runLoop env event (first.note (.callback event)) ready other noted.supervised
  refine noted.calmly calm ?_
  rw [Sys.Supervised, hbInterval_runLoop other]
  have turn := @turn_of_ready env event (first.note (.callback event)) ready other
  have cond := meets _ (turn.suffix.subset (List.mem_cons_self ..))
  exact turn.supervised (fun begins => cond.attempt (begins ▸ rfl)) noted.supervised

/-- The answer to a handshake keeps the supervision, if no assertion fails elsewhere. -/
theorem supervised_handshake (data : Option Bytes) (len : Nat) (supervised : first.Supervised)
    (meets : (trTcpOnPkgHandler env PkgType.handshake.code data len first).Meets Undisturbed) :
    (trTcpOnPkgHandler env PkgType.handshake.code data len first).Supervised := by
  have handled : trTcpOnPkgHandler env PkgType.handshake.code data len first =
      tcpOnHandshakeResp env data (first.note (.package PkgType.handshake.code data)) := rfl
  rw [handled] at meets ⊢
  refine supervised_tcpOnHandshakeResp data supervised ?_
  by_contra other
  -- The assertion would be among the notes.
  have failed : (Point.assertion .handshakeState, first.state) ∈
      (handshakeAnswering env (first.note (.package PkgType.handshake.code data))).notes := by
    rw [handshakeAnswering, Sys.assert, if_neg (decide_eq_true_iff.not.mpr other)]
    exact List.mem_cons_self ..
  have cond := meets _ ((Calm.answers env data _).suffix.subset failed)
  cases cond.elsewhere

/-- The handling of a package keeps the supervision, if no assertion fails elsewhere. -/
theorem Watched.package (watched : Watched first) (type : UInt8) (data : Option Bytes) (len : Nat)
    (meets : (trTcpOnPkgHandler env type data len first).Meets Undisturbed) :
    Watched (trTcpOnPkgHandler env type data len first) := by
  refine watched.calmly (.trTcpOnPkgHandler env type data len watched.supervised) ?_
  by_cases handshake : type = PkgType.handshake.code
  · subst handshake
    exact supervised_handshake data len watched.supervised meets
  · have handles := @handles_trTcpOnPkgHandler env type data len first
    have interval : (trTcpOnPkgHandler env type data len first).state.tcp.hbInterval =
        first.state.tcp.hbInterval := by
      rcases frame_trTcpOnPkgHandler env type data len first with same | ⟨_, _, _, is, -⟩
      · exact congrArg (·.settings.hbInterval) same
      · exact absurd is handshake
    rw [Sys.Supervised, interval]
    exact handles.supervised handshake watched.supervised

/-- Every step keeps the supervision. -/
theorem keeps_watched_step (step : Step env first second) :
    Keeps Undisturbed Watched first second := by
  refine leads_callback_step id ?_ ?_ ?_ ?_ ?_ ?_ step
  · intro first second deliver
    have quiet := Quiet.of_deliver deliver
    have interval : second.state.tcp.hbInterval = first.state.tcp.hbInterval :=
      congrArg Settings.hbInterval quiet.settings
    refine ⟨quiet.notes.suffix, fun _ watched => watched.calmly (.of_quiet quiet) ?_⟩
    rw [Sys.Supervised, quiet.aside.link, interval]
    exact watched.supervised
  · exact fun milliseconds watched => watched.calmly (.tcp _ _) watched.supervised
  · exact fun parser watched => watched.calmly (.tcp _ _) watched.supervised
  · intro event first ready other
    have suffix := (@turn_of_ready env event (first.note (.callback event)) ready
      other).suffix
    exact ⟨(List.suffix_cons _ _).trans suffix, fun meets watched =>
      watched.callback ready other meets⟩
  · exact fun {sys data} watched => watched.calmly (.note rfl sys) watched.supervised
  · intro type data len first running
    have suffix := (@handles_trTcpOnPkgHandler env type data len first).suffix
    exact ⟨(List.suffix_cons _ _).trans suffix, fun meets watched =>
      watched.package type data len meets⟩

/-- The initial connection has no heartbeat. -/
theorem supervised_init {evHandlers : List Nat} {tcp : Transport} {stored : Option CStr}
    (init : trUvTcpInit env stored = .ok tcp) :
    (Sys.init evHandlers tcp stored).Supervised := by
  have link : (Sys.init evHandlers tcp stored).state.tcp.link = Transport.init.link :=
    (alike_loadLocalStorage init).link
  rw [Sys.Supervised, link]
  exact .of_silent nofun nofun rfl rfl rfl

/-- In every run in which no attempt is started on a connection that has heartbeats, and
no other assertion fails, the connection is supervised and the assertions of the heartbeat hold. -/
theorem supervised_of_reachable {sys : Sys} (reached : Reachable env sys)
    (meets : sys.Meets Undisturbed) :
    sys.state.Supervised ∧ ∀ entry ∈ sys.notes, entry.1.failsHeartbeat = false := by
  obtain ⟨evHandlers, tcp, stored, init, run⟩ := reached
  have start : Watched (Sys.init evHandlers tcp stored) :=
    ⟨supervised_init init, fun _ member => absurd member List.not_mem_nil⟩
  have watched := holds_of_reachable start keeps_watched_step run meets
  exact ⟨watched.supervised.core, watched.calm⟩

/-- A heartbeat is sent when it is due, and answered by the server. -/
def heartbeatAnswered : List Label :=
  handshakeAnswered ++ [.loopTime 3000, .loop .hbTimer, .loop (.writeAsync 0),
    .loop (.writeDone 0), .loop (.read [3, 0, 0, 0])]

/-- A run with a heartbeat that is answered. -/
theorem supervised_heartbeatAnswered :
    ∃ sys, SampleEnds (fun _ => []) heartbeatAnswered sys ∧ sys.Meets Undisturbed ∧
      sys.state.tcp.state = .done ∧ sys.state.tcp.hbInterval = 3 ∧ sys.state.Supervised := by
  obtain ⟨sys, ends, meets, done, interval⟩ := exists_sampleEnds (fun _ => []) heartbeatAnswered
    (fun sys => sys.Meets Undisturbed ∧ sys.state.tcp.state = .done ∧
      sys.state.tcp.hbInterval = 3) (by decide +kernel)
  exact ⟨sys, ends, meets, done, interval, (supervised_of_reachable ends.reachable meets).1⟩

/-- `reconn_delay_timer` fires when the handshake is done, and an attempt is started beside
the connection. The heartbeat is due before the attempt has come to an end. -/
def heartbeatOutlives : List Label :=
  attemptBeside.take 22 ++ [.loopTime 1500, .loop .reconnDelayTimer, .loop (.connAsync true 0),
    .loopTime 1500, .loop .hbTimer]

/-- The transport is connecting and has a heartbeat, and an assertion of the heartbeat
fails. -/
theorem supervised_fails_heartbeatOutlives :
    ¬ ∀ (env : Env) (sys : Sys), Reachable env sys →
      (∀ entry ∈ sys.notes, entry.1.failsElsewhere = false) →
      sys.state.Supervised ∧ ∀ entry ∈ sys.notes, entry.1.failsHeartbeat = false := by
  intro claim
  obtain ⟨sys, ends, elsewhere, unsupervised⟩ := exists_sampleEnds (fun _ => []) heartbeatOutlives
    (fun sys => (∀ entry ∈ sys.notes, entry.1.failsElsewhere = false) ∧ ¬ sys.state.Supervised)
    (by decide +kernel)
  exact unsupervised (claim _ _ ends.reachable elsewhere).1

end Pomelo
