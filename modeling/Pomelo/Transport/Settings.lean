import Pomelo.Transport.Phase

/-!
# What a handshake settles

The dictionary, the definitions, the heartbeat and the content of the local storage are
settled by the answer to a handshake. Between two answers every callback leaves them as
they are, except that the cleanup frees the tables.
-/

namespace Pomelo

open Transition Recorded

variable {env : Env} {cond : Point → Core → Prop} {first second : Sys}

/-- The part of the state that only an accepted answer and the cleanup change. -/
structure Settings where
  dict : TableSet
  protos : TableSet
  hbInterval : Int
  hbTimeout : Int
  stored : Option CStr
  closed : Bool

def Core.settings (core : Core) : Settings where
  dict := core.tcp.dict
  protos := core.tcp.protos
  hbInterval := core.tcp.hbInterval
  hbTimeout := core.tcp.hbTimeout
  stored := core.stored
  closed := core.closed

/-- A quiet step leaves the settings. -/
theorem Quiet.settings (quiet : Quiet first second) :
    second.state.settings = first.state.settings := by
  have dict := congrArg Transport.dict quiet.conn
  have protos := congrArg Transport.protos quiet.conn
  have hbInterval := congrArg Transport.hbInterval quiet.conn
  have hbTimeout := congrArg Transport.hbTimeout quiet.conn
  change second.state.tcp.dict = first.state.tcp.dict at dict
  change second.state.tcp.protos = first.state.tcp.protos at protos
  change second.state.tcp.hbInterval = first.state.tcp.hbInterval at hbInterval
  change second.state.tcp.hbTimeout = first.state.tcp.hbTimeout at hbTimeout
  rw [Core.settings, Core.settings, dict, protos, hbInterval, hbTimeout, quiet.stored,
    quiet.closed]

/-- What an attempt is waiting with. -/
structure Waiting where
  isConnecting : Bool
  due : Nat
  loopTime : Nat
  deriving DecidableEq

def Transport.waiting (tcp : Transport) : Waiting where
  isConnecting := tcp.isConnecting
  due := tcp.connTimeout.timeout
  loopTime := tcp.loopTime

/-- What most callbacks leave as it is: what has been settled, and what an attempt waits with. -/
structure Frame where
  settings : Settings
  waiting : Waiting

def Core.frame (core : Core) : Frame where
  settings := core.settings
  waiting := core.tcp.waiting

/-- A quiet step leaves the frame. -/
theorem Quiet.frame (quiet : Quiet first second) : second.state.frame = first.state.frame := by
  have waiting : second.state.tcp.waiting = first.state.tcp.waiting := by
    have same := congrArg Transport.waiting quiet.conn
    exact same
  rw [Core.frame, Core.frame, quiet.settings, waiting]

variable (env)

theorem frame_fireEvent (type : EvType) (arg1 arg2 : Option CStr) (sys : Sys) :
    (fireEvent env type arg1 arg2 sys).state.frame = sys.state.frame :=
  (quiet_fireEvent env type arg1 arg2 sys).frame

theorem frame_closeSocket (core : Core) : core.closeSocket.frame = core.frame := by
  rw [Core.closeSocket]
  split <;> rfl

theorem frame_tcpReset (sys : Sys) : (tcpReset env sys).state.frame = sys.state.frame := by
  have items := (Quiet.resetItems env
    (((sys.note .reset).tcp Transport.stopAll).change Core.closeSocket)).frame
  have closed := frame_closeSocket ((sys.note .reset).tcp Transport.stopAll).state
  exact items.trans closed

theorem frame_giveUp (reason : String) (sys : Sys) :
    (giveUp env reason sys).state.frame = sys.state.frame :=
  frame_fireEvent env .connectFailed _ _ sys

theorem frame_armReconn (sys : Sys) :
    (armReconn env sys).state.frame = sys.state.frame := by
  rw [armReconn]
  split <;> rfl

theorem frame_reconnAgain (sys : Sys) :
    (reconnAgain env sys).state.frame = sys.state.frame := by
  rw [reconnAgain]
  split
  · exact frame_giveUp env _ _
  · dsimp only
    split
    · exact frame_giveUp env _ _
    · exact frame_armReconn env _

theorem frame_tcpReconn (sys : Sys) :
    (tcpReconn env sys).state.frame = sys.state.frame :=
  (frame_reconnAgain env _).trans (frame_tcpReset env (sys.note .reconn))

theorem frame_attemptFailed (reason : String) (sys : Sys) :
    (attemptFailed env reason sys).state.frame = sys.state.frame :=
  (frame_tcpReconn env _).trans (frame_fireEvent env _ _ _ sys)

theorem frame_assert (holds : Core → Bool) (site : TcpAssertion) (sys : Sys) :
    (sys.assert holds site).state.frame = sys.state.frame := by
  rw [Sys.state_assert]

theorem frame_crash (stop : Stop) (sys : Sys) :
    (sys.crash stop).state.frame = sys.state.frame := rfl

theorem frame_sendFirst (buf : UvBuf) (sys : Sys) :
    (sendFirst buf sys).state.frame = sys.state.frame := rfl

theorem frame_sendLast (buf : UvBuf) (sys : Sys) :
    (sendLast buf sys).state.frame = sys.state.frame := rfl

/-- The request of the handshake leaves the frame. -/
theorem frame_tcpSendHandshake (sys : Sys) :
    (tcpSendHandshake env sys).state.frame = sys.state.frame := by
  rw [tcpSendHandshake]
  split
  · rw [frame_crash, frame_assert, frame_assert]
  · rw [frame_sendFirst, frame_assert, frame_assert]

/-- An attempt that starts leaves the settings. -/
theorem settings_startAttempt (resolved : Bool) (ret : Int) (sys : Sys) :
    (startAttempt env resolved ret sys).state.settings = sys.state.settings := by
  have begun : (beginAttempt sys).state.settings = sys.state.settings :=
    congrArg Frame.settings (frame_assert ..)
  have failed (reason : String) (sys : Sys) :=
    congrArg Frame.settings (frame_attemptFailed env reason sys)
  rw [startAttempt]
  dsimp only
  split
  · exact (failed _ _).trans begun
  split
  · exact (failed _ _).trans begun
  split <;> exact begun

theorem settings_connDoneUp (hsTimeout ret : Int) (sys : Sys) :
    (connDoneUp env hsTimeout ret sys).state.settings = sys.state.settings := by
  have sent (sys : Sys) := congrArg Frame.settings (frame_tcpSendHandshake env sys)
  rw [connDoneUp]
  dsimp only
  split
  · exact congrArg Frame.settings (frame_tcpReconn env _)
  split <;> exact sent _

theorem settings_tcpConnDoneCb (status ret : Int) (sys : Sys) :
    (tcpConnDoneCb env status ret sys).state.settings = sys.state.settings := by
  have asserted := congrArg Frame.settings
    (frame_assert (fun core => core.tcp.isConnecting) .connDoneConnecting sys)
  rw [tcpConnDoneCb]
  split
  · exact (settings_connDoneUp env _ _ _).trans asserted
  have failed (reason : String) (sys : Sys) :=
    congrArg Frame.settings (frame_attemptFailed env reason sys)
  split <;> exact (failed _ _).trans asserted

theorem frame_tcpWriteAsyncCb (ret : Int) (sys : Sys) :
    (tcpWriteAsyncCb env ret sys).state.frame = sys.state.frame := by
  have checked (need : Bool) (sys : Sys) :
      (sys.tcp (Transport.startCheck need)).state.frame = sys.state.frame := by
    change Core.frame { sys.state with tcp := sys.state.tcp.startCheck need } = _
    rw [Transport.startCheck]
    split <;> rfl
  have drained (sys : Sys) : (drainPending sys).state.frame = sys.state.frame := by
    rw [drainPending]
    split <;> rfl
  have written (need : Bool) (sys : Sys) :
      (writeItems env need ret sys).state.frame = sys.state.frame := by
    rw [writeItems]
    dsimp only
    split
    · exact (@Quiet.dropItems env .writing ret _ _).frame
    · exact checked _ _
  rw [tcpWriteAsyncCb]
  dsimp only
  split
  · rfl
  split
  · exact (checked _ _).trans (drained _)
  · exact (written _ _).trans (drained _)

theorem frame_tcpWriteDoneCb (status : Int) (sys : Sys) :
    (tcpWriteDoneCb env status sys).state.frame = sys.state.frame := by
  have asserted := frame_assert (fun core => core.tcp.isWriting) .writeDoneWriting sys
  exact (@Quiet.finishWrites env _ _ _).frame.trans asserted

theorem frame_tcpWriteCheckTimeoutCb (sys : Sys) :
    (tcpWriteCheckTimeoutCb env sys).state.frame = sys.state.frame := by
  have started (need : Bool) (sys : Sys) :
      ((sys.hold false).tcp (Transport.startCheck need)).state.frame = sys.state.frame := by
    change Core.frame { (sys.hold false).state with tcp := sys.state.tcp.startCheck need } = _
    rw [Transport.startCheck]
    split <;> rfl
  exact (started _ _).trans ((((Quiet.hold true sys).trans (.tcpCheckQueueTimeout ..)).trans
    (.tcpCheckQueueTimeout ..)).trans (.tcpCheckQueueTimeout ..)).frame

theorem frame_tcpHeartbeatTimerCb (sys : Sys) :
    (tcpHeartbeatTimerCb env sys).state.frame = sys.state.frame := by
  have sent (sys : Sys) : (tcpSendHeartbeat env sys).state.frame = sys.state.frame := by
    rw [tcpSendHeartbeat, frame_sendLast, frame_assert]
  have asserted := frame_assert (fun core => !core.tcp.isWaitingHb && core.tcp.state = .done)
    .heartbeatTimer sys
  have same := (sent _).trans asserted
  rw [tcpHeartbeatTimerCb]
  generalize tcpSendHeartbeat env _ = last at same ⊢
  exact same

theorem frame_tcpHeartbeatTimeoutCb (sys : Sys) :
    (tcpHeartbeatTimeoutCb env sys).state.frame = sys.state.frame := by
  rw [tcpHeartbeatTimeoutCb, frame_tcpReconn, fireReason, frame_fireEvent, frame_assert]

theorem frame_tcpDisconnectAsyncCb (sys : Sys) :
    (tcpDisconnectAsyncCb env sys).state.frame = sys.state.frame := by
  have reset := frame_tcpReset env (sys.tcp fun tcp => { tcp with disconnectAsync := false })
  rw [tcpDisconnectAsyncCb]
  generalize tcpReset env (sys.tcp fun tcp => { tcp with disconnectAsync := false }) = last
    at reset ⊢
  exact (frame_fireEvent env ..).trans reset

/-- A callback that neither reads, cleans up nor makes an attempt or ends one. -/
theorem frame_runLoop {event : LoopEvent} (other : ∀ data, event ≠ .read data)
    (cleanup : event ≠ .cleanupAsync) (attempt : ∀ resolved ret, event ≠ .connAsync resolved ret)
    (done : ∀ status ret, event ≠ .connDone status ret) (sys : Sys) :
    (runLoop env event sys).state.frame = sys.state.frame := by
  cases event with
  | connAsync resolved ret => exact absurd rfl (attempt resolved ret)
  | connDone status ret => exact absurd rfl (done status ret)
  | cleanupAsync => exact absurd rfl cleanup
  | read data => exact absurd rfl (other data)
  | writeAsync ret => exact frame_tcpWriteAsyncCb env ret sys
  | disconnectAsync => exact frame_tcpDisconnectAsyncCb env sys
  | reconnDelayTimer => rfl
  | connTimeout => exact frame_assert (fun core => core.tcp.isConnecting) _ sys
  | handshakeTimer => exact frame_attemptFailed env _ _
  | checkTimeout => exact frame_tcpWriteCheckTimeoutCb env _
  | hbTimer => exact frame_tcpHeartbeatTimerCb env _
  | hbTimeoutTimer => exact frame_tcpHeartbeatTimeoutCb env _
  | writeDone status => exact frame_tcpWriteDoneCb env status sys
  | readError => rw [runLoop, tcpOnTcpReadError, frame_tcpReconn, fireReason, frame_fireEvent]

/-- A callback other than a read and the cleanup leaves what has been settled. -/
theorem settings_runLoop {event : LoopEvent} (other : ∀ data, event ≠ .read data)
    (cleanup : event ≠ .cleanupAsync) (sys : Sys) :
    (runLoop env event sys).state.settings = sys.state.settings := by
  by_cases attempt : ∃ resolved ret, event = .connAsync resolved ret
  · obtain ⟨resolved, ret, rfl⟩ := attempt
    rw [runLoop, tcpConnAsyncCb]
    split
    · rfl
    · exact settings_startAttempt env resolved ret _
  by_cases done : ∃ status ret, event = .connDone status ret
  · obtain ⟨status, ret, rfl⟩ := done
    exact settings_tcpConnDoneCb env status ret sys
  · exact congrArg Frame.settings (frame_runLoop env other cleanup
      (fun resolved ret same => attempt ⟨resolved, ret, same⟩)
      (fun status ret same => done ⟨status, ret, same⟩) sys)

theorem frame_tcpOnHeartbeat (sys : Sys) :
    (tcpOnHeartbeat sys).state.frame = sys.state.frame := by
  have asserted := (frame_assert (fun core => core.tcp.hbTimeoutTimer.active) .heartbeatActive
    (sys.assert (fun core => core.tcp.state = .done) .heartbeatState)).trans (frame_assert ..)
  rw [tcpOnHeartbeat]
  split
  · rfl
  · exact asserted

theorem frame_onMessage (msg : PcMsg) (sys : Sys) :
    (onMessage env msg sys).state.frame = sys.state.frame := by
  have refused (reason : String) : (protoError env reason sys).state.frame =
      sys.state.frame := by
    rw [protoError, frame_tcpReconn, fireReason, frame_fireEvent]
  have answered (reqId : Nat) (text : CStr) (sys : Sys) :
      (onResponse env reqId text sys).state.frame = sys.state.frame := by
    have delivered := (Quiet.of_delivered (@delivered_pcTransResp env reqId pcRcOk
      (some text) sys)).frame
    exact (frame_assert ..).trans delivered
  rw [onMessage]
  split
  · exact refused _
  split
  · exact refused _
  split
  · exact refused _
  dsimp only
  split
  · exact (answered _ _ _).trans (frame_assert ..)
  · exact (frame_fireEvent env _ _ _ _).trans (frame_assert ..)

theorem frame_tcpOnDataRecieved (data : Option Bytes) (len : Nat) (sys : Sys) :
    (tcpOnDataRecieved env data len sys).state.frame = sys.state.frame := by
  rw [tcpOnDataRecieved]
  split
  · rfl
  · rfl
  · exact frame_onMessage env _ sys

theorem frame_handshakeFailed (sys : Sys) :
    (handshakeFailed env sys).state.frame = sys.state.frame := by
  rw [handshakeFailed, frame_tcpReset, fireReason, frame_fireEvent]

/-- The end of the handshake leaves the frame. -/
theorem frame_handshakeDone (sys : Sys) :
    (handshakeDone env sys).state.frame = sys.state.frame := by
  rw [handshakeDone]
  exact frame_fireEvent env .connected none none _

/-- What the local storage holds when an answer has been kept in it. -/
def storedText (needSync : Bool) (core : Core) : Option CStr :=
  if env.config.localStorageCb && needSync then
    (env.text.print (localStorage core.tcp)).or core.stored
  else core.stored

/-- Storing changes what is stored only. -/
theorem state_storeHandshake (needSync : Bool) (sys : Sys) :
    (storeHandshake env needSync sys).state =
      { sys.state with stored := storedText env needSync sys.state } := by
  rw [storeHandshake, storedText]
  split
  · cases env.text.print (localStorage sys.state.tcp) <;> rfl
  · rfl

/-- What is settled when an answer is accepted. -/
theorem settings_handshakeAccepted (result : HandshakeResult) (sys : Sys) :
    (handshakeAccepted env result sys).state.settings =
      { Core.settings { sys.state with tcp := result.tcp } with
        stored := storedText env result.needSync { sys.state with tcp := result.tcp } } := by
  have asserted : (((sys.assert (fun _ => result.dictAsserted) .handshakeDict).assert
      (fun _ => result.protosAsserted) .handshakeProtos).tcp fun _ => result.tcp).state =
        { sys.state with tcp := result.tcp } := by
    change { ((sys.assert _ _).assert _ _).state with tcp := result.tcp } = _
    rw [Sys.state_assert, Sys.state_assert]
  have stored := state_storeHandshake env result.needSync
    (((sys.assert (fun _ => result.dictAsserted) .handshakeDict).assert
      (fun _ => result.protosAsserted) .handshakeProtos).tcp fun _ => result.tcp)
  have done := congrArg Frame.settings (frame_handshakeDone env (tcpSendHandshakeAck env
    (storeHandshake env result.needSync (((sys.assert (fun _ => result.dictAsserted)
      .handshakeDict).assert (fun _ => result.protosAsserted) .handshakeProtos).tcp
        fun _ => result.tcp))))
  rw [asserted] at stored
  rw [handshakeAccepted]
  exact done.trans (congrArg Core.settings stored)

/-- The assertions about the tables come first. -/
theorem suffix_handshakeAccepted (result : HandshakeResult) (sys : Sys) :
    ((sys.assert (fun _ => result.dictAsserted) .handshakeDict).assert
      (fun _ => result.protosAsserted) .handshakeProtos).notes <:+
        (handshakeAccepted env result sys).notes := by
  have done (sys : Sys) : sys.notes <:+ (handshakeDone env sys).notes :=
    suffix_fireEvent .connected none none (sys.tcp fun tcp => { tcp with
      state := .done
      hbTimer :=
        if tcp.hbInterval ≠ -1 then .start tcp.loopTime (toInt32 (tcp.hbInterval * 1000))
        else tcp.hbTimer })
  have acked (sys : Sys) : (tcpSendHandshakeAck env sys).notes = sys.notes := rfl
  rw [handshakeAccepted]
  generalize (sys.assert _ .handshakeDict).assert _ .handshakeProtos = asserted
  have stored := (plain_storeHandshake env result.needSync (asserted.tcp fun _ => result.tcp)).suffix
  generalize storeHandshake env result.needSync (asserted.tcp fun _ => result.tcp) = mid at stored ⊢
  have later := done (tcpSendHandshakeAck env mid)
  rw [acked] at later
  exact stored.trans later

/-- An answer is accepted, or the handshake has failed, or the process crashes. -/
theorem onHandshakeRes_cases (res : Json) (sys : Sys) :
    (∃ stop, onHandshakeRes env res sys = sys.crash stop) ∨
      onHandshakeRes env res sys = handshakeFailed env sys ∨
        ∃ answer result, handshakeAccept answer sys.state.tcp = .ok result ∧
          onHandshakeRes env res sys = handshakeAccepted env result sys := by
  rw [onHandshakeRes]
  split
  · exact .inl ⟨_, rfl⟩
  · exact .inr (.inl rfl)
  next answer _ =>
    cases accepted : handshakeAccept answer sys.state.tcp with
    | error stop => exact .inl ⟨stop, rfl⟩
    | ok result => exact .inr (.inr ⟨answer, result, accepted, rfl⟩)

/-- The state in which an answer is read. -/
def handshakeAnswering (sys : Sys) : Sys :=
  (sys.assert (fun core => core.tcp.state = .handshakeing) .handshakeState).tcp fun tcp => { tcp with
    reconnTimes := 0
    handshakeTimer :=
      if env.config.connTimeout ≠ pcWithoutTimeout then tcp.handshakeTimer.stop
      else tcp.handshakeTimer }

/-- The answer leaves the frame until it is accepted. -/
theorem frame_handshakeAnswering (sys : Sys) :
    (handshakeAnswering env sys).state.frame = sys.state.frame := frame_assert ..

/-- An answer that is no JSON. -/
theorem tcpOnHandshakeResp_unparsed {data : Option Bytes}
    (unparsed : data.bind env.text.parse = none) (sys : Sys) :
    tcpOnHandshakeResp env data sys =
      (handshakeFailed env (handshakeAnswering env sys)).crash .nullDeref := by
  rw [tcpOnHandshakeResp, unparsed]
  rfl

/-- An answer that is parsed is handled. -/
theorem tcpOnHandshakeResp_parsed {data : Option Bytes} {res : Json} {last : Nat}
    (parsed : data.bind env.text.parse = some (res, last)) (sys : Sys) :
    tcpOnHandshakeResp env data sys = onHandshakeRes env res (handshakeAnswering env sys) := by
  rw [tcpOnHandshakeResp, parsed]
  rfl

/-- It ends in a crash, in a failure, or in the result that was accepted. -/
theorem tcpOnHandshakeResp_cases (data : Option Bytes) (sys : Sys) :
    (∃ stop, tcpOnHandshakeResp env data sys = (handshakeAnswering env sys).crash stop) ∨
      tcpOnHandshakeResp env data sys = handshakeFailed env (handshakeAnswering env sys) ∨
      (∃ stop, tcpOnHandshakeResp env data sys =
        (handshakeFailed env (handshakeAnswering env sys)).crash stop) ∨
      ∃ answer result, handshakeAccept answer (handshakeAnswering env sys).state.tcp = .ok result ∧
        tcpOnHandshakeResp env data sys =
          handshakeAccepted env result (handshakeAnswering env sys) := by
  cases parsed : data.bind env.text.parse with
  | none => exact .inr (.inr (.inl ⟨_, tcpOnHandshakeResp_unparsed env parsed sys⟩))
  | some found =>
      rw [tcpOnHandshakeResp_parsed env parsed]
      generalize handshakeAnswering env sys = first
      rcases onHandshakeRes_cases env found.1 first with crashed | failed | accepted
      · exact .inl crashed
      · exact .inr (.inl failed)
      · exact .inr (.inr (.inr accepted))

/-- Only an accepted answer changes the frame. -/
theorem frame_tcpOnHandshakeResp (data : Option Bytes) (sys : Sys) :
    (tcpOnHandshakeResp env data sys).state.frame = sys.state.frame ∨
      ∃ answer result, handshakeAccept answer (handshakeAnswering env sys).state.tcp = .ok result ∧
        tcpOnHandshakeResp env data sys =
          handshakeAccepted env result (handshakeAnswering env sys) := by
  have reading := frame_handshakeAnswering env sys
  have failed := (frame_handshakeFailed env (handshakeAnswering env sys)).trans reading
  rcases tcpOnHandshakeResp_cases env data sys with ⟨stop, same⟩ | same | ⟨stop, same⟩ | accepted
  · exact .inl (by rw [same, frame_crash, reading])
  · exact .inl (by rw [same, failed])
  · exact .inl (by rw [same, frame_crash, failed])
  · exact .inr accepted

/-- A package leaves what has been settled and what an attempt waits with, unless it is an
answer that is accepted. -/
theorem frame_trTcpOnPkgHandler (type : UInt8) (data : Option Bytes) (len : Nat) (sys : Sys) :
    (trTcpOnPkgHandler env type data len sys).state.frame = sys.state.frame ∨
      ∃ answer result mid, type = PkgType.handshake.code ∧
        mid.state.frame = sys.state.frame ∧
        handshakeAccept answer mid.state.tcp = .ok result ∧
        trTcpOnPkgHandler env type data len sys = handshakeAccepted env result mid := by
  have noted : ((sys.note (.package type data)).assert (fun _ =>
      type = PkgType.handshake.code || type = PkgType.heartbeat.code ||
        type = PkgType.data.code || type = PkgType.kick.code) .pkgType).state.frame =
          sys.state.frame := frame_assert ..
  rw [trTcpOnPkgHandler]
  generalize (sys.note (.package type data)).assert _ .pkgType = first at noted ⊢
  split
  next known =>
    have reading := frame_handshakeAnswering env first
    rcases frame_tcpOnHandshakeResp env data first with same | ⟨answer, result, accepted, handled⟩
    · exact .inl (same.trans noted)
    · exact .inr ⟨answer, result, _, PkgType.code_of_ofCode? known, reading.trans noted, accepted,
        handled⟩
  · exact .inl ((frame_tcpOnHeartbeat first).trans noted)
  · exact .inl ((frame_tcpOnDataRecieved env data len first).trans noted)
  · rw [tcpOnKickRecieved, frame_tcpReset, frame_fireEvent]
    exact .inl noted
  · exact .inl noted

section Steps

variable {env} {inv : Settings → Prop}
  (accepted : ∀ {answer result} {sys : Sys}, handshakeAccept answer sys.state.tcp = .ok result →
    (handshakeAccepted env result sys).Meets cond → inv sys.state.settings →
      inv (handshakeAccepted env result sys).state.settings)
  (closed : ∀ settings, settings.closed = true → settings.dict = .absent →
    settings.protos = .absent → inv settings)

/-- Nothing is settled. -/
theorem keeps_same (suffix : first.notes <:+ second.notes)
    (same : second.state.settings = first.state.settings) :
    Keeps cond (fun sys => inv sys.state.settings) first second :=
  ⟨suffix, fun _ start => by rwa [same]⟩

include accepted in

/-- A package keeps a property of the settings if an accepted answer does. -/
theorem keeps_settings_package (type : UInt8) (data : Option Bytes) (len : Nat) (sys : Sys) :
    Keeps cond (fun sys => inv sys.state.settings) sys (trTcpOnPkgHandler env type data len sys) := by
  refine ⟨?_, fun meets start => ?_⟩
  · exact (List.suffix_cons _ _).trans (handles_trTcpOnPkgHandler type data len sys).suffix
  · rcases frame_trTcpOnPkgHandler env type data len sys with
      same | ⟨answer, result, mid, -, same, taken, handled⟩
    · rwa [show (trTcpOnPkgHandler env type data len sys).state.settings = sys.state.settings from
        congrArg Frame.settings same]
    · have same : mid.state.settings = sys.state.settings := congrArg Frame.settings same
      rw [handled] at meets ⊢
      exact accepted taken meets (same ▸ start)

include accepted closed in
/-- What is settled is kept by every step if accepting an answer and the cleanup keep it. -/
theorem keeps_settings_step (step : Step env first second) :
    Keeps cond (fun sys => inv sys.state.settings) first second := by
  refine leads_callback_step id ?_ (fun _ => id) (fun _ => id) ?_ id ?_ step
  · intro first second deliver
    have quiet := Quiet.of_deliver deliver
    exact keeps_same quiet.notes.suffix quiet.settings
  · intro event first ready other
    have suffix := (List.suffix_cons _ _).trans
      (@turn_of_ready env event (first.note (.callback event)) ready other).suffix
    by_cases cleanup : event = .cleanupAsync
    · subst cleanup
      exact ⟨suffix, fun _ _ => closed _ rfl rfl rfl⟩
    · exact keeps_same suffix (settings_runLoop env other cleanup _)
  · exact fun type data len first _ => keeps_settings_package accepted type data len first

end Steps

end Pomelo
