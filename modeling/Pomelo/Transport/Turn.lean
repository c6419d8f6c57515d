import Pomelo.Package.Framing
import Pomelo.Transport.Frame

/-!
# What a callback can do

A callback of the loop seen from outside: `Turn` says what it does to the connection and
to the queues, and `Handles` says it for the handling of one package. Whatever a callback
does besides (timers that nothing depends on, the tables of the handshake, flags) is
`Plain`. Every step of the system is one of these or a step of user code (`keeps_step`),
so an invariant is shown by going through them once.
-/

namespace Pomelo

open Transition Recorded

variable {env : Env} {cond : Point → Core → Prop} {inv : Sys → Prop} {first second third : Sys}

/-- The part of the transport that is about the present connection. -/
structure Link where
  state : TcpState
  socket : UvSocket
  reading : Bool
  isConnecting : Bool
  isWaitingHb : Bool
  handshakeTimer : Bool
  hbTimer : Bool
  hbTimeoutTimer : Bool
  reconnDelayTimer : Bool
  deriving DecidableEq

def Transport.link (tcp : Transport) : Link where
  state := tcp.state
  socket := tcp.socket
  reading := tcp.reading
  isConnecting := tcp.isConnecting
  isWaitingHb := tcp.isWaitingHb
  handshakeTimer := tcp.handshakeTimer.active
  hbTimer := tcp.hbTimer.active
  hbTimeoutTimer := tcp.hbTimeoutTimer.active
  reconnDelayTimer := tcp.reconnDelayTimer.active

/-- The notes of what happens beside the connection. -/
def Point.aside : Point → Bool
  | .call .. | .returned .. | .sight _ | .crash _ | .assertion _ | .accepted _ | .write .. => true
  | _ => false

/-- What a delivery notes stands aside. -/
theorem Point.aside_of_ofDelivery {point : Point} (delivery : point.ofDelivery) : point.aside := by
  cases point <;> first | rfl | exact absurd delivery Bool.false_ne_true

/-- The connection is the same in all states from the first to the second. -/
structure Aside (first second : Sys) : Prop where
  link : second.state.tcp.link = first.state.tcp.link
  closed : second.state.closed = first.state.closed
  notes : ∃ new, second.notes = new ++ first.notes ∧ ∀ entry ∈ new, entry.1.aside

namespace Aside

theorem refl (sys : Sys) : Aside sys sys :=
  ⟨rfl, rfl, [], rfl, fun _ member => absurd member List.not_mem_nil⟩

theorem trans (left : Aside first second) (right : Aside second third) : Aside first third where
  link := right.link.trans left.link
  closed := right.closed.trans left.closed
  notes := by
    obtain ⟨early, before, earlyAside⟩ := left.notes
    obtain ⟨late, after, lateAside⟩ := right.notes
    refine ⟨late ++ early, by rw [after, before, List.append_assoc], fun entry member => ?_⟩
    exact (List.mem_append.mp member).elim (lateAside entry) (earlyAside entry)

/-- The notes so far are kept. -/
theorem suffix (aside : Aside first second) : first.notes <:+ second.notes := by
  obtain ⟨new, notes, -⟩ := aside.notes
  exact ⟨new, notes.symm⟩

/-- What leaves the notes and the link. -/
theorem of_notes (notes : second.notes = first.notes)
    (link : second.state.tcp.link = first.state.tcp.link)
    (closed : second.state.closed = first.state.closed) : Aside first second :=
  ⟨link, closed, [], notes, fun _ member => absurd member List.not_mem_nil⟩

theorem note {point : Point} (aside : point.aside) (sys : Sys) : Aside sys (sys.note point) :=
  ⟨rfl, rfl, [(point, sys.state)], rfl, fun entry member => by
    rw [List.mem_singleton.mp member]
    exact aside⟩

theorem crash (stop : Stop) (sys : Sys) : Aside sys (sys.crash stop) :=
  (note rfl sys).trans (of_notes rfl rfl rfl)

/-- A change of the transport beside its link. -/
theorem tcp {act : Transport → Transport} {sys : Sys}
    (link : (act sys.state.tcp).link = sys.state.tcp.link) : Aside sys (sys.tcp act) :=
  of_notes rfl link rfl

theorem wq (act : WriteQueues → WriteQueues) (sys : Sys) : Aside sys (sys.wq act) :=
  of_notes rfl rfl rfl

theorem hold (held : Bool) (sys : Sys) : Aside sys (sys.hold held) := of_notes rfl rfl rfl

theorem assert (holds : Core → Bool) (site : TcpAssertion) (sys : Sys) :
    Aside sys (sys.assert holds site) := by
  rw [Sys.assert]
  split
  · exact refl sys
  · exact note rfl sys

theorem of_quiet (quiet : Quiet first second) : Aside first second where
  link := by
    have same := congrArg Transport.link quiet.conn
    exact same
  closed := quiet.closed
  notes := by
    obtain ⟨new, notes, delivery⟩ := quiet.notes
    exact ⟨new, notes, fun entry member => Point.aside_of_ofDelivery (delivery entry member)⟩

theorem startCheck (need : Bool) (sys : Sys) :
    Aside sys (sys.tcp (Transport.startCheck need)) := by
  refine tcp ?_
  rw [Transport.startCheck]
  split <;> rfl

/-- Writing stands aside of the link. -/
theorem writeItems (needCheck : Bool) (ret : Int) (sys : Sys) :
    Aside sys (Pomelo.writeItems env needCheck ret sys) := by
  have begun : Aside sys ((sys.note (.write sys.state.tcp.wq.writeWait ret)).wq
      WriteQueues.beginWrite) := (note rfl sys).trans (wq _ _)
  rw [Pomelo.writeItems]
  split
  · exact ((begun.trans (hold true _)).trans (of_quiet (.dropItems ..))).trans (hold ..)
  · exact (begun.trans (tcp rfl)).trans (startCheck ..)

theorem drainPending (sys : Sys) : Aside sys (Pomelo.drainPending sys) := by
  rw [Pomelo.drainPending]
  split
  · exact wq _ sys
  · exact refl sys

theorem tcpWriteAsyncCb (ret : Int) (sys : Sys) :
    Aside sys (Pomelo.tcpWriteAsyncCb env ret sys) := by
  have cleared : Aside sys (sys.tcp fun tcp => { tcp with writeAsync := false }) := tcp rfl
  rw [Pomelo.tcpWriteAsyncCb]
  dsimp only
  split
  · exact cleared
  · have drained := cleared.trans (drainPending _)
    split
    · exact drained.trans (startCheck ..)
    · exact drained.trans (writeItems ..)

theorem tcpWriteDoneCb (status : Int) (sys : Sys) :
    Aside sys (Pomelo.tcpWriteDoneCb env status sys) := by
  have begun (sys : Sys) :
      Aside sys ((sys.tcp fun tcp => { tcp with isWriting := false }).hold true) :=
    (tcp rfl).trans (hold true _)
  have ended (sys : Sys) :
      Aside sys ((sys.hold false).tcp fun tcp => { tcp with writeAsync := true }) :=
    (hold false sys).trans (tcp rfl)
  exact (((assert _ _ sys).trans (begun _)).trans (of_quiet (.finishWrites ..))).trans (ended _)

theorem tcpWriteCheckTimeoutCb (sys : Sys) :
    Aside sys (Pomelo.tcpWriteCheckTimeoutCb env sys) :=
  (of_quiet ((((Quiet.hold true sys).trans (.tcpCheckQueueTimeout ..)).trans
    (.tcpCheckQueueTimeout ..)).trans (.tcpCheckQueueTimeout ..))).trans
      ((hold false _).trans (startCheck ..))

end Aside

theorem Quiet.aside (quiet : Quiet first second) : Aside first second := .of_quiet quiet

/-- The connection, the queues and `is_writing` are the same; no attempt is signalled, and
neither a signal to write nor the check for timeouts is called off. -/
structure Transport.Alike (first second : Transport) : Prop where
  link : second.link = first.link
  wq : second.wq = first.wq
  isWriting : second.isWriting = first.isWriting
  connAsync : second.connAsync → first.connAsync
  writeAsync : first.writeAsync → second.writeAsync
  checkTimeout : first.checkTimeout.active → second.checkTimeout.active

namespace Transport.Alike

theorem refl (tcp : Transport) : tcp.Alike tcp := ⟨rfl, rfl, rfl, id, id, id⟩

/-- What is alike is alike in the end. -/
theorem trans {first second third : Transport} (left : first.Alike second)
    (right : second.Alike third) : first.Alike third where
  link := right.link.trans left.link
  wq := right.wq.trans left.wq
  isWriting := right.isWriting.trans left.isWriting
  connAsync := left.connAsync ∘ right.connAsync
  writeAsync := right.writeAsync ∘ left.writeAsync
  checkTimeout := right.checkTimeout ∘ left.checkTimeout

end Transport.Alike

/-- The notes of a plain step. -/
def Point.plain : Point → Bool
  | .assertion _ | .crash _ => true
  | _ => false

/-- Nothing happens that the queues, the client or the connection could tell. -/
structure Plain (first second : Sys) : Prop where
  tcp : first.state.tcp.Alike second.state.tcp
  client : second.state.client = first.state.client
  calls : second.state.calls = first.state.calls
  nextBorn : second.state.nextBorn = first.state.nextBorn
  closed : second.state.closed = first.state.closed
  notes : ∃ new, second.notes = new ++ first.notes ∧ ∀ entry ∈ new, entry.1.plain

namespace Plain

theorem refl (sys : Sys) : Plain sys sys :=
  ⟨.refl _, rfl, rfl, rfl, rfl, [], rfl, fun _ member => absurd member List.not_mem_nil⟩

theorem trans (left : Plain first second) (right : Plain second third) : Plain first third where
  tcp := left.tcp.trans right.tcp
  client := right.client.trans left.client
  calls := right.calls.trans left.calls
  nextBorn := right.nextBorn.trans left.nextBorn
  closed := right.closed.trans left.closed
  notes := by
    obtain ⟨early, before, earlyPlain⟩ := left.notes
    obtain ⟨late, after, latePlain⟩ := right.notes
    refine ⟨late ++ early, by rw [after, before, List.append_assoc], fun entry member => ?_⟩
    exact (List.mem_append.mp member).elim (latePlain entry) (earlyPlain entry)

/-- The notes so far are kept. -/
theorem suffix (plain : Plain first second) : first.notes <:+ second.notes := by
  obtain ⟨new, notes, -⟩ := plain.notes
  exact ⟨new, notes.symm⟩

/-- What leaves the notes and all but the timers. -/
theorem of_notes (notes : second.notes = first.notes)
    (tcp : first.state.tcp.Alike second.state.tcp)
    (client : second.state.client = first.state.client)
    (calls : second.state.calls = first.state.calls)
    (nextBorn : second.state.nextBorn = first.state.nextBorn)
    (closed : second.state.closed = first.state.closed) : Plain first second :=
  ⟨tcp, client, calls, nextBorn, closed, [], notes, fun _ member => absurd member List.not_mem_nil⟩

/-- A change that leaves the transport alike. -/
theorem of_tcp {act : Transport → Transport} {sys : Sys}
    (alike : sys.state.tcp.Alike (act sys.state.tcp)) : Plain sys (sys.tcp act) :=
  of_notes rfl alike rfl rfl rfl rfl

theorem of_note {point : Point} (plain : point.plain) (sys : Sys) : Plain sys (sys.note point) :=
  ⟨.refl _, rfl, rfl, rfl, rfl, [(point, sys.state)], rfl, fun entry member => by
    rw [List.mem_singleton.mp member]
    exact plain⟩

theorem crash (stop : Stop) (sys : Sys) : Plain sys (sys.crash stop) :=
  (of_note rfl sys).trans (of_notes rfl (.refl _) rfl rfl rfl rfl)

theorem assert (holds : Core → Bool) (site : TcpAssertion) (sys : Sys) :
    Plain sys (sys.assert holds site) := by
  rw [Sys.assert]
  split
  · exact refl sys
  · exact of_note rfl sys

theorem store (data : Option CStr) (sys : Sys) :
    Plain sys (sys.change fun core => { core with stored := data }) :=
  of_notes rfl (.refl _) rfl rfl rfl rfl

theorem aside (plain : Plain first second) : Aside first second where
  link := plain.tcp.link
  closed := plain.closed
  notes := by
    obtain ⟨new, notes, plainNotes⟩ := plain.notes
    refine ⟨new, notes, fun entry member => ?_⟩
    have plain := plainNotes entry member
    cases point : entry.1 <;> rw [point] at plain <;>
      first | rfl | exact absurd plain Bool.false_ne_true

end Plain

/-- An attempt up to `uv_tcp_init`. -/
def Sys.attempt (sys : Sys) : Sys :=
  (sys.note .attempt).tcp fun tcp =>
    { tcp with state := .connecting, socket := .open, reading := false }

/-- The connection is up. -/
def Sys.connect (sys : Sys) : Sys :=
  sys.tcp fun tcp => { tcp with isConnecting := false, state := .handshakeing, reading := true }

/-- What `tcp__cleanup_async_cb` makes of the system behind its reset. -/
def Sys.cleanUp (sys : Sys) : Sys :=
  (sys.tcp Transport.cleanUp).change fun core => { core with closed := true }

/-- The package of a handshake. -/
def HandshakeBuf (env : Env) (buf : UvBuf) : Prop :=
  ∃ data len, buf = pcPkgEncode env.platform PkgType.handshake.code data len

/-- What a callback other than a read can do, after it has been noted. -/
inductive Turn (env : Env) (event : LoopEvent) (first : Sys) : Sys → Prop where
  | plain {last : Sys} (plain : Plain first last) : Turn env event first last
  | attempt {mid next last : Sys} (idle : first.state.tcp.isConnecting = false)
      (before : Plain first mid) (between : Plain mid.attempt next)
      (after : Plain (next.tcp fun tcp => { tcp with isConnecting := true }) last)
      (begins : event = .connAsync true 0) : Turn env event first last
  | attemptFails {mid last : Sys} (reason : String) (idle : first.state.tcp.isConnecting = false)
      (before : Plain first mid) (after : Plain mid.attempt last) :
      Turn env event first (tcpReconn env (fireReason env .connectError reason last))
  | connects {last : Sys} {buf : UvBuf} (timer : UvTimer) (handshake : HandshakeBuf env buf)
      (connecting : first.state.tcp.isConnecting = true)
      (up : first.state.tcp.socket ≠ .closing) (after : Plain first.connect last) :
      Turn env event first
        ((sendFirst buf last).tcp fun tcp => { tcp with handshakeTimer := timer })
  | connectsUnsent {last : Sys} (timer : UvTimer)
      (connecting : first.state.tcp.isConnecting = true)
      (up : first.state.tcp.socket ≠ .closing) (after : Plain first.connect last) :
      Turn env event first
        ((last.crash .nullDeref).tcp fun tcp => { tcp with handshakeTimer := timer })
  | readFails {last : Sys} (connecting : first.state.tcp.isConnecting = true)
      (after : Plain (first.tcp fun tcp =>
        { tcp with isConnecting := false, state := .handshakeing }) last) :
      Turn env event first (tcpReconn env last)
  | connectFails {last : Sys} (reason : String)
      (connecting : first.state.tcp.isConnecting = true)
      (after : Plain (first.tcp fun tcp => { tcp with isConnecting := false }) last) :
      Turn env event first (tcpReconn env (fireReason env .connectError reason last))
  | connTimeout {last : Sys}
      (after : Plain (first.tcp fun tcp => { tcp with socket := .closing }) last) :
      Turn env event first last
  | handshakeLate (late : event = .handshakeTimer)
      (active : first.state.tcp.handshakeTimer.active = true) :
      Turn env event first (tcpReconn env (fireReason env .connectError "Connect Timeout"
        (first.tcp fun tcp => { tcp with handshakeTimer := tcp.handshakeTimer.stop })))
  | heartbeatLate {mid : Sys} (active : first.state.tcp.hbTimeoutTimer.active = true)
      (after : Plain (first.tcp fun tcp => { tcp with hbTimeoutTimer := tcp.hbTimeoutTimer.stop })
        mid) :
      Turn env event first
        (tcpReconn env (fireReason env .unexpectedDisconnect "HB Timeout" mid))
  | readError (reading : first.state.tcp.reading = true)
      (up : first.state.tcp.socket = .open) :
      Turn env event first
        (tcpReconn env (fireReason env .unexpectedDisconnect "Read Error Or Close" first))
  | heartbeat {mid last : Sys} (timer : UvTimer) (active : first.state.tcp.hbTimer.active = true)
      (before : Plain (first.tcp fun tcp => { tcp with hbTimer := tcp.hbTimer.stop }) mid)
      (after : Plain ((sendLast (pcPkgEncode env.platform PkgType.heartbeat.code none 0) mid).tcp
        fun tcp => { tcp with isWaitingHb := true, hbTimeoutTimer := timer }) last)
      (armed : timer.active = true) : Turn env event first last
  | reconnDelay (active : first.state.tcp.reconnDelayTimer.active = true) :
      Turn env event first (tcpReconnDelayTimerCb first)
  | disconnected {mid last : Sys} (before : Plain first mid) (after : Plain (tcpReset env mid) last) :
      Turn env event first (fireEvent env .disconnect none none last)
  | cleanedUp {mid : Sys} (before : Plain first mid) :
      Turn env event first (tcpReset env mid).cleanUp
  | writes (ret : Int) : Turn env event first (tcpWriteAsyncCb env ret first)
  | written (status : Int) (done : event = .writeDone status)
      (writing : first.state.tcp.isWriting = true) :
      Turn env event first (tcpWriteDoneCb env status first)
  | checks (active : first.state.tcp.checkTimeout.active = true) :
      Turn env event first (tcpWriteCheckTimeoutCb env
        (first.tcp fun tcp => { tcp with checkTimeout := tcp.checkTimeout.stop }))

/-- What the handling of a package can do, after it has been noted. -/
inductive Handles (env : Env) (type : UInt8) (first : Sys) : Sys → Prop where
  | plain {last : Sys} (plain : Plain first last) : Handles env type first last
  | kicked {mid : Sys} (kick : type = PkgType.kick.code) (before : Plain first mid) :
      Handles env type first (tcpReset env (fireEvent env .kickedByServer none none mid))
  | failed {mid last : Sys} (timer : UvTimer) (handshake : type = PkgType.handshake.code)
      (before : Plain first mid)
      (after : Plain (mid.tcp fun tcp => { tcp with handshakeTimer := timer }) last) :
      Handles env type first last
  | refused {mid next last : Sys} (timer : UvTimer) (handshake : type = PkgType.handshake.code)
      (before : Plain first mid)
      (between : Plain (mid.tcp fun tcp => { tcp with handshakeTimer := timer }) next)
      (after : Plain (handshakeFailed env next) last) :
      Handles env type first last
  | accepted {mid next last : Sys} (timer hbTimer : UvTimer)
      (handshake : type = PkgType.handshake.code) (before : Plain first mid)
      (between : Plain (mid.tcp fun tcp => { tcp with handshakeTimer := timer }) next)
      (after : Plain (fireEvent env .connected none none ((tcpSendHandshakeAck env next).tcp
        fun tcp => { tcp with state := .done, hbTimer := hbTimer })) last) :
      Handles env type first last
  | undecodable {mid : Sys} (reason : String) (data : type = PkgType.data.code)
      (before : Plain first mid) :
      Handles env type first (protoError env reason mid)
  | pushed {mid : Sys} (route text : CStr) (data : type = PkgType.data.code)
      (before : Plain first mid) :
      Handles env type first (fireEvent env .userDefinedPush (some route) (some text) mid)
  | answered {mid last : Sys} (reqId : Nat) (text : CStr) (data : type = PkgType.data.code)
      (before : Plain first mid)
      (after : Plain (pcTransResp (loopReceiver env) env.config.enablePolling reqId pcRcOk
        (some text) mid) last) :
      Handles env type first (last.wq (WriteQueues.answer reqId))
  | heartbeat {mid : Sys} (timer : UvTimer) (beat : type = PkgType.heartbeat.code)
      (waiting : first.state.tcp.isWaitingHb = true) (before : Plain first mid) {last : Sys}
      (after : Plain (mid.tcp fun tcp => { tcp with
        hbTimeoutTimer := tcp.hbTimeoutTimer.stop
        isWaitingHb := false
        hbTimer := timer }) last)
      (armed : timer.active = true) : Handles env type first last

/-- A field that the invariants do not look at is set. -/
theorem Transport.Alike.of_fields {first second : Transport} (link : second.link = first.link)
    (wq : second.wq = first.wq) (isWriting : second.isWriting = first.isWriting)
    (connAsync : second.connAsync = first.connAsync)
    (writeAsync : second.writeAsync = first.writeAsync)
    (checkTimeout : second.checkTimeout = first.checkTimeout) : first.Alike second :=
  ⟨link, wq, isWriting, fun set => connAsync ▸ set, fun set => writeAsync.symm ▸ set,
    fun set => checkTimeout.symm ▸ set⟩

/-- The check for timeouts is started or left running. -/
theorem Plain.startCheck (need : Bool) (sys : Sys) :
    Plain sys (sys.tcp (Transport.startCheck need)) := by
  refine .of_tcp ?_
  rw [Transport.startCheck]
  split
  · exact ⟨rfl, rfl, rfl, id, id, fun _ => rfl⟩
  · exact .refl _

/-- Fields of the connection are set after a plain step. -/
theorem Plain.map_tcp (plain : Plain first second) (act : Transport → Transport)
    (onLink : Link → Link) (link : ∀ tcp, (act tcp).link = onLink tcp.link)
    (wq : ∀ tcp, (act tcp).wq = tcp.wq) (isWriting : ∀ tcp, (act tcp).isWriting = tcp.isWriting)
    (connAsync : ∀ tcp, (act tcp).connAsync = tcp.connAsync)
    (writeAsync : ∀ tcp, (act tcp).writeAsync = tcp.writeAsync)
    (checkTimeout : ∀ tcp, (act tcp).checkTimeout = tcp.checkTimeout) :
    Plain (first.tcp act) (second.tcp act) where
  tcp := by
    have alike := plain.tcp
    refine ⟨?_, ?_, ?_, ?_, ?_, ?_⟩
    · exact (link _).trans ((congrArg onLink alike.link).trans (link _).symm)
    · exact (wq _).trans (alike.wq.trans (wq _).symm)
    · exact (isWriting _).trans (alike.isWriting.trans (isWriting _).symm)
    · intro set
      exact ((connAsync _).trans (alike.connAsync ((connAsync _).symm.trans set)))
    · intro set
      exact ((writeAsync _).trans (alike.writeAsync ((writeAsync _).symm.trans set)))
    · intro set
      rw [Sys.tcp, Recorded.state_change] at set ⊢
      simp only [checkTimeout] at set ⊢
      exact alike.checkTimeout set
  client := plain.client
  calls := plain.calls
  nextBorn := plain.nextBorn
  closed := plain.closed
  notes := plain.notes

/-- Beginning an attempt is plain behind its note. -/
theorem plain_beginAttempt (sys : Sys) : Plain sys.attempt (beginAttempt sys) := by
  rw [beginAttempt, Sys.assert]
  split
  · exact .refl _
  · exact ⟨.refl _, rfl, rfl, rfl, rfl, [_], rfl, fun entry member => by
      rw [List.mem_singleton.mp member]
      rfl⟩

/-- The callback of the connection attempt is a turn. -/
theorem turn_tcpConnAsyncCb (resolved : Bool) (ret : Int) (sys : Sys) :
    Turn env (.connAsync resolved ret) sys (tcpConnAsyncCb env resolved ret sys) := by
  have cleared : Plain sys (sys.tcp fun tcp => { tcp with connAsync := false }) :=
    .of_tcp ⟨rfl, rfl, rfl, fun set => absurd set Bool.false_ne_true, id, id⟩
  rw [tcpConnAsyncCb]
  split
  next => exact .plain cleared
  next idle =>
    have idle : sys.state.tcp.isConnecting = false := Bool.eq_false_of_not_eq_true idle
    have begun := plain_beginAttempt (sys.tcp fun tcp => { tcp with connAsync := false })
    rw [startAttempt, attemptFailed, attemptFailed]
    split
    · exact .attemptFails _ idle cleared begun
    next resolves =>
    split
    · exact .attemptFails _ idle cleared begun
    next taken =>
      have begins : LoopEvent.connAsync resolved ret = .connAsync true 0 := by
        rw [Bool.not_eq_true', Bool.not_eq_false] at resolves
        rw [resolves, not_not.mp taken]
      refine .attempt idle cleared begun ?_ begins
      split
      · exact .of_tcp (.of_fields rfl rfl rfl rfl rfl rfl)
      · exact .refl _

variable (env) in
/-- `tcp__send_handshake` crashes or queues the package, after its assertions. -/
theorem tcpSendHandshake_cases (sys : Sys) :
    ∃ last, Plain sys last ∧ (tcpSendHandshake env sys = last.crash .nullDeref ∨
      ∃ buf, HandshakeBuf env buf ∧ tcpSendHandshake env sys = sendFirst buf last) := by
  rw [tcpSendHandshake]
  split
  · refine ⟨_, ?_, .inl rfl⟩
    exact (Plain.assert _ _ sys).trans (Plain.assert _ _ _)
  · refine ⟨_, ?_, .inr ⟨_, ⟨_, _, rfl⟩, rfl⟩⟩
    exact (Plain.assert _ _ sys).trans (Plain.assert _ _ _)

/-- An assertion is made before a field is set, and others with it. -/
theorem Plain.assert_tcp {act other : Transport → Transport} {sys : Sys} (holds : Core → Bool)
    (site : TcpAssertion) (alike : (act sys.state.tcp).Alike (other sys.state.tcp)) :
    Plain (sys.tcp act) ((sys.assert holds site).tcp other) := by
  rw [Sys.assert]
  split
  · exact of_notes rfl alike rfl rfl rfl rfl
  · exact ⟨alike, rfl, rfl, rfl, rfl, [(_, _)], rfl, fun entry member => by
      rw [List.mem_singleton.mp member]
      rfl⟩

/-- The handshake timer of a client that waits without limit is left as it is. -/
theorem tcp_handshakeTimer (sys : Sys) :
    (sys.tcp fun tcp => { tcp with handshakeTimer := sys.state.tcp.handshakeTimer }) = sys := rfl

/-- A connection that comes up is a turn. -/
theorem turn_connDoneUp {mid : Sys} (hsTimeout ret : Int) (event : LoopEvent) (sys : Sys)
    (connecting : sys.state.tcp.isConnecting = true) (up : sys.state.tcp.socket ≠ .closing)
    (ended : Plain (sys.tcp fun tcp => { tcp with isConnecting := false }) mid) :
    Turn env event sys (connDoneUp env hsTimeout ret mid) := by
  have connected : Plain sys.connect
      ((mid.tcp fun tcp => { tcp with state := .handshakeing }).tcp fun tcp =>
        { tcp with reading := true }) :=
    ended.map_tcp (fun tcp => { tcp with state := .handshakeing, reading := true })
      (fun link => { link with state := .handshakeing, reading := true })
      (fun _ => rfl) (fun _ => rfl) (fun _ => rfl) (fun _ => rfl) (fun _ => rfl) (fun _ => rfl)
  have unread : Plain (sys.tcp fun tcp => { tcp with isConnecting := false, state := .handshakeing })
      (mid.tcp fun tcp => { tcp with state := .handshakeing }) :=
    ended.map_tcp (fun tcp => { tcp with state := .handshakeing })
      (fun link => { link with state := .handshakeing })
      (fun _ => rfl) (fun _ => rfl) (fun _ => rfl) (fun _ => rfl) (fun _ => rfl) (fun _ => rfl)
  rw [connDoneUp]
  split
  · exact .readFails connecting unread
  · obtain ⟨last, after, unsent | ⟨buf, handshake, sent⟩⟩ :=
      tcpSendHandshake_cases env ((mid.tcp fun tcp => { tcp with state := .handshakeing }).tcp
        fun tcp => { tcp with reading := true })
    · rw [unsent]
      split
      · exact .connectsUnsent _ connecting up (connected.trans after)
      · rw [← tcp_handshakeTimer (last.crash .nullDeref)]
        exact .connectsUnsent _ connecting up (connected.trans after)
    · rw [sent]
      split
      · exact .connects _ handshake connecting up (connected.trans after)
      · rw [← tcp_handshakeTimer (sendFirst buf last)]
        exact .connects _ handshake connecting up (connected.trans after)

theorem turn_tcpConnDoneCb (status ret : Int) (event : LoopEvent) (sys : Sys)
    (connecting : sys.state.tcp.isConnecting = true)
    (up : status = 0 → sys.state.tcp.socket ≠ .closing) :
    Turn env event sys (tcpConnDoneCb env status ret sys) := by
  have ended : Plain (sys.tcp fun tcp => { tcp with isConnecting := false })
      ((sys.assert (fun core => core.tcp.isConnecting) .connDoneConnecting).tcp fun tcp =>
        { tcp with
          isConnecting := false
          connTimeout :=
            if env.config.connTimeout ≠ pcWithoutTimeout then tcp.connTimeout.stop
            else tcp.connTimeout }) :=
    Plain.assert_tcp _ _ (.of_fields rfl rfl rfl rfl rfl rfl)
  rw [tcpConnDoneCb]
  split
  next same => exact turn_connDoneUp _ ret event sys connecting (up same) ended
  split
  · exact .connectFails "Connect Timeout" connecting ended
  · exact .connectFails "Connect Error" connecting ended

/-- The beat of the timer is a turn. -/
theorem turn_tcpHeartbeatTimerCb (event : LoopEvent) (sys : Sys)
    (active : sys.state.tcp.hbTimer.active = true) :
    Turn env event sys (tcpHeartbeatTimerCb env (sys.tcp fun tcp =>
      { tcp with hbTimer := tcp.hbTimer.stop })) :=
  .heartbeat _ active ((Plain.assert _ _ _).trans (.assert _ _ _)) (.refl _) rfl

/-- The timeout of the heartbeat is one. -/
theorem turn_tcpHeartbeatTimeoutCb (event : LoopEvent) (sys : Sys)
    (active : sys.state.tcp.hbTimeoutTimer.active = true) :
    Turn env event sys (tcpHeartbeatTimeoutCb env (sys.tcp fun tcp =>
      { tcp with hbTimeoutTimer := tcp.hbTimeoutTimer.stop })) :=
  .heartbeatLate active (.assert _ _ _)

theorem turn_tcpDisconnectAsyncCb (event : LoopEvent) (sys : Sys) :
    Turn env event sys (tcpDisconnectAsyncCb env sys) := by
  have cleared : Plain sys (sys.tcp fun tcp => { tcp with disconnectAsync := false }) :=
    .of_tcp (.of_fields rfl rfl rfl rfl rfl rfl)
  have counted (sys : Sys) : Plain sys (sys.tcp fun tcp => { tcp with reconnTimes := 0 }) :=
    .of_tcp (.of_fields rfl rfl rfl rfl rfl rfl)
  exact .disconnected cleared (counted _)

/-- A timer that is due is active. -/
theorem Transport.due_active {tcp : Transport} {timer : UvTimer} (due : tcp.due timer = true) :
    timer.active = true :=
  (Bool.and_eq_true_iff.mp due).1

/-- The timeout of the connection attempt is a turn. -/
theorem turn_tcpConnTimeoutCb (event : LoopEvent) (sys : Sys) :
    Turn env event sys (tcpConnTimeoutCb sys) := by
  have closed : Plain (sys.tcp fun tcp => { tcp with socket := .closing })
      ((sys.assert (fun core => core.tcp.isConnecting) .connTimeoutConnecting).tcp fun tcp =>
        { tcp with connTimeout := tcp.connTimeout.stop, socket := .closing }) :=
    Plain.assert_tcp _ _ (.of_fields rfl rfl rfl rfl rfl rfl)
  exact .connTimeout closed

/-- A callback that is ready takes its turn. -/
theorem turn_of_ready {event : LoopEvent} {sys : Sys} (ready : sys.state.ready event = true)
    (other : ∀ data, event ≠ .read data) : Turn env event sys (runLoop env event sys) := by
  have due {timer : UvTimer} (ready : (sys.state.tcp.due timer && !sys.state.closed) = true) :
      timer.active = true := Transport.due_active (Bool.and_eq_true_iff.mp ready).1
  cases event with
  | connAsync resolved ret => exact turn_tcpConnAsyncCb ..
  | writeAsync ret => exact .writes ret
  | disconnectAsync => exact turn_tcpDisconnectAsyncCb ..
  | cleanupAsync => exact .cleanedUp (.of_tcp (.of_fields rfl rfl rfl rfl rfl rfl))
  | reconnDelayTimer => exact .reconnDelay (due ready)
  | connTimeout => exact turn_tcpConnTimeoutCb ..
  | handshakeTimer => exact .handshakeLate rfl (due ready)
  | checkTimeout => exact .checks (due ready)
  | hbTimer => exact turn_tcpHeartbeatTimerCb _ sys (due ready)
  | hbTimeoutTimer => exact turn_tcpHeartbeatTimeoutCb _ sys (due ready)
  | connDone status ret =>
      simp only [Core.ready, Bool.and_eq_true, decide_eq_true_eq, Bool.or_eq_true] at ready
      refine turn_tcpConnDoneCb status ret _ sys ready.1 fun same closing => ?_
      rcases ready.2 with up | canceled
      · exact up closing
      · exact absurd (same.symm.trans canceled) (by decide)
  | writeDone status => exact .written status rfl ready
  | readError =>
      simp only [Core.ready, Bool.and_eq_true, decide_eq_true_eq] at ready
      exact .readError ready.1 ready.2
  | read data => exact absurd rfl (other data)

/-- Accepting an answer sets the heartbeat and the tables. -/
theorem alike_handshakeAccept {answer : Json} {tcp : Transport} {result : HandshakeResult}
    (accepted : handshakeAccept answer tcp = .ok result) : tcp.Alike result.tcp := by
  rw [handshakeAccept] at accepted
  obtain ⟨interval, -, accepted⟩ := Stop.bind_eq_ok accepted
  obtain ⟨useDict, -, accepted⟩ := Stop.bind_eq_ok accepted
  obtain ⟨dict, -, accepted⟩ := Stop.bind_eq_ok accepted
  obtain ⟨useProto, -, accepted⟩ := Stop.bind_eq_ok accepted
  obtain ⟨protos, -, accepted⟩ := Stop.bind_eq_ok accepted
  cases accepted
  have beats : tcp.Alike (tcp.setHeartbeat interval) := by
    rw [Transport.setHeartbeat]
    split <;> exact .of_fields rfl rfl rfl rfl rfl rfl
  exact beats.trans (.of_fields rfl rfl rfl rfl rfl rfl)

variable (env) in

theorem plain_storeHandshake (needSync : Bool) (sys : Sys) :
    Plain sys (storeHandshake env needSync sys) := by
  rw [storeHandshake]
  split
  · split
    · exact .refl sys
    · exact .store _ sys
  · exact .refl sys

theorem handles_onMessage (msg : PcMsg) (sys : Sys) {type : UInt8}
    (data : type = PkgType.data.code) : Handles env type sys (onMessage env msg sys) := by
  rw [onMessage]
  split
  · exact .undecodable _ data (.refl sys)
  next text _ =>
    split
    · exact .undecodable _ data (.refl sys)
    split
    · exact .undecodable _ data (.refl sys)
    next pushes =>
      dsimp only
      split
      · exact .answered msg.id text data (.assert _ _ sys) (.assert _ _ _)
      next notify =>
        cases routed : msg.route with
        | none => exact absurd ⟨not_not.mp notify, by rw [routed]; rfl⟩ pushes
        | some route => exact .pushed route text data (.assert _ _ sys)

theorem handles_tcpOnDataRecieved (body : Option Bytes) (len : Nat) (sys : Sys) {type : UInt8}
    (data : type = PkgType.data.code) :
    Handles env type sys (tcpOnDataRecieved env body len sys) := by
  rw [tcpOnDataRecieved]
  split
  · exact .plain ((Plain.of_note rfl sys).trans (.crash _ _))
  · exact .plain (.crash _ sys)
  · exact handles_onMessage _ sys data

theorem handles_tcpOnHeartbeat (sys : Sys) {type : UInt8} (beat : type = PkgType.heartbeat.code) :
    Handles env type sys (tcpOnHeartbeat sys) := by
  rw [tcpOnHeartbeat]
  split
  · exact .plain (.refl sys)
  next waiting =>
    have waiting : sys.state.tcp.isWaitingHb = true := by
      simpa only [Bool.not_eq_true', Bool.not_eq_false] using waiting
    have asserted := (Plain.assert (fun core => core.tcp.state = .done) .heartbeatState sys).trans
      (.assert (fun core => core.tcp.hbTimeoutTimer.active) .heartbeatActive _)
    exact .heartbeat _ beat waiting asserted
      (.of_notes rfl (.of_fields rfl rfl rfl rfl rfl rfl) rfl rfl rfl rfl) rfl

theorem handles_handshakeAccepted (result : HandshakeResult) {first mid next : Sys}
    (timer : UvTimer) {type : UInt8} (handshake : type = PkgType.handshake.code)
    (before : Plain first mid)
    (between : Plain (mid.tcp fun tcp => { tcp with handshakeTimer := timer }) next)
    (accepted : next.state.tcp.Alike result.tcp) :
    Handles env type first (handshakeAccepted env result next) := by
  have asserted := (Plain.assert (fun _ => result.dictAsserted) .handshakeDict next).trans
    (.assert (fun _ => result.protosAsserted) .handshakeProtos _)
  have taken : Plain next (((next.assert (fun _ => result.dictAsserted) .handshakeDict).assert
      (fun _ => result.protosAsserted) .handshakeProtos).tcp fun _ => result.tcp) := by
    refine asserted.trans (.of_tcp ?_)
    rw [Sys.state_assert, Sys.state_assert]
    exact accepted
  have stored := (between.trans taken).trans (plain_storeHandshake env result.needSync _)
  have signalled (sys : Sys) : Plain sys (sys.tcp fun tcp => { tcp with writeAsync := true }) :=
    .of_tcp ⟨rfl, rfl, rfl, id, fun _ => rfl, id⟩
  have done (sys : Sys) : handshakeDone env sys =
      (fireEvent env .connected none none (sys.tcp fun tcp => { tcp with
        state := .done
        hbTimer :=
          if sys.state.tcp.hbInterval ≠ -1 then
            .start sys.state.tcp.loopTime (toInt32 (sys.state.tcp.hbInterval * 1000))
          else sys.state.tcp.hbTimer })).tcp fun tcp => { tcp with writeAsync := true } := rfl
  rw [handshakeAccepted, done]
  exact .accepted timer _ handshake before stored (signalled _)

theorem handles_onHandshakeRes (res : Json) {first mid next : Sys}
    (timer : UvTimer) {type : UInt8} (handshake : type = PkgType.handshake.code)
    (before : Plain first mid)
    (between : Plain (mid.tcp fun tcp => { tcp with handshakeTimer := timer }) next) :
    Handles env type first (onHandshakeRes env res next) := by
  rw [onHandshakeRes]
  split
  · exact .failed timer handshake before (between.trans (.crash _ _))
  · exact .refused timer handshake before between (.refl _)
  · split
    · exact .failed timer handshake before (between.trans (.crash _ _))
    next accepted =>
      exact handles_handshakeAccepted _ timer handshake before between
        (alike_handshakeAccept accepted)

theorem handles_tcpOnHandshakeResp (data : Option Bytes) (sys : Sys) {type : UInt8}
    (handshake : type = PkgType.handshake.code) :
    Handles env type sys (tcpOnHandshakeResp env data sys) := by
  have asserted : Plain sys (sys.assert (fun core => core.tcp.state = .handshakeing)
    .handshakeState) := .assert _ _ sys
  have between (sys : Sys) : Plain (sys.tcp fun tcp => { tcp with
      handshakeTimer :=
        if env.config.connTimeout ≠ pcWithoutTimeout then sys.state.tcp.handshakeTimer.stop
        else sys.state.tcp.handshakeTimer }) (sys.tcp fun tcp => { tcp with
      reconnTimes := 0
      handshakeTimer :=
        if env.config.connTimeout ≠ pcWithoutTimeout then tcp.handshakeTimer.stop
        else tcp.handshakeTimer }) :=
    .of_notes rfl (.of_fields rfl rfl rfl rfl rfl rfl) rfl rfl rfl rfl
  rw [tcpOnHandshakeResp]
  split
  · exact .refused _ handshake asserted (between _) (.crash _ _)
  · exact handles_onHandshakeRes _ _ handshake asserted (between _)

/-- A plain step before the handling. -/
theorem Handles.after_plain {type : UInt8} (plain : Plain first second)
    (handles : Handles env type second third) : Handles env type first third := by
  cases handles with
  | plain later => exact .plain (plain.trans later)
  | kicked kick before => exact .kicked kick (plain.trans before)
  | failed timer handshake before after => exact .failed timer handshake (plain.trans before) after
  | refused timer handshake before between after =>
      exact .refused timer handshake (plain.trans before) between after
  | accepted timer hbTimer handshake before between after =>
      exact .accepted timer hbTimer handshake (plain.trans before) between after
  | undecodable reason data before => exact .undecodable reason data (plain.trans before)
  | pushed route text data before => exact .pushed route text data (plain.trans before)
  | answered reqId text data before after =>
      exact .answered reqId text data (plain.trans before) after
  | heartbeat timer beat waiting before after armed =>
      have same : second.state.tcp.isWaitingHb = first.state.tcp.isWaitingHb :=
        congrArg Link.isWaitingHb plain.tcp.link
      exact .heartbeat timer beat (same.symm.trans waiting) (plain.trans before) after armed

/-- The handling of a package is one of these. -/
theorem handles_trTcpOnPkgHandler (type : UInt8) (data : Option Bytes) (len : Nat) (sys : Sys) :
    Handles env type (sys.note (.package type data)) (trTcpOnPkgHandler env type data len sys) := by
  rw [trTcpOnPkgHandler]
  split
  next known =>
    exact (handles_tcpOnHandshakeResp data _ (PkgType.code_of_ofCode? known)).after_plain
      (.assert _ _ _)
  next known =>
    exact (handles_tcpOnHeartbeat _ (PkgType.code_of_ofCode? known)).after_plain (.assert _ _ _)
  next known =>
    exact (handles_tcpOnDataRecieved data len _ (PkgType.code_of_ofCode? known)).after_plain
      (.assert _ _ _)
  next known =>
    exact .kicked (PkgType.code_of_ofCode? known) (.assert _ _ _)
  next => exact .plain (.assert _ _ _)

/-- A step is only taken by a process that has not crashed. -/
theorem Step.running (step : Step env first second) : first.state.crashed = false := by
  obtain ⟨label, next⟩ := step
  unfold Pomelo.step at next
  split at next
  · exact absurd next nofun
  next running => exact Bool.eq_false_of_not_eq_true running

/-- An invariant leads to a property through every step if the acts of user code and the
handling of packages keep it, and the other callbacks lead to the property. -/
theorem leads_acts_step {post : Sys → Prop} (keep : ∀ {sys}, inv sys → post sys)
    (acts : ∀ sys act, Keeps cond inv sys (Pomelo.act env sys act))
    (time : ∀ {sys} milliseconds, inv sys →
      inv (sys.tcp fun tcp => { tcp with loopTime := tcp.loopTime + milliseconds }))
    (parser : ∀ {sys} parser, inv sys → inv (sys.tcp fun tcp => { tcp with pkgParser := parser }))
    (callback : ∀ {event first}, first.state.ready event = true →
      (∀ data, event ≠ .read data) →
        Leads cond inv post first (runLoop env event (first.note (.callback event))))
    (read : ∀ {sys data}, inv sys → inv (sys.note (.callback (.read data))))
    (package : ∀ type data len {first}, first.state.crashed = false →
      Keeps cond inv first (trTcpOnPkgHandler env type data len first))
    (step : Step env first second) : Leads cond inv post first second := by
  have kept {first second : Sys} (keeps : Keeps cond inv first second) :
      Leads cond inv post first second := keeps.weaken (fun _ => id) (fun _ => keep)
  have stored (fresh : PkgParser) (sys : Sys) :
      Keeps cond inv sys (sys.tcp fun tcp => { tcp with pkgParser := fresh }) :=
    ⟨List.suffix_refl _, fun _ => parser fresh⟩
  obtain ⟨label, next⟩ := step
  unfold Pomelo.step at next
  split at next
  · exact absurd next nofun
  cases label with
  | begin call => exact Option.some.inj next ▸ kept (acts first (.begin .user call))
  | advance id => exact Option.some.inj next ▸ kept (acts first (.advance id))
  | tick seconds => exact Option.some.inj next ▸ kept (acts first (.tick seconds))
  | loopTime milliseconds =>
      exact Option.some.inj next ▸ kept ⟨List.suffix_refl _, fun _ => time milliseconds⟩
  | loop event =>
      dsimp only at next
      split at next
      next ready =>
        obtain rfl := Option.some.inj next
        by_cases other : ∀ data, event ≠ .read data
        · exact callback ready other
        simp only [not_forall, not_not] at other
        obtain ⟨data, rfl⟩ := other
        have noted : Keeps cond inv first (first.note (.callback (.read data))) :=
          ⟨List.suffix_cons _ _, fun _ => read⟩
        refine kept (noted.trans ?_)
        have calls := pcPkgParserFeed_calls (onPkg env) data
          (first.state.tcp.pkgParser, first.note (.callback (.read data)))
        have fed : Keeps cond inv (first.note (.callback (.read data)))
            (pcPkgParserFeed (onPkg env) data
              (first.state.tcp.pkgParser, first.note (.callback (.read data)))).2 := by
          generalize (pcPkgParserFeed (onPkg env) data (first.state.tcp.pkgParser,
            first.note (.callback (.read data)))).2 = last at calls
          induction calls with
          | refl => exact Leads.refl _
          | tail _ called ih =>
              obtain ⟨type, body, len, fresh, rfl⟩ := called
              refine ih.trans ?_
              rw [onPkg]
              split
              · exact Leads.refl _
              next running =>
                exact (stored fresh _).trans
                  (package type body len (Bool.eq_false_of_not_eq_true running))
        exact fed.trans (stored _ _)
      next => exact absurd next nofun

/-- The same, if a step of a delivery keeps it. -/
theorem leads_callback_step {post : Sys → Prop} (keep : ∀ {sys}, inv sys → post sys)
    (deliver : ∀ {first second}, Deliver env first second → Keeps cond inv first second)
    (time : ∀ {sys} milliseconds, inv sys →
      inv (sys.tcp fun tcp => { tcp with loopTime := tcp.loopTime + milliseconds }))
    (parser : ∀ {sys} parser, inv sys → inv (sys.tcp fun tcp => { tcp with pkgParser := parser }))
    (callback : ∀ {event first}, first.state.ready event = true →
      (∀ data, event ≠ .read data) →
        Leads cond inv post first (runLoop env event (first.note (.callback event))))
    (read : ∀ {sys data}, inv sys → inv (sys.note (.callback (.read data))))
    (package : ∀ type data len {first}, first.state.crashed = false →
      Keeps cond inv first (trTcpOnPkgHandler env type data len first))
    (step : Step env first second) : Leads cond inv post first second :=
  leads_acts_step keep (fun _ act => deliver (.act act)) time parser callback read package step

/-- An invariant leads to a property through every step if user code, plain steps and the
handling of packages keep it, and turns lead to the property. -/
theorem leads_step {post : Sys → Prop} (keep : ∀ {sys}, inv sys → post sys)
    (deliver : ∀ {first second}, Deliver env first second → Keeps cond inv first second)
    (plain : ∀ {first second}, Plain first second → inv first → inv second)
    (turn : ∀ {event first second}, first.state.ready event = true →
      Turn env event (first.note (.callback event)) second → Leads cond inv post first second)
    (read : ∀ {sys data}, inv sys → inv (sys.note (.callback (.read data))))
    (package : ∀ {type data first second},
      Handles env type (first.note (.package type data)) second → Keeps cond inv first second)
    (step : Step env first second) : Leads cond inv post first second := by
  refine leads_callback_step keep deliver ?_ ?_ ?_ read ?_ step
  · exact fun milliseconds => plain (.of_tcp (.of_fields rfl rfl rfl rfl rfl rfl))
  · exact fun parser => plain (.of_tcp (.of_fields rfl rfl rfl rfl rfl rfl))
  · exact fun ready other => turn ready (turn_of_ready ready other)
  · exact fun type data len {first} _ => package (handles_trTcpOnPkgHandler type data len first)

/-- An invariant is kept by every step if user code, plain steps, turns and the handling
of packages keep it. -/
theorem keeps_step
    (deliver : ∀ {first second}, Deliver env first second → Keeps cond inv first second)
    (plain : ∀ {first second}, Plain first second → inv first → inv second)
    (turn : ∀ {event first second}, first.state.ready event = true →
      Turn env event (first.note (.callback event)) second → Keeps cond inv first second)
    (read : ∀ {sys data}, inv sys → inv (sys.note (.callback (.read data))))
    (package : ∀ {type data first second},
      Handles env type (first.note (.package type data)) second → Keeps cond inv first second)
    (step : Step env first second) : Keeps cond inv first second :=
  leads_step id deliver plain turn read package step

end Pomelo
