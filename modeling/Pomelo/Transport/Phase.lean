import Pomelo.Transport.Turn

/-!
# The phases of a connection

What `tcp__reset` and `tcp__reconn` do to the connection, and which of its parts belong
to which state: a connect request to a connection that is not up yet, reading to one that
is, the heartbeat to one whose handshake is done.
-/

namespace Pomelo

open Transition Recorded

variable {env : Env} {cond : Point → Core → Prop} {first second third : Sys}

/-- The notes of `tcp__reset`. -/
def Point.ofReset (point : Point) : Bool := point.ofDelivery || point matches .reset | .resetDone

/-- The notes of `tcp__reconn` behind its reset. -/
def Point.ofAgain (point : Point) : Bool :=
  point.ofDelivery || point matches .fire _ | .gaveUp | .reconnArmed _

/-- The notes of `tcp__reconn`, besides that of its call. -/
def Point.ofReconn (point : Point) : Bool := point.ofReset || point.ofAgain

/-- What a delivery notes, a reset may note. -/
theorem Point.ofReset_of_ofDelivery (point : Point) (delivery : point.ofDelivery) :
    point.ofReset :=
  Bool.or_eq_true_iff.mpr (.inl delivery)

theorem Point.ofAgain_of_ofDelivery (point : Point) (delivery : point.ofDelivery) :
    point.ofAgain :=
  Bool.or_eq_true_iff.mpr (.inl delivery)

/-- What a reset notes, a reconnection may note. -/
theorem Point.ofReconn_of_ofReset (point : Point) (reset : point.ofReset) : point.ofReconn :=
  Bool.or_eq_true_iff.mpr (.inl reset)

theorem Point.ofReconn_of_ofAgain (point : Point) (again : point.ofAgain) : point.ofReconn :=
  Bool.or_eq_true_iff.mpr (.inr again)

/-- What `tcp__reset` makes of a connection, where it closes the socket or does not. -/
def Link.reset (closes : Bool) (link : Link) : Link :=
  { link with
    state := .notConn
    socket := if closes then .closing else link.socket
    reading := false
    isWaitingHb := false
    hbTimer := false
    hbTimeoutTimer := false
    reconnDelayTimer := false }

/-- `tcp__reset` closes the socket. -/
def Core.closes (core : Core) : Bool := core.client.state ≠ .inited

/-- Closing the socket changes only the socket of the link. -/
theorem link_closeSocket (core : Core) :
    core.closeSocket.tcp.link =
      { core.tcp.link with socket := if core.closes then .closing else core.tcp.socket } := by
  rw [Core.closeSocket, Core.closes]
  by_cases inited : core.client.state = .inited
  · simp [inited, Transport.link]
  · by_cases closing : core.tcp.socket = .closing <;> simp [inited, closing, Transport.link]

/-- A reset brings the link down. -/
theorem link_tcpReset (sys : Sys) :
    (tcpReset env sys).state.tcp.link = sys.state.tcp.link.reset sys.state.closes := by
  have items := (Quiet.resetItems env
    (((sys.note .reset).tcp Transport.stopAll).change Core.closeSocket)).aside
  have closed := link_closeSocket ((sys.note .reset).tcp Transport.stopAll).state
  change (resetItems env _).state.tcp.link = _
  rw [items.link]
  exact closed

theorem isWriting_closeSocket (core : Core) :
    core.closeSocket.tcp.isWriting = core.tcp.isWriting := by
  rw [Core.closeSocket]
  split <;> rfl

/-- It leaves a write that is under way. -/
theorem isWriting_tcpReset (sys : Sys) :
    (tcpReset env sys).state.tcp.isWriting = sys.state.tcp.isWriting := by
  have items := Quiet.resetItems env
    (((sys.note .reset).tcp Transport.stopAll).change Core.closeSocket)
  have closed := isWriting_closeSocket ((sys.note .reset).tcp Transport.stopAll).state
  exact items.isWriting.trans closed

variable (env) in
/-- The notes of `tcp__reset` between the first and the last. -/
theorem adds_resetItems (sys : Sys) : Adds Point.ofDelivery (sys.note .reset)
    (resetItems env (((sys.note .reset).tcp Transport.stopAll).change Core.closeSocket)) :=
  (Quiet.resetItems env (((sys.note .reset).tcp Transport.stopAll).change Core.closeSocket)).notes

/-- A reset notes itself and what its deliveries do. -/
theorem adds_tcpReset (sys : Sys) : Adds Point.ofReset sys (tcpReset env sys) := by
  have items := (adds_resetItems env sys).mono Point.ofReset_of_ofDelivery
  exact ((Adds.note rfl sys).trans items).trans (Adds.note rfl _)

variable (env) in

/-- It is noted with the state before it. -/
theorem mem_tcpReset (sys : Sys) : (.reset, sys.state) ∈ (tcpReset env sys).notes := by
  have items := (adds_resetItems env sys).suffix.subset (List.mem_cons_self ..)
  exact List.mem_cons_of_mem _ items

/-- What `tcp__reconn` makes of a connection behind its reset. -/
structure Reconnected (first second : Sys) : Prop where
  link : ∃ state armed, (state = .notConn ∨ state = .connecting) ∧
    second.state.tcp.link = { first.state.tcp.link with state, reconnDelayTimer := armed }
  isWriting : second.state.tcp.isWriting = first.state.tcp.isWriting
  notes : Adds Point.ofAgain first second

/-- Giving up leaves the link down. -/
theorem reconnected_giveUp {sys mid : Sys} (reason : String)
    (link : ∃ state, mid.state.tcp.link = { sys.state.tcp.link with state })
    (isWriting : mid.state.tcp.isWriting = sys.state.tcp.isWriting)
    (notes : mid.notes = sys.notes) : Reconnected sys (giveUp env reason mid) := by
  have fired := quiet_fireEvent env .connectFailed (some (CStr.ofString reason)) none mid
  have allowed := fired.notes.mono Point.ofAgain_of_ofDelivery
  obtain ⟨state, link⟩ := link
  refine ⟨⟨.notConn, sys.state.tcp.link.reconnDelayTimer, .inl rfl, ?_⟩, ?_, ?_⟩
  · exact congrArg (fun link => { link with state := .notConn }) (fired.aside.link.trans link)
  · exact fired.isWriting.trans isWriting
  · exact (((Adds.of_notes notes).trans (Adds.note rfl mid)).trans allowed).trans (Adds.note rfl _)

/-- Arming the timer leaves the link in the delay. -/
theorem reconnected_armReconn {sys mid : Sys}
    (link : mid.state.tcp.link = { sys.state.tcp.link with state := .connecting })
    (isWriting : mid.state.tcp.isWriting = sys.state.tcp.isWriting)
    (notes : mid.notes = sys.notes) : Reconnected sys (armReconn env mid) := by
  rw [armReconn]
  split
  next stop _ =>
    refine ⟨⟨.connecting, sys.state.tcp.link.reconnDelayTimer, .inr rfl, link⟩, isWriting, ?_⟩
    exact (Adds.of_notes notes).trans (Adds.note (show (Point.crash stop).ofAgain from rfl) _)
  next delay _ =>
    refine ⟨⟨.connecting, true, .inr rfl, ?_⟩, isWriting, ?_⟩
    · exact congrArg (fun link => { link with reconnDelayTimer := true }) link
    · exact (Adds.of_notes notes).trans
        (Adds.note (show (Point.reconnArmed delay).ofAgain from rfl) _)

variable (env) in

/-- Another attempt leaves it in one of the two. -/
theorem reconnected_reconnAgain (sys : Sys) : Reconnected sys (reconnAgain env sys) := by
  rw [reconnAgain]
  split
  · exact reconnected_giveUp _ ⟨.connecting, rfl⟩ rfl rfl
  · dsimp only
    split
    · exact reconnected_giveUp _ ⟨.connecting, rfl⟩ rfl rfl
    · exact reconnected_armReconn rfl rfl rfl

theorem adds_tcpReconn (sys : Sys) : Adds Point.ofReconn (sys.note .reconn) (tcpReconn env sys) :=
  ((adds_tcpReset _).mono Point.ofReconn_of_ofReset).trans
    ((reconnected_reconnAgain env _).notes.mono Point.ofReconn_of_ofAgain)

variable (env) in

/-- A reconnection brings the link down, and may arm the timer. -/
theorem link_tcpReconn (sys : Sys) :
    ∃ state armed, (state = .notConn ∨ state = .connecting) ∧
      (tcpReconn env sys).state.tcp.link =
        { sys.state.tcp.link.reset sys.state.closes with state, reconnDelayTimer := armed } := by
  obtain ⟨state, armed, down, link⟩ := (reconnected_reconnAgain env
    (tcpReset env (sys.note .reconn))).link
  refine ⟨state, armed, down, link.trans ?_⟩
  rw [link_tcpReset]
  rfl

/-- There is no connection, or none yet. -/
def Link.Down (link : Link) : Prop := link.state = .notConn ∨ link.state = .connecting

instance (link : Link) : Decidable link.Down := inferInstanceAs (Decidable (_ ∨ _))

theorem Link.Down.not_done {link : Link} (down : link.Down) : link.state ≠ .done := by
  rcases down with state | state <;> rw [state] <;> decide

/-- An attempt is started. -/
def Point.isAttempt (point : Point) : Bool := point matches .attempt

/-- A message is queued. -/
def Point.isAccepted (point : Point) : Bool := point matches .accepted _

/-- Each part of a connection belongs to its state. -/
structure Link.Sound (link : Link) : Prop where
  connecting : link.isConnecting = true → link.Down
  reading : link.reading = true → ¬ link.Down
  beats : link.hbTimer = true ∨ link.hbTimeoutTimer = true ∨ link.isWaitingHb = true →
    link.state = .done

namespace Link.Sound

variable {link : Link}

/-- A connection that is up has no connect request. -/
theorem not_connecting (sound : link.Sound) (up : ¬ link.Down) : link.isConnecting = false :=
  Bool.eq_false_of_not_eq_true fun connecting => up (sound.connecting connecting)

/-- A connection that is up is not down. -/
theorem done_up (done : link.state = .done) : ¬ link.Down := by
  rw [Down, done]
  decide

/-- Whatever has been reset is sound. -/
theorem of_reset (closes : Bool) (state : TcpState) (armed : Bool)
    (down : state = .notConn ∨ state = .connecting) :
    Sound { link.reset closes with state, reconnDelayTimer := armed } where
  connecting _ := down
  reading := fun reads => absurd reads Bool.false_ne_true
  beats := by
    rintro (beats | beats | beats) <;> exact absurd beats Bool.false_ne_true

/-- A connection without heartbeat. -/
theorem of_quiet (connecting : link.isConnecting = true → link.Down)
    (reading : link.reading = true → ¬ link.Down) (hbTimer : link.hbTimer = false)
    (hbTimeoutTimer : link.hbTimeoutTimer = false) (isWaitingHb : link.isWaitingHb = false) :
    link.Sound where
  connecting := connecting
  reading := reading
  beats := by
    rintro (beats | beats | beats)
    · exact absurd (hbTimer.symm.trans beats) Bool.false_ne_true
    · exact absurd (hbTimeoutTimer.symm.trans beats) Bool.false_ne_true
    · exact absurd (isWaitingHb.symm.trans beats) Bool.false_ne_true

/-- Before the handshake is done there is no heartbeat. -/
theorem quiet (sound : link.Sound) (other : link.state ≠ .done) :
    link.hbTimer = false ∧ link.hbTimeoutTimer = false ∧ link.isWaitingHb = false := by
  refine ⟨?_, ?_, ?_⟩ <;> refine Bool.eq_false_of_not_eq_true fun beats => other (sound.beats ?_)
  · exact .inl beats
  · exact .inr (.inl beats)
  · exact .inr (.inr beats)

/-- Behind a reset the link is sound. -/
theorem tcpReset (sys : Sys) : (Pomelo.tcpReset env sys).state.tcp.link.Sound := by
  rw [link_tcpReset]
  exact of_reset _ .notConn false (.inl rfl)

theorem tcpReconn (sys : Sys) : (Pomelo.tcpReconn env sys).state.tcp.link.Sound := by
  obtain ⟨state, armed, down, link⟩ := link_tcpReconn env sys
  rw [link]
  exact of_reset _ state armed down

end Link.Sound

theorem aside_fireEvent (type : EvType) (arg1 arg2 : Option CStr) (sys : Sys) :
    Aside (sys.note (.fire type)) (fireEvent env type arg1 arg2 sys) :=
  (quiet_fireEvent env type arg1 arg2 sys).aside

theorem aside_pcTransResp (reqId : Nat) (rc : Int) (resp : Option CStr) (sys : Sys) :
    Aside sys (pcTransResp (loopReceiver env) env.config.enablePolling reqId rc resp sys) :=
  (Quiet.of_delivered (delivered_pcTransResp reqId rc resp sys)).aside

theorem link_fireEvent (type : EvType) (arg1 arg2 : Option CStr) (sys : Sys) :
    (fireEvent env type arg1 arg2 sys).state.tcp.link = sys.state.tcp.link :=
  (aside_fireEvent type arg1 arg2 sys).link

theorem suffix_tcp (act : Transport → Transport) (sys : Sys) : sys.notes <:+ (sys.tcp act).notes :=
  List.suffix_refl _

/-- A plain step that follows the setting of fields. -/
theorem Plain.suffix_tcp {act : Transport → Transport} (after : Plain (first.tcp act) second) :
    first.notes <:+ second.notes :=
  (Pomelo.suffix_tcp act first).trans after.suffix

/-- The notes so far are kept. -/
theorem suffix_fireEvent (type : EvType) (arg1 arg2 : Option CStr) (sys : Sys) :
    sys.notes <:+ (fireEvent env type arg1 arg2 sys).notes :=
  (List.suffix_cons _ _).trans (aside_fireEvent type arg1 arg2 sys).suffix

theorem suffix_tcpReconn (sys : Sys) : sys.notes <:+ (tcpReconn env sys).notes :=
  (List.suffix_cons _ _).trans (adds_tcpReconn sys).suffix

/-- An event, and then the next attempt. -/
theorem suffix_fire_tcpReconn (type : EvType) (arg1 arg2 : Option CStr) (sys : Sys) :
    sys.notes <:+ (tcpReconn env (fireEvent env type arg1 arg2 sys)).notes :=
  (suffix_fireEvent type arg1 arg2 sys).trans (suffix_tcpReconn _)

/-- The check for timeouts leaves the connection alone. -/
theorem aside_checks (sys : Sys) : Aside sys (tcpWriteCheckTimeoutCb env (sys.tcp fun tcp =>
    { tcp with checkTimeout := tcp.checkTimeout.stop })) := by
  have stopped : Aside sys (sys.tcp fun tcp => { tcp with checkTimeout := tcp.checkTimeout.stop }) :=
    Aside.of_notes rfl rfl rfl
  exact stopped.trans (Aside.tcpWriteCheckTimeoutCb _)

/-- Cleaning up stops the timers and closes the socket. -/
theorem link_cleanUp (sys : Sys) :
    sys.cleanUp.state.tcp.link = { sys.state.tcp.link with
      handshakeTimer := false
      hbTimer := false
      hbTimeoutTimer := false
      reconnDelayTimer := false } := rfl

theorem notes_cleanUp (sys : Sys) : sys.cleanUp.notes = sys.notes := rfl

theorem meets_cleanUp (sys : Sys) : sys.cleanUp.Meets cond ↔ sys.Meets cond := Iff.rfl

/-- What a turn does to the notes is to add some. -/
theorem Turn.suffix {event : LoopEvent} (turn : Turn env event first second) :
    first.notes <:+ second.notes := by
  cases turn with
  | plain plain => exact plain.suffix
  | attempt idle before between after =>
      exact ((before.suffix.trans (List.suffix_cons _ _)).trans between.suffix).trans after.suffix
  | attemptFails reason idle before after =>
      exact ((before.suffix.trans (List.suffix_cons _ _)).trans after.suffix).trans
        (suffix_fire_tcpReconn _ _ _ _)
  | @connects last buf timer handshake connecting up after =>
      have connected : first.notes <:+ first.connect.notes := List.suffix_refl _
      exact connected.trans after.suffix
  | connectsUnsent timer connecting up after =>
      have connected : first.notes <:+ first.connect.notes := List.suffix_refl _
      exact (connected.trans after.suffix).trans (List.suffix_cons _ _)
  | readFails connecting after => exact after.suffix_tcp.trans (suffix_tcpReconn _)
  | connectFails reason connecting after => exact after.suffix_tcp.trans (suffix_fire_tcpReconn _ _ _ _)
  | connTimeout after => exact after.suffix_tcp
  | handshakeLate late active => exact (suffix_tcp _ first).trans (suffix_fire_tcpReconn _ _ _ _)
  | heartbeatLate active after => exact after.suffix_tcp.trans (suffix_fire_tcpReconn _ _ _ _)
  | readError reading up => exact suffix_fire_tcpReconn _ _ _ _
  | heartbeat timer active before after => exact before.suffix_tcp.trans after.suffix
  | reconnDelay active => exact List.suffix_refl _
  | disconnected before after =>
      exact ((before.suffix.trans (adds_tcpReset _).suffix).trans after.suffix).trans
        (suffix_fireEvent _ _ _ _)
  | @cleanedUp mid before =>
      rw [notes_cleanUp]
      exact before.suffix.trans (adds_tcpReset mid).suffix
  | writes ret => exact (Aside.tcpWriteAsyncCb ret first).suffix
  | written status done writing => exact (Aside.tcpWriteDoneCb status first).suffix
  | checks active => exact (aside_checks first).suffix

/-- Handling a package keeps the notes so far. -/
theorem Handles.suffix {type : UInt8} (handles : Handles env type first second) :
    first.notes <:+ second.notes := by
  cases handles with
  | plain plain => exact plain.suffix
  | kicked kick before =>
      exact (before.suffix.trans (suffix_fireEvent _ _ _ _)).trans (adds_tcpReset _).suffix
  | failed timer handshake before after => exact before.suffix.trans after.suffix_tcp
  | refused timer handshake before between after =>
      exact ((before.suffix.trans between.suffix_tcp).trans ((suffix_fireEvent _ _ _ _).trans
        (adds_tcpReset _).suffix)).trans after.suffix
  | @accepted mid next last timer hbTimer handshake before between after =>
      have acked : next.notes <:+ ((tcpSendHandshakeAck env next).tcp fun tcp =>
          { tcp with state := .done, hbTimer := hbTimer }).notes := List.suffix_refl _
      exact (before.suffix.trans between.suffix_tcp).trans
        ((acked.trans (suffix_fireEvent _ _ _ _)).trans after.suffix)
  | undecodable reason data before => exact before.suffix.trans (suffix_fire_tcpReconn _ _ _ _)
  | pushed route text data before => exact before.suffix.trans (suffix_fireEvent _ _ _ _)
  | answered reqId text data before after =>
      exact (before.suffix.trans (aside_pcTransResp ..).suffix).trans after.suffix
  | heartbeat timer beat waiting before after => exact before.suffix.trans after.suffix_tcp

section Sound

variable {event : LoopEvent}

/-- An attempt is started on a connection that is down. -/
theorem Link.Sound.attempt {mid last : Sys} (sound : first.state.tcp.link.Sound)
    (down : first.state.tcp.link.Down) (before : Plain first mid)
    (after : Plain mid.attempt last) (connecting : Bool) :
    Sound { last.state.tcp.link with isConnecting := connecting } := by
  obtain ⟨hbTimer, hbTimeoutTimer, isWaitingHb⟩ := sound.quiet down.not_done
  have link : last.state.tcp.link =
      { first.state.tcp.link with state := .connecting, socket := .open, reading := false } :=
    after.tcp.link.trans (congrArg
      (fun link => { link with state := .connecting, socket := .open, reading := false })
      before.tcp.link)
  rw [link]
  exact of_quiet (fun _ => .inr rfl) (fun reads => absurd reads Bool.false_ne_true) hbTimer
    hbTimeoutTimer isWaitingHb

/-- A connection that comes up was connecting, and had no heartbeat. -/
theorem Link.Sound.connect {last : Sys} (sound : first.state.tcp.link.Sound)
    (connecting : first.state.tcp.isConnecting = true) (after : Plain first.connect last)
    (handshakeTimer : Bool) : Sound { last.state.tcp.link with handshakeTimer } := by
  obtain ⟨hbTimer, hbTimeoutTimer, isWaitingHb⟩ :=
    sound.quiet (sound.connecting connecting).not_done
  have link : last.state.tcp.link = { first.state.tcp.link with
      isConnecting := false, state := .handshakeing, reading := true } := after.tcp.link
  rw [link]
  exact of_quiet (fun still => absurd still Bool.false_ne_true)
    (fun _ down => by rcases down with same | same <;> cases same) hbTimer hbTimeoutTimer
    isWaitingHb

/-- A turn leaves a sound connection, if no attempt is started on one that is up. -/
theorem Turn.sound (down : ∀ core, cond .attempt core → core.tcp.link.Down)
    (turn : Turn env event first second) (meets : second.Meets cond)
    (sound : first.state.tcp.link.Sound) : second.state.tcp.link.Sound := by
  have kept {last : Sys} (link : last.state.tcp.link = first.state.tcp.link) :
      last.state.tcp.link.Sound := link ▸ sound
  cases turn with
  | plain plain => exact kept plain.tcp.link
  | @attempt mid next last idle before between after =>
      have noted : first.state.tcp.link.Down := by
        rw [← before.tcp.link]
        exact down _ (meets (.attempt, mid.state)
          ((between.suffix.trans after.suffix).subset (List.mem_cons_self ..)))
      rw [after.tcp.link]
      exact sound.attempt noted before between true
  | attemptFails reason idle before after => exact .tcpReconn _
  | @connects last buf timer handshake connecting up after =>
      exact sound.connect connecting after timer.active
  | @connectsUnsent last timer connecting up after =>
      exact sound.connect connecting after timer.active
  | readFails connecting after => exact .tcpReconn _
  | connectFails reason connecting after => exact .tcpReconn _
  | connTimeout after =>
      rw [after.tcp.link]
      exact ⟨sound.connecting, sound.reading, sound.beats⟩
  | handshakeLate late active => exact .tcpReconn _
  | heartbeatLate active after => exact .tcpReconn _
  | readError reading up => exact .tcpReconn _
  | @heartbeat mid last timer active before after =>
      have done := sound.beats (.inl active)
      have link : second.state.tcp.link = { first.state.tcp.link with
          hbTimer := false, isWaitingHb := true, hbTimeoutTimer := timer.active } :=
        after.tcp.link.trans (congrArg
          (fun link => { link with isWaitingHb := true, hbTimeoutTimer := timer.active })
          before.tcp.link)
      rw [link]
      exact ⟨sound.connecting, sound.reading, fun _ => done⟩
  | reconnDelay active => exact ⟨sound.connecting, sound.reading, sound.beats⟩
  | disconnected before after =>
      rw [link_fireEvent, after.tcp.link]
      exact .tcpReset _
  | @cleanedUp mid before =>
      have reset : (tcpReset env mid).state.tcp.link.Sound := .tcpReset _
      have quiet := reset.quiet (by rw [link_tcpReset]; exact fun same => nomatch same)
      rw [link_cleanUp]
      generalize (tcpReset env mid).state.tcp.link = link at reset quiet
      exact .of_quiet reset.connecting reset.reading rfl rfl quiet.2.2
  | writes ret => exact kept (Aside.tcpWriteAsyncCb ret first).link
  | written status done writing => exact kept (Aside.tcpWriteDoneCb status first).link
  | checks active => exact kept (aside_checks first).link

/-- So does a package, if no handshake is answered that has not been made. -/
theorem Handles.sound {type : UInt8}
    (up : type = PkgType.handshake.code → ¬ first.state.tcp.link.Down)
    (handles : Handles env type first second) (sound : first.state.tcp.link.Sound) :
    second.state.tcp.link.Sound := by
  have kept {last : Sys} (link : last.state.tcp.link = first.state.tcp.link) :
      last.state.tcp.link.Sound := link ▸ sound
  cases handles with
  | plain plain => exact kept plain.tcp.link
  | kicked kick before => exact .tcpReset _
  | @failed mid last timer handshake before after =>
      have link : second.state.tcp.link =
          { first.state.tcp.link with handshakeTimer := timer.active } :=
        after.tcp.link.trans (congrArg
          (fun link => { link with handshakeTimer := timer.active }) before.tcp.link)
      rw [link]
      exact ⟨sound.connecting, sound.reading, sound.beats⟩
  | @refused mid next last timer handshake before between after =>
      have reset : (handshakeFailed env next).state.tcp.link.Sound := .tcpReset _
      rw [after.tcp.link]
      exact reset
  | @accepted mid next last timer hbTimer handshake before between after =>
      have link : second.state.tcp.link = { first.state.tcp.link with
          handshakeTimer := timer.active, state := .done, hbTimer := hbTimer.active } := by
        rw [after.tcp.link, link_fireEvent]
        exact congrArg (fun link => { link with state := .done, hbTimer := hbTimer.active })
          (between.tcp.link.trans (congrArg
            (fun link => { link with handshakeTimer := timer.active }) before.tcp.link))
      have idle := sound.not_connecting (up handshake)
      rw [link]
      exact ⟨fun connecting => absurd (idle.symm.trans connecting) Bool.false_ne_true,
        fun _ => Link.Sound.done_up rfl, fun _ => rfl⟩
  | undecodable reason data before => exact .tcpReconn _
  | pushed route text data before => exact kept ((link_fireEvent _ _ _ _).trans before.tcp.link)
  | @answered mid last reqId text data before after =>
      have answered := before.aside.trans ((aside_pcTransResp ..).trans after.aside)
      exact kept answered.link
  | @heartbeat mid timer beat waiting before last after =>
      have done := sound.beats (.inr (.inr waiting))
      have link : second.state.tcp.link = { first.state.tcp.link with
          hbTimeoutTimer := false, isWaitingHb := false, hbTimer := timer.active } :=
        after.tcp.link.trans (congrArg (fun link =>
          { link with hbTimeoutTimer := false, isWaitingHb := false, hbTimer := timer.active })
          before.tcp.link)
      rw [link]
      exact ⟨sound.connecting, sound.reading, fun _ => done⟩

end Sound

/-- An invariant is kept by every step if user code, plain steps, turns and packages keep
it where the notes meet the condition. -/
theorem keeps_turn_step {inv : Sys → Prop}
    (deliver : ∀ {first second}, Deliver env first second → Keeps cond inv first second)
    (plain : ∀ {first second}, Plain first second → inv first → inv second)
    (turn : ∀ {event first second}, first.state.ready event = true →
      Turn env event (first.note (.callback event)) second → second.Meets cond →
      inv first → inv second)
    (read : ∀ {sys data}, inv sys → inv (sys.note (.callback (.read data))))
    (package : ∀ {type data first second},
      Handles env type (first.note (.package type data)) second → second.Meets cond →
      inv first → inv second)
    (step : Step env first second) : Keeps cond inv first second := by
  refine keeps_step deliver plain ?_ read ?_ step
  · exact fun ready takes => ⟨(List.suffix_cons _ _).trans takes.suffix, turn ready takes⟩
  · intro type data first second handles
    have noted : first.notes <:+ (first.note (.package type data)).notes := List.suffix_cons _ _
    exact ⟨noted.trans handles.suffix, package handles⟩

/-- An invariant is kept by every step, together with the soundness of the connection, if
user code, plain steps, turns and packages keep it on a sound connection. -/
theorem keeps_sound_step {inv : Sys → Prop}
    (down : ∀ core, cond .attempt core → core.tcp.link.Down)
    (up : ∀ data core, cond (.package PkgType.handshake.code data) core → core.tcp.link.Sound →
      ¬ core.tcp.link.Down)
    (deliver : ∀ {first second}, Deliver env first second → Keeps cond inv first second)
    (plain : ∀ {first second}, Plain first second → inv first → inv second)
    (turn : ∀ {event first second}, first.state.ready event = true →
      Turn env event (first.note (.callback event)) second → second.Meets cond →
      first.state.tcp.link.Sound → inv first → inv second)
    (read : ∀ {sys data}, inv sys → inv (sys.note (.callback (.read data))))
    (package : ∀ {type data first second},
      Handles env type (first.note (.package type data)) second → second.Meets cond →
      first.state.tcp.link.Sound → inv first → inv second)
    (step : Step env first second) :
    Keeps cond (fun sys => sys.state.tcp.link.Sound ∧ inv sys) first second := by
  refine keeps_turn_step ?_ ?_ ?_ ?_ ?_ step
  · intro first second delivers
    have kept := deliver delivers
    exact ⟨kept.keeps, fun meets ⟨sound, start⟩ =>
      ⟨(Quiet.of_deliver delivers).aside.link ▸ sound, kept.holds meets start⟩⟩
  · exact fun alike ⟨sound, start⟩ => ⟨alike.tcp.link ▸ sound, plain alike start⟩
  · exact fun ready takes meets ⟨sound, start⟩ =>
      ⟨takes.sound down meets sound, turn ready takes meets sound start⟩
  · exact fun ⟨sound, start⟩ => ⟨sound, read start⟩
  · intro type data first second handles meets ⟨sound, start⟩
    refine ⟨handles.sound (fun handshake => ?_) sound, package handles meets sound start⟩
    subst handshake
    exact up data _ (meets _ (handles.suffix.subset (List.mem_cons_self ..))) sound

/-- The local storage only holds tables. -/
theorem alike_loadLocalStorage {text : JsonText} {stored : Option CStr} {tcp last : Transport}
    (loaded : loadLocalStorage text stored tcp = .ok last) : tcp.Alike last := by
  unfold loadLocalStorage at loaded
  split at loaded
  · cases loaded
    exact .refl _
  split at loaded
  · cases loaded
    exact .refl _
  · cases loaded
  · obtain ⟨r2c, -, loaded⟩ := Stop.bind_eq_ok loaded
    obtain ⟨c2r, -, loaded⟩ := Stop.bind_eq_ok loaded
    obtain ⟨dv, -, loaded⟩ := Stop.bind_eq_ok loaded
    obtain ⟨pc, -, loaded⟩ := Stop.bind_eq_ok loaded
    obtain ⟨ps, -, loaded⟩ := Stop.bind_eq_ok loaded
    obtain ⟨pv, -, loaded⟩ := Stop.bind_eq_ok loaded
    cases loaded
    exact .of_fields rfl rfl rfl rfl rfl rfl

/-- The initial connection is sound. -/
theorem sound_init {evHandlers : List Nat} {tcp : Transport} {stored : Option CStr}
    (init : trUvTcpInit env stored = .ok tcp) :
    (Sys.init evHandlers tcp stored).state.tcp.link.Sound := by
  have link : (Sys.init evHandlers tcp stored).state.tcp.link = Transport.init.link :=
    (alike_loadLocalStorage init).link
  rw [link]
  exact .of_quiet (fun connecting => nomatch connecting) (fun reads => nomatch reads) rfl rfl rfl

end Pomelo
