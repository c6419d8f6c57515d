import Pomelo.Transport.Phase

/-!
# One retry for one attempt

A connection that fails is noticed in many places, and each of them calls `tcp__reconn`
by itself. `tcp__reset` stops what could notice the failure a second time, but for two
things: the handshake timer, and the bytes of the chunk that is being read.
-/

namespace Pomelo

open Transition Recorded

variable {env : Env} {first second : Sys}

/-- How often `tcp__reconn` has been called since the last attempt. -/
def reconnsSince : List (Point × Core) → Nat
  | [] => 0
  | (.attempt, _) :: _ => 0
  | (.reconn, _) :: earlier => reconnsSince earlier + 1
  | _ :: earlier => reconnsSince earlier

/-- The callbacks of the timers that call `tcp__reconn`. -/
def Point.ofReconnTimer : Point → Bool
  | .callback .handshakeTimer | .callback .hbTimeoutTimer => true
  | _ => false

/-- Between two attempts `tcp__reconn` is called at most once, and no timer calls it while
an attempt is being made. -/
structure OneRetry (notes : List (Point × Core)) : Prop where
  once : ∀ earlier, earlier <:+ notes → reconnsSince earlier ≤ 1
  timers : ∀ entry ∈ notes, entry.1.ofReconnTimer → ¬ entry.2.tcp.link.Down

/-- The handshake timer runs out. -/
def Point.isHandshakeTimer (point : Point) : Bool := point matches .callback .handshakeTimer

/-- A package is handled. -/
def Point.isPackage (point : Point) : Bool := point matches .package ..

/-- The condition on the notes of a run. -/
structure RetryOnce (point : Point) (core : Core) : Prop where
  /-- No attempt is started on a connection that is up. -/
  attempt : point.isAttempt → core.tcp.link.Down
  /-- The handshake timer runs out during a handshake. -/
  handshakeTimer : point.isHandshakeTimer → core.tcp.state = .handshakeing
  /-- No package is handled after a reset in its chunk. -/
  package : point.isPackage → core.tcp.reading = true

instance (point : Point) (core : Core) : Decidable (RetryOnce point core) :=
  decidable_of_iff ((point.isAttempt → core.tcp.link.Down) ∧
      (point.isHandshakeTimer → core.tcp.state = .handshakeing) ∧
      (point.isPackage → core.tcp.reading = true))
    ⟨fun ⟨attempt, timer, package⟩ => ⟨attempt, timer, package⟩,
      fun ⟨attempt, timer, package⟩ => ⟨attempt, timer, package⟩⟩

/-- The notes that are counted. -/
def Point.counts : Point → Bool
  | .attempt | .reconn => true
  | _ => false

/-- A note that changes nothing. -/
def Point.uncounted (point : Point) : Bool := !point.counts && !point.ofReconnTimer

/-- What a reconnection notes beside itself is not counted. -/
theorem Point.uncounted_of_ofReconn (point : Point) (ofReconn : point.ofReconn) :
    point.uncounted := by
  cases point <;> first | rfl | exact absurd ofReconn Bool.false_ne_true

theorem Point.uncounted_of_aside (point : Point) (aside : point.aside) : point.uncounted := by
  cases point <;> first | rfl | exact absurd aside Bool.false_ne_true

/-- Any other note is not counted. -/
theorem reconnsSince_cons {point : Point} (other : point.counts = false) (core : Core)
    (notes : List (Point × Core)) : reconnsSince ((point, core) :: notes) = reconnsSince notes := by
  cases point <;> first | rfl | exact absurd other (by decide)

/-- The notes have counted right, and count up to a number since the last attempt. -/
structure Counted (count : Nat) (notes : List (Point × Core)) : Prop where
  since : reconnsSince notes = count
  retry : OneRetry notes

namespace Counted

variable {count : Nat} {notes : List (Point × Core)}

/-- A note is made. -/
theorem push (retry : OneRetry notes) {point : Point} {core : Core}
    (since : reconnsSince ((point, core) :: notes) = count) (least : count ≤ 1)
    (timers : point.ofReconnTimer → ¬ core.tcp.link.Down) : Counted count ((point, core) :: notes) where
  since := since
  retry := by
    refine ⟨fun earlier suffix => ?_, fun entry member => ?_⟩
    · rcases List.suffix_cons_iff.mp suffix with rfl | suffix
      · exact since.trans_le least
      · exact retry.once earlier suffix
    · rcases List.mem_cons.mp member with rfl | member
      · exact timers
      · exact retry.timers entry member

/-- At most one reconnection follows a failure. -/
theorem least (counted : Counted count notes) : count ≤ 1 :=
  counted.since ▸ counted.retry.once notes (List.suffix_refl _)

/-- A note that is not counted. -/
theorem cons (counted : Counted count notes) {point : Point} {core : Core}
    (other : point.counts = false) (timers : point.ofReconnTimer → ¬ core.tcp.link.Down) :
    Counted count ((point, core) :: notes) :=
  push counted.retry ((reconnsSince_cons other core notes).trans counted.since) counted.least timers

/-- An attempt begins the count again. -/
theorem attempt (counted : Counted count notes) (core : Core) :
    Counted 0 ((.attempt, core) :: notes) :=
  push counted.retry rfl (Nat.zero_le 1) fun timer => absurd timer Bool.false_ne_true

/-- A reconnection is the first one behind its attempt. -/
theorem reconn (counted : Counted 0 notes) (core : Core) : Counted 1 ((.reconn, core) :: notes) :=
  push counted.retry (congrArg (· + 1) counted.since) (Nat.le_refl 1) fun timer =>
    absurd timer Bool.false_ne_true

theorem adds (counted : Counted count first.notes) (adds : Adds Point.uncounted first second) :
    Counted count second.notes :=
  adds.induct (Counted count) counted fun uncounted before => by
    simp only [Point.uncounted, Bool.and_eq_true, Bool.not_eq_true'] at uncounted
    exact before.cons uncounted.1 fun set => absurd (uncounted.2.symm.trans set) Bool.false_ne_true

theorem aside (counted : Counted count first.notes) (aside : Aside first second) :
    Counted count second.notes :=
  counted.adds (Adds.mono Point.uncounted_of_aside aside.notes)

/-- Fields are set, and a plain step follows. -/
theorem plain_tcp (counted : Counted count first.notes) {act : Transport → Transport}
    (after : Plain (first.tcp act) second) : Counted count second.notes :=
  aside (show Counted count (first.tcp act).notes from counted) after.aside

theorem fireEvent (counted : Counted count first.notes) (type : EvType) (arg1 arg2 : Option CStr) :
    Counted count (Pomelo.fireEvent env type arg1 arg2 first).notes :=
  (counted.adds (Adds.note (show (Point.fire type).uncounted from rfl) first)).aside
    (aside_fireEvent type arg1 arg2 first)

theorem tcpReset (counted : Counted count first.notes) :
    Counted count (Pomelo.tcpReset env first).notes :=
  counted.adds (((adds_tcpReset first).mono Point.ofReconn_of_ofReset).mono
    Point.uncounted_of_ofReconn)

theorem tcpReconn (counted : Counted 0 first.notes) :
    Counted 1 (Pomelo.tcpReconn env first).notes :=
  Counted.adds (counted.reconn first.state)
    ((adds_tcpReconn first).mono Point.uncounted_of_ofReconn)

end Counted

/-- A failure has been reported: the transport waits for the next attempt, or has given up. -/
def Link.Failed (link : Link) : Prop := link.Down ∧ link.isConnecting = false

/-- `tcp__reconn` has been called since the last attempt only if the connection has failed. -/
def Retriable (sys : Sys) : Prop :=
  Counted 0 sys.notes ∨ Counted 1 sys.notes ∧ sys.state.tcp.link.Failed

namespace Retriable

/-- A connection that has not failed has not been retried. -/
theorem counted {sys : Sys} (retriable : Retriable sys) (working : ¬ sys.state.tcp.link.Failed) :
    Counted 0 sys.notes :=
  retriable.resolve_right fun retried => working retried.2

/-- What keeps the failure and the count. -/
theorem map (retriable : Retriable first)
    (failed : first.state.tcp.link.Failed → second.state.tcp.link.Failed)
    (counted : ∀ {count}, Counted count first.notes → Counted count second.notes) :
    Retriable second :=
  retriable.imp counted (And.imp counted failed)

theorem aside (retriable : Retriable first) (aside : Aside first second) : Retriable second :=
  retriable.map (aside.link ▸ id) (·.aside aside)

/-- A change of the transport beside its phase. -/
theorem tcp (retriable : Retriable first) {act : Transport → Transport}
    (state : (act first.state.tcp).state = first.state.tcp.state)
    (connecting : (act first.state.tcp).isConnecting = first.state.tcp.isConnecting) :
    Retriable (first.tcp act) := by
  refine retriable.map (fun failed => ⟨?_, connecting.trans failed.2⟩) id
  exact failed.1.imp state.trans state.trans

/-- An event leaves the chance of one reconnection. -/
theorem fireEvent (retriable : Retriable first) (type : EvType) (arg1 arg2 : Option CStr) :
    Retriable (Pomelo.fireEvent env type arg1 arg2 first) :=
  retriable.map (link_fireEvent type arg1 arg2 first ▸ id) (·.fireEvent type arg1 arg2)

theorem tcpReset (retriable : Retriable first) : Retriable (Pomelo.tcpReset env first) := by
  refine retriable.map (fun failed => ?_) (·.tcpReset)
  rw [link_tcpReset]
  exact ⟨.inl rfl, failed.2⟩

theorem cleanUp (retriable : Retriable first) : Retriable first.cleanUp :=
  retriable.map (fun failed => ⟨failed.1, failed.2⟩) (notes_cleanUp first ▸ id)

/-- `tcp__reconn` is called for a failure that has not been reported. -/
theorem tcpReconn (counted : Counted 0 first.notes)
    (idle : first.state.tcp.link.isConnecting = false) :
    Retriable (Pomelo.tcpReconn env first) := by
  obtain ⟨state, armed, down, link⟩ := link_tcpReconn env first
  refine .inr ⟨counted.tcpReconn, ?_⟩
  rw [link]
  exact ⟨down, idle⟩

/-- An event is fired, and `tcp__reconn` is called. -/
theorem fire_tcpReconn (counted : Counted 0 first.notes)
    (idle : first.state.tcp.link.isConnecting = false) (type : EvType)
    (arg1 arg2 : Option CStr) :
    Retriable (Pomelo.tcpReconn env (Pomelo.fireEvent env type arg1 arg2 first)) :=
  tcpReconn (counted.fireEvent type arg1 arg2) (link_fireEvent type arg1 arg2 first ▸ idle)

end Retriable

/-- The callback of a timer is noted while the connection is up. -/
theorem Retriable.callback {event : LoopEvent} (retriable : Retriable first)
    (up : (Point.callback event).ofReconnTimer → ¬ first.state.tcp.link.Down) :
    Retriable (first.note (.callback event)) :=
  retriable.map id fun counted => counted.cons rfl up

/-- The timers that call `tcp__reconn` are due while the connection is up. -/
theorem up_of_reconnTimer {event : LoopEvent} (ready : first.state.ready event = true)
    (sound : first.state.tcp.link.Sound) (cond : RetryOnce (.callback event) first.state)
    (timer : (Point.callback event).ofReconnTimer) : ¬ first.state.tcp.link.Down := by
  cases event with
  | handshakeTimer =>
      have handshakeing := cond.handshakeTimer rfl
      intro down
      rcases down with same | same <;> exact absurd (handshakeing.symm.trans same) (by decide)
  | hbTimeoutTimer =>
      have active : first.state.tcp.hbTimeoutTimer.active = true :=
        Transport.due_active (Bool.and_eq_true_iff.mp ready).1
      exact Link.Sound.done_up (sound.beats (.inr (.inl active)))
  | _ => exact absurd timer Bool.false_ne_true

/-- With an attempt the count starts again. -/
theorem Retriable.attempt (retriable : Retriable first) (after : Plain first.attempt second) :
    Counted 0 second.notes := by
  have attempt {count : Nat} (counted : Counted count first.notes) : Counted 0 first.attempt.notes :=
    counted.attempt first.state
  exact (retriable.elim attempt fun failed => attempt failed.1).aside after.aside

/-- A turn of the loop reconnects once at most. -/
theorem Retriable.turn {event : LoopEvent} (ready : first.state.ready event = true)
    (turn : Turn env event (first.note (.callback event)) second)
    (meets : second.Meets RetryOnce) (sound : first.state.tcp.link.Sound)
    (retriable : Retriable first) : Retriable second := by
  have cond := meets (.callback event, first.state) (turn.suffix.subset (List.mem_cons_self ..))
  have timers := up_of_reconnTimer ready sound cond
  have noted := retriable.callback timers
  -- a connection with a connect request has not failed, nor has one that is up
  have connecting (set : first.state.tcp.isConnecting = true) :
      Counted 0 (first.note (.callback event)).notes :=
    noted.counted fun failed => absurd (set.symm.trans failed.2) (by decide)
  have up (up : ¬ first.state.tcp.link.Down) :
      Counted 0 (first.note (.callback event)).notes ∧ first.state.tcp.link.isConnecting = false :=
    ⟨noted.counted fun failed => up failed.1, sound.not_connecting up⟩
  cases turn with
  | plain plain => exact noted.aside plain.aside
  | attempt idle before between after =>
      exact .inl ((Retriable.attempt (noted.aside before.aside) between).plain_tcp after)
  | attemptFails reason idle before after =>
      have waits := congrArg Link.isConnecting (after.tcp.link.trans
        (congrArg (fun link : Link => { link with
          state := .connecting, socket := .open, reading := false }) before.tcp.link))
      exact .fire_tcpReconn (Retriable.attempt (noted.aside before.aside) after)
        (waits.trans idle) _ _ _
  | @connects last buf timer handshake set isUp after =>
      have counted : Counted 0 last.notes := (connecting set).plain_tcp after
      exact .inl counted
  | @connectsUnsent last timer set isUp after =>
      have counted : Counted 0 last.notes := (connecting set).plain_tcp after
      have crashed : Counted 0 (last.crash .nullDeref).notes := counted.aside (.crash _ last)
      exact .inl crashed
  | readFails set after =>
      exact .tcpReconn ((connecting set).plain_tcp after)
        (congrArg Link.isConnecting after.tcp.link)
  | connectFails reason set after =>
      exact .fire_tcpReconn ((connecting set).plain_tcp after)
        (congrArg Link.isConnecting after.tcp.link) _ _ _
  | connTimeout after => exact Retriable.aside (noted.tcp rfl rfl) after.aside
  | handshakeLate late active =>
      subst late
      obtain ⟨counted, idle⟩ := up (timers rfl)
      have stopped : Counted 0 ((first.note (.callback .handshakeTimer)).tcp fun tcp =>
        { tcp with handshakeTimer := tcp.handshakeTimer.stop }).notes := counted
      exact .fire_tcpReconn stopped idle _ _ _
  | heartbeatLate active after =>
      obtain ⟨counted, idle⟩ := up (Link.Sound.done_up (sound.beats (.inr (.inl active))))
      exact .fire_tcpReconn (counted.plain_tcp after)
        ((congrArg Link.isConnecting after.tcp.link).trans idle) _ _ _
  | readError reading isUp =>
      obtain ⟨counted, idle⟩ := up (sound.reading reading)
      exact .fire_tcpReconn counted idle _ _ _
  | @heartbeat mid last timer active before after =>
      obtain ⟨counted, idle⟩ := up (Link.Sound.done_up (sound.beats (.inl active)))
      have sent : Counted 0 mid.notes := counted.plain_tcp before
      have queued : Counted 0 (sendLast (pcPkgEncode env.platform PkgType.heartbeat.code none 0)
        mid).notes := sent
      exact .inl (queued.plain_tcp after)
  | reconnDelay active => exact noted.tcp rfl rfl
  | @disconnected mid last before after =>
      exact ((noted.aside before.aside).tcpReset.aside after.aside).fireEvent _ _ _
  | @cleanedUp mid before =>
      exact (noted.aside before.aside).tcpReset.cleanUp
  | writes ret => exact noted.aside (.tcpWriteAsyncCb ret _)
  | written status done writing => exact noted.aside (.tcpWriteDoneCb status _)
  | checks active => exact noted.aside (aside_checks _)

theorem Retriable.package {type : UInt8} {data : Option Bytes}
    (handles : Handles env type (first.note (.package type data)) second)
    (meets : second.Meets RetryOnce) (sound : first.state.tcp.link.Sound)
    (retriable : Retriable first) : Retriable second := by
  have cond := meets (.package type data, first.state)
    (handles.suffix.subset (List.mem_cons_self ..))
  have reading : first.state.tcp.link.reading = true := cond.package rfl
  have up := sound.reading reading
  have counted : Counted 0 (first.note (.package type data)).notes :=
    (retriable.counted fun failed => up failed.1).cons rfl fun timer =>
      absurd timer Bool.false_ne_true
  have idle : (first.note (.package type data)).state.tcp.link.isConnecting = false :=
    sound.not_connecting up
  cases handles with
  | plain plain => exact .inl (counted.aside plain.aside)
  | kicked kick before => exact .inl ((counted.aside before.aside).fireEvent _ _ _).tcpReset
  | failed timer handshake before after =>
      exact .inl ((counted.aside before.aside).plain_tcp after)
  | refused timer handshake before between after =>
      have answered := (counted.aside before.aside).plain_tcp between
      exact .inl ((answered.fireEvent _ _ _).tcpReset.aside after.aside)
  | @accepted mid next last timer hbTimer handshake before between after =>
      have answered := (counted.aside before.aside).plain_tcp between
      have acked : Counted 0 ((tcpSendHandshakeAck env next).tcp fun tcp =>
          { tcp with state := .done, hbTimer := hbTimer }).notes := answered
      exact .inl ((acked.fireEvent _ _ _).aside after.aside)
  | undecodable reason data before =>
      exact .fire_tcpReconn (counted.aside before.aside)
        ((congrArg Link.isConnecting before.tcp.link).trans idle) _ _ _
  | pushed route text data before => exact .inl ((counted.aside before.aside).fireEvent _ _ _)
  | answered reqId text data before after =>
      have answered := before.aside.trans ((aside_pcTransResp ..).trans after.aside)
      exact .inl ((counted.aside answered).aside (.wq _ _))
  | heartbeat timer beat waiting before after =>
      exact .inl ((counted.aside before.aside).plain_tcp after)

/-- In every run whose steps meet the condition, an attempt is retried at most once. -/
theorem oneRetry_of_reachable {sys : Sys} (reached : Reachable env sys)
    (meets : sys.Meets RetryOnce) : OneRetry sys.notes := by
  obtain ⟨evHandlers, tcp, stored, init, ran⟩ := reached
  have start : Retriable (Sys.init evHandlers tcp stored) :=
    .inl ⟨rfl, fun earlier suffix => by rw [List.suffix_nil.mp suffix]; decide,
      fun entry member => absurd member List.not_mem_nil⟩
  have keeps {first second : Sys} (step : Step env first second) :
      Keeps RetryOnce (fun sys => sys.state.tcp.link.Sound ∧ Retriable sys) first second := by
    refine keeps_sound_step (fun _ cond => cond.attempt rfl)
      (fun _ _ cond sound => sound.reading (cond.package rfl)) ?_ ?_ ?_ ?_ ?_ step
    · exact fun deliver => ⟨(Quiet.of_deliver deliver).notes.suffix, fun _ retriable =>
        retriable.aside (Quiet.of_deliver deliver).aside⟩
    · exact fun plain retriable => retriable.aside plain.aside
    · exact fun ready turn meets sound retriable => retriable.turn ready turn meets sound
    · exact fun retriable => retriable.callback fun timer => absurd timer Bool.false_ne_true
    · exact fun handles meets sound retriable => retriable.package handles meets sound
  obtain ⟨-, retriable⟩ := holds_of_reachable ⟨sound_init init, start⟩ keeps ran meets
  exact retriable.elim (·.retry) (·.1.retry)

/-- The handshake has been sent, and the connection is lost shortly before the time for
the handshake is over. -/
def handshakeLost : List Label := handshakeSent ++ [.loopTime 29500, .loop .readError]

/-- A run in which the handshake is lost. -/
theorem oneRetry_handshakeLost :
    ∃ sys, SampleEnds (fun _ => []) handshakeLost sys ∧ sys.Meets RetryOnce ∧
      OneRetry sys.notes := by
  obtain ⟨sys, ends, meets⟩ := exists_sampleEnds (fun _ => []) handshakeLost
    (fun sys => sys.Meets RetryOnce) (by decide +kernel)
  exact ⟨sys, ends, meets, oneRetry_of_reachable ends.reachable meets⟩

/-- The time for the handshake is over while the transport waits for its next attempt. -/
def handshakeLateToo : List Label := handshakeLost ++ [.loopTime 500, .loop .handshakeTimer]

/-- The handshake timer is still active and retries once more. -/
theorem oneRetry_fails_handshakeLateToo :
    ¬ ∀ (env : Env) (sys : Sys), env.config.enableReconn = true → Reachable env sys →
      OneRetry sys.notes := by
  intro claim
  obtain ⟨sys, ends, twice⟩ := exists_sampleEnds (fun _ => []) handshakeLateToo
    (fun sys => reconnsSince sys.notes = 2) (by decide +kernel)
  have once := (claim _ _ rfl ends.reachable).once _ (List.suffix_refl _)
  omega

end Pomelo
