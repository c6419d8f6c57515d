import Pomelo.Transport.Deadline

/-!
# The arithmetic of the heartbeats

The interval of a handshake makes a timeout in seconds, two delays in milliseconds, and
with each answer a round-trip time, which is taken from the due time of a timer and goes into
an average. All of it is in the type `int`, and the interval is only checked to be positive:
the arithmetic is exact as far as the larger delay and the sum of the average are in range
(`beats_exact_iff`).
-/

namespace Pomelo

open Arith

variable {env : Env} {interval : Int} {first second : Sys}

namespace Checked

/-- `hb_timeout` of `tcp__on_handshake_resp` -/
def hbTimeout (interval : Int) : Except Undefined Int := mul interval pcHeartbeatTimeoutFactor

/-- The delay of a timer of the heartbeat. -/
def milliseconds (seconds : Int) : Except Undefined Int := mul seconds 1000

/-- `start` of `tcp__on_heartbeat`. The difference is that of 64-bit numbers, and narrowed. -/
def hbStart (tcp : Transport) : Except Undefined Int := do
  return toInt32 (tcp.hbTimeoutTimer.timeout - (← milliseconds tcp.hbTimeout))

/-- `hb_rtt` behind `tcp__on_heartbeat` -/
def hbRtt (tcp : Transport) : Except Undefined Int := do
  let rtt := toInt32 (tcp.loopTime - (← hbStart tcp))
  if tcp.hbRtt = -1 then return rtt
  else quot (← add (← mul tcp.hbRtt 2) rtt) 3

end Checked

/-- The time since the heartbeat was sent, as far as the timer tells. -/
def Transport.sinceSent (tcp : Transport) : Int :=
  tcp.loopTime - (tcp.hbTimeoutTimer.timeout - tcp.hbTimeout * 1000)

/-- The sum that the average is taken of is in range. -/
def Transport.AverageFits (tcp : Transport) : Prop :=
  tcp.hbRtt = -1 ∨ tcp.hbRtt * 2 + tcp.sinceSent < 2 ^ 31

instance (tcp : Transport) : Decidable tcp.AverageFits := inferInstanceAs (Decidable (_ ∨ _))

/-- What the heartbeats of a connection leave behind. -/
structure Beat where
  hbInterval : Int
  hbTimeout : Int
  hbRtt : Int
  isWaitingHb : Bool
  sendDue : Nat
  answerDue : Nat

def Transport.beat (tcp : Transport) : Beat where
  hbInterval := tcp.hbInterval
  hbTimeout := tcp.hbTimeout
  hbRtt := tcp.hbRtt
  isWaitingHb := tcp.isWaitingHb
  sendDue := tcp.hbTimer.timeout
  answerDue := tcp.hbTimeoutTimer.timeout

/-- An answer to the awaited heartbeat comes before its timeout. -/
def Transport.InTime (tcp : Transport) : Prop :=
  tcp.isWaitingHb = true ∧ tcp.loopTime ≤ tcp.hbTimeoutTimer.timeout

instance (tcp : Transport) : Decidable tcp.InTime := inferInstanceAs (Decidable (_ ∧ _))

/-- The exchanges of heartbeats since an interval was announced to a connection that was
reset before, each answered in time, with the states that answers have come in. Between them
anything may happen that leaves alone what they work with. -/
inductive Beats (env : Env) (interval : Int) : (answered : List Transport) → Sys → Prop where
  | accepted {answer : Json} {result : HandshakeResult} {sys : Sys}
      (announced : handshakeHeartbeat answer = .ok interval)
      (accepted : handshakeAccept answer sys.state.tcp = .ok result)
      (unknown : sys.state.tcp.hbRtt = -1) (idle : sys.state.tcp.isWaitingHb = false) :
      Beats env interval [] (handshakeAccepted env result sys)
  | later {answered : List Transport} {first second : Sys} (beats : Beats env interval answered first)
      (kept : second.state.tcp.beat = first.state.tcp.beat)
      (clock : first.state.tcp.loopTime ≤ second.state.tcp.loopTime) :
      Beats env interval answered second
  | sent {answered : List Transport} {sys : Sys} (beats : Beats env interval answered sys) :
      Beats env interval answered (tcpHeartbeatTimerCb env sys)
  | answered {answered : List Transport} {sys : Sys} (beats : Beats env interval answered sys)
      (inTime : sys.state.tcp.InTime) :
      Beats env interval (sys.state.tcp :: answered) (tcpOnHeartbeat sys)

/-- The interval is set in seconds, and the timeout with it. -/
theorem Transport.beat_setHeartbeat (positive : 0 < interval) (tcp : Transport) :
    (tcp.setHeartbeat interval).beat =
      { tcp.beat with hbInterval := interval, hbTimeout := toInt32 (interval * 2) } := by
  rw [setHeartbeat, if_neg (Int.not_le.mpr positive)]
  rfl

/-- An accepted answer sets the interval that it announces. -/
theorem beat_handshakeAccept {answer : Json} {tcp : Transport} {result : HandshakeResult}
    (announced : handshakeHeartbeat answer = .ok interval) (positive : 0 < interval)
    (accepted : handshakeAccept answer tcp = .ok result) :
    result.tcp.loopTime = tcp.loopTime ∧ result.tcp.beat =
      { tcp.beat with hbInterval := interval, hbTimeout := toInt32 (interval * 2) } := by
  have time : result.tcp.loopTime = tcp.loopTime :=
    congrArg Waiting.loopTime (waiting_handshakeAccept accepted)
  refine ⟨time, ?_⟩
  rw [handshakeAccept, announced, Stop.ok_bind] at accepted
  obtain ⟨useDict, -, accepted⟩ := Stop.bind_eq_ok accepted
  obtain ⟨dict, -, accepted⟩ := Stop.bind_eq_ok accepted
  obtain ⟨useProto, -, accepted⟩ := Stop.bind_eq_ok accepted
  obtain ⟨protos, -, accepted⟩ := Stop.bind_eq_ok accepted
  cases accepted
  exact Transport.beat_setHeartbeat positive tcp

variable (env) in
/-- The timer of the first heartbeat is armed with the answer. -/
theorem beat_handshakeAccepted (result : HandshakeResult)
    (announced : result.tcp.hbInterval ≠ -1) (sys : Sys) :
    (handshakeAccepted env result sys).state.tcp.loopTime = result.tcp.loopTime ∧
      (handshakeAccepted env result sys).state.tcp.beat = { result.tcp.beat with
        sendDue := (UvTimer.start result.tcp.loopTime
          (toInt32 (result.tcp.hbInterval * 1000))).timeout } := by
  have time : (handshakeAccepted env result sys).state.tcp.loopTime = result.tcp.loopTime :=
    congrArg Waiting.loopTime (waiting_handshakeAccepted env result sys)
  refine ⟨time, ?_⟩
  have stored := state_storeHandshake env result.needSync
    (((sys.assert (fun _ => result.dictAsserted) .handshakeDict).assert
      (fun _ => result.protosAsserted) .handshakeProtos).tcp fun _ => result.tcp)
  rw [handshakeAccepted]
  generalize storeHandshake env result.needSync _ = mid at stored ⊢
  have same : mid.state.tcp = result.tcp := congrArg Core.tcp stored
  have fired (sys : Sys) : (fireEvent env .connected none none sys).state.tcp.beat =
      sys.state.tcp.beat := by
    have kept := congrArg Transport.beat (quiet_fireEvent env .connected none none sys).conn
    exact kept
  refine (fired _).trans ?_
  change Transport.beat { mid.state.tcp with
    hbTimer :=
      if mid.state.tcp.hbInterval ≠ -1 then
        .start mid.state.tcp.loopTime (toInt32 (mid.state.tcp.hbInterval * 1000))
      else mid.state.tcp.hbTimer } = _
  rw [same, if_pos announced]
  rfl

variable (env) in
/-- A heartbeat is sent, and its answer awaited. -/
theorem tcpHeartbeatTimerCb_spec (sys : Sys) :
    (tcpHeartbeatTimerCb env sys).state.tcp.loopTime = sys.state.tcp.loopTime ∧
      (tcpHeartbeatTimerCb env sys).state.tcp.hbTimeoutTimer =
        .start sys.state.tcp.loopTime (toInt32 (sys.state.tcp.hbTimeout * 1000)) ∧
      (tcpHeartbeatTimerCb env sys).state.tcp.beat = { sys.state.tcp.beat with
        isWaitingHb := true
        answerDue := (UvTimer.start sys.state.tcp.loopTime
          (toInt32 (sys.state.tcp.hbTimeout * 1000))).timeout } := by
  have sent (sys : Sys) : (tcpSendHeartbeat env sys).state.tcp.loopTime = sys.state.tcp.loopTime ∧
      (tcpSendHeartbeat env sys).state.tcp.beat = sys.state.tcp.beat := by
    have asserted := Sys.state_assert (fun core => core.tcp.state = .done) .heartbeatSent sys
    rw [tcpSendHeartbeat, ← asserted]
    exact ⟨rfl, rfl⟩
  have asserted := Sys.state_assert (fun core => !core.tcp.isWaitingHb && core.tcp.state = .done)
    .heartbeatTimer sys
  rw [tcpHeartbeatTimerCb]
  generalize sys.assert _ .heartbeatTimer = mid at asserted ⊢
  obtain ⟨time, beat⟩ := sent mid
  generalize tcpSendHeartbeat env mid = last at time beat ⊢
  rw [asserted] at time beat
  have timeout : last.state.tcp.hbTimeout = sys.state.tcp.hbTimeout := congrArg Beat.hbTimeout beat
  rw [← time, ← timeout, ← beat]
  exact ⟨rfl, rfl, rfl⟩

/-- The awaited answer has come, and the next heartbeat is due. -/
theorem tcpOnHeartbeat_spec {sys : Sys} (waiting : sys.state.tcp.isWaitingHb = true) :
    (tcpOnHeartbeat sys).state.tcp = { sys.state.tcp with
      hbTimeoutTimer := sys.state.tcp.hbTimeoutTimer.stop
      isWaitingHb := false
      hbRtt :=
        if sys.state.tcp.hbRtt = -1 then sys.state.tcp.rtt
        else (toInt32 (sys.state.tcp.hbRtt * 2 + sys.state.tcp.rtt)).tdiv 3
      hbTimer := .start sys.state.tcp.loopTime (toInt32 (sys.state.tcp.hbInterval * 1000)) } := by
  have state := Sys.state_assert (fun core => core.tcp.state = .done) .heartbeatState sys
  have active := Sys.state_assert (fun core => core.tcp.hbTimeoutTimer.active) .heartbeatActive
    (sys.assert (fun core => core.tcp.state = .done) .heartbeatState)
  have same := congrArg Core.tcp (active.trans state)
  rw [tcpOnHeartbeat, waiting, if_neg (by decide)]
  dsimp only
  generalize (sys.assert _ .heartbeatState).assert _ .heartbeatActive = last at same ⊢
  rw [← same]
  rfl

/-- What heartbeats leave behind when their arithmetic is exact. -/
structure Beat.Sound (interval : Int) (now : Nat) (beat : Beat) : Prop where
  announced : beat.hbInterval = interval
  timeout : beat.hbTimeout = interval * 2
  rtt : beat.hbRtt = -1 ∨ 0 ≤ beat.hbRtt ∧ beat.hbRtt ≤ interval * 2000
  idle : beat.isWaitingHb = false →
    ∃ start ≤ now, beat.sendDue = (UvTimer.start start (interval * 1000)).timeout
  waiting : beat.isWaitingHb = true →
    ∃ start ≤ now, beat.answerDue = (UvTimer.start start (interval * 2000)).timeout

/-- A difference of wrapped times is the wrapped difference. -/
theorem toInt32_sub_toInt32 (left right : Int) :
    toInt32 (left - toInt32 right) = toInt32 (left - right) := by
  rw [toInt32, toInt32, toInt32]
  omega

namespace Transport

variable {tcp : Transport}

/-- The round-trip time is the time since the heartbeat was sent, if this is in range. -/
theorem rtt_eq (timeout : IsInt (tcp.hbTimeout * 1000)) (since : IsInt tcp.sinceSent) :
    tcp.rtt = tcp.sinceSent := by
  rw [rtt, Checked.toInt32_of_isInt timeout]
  rw [toInt32_sub_toInt32]
  exact Checked.toInt32_of_isInt since

/-- The checked round trip time is the average of the old and the new one. -/
theorem checked_rtt_eq (timeout : IsInt (tcp.hbTimeout * 1000)) (since : IsInt tcp.sinceSent) :
    Checked.hbRtt tcp =
      if tcp.hbRtt = -1 then .ok tcp.sinceSent
      else mul tcp.hbRtt 2 >>= fun twice => add twice tcp.sinceSent >>= fun sum => quot sum 3 := by
  have start : Checked.hbStart tcp =
      .ok (toInt32 (tcp.hbTimeoutTimer.timeout - tcp.hbTimeout * 1000)) :=
    bind_ok (mul_eq_ok timeout) _
  rw [Checked.hbRtt, bind_ok start]
  dsimp only
  rw [toInt32_sub_toInt32]
  change (if _ then Except.ok (toInt32 tcp.sinceSent) else
    mul tcp.hbRtt 2 >>= fun twice => add twice (toInt32 tcp.sinceSent) >>= fun sum => quot sum 3) = _
  rw [Checked.toInt32_of_isInt since]

/-- The time that is known behind an answer, if the sum of the average is in range. -/
theorem checked_rtt_bounds {bound : Int} (timeout : IsInt (tcp.hbTimeout * 1000))
    (sinceLeast : 0 ≤ tcp.sinceSent) (sinceMost : tcp.sinceSent ≤ bound)
    (known : tcp.hbRtt = -1 ∨ 0 ≤ tcp.hbRtt ∧ tcp.hbRtt ≤ bound) (inside : bound < 2 ^ 31)
    (fits : tcp.AverageFits) : ∃ rtt, Checked.hbRtt tcp = .ok rtt ∧
      (if tcp.hbRtt = -1 then tcp.rtt else (toInt32 (tcp.hbRtt * 2 + tcp.rtt)).tdiv 3) = rtt ∧
        0 ≤ rtt ∧ rtt ≤ bound := by
  have since : IsInt tcp.sinceSent := ⟨by omega, by omega⟩
  rw [checked_rtt_eq timeout since, rtt_eq timeout since]
  by_cases first : tcp.hbRtt = -1
  · rw [if_pos first, if_pos first]
    exact ⟨_, rfl, rfl, sinceLeast, sinceMost⟩
  · obtain ⟨least, most⟩ := known.resolve_left first
    have sum := fits.resolve_left first
    have twice := mul_eq_ok (show IsInt (tcp.hbRtt * 2) from ⟨by omega, by omega⟩)
    have added := add_eq_ok (show IsInt (tcp.hbRtt * 2 + tcp.sinceSent) from ⟨by omega, by omega⟩)
    have third := quot_eq_ok (show 0 ≤ tcp.hbRtt * 2 + tcp.sinceSent by omega) sum
      (show (0 : Int) < 3 by decide)
    rw [if_neg first, if_neg first, bind_ok twice, bind_ok added]
    refine ⟨_, third, ?_, by omega, by omega⟩
    rw [Checked.toInt32_of_isInt ⟨by omega, by omega⟩, Int.tdiv_eq_ediv_of_nonneg (by omega)]

theorem checked_rtt_overflow (timeout : IsInt (tcp.hbTimeout * 1000)) (since : IsInt tcp.sinceSent)
    (known : tcp.hbRtt = -1 ∨ 0 ≤ tcp.hbRtt) (large : ¬ tcp.AverageFits) :
    Checked.hbRtt tcp = .error .overflow := by
  obtain ⟨later, large⟩ := not_or.mp large
  have least := known.resolve_left later
  rw [checked_rtt_eq timeout since, if_neg later]
  by_cases twice : IsInt (tcp.hbRtt * 2)
  · have overflow : ¬ IsInt (tcp.hbRtt * 2 + tcp.sinceSent) := fun isInt => large isInt.2
    rw [bind_ok (mul_eq_ok twice), add, int, if_neg overflow]
    rfl
  · rw [mul, int, if_neg twice]
    rfl

end Transport

namespace Beat.Sound

variable {beat : Beat} {tcp : Transport} {now later : Nat}

theorem mono (sound : beat.Sound interval now) (le : now ≤ later) : beat.Sound interval later where
  announced := sound.announced
  timeout := sound.timeout
  rtt := sound.rtt
  idle idle := by
    obtain ⟨start, before, due⟩ := sound.idle idle
    exact ⟨start, before.trans le, due⟩
  waiting waiting := by
    obtain ⟨start, before, due⟩ := sound.waiting waiting
    exact ⟨start, before.trans le, due⟩

theorem isInt_timeout (sound : tcp.beat.Sound interval now) (positive : 0 < interval)
    (short : interval * 2000 < 2 ^ 31) : IsInt (tcp.hbTimeout * 1000) := by
  have timeout : tcp.hbTimeout = interval * 2 := sound.timeout
  exact ⟨by omega, by omega⟩

/-- An answer in time comes within the timeout. -/
theorem since (sound : tcp.beat.Sound interval tcp.loopTime) (positive : 0 < interval)
    (short : interval * 2000 < 2 ^ 31) (inTime : tcp.InTime) :
    0 ≤ tcp.sinceSent ∧ tcp.sinceSent ≤ interval * 2000 := by
  obtain ⟨waiting, before⟩ := inTime
  obtain ⟨start, sent, due⟩ := sound.waiting waiting
  have timeout : tcp.hbTimeout = interval * 2 := sound.timeout
  have saturated := UvTimer.timeout_start_nonneg start (show 0 ≤ interval * 2000 by omega) short
  rw [← due] at saturated
  change (tcp.hbTimeoutTimer.timeout : Int) = _ at saturated
  rw [Transport.sinceSent]
  omega

/-- The round-trip time that is known behind an answer. -/
theorem rtt_answered (sound : tcp.beat.Sound interval tcp.loopTime) (positive : 0 < interval)
    (short : interval * 2000 < 2 ^ 31) (inTime : tcp.InTime) (fits : tcp.AverageFits) :
    ∃ rtt, Checked.hbRtt tcp = .ok rtt ∧
      (if tcp.hbRtt = -1 then tcp.rtt else (toInt32 (tcp.hbRtt * 2 + tcp.rtt)).tdiv 3) = rtt ∧
        0 ≤ rtt ∧ rtt ≤ interval * 2000 := by
  obtain ⟨least, most⟩ := sound.since positive short inTime
  exact Transport.checked_rtt_bounds (sound.isInt_timeout positive short) least most sound.rtt short
    fits

end Beat.Sound

namespace Beats

variable {answered : List Transport} {sys : Sys}

/-- A run of exchanges is sound while the sums of the averages are in range. -/
theorem sound (beats : Beats env interval answered sys) (positive : 0 < interval)
    (short : interval * 2000 < 2 ^ 31) (averages : ∀ tcp ∈ answered, tcp.AverageFits) :
    sys.state.tcp.beat.Sound interval sys.state.tcp.loopTime := by
  have double : toInt32 (interval * 2) = interval * 2 :=
    Checked.toInt32_of_isInt ⟨by omega, by omega⟩
  have sendDelay : toInt32 (interval * 1000) = interval * 1000 :=
    Checked.toInt32_of_isInt ⟨by omega, by omega⟩
  induction beats with
  | @accepted answer result sys announced accepted unknown idle =>
      obtain ⟨time, beat⟩ := beat_handshakeAccept announced positive accepted
      have interval : result.tcp.hbInterval = interval := congrArg Beat.hbInterval beat
      have some : result.tcp.hbInterval ≠ -1 := by omega
      obtain ⟨lastTime, last⟩ := beat_handshakeAccepted env result some sys
      rw [lastTime, last, interval, sendDelay, beat, double]
      have still : sys.state.tcp.beat.isWaitingHb = false := idle
      exact ⟨rfl, rfl, .inl unknown, fun _ => ⟨_, Nat.le_refl _, rfl⟩,
        fun waiting => absurd (still.symm.trans waiting) Bool.false_ne_true⟩
  | later beats kept clock ih =>
      rw [kept]
      exact (ih averages).mono clock
  | @sent answered sys beats ih =>
      have sound := ih averages
      obtain ⟨time, -, beat⟩ := tcpHeartbeatTimerCb_spec env sys
      have timeout : sys.state.tcp.hbTimeout = interval * 2 := sound.timeout
      have answerDelay : toInt32 (sys.state.tcp.hbTimeout * 1000) = interval * 2000 := by
        rw [Checked.toInt32_of_isInt (sound.isInt_timeout positive short), timeout, Int.mul_assoc]
        rfl
      rw [time, beat, answerDelay]
      exact ⟨sound.announced, sound.timeout, sound.rtt, nofun, fun _ => ⟨_, Nat.le_refl _, rfl⟩⟩
  | @answered answered sys beats inTime ih =>
      have sound := ih fun tcp member => averages tcp (List.mem_cons_of_mem _ member)
      obtain ⟨rtt, -, same, least, most⟩ :=
        sound.rtt_answered positive short inTime (averages _ List.mem_cons_self)
      have announced : sys.state.tcp.hbInterval = interval := sound.announced
      rw [tcpOnHeartbeat_spec inTime.1, same, announced, sendDelay]
      exact ⟨sound.announced, sound.timeout, .inr ⟨least, most⟩, fun _ => ⟨_, Nat.le_refl _, rfl⟩,
        nofun⟩

end Beats

/-- The arithmetic of the heartbeats is defined and exact in a state: the timeout and the two
delays, the due times of the timers, the round-trip time that is known, and what the next
heartbeat and the next answer do. -/
structure BeatExact (env : Env) (interval : Int) (sys : Sys) : Prop where
  hbTimeout : Checked.hbTimeout sys.state.tcp.hbInterval = .ok sys.state.tcp.hbTimeout
  sendDelay : Checked.milliseconds sys.state.tcp.hbInterval = .ok (interval * 1000)
  answerDelay : Checked.milliseconds sys.state.tcp.hbTimeout = .ok (interval * 2000)
  sendArmed : sys.state.tcp.isWaitingHb = false → ∃ start ≤ sys.state.tcp.loopTime,
    sys.state.tcp.hbTimer.timeout = (UvTimer.start start (interval * 1000)).timeout
  answerArmed : sys.state.tcp.isWaitingHb = true → ∃ start ≤ sys.state.tcp.loopTime,
    sys.state.tcp.hbTimeoutTimer.timeout = (UvTimer.start start (interval * 2000)).timeout
  rtt : sys.state.tcp.hbRtt = -1 ∨
    0 ≤ sys.state.tcp.hbRtt ∧ sys.state.tcp.hbRtt ≤ sys.state.tcp.hbTimeout * 1000
  sent : (tcpHeartbeatTimerCb env sys).state.tcp.hbTimeoutTimer =
    .start sys.state.tcp.loopTime (interval * 2000)
  answered : sys.state.tcp.InTime →
    Checked.hbRtt sys.state.tcp = .ok (tcpOnHeartbeat sys).state.tcp.hbRtt ∧
      (tcpOnHeartbeat sys).state.tcp.hbTimer = .start sys.state.tcp.loopTime (interval * 1000)

/-- **Exact heartbeats.** After exchanges whose averages were in range, the arithmetic is exact
if and only if the timeout is in range in milliseconds, and so is the sum of the next average
when an answer in time is to come. -/
theorem beats_exact_iff {answered : List Transport} {sys : Sys}
    (beats : Beats env interval answered sys) (positive : 0 < interval)
    (averages : ∀ tcp ∈ answered, tcp.AverageFits) :
    BeatExact env interval sys ↔ interval * 2000 < 2 ^ 31 ∧
      (sys.state.tcp.InTime → sys.state.tcp.AverageFits) := by
  constructor
  · intro exact
    obtain ⟨inside, same⟩ := int_eq_ok_iff.mp exact.answerDelay
    have short : interval * 2000 < 2 ^ 31 := by
      rw [same] at inside
      exact inside.2
    have sound := beats.sound positive short averages
    refine ⟨short, fun inTime => ?_⟩
    obtain ⟨least, most⟩ := sound.since positive short inTime
    by_contra large
    have overflow := Transport.checked_rtt_overflow (sound.isInt_timeout positive short)
      ⟨by omega, by omega⟩ (sound.rtt.imp_right And.left) large
    exact absurd (overflow.symm.trans (exact.answered inTime).1) nofun
  · rintro ⟨short, fits⟩
    have sound := beats.sound positive short averages
    have announced : sys.state.tcp.hbInterval = interval := sound.announced
    have timeout : sys.state.tcp.hbTimeout = interval * 2 := sound.timeout
    have isInt := sound.isInt_timeout positive short
    have answerDelay : sys.state.tcp.hbTimeout * 1000 = interval * 2000 := by omega
    have sendInt : IsInt (interval * 1000) := ⟨by omega, by omega⟩
    refine ⟨?_, ?_, ?_, sound.idle, sound.waiting, ?_, ?_, fun inTime => ⟨?_, ?_⟩⟩
    · have doubleInt : IsInt (interval * 2) := ⟨by omega, by omega⟩
      rw [announced, timeout]
      exact mul_eq_ok doubleInt
    · rw [announced]
      exact mul_eq_ok sendInt
    · rw [← answerDelay]
      exact mul_eq_ok isInt
    · rw [answerDelay]
      exact sound.rtt
    · rw [(tcpHeartbeatTimerCb_spec env sys).2.1, Checked.toInt32_of_isInt isInt, answerDelay]
    · obtain ⟨rtt, checked, same, -⟩ := sound.rtt_answered positive short inTime (fits inTime)
      rw [tcpOnHeartbeat_spec inTime.1, same]
      exact checked
    · rw [tcpOnHeartbeat_spec inTime.1, announced, Checked.toInt32_of_isInt sendInt]

/-- The `sys` of an answer that announces an interval alone. -/
def beatAnswer (interval : Int) : Json :=
  .object [(CStr.ofString "heartbeat", .number (Codec.Double.ofInt interval))]

/-- The sample, when it has taken such an answer. -/
def beatSample (interval : Int) : Sys :=
  let sys := sampleRun (fun _ => []) handshakeSent runs_handshakeSent
  match handshakeAccept (beatAnswer interval) sys.state.tcp with
  | .ok result => handshakeAccepted (.sample fun _ => []) result sys
  | .error stop => sys.crash stop

/-- A heartbeat is sent, and some milliseconds pass. -/
def beatSent (milliseconds : Nat) (sys : Sys) : Sys :=
  (tcpHeartbeatTimerCb (.sample fun _ => []) sys).tcp fun tcp =>
    { tcp with loopTime := tcp.loopTime + milliseconds }

/-- The sample begins with the answer that announces the interval. -/
theorem beats_beatSample {interval : Int}
    (announced : handshakeHeartbeat (beatAnswer interval) = .ok interval)
    (running : (beatSample interval).state.crashed = false) :
    Beats (.sample fun _ => []) interval [] (beatSample interval) := by
  rw [beatSample] at running ⊢
  split
  next result accepted =>
    exact .accepted announced accepted (by decide +kernel) (by decide +kernel)
  next stop failed =>
    rw [failed] at running
    exact absurd running.symm Bool.false_ne_true

/-- A beat that is sent is one more. -/
theorem Beats.beatSent {answered : List Transport} {sys : Sys}
    (beats : Beats (.sample fun _ => []) interval answered sys) (milliseconds : Nat) :
    Beats (.sample fun _ => []) interval answered (beatSent milliseconds sys) :=
  .later (.sent beats) rfl (Nat.le_add_right _ milliseconds)

theorem beats_exact_twice :
    BeatExact (.sample fun _ => []) 3 (beatSent 70 (tcpOnHeartbeat (beatSent 50 (beatSample 3)))) := by
  have beats : Beats (.sample fun _ => []) 3 [] (beatSample 3) :=
    beats_beatSample (by decide +kernel) (by decide +kernel)
  refine (beats_exact_iff (((beats.beatSent 50).answered (by decide +kernel)).beatSent 70)
    (by decide) ?_).mpr ⟨by decide, fun _ => by decide +kernel⟩
  intro tcp member
  rw [List.mem_singleton.mp member]
  decide +kernel

/-- The timeout overflows with a long interval, and the average with two late answers. -/
theorem beats_exact_fails :
    (Beats (.sample fun _ => []) 1073742 [] (beatSample 1073742) ∧
      ¬ BeatExact (.sample fun _ => []) 1073742 (beatSample 1073742)) ∧
    ∃ answered sys, Beats (.sample fun _ => []) 1000000 answered sys ∧
      ¬ BeatExact (.sample fun _ => []) 1000000 sys := by
  have long : Beats (.sample fun _ => []) 1073742 [] (beatSample 1073742) :=
    beats_beatSample (by decide +kernel) (by decide +kernel)
  have late : Beats (.sample fun _ => []) 1000000 [] (beatSample 1000000) :=
    beats_beatSample (by decide +kernel) (by decide +kernel)
  refine ⟨⟨long, fun exact => absurd exact.answerDelay (by decide +kernel)⟩, _, _,
    ((late.beatSent 1500000000).answered (by decide +kernel)).beatSent 1500000000,
    fun exact => ?_⟩
  exact absurd (exact.answered (by decide +kernel)).1 (by decide +kernel)

end Pomelo
