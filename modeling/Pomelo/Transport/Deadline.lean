import Pomelo.Transport.Reconnects
import Pomelo.Transport.Settings

/-!
# The deadline of an attempt

The timer for the connect request is started with the attempt; when the connection is up the
handshake timer is started with what is left of it. While the request is outstanding nothing
touches the due time of the first timer (`waiting_step`), so what is left is the difference
of that time and the present one, narrowed to an `int` (`handshake_deadline_iff`).
-/

namespace Pomelo

open Transition Recorded Arith

variable {env : Env} {first second : Sys}

variable (env)

/-- The cleanup of the transport leaves what an attempt waits with. -/
theorem waiting_tcpCleanupAsyncCb (sys : Sys) :
    (tcpCleanupAsyncCb env sys).state.tcp.waiting = sys.state.tcp.waiting := by
  have reset := congrArg Frame.waiting
    (frame_tcpReset env (sys.tcp fun tcp => { tcp with cleanupAsync := false }))
  rw [tcpCleanupAsyncCb]
  generalize tcpReset env (sys.tcp fun tcp => { tcp with cleanupAsync := false }) = last at reset ⊢
  exact reset

/-- The end of an outstanding connect request. -/
theorem isConnecting_tcpConnDoneCb (status ret : Int) (sys : Sys) :
    (tcpConnDoneCb env status ret sys).state.tcp.isConnecting = false := by
  have failed (reason : String) (sys : Sys) (idle : sys.state.tcp.isConnecting = false) :
      (attemptFailed env reason sys).state.tcp.isConnecting = false :=
    (congrArg (·.waiting.isConnecting) (frame_attemptFailed env reason sys)).trans idle
  have sent (sys : Sys) := congrArg (·.waiting.isConnecting) (frame_tcpSendHandshake env sys)
  have up (hsTimeout : Int) (sys : Sys) (idle : sys.state.tcp.isConnecting = false) :
      (connDoneUp env hsTimeout ret sys).state.tcp.isConnecting = false := by
    rw [connDoneUp]
    dsimp only
    split
    · have reset := congrArg (·.waiting.isConnecting)
        (frame_tcpReconn env (sys.tcp fun tcp => { tcp with state := .handshakeing }))
      exact reset.trans idle
    split <;> exact (sent _).trans idle
  rw [tcpConnDoneCb]
  split
  · exact up _ _ rfl
  split <;> exact failed _ _ rfl

/-- While the connect request is outstanding the callbacks leave the attempt as it is. -/
theorem waiting_runLoop {event : LoopEvent} {sys : Sys}
    (connecting : sys.state.tcp.isConnecting = true) (other : ∀ data, event ≠ .read data) :
    (runLoop env event sys).state.tcp.waiting = sys.state.tcp.waiting ∨
      (runLoop env event sys).state.tcp.isConnecting = false := by
  by_cases attempt : ∃ resolved ret, event = .connAsync resolved ret
  · obtain ⟨resolved, ret, rfl⟩ := attempt
    refine .inl ?_
    rw [runLoop, tcpConnAsyncCb]
    split
    · rfl
    next idle => exact absurd connecting idle
  by_cases done : ∃ status ret, event = .connDone status ret
  · obtain ⟨status, ret, rfl⟩ := done
    exact .inr (isConnecting_tcpConnDoneCb env status ret sys)
  by_cases cleanup : event = .cleanupAsync
  · subst cleanup
    exact .inl (waiting_tcpCleanupAsyncCb env sys)
  · exact .inl (congrArg Frame.waiting (frame_runLoop env other cleanup
      (fun resolved ret same => attempt ⟨resolved, ret, same⟩)
      (fun status ret same => done ⟨status, ret, same⟩) sys))

/-- Accepting a handshake leaves the attempt. -/
theorem waiting_handshakeAccept {answer : Json} {tcp : Transport} {result : HandshakeResult}
    (accepted : handshakeAccept answer tcp = .ok result) : result.tcp.waiting = tcp.waiting := by
  rw [handshakeAccept] at accepted
  obtain ⟨interval, -, accepted⟩ := Stop.bind_eq_ok accepted
  obtain ⟨useDict, -, accepted⟩ := Stop.bind_eq_ok accepted
  obtain ⟨dict, -, accepted⟩ := Stop.bind_eq_ok accepted
  obtain ⟨useProto, -, accepted⟩ := Stop.bind_eq_ok accepted
  obtain ⟨protos, -, accepted⟩ := Stop.bind_eq_ok accepted
  cases accepted
  have beats : (tcp.setHeartbeat interval).waiting = tcp.waiting := by
    rw [Transport.setHeartbeat]
    split <;> rfl
  exact beats

theorem waiting_handshakeAccepted (result : HandshakeResult) (sys : Sys) :
    (handshakeAccepted env result sys).state.tcp.waiting = result.tcp.waiting := by
  have stored := state_storeHandshake env result.needSync
    (((sys.assert (fun _ => result.dictAsserted) .handshakeDict).assert
      (fun _ => result.protosAsserted) .handshakeProtos).tcp fun _ => result.tcp)
  rw [handshakeAccepted]
  generalize storeHandshake env result.needSync _ = mid at stored ⊢
  have same : mid.state.tcp.waiting = result.tcp.waiting :=
    congrArg (fun core => core.tcp.waiting) stored
  exact (congrArg Frame.waiting (frame_fireEvent env .connected none none _)).trans same

/-- A package leaves what an attempt waits with. -/
theorem waiting_trTcpOnPkgHandler (type : UInt8) (data : Option Bytes) (len : Nat) (sys : Sys) :
    (trTcpOnPkgHandler env type data len sys).state.tcp.waiting = sys.state.tcp.waiting := by
  rcases frame_trTcpOnPkgHandler env type data len sys with
    same | ⟨answer, result, mid, -, same, accepted, handled⟩
  · exact congrArg Frame.waiting same
  · rw [handled, waiting_handshakeAccepted, waiting_handshakeAccept accepted]
    exact congrArg Frame.waiting same

/-- The attempt that was started at a time is being made, and its timer is or was due at
another. -/
structure Waiting.From (start due : Nat) (waiting : Waiting) : Prop where
  due : waiting.due = due
  later : start ≤ waiting.loopTime

variable {env}

/-- A step that leaves the request outstanding leaves the time its timer is due at. -/
theorem waiting_step {start due : Nat} (step : Step env first second)
    (connecting : first.state.tcp.isConnecting = true)
    (begun : first.state.tcp.waiting.From start due)
    (outstanding : second.state.tcp.isConnecting = true) :
    second.state.tcp.waiting.From start due := by
  let cond (_ : Point) (_ : Core) := True
  let inv (sys : Sys) :=
    sys.state.tcp.isConnecting = true ∧ sys.state.tcp.waiting.From start due
  let post (sys : Sys) :=
    sys.state.tcp.isConnecting = true → sys.state.tcp.waiting.From start due
  have same {first second : Sys} (suffix : first.notes <:+ second.notes)
      (same : second.state.tcp.waiting = first.state.tcp.waiting) :
      Keeps cond inv first second := by
    refine ⟨suffix, fun _ start => ?_⟩
    exact ⟨(congrArg Waiting.isConnecting same).trans start.1, same ▸ start.2⟩
  have leads : Leads cond inv post first second := by
    refine leads_callback_step (fun start _ => start.2) ?_ ?_ (fun _ => id) ?_ id ?_ step
    · intro first second deliver
      have quiet := Quiet.of_deliver deliver
      exact same quiet.notes.suffix (congrArg Frame.waiting quiet.frame)
    · intro sys milliseconds start
      exact ⟨start.1, start.2.due, Nat.le_add_right_of_le start.2.later⟩
    · intro event first ready other
      have suffix := (List.suffix_cons _ _).trans
        (@turn_of_ready env event (first.note (.callback event)) ready other).suffix
      refine ⟨suffix, fun _ start connecting => ?_⟩
      have ran := @waiting_runLoop env event (first.note (.callback event)) start.1 other
      rcases ran with kept | ended
      · exact kept ▸ start.2
      · exact absurd (ended.symm.trans connecting) Bool.false_ne_true
    · intro type data len first _
      have handled := (List.suffix_cons _ _).trans
        (@handles_trTcpOnPkgHandler env type data len first).suffix
      exact same handled (waiting_trTcpOnPkgHandler env type data len first)
  exact leads.holds (fun _ _ => trivial) ⟨connecting, begun⟩ outstanding

/-- The time left, as an `int`, and counted from now. -/
theorem UvTimer.start_left {due now : Nat} (range : due < 2 ^ 64) (clock : now < 2 ^ 64) :
    (now ≤ due → due - now < 2 ^ 31 → (start now (toInt32 ((due : Int) - now))).timeout = due) ∧
      ((start now (toInt32 ((due : Int) - now))).timeout ≤ now ↔
        now = 2 ^ 64 - 1 ∨ ((due : Int) - now) % 2 ^ 32 = 0) := by
  rw [start, toInt32, toUInt64]
  dsimp only
  omega

/-- The due time of a timer that is started with an `int`. -/
theorem UvTimer.timeout_start_nonneg (now : Nat) {delay : Int} (nonneg : 0 ≤ delay)
    (bound : delay < 2 ^ 31) :
    ((start now delay).timeout : Int) = min (now + delay) (2 ^ 64 - 1) := by
  rw [start, toUInt64]
  dsimp only
  omega

/-- A timer ends within the range of its clock. -/
theorem UvTimer.timeout_start_lt (now : Nat) (delay : Int) :
    (start now delay).timeout < 2 ^ 64 := by
  rw [start]
  dsimp only
  omega

/-- The connection of an attempt is not up yet: the attempt was made in one state, and the
request has been outstanding in every state since. -/
inductive Attempting (env : Env) (first : Sys) : Sys → Prop where
  | made (idle : first.state.tcp.isConnecting = false) :
      Attempting env first (tcpConnAsyncCb env true 0 first)
  | step {mid last : Sys} (attempting : Attempting env first mid) (step : Step env mid last)
      (outstanding : last.state.tcp.isConnecting = true) : Attempting env first last

/-- The timer of an attempt. -/
def Env.connTimer (env : Env) (start : Nat) : UvTimer :=
  .start start (toInt32 (env.config.connTimeout * 1000))

/-- While an attempt is outstanding its timer runs, from the start of it. -/
theorem Attempting.waiting (attempting : Attempting env first second)
    (timed : env.config.connTimeout ≠ pcWithoutTimeout) :
    second.state.tcp.isConnecting = true ∧ second.state.tcp.waiting.From
      first.state.tcp.loopTime (env.connTimer first.state.tcp.loopTime).timeout := by
  induction attempting with
  | made idle =>
      have begun (sys : Sys) : (beginAttempt sys).state.tcp.waiting = sys.state.tcp.waiting :=
        congrArg Frame.waiting (frame_assert ..)
      have time := congrArg Waiting.loopTime
        (begun (first.tcp fun tcp => { tcp with connAsync := false }))
      have started : tcpConnAsyncCb env true 0 first =
          startAttempt env true 0 (first.tcp fun tcp => { tcp with connAsync := false }) :=
        if_neg (Bool.eq_false_iff.mp idle)
      rw [started, startAttempt]
      generalize beginAttempt _ = mid at time ⊢
      change mid.state.tcp.loopTime = first.state.tcp.loopTime at time
      simp only [Bool.not_true, Bool.false_eq_true, if_false, ne_eq, not_true_eq_false]
      rw [if_pos timed, ← time]
      exact ⟨rfl, rfl, Nat.le_refl _⟩
  | step attempting step outstanding ih =>
      exact ⟨outstanding, waiting_step step ih.1 ih.2 outstanding⟩

/-- The handshake timer is started with what is left of the connect timeout. -/
theorem handshakeTimer_tcpConnDoneCb (timed : env.config.connTimeout ≠ pcWithoutTimeout)
    (sys : Sys) : (tcpConnDoneCb env 0 0 sys).state.tcp.handshakeTimer =
      .start sys.state.tcp.loopTime
        (toInt32 ((sys.state.tcp.connTimeout.timeout : Int) - sys.state.tcp.loopTime)) := by
  have time (sys : Sys) : (tcpSendHandshake env sys).state.tcp.loopTime = sys.state.tcp.loopTime :=
    congrArg (·.waiting.loopTime) (frame_tcpSendHandshake env sys)
  have asserted := Sys.state_assert (fun core => core.tcp.isConnecting) .connDoneConnecting sys
  rw [tcpConnDoneCb]
  generalize sys.assert _ .connDoneConnecting = first at asserted ⊢
  rw [if_pos rfl, connDoneUp]
  simp only [ne_eq, not_true_eq_false, if_false]
  rw [if_pos timed, ← asserted]
  exact congrArg (fun now => UvTimer.start now first.state.tcp.handshakeTimeout) (time _)

/-- The handshake timer is due no later than the present time or the end of the connect
timeout, and the delay up to that end is an `int`. -/
def SharesDeadline (env : Env) (start : Nat) (sys : Sys) : Prop :=
  IsInt (env.config.connTimeout * 1000) ∧
    ((tcpConnDoneCb env 0 0 sys).state.tcp.handshakeTimer.timeout : Int) ≤
      max (sys.state.tcp.loopTime : Int) (start + env.config.connTimeout * 1000)

/-- **The handshake shares the connect deadline.** The timer that is armed when the connection
is up keeps the deadline of the attempt if and only if that has not passed, but for the times
at which the narrowed difference is zero or the clock ends. -/
theorem handshake_deadline_iff (attempting : Attempting env first second)
    (timed : env.config.connTimeout ≠ pcWithoutTimeout)
    (clock : second.state.tcp.loopTime < 2 ^ 64) :
    SharesDeadline env first.state.tcp.loopTime second ↔
      IsInt (env.config.connTimeout * 1000) ∧
        ((0 ≤ env.config.connTimeout ∧
            second.state.tcp.loopTime ≤ first.state.tcp.loopTime + env.config.connTimeout * 1000) ∨
          second.state.tcp.loopTime = 2 ^ 64 - 1 ∨
            ((second.state.tcp.connTimeout.timeout : Int) - second.state.tcp.loopTime) % 2 ^ 32 =
              0) := by
  obtain ⟨-, due, later⟩ := attempting.waiting timed
  change second.state.tcp.connTimeout.timeout = _ at due
  change _ ≤ second.state.tcp.loopTime at later
  rw [SharesDeadline, handshakeTimer_tcpConnDoneCb timed]
  refine and_congr_right fun isInt => ?_
  rw [Env.connTimer, Checked.toInt32_of_isInt isInt] at due
  have range := UvTimer.timeout_start_lt first.state.tcp.loopTime (env.config.connTimeout * 1000)
  rw [← due] at range
  obtain ⟨kept, ended⟩ := UvTimer.start_left range clock
  obtain ⟨low, high⟩ := isInt
  by_cases positive : 0 ≤ env.config.connTimeout
  · have shared := UvTimer.timeout_start_nonneg first.state.tcp.loopTime
      (Int.mul_nonneg positive (by decide : (0 : Int) ≤ 1000)) high
    rw [← due] at shared
    omega
  · omega

/-- The attempt of the sample is about to be made. -/
def attemptSample : Sys :=
  (sampleRun (fun _ => []) (handshakeSent.take 4) (by decide +kernel)).note
    (.callback (.connAsync true 0))

/-- The attempt of the sample, some milliseconds later. -/
def outstandingSample (milliseconds : Nat) : Sys :=
  (tcpConnAsyncCb (.sample fun _ => []) true 0 attemptSample).tcp fun tcp =>
    { tcp with loopTime := tcp.loopTime + milliseconds }

/-- The attempt of the sample is outstanding as long as one likes. -/
theorem attempting_outstandingSample (milliseconds : Nat) :
    Attempting (.sample fun _ => []) attemptSample (outstandingSample milliseconds) := by
  have idle : attemptSample.state.tcp.isConnecting = false := by decide +kernel
  have running :
      (tcpConnAsyncCb (.sample fun _ => []) true 0 attemptSample).state.crashed = false := by
    decide +kernel
  have outstanding : (outstandingSample milliseconds).state.tcp.isConnecting = true := by
    have made : (tcpConnAsyncCb (.sample fun _ => []) true 0 attemptSample).state.tcp.isConnecting =
        true := by
      decide +kernel
    exact made
  refine .step (.made idle) ⟨.loopTime milliseconds, ?_⟩ outstanding
  exact if_neg (Bool.eq_false_iff.mp running)

/-- After ten milliseconds the rest of the deadline is shared. -/
theorem handshake_deadline_soon :
    SharesDeadline (.sample fun _ => []) attemptSample.state.tcp.loopTime (outstandingSample 10) :=
  (handshake_deadline_iff (attempting_outstandingSample 10) (by decide) (by decide +kernel)).mpr
    (by decide +kernel)

/-- A millisecond past the timeout the connection comes up, and the rest of the deadline wraps
round to almost `2 ^ 64` milliseconds. -/
theorem handshake_deadline_fails :
    Attempting (.sample fun _ => []) attemptSample (outstandingSample 30001) ∧
      (outstandingSample 30001).state.tcp.loopTime = 30001 ∧
        (outstandingSample 30001).state.ready (.connDone 0 0) = true ∧
          (tcpConnDoneCb (.sample fun _ => []) 0 0
            (outstandingSample 30001)).state.tcp.handshakeTimer.timeout = 2 ^ 64 - 1 ∧
          ¬ SharesDeadline (.sample fun _ => []) attemptSample.state.tcp.loopTime
            (outstandingSample 30001) := by
  refine ⟨attempting_outstandingSample 30001, by decide +kernel, by decide +kernel,
    by decide +kernel, fun shares => ?_⟩
  exact absurd shares.2 (by decide +kernel)

end Pomelo
