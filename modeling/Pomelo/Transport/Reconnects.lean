import Pomelo.Transport.Backoff

/-!
# The schedule of the attempts

The calls of `tcp__reconn` in a row: each arms the timer once with a delay around the
scheduled one, up to the limit for retries; the call behind the limit reports the failure
and starts the count again (`reconns_schedule`).
-/

namespace Pomelo

open Transition Recorded Arith

variable {env : Env} {first second third : Sys}

/-- The delay that the timer is armed with. -/
def Point.arming? : Point → Option Int
  | .reconnArmed delay => some delay
  | _ => none

/-- `PC_EV_CONNECT_FAILED` is fired. -/
def Point.failsConnect (point : Point) : Bool := point matches .fire .connectFailed

/-- What is noted of arming the timer and of failing, from the first state to the second. -/
def Tally (first second : Sys) (armings : List Int) (failures : Nat) : Prop :=
  ∃ new, second.notes = new ++ first.notes ∧ new.filterMap (·.1.arming?) = armings ∧
    new.countP (·.1.failsConnect) = failures

namespace Tally

variable {armings later : List Int} {failures more : Nat}

/-- What is counted in two steps. -/
theorem trans (left : Tally first second armings failures) (right : Tally second third later more) :
    Tally first third (later ++ armings) (more + failures) := by
  obtain ⟨early, before, armed, failed⟩ := left
  obtain ⟨late, after, armedLater, failedLater⟩ := right
  refine ⟨late ++ early, by rw [after, before, List.append_assoc], ?_, ?_⟩
  · rw [List.filterMap_append, armed, armedLater]
  · rw [List.countP_append, failed, failedLater]

/-- A note is counted by its kind. -/
theorem note (point : Point) (sys : Sys) :
    Tally sys (sys.note point) point.arming?.toList (if point.failsConnect then 1 else 0) := by
  refine ⟨[(point, sys.state)], rfl, ?_, ?_⟩
  · cases point <;> rfl
  · rw [List.countP_singleton]

/-- A kind of notes that is neither. -/
theorem of_adds {kind : Point → Bool}
    (other : ∀ point, kind point → point.arming? = none ∧ point.failsConnect = false)
    (adds : Adds kind first second) : Tally first second [] 0 := by
  obtain ⟨new, notes, allowed⟩ := adds
  refine ⟨new, notes, ?_, ?_⟩
  · rw [List.filterMap_eq_nil_iff]
    exact fun entry member => (other entry.1 (allowed entry member)).1
  · rw [List.countP_eq_zero]
    exact fun entry member set =>
      absurd ((other entry.1 (allowed entry member)).2.symm.trans set) Bool.false_ne_true

/-- A quiet step counts for nothing. -/
theorem of_quiet (quiet : Quiet first second) : Tally first second [] 0 := by
  refine of_adds (fun point delivery => ?_) quiet.notes
  cases point <;> first | exact ⟨rfl, rfl⟩ | exact absurd delivery Bool.false_ne_true

variable (env) in

/-- A reset arms nothing and fails nothing. -/
theorem tcpReset (sys : Sys) : Tally sys (Pomelo.tcpReset env sys) [] 0 := by
  refine of_adds (fun point reset => ?_) (adds_tcpReset sys)
  cases point <;> first | exact ⟨rfl, rfl⟩ | exact absurd reset Bool.false_ne_true

end Tally

variable (env) in
/-- The connection behind a reset. -/
theorem conn_tcpReset (sys : Sys) : ∃ socket,
    (tcpReset env sys).state.tcp.conn = { sys.state.tcp.stopAll with socket }.conn := by
  have items := (Quiet.resetItems env
    (((sys.note .reset).tcp Transport.stopAll).change Core.closeSocket)).conn
  have closed (core : Core) : ∃ socket, core.closeSocket.tcp = { core.tcp with socket } := by
    rw [Core.closeSocket]
    split
    · exact ⟨_, rfl⟩
    · exact ⟨_, rfl⟩
  obtain ⟨socket, same⟩ := closed ((sys.note .reset).tcp Transport.stopAll).state
  exact ⟨socket, items.trans (congrArg Transport.conn same)⟩

/-- The timer is armed once, with a delay in seconds, and no failure is reported. -/
structure ArmsOnce (timeout : Int) (first second : Sys) : Prop where
  tally : Tally first second [timeout] 0
  timer : second.state.tcp.reconnDelayTimer =
    .start first.state.tcp.loopTime (toInt32 (timeout * 1000))

/-- The failure is reported once and the count starts again; nothing is armed. -/
structure GivesUp (first second : Sys) : Prop where
  tally : Tally first second [] 1
  timer : second.state.tcp.reconnDelayTimer.active = false
  times : second.state.tcp.reconnTimes = 0
  known : second.state.tcp.maxReconnIncr = first.state.tcp.maxReconnIncr

/-- Giving up resets the number of the attempts. -/
theorem GivesUp.backoff (gaveUp : GivesUp first second) :
    second.state.tcp.backoff = { first.state.tcp.backoff with reconnTimes := 0 } :=
  congr (congrArg Backoff.mk gaveUp.times) gaveUp.known

variable (env) in

theorem givesUp_giveUp (reason : String) {mid : Sys}
    (timer : mid.state.tcp.reconnDelayTimer.active = false) :
    GivesUp mid (giveUp env reason mid) := by
  have fired := quiet_fireEvent env .connectFailed (some (CStr.ofString reason)) none mid
  have noted := (Tally.note (.fire .connectFailed) mid).trans (.of_quiet fired)
  have gaveUp := noted.trans (.note .gaveUp _)
  refine ⟨gaveUp, ?_, rfl, ?_⟩
  · have same := congrArg (·.reconnDelayTimer.active) fired.conn
    exact same.trans timer
  · have same := congrArg (·.maxReconnIncr) fired.conn
    exact same

/-- Where the arithmetic of a call is defined, an attempt is armed as it says. -/
theorem armReconn_checked {sys : Sys} {known times incr base timeout : Int}
    (set : sys.state.tcp.backoff = ⟨times, known⟩)
    (found : Checked.maxReconnIncr env.config known = .ok incr)
    (grown : Checked.reconnBase env.config incr times = .ok base)
    (drawn : Checked.reconnDelay base (env.rand (sys.tcp fun tcp =>
      { tcp with maxReconnIncr := maxReconnIncr env.config tcp.maxReconnIncr })) = .ok timeout) :
    (armReconn env sys).state.tcp.backoff = ⟨times, incr⟩ ∧
      ArmsOnce timeout sys (armReconn env sys) := by
  obtain ⟨timesEq, knownEq⟩ := Backoff.mk.inj set
  have incrEq : maxReconnIncr env.config sys.state.tcp.maxReconnIncr = incr := by
    rw [knownEq, Checked.maxReconnIncr_unchecked found]
  have computed : reconnDelay (reconnBase env.config
      (maxReconnIncr env.config sys.state.tcp.maxReconnIncr) sys.state.tcp.reconnTimes)
      (env.rand (sys.tcp fun tcp =>
        { tcp with maxReconnIncr := maxReconnIncr env.config tcp.maxReconnIncr })) =
      .ok timeout := by
    rw [incrEq, timesEq, Checked.reconnBase_unchecked grown, Checked.reconnDelay_unchecked drawn]
  rw [armReconn]
  split
  next stop failed => cases computed.symm.trans failed
  next delay ok =>
    obtain rfl : timeout = delay := Except.ok.inj (computed.symm.trans ok)
    refine ⟨?_, ?_, rfl⟩
    · exact congr (congrArg Backoff.mk timesEq) incrEq
    · exact Tally.note (.reconnArmed timeout) (sys.tcp fun tcp =>
        { tcp with maxReconnIncr := maxReconnIncr env.config tcp.maxReconnIncr })

variable (env) in
/-- So is the rest of a call behind its reset. -/
theorem reconnAgain_checked {sys : Sys} (stopped : sys.state.tcp.reconnDelayTimer.active = false) :
    ∃ drawn : Sys, ∀ {after delay},
      Checked.reconn env.config (env.rand drawn) sys.state.tcp.backoff = .ok (after, delay) →
        (reconnAgain env sys).state.tcp.backoff = after ∧
          (delay = none → GivesUp sys (reconnAgain env sys)) ∧
          ∀ milliseconds, delay = some milliseconds → ∃ timeout,
            milliseconds = timeout * 1000 ∧ IsInt milliseconds ∧
              ArmsOnce timeout sys (reconnAgain env sys) := by
  refine ⟨((sys.tcp fun tcp => { tcp with state := .connecting }).tcp fun tcp =>
    { tcp with reconnTimes := toInt32 (tcp.reconnTimes + 1) }).tcp fun tcp =>
      { tcp with maxReconnIncr := maxReconnIncr env.config tcp.maxReconnIncr }, ?_⟩
  intro after delay ok
  rw [Checked.reconn] at ok
  rw [reconnAgain]
  have gaveUp (reason : String) (times : Int) : GivesUp sys (giveUp env reason
      (sys.tcp fun tcp => { tcp with state := .connecting, reconnTimes := times })) := by
    obtain ⟨tally, timer, times, known⟩ := givesUp_giveUp env reason
      (show (sys.tcp fun tcp => { tcp with state := .connecting, reconnTimes := times
        }).state.tcp.reconnDelayTimer.active = false from stopped)
    exact ⟨tally, timer, times, known⟩
  cases enabled : env.config.enableReconn with
  | false =>
      rw [enabled] at ok
      cases ok
      have gaveUp := gaveUp "Reconn Disabled" sys.state.tcp.reconnTimes
      exact ⟨gaveUp.backoff, fun _ => gaveUp, (by rintro _ ⟨⟩)⟩
  | true =>
      rw [enabled, if_neg (by decide)] at ok
      obtain ⟨times, counted, ok⟩ := bind_eq_ok ok
      have timesEq : toInt32 (sys.state.tcp.reconnTimes + 1) = times :=
        Checked.toInt32_of_int counted
      rw [if_neg (by decide)]
      dsimp only
      split
      next beyond =>
        have beyond : env.config.reconnMaxRetry ≠ pcAlwaysRetry ∧
            env.config.reconnMaxRetry < times := ⟨beyond.1, lt_of_lt_of_eq beyond.2 timesEq⟩
        rw [if_pos beyond] at ok
        cases ok
        have gaveUp := gaveUp "Exceed Max Retry" (toInt32 (sys.state.tcp.reconnTimes + 1))
        exact ⟨gaveUp.backoff, fun _ => gaveUp, (by rintro _ ⟨⟩)⟩
      next within =>
        have within : ¬ (env.config.reconnMaxRetry ≠ pcAlwaysRetry ∧
            env.config.reconnMaxRetry < times) :=
          fun beyond => within ⟨beyond.1, lt_of_lt_of_eq beyond.2 timesEq.symm⟩
        rw [if_neg within] at ok
        obtain ⟨incr, found, ok⟩ := bind_eq_ok ok
        obtain ⟨base, grown, ok⟩ := bind_eq_ok ok
        obtain ⟨timeout, drawn, ok⟩ := bind_eq_ok ok
        obtain ⟨milliseconds, scaled, ok⟩ := bind_eq_ok ok
        obtain ⟨isInt, rfl⟩ := int_eq_ok_iff.mp scaled
        cases ok
        have set : ((sys.tcp fun tcp => { tcp with state := .connecting }).tcp fun tcp =>
            { tcp with reconnTimes := toInt32 (tcp.reconnTimes + 1) }).state.tcp.backoff =
              ⟨times, sys.state.tcp.maxReconnIncr⟩ :=
          congrArg (fun times => Backoff.mk times sys.state.tcp.maxReconnIncr) timesEq
        obtain ⟨backoff, armed⟩ := armReconn_checked set found grown drawn
        refine ⟨backoff, (by rintro ⟨⟩), fun milliseconds same => ?_⟩
        cases same
        exact ⟨timeout, rfl, isInt, armed.tally, armed.timer⟩

/-- The reset of a call leaves what the call counts with, and stops the timer. -/
theorem tcpReset_reconn {sys mid : Sys} (reset : tcpReset env (sys.note .reconn) = mid) :
    mid.state.tcp.backoff = sys.state.tcp.backoff ∧
      mid.state.tcp.loopTime = sys.state.tcp.loopTime ∧
      mid.state.tcp.reconnDelayTimer.active = false ∧ Tally sys mid [] 0 := by
  obtain ⟨socket, conn⟩ := conn_tcpReset env (sys.note .reconn)
  have quiet := (Tally.note .reconn sys).trans (.tcpReset env _)
  rw [reset] at conn quiet
  refine ⟨?_, ?_, ?_, quiet⟩
  · have same := congrArg Transport.backoff conn
    exact same
  · have same := congrArg Transport.loopTime conn
    exact same
  · have same := congrArg (·.reconnDelayTimer.active) conn
    exact same

variable (env) in
/-- **A call and its arithmetic.** Where the arithmetic of a call of `tcp__reconn` is defined,
the call counts as it says, and arms the timer or gives up as it says. -/
theorem tcpReconn_checked (sys : Sys) : ∃ drawn : Sys, ∀ {after delay},
    Checked.reconn env.config (env.rand drawn) sys.state.tcp.backoff = .ok (after, delay) →
      (tcpReconn env sys).state.tcp.backoff = after ∧
        (delay = none → GivesUp sys (tcpReconn env sys)) ∧
        ∀ milliseconds, delay = some milliseconds → ∃ timeout,
          milliseconds = timeout * 1000 ∧ IsInt milliseconds ∧
            ArmsOnce timeout sys (tcpReconn env sys) := by
  rw [tcpReconn]
  generalize reset : tcpReset env (sys.note .reconn) = mid
  obtain ⟨backoff, loopTime, stopped, quiet⟩ := tcpReset_reconn reset
  obtain ⟨drawn, checked⟩ := reconnAgain_checked env stopped
  refine ⟨drawn, fun {after delay} ok => ?_⟩
  rw [← backoff] at ok
  obtain ⟨counted, none, some⟩ := checked ok
  refine ⟨counted, fun same => ?_, fun milliseconds same => ?_⟩
  · obtain ⟨tally, timer, times, known⟩ := none same
    exact ⟨quiet.trans tally, timer, times, known.trans (Backoff.mk.inj backoff).2⟩
  · obtain ⟨timeout, scaled, isInt, tally, timer⟩ := some milliseconds same
    exact ⟨timeout, scaled, isInt, quiet.trans tally, loopTime ▸ timer⟩

/-- So many calls of `tcp__reconn` have been made since the count was zero. Between them
anything may happen that leaves alone what they count with. The threshold is either unknown
at the start or known from before. -/
inductive Reconns (env : Env) : (calls : Nat) → Sys → Prop where
  | start {sys : Sys} (times : sys.state.tcp.reconnTimes = 0)
      (known : sys.state.tcp.maxReconnIncr = 0 ∨
        sys.state.tcp.maxReconnIncr = maxReconnIncr env.config 0) : Reconns env 0 sys
  | call {calls : Nat} {first second : Sys} (row : Reconns env calls first)
      (kept : second.state.tcp.backoff = (tcpReconn env first).state.tcp.backoff) :
      Reconns env (calls + 1) second

namespace ClientConfig

variable {config : ClientConfig}

/-- The base delay of an attempt is what has grown, up to the cap. -/
def baseDelay (config : ClientConfig) (attempt : Nat) : Int :=
  min (config.reconnDelay * config.growth attempt) config.reconnDelayMax

/-- Where the cap is no less than the delay, the schedule is the documented one. -/
theorem scheduled_eq_baseDelay (le : config.reconnDelay ≤ config.reconnDelayMax) (attempt : Nat) :
    config.scheduled attempt = config.baseDelay attempt := by
  rw [scheduled, baseDelay]
  by_cases first : attempt = 1
  · rw [if_pos first, first, growth_first, Nat.cast_one, Int.mul_one]
    exact (min_eq_left le).symm
  · rw [if_neg first]

/-- The base of the delay is a second at least. -/
theorem baseDelay_pos (least : 1 ≤ config.reconnDelay)
    (le : config.reconnDelay ≤ config.reconnDelayMax) {attempt : Nat} (first : 1 ≤ attempt) :
    1 ≤ config.baseDelay attempt := by
  have grown : 1 ≤ config.growth attempt := by
    rw [growth]
    split
    · exact Nat.one_le_two_pow
    · exact first
  have product : 1 * 1 ≤ config.reconnDelay * config.growth attempt :=
    Int.mul_le_mul least (by omega) (by decide) (by omega)
  rw [baseDelay]
  exact le_min product (by omega)

/-- A delay that is not above its cap, and a cap that can be scaled, fit. -/
theorem fits (least : 1 ≤ config.reconnDelay) (le : config.reconnDelay ≤ config.reconnDelayMax)
    (bound : 1500 * config.reconnDelayMax < 2 ^ 31) {attempt : Nat} (first : 1 ≤ attempt) :
    config.Fits attempt := by
  have same := scheduled_eq_baseDelay le attempt
  have positive := baseDelay_pos least le first
  have capped : config.baseDelay attempt ≤ config.reconnDelayMax := min_le_right _ _
  have quotient : config.reconnDelayMax / config.reconnDelay ≤ config.reconnDelayMax :=
    Int.ediv_le_self _ (by omega)
  refine ⟨by omega, .inr (by omega), ?_, ?_⟩
  · rw [longest]
    omega
  · rw [longest]
    omega

end ClientConfig

/-- The count of a row that is within the limit. -/
theorem Reconns.ahead {calls : Nat} {sys : Sys} (row : Reconns env calls sys)
    (enabled : env.config.enableReconn = true) (least : 1 ≤ env.config.reconnDelay)
    (le : env.config.reconnDelay ≤ env.config.reconnDelayMax)
    (bound : 1500 * env.config.reconnDelayMax < 2 ^ 31) (drawn : ∀ sys, env.rand sys < 2 ^ 31)
    (few : calls < 2 ^ 31) (retries : calls = 0 ∨ env.config.Retries calls) :
    sys.state.tcp.backoff.Ahead env.config (calls + 1) := by
  have range : env.config.InRange := ⟨by omega, by omega, by omega, by omega⟩
  have fits : env.config.threshold < 2 ^ 31 :=
    (env.config.threshold_lt_iff range).mpr (ClientConfig.fits least le bound (Nat.le_refl 1)).threshold
  induction row with
  | start times known =>
      refine ⟨Nat.le_refl 1, times, ?_⟩
      have same := Checked.maxReconnIncr_unchecked (Checked.maxReconnIncr_eq range fits)
      exact known.imp (fun unknown => ⟨rfl, unknown⟩) fun known => ⟨known.trans same, least, fits⟩
  | @call calls first second row kept ih =>
      have retries : env.config.Retries (calls + 1) := retries.resolve_left (by omega)
      have ahead := ih (by omega) (by
        by_cases start : calls = 0
        · exact .inl start
        · exact .inr (retries.earlier (by omega)))
      have fits := ClientConfig.fits least le bound ahead.first
      obtain ⟨last, checked⟩ := tcpReconn_checked env first
      have armed := ahead.armed enabled range (by omega) retries fits (drawn last)
      obtain ⟨backoff, -⟩ := checked armed
      rw [kept, backoff]
      refine ⟨by omega, ?_, .inr ⟨rfl, least, by assumption⟩⟩
      push_cast
      rw [Int.add_sub_cancel]

/-- The attempt is made: the base delay of the call is the scheduled one, and the timer is
armed once around it. -/
structure Attempts (env : Env) (attempt : Nat) (first second : Sys) : Prop where
  base : reconnBase env.config second.state.tcp.maxReconnIncr second.state.tcp.reconnTimes =
    env.config.baseDelay attempt
  armed : ∃ timeout, Tally first second [timeout] 0 ∧
    second.state.tcp.reconnDelayTimer = .start first.state.tcp.loopTime (timeout * 1000) ∧
      env.config.baseDelay attempt / 2 ≤ timeout ∧
        timeout ≤ env.config.baseDelay attempt / 2 + env.config.baseDelay attempt - 1

/-- **Backoff schedule and retry limit.** With reconnecting enabled and a delay that is
positive, not above its cap, and scaled to milliseconds in range, the calls in a row up to the
limit arm the timer once each, around the scheduled delay, and report no failure; the call
behind the limit arms nothing, reports the failure once, and starts the count again. -/
theorem reconns_schedule {calls : Nat} {sys : Sys} (row : Reconns env calls sys)
    (enabled : env.config.enableReconn = true) (least : 1 ≤ env.config.reconnDelay)
    (le : env.config.reconnDelay ≤ env.config.reconnDelayMax)
    (bound : 1500 * env.config.reconnDelayMax < 2 ^ 31) (drawn : ∀ sys, env.rand sys < 2 ^ 31)
    (few : calls + 1 < 2 ^ 31 - 1) :
    (env.config.Retries (calls + 1) → Attempts env (calls + 1) sys (tcpReconn env sys)) ∧
      (env.config.reconnMaxRetry = calls →
        GivesUp sys (tcpReconn env sys) ∧ Reconns env 0 (tcpReconn env sys)) := by
  have range : env.config.InRange := ⟨by omega, by omega, by omega, by omega⟩
  have known := (env.config.threshold_lt_iff range).mpr
    (ClientConfig.fits least le bound (Nat.le_refl 1)).threshold
  obtain ⟨last, checked⟩ := tcpReconn_checked env sys
  refine ⟨fun retries => ?_, fun limit => ?_⟩
  · have ahead := row.ahead enabled least le bound drawn (by omega) (by
      by_cases start : calls = 0
      · exact .inl start
      · exact .inr (retries.earlier (by omega)))
    have fits := ClientConfig.fits least le bound ahead.first
    obtain ⟨backoff, -, armed⟩ := checked
      (ahead.armed enabled range (by omega) retries fits (drawn last))
    obtain ⟨timeout, scaled, isInt, armed⟩ := armed _ rfl
    have timeoutEq := mul_right_cancel₀ (by decide) scaled
    rw [scaled] at isInt
    have same := ClientConfig.scheduled_eq_baseDelay le (calls + 1)
    have bounds := Backoff.Ahead.drawn_bounds fits.positive (env.rand last)
    rw [timeoutEq, ClientConfig.longest, same] at bounds
    have timer := armed.timer
    rw [Checked.toInt32_of_isInt isInt] at timer
    refine ⟨?_, timeout, armed.tally, timer, bounds.1, by omega⟩
    · have times := congrArg Backoff.reconnTimes backoff
      have incr := congrArg Backoff.maxReconnIncr backoff
      change (tcpReconn env sys).state.tcp.reconnTimes = _ at times
      change (tcpReconn env sys).state.tcp.maxReconnIncr = _ at incr
      rw [times, incr, ← same]
      exact Checked.reconnBase_unchecked
        (Checked.reconnBase_eq range ahead.first (by omega) ahead.positive)
  · have ahead := row.ahead enabled least le bound drawn (by omega)
      (.inr (.inr (Int.le_of_eq limit.symm)))
    have refused : ¬ env.config.Retries (calls + 1) := by
      rintro (always | within)
      · rw [limit, pcAlwaysRetry] at always
        omega
      · omega
    obtain ⟨backoff, gaveUp, -⟩ := checked (ahead.exceeded enabled (by omega) refused _)
    have gaveUp := gaveUp rfl
    refine ⟨gaveUp, .start gaveUp.times ?_⟩
    have threshold := Checked.maxReconnIncr_unchecked (Checked.maxReconnIncr_eq range known)
    rw [gaveUp.known, threshold]
    exact ahead.known.imp And.right And.left

/-- The sample with three retries, whose delay may grow to seven seconds. -/
def threeRetries : Env :=
  { Env.sample fun _ => [] with
    config := { pcClientConfigDefault with
      reconnMaxRetry := 3
      reconnDelay := 2
      reconnDelayMax := 7
      reconnExpBackoff := true } }

/-- Some calls in a row. -/
def reconnsInRow : (calls : Nat) → Sys
  | 0 => Sys.init [] .init none
  | calls + 1 => tcpReconn threeRetries (reconnsInRow calls)

theorem reconns_inRow (calls : Nat) : Reconns threeRetries calls (reconnsInRow calls) := by
  induction calls with
  | zero => exact .start rfl (.inl rfl)
  | succ calls ih => exact .call ih rfl

/-- The third call is at the cap, where the delay would have grown to eight, and the fourth is
behind the limit. -/
theorem reconns_schedule_threeRetries :
    threeRetries.config.baseDelay 3 = 7 ∧
      Attempts threeRetries 3 (reconnsInRow 2) (reconnsInRow 3) ∧
        GivesUp (reconnsInRow 3) (reconnsInRow 4) := by
  have schedule (calls : Nat) := @reconns_schedule threeRetries calls (reconnsInRow calls)
    (reconns_inRow calls) rfl (by decide) (by decide) (by decide) (fun _ => Nat.two_pow_pos 31)
  exact ⟨by decide, (schedule 2 (by decide)).1 (.inr (by decide)), ((schedule 3 (by decide)).2 rfl).1⟩

end Pomelo
