import Mathlib.Data.Nat.Size
import Pomelo.Arith.CInt
import Pomelo.Transport.Phase

/-!
# The delays between attempts

`tcp__reconn` once more, with the arithmetic of the type `int` as far as it is defined. The
delay of an attempt is capped by a threshold for the number of the attempt, which is looked
for once; where the arithmetic is defined, the delay is the minimum that the threshold
stands for (`reconnBase_eq`).
-/

namespace Pomelo

open Arith

/-- What `tcp__reconn` counts with. -/
structure Backoff where
  reconnTimes : Int
  maxReconnIncr : Int
  deriving DecidableEq, Repr

def Transport.backoff (tcp : Transport) : Backoff where
  reconnTimes := tcp.reconnTimes
  maxReconnIncr := tcp.maxReconnIncr

/-- A transport before its first attempt. -/
def Backoff.init : Backoff where
  reconnTimes := 0
  maxReconnIncr := 0

namespace Checked

variable (config : ClientConfig)

/-- The loop that looks for the first shift that leaves nothing of the factor. -/
def shiftsToZero (factor : Int) : (passes : Nat) → (shift : Nat) → Except Undefined Int
  | 0, _ => throw .shiftDistance
  | passes + 1, shift => do
      if (← shr factor shift) = 0 then return shift
      else shiftsToZero factor passes (shift + 1)

/-- `factor` of `tcp__reconn` -/
def reconnFactor : Except Undefined Int :=
  if config.reconnDelay = 0 then return 1
  else do
    let factor ← quot config.reconnDelayMax config.reconnDelay
    return if factor ≤ 0 then 1 else factor

/-- `max_reconn_incr`, once it is known. The shift of the search is out of range after 31
passes. -/
def maxReconnIncr (known : Int) : Except Undefined Int :=
  if known ≠ 0 then return known
  else do
    let factor ← reconnFactor config
    if !config.reconnExpBackoff then add factor 1
    else add (← shiftsToZero factor 32 1) 1

/-- The delay before it is made random. -/
def reconnBase (maxReconnIncr reconnTimes : Int) : Except Undefined Int :=
  if reconnTimes ≥ maxReconnIncr then return config.reconnDelayMax
  else if !config.reconnExpBackoff then mul config.reconnDelay reconnTimes
  else do shl config.reconnDelay (← add reconnTimes (-1))

/-- `(rand() % timeout) + timeout / 2` -/
def reconnDelay (base : Int) (rand : Nat) : Except Undefined Int := do
  add (← rem rand base) (← quot base 2)

/-- `tcp__reconn`: what it counts with afterwards, and the delay in milliseconds that
`uv_timer_start` is called with, if it is called. -/
def reconn (rand : Nat) (backoff : Backoff) : Except Undefined (Backoff × Option Int) :=
  if !config.enableReconn then return ({ backoff with reconnTimes := 0 }, none)
  else do
    let reconnTimes ← add backoff.reconnTimes 1
    if config.reconnMaxRetry ≠ pcAlwaysRetry ∧ config.reconnMaxRetry < reconnTimes then
      return ({ backoff with reconnTimes := 0 }, none)
    else
      let maxReconnIncr ← maxReconnIncr config backoff.maxReconnIncr
      let timeout ← reconnDelay (← reconnBase config maxReconnIncr reconnTimes) rand
      return (⟨reconnTimes, maxReconnIncr⟩, some (← mul timeout 1000))

variable {config : ClientConfig}

theorem toInt32_of_isInt {value : Int} (isInt : IsInt value) : toInt32 value = value := by
  obtain ⟨low, high⟩ := isInt
  rw [toInt32]
  omega

/-- Where the checked arithmetic has a value it is not wrapped. -/
theorem toInt32_of_int {value result : Int} (ok : int value = .ok result) :
    toInt32 value = result := by
  obtain ⟨isInt, rfl⟩ := int_eq_ok_iff.mp ok
  exact toInt32_of_isInt isInt

/-- The number of shifts is the same without the checks. -/
theorem shiftsToZero_unchecked {factor : Int} (least : 0 ≤ factor) {passes shift : Nat} {found : Int}
    (ok : shiftsToZero factor (passes + 1) shift = .ok found) (room : passes + shift = 32) :
    (Pomelo.shiftsToZero factor.toNat passes shift : Int) = found := by
  obtain ⟨factor, rfl⟩ := Int.eq_ofNat_of_zero_le least
  induction passes generalizing shift with
  | zero =>
      rw [shiftsToZero, bind_error (shr_eq_error (by omega))] at ok
      cases ok
  | succ passes ih =>
      have quotient : shr (factor : Int) shift = .ok ((factor >>> shift : Nat) : Int) := by
        rw [shr_eq_ok (by omega), Nat.shiftRight_eq_div_pow]
        push_cast
        rfl
      rw [shiftsToZero, bind_ok quotient] at ok
      rw [Pomelo.shiftsToZero, Int.toNat_natCast]
      by_cases reached : factor >>> shift = 0
      · rw [reached] at ok
        rw [if_pos reached]
        exact Except.ok.inj ok
      · rw [if_neg (by omega)] at ok
        rw [if_neg reached]
        exact ih (by omega) ok

theorem reconnFactor_unchecked {factor : Int} (ok : reconnFactor config = .ok factor) :
    Pomelo.reconnFactor config = factor ∧ 1 ≤ factor := by
  rw [reconnFactor] at ok
  rw [Pomelo.reconnFactor]
  by_cases without : config.reconnDelay = 0
  · rw [if_pos without] at ok ⊢
    cases ok
    exact ⟨rfl, Int.le_refl 1⟩
  · rw [if_neg without] at ok ⊢
    obtain ⟨quotient, divided, ok⟩ := bind_eq_ok ok
    rw [quot, if_neg without] at divided
    obtain ⟨-, rfl⟩ := int_eq_ok_iff.mp divided
    cases ok
    refine ⟨rfl, ?_⟩
    split
    · exact Int.le_refl 1
    · omega

theorem maxReconnIncr_unchecked {known incr : Int} (ok : maxReconnIncr config known = .ok incr) :
    Pomelo.maxReconnIncr config known = incr := by
  rw [maxReconnIncr] at ok
  rw [Pomelo.maxReconnIncr]
  by_cases set : known ≠ 0
  · rw [if_pos set] at ok ⊢
    exact Except.ok.inj ok
  · rw [if_neg set] at ok ⊢
    obtain ⟨factor, found, ok⟩ := bind_eq_ok ok
    obtain ⟨same, least⟩ := reconnFactor_unchecked found
    rw [same]
    split
    next linear =>
      rw [if_pos linear] at ok
      exact toInt32_of_int ok
    next exponential =>
      rw [if_neg exponential] at ok
      obtain ⟨shift, searched, ok⟩ := bind_eq_ok ok
      obtain ⟨-, rfl⟩ := int_eq_ok_iff.mp ok
      rw [shiftsToZero_unchecked (by omega) searched rfl]

theorem reconnBase_unchecked {incr times base : Int} (ok : reconnBase config incr times = .ok base) :
    Pomelo.reconnBase config incr times = base := by
  rw [reconnBase] at ok
  rw [Pomelo.reconnBase]
  split
  next capped =>
    rw [if_pos capped] at ok
    exact Except.ok.inj ok
  next grown =>
    rw [if_neg grown] at ok
    split
    next linear =>
      rw [if_pos linear] at ok
      exact toInt32_of_int ok
    next exponential =>
      rw [if_neg exponential] at ok
      obtain ⟨distance, counted, ok⟩ := bind_eq_ok ok
      obtain ⟨-, rfl⟩ := int_eq_ok_iff.mp counted
      rw [shl] at ok
      split at ok
      · split at ok
        · cases ok
        · exact toInt32_of_int ok
      · cases ok

theorem reconnDelay_unchecked {base delay : Int} {rand : Nat}
    (ok : reconnDelay base rand = .ok delay) : Pomelo.reconnDelay base rand = .ok delay := by
  rw [reconnDelay] at ok
  obtain ⟨remainder, divided, ok⟩ := bind_eq_ok ok
  obtain ⟨half, halved, ok⟩ := bind_eq_ok ok
  by_cases none : base = 0
  · rw [none, rem_zero] at divided
    cases divided
  · obtain ⟨_, -, same⟩ := bind_eq_ok divided
    cases same
    rw [quot, if_neg (by decide)] at halved
    obtain ⟨-, rfl⟩ := int_eq_ok_iff.mp halved
    rw [Pomelo.reconnDelay, if_neg none, toInt32_of_int ok]
    rfl

end Checked

namespace ClientConfig

variable (config : ClientConfig)

/-- The members of the configuration that count are in the range of their type. -/
structure InRange : Prop where
  delayLeast : 0 ≤ config.reconnDelay
  delay : config.reconnDelay < 2 ^ 31
  delayMaxLeast : 0 ≤ config.reconnDelayMax
  delayMax : config.reconnDelayMax < 2 ^ 31

/-- By what the delay of an attempt has grown. -/
def growth (attempt : Nat) : Nat :=
  if config.reconnExpBackoff then 2 ^ (attempt - 1) else attempt

/-- The delay of an attempt, before it is made random. A first attempt is not capped. -/
def scheduled (attempt : Nat) : Int :=
  if attempt = 1 then config.reconnDelay
  else min (config.reconnDelay * config.growth attempt) config.reconnDelayMax

/-- The largest growth that keeps the delay below its cap, at least 1. -/
def factor : Nat := max 1 (config.reconnDelayMax / config.reconnDelay).toNat

/-- The first attempt whose delay has grown too far. -/
def threshold : Nat :=
  if config.reconnExpBackoff then config.factor.size + 1 else config.factor + 1

/-- The threshold is where the growth exceeds the largest one. -/
theorem threshold_le_iff {attempt : Nat} (first : 1 ≤ attempt) :
    config.threshold ≤ attempt ↔ config.factor < config.growth attempt := by
  rw [threshold, growth]
  split
  · rw [← Nat.size_le]
    omega
  · omega

/-- The first attempt waits for the plain delay. -/
theorem growth_first : config.growth 1 = 1 := by
  rw [growth]
  split <;> rfl

variable {config}

theorem factor_pos : 1 ≤ config.factor := le_max_left _ _

theorem factor_lt (range : config.InRange) : config.factor < 2 ^ 31 := by
  have quotient : config.reconnDelayMax / config.reconnDelay ≤ config.reconnDelayMax :=
    Int.ediv_le_self _ range.delayMaxLeast
  have bound := range.delayMax
  rw [factor]
  omega

/-- At least one attempt is made below the cap. -/
theorem two_le_threshold : 2 ≤ config.threshold := by
  have digits : 0 < config.factor.size := Nat.size_pos.mpr config.factor_pos
  have least := config.factor_pos
  rw [threshold]
  split
  · omega
  · omega

/-- A delay that has grown too far is above its cap. -/
theorem scheduled_capped {attempt : Nat} (later : attempt ≠ 1)
    (positive : 1 ≤ config.reconnDelay) (grown : config.factor < config.growth attempt) :
    config.scheduled attempt = config.reconnDelayMax := by
  have quotient : (config.reconnDelayMax / config.reconnDelay) < config.growth attempt := by
    rw [factor] at grown
    omega
  have above : config.reconnDelayMax < config.growth attempt * config.reconnDelay :=
    (Int.ediv_lt_iff_lt_mul (by omega)).mp quotient
  rw [scheduled, if_neg later, Int.mul_comm]
  exact min_eq_right (Int.le_of_lt above)

/-- A delay that has not is below its cap, apart from that of a first attempt. -/
theorem scheduled_grown {attempt : Nat} (first : 1 ≤ attempt)
    (positive : attempt ≠ 1 → 1 ≤ config.reconnDelay) (within : config.growth attempt ≤ config.factor) :
    config.scheduled attempt = config.reconnDelay * config.growth attempt := by
  by_cases same : attempt = 1
  · rw [scheduled, if_pos same, same, growth_first]
    push_cast
    rw [Int.mul_one]
  · have two : 2 ≤ config.growth attempt := by
      rw [growth]
      split
      · exact Nat.le_self_pow (by omega) 2
      · omega
    have quotient : config.growth attempt ≤ config.reconnDelayMax / config.reconnDelay := by
      rw [factor] at within
      omega
    have positive := positive same
    have below : config.growth attempt * config.reconnDelay ≤ config.reconnDelayMax :=
      (Int.le_ediv_iff_mul_le (by omega)).mp quotient
    rw [scheduled, if_neg same, Int.mul_comm]
    exact min_eq_left below

/-- The scheduled delay is an `int`. -/
theorem scheduled_range (range : config.InRange) (attempt : Nat) :
    0 ≤ config.scheduled attempt ∧ config.scheduled attempt < 2 ^ 31 := by
  obtain ⟨delayLeast, delay, delayMaxLeast, delayMax⟩ := range
  rw [scheduled]
  split
  · exact ⟨delayLeast, delay⟩
  · refine ⟨le_min ?_ delayMaxLeast, lt_of_le_of_lt (min_le_right _ _) delayMax⟩
    exact Int.mul_nonneg delayLeast (Int.natCast_nonneg _)

end ClientConfig

namespace Checked

variable {config : ClientConfig}

/-- The search ends at the number of binary digits of the factor. -/
theorem shiftsToZero_eq {factor passes shift : Nat} (bound : factor < 2 ^ 31)
    (before : shift ≤ factor.size) (enough : passes + shift = 33) :
    shiftsToZero factor passes shift = .ok (factor.size : Int) := by
  have short : factor.size ≤ 31 := Nat.size_le.mpr bound
  induction passes generalizing shift with
  | zero => omega
  | succ passes ih =>
      have quotient : shr factor shift = .ok ((factor / 2 ^ shift : Nat) : Int) := by
        rw [shr_eq_ok (by omega)]
        push_cast
        rfl
      rw [shiftsToZero, bind_ok quotient]
      by_cases reached : factor.size ≤ shift
      · have none : factor / 2 ^ shift = 0 := Nat.div_eq_of_lt (Nat.size_le.mp reached)
        obtain rfl := Nat.le_antisymm before reached
        rw [none]
        rfl
      · have some : 0 < factor / 2 ^ shift :=
          Nat.div_pos (Nat.lt_size.mp (Nat.lt_of_not_le reached)) (Nat.two_pow_pos shift)
        rw [if_neg (by omega)]
        exact ih (by omega) (by omega)

/-- The factor is the one of the configuration. -/
theorem reconnFactor_eq (range : config.InRange) :
    reconnFactor config = .ok (config.factor : Int) := by
  have least := range.delayLeast
  rw [reconnFactor, ClientConfig.factor]
  by_cases without : config.reconnDelay = 0
  · rw [if_pos without, without, Int.ediv_zero]
    rfl
  · have quotient := quot_eq_ok range.delayMaxLeast range.delayMax
      (show 0 < config.reconnDelay by omega)
    rw [if_neg without, bind_ok quotient]
    refine congrArg Except.ok ?_
    split
    · omega
    · omega

/-- The threshold is found, unless it is out of range. -/
theorem maxReconnIncr_eq (range : config.InRange) (fits : config.threshold < 2 ^ 31) :
    maxReconnIncr config 0 = .ok (config.threshold : Int) := by
  have bound := config.factor_lt range
  rw [maxReconnIncr, if_neg (by decide), bind_ok (reconnFactor_eq range)]
  rw [ClientConfig.threshold] at fits ⊢
  cases backoff : config.reconnExpBackoff with
  | false =>
      rw [backoff, if_neg (by decide)] at fits
      rw [if_pos (by decide), if_neg (by decide)]
      exact add_eq_ok ⟨by omega, by omega⟩
  | true =>
      rw [backoff, if_pos rfl] at fits
      have found : shiftsToZero config.factor 32 1 = .ok (config.factor.size : Int) :=
        shiftsToZero_eq bound (Nat.size_pos.mpr config.factor_pos) rfl
      rw [if_neg (by decide), if_pos rfl, bind_ok found]
      exact add_eq_ok ⟨by omega, by omega⟩

/-- A threshold that is no `int` overflows. -/
theorem maxReconnIncr_overflow (range : config.InRange) (wide : 2 ^ 31 ≤ config.threshold) :
    maxReconnIncr config 0 = .error .overflow := by
  have bound := config.factor_lt range
  rw [maxReconnIncr, if_neg (by decide), bind_ok (reconnFactor_eq range)]
  rw [ClientConfig.threshold] at wide
  cases backoff : config.reconnExpBackoff with
  | false =>
      rw [backoff, if_neg (by decide)] at wide
      have overflow : ¬ IsInt ((config.factor : Int) + 1) := fun isInt => by
        have high := isInt.2
        omega
      rw [if_pos (by decide), add, int, if_neg overflow]
  | true =>
      rw [backoff, if_pos rfl] at wide
      have short : config.factor.size ≤ 31 := Nat.size_le.mpr bound
      omega

/-- The threshold stands for the minimum: there is no jump at it. -/
theorem reconnBase_eq (range : config.InRange) {attempt : Nat} (first : 1 ≤ attempt)
    (bound : attempt < 2 ^ 31) (positive : attempt ≠ 1 → 1 ≤ config.reconnDelay) :
    reconnBase config config.threshold attempt = .ok (config.scheduled attempt) := by
  rw [reconnBase]
  by_cases grown : config.threshold ≤ attempt
  · have later : 2 ≤ attempt := config.two_le_threshold.trans grown
    rw [if_pos (by omega), config.scheduled_capped (by omega) (positive (by omega))
      ((config.threshold_le_iff first).mp grown)]
    rfl
  · have within := Nat.le_of_not_lt (mt (config.threshold_le_iff first).mpr grown)
    obtain ⟨least, high⟩ := config.scheduled_range range attempt
    have same := config.scheduled_grown first positive within
    rw [if_neg (by omega), same]
    rw [same] at least high
    rw [ClientConfig.growth] at least high ⊢
    cases backoff : config.reconnExpBackoff with
    | false =>
        rw [backoff, if_neg (by decide)] at least high
        rw [if_pos (by decide), if_neg (by decide)]
        exact mul_eq_ok ⟨by omega, high⟩
    | true =>
        rw [backoff, if_pos rfl] at least high
        have distance : add (attempt : Int) (-1) = .ok ((attempt - 1 : Nat) : Int) := by
          have same : (attempt : Int) + -1 = ((attempt - 1 : Nat) : Int) := by omega
          rw [add, same]
          exact int_eq_ok ⟨by omega, by omega⟩
        have digits : config.factor.size ≤ 31 := Nat.size_le.mpr (config.factor_lt range)
        have before : attempt ≤ config.factor.size := by
          rw [ClientConfig.threshold, backoff, if_pos rfl] at grown
          omega
        rw [if_neg (by decide), bind_ok distance, if_pos rfl]
        push_cast at least high ⊢
        exact shl_eq_ok range.delayLeast (by omega) ⟨by omega, high⟩

/-- The delay is drawn between half of the base and three halves. -/
theorem reconnDelay_eq {base : Int} {rand : Nat} (positive : 1 ≤ base) (bound : base < 2 ^ 31)
    (drawn : rand < 2 ^ 31) (defined : IsInt (rand % base + base / 2)) :
    reconnDelay base rand = .ok (rand % base + base / 2) := by
  have remainder := rem_eq_ok (show 0 ≤ (rand : Int) by omega) (by omega) (show 0 < base by omega)
  have half := quot_eq_ok (show 0 ≤ base by omega) bound (show (0 : Int) < 2 by decide)
  rw [reconnDelay, bind_ok remainder, bind_ok half]
  exact add_eq_ok defined

end Checked

namespace ClientConfig

variable (config : ClientConfig)

/-- There is an attempt with this number. -/
def Retries (attempt : Nat) : Prop :=
  config.reconnMaxRetry = pcAlwaysRetry ∨ attempt ≤ config.reconnMaxRetry

/-- The longest delay of an attempt, in seconds. -/
def longest (attempt : Nat) : Int := config.scheduled attempt - 1 + config.scheduled attempt / 2

/-- An attempt whose delay is defined and is at most one and a half times the cap. -/
structure Fits (attempt : Nat) : Prop where
  positive : 1 ≤ config.scheduled attempt
  threshold : config.reconnExpBackoff = true ∨
    config.reconnDelayMax / config.reconnDelay + 1 < 2 ^ 31
  defined : config.longest attempt * 1000 < 2 ^ 31
  capped : 2 * config.longest attempt ≤ 3 * config.reconnDelayMax

variable {config}

/-- With a constant backoff the threshold may be no `int`. -/
theorem threshold_lt_iff (range : config.InRange) :
    config.threshold < 2 ^ 31 ↔ config.reconnExpBackoff = true ∨
      config.reconnDelayMax / config.reconnDelay + 1 < 2 ^ 31 := by
  have short : config.factor.size ≤ 31 := Nat.size_le.mpr (factor_lt range)
  rw [threshold]
  cases backoff : config.reconnExpBackoff with
  | true =>
      rw [if_pos rfl]
      exact iff_of_true (by omega) (.inl rfl)
  | false =>
      rw [if_neg (by decide), factor, or_iff_right (by decide)]
      omega

/-- An attempt behind another one is made under the limit as well. -/
theorem Retries.earlier {attempt later : Nat} (le : attempt ≤ later)
    (retries : config.Retries later) : config.Retries attempt := by
  rcases retries with always | within
  · exact .inl always
  · exact .inr (by omega)

end ClientConfig

/-- The delay of a timer that is started is neither negative nor longer than one and a half
times the cap. -/
def SafeDelay (config : ClientConfig) (delay : Option Int) : Prop :=
  ∀ milliseconds ∈ delay, 0 ≤ milliseconds ∧ milliseconds ≤ 1500 * config.reconnDelayMax

/-- So many calls of `tcp__reconn` in a row are defined and safe, whatever is drawn. -/
def SafeCalls (config : ClientConfig) : (calls : Nat) → Backoff → Prop
  | 0, _ => True
  | calls + 1, backoff => ∀ rand < 2 ^ 31, ∃ after delay,
      Checked.reconn config rand backoff = .ok (after, delay) ∧ SafeDelay config delay ∧
        SafeCalls config calls after

/-- What is counted ahead of an attempt. The threshold is known once there was an attempt. -/
structure Backoff.Ahead (config : ClientConfig) (attempt : Nat) (backoff : Backoff) : Prop where
  first : 1 ≤ attempt
  times : backoff.reconnTimes = (attempt : Int) - 1
  known : attempt = 1 ∧ backoff.maxReconnIncr = 0 ∨ backoff.maxReconnIncr = config.threshold ∧
    1 ≤ config.reconnDelay ∧ config.threshold < 2 ^ 31

namespace Backoff.Ahead

variable {config : ClientConfig} {attempt : Nat} {backoff : Backoff}

/-- A later attempt has a delay of a second at least. -/
theorem positive (ahead : backoff.Ahead config attempt) (later : attempt ≠ 1) :
    1 ≤ config.reconnDelay :=
  ahead.known.elim (fun first => absurd first.1 later) fun known => known.2.1

/-- The threshold is found, or it is out of range. -/
theorem threshold (ahead : backoff.Ahead config attempt) (range : config.InRange) :
    Checked.maxReconnIncr config backoff.maxReconnIncr =
      if config.threshold < 2 ^ 31 then .ok (config.threshold : Int) else .error .overflow := by
  rcases ahead.known with ⟨-, unknown⟩ | ⟨known, -, fits⟩
  · rw [unknown]
    by_cases fits : config.threshold < 2 ^ 31
    · rw [if_pos fits, Checked.maxReconnIncr_eq range fits]
    · rw [if_neg fits, Checked.maxReconnIncr_overflow range (Nat.le_of_not_lt fits)]
  · have least := config.two_le_threshold
    rw [if_pos fits, known, Checked.maxReconnIncr, if_pos (by omega)]
    rfl

/-- A call beyond the limit. -/
theorem exceeded (ahead : backoff.Ahead config attempt) (enabled : config.enableReconn = true)
    (bound : attempt < 2 ^ 31) (refused : ¬ config.Retries attempt) (rand : Nat) :
    Checked.reconn config rand backoff = .ok ({ backoff with reconnTimes := 0 }, none) := by
  have counted : add backoff.reconnTimes 1 = .ok (attempt : Int) := by
    rw [add, ahead.times, Int.sub_add_cancel]
    exact int_eq_ok ⟨by omega, by omega⟩
  rw [ClientConfig.Retries, not_or, Int.not_le] at refused
  rw [Checked.reconn, enabled, if_neg (by decide), bind_ok counted, if_pos refused]
  rfl

/-- A call within the limit computes a delay for the attempt. -/
theorem retried (ahead : backoff.Ahead config attempt) (enabled : config.enableReconn = true)
    (range : config.InRange) (bound : attempt < 2 ^ 31) (retries : config.Retries attempt)
    (rand : Nat) :
    Checked.reconn config rand backoff = (do
      let timeout ←
        if config.threshold < 2 ^ 31 then Checked.reconnDelay (config.scheduled attempt) rand
        else .error .overflow
      return (⟨attempt, config.threshold⟩, some (← mul timeout 1000))) := by
  have counted : add backoff.reconnTimes 1 = .ok (attempt : Int) := by
    rw [add, ahead.times, Int.sub_add_cancel]
    exact int_eq_ok ⟨by omega, by omega⟩
  have under : ¬ (config.reconnMaxRetry ≠ pcAlwaysRetry ∧ config.reconnMaxRetry < attempt) := by
    rw [not_and_or, not_not, Int.not_lt]
    exact retries
  rw [Checked.reconn, enabled, if_neg (by decide), bind_ok counted, if_neg under,
    ahead.threshold range]
  split
  · have base := Checked.reconnBase_eq range ahead.first bound ahead.positive
    rw [bind_ok rfl, bind_ok base]
  · rfl

/-- The counter is at its end. -/
theorem overflow (ahead : backoff.Ahead config attempt) (enabled : config.enableReconn = true)
    (beyond : 2 ^ 31 ≤ attempt) (rand : Nat) :
    Checked.reconn config rand backoff = .error .overflow := by
  have counted : add backoff.reconnTimes 1 = .error .overflow := by
    have other : ¬ IsInt attempt := fun isInt => by
      have high := isInt.2
      omega
    rw [add, ahead.times, Int.sub_add_cancel, int, if_neg other]
  rw [Checked.reconn, enabled, if_neg (by decide), bind_error counted]

/-- A drawn delay is between a half of the scheduled one and the longest. -/
theorem drawn_bounds (positive : 1 ≤ config.scheduled attempt) (rand : Nat) :
    config.scheduled attempt / 2 ≤ rand % config.scheduled attempt + config.scheduled attempt / 2 ∧
      rand % config.scheduled attempt + config.scheduled attempt / 2 ≤ config.longest attempt := by
  have least : 0 ≤ (rand : Int) % config.scheduled attempt := Int.emod_nonneg _ (by omega)
  have most : (rand : Int) % config.scheduled attempt < config.scheduled attempt :=
    Int.emod_lt_of_pos _ (by omega)
  rw [ClientConfig.longest]
  omega

/-- An attempt that fits is armed with its drawn delay. -/
theorem armed (ahead : backoff.Ahead config attempt) (enabled : config.enableReconn = true)
    (range : config.InRange) (bound : attempt < 2 ^ 31) (retries : config.Retries attempt)
    (fits : config.Fits attempt) {rand : Nat} (drawn : rand < 2 ^ 31) :
    Checked.reconn config rand backoff = .ok (⟨attempt, config.threshold⟩,
      some ((rand % config.scheduled attempt + config.scheduled attempt / 2) * 1000)) := by
  obtain ⟨least, most⟩ := drawn_bounds fits.positive rand
  have defined := fits.defined
  have positive := fits.positive
  have timeout := Checked.reconnDelay_eq positive (config.scheduled_range range attempt).2 drawn
    ⟨by omega, by omega⟩
  have delay := mul_eq_ok (show IsInt ((rand % config.scheduled attempt +
    config.scheduled attempt / 2) * 1000) from ⟨by omega, by omega⟩)
  rw [ahead.retried enabled range bound retries,
    if_pos ((config.threshold_lt_iff range).mpr fits.threshold), bind_ok timeout]
  exact bind_ok delay _

/-- A call is safe, whatever is drawn, if and only if its attempt fits. -/
theorem call_iff (ahead : backoff.Ahead config attempt) (enabled : config.enableReconn = true)
    (range : config.InRange) :
    (∀ rand < 2 ^ 31, ∃ after delay, Checked.reconn config rand backoff = .ok (after, delay) ∧
      SafeDelay config delay) ↔
        attempt < 2 ^ 31 ∧ (config.Retries attempt → config.Fits attempt) := by
  constructor
  · intro safe
    have bound : attempt < 2 ^ 31 := by
      by_contra beyond
      obtain ⟨after, delay, ok, -⟩ := safe 0 (by decide)
      rw [ahead.overflow enabled (Nat.le_of_not_lt beyond)] at ok
      cases ok
    refine ⟨bound, fun retries => ?_⟩
    obtain ⟨least, high⟩ := config.scheduled_range range attempt
    -- the longest delay is drawn
    obtain ⟨after, delay, ok, safe⟩ := safe (config.scheduled attempt - 1).toNat (by omega)
    rw [ahead.retried enabled range bound retries] at ok
    by_cases known : config.threshold < 2 ^ 31
    · rw [if_pos known] at ok
      obtain ⟨timeout, drawn, ok⟩ := bind_eq_ok ok
      obtain ⟨milliseconds, scaled, ok⟩ := bind_eq_ok ok
      have positive : 1 ≤ config.scheduled attempt := by
        by_contra none
        have zero : config.scheduled attempt = 0 := by omega
        rw [zero] at drawn
        cases drawn
      have last : ((config.scheduled attempt - 1).toNat : Int) % config.scheduled attempt =
          config.scheduled attempt - 1 := by
        rw [Int.toNat_of_nonneg (by omega)]
        exact Int.emod_eq_of_lt (by omega) (by omega)
      have timeoutEq : IsInt (config.longest attempt) ∧ config.longest attempt = timeout := by
        have remainder := rem_eq_ok (show 0 ≤ ((config.scheduled attempt - 1).toNat : Int) by omega)
          (by omega) (show 0 < config.scheduled attempt by omega)
        have half := quot_eq_ok least high (show (0 : Int) < 2 by decide)
        rw [Checked.reconnDelay, bind_ok remainder, bind_ok half, last] at drawn
        exact int_eq_ok_iff.mp drawn
      obtain ⟨⟨-, inside⟩, same⟩ := int_eq_ok_iff.mp scaled
      rw [← timeoutEq.2] at inside same
      cases ok
      have capped := (safe milliseconds rfl).2
      exact ⟨positive, (config.threshold_lt_iff range).mp known, inside, by omega⟩
    · rw [if_neg known] at ok
      cases ok
  · rintro ⟨bound, fits⟩ rand drawn
    by_cases retries : config.Retries attempt
    · obtain ⟨positive, threshold, defined, capped⟩ := fits retries
      obtain ⟨least, most⟩ := drawn_bounds positive rand
      refine ⟨_, _, ahead.armed enabled range bound retries (fits retries) drawn, ?_⟩
      rintro milliseconds same
      obtain rfl := Option.some.inj same
      exact ⟨by omega, by omega⟩
    · exact ⟨_, _, ahead.exceeded enabled bound retries rand, nofun⟩

/-- What is counted behind a call that is safe. -/
theorem next (ahead : backoff.Ahead config attempt) (enabled : config.enableReconn = true)
    (range : config.InRange) (bound : attempt < 2 ^ 31)
    (fits : config.Retries attempt → config.Fits attempt) {rand : Nat} (drawn : rand < 2 ^ 31)
    {after : Backoff} {delay : Option Int}
    (ok : Checked.reconn config rand backoff = .ok (after, delay)) :
    config.Retries attempt ∧ after.Ahead config (attempt + 1) ∨
      ¬ config.Retries attempt ∧ after.Ahead config 1 := by
  have first := ahead.first
  by_cases retries : config.Retries attempt
  · have fits := fits retries
    rw [ahead.armed enabled range bound retries fits drawn] at ok
    cases ok
    have positive : 1 ≤ config.reconnDelay := by
      by_cases same : attempt = 1
      · have positive := fits.positive
        rwa [ClientConfig.scheduled, if_pos same] at positive
      · exact ahead.positive same
    refine .inl ⟨retries, by omega, ?_, .inr ⟨rfl, positive, ?_⟩⟩
    · push_cast
      rw [Int.add_sub_cancel]
    · exact (config.threshold_lt_iff range).mpr fits.threshold
  · rw [ahead.exceeded enabled bound retries] at ok
    cases ok
    refine .inr ⟨retries, Nat.le_refl 1, rfl, ?_⟩
    exact ahead.known.imp_left fun unknown => ⟨rfl, unknown.2⟩

end Backoff.Ahead

theorem safeCalls_of_disabled {config : ClientConfig} (disabled : config.enableReconn = false)
    (calls : Nat) (backoff : Backoff) : SafeCalls config calls backoff := by
  induction calls generalizing backoff with
  | zero => trivial
  | succ calls ih =>
      intro rand drawn
      refine ⟨{ backoff with reconnTimes := 0 }, none, ?_, nofun, ih _⟩
      rw [Checked.reconn, disabled]
      rfl

/-- An attempt that is counted has a number in range, and fits if it is made. -/
def ClientConfig.Sound (config : ClientConfig) (attempt : Nat) : Prop :=
  attempt < 2 ^ 31 ∧ (config.Retries attempt → config.Fits attempt)

namespace Backoff.Ahead

variable {config : ClientConfig} {attempt calls : Nat} {backoff : Backoff}

/-- If calls are safe, so are the attempts that are counted in them. -/
theorem sound_of_safeCalls (ahead : backoff.Ahead config attempt)
    (enabled : config.enableReconn = true) (range : config.InRange)
    (safe : SafeCalls config calls backoff) {later : Nat} (le : attempt ≤ later)
    (before : later < attempt + calls)
    (counted : later = attempt ∨ config.Retries (later - 1)) : config.Sound later := by
  induction calls generalizing attempt backoff with
  | zero => omega
  | succ calls ih =>
      have sound : config.Sound attempt := (ahead.call_iff enabled range).mp fun rand drawn => by
        obtain ⟨after, delay, ok, bounds, -⟩ := safe rand drawn
        exact ⟨after, delay, ok, bounds⟩
      by_cases same : later = attempt
      · rw [same]
        exact sound
      · have retries : config.Retries attempt :=
          (counted.resolve_left same).earlier (by omega)
        obtain ⟨after, delay, ok, -, safe⟩ := safe 0 (by decide)
        rcases ahead.next enabled range sound.1 sound.2 (by decide) ok with ⟨-, next⟩ | ⟨refused, -⟩
        · exact ih next safe (by omega) (by omega) (.inr (counted.resolve_left same))
        · exact absurd retries refused

/-- If all attempts below a number that are counted are sound, calls that stay below it are
safe. -/
theorem safeCalls_of_sound {bound : Nat} (ahead : backoff.Ahead config attempt)
    (enabled : config.enableReconn = true) (range : config.InRange)
    (counted : attempt = 1 ∨ config.Retries (attempt - 1)) (below : attempt + calls ≤ bound)
    (sound : ∀ attempt, 1 ≤ attempt → attempt < bound →
      attempt = 1 ∨ config.Retries (attempt - 1) → config.Sound attempt) :
    SafeCalls config calls backoff := by
  induction calls generalizing attempt backoff with
  | zero => trivial
  | succ calls ih =>
      intro rand drawn
      have first := ahead.first
      have here := sound attempt first (by omega) counted
      obtain ⟨after, delay, ok, bounds⟩ := (ahead.call_iff enabled range).mpr here rand drawn
      refine ⟨after, delay, ok, bounds, ?_⟩
      rcases ahead.next enabled range here.1 here.2 drawn ok with ⟨retries, next⟩ | ⟨-, next⟩
      · exact ih next (.inr retries) (by omega)
      · exact ih next (.inl rfl) (by omega)

end Backoff.Ahead

/-- **Safe reconnecting.** Calls in a row are defined and safe, whatever is drawn, exactly if
reconnecting is disabled, or every attempt that they count has a number in range and fits. -/
theorem safeCalls_iff {config : ClientConfig} (range : config.InRange) (calls : Nat) :
    SafeCalls config calls .init ↔ config.enableReconn = false ∨
      ∀ attempt, 1 ≤ attempt → attempt ≤ calls →
        attempt = 1 ∨ config.Retries (attempt - 1) → config.Sound attempt := by
  cases enabled : config.enableReconn with
  | false => exact iff_of_true (safeCalls_of_disabled enabled calls .init) (.inl rfl)
  | true =>
      have start : Backoff.init.Ahead config 1 := ⟨Nat.le_refl 1, rfl, .inl ⟨rfl, rfl⟩⟩
      rw [or_iff_right (by decide)]
      constructor
      · intro safe attempt first within counted
        exact start.sound_of_safeCalls enabled range safe first (by omega) counted
      · intro sound
        have below : 1 + calls ≤ calls + 1 := by omega
        exact start.safeCalls_of_sound enabled range (.inl rfl) below
          fun attempt first before => sound attempt first (by omega)

/-- The default configuration doubles its delay of two seconds. -/
theorem safeCalls_two : SafeCalls pcClientConfigDefault 2 .init := by
  refine (safeCalls_iff ⟨by decide, by decide, by decide, by decide⟩ 2).mpr (.inr ?_)
  intro attempt first within _
  have cases : attempt = 1 ∨ attempt = 2 := by omega
  rcases cases with rfl | rfl
  · exact ⟨by decide, fun _ => ⟨by decide, .inl rfl, by decide, by decide⟩⟩
  · exact ⟨by decide, fun _ => ⟨by decide, .inl rfl, by decide, by decide⟩⟩

/-- Without a delay the remainder by it is not defined. -/
theorem safeCalls_fails : ¬ ∀ config : ClientConfig, config.InRange → ∀ calls,
    SafeCalls config calls .init := by
  intro claim
  obtain ⟨after, delay, ok, -⟩ := claim { pcClientConfigDefault with reconnDelay := 0 }
    ⟨by decide, by decide, by decide, by decide⟩ 1 0 (by decide)
  have undefined : Checked.reconn { pcClientConfigDefault with reconnDelay := 0 } 0 .init =
      .error .zeroDivisor := by
    decide
  rw [undefined] at ok
  cases ok

end Pomelo
