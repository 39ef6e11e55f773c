import QApr.Application.Startup
import QApr.Library.Runs

/-!
# The reported state of the circuit breaker

`CircuitBreaker::isRunning` tests the pointer to the timer, and a trip stops the timer
without deleting it.  The module compares what `start`, `stop` and `isRunning` report
with the timer, over all sequences of starts, stops and checks.
-/

namespace QApr.Application

open QApr.Qt QApr.Library

/-- `CircuitBreaker::isRunning`. -/
def CircuitBreakerPvt.isRunning (breaker : CircuitBreakerPvt) : Bool :=
  breaker.timerBreaker.isSome

/-- A timer exists, is active and is connected to `onCheck`. -/
def CircuitBreakerPvt.Ticking (breaker : CircuitBreakerPvt) : Prop :=
  breaker.timerBreaker = some true

section Reports

variable (fromHash : QVariantHash → SettingBase)

/-- What is reported by and after a call is the state of the timer. -/
structure ReportsStep (history : History) (call : BreakerCall) : Prop where
  isRunning : (history.call fromHash call).1.breaker.isRunning = true ↔
    (history.call fromHash call).1.breaker.Ticking
  start : call = .start → ((history.breaker.start fromHash).2 = true ↔
    (history.call fromHash call).1.breaker.Ticking)
  stop : call = .stop → (history.call fromHash call).1.breaker.timerBreaker = none

/-- The state is reported at every step of a sequence of calls, and from every state on
the way a configured breaker can be started. -/
structure ReportsState (vSetting : QVariantHash) (calls : List BreakerCall) : Prop where
  steps : ∀ before call after, calls = before ++ call :: after →
    ReportsStep fromHash ((History.new vSetting).run fromHash before) call
  restarts : ∀ before after, calls = before ++ after → Configured fromHash vSetting →
    (((History.new vSetting).run fromHash before).breaker.start fromHash).1.Ticking

/-- The ticks that follow a start without a stop between. -/
def startedTicks (started : Bool) : List BreakerCall → List QDateTime
  | [] => []
  | .start :: rest => startedTicks true rest
  | .stop :: rest => startedTicks false rest
  | .tick now :: rest =>
      if started then now :: startedTicks started rest else startedTicks started rest

/-- No tick comes later than the limit allows, from the first tick on. -/
def InTime (limit : Int) (firstTick : Option QDateTime) (ticks : List QDateTime) : Prop :=
  ∀ now ∈ ticks, ∀ first ∈ firstTick.or ticks.head?, now ≤ first + limit

end Reports

section Tracks

variable {fromHash : QVariantHash → SettingBase} {vSetting : QVariantHash}

theorem inTime_cons (limit : Int) (firstTick : Option QDateTime) (now : QDateTime)
    (rest : List QDateTime) :
    InTime limit firstTick (now :: rest) ↔
      now ≤ firstTick.getD now + limit ∧ InTime limit (some (firstTick.getD now)) rest := by
  have first : firstTick.or (now :: rest).head? = some (firstTick.getD now) := by
    cases firstTick <;> rfl
  simp only [InTime, first, Option.some_or, List.forall_mem_cons, Option.mem_some,
    forall_eq']

/-- A breaker that has not tripped. -/
structure Tracks (fromHash : QVariantHash → SettingBase) (vSetting : QVariantHash)
    (started : Bool) (firstTick : Option QDateTime) (breaker : CircuitBreakerPvt) : Prop where
  setting : breaker.setting = vSetting
  timer : breaker.timerBreaker = if started then some true else none
  service : started = true → breaker.settingService = fromHash vSetting
  deadline : breaker.activityLimit = firstTick.map (· + (fromHash vSetting).activityLimit)

theorem tracks_new : Tracks fromHash vSetting false none (.new vSetting) where
  setting := rfl
  timer := rfl
  service := by intro; contradiction
  deadline := rfl

/-- A start of a configured breaker creates the timer, or finds it. -/
theorem start_of_configured {breaker : CircuitBreakerPvt}
    (configured : Configured fromHash breaker.setting) :
    breaker.start fromHash =
      ({ breaker with
          settingService := fromHash breaker.setting
          timerBreaker := some (breaker.timerBreaker.getD true) },
        breaker.timerBreaker.getD true) := by
  have ⟨enabled, limit⟩ := configured
  simp only [CircuitBreakerPvt.start, enabled, Bool.not_true, Bool.false_eq_true, ↓reduceIte,
    Int.not_le.mpr limit]
  cases breaker.timerBreaker <;> simp

/-- A start of any other breaker stops it. -/
theorem start_of_not_configured {breaker : CircuitBreakerPvt}
    (notConfigured : ¬Configured fromHash breaker.setting) :
    breaker.start fromHash =
      ({ breaker with settingService := fromHash breaker.setting, timerBreaker := none },
        true) := by
  unfold CircuitBreakerPvt.start
  dsimp only
  split
  · rfl
  · split
    · rfl
    next enabled limit =>
      apply absurd _ notConfigured
      exact ⟨by simpa using enabled, Int.not_le.mp limit⟩

/-- A stop is always reported as it is. -/
theorem reportsStep_stop (history : History) : ReportsStep fromHash history .stop := by
  constructor
  · simp [History.call, CircuitBreakerPvt.stop, CircuitBreakerPvt.isRunning,
      CircuitBreakerPvt.Ticking]
  · intro; contradiction
  · intro; rfl

/-- Without a timer a tick does nothing. -/
theorem idle_tick {history : History} (idle : history.breaker.timerBreaker = none)
    (now : QDateTime) : history.call fromHash (.tick now) = (history, none) := by
  simp [History.call, idle]

/-- Without a timer none is reported. -/
theorem reportsStep_idle_tick {history : History}
    (idle : history.breaker.timerBreaker = none) (now : QDateTime) :
    ReportsStep fromHash history (.tick now) := by
  constructor
  · rw [idle_tick idle]
    simp [CircuitBreakerPvt.isRunning, CircuitBreakerPvt.Ticking, idle]
  · intro; contradiction
  · intro; contradiction

/-- A start that leaves no timer is reported as one that does. -/
theorem not_reportsStep_start {history : History}
    (notConfigured : ¬Configured fromHash history.breaker.setting) :
    ¬ReportsStep fromHash history .start := by
  intro reports
  have same := reports.start rfl
  simp [History.call, start_of_not_configured notConfigured, CircuitBreakerPvt.Ticking] at same

/-- A run that begins with an ignored tick is the run of the rest. -/
theorem run_idle_tick {history : History} (idle : history.breaker.timerBreaker = none)
    (now : QDateTime) (rest : List BreakerCall) :
    history.run fromHash (.tick now :: rest) = history.run fromHash rest := by
  rw [History.run, List.foldl_cons, idle_tick idle]
  rfl

namespace Tracks

variable {started : Bool} {firstTick : Option QDateTime} {history : History}
  (tracks : Tracks fromHash vSetting started firstTick history.breaker)
include tracks

theorem start (configured : Configured fromHash vSetting) :
    Tracks fromHash vSetting true firstTick (history.call fromHash .start).1.breaker ∧
      ReportsStep fromHash history .start := by
  have starts := @start_of_configured fromHash history.breaker
    (by rw [tracks.setting]; exact configured)
  have timer : history.breaker.timerBreaker.getD true = true := by
    rw [tracks.timer]
    cases started <;> rfl
  rw [timer] at starts
  constructor
  · simp only [History.call, starts]
    exact ⟨tracks.setting, rfl, fun _ => congrArg fromHash tracks.setting, tracks.deadline⟩
  · constructor
    · simp [History.call, starts, CircuitBreakerPvt.isRunning, CircuitBreakerPvt.Ticking]
    · simp [History.call, starts, CircuitBreakerPvt.Ticking]
    · intro; contradiction

theorem stop :
    Tracks fromHash vSetting false firstTick (history.call fromHash .stop).1.breaker :=
  ⟨tracks.setting, rfl, by intro; contradiction, tracks.deadline⟩

/-- The deadline that a check goes by. -/
theorem activityLimit_setLimits (configured : Configured fromHash vSetting)
    (isStarted : started = true) (now : QDateTime) :
    (history.breaker.setLimits now).activityLimit =
      some (firstTick.getD now + (fromHash vSetting).activityLimit) := by
  simp only [CircuitBreakerPvt.setLimits, tracks.deadline, tracks.service isStarted,
    Int.not_le.mpr configured.2, ↓reduceIte]
  cases firstTick <;> rfl

/-- A tick in time keeps the breaker ticking, and a late one trips it. -/
theorem timer_tick (configured : Configured fromHash vSetting) (isStarted : started = true)
    (now : QDateTime) :
    (history.call fromHash (.tick now)).1.breaker.timerBreaker =
      some (decide (now ≤ firstTick.getD now + (fromHash vSetting).activityLimit)) := by
  have timer : history.breaker.timerBreaker = some true := by rw [tracks.timer, if_pos isStarted]
  have deadline := tracks.activityLimit_setLimits configured isStarted now
  simp only [History.call, timer, ↓reduceIte, CircuitBreakerPvt.onCheck, deadline,
    Option.any_some, decide_eq_true_eq]
  split
  next late => simp [CircuitBreakerPvt.onBreak, CircuitBreakerPvt.setLimits, timer, late]
  next inTime => simpa [CircuitBreakerPvt.setLimits, timer] using inTime

theorem tick (configured : Configured fromHash vSetting) (isStarted : started = true)
    {now : QDateTime} (inTime : now ≤ firstTick.getD now + (fromHash vSetting).activityLimit) :
    Tracks fromHash vSetting started (some (firstTick.getD now))
      (history.call fromHash (.tick now)).1.breaker := by
  have timer := tracks.timer_tick configured isStarted now
  have active : history.breaker.timerBreaker = some true := by
    rw [tracks.timer, if_pos isStarted]
  have ⟨settingEq, serviceEq, deadlineEq, _⟩ := history.breaker.onCheck_spec now
  rw [tracks.activityLimit_setLimits configured isStarted] at deadlineEq
  rw [decide_eq_true inTime] at timer
  simp only [History.call, active, ↓reduceIte] at timer ⊢
  refine ⟨settingEq.trans tracks.setting, ?_, fun _ => ?_, deadlineEq⟩
  · rw [timer, if_pos isStarted]
  · rw [serviceEq, tracks.service isStarted]

/-- A late tick is not reported. -/
theorem reportsStep_tick (configured : Configured fromHash vSetting)
    (isStarted : started = true) (now : QDateTime) :
    ReportsStep fromHash history (.tick now) ↔
      now ≤ firstTick.getD now + (fromHash vSetting).activityLimit := by
  have timer := tracks.timer_tick configured isStarted now
  constructor
  · intro reports
    have same := reports.isRunning
    rw [CircuitBreakerPvt.isRunning, CircuitBreakerPvt.Ticking, timer] at same
    simpa using same
  · intro inTime
    rw [decide_eq_true inTime] at timer
    constructor
    · simp [CircuitBreakerPvt.isRunning, CircuitBreakerPvt.Ticking, timer]
    · intro; contradiction
    · intro; contradiction

/-- A breaker that is not started has no timer. -/
theorem idle (notStarted : started = false) : history.breaker.timerBreaker = none := by
  rw [tracks.timer, notStarted]
  rfl

/-- A configured breaker reports its state exactly as long as no tick is late. -/
theorem reports_iff_inTime (configured : Configured fromHash vSetting)
    (calls : List BreakerCall) :
    (∀ before call after, calls = before ++ call :: after →
        ReportsStep fromHash (history.run fromHash before) call) ↔
      InTime (fromHash vSetting).activityLimit firstTick (startedTicks started calls) := by
  induction calls generalizing history started firstTick with
  | nil =>
      constructor
      · intro _ now member
        contradiction
      · intro _
        exact forall_split_nil
  | cons call rest ih =>
      rw [forall_split_cons]
      cases call with
      | start =>
          have ⟨next, reports⟩ := tracks.start configured
          rw [startedTicks, ← ih next]
          exact and_iff_right reports
      | stop =>
          rw [startedTicks, ← ih tracks.stop]
          exact and_iff_right (reportsStep_stop history)
      | tick now =>
          cases isStarted : started with
          | false =>
              have idle := tracks.idle isStarted
              rw [startedTicks, if_neg Bool.false_ne_true, ← isStarted, ← ih tracks]
              simp only [run_idle_tick idle]
              exact and_iff_right (reportsStep_idle_tick idle now)
          | true =>
              rw [startedTicks, if_pos rfl, inTime_cons, ← isStarted]
              -- What follows is read off the breaker only if the tick was in time.
              apply (and_congr_left' (tracks.reportsStep_tick configured isStarted now)).trans
              apply and_congr_right
              intro inTime
              exact ih (tracks.tick configured isStarted inTime)

end Tracks

end Tracks

section Idle

variable {fromHash : QVariantHash → SettingBase} {vSetting : QVariantHash}

/-- A breaker that is not configured and has no timer reports its state exactly as long
as it is not started. -/
theorem reports_iff_noStart (notConfigured : ¬Configured fromHash vSetting)
    {history : History} (setting : history.breaker.setting = vSetting)
    (idle : history.breaker.timerBreaker = none) (calls : List BreakerCall) :
    (∀ before call after, calls = before ++ call :: after →
        ReportsStep fromHash (history.run fromHash before) call) ↔ .start ∉ calls := by
  induction calls generalizing history with
  | nil => simp
  | cons call rest ih =>
      rw [forall_split_cons, List.mem_cons, not_or]
      cases call with
      | start =>
          have notReported := @not_reportsStep_start fromHash history
            (by rw [setting]; exact notConfigured)
          apply iff_of_false
          · intro reports
            exact notReported reports.1
          · intro noStart
            exact noStart.1 rfl
      | stop =>
          apply and_congr
          · exact iff_of_true (reportsStep_stop history) BreakerCall.noConfusion
          · exact @ih (history.call fromHash .stop).1 setting rfl
      | tick now =>
          apply and_congr
          · exact iff_of_true (reportsStep_idle_tick idle now) BreakerCall.noConfusion
          · simpa only [run_idle_tick idle] using ih setting idle

/-- No call changes the settings. -/
theorem setting_run (history : History) (calls : List BreakerCall) :
    (history.run fromHash calls).breaker.setting = history.breaker.setting := by
  induction calls generalizing history with
  | nil => rfl
  | cons call rest ih =>
      rw [History.run, List.foldl_cons]
      apply (ih _).trans
      cases call with
      | start => exact history.breaker.start_spec.1
      | stop => rfl
      | tick now =>
          simp only [History.call]
          split
          · exact (history.breaker.onCheck_spec now).1
          · rfl

/-- A breaker whose state was reported can be started. -/
theorem restarts_of_steps {calls : List BreakerCall}
    (steps : ∀ before call after, calls = before ++ call :: after →
      ReportsStep fromHash ((History.new vSetting).run fromHash before) call)
    {before after : List BreakerCall} (split : calls = before ++ after)
    (configured : Configured fromHash vSetting) :
    (((History.new vSetting).run fromHash before).breaker.start fromHash).1.Ticking := by
  have setting := @setting_run fromHash (.new vSetting) before
  rw [start_of_configured (by rw [setting]; exact configured)]
  have timer : ((History.new vSetting).run fromHash before).breaker.timerBreaker ≠
      some false := by
    intro tripped
    cases before using List.reverseRecOn with
    | nil => contradiction
    | append_singleton before last =>
        rw [List.append_assoc] at split
        have reports := (steps before last after split).isRunning
        rw [History.run, List.foldl_append] at tripped
        simp only [List.foldl_cons, List.foldl_nil] at tripped
        simp [History.run, CircuitBreakerPvt.isRunning, CircuitBreakerPvt.Ticking, tripped]
          at reports
  cases present : ((History.new vSetting).run fromHash before).breaker.timerBreaker with
  | none => rfl
  | some isActive =>
      cases isActive with
      | true => rfl
      | false => contradiction

/-- The breaker reports its state exactly if it is configured and no tick comes later
than one limit after the first, or it is not configured and never started. -/
theorem reportsState_iff (calls : List BreakerCall) :
    ReportsState fromHash vSetting calls ↔
      (Configured fromHash vSetting →
        InTime (fromHash vSetting).activityLimit none (startedTicks false calls)) ∧
      (¬Configured fromHash vSetting → .start ∉ calls) := by
  constructor
  · intro reports
    constructor
    · intro configured
      exact (tracks_new.reports_iff_inTime configured calls).mp reports.steps
    · intro notConfigured
      exact (reports_iff_noStart notConfigured rfl rfl calls).mp reports.steps
  · intro ⟨inTime, noStart⟩
    have steps : ∀ before call after, calls = before ++ call :: after →
        ReportsStep fromHash ((History.new vSetting).run fromHash before) call := by
      by_cases configured : Configured fromHash vSetting
      · exact (tracks_new.reports_iff_inTime configured calls).mpr (inTime configured)
      · exact (reports_iff_noStart configured rfl rfl calls).mpr (noStart configured)
    exact ⟨steps, fun before after => restarts_of_steps steps⟩

end Idle

/-- After the breaker has tripped it still counts as running. -/
theorem not_reportsState_tripped :
    ¬ReportsState (fun _ => ⟨true, 1000, 0⟩) [] [.start, .tick 0, .tick 1001] := by
  intro reports
  have same := (reports.steps [.start, .tick 0] (.tick 1001) [] rfl).isRunning
  have ticking : some false = some true := same.mp rfl
  contradiction

end QApr.Application
