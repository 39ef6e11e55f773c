import QApr.Qt.Variant
import Mathlib.Data.List.Induction

/-!
# The circuit breaker

`CircuitBreakerPvt` checks once a second whether the application has run for longer
than its activity limit.  The deadline is set at the first check and never again.
The module compares, over all sequences of starts, stops and checks, the quits that
are issued with those that the limit of the current arming calls for.
-/

namespace QApr.Application

open QApr.Qt

/-- `QDateTime`, in milliseconds since the epoch. -/
abbrev QDateTime := Int

/-- What `QStm::SettingBase` reads from a hash of settings. -/
structure SettingBase where
  enabled : Bool
  activityLimit : Int
  memoryLimit : Int
  deriving DecidableEq, Repr

/-- The fields of `CircuitBreakerPvt`. -/
structure CircuitBreakerPvt where
  settingService : SettingBase
  setting : QVariantHash
  /-- Whether the timer is active and connected; `none` is the null pointer. -/
  timerBreaker : Option Bool
  /-- `none` is the invalid date. -/
  activityLimit : Option QDateTime
  memoryLimitKB : Int

namespace CircuitBreakerPvt

/-- The constructor of `CircuitBreakerPvt`. -/
def new (vSetting : QVariantHash) : CircuitBreakerPvt where
  settingService := ⟨false, 0, 0⟩
  setting := vSetting
  timerBreaker := none
  activityLimit := none
  memoryLimitKB := 0

section Calls

variable (fromHash : QVariantHash → SettingBase) (breaker : CircuitBreakerPvt)

/-- `CircuitBreakerPvt::stop`, with the value it returns. -/
def stop : CircuitBreakerPvt × Bool :=
  ({ breaker with timerBreaker := none }, true)

/-- `CircuitBreakerPvt::start`, with the value it returns. -/
def start : CircuitBreakerPvt × Bool :=
  let breaker := { breaker with settingService := fromHash breaker.setting }
  if !breaker.settingService.enabled then breaker.stop
  else if breaker.settingService.activityLimit ≤ 0 then breaker.stop
  else
    match breaker.timerBreaker with
    | none => ({ breaker with timerBreaker := some true }, true)
    | some isActive => (breaker, isActive)

/-- `CircuitBreakerPvt::onBreak`. -/
def onBreak : CircuitBreakerPvt :=
  { breaker with timerBreaker := breaker.timerBreaker.map fun _ => false }

/-- The first part of `CircuitBreakerPvt::onCheck`: the deadline and the memory limit
are set where they are not set yet. -/
def setLimits (now : QDateTime) : CircuitBreakerPvt :=
  let limit := breaker.settingService.activityLimit
  { breaker with
    activityLimit := breaker.activityLimit.or (if limit ≤ 0 then none else some (now + limit))
    memoryLimitKB :=
      if breaker.memoryLimitKB ≤ 0 then breaker.settingService.memoryLimit.tdiv 1024
      else breaker.memoryLimitKB }

/-- `CircuitBreakerPvt::onCheck` at a time, and whether it quits the application. -/
def onCheck (now : QDateTime) : CircuitBreakerPvt × Bool :=
  let breaker := breaker.setLimits now
  if breaker.activityLimit.any (now > ·) then (breaker.onBreak, true) else (breaker, false)

end Calls

end CircuitBreakerPvt

/-! ## Histories -/

/-- What happens to a circuit breaker: a call, or an expiry of its timer, which only
an active timer reports. -/
inductive BreakerCall where
  | start
  | stop
  | tick (now : QDateTime)
  deriving DecidableEq, Repr

section Histories

variable (fromHash : QVariantHash → SettingBase)

/-- A circuit breaker with the times of two ticks, which the code does not record. -/
structure History where
  breaker : CircuitBreakerPvt
  /-- The first tick of all. -/
  firstTick : Option QDateTime
  /-- The first tick after the most recent start that created the timer. -/
  armedTick : Option QDateTime

/-- A tick that was reported to `onCheck`. -/
structure Tick where
  now : QDateTime
  firstTick : QDateTime
  armedTick : QDateTime
  quit : Bool
  deriving DecidableEq, Repr

namespace History

/-- No call was made. -/
def new (vSetting : QVariantHash) : History := ⟨.new vSetting, none, none⟩

/-- The effect of a call, and the tick if one is reported. -/
def call (history : History) : BreakerCall → History × Option Tick
  | .start =>
      let after := (history.breaker.start fromHash).1
      let created := history.breaker.timerBreaker = none ∧ after.timerBreaker ≠ none
      (⟨after, history.firstTick, if created then none else history.armedTick⟩, none)
  | .stop => ({ history with breaker := history.breaker.stop.1 }, none)
  | .tick now =>
      if history.breaker.timerBreaker = some true then
        let (after, quit) := history.breaker.onCheck now
        let firstTick := history.firstTick.getD now
        let armedTick := history.armedTick.getD now
        (⟨after, some firstTick, some armedTick⟩, some ⟨now, firstTick, armedTick, quit⟩)
      else
        (history, none)

/-- The history after a sequence of calls. -/
def run (history : History) (calls : List BreakerCall) : History :=
  calls.foldl (fun history call => (history.call fromHash call).1) history

/-- The ticks that are reported during a sequence of calls. -/
def ticks (history : History) : List BreakerCall → List Tick
  | [] => []
  | call :: rest =>
      (history.call fromHash call).2.toList ++ ticks (history.call fromHash call).1 rest

end History

/-- The times of the ticks among the calls. -/
def times (calls : List BreakerCall) : List QDateTime :=
  calls.filterMap fun
    | .tick now => some now
    | _ => none

/-- The breaker trips at the ticks at which the limit of the current arming has passed,
and at most once between two starts. -/
structure TripsOnTime (vSetting : QVariantHash) (calls : List BreakerCall) : Prop where
  onTime : ∀ tick ∈ (History.new vSetting).ticks fromHash calls,
    tick.quit = true ↔ tick.armedTick + (fromHash vSetting).activityLimit < tick.now
  once : ∀ before middle after, calls = before ++ middle ++ after → .start ∉ middle →
    (((History.new vSetting).run fromHash before).ticks fromHash middle).countP Tick.quit ≤ 1

/-- The limit has passed since the first tick of all, but not since the first tick of
the current arming. -/
def Tick.Early (limit : Int) (tick : Tick) : Prop :=
  tick.firstTick + limit < tick.now ∧ tick.now ≤ tick.armedTick + limit

instance (limit : Int) (tick : Tick) : Decidable (tick.Early limit) :=
  inferInstanceAs (Decidable (_ ∧ _))

end Histories

/-! ## One quit at most -/

section Once

variable {fromHash : QVariantHash → SettingBase}

/-- Without an active timer nothing is reported until the next start. -/
theorem ticks_of_inactive {history : History}
    (inactive : history.breaker.timerBreaker ≠ some true) {calls : List BreakerCall}
    (noStart : .start ∉ calls) : history.ticks fromHash calls = [] := by
  induction calls generalizing history with
  | nil => rfl
  | cons call rest ih =>
      have restNoStart : .start ∉ rest := fun later => noStart (List.mem_cons_of_mem _ later)
      cases call with
      | start => exact absurd List.mem_cons_self noStart
      | stop =>
          have stopped : (history.call fromHash .stop).1.breaker.timerBreaker ≠ some true := by
            simp [History.call, CircuitBreakerPvt.stop]
          exact ih stopped restNoStart
      | tick now =>
          have ignored : history.call fromHash (.tick now) = (history, none) := by
            simp [History.call, inactive]
          rw [History.ticks, ignored]
          exact ih inactive restNoStart

/-- A check that quits stops the timer. -/
theorem inactive_of_quit {breaker : CircuitBreakerPvt} {now : QDateTime}
    (quits : (breaker.onCheck now).2 = true) :
    (breaker.onCheck now).1.timerBreaker ≠ some true := by
  rw [CircuitBreakerPvt.onCheck] at quits ⊢
  split at quits
  next passed =>
    rw [if_pos passed]
    simp [CircuitBreakerPvt.onBreak]
  next => contradiction

/-- Between two starts the application is quit at most once. -/
theorem countP_quit_le_one (history : History) {calls : List BreakerCall}
    (noStart : .start ∉ calls) :
    (history.ticks fromHash calls).countP Tick.quit ≤ 1 := by
  induction calls generalizing history with
  | nil => simp [History.ticks]
  | cons call rest ih =>
      have restNoStart : .start ∉ rest := fun later => noStart (List.mem_cons_of_mem _ later)
      cases call with
      | start => exact absurd List.mem_cons_self noStart
      | stop => exact ih _ restNoStart
      | tick now =>
          simp only [History.ticks, History.call]
          split
          · simp only [Option.toList_some, List.singleton_append, List.countP_cons]
            cases quits : (history.breaker.onCheck now).2 with
            | false => simpa using ih _ restNoStart
            | true =>
                have silent := @ticks_of_inactive fromHash
                  ⟨(history.breaker.onCheck now).1, some (history.firstTick.getD now),
                    some (history.armedTick.getD now)⟩ (inactive_of_quit quits) _ restNoStart
                simp [silent]
          · exact ih _ restNoStart

end Once

/-! ## The deadline is that of the first tick -/

section Deadline

variable {fromHash : QVariantHash → SettingBase} {vSetting : QVariantHash}

namespace CircuitBreakerPvt

/-- A start leaves the deadline alone, and a timer with a positive limit. -/
theorem start_spec (breaker : CircuitBreakerPvt) :
    (breaker.start fromHash).1.setting = breaker.setting ∧
      (breaker.start fromHash).1.activityLimit = breaker.activityLimit ∧
      ((breaker.start fromHash).1.timerBreaker ≠ none →
        (breaker.start fromHash).1.settingService = fromHash breaker.setting ∧
          0 < (fromHash breaker.setting).activityLimit) := by
  unfold start
  simp only
  split
  · simp [stop]
  split
  · simp [stop]
  next positive =>
    have limit := Int.not_le.mp positive
    cases breaker.timerBreaker <;> exact ⟨rfl, rfl, fun _ => ⟨rfl, limit⟩⟩

/-- A check sets the deadline where there is none, and quits when it has passed. -/
theorem onCheck_spec (breaker : CircuitBreakerPvt) (now : QDateTime) :
    (breaker.onCheck now).1.setting = breaker.setting ∧
      (breaker.onCheck now).1.settingService = breaker.settingService ∧
      (breaker.onCheck now).1.activityLimit = (breaker.setLimits now).activityLimit ∧
      (breaker.onCheck now).2 = (breaker.setLimits now).activityLimit.any (now > ·) := by
  rw [onCheck]
  split
  next passed => exact ⟨rfl, rfl, rfl, passed.symm⟩
  next early => exact ⟨rfl, rfl, rfl, (Bool.eq_false_iff.mpr early).symm⟩

end CircuitBreakerPvt

/-- The deadline, once there is one, lies one limit after the first tick of all. -/
structure History.Latched (fromHash : QVariantHash → SettingBase) (vSetting : QVariantHash)
    (history : History) : Prop where
  setting : history.breaker.setting = vSetting
  armed : history.breaker.timerBreaker ≠ none →
    history.breaker.settingService = fromHash vSetting ∧ 0 < (fromHash vSetting).activityLimit
  deadline : history.breaker.activityLimit =
    history.firstTick.map (· + (fromHash vSetting).activityLimit)
  ordered : ∀ armedTick ∈ history.armedTick, ∃ firstTick ∈ history.firstTick,
    firstTick ≤ armedTick

/-- A tick that is judged by the deadline of the first tick of all. -/
structure Tick.Judged (limit : Int) (tick : Tick) : Prop where
  ordered : tick.firstTick ≤ tick.armedTick
  quit : tick.quit = true ↔ tick.firstTick + limit < tick.now

theorem latched_new : (History.new vSetting).Latched fromHash vSetting where
  setting := rfl
  armed := by simp [History.new, CircuitBreakerPvt.new]
  deadline := rfl
  ordered := by simp [History.new]

namespace History.Latched

variable {history : History}

theorem start (latched : history.Latched fromHash vSetting) :
    (history.call fromHash .start).1.Latched fromHash vSetting := by
  have ⟨settingEq, deadlineEq, armed⟩ := @CircuitBreakerPvt.start_spec fromHash history.breaker
  rw [latched.setting] at settingEq armed
  refine ⟨settingEq, armed, deadlineEq.trans latched.deadline, ?_⟩
  intro armedTick member
  simp only [History.call] at member ⊢
  split at member
  · simp at member
  · exact latched.ordered armedTick member

theorem stop (latched : history.Latched fromHash vSetting) :
    (history.call fromHash .stop).1.Latched fromHash vSetting where
  setting := latched.setting
  armed := by simp [History.call, CircuitBreakerPvt.stop]
  deadline := latched.deadline
  ordered := latched.ordered

/-- A reported tick is judged by the deadline of the first tick, which is no later
than any other. -/
theorem tick (latched : history.Latched fromHash vSetting)
    (active : history.breaker.timerBreaker = some true) {now : QDateTime}
    (clock : ∀ firstTick ∈ history.firstTick, firstTick ≤ now) :
    (history.call fromHash (.tick now)).1.Latched fromHash vSetting ∧
      ∀ tick ∈ (history.call fromHash (.tick now)).2,
        tick.Judged (fromHash vSetting).activityLimit := by
  have ⟨serviceEq, positive⟩ := latched.armed (by simp [active])
  have ⟨settingEq, stillServiceEq, deadlineEq, quitEq⟩ := history.breaker.onCheck_spec now
  have deadline : (history.breaker.setLimits now).activityLimit =
      some (history.firstTick.getD now + (fromHash vSetting).activityLimit) := by
    have limit := Int.not_le.mpr positive
    simp only [CircuitBreakerPvt.setLimits, latched.deadline, serviceEq, limit, ↓reduceIte]
    cases history.firstTick <;> rfl
  have ordered : history.firstTick.getD now ≤ history.armedTick.getD now := by
    cases armedTick? : history.armedTick with
    | none =>
        cases firstTick? : history.firstTick with
        | none => exact Int.le_refl _
        | some firstTick => exact clock firstTick firstTick?
    | some armedTick =>
        rcases latched.ordered armedTick armedTick? with ⟨firstTick, firstTick?, before⟩
        rw [Option.mem_def.mp firstTick?]
        exact before
  rw [deadline] at deadlineEq quitEq
  simp only [History.call, active, ↓reduceIte]
  constructor
  · refine ⟨settingEq.trans latched.setting, ?_, deadlineEq, ?_⟩
    · intro _
      exact ⟨stillServiceEq.trans serviceEq, positive⟩
    · intro armedTick member
      cases member
      exact ⟨_, rfl, ordered⟩
  · intro tick member
    cases member
    exact ⟨ordered, by simp [quitEq]⟩

end History.Latched

/-- A call sets the first tick only to its own time. -/
theorem firstTick_call (history : History) (call : BreakerCall) :
    ∀ firstTick ∈ (history.call fromHash call).1.firstTick,
      firstTick ∈ history.firstTick ∨ call = .tick firstTick := by
  intro firstTick member
  cases call with
  | start => exact Or.inl member
  | stop => exact Or.inl member
  | tick now =>
      simp only [History.call] at member
      split at member
      · cases present : history.firstTick with
        | none =>
            simp only [present, Option.getD_none, Option.mem_def, Option.some.injEq] at member
            exact Or.inr (congrArg BreakerCall.tick member)
        | some earlier =>
            simp only [present, Option.getD_some, Option.mem_def, Option.some.injEq] at member
            exact Or.inl (congrArg some member)
      · exact Or.inl member

/-- With a clock that never goes back, every reported tick is judged by the deadline of
the first one. -/
theorem judged_of_mem_ticks {history : History}
    (latched : history.Latched fromHash vSetting) {calls : List BreakerCall}
    (clock : (times calls).Pairwise (· ≤ ·))
    (past : ∀ firstTick ∈ history.firstTick, ∀ now ∈ times calls, firstTick ≤ now) :
    ∀ tick ∈ history.ticks fromHash calls,
      tick.Judged (fromHash vSetting).activityLimit := by
  induction calls generalizing history with
  | nil => simp [History.ticks]
  | cons call rest ih =>
      have stepped : (history.call fromHash call).1.Latched fromHash vSetting ∧
          ∀ tick ∈ (history.call fromHash call).2,
            tick.Judged (fromHash vSetting).activityLimit := by
        cases call with
        | start => exact ⟨latched.start, by simp [History.call]⟩
        | stop => exact ⟨latched.stop, by simp [History.call]⟩
        | tick now =>
            by_cases active : history.breaker.timerBreaker = some true
            · apply latched.tick active
              intro firstTick member
              exact past firstTick member now (by simp [times])
            · simp [History.call, active, latched]
      have restTimes : (times rest).Sublist (times (call :: rest)) :=
        (List.sublist_cons_self call rest).filterMap _
      have restPast : ∀ firstTick ∈ (history.call fromHash call).1.firstTick,
          ∀ now ∈ times rest, firstTick ≤ now := by
        intro firstTick member now later
        rcases firstTick_call history call firstTick member with old | rfl
        · exact past firstTick old now (restTimes.subset later)
        · exact List.rel_of_pairwise_cons clock later
      intro tick member
      rcases List.mem_append.mp member with now | later
      · exact stepped.2 tick (Option.mem_toList.mp now)
      · exact ih stepped.1 (List.Pairwise.sublist restTimes clock) restPast tick later

/-- The breaker trips on time exactly when no tick of a later arming falls between the
end of the limit of the first arming and the end of its own. -/
theorem tripsOnTime_iff {calls : List BreakerCall} (clock : (times calls).Pairwise (· ≤ ·)) :
    TripsOnTime fromHash vSetting calls ↔
      ∀ tick ∈ (History.new vSetting).ticks fromHash calls,
        ¬tick.Early (fromHash vSetting).activityLimit := by
  have judged := judged_of_mem_ticks (@latched_new fromHash vSetting) clock
    (by simp [History.new])
  constructor
  · intro trips tick member early
    have late := (trips.onTime tick member).mp ((judged tick member).quit.mpr early.1)
    exact absurd early.2 (Int.not_le.mpr late)
  · intro never
    constructor
    · intro tick member
      have ordered := (judged tick member).ordered
      rw [(judged tick member).quit]
      constructor
      · intro passed
        by_contra notYet
        exact never tick member ⟨passed, Int.not_lt.mp notYet⟩
      · intro passed
        exact Int.lt_of_le_of_lt (Int.add_le_add_right ordered _) passed
    · intro before middle after _ noStart
      exact countP_quit_le_one _ noStart

end Deadline

/-- The breaker is stopped and started again two seconds after its first tick. -/
def restarted : List BreakerCall :=
  [.start, .tick 0, .stop, .start, .tick 2000]

/-- The first tick of the second arming quits the application at once. -/
theorem not_tripsOnTime_restarted :
    (times restarted).Pairwise (· ≤ ·) ∧
      ¬TripsOnTime (fun _ => ⟨true, 1000, 0⟩) [] restarted := by
  refine ⟨by decide, ?_⟩
  intro trips
  have early := trips.onTime ⟨2000, 0, 2000, true⟩ (by decide)
  revert early
  decide

theorem tripsOnTime_once :
    TripsOnTime (fun _ => ⟨true, 1000, 0⟩) [] [.start, .tick 0, .tick 1000, .tick 1001] :=
  (tripsOnTime_iff (by decide)).mpr fun tick member => by
    revert tick
    decide

end QApr.Application
