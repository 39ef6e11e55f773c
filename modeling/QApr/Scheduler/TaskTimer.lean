import QApr.Library.Mutex
import QApr.Scheduler.ScopeGroup
import Mathlib.Data.Int.Order.Basic
import Mathlib.Logic.Function.Basic
import Mathlib.Logic.Relation

/-!
# The timers of the tasks

`SchedulerTask::run` arms a single shot for the first execution, and `taskRun` stops the
timer before an execution and starts it again after it.  The module follows the threads of
all tasks on one clock: how far the executions of a task lie apart, and that those of
synchronised tasks do not overlap.
-/

namespace QApr.Scheduler

open QApr.Library Relation

/-- The settings that `SchedulerTaskPvt` reads. -/
structure TaskSettings where
  activityInterval : Int
  activityIntervalInitial : Int
  deriving DecidableEq, Repr

/-- The delay of the single shot in `run`. -/
def TaskSettings.firstDelay (settings : TaskSettings) : Int :=
  if settings.activityIntervalInitial > 0 then settings.activityIntervalInitial else 100

/-- A timer that expires at `due` may be delivered.  Timers are of the type `Qt::CoarseTimer`
unless they are set to another one, and these wake up to five percent of their interval
early. -/
def Delivers (interval : Int) (due now : QDateTime) : Prop := 20 * (due - now) ≤ interval

/-- An execution of `scope->invoke()`, in the session of the thread that made it. -/
structure Execution where
  session : Nat
  started : QDateTime
  finished : QDateTime
  deriving DecidableEq, Repr

/-- Where the thread of a task is. -/
inductive TimerPhase where
  | stopped
  /-- In `exec()`. -/
  | looping
  /-- At the beginning of `taskRun`. -/
  | locking
  /-- In `scope->invoke()`, since `lastExec`. -/
  | invoking (lastExec : QDateTime)
  /-- At the end of `taskRun`. -/
  | unlocking
  deriving DecidableEq, Repr

/-- A task with its timers, by the times at which they expire, and its executions. -/
structure TimedTask where
  phase : TimerPhase
  singleShot : Option QDateTime
  timer : Option QDateTime
  /-- How often `run` has entered `exec()`. -/
  session : Nat
  log : List Execution
  deriving DecidableEq, Repr

/-- A task whose thread was never started. -/
def TimedTask.new : TimedTask := ⟨.stopped, none, none, 0, []⟩

/-- The phases between `lock()` and `unlock()`. -/
def TimerPhase.Inside : TimerPhase → Prop
  | .invoking _ | .unlocking => True
  | .stopped | .looping | .locking => False

/-- `timerStop`. -/
def TimedTask.timerStop (task : TimedTask) : TimedTask := { task with timer := none }

/-- `timerStart`. -/
def TimedTask.timerStart (settings : TaskSettings) (now : QDateTime) (task : TimedTask) :
    TimedTask :=
  let task := task.timerStop
  if settings.activityInterval ≤ 0 then task
  else { task with timer := some (now + settings.activityInterval) }

section Steps

variable {ι : Type} [DecidableEq ι]

/-- A step of the thread of one task, with the owner of the mutex before and after it.  A
timer is delivered at any time from its earliest one on, and is armed again at once. -/
inductive TimerStep (settings : TaskSettings) (synchronize : Bool) (self : ι)
    (now : QDateTime) : Option ι → TimedTask → Option ι → TimedTask → Prop where
  | run {owner : Option ι} {task : TimedTask} (phase : task.phase = .stopped)
      (positive : 0 < settings.activityInterval) :
      TimerStep settings synchronize self now owner task owner
        { task with
          phase := .looping
          singleShot := some (now + settings.firstDelay)
          session := task.session + 1 }
  | shot {owner : Option ι} {task : TimedTask} {due : QDateTime}
      (phase : task.phase = .looping) (armed : task.singleShot = some due)
      (delivers : Delivers settings.firstDelay due now) :
      TimerStep settings synchronize self now owner task owner
        { task with phase := .locking, singleShot := none }
  | timeout {owner : Option ι} {task : TimedTask} {due : QDateTime}
      (phase : task.phase = .looping) (armed : task.timer = some due)
      (delivers : Delivers settings.activityInterval due now) :
      TimerStep settings synchronize self now owner task owner
        { task with
          phase := .locking
          timer := some (due + settings.activityInterval) }
  | lock {task : TimedTask} (phase : task.phase = .locking) (synchronized : synchronize = true) :
      TimerStep settings synchronize self now none task (some self)
        { task.timerStop with phase := .invoking now }
  | enter {owner : Option ι} {task : TimedTask} (phase : task.phase = .locking)
      (unsynchronized : synchronize = false) :
      TimerStep settings synchronize self now owner task owner
        { task.timerStop with phase := .invoking now }
  | finish {owner : Option ι} {task : TimedTask} {lastExec : QDateTime}
      (phase : task.phase = .invoking lastExec) :
      TimerStep settings synchronize self now owner task owner
        { task.timerStart settings now with
          phase := .unlocking
          log := task.log ++ [⟨task.session, lastExec, now⟩] }
  | unlock {owner : Option ι} {task : TimedTask} (phase : task.phase = .unlocking)
      (synchronized : synchronize = true) :
      TimerStep settings synchronize self now owner task none { task with phase := .looping }
  | leave {owner : Option ι} {task : TimedTask} (phase : task.phase = .unlocking)
      (unsynchronized : synchronize = false) :
      TimerStep settings synchronize self now owner task owner { task with phase := .looping }
  | quit {owner : Option ι} {task : TimedTask} (phase : task.phase = .looping) :
      TimerStep settings synchronize self now owner task owner
        { task.timerStop with phase := .stopped, singleShot := none }

/-- The tasks on one clock, and the owner of `staticMutexSynchronize`. -/
structure TimerSystem (ι : Type) where
  now : QDateTime
  owner : Option ι
  tasks : ι → TimedTask

variable (settings : ι → TaskSettings) (synchronize : ι → Bool)

/-- Time passes, or a thread takes a step. -/
inductive TimerSystemStep : TimerSystem ι → TimerSystem ι → Prop where
  | elapse (system : TimerSystem ι) {later : QDateTime} (passes : system.now ≤ later) :
      TimerSystemStep system { system with now := later }
  | task (system : TimerSystem ι) (self : ι) {owner : Option ι} {after : TimedTask}
      (step : TimerStep (settings self) (synchronize self) self system.now system.owner
        (system.tasks self) owner after) :
      TimerSystemStep system
        { system with owner, tasks := Function.update system.tasks self after }

/-- The systems that are reached from the start of the application. -/
def TimerReachable (system : TimerSystem ι) : Prop :=
  ∃ now, ReflTransGen (TimerSystemStep settings synchronize)
    ⟨now, none, fun _ => .new⟩ system

/-- The pause that two executions of a task keep: the interval, or the first delay if the
thread was started again in between. -/
def TaskSettings.pause (settings : TaskSettings) (earlier later : Nat) : Int :=
  if earlier = later then settings.activityInterval else settings.firstDelay

/-- Between the end of an execution in a session and a time in a later one, or in the same
one, lie 95 percent of the pause. -/
def TaskSettings.Keeps (settings : TaskSettings) (earlier : Execution) (session : Nat)
    (time : QDateTime) : Prop :=
  19 * settings.pause earlier.session session ≤ 20 * (time - earlier.finished)

/-- The executions of a task keep their pauses, and those of two synchronised tasks do not
overlap. -/
structure Timely (system : TimerSystem ι) : Prop where
  spaced : ∀ self, (system.tasks self).log.Pairwise fun earlier later =>
    (settings self).Keeps earlier later.session later.started
  apart : ∀ left right, left ≠ right → synchronize left = true → synchronize right = true →
    ∀ first ∈ (system.tasks left).log, ∀ second ∈ (system.tasks right).log,
      first.finished ≤ second.started ∨ second.finished ≤ first.started

/-- They do so in every system that is reached. -/
def AlwaysTimely : Prop :=
  ∀ system, TimerReachable settings synchronize system → Timely settings synchronize system

end Steps

/-! ## One task -/

section Task

variable {ι : Type} {settings : TaskSettings} {synchronize : Bool} {self : ι}
  {now later : QDateTime} {owner owner' : Option ι} {task after : TimedTask}

/-- An execution that starts at the time keeps its pause from all earlier ones. -/
def TimedTask.Clear (settings : TaskSettings) (task : TimedTask) (time : QDateTime) : Prop :=
  ∀ execution ∈ task.log, settings.Keeps execution task.session time

/-- What is known of a task at a time. -/
structure TimedTask.Valid (settings : TaskSettings) (now : QDateTime) (task : TimedTask) :
    Prop where
  spaced : task.log.Pairwise fun earlier later =>
    settings.Keeps earlier later.session later.started
  past : ∀ execution ∈ task.log, execution.finished ≤ now ∧ execution.session ≤ task.session
  positive : task.phase ≠ .stopped → 0 < settings.activityInterval
  singleShot : ∀ due ∈ task.singleShot,
    (∀ execution ∈ task.log, execution.session < task.session ∧
      execution.finished + settings.firstDelay ≤ due) ∧
        task.phase = .looping ∧ task.timer = none
  timer : ∀ due ∈ task.timer, task.phase ≠ .locking → ∀ execution ∈ task.log,
    execution.session = task.session ∧ execution.finished + settings.activityInterval ≤ due ∨
      settings.Keeps execution task.session now
  stopped : task.phase = .stopped → task.timer = none
  locking : task.phase = .locking → task.Clear settings now
  invoking : ∀ lastExec, task.phase = .invoking lastExec →
    task.Clear settings lastExec ∧ lastExec ≤ now

theorem valid_new : TimedTask.new.Valid settings now where
  spaced := .nil
  past := by simp [TimedTask.new]
  positive := by simp [TimedTask.new]
  singleShot := by simp [TimedTask.new]
  timer := by simp [TimedTask.new]
  stopped _ := rfl
  locking := by simp [TimedTask.new]
  invoking := by simp [TimedTask.new]

theorem TaskSettings.Keeps.mono {execution : Execution} {session : Nat} {time : QDateTime}
    (keeps : settings.Keeps execution session time) (passes : time ≤ later) :
    settings.Keeps execution session later := by
  have nearer : time - execution.finished ≤ later - execution.finished :=
    Int.sub_le_sub_right passes _
  exact keeps.trans (Int.mul_le_mul_of_nonneg_left nearer (by decide))

theorem TimedTask.Clear.mono {time : QDateTime} (clear : task.Clear settings time)
    (passes : time ≤ later) : task.Clear settings later :=
  fun execution member => (clear execution member).mono passes

theorem pause_of_delivers {pause due now finished : Int} (armed : finished + pause ≤ due)
    (delivers : 20 * (due - now) ≤ pause) : 19 * pause ≤ 20 * (now - finished) := by
  omega

/-- A timer with the pause as its interval is delivered. -/
theorem keeps_of_delivers {execution : Execution} {due : QDateTime} {pause : Int}
    {session : Nat} (isPause : settings.pause execution.session session = pause)
    (armed : execution.finished + pause ≤ due) (delivers : Delivers pause due now) :
    settings.Keeps execution session now := by
  rw [TaskSettings.Keeps, isPause]
  exact pause_of_delivers armed delivers

namespace TimedTask.Valid

/-- Time passes. -/
theorem elapse (valid : task.Valid settings now) (passes : now ≤ later) :
    task.Valid settings later where
  spaced := valid.spaced
  past execution member :=
    have ⟨finished, session⟩ := valid.past execution member
    ⟨finished.trans passes, session⟩
  positive := valid.positive
  singleShot := valid.singleShot
  timer due armed busy execution member :=
    (valid.timer due armed busy execution member).imp_right fun keeps => keeps.mono passes
  stopped := valid.stopped
  locking phase := (valid.locking phase).mono passes
  invoking lastExec phase :=
    have ⟨clear, past⟩ := valid.invoking lastExec phase
    ⟨clear, past.trans passes⟩

/-- Outside of the loop no single shot is armed. -/
theorem singleShot_eq_none (valid : task.Valid settings now) (busy : task.phase ≠ .looping) :
    task.singleShot = none := by
  cases armed : task.singleShot with
  | none => rfl
  | some due => exact absurd (valid.singleShot due armed).2.1 busy

theorem run (valid : task.Valid settings now) (phase : task.phase = .stopped)
    (positive : 0 < settings.activityInterval) :
    TimedTask.Valid settings now
      { task with
        phase := .looping
        singleShot := some (now + settings.firstDelay)
        session := task.session + 1 } where
  spaced := valid.spaced
  past execution member :=
    have ⟨finished, session⟩ := valid.past execution member
    ⟨finished, Nat.le_succ_of_le session⟩
  positive _ := positive
  singleShot due armed := by
    cases armed
    refine ⟨?_, rfl, valid.stopped phase⟩
    intro execution member
    have ⟨finished, session⟩ := valid.past execution member
    exact ⟨Nat.lt_succ_of_le session, Int.add_le_add_right finished _⟩
  timer due armed _ := by
    rw [show _ = none from valid.stopped phase] at armed
    contradiction
  stopped := by simp
  locking := by simp
  invoking := by simp

/-- The single shot is delivered in a session without executions. -/
theorem clear_of_shot (valid : task.Valid settings now) {due : QDateTime}
    (armed : task.singleShot = some due) (delivers : Delivers settings.firstDelay due now) :
    task.Clear settings now := by
  intro execution member
  have ⟨earlier, waited⟩ := (valid.singleShot due armed).1 execution member
  exact keeps_of_delivers (if_neg (Nat.ne_of_lt earlier)) waited delivers

/-- The timer is delivered, after the executions of this session and of earlier ones. -/
theorem clear_of_timer (valid : task.Valid settings now) {due : QDateTime}
    (phase : task.phase = .looping) (armed : task.timer = some due)
    (delivers : Delivers settings.activityInterval due now) : task.Clear settings now := by
  intro execution member
  obtain ⟨same, waited⟩ | keeps := valid.timer due armed (by simp [phase]) execution member
  · exact keeps_of_delivers (if_pos same) waited delivers
  · exact keeps

/-- A timer is delivered. -/
theorem deliver (valid : task.Valid settings now) {timer : Option QDateTime}
    (phase : task.phase = .looping) (clear : task.Clear settings now) :
    TimedTask.Valid settings now
      { task with phase := .locking, singleShot := none, timer } where
  spaced := valid.spaced
  past := valid.past
  positive _ := valid.positive (by simp [phase])
  singleShot := by simp
  timer := by simp
  stopped := by simp
  locking _ := clear
  invoking := by simp

/-- The execution starts. -/
theorem enter (valid : task.Valid settings now) (phase : task.phase = .locking) :
    TimedTask.Valid settings now { task.timerStop with phase := .invoking now } where
  spaced := valid.spaced
  past := valid.past
  positive _ := valid.positive (by simp [phase])
  singleShot due armed := by
    have none : task.singleShot = none := valid.singleShot_eq_none (by simp [phase])
    rw [show task.singleShot = some due from armed] at none
    contradiction
  timer := by simp [timerStop]
  stopped := by simp
  locking := by simp
  invoking lastExec same := by
    cases same
    exact ⟨valid.locking phase, le_refl now⟩

/-- The execution is over, and the timer starts. -/
theorem finish (valid : task.Valid settings now) {lastExec : QDateTime}
    (phase : task.phase = .invoking lastExec) :
    TimedTask.Valid settings now
      { task.timerStart settings now with
        phase := .unlocking
        log := task.log ++ [⟨task.session, lastExec, now⟩] } := by
  have positive := valid.positive (by simp [phase])
  have none : task.singleShot = none := valid.singleShot_eq_none (by simp [phase])
  have ⟨clear, past⟩ := valid.invoking lastExec phase
  have started : task.timerStart settings now =
      { task with timer := some (now + settings.activityInterval) } := by
    simp [timerStart, timerStop, Int.not_le.mpr positive]
  rw [started]
  constructor
  · rw [List.pairwise_append]
    refine ⟨valid.spaced, List.pairwise_singleton _ _, ?_⟩
    intro execution member last isLast
    rw [List.mem_singleton.mp isLast]
    exact clear execution member
  · intro execution member
    obtain old | isLast := List.mem_append.mp member
    · exact valid.past execution old
    · rw [List.mem_singleton.mp isLast]
      exact ⟨le_refl now, Nat.le_refl _⟩
  · intro _
    exact positive
  · intro due armed
    rw [show task.singleShot = some due from armed] at none
    contradiction
  · intro due armed _
    cases armed
    intro execution member
    obtain old | isLast := List.mem_append.mp member
    · exact Or.inr ((clear execution old).mono past)
    · rw [List.mem_singleton.mp isLast]
      exact Or.inl ⟨rfl, le_refl _⟩
  · simp
  · simp
  · simp

/-- The thread returns to its loop. -/
theorem unlock (valid : task.Valid settings now) (phase : task.phase = .unlocking) :
    TimedTask.Valid settings now { task with phase := .looping } where
  spaced := valid.spaced
  past := valid.past
  positive _ := valid.positive (by simp [phase])
  singleShot due armed := by
    have none : task.singleShot = none := valid.singleShot_eq_none (by simp [phase])
    rw [show task.singleShot = some due from armed] at none
    contradiction
  timer due armed _ := valid.timer due armed (by simp [phase])
  stopped := by simp
  locking := by simp
  invoking := by simp

/-- The thread ends. -/
theorem quit (valid : task.Valid settings now) :
    TimedTask.Valid settings now
      { task.timerStop with phase := .stopped, singleShot := none } where
  spaced := valid.spaced
  past := valid.past
  positive := by simp
  singleShot := by simp
  timer := by simp [timerStop]
  stopped _ := rfl
  locking := by simp
  invoking := by simp

end TimedTask.Valid

/-- What one step of a thread keeps. -/
theorem TimerStep.valid (step : TimerStep settings synchronize self now owner task owner' after)
    (valid : task.Valid settings now) : after.Valid settings now := by
  cases step with
  | run phase positive => exact valid.run phase positive
  | shot phase armed delivers => exact valid.deliver phase (valid.clear_of_shot armed delivers)
  | @timeout _ _ due phase armed delivers =>
      have unarmed : task.singleShot = none := by
        cases shot : task.singleShot with
        | none => rfl
        | some other =>
            rw [(valid.singleShot other shot).2.2] at armed
            contradiction
      have clear := valid.clear_of_timer phase armed delivers
      have delivered : TimedTask.Valid settings now
          { task with
            phase := .locking
            singleShot := none
            timer := some (due + settings.activityInterval) } :=
        valid.deliver phase clear
      rwa [← unarmed] at delivered
  | lock phase _ | enter phase _ => exact valid.enter phase
  | finish phase => exact valid.finish phase
  | unlock phase _ | leave phase _ => exact valid.unlock phase
  | quit => exact valid.quit

/-- A step lets no synchronised task in, or it acquires the mutex, or it releases it. -/
theorem TimerStep.guard_cases
    (step : TimerStep settings synchronize self now owner task owner' after) :
    owner' = owner ∧ (synchronize = true → after.phase.Inside → task.phase.Inside) ∨
      owner = none ∧ owner' = some self ∨
        owner' = none ∧ synchronize = true ∧ task.phase.Inside ∧ ¬after.phase.Inside := by
  cases step with
  | run | shot | timeout | quit => exact Or.inl ⟨rfl, fun _ inside => absurd inside id⟩
  | leave => exact Or.inl ⟨rfl, fun _ inside => absurd inside id⟩
  | lock => exact Or.inr (Or.inl ⟨rfl, rfl⟩)
  | enter _ unsynchronized =>
      apply Or.inl
      refine ⟨rfl, fun synchronized => ?_⟩
      rw [unsynchronized] at synchronized
      contradiction
  | finish phase =>
      apply Or.inl
      refine ⟨rfl, fun _ _ => ?_⟩
      rw [phase]
      trivial
  | unlock phase synchronized =>
      refine Or.inr (Or.inr ⟨rfl, synchronized, ?_, id⟩)
      rw [phase]
      trivial

/-- What a step adds to the executions, if anything: the one that is finished now. -/
theorem TimerStep.log_cases
    (step : TimerStep settings synchronize self now owner task owner' after) :
    after.log = task.log ∨ ∃ lastExec, task.phase = .invoking lastExec ∧
      after.phase = .unlocking ∧ after.log = task.log ++ [⟨task.session, lastExec, now⟩] := by
  cases step with
  | finish phase => exact Or.inr ⟨_, phase, rfl, rfl⟩
  | run | shot | timeout | lock | enter | unlock | leave | quit => exact Or.inl rfl

/-- An execution starts when it is entered, and goes on at the same time otherwise. -/
theorem TimerStep.invoking_cases
    (step : TimerStep settings synchronize self now owner task owner' after)
    {lastExec : QDateTime} (phase : after.phase = .invoking lastExec) : lastExec = now := by
  cases step with
  | lock | enter =>
      cases phase
      rfl
  | run | shot | timeout | finish | unlock | leave | quit => contradiction

end Task

/-! ## All tasks -/

section System

variable {ι : Type} {settings : ι → TaskSettings} {synchronize : ι → Bool}
  {system after : TimerSystem ι}

/-- A synchronised task between `lock()` and `unlock()`. -/
def TimerSystem.Inside (synchronize : ι → Bool) (system : TimerSystem ι) (self : ι) : Prop :=
  synchronize self = true ∧ (system.tasks self).phase.Inside

/-- What is known of a system: the executions of different synchronised tasks lie apart,
also those that are under way. -/
structure TimerSystem.Orderly (settings : ι → TaskSettings) (synchronize : ι → Bool)
    (system : TimerSystem ι) : Prop where
  valid : ∀ self, (system.tasks self).Valid (settings self) system.now
  guarded : Guarded system.owner (system.Inside synchronize)
  apart : ∀ left right, left ≠ right → synchronize left = true → synchronize right = true →
    ∀ first ∈ (system.tasks left).log, ∀ second ∈ (system.tasks right).log,
      first.finished ≤ second.started ∨ second.finished ≤ first.started
  current : ∀ self other, other ≠ self → synchronize self = true → synchronize other = true →
    ∀ lastExec, (system.tasks self).phase = .invoking lastExec →
      ∀ execution ∈ (system.tasks other).log, execution.finished ≤ lastExec

theorem orderly_new (now : QDateTime) :
    TimerSystem.Orderly settings synchronize ⟨now, none, fun _ => .new⟩ where
  valid _ := valid_new
  guarded := fun _ inside => absurd inside.2 id
  apart := by simp [TimedTask.new]
  current := by simp [TimedTask.new]

variable [DecidableEq ι]

section Task

variable {self : ι} {owner : Option ι} {task : TimedTask}

theorem TimerSystem.Orderly.guarded_step (orderly : system.Orderly settings synchronize)
    (step : TimerStep (settings self) (synchronize self) self system.now system.owner
      (system.tasks self) owner task) :
    Guarded owner (TimerSystem.Inside synchronize
      ⟨system.now, owner, Function.update system.tasks self task⟩) := by
  have insideCases {other : ι}
      (inside : TimerSystem.Inside synchronize
        ⟨system.now, owner, Function.update system.tasks self task⟩ other) :
      other = self ∧ synchronize self = true ∧ task.phase.Inside ∨
        other ≠ self ∧ system.Inside synchronize other := by
    have ⟨synchronized, isInside⟩ := inside
    dsimp only at isInside
    by_cases same : other = self
    · subst same
      rw [Function.update_self] at isInside
      exact Or.inl ⟨rfl, synchronized, isInside⟩
    · rw [Function.update_of_ne same] at isInside
      exact Or.inr ⟨same, synchronized, isInside⟩
  obtain ⟨sameOwner, fewer⟩ | ⟨free, acquired⟩ | ⟨released, synchronized, was, outside⟩ :=
    step.guard_cases
  · rw [sameOwner]
    apply orderly.guarded.mono
    intro other inside
    obtain ⟨rfl, synchronized, isInside⟩ | ⟨_, was⟩ := insideCases inside
    · exact ⟨synchronized, fewer synchronized isInside⟩
    · exact was
  · rw [acquired]
    apply Guarded.acquire (free ▸ orderly.guarded)
    intro other inside
    obtain ⟨same, _⟩ | ⟨_, was⟩ := insideCases inside
    · exact Or.inl same
    · exact Or.inr was
  · rw [released]
    apply orderly.guarded.release ⟨synchronized, was⟩
    intro other inside
    obtain ⟨_, _, isInside⟩ | ⟨different, stays⟩ := insideCases inside
    · exact absurd isInside outside
    · exact ⟨stays, different⟩

/-- The executions after a step of a task: those before it, and the one that the task has
finished now. -/
theorem TimerStep.mem_log_cases
    (step : TimerStep (settings self) (synchronize self) self system.now system.owner
      (system.tasks self) owner task) {other : ι} {execution : Execution}
    (member : execution ∈ (Function.update system.tasks self task other).log) :
    execution ∈ (system.tasks other).log ∨
      other = self ∧ (system.tasks self).phase = .invoking execution.started ∧
        execution.finished = system.now := by
  by_cases same : other = self
  · subst same
    rw [Function.update_self] at member
    obtain unchanged | ⟨lastExec, phase, _, appended⟩ := step.log_cases
    · exact Or.inl (unchanged ▸ member)
    · rw [appended, List.mem_append, List.mem_singleton] at member
      obtain old | rfl := member
      · exact Or.inl old
      · exact Or.inr ⟨rfl, phase, rfl⟩
  · rw [Function.update_of_ne same] at member
    exact Or.inl member

theorem TimerSystem.Orderly.task_step (orderly : system.Orderly settings synchronize)
    (step : TimerStep (settings self) (synchronize self) self system.now system.owner
      (system.tasks self) owner task) :
    TimerSystem.Orderly settings synchronize
      ⟨system.now, owner, Function.update system.tasks self task⟩ where
  valid other := by
    by_cases same : other = self
    · subst same
      simpa using step.valid (orderly.valid other)
    · simpa [same] using orderly.valid other
  guarded := orderly.guarded_step step
  apart left right different leftSynchronized rightSynchronized first firstMember second
      secondMember := by
    obtain firstOld | ⟨rfl, firstPhase, _⟩ := step.mem_log_cases firstMember
    · obtain secondOld | ⟨rfl, secondPhase, _⟩ := step.mem_log_cases secondMember
      · exact orderly.apart left right different leftSynchronized rightSynchronized first
          firstOld second secondOld
      · exact Or.inl (orderly.current right left different rightSynchronized leftSynchronized
          _ secondPhase first firstOld)
    · obtain secondOld | ⟨rfl, _, _⟩ := step.mem_log_cases secondMember
      · exact Or.inr (orderly.current left right different.symm leftSynchronized
          rightSynchronized _ firstPhase second secondOld)
      · exact absurd rfl different
  current running other different synchronized otherSynchronized lastExec phase execution
      member := by
    dsimp only at phase member
    by_cases same : running = self
    · subst same
      rw [Function.update_self] at phase
      rw [step.invoking_cases phase]
      rw [Function.update_of_ne different] at member
      exact ((orderly.valid other).past execution member).1
    · rw [Function.update_of_ne same] at phase
      obtain old | ⟨rfl, otherPhase, _⟩ := step.mem_log_cases member
      · exact orderly.current running other different synchronized otherSynchronized lastExec
          phase execution old
      · -- Both would be between `lock()` and `unlock()`.
        have runningInside : system.Inside synchronize running := by
          refine ⟨synchronized, ?_⟩
          rw [phase]
          trivial
        have otherInside : system.Inside synchronize other := by
          refine ⟨otherSynchronized, ?_⟩
          rw [otherPhase]
          trivial
        exact absurd (orderly.guarded.exclusive otherInside runningInside) different

end Task

theorem TimerSystem.Orderly.step (orderly : system.Orderly settings synchronize)
    (step : TimerSystemStep settings synchronize system after) :
    after.Orderly settings synchronize := by
  cases step with
  | elapse passes =>
      exact ⟨fun self => (orderly.valid self).elapse passes, orderly.guarded, orderly.apart,
        orderly.current⟩
  | task self step => exact orderly.task_step step

theorem orderly_of_reachable (reachable : TimerReachable settings synchronize system) :
    system.Orderly settings synchronize := by
  obtain ⟨now, steps⟩ := reachable
  induction steps with
  | refl => exact orderly_new now
  | tail _ step ih => exact ih.step step

end System

/-- At whatever times the timers are delivered and however the threads interleave, the
executions keep their pauses up to the tolerance of the timers, and those of synchronised
tasks do not overlap. -/
theorem alwaysTimely {ι : Type} [DecidableEq ι] (settings : ι → TaskSettings)
    (synchronize : ι → Bool) : AlwaysTimely settings synchronize := by
  intro system reachable
  have orderly := orderly_of_reachable reachable
  exact ⟨fun self => (orderly.valid self).spaced, orderly.apart⟩

end QApr.Scheduler
