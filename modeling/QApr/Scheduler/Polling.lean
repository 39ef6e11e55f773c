import QApr.Qt.Thread
import Mathlib.Logic.Relation

/-!
# Waiting for a started thread

`SchedulerAgent::start` and `SchedulerTask::start` start a thread and poll until it
has an event dispatcher.  The dispatcher is there only for a while, so the module
asks whether the caller can miss it.
-/

namespace QApr.Scheduler

open QApr.Qt

/-- `SchedulerAgent::run`, for a scheduler that is enabled or not. -/
def SchedulerAgent.run (enabled : Bool) : RunBody :=
  if !enabled then .returns else .exec

/-- `SchedulerTask::run`, for a setting `activityInterval`. -/
def SchedulerTask.run (activityInterval : Int) : RunBody :=
  if activityInterval ≤ 0 then .returns else .exec

/-- Where the caller is in `start()`. -/
inductive CallerPhase where
  | idle
  /-- In `while(eventDispatcher()==nullptr)`. -/
  | polling
  | returned
  deriving DecidableEq, Repr

/-- A caller, the thread that it starts, and whether `quit()` was called on it. -/
structure Launch where
  caller : CallerPhase
  thread : ThreadPhase
  quit : Bool
  deriving DecidableEq, Repr

section Steps

variable (body : RunBody) (quits : Bool)

/-- One step of the caller, of the thread, or of another thread that calls `quit()`:
at any time where `quits` is set, otherwise after `start()` has returned. -/
inductive LaunchStep : Launch → Launch → Prop where
  | start (thread : ThreadPhase) (quit : Bool) :
      LaunchStep ⟨.idle, thread, quit⟩ ⟨.polling, thread.start, quit && thread.isRunning⟩
  | sleep {thread : ThreadPhase} (quit : Bool) (missing : thread.hasEventDispatcher = false) :
      LaunchStep ⟨.polling, thread, quit⟩ ⟨.polling, thread, quit⟩
  | found {thread : ThreadPhase} (quit : Bool) (present : thread.hasEventDispatcher = true) :
      LaunchStep ⟨.polling, thread, quit⟩ ⟨.returned, thread, quit⟩
  | install (caller : CallerPhase) (quit : Bool) :
      LaunchStep ⟨caller, .starting, quit⟩ ⟨caller, .installed, quit⟩
  | enter (caller : CallerPhase) (quit : Bool) :
      LaunchStep ⟨caller, .installed, quit⟩ ⟨caller, .running, quit⟩
  | finish (caller : CallerPhase) {quit : Bool} (leaves : body = .returns ∨ quit = true) :
      LaunchStep ⟨caller, .running, quit⟩ ⟨caller, .finished, quit⟩
  | quit {caller : CallerPhase} {thread : ThreadPhase} (quit : Bool)
      (allowed : quits = true ∨ caller = .returned) (running : thread.isRunning = true) :
      LaunchStep ⟨caller, thread, quit⟩ ⟨caller, thread, true⟩

/-- The launches that a caller can reach from a thread in any phase. -/
def LaunchReachable (launch : Launch) : Prop :=
  ∃ thread, Relation.ReflTransGen (LaunchStep body quits) ⟨.idle, thread, false⟩ launch

end Steps

/-- The caller still polls a thread that has finished. -/
def Launch.Hung (launch : Launch) : Prop :=
  launch.caller = .polling ∧ launch.thread = .finished

/-- No caller ever hangs. -/
def NeverHangs (body : RunBody) (quits : Bool) : Prop :=
  ∀ launch, LaunchReachable body quits launch → ¬launch.Hung

variable {body : RunBody} {quits : Bool}

/-- A caller that hangs does so forever. -/
theorem Launch.Hung.step {before after : Launch} (hung : before.Hung)
    (step : LaunchStep body quits before after) : after.Hung := by
  rcases hung with ⟨polling, finished⟩
  cases step with
  | sleep => exact ⟨polling, finished⟩
  | quit => exact ⟨polling, finished⟩
  | start => contradiction
  | found _ present =>
      cases finished
      contradiction
  | install => contradiction
  | enter => contradiction
  | finish => exact ⟨polling, rfl⟩

/-- Until the caller has returned, the thread was not asked to quit, and it runs while
the caller polls. -/
structure Launch.Awaited (launch : Launch) : Prop where
  noQuit : launch.caller ≠ .returned → launch.quit = false
  running : launch.caller = .polling → launch.thread.isRunning = true

theorem Launch.Awaited.step {before after : Launch} (awaited : before.Awaited)
    (step : LaunchStep .exec false before after) : after.Awaited := by
  cases step with
  | start thread quit =>
      have noQuit := awaited.noQuit (by simp)
      change quit = false at noQuit
      exact ⟨fun _ => by simp [noQuit], fun _ => thread.isRunning_start⟩
  | sleep => exact awaited
  | found => exact ⟨fun unfinished => absurd rfl unfinished, fun polling => by contradiction⟩
  | install => exact ⟨awaited.noQuit, fun _ => rfl⟩
  | enter => exact ⟨awaited.noQuit, fun _ => rfl⟩
  | finish caller leaves =>
      rcases leaves with returns | quits
      · contradiction
      · have returned : caller = .returned := by
          apply Decidable.byContradiction
          intro unfinished
          exact absurd ((awaited.noQuit unfinished).symm.trans quits) (by decide)
        subst returned
        exact ⟨fun unfinished => absurd rfl unfinished, fun polling => by contradiction⟩
  | quit _ allowed running =>
      rcases allowed with quits | returned
      · contradiction
      · subst returned
        exact ⟨fun unfinished => absurd rfl unfinished, fun polling => by contradiction⟩

theorem neverHangs_exec : NeverHangs .exec false := by
  intro launch reachable
  rcases reachable with ⟨thread, run⟩
  have awaited : launch.Awaited := by
    induction run with
    | refl => exact ⟨fun _ => rfl, fun polling => by contradiction⟩
    | tail _ step ih => exact ih.step step
  intro hung
  have running := awaited.running hung.1
  rw [hung.2] at running
  contradiction

/-- A thread that finishes between two polls is never seen. -/
theorem hangs_of_leaves {quit : Bool} (leaves : body = .returns ∨ quit = true)
    (allowed : quit = true → quits = true) : ¬NeverHangs body quits := by
  intro never
  have polled : LaunchReachable body quits ⟨.polling, .running, false⟩ := by
    refine ⟨.notStarted, ?_⟩
    have started := Relation.ReflTransGen.single
      (@LaunchStep.start body quits .notStarted false)
    exact (started.tail (.install .polling false)).tail (.enter .polling false)
  rcases polled with ⟨thread, run⟩
  cases quit with
  | false =>
      exact never _ ⟨thread, run.tail (.finish .polling (by simpa using leaves))⟩ ⟨rfl, rfl⟩
  | true =>
      have asked := run.tail (.quit false (Or.inl (allowed rfl)) rfl)
      exact never _ ⟨thread, asked.tail (.finish .polling (Or.inr rfl))⟩ ⟨rfl, rfl⟩

/-- Polling never hangs exactly when `run()` stays in `exec()` and nobody calls `quit()`
before `start()` has returned. -/
theorem neverHangs_iff : NeverHangs body quits ↔ body = .exec ∧ quits = false := by
  cases body with
  | returns =>
      apply iff_of_false
      · exact @hangs_of_leaves _ quits false (Or.inl rfl) (by simp)
      · simp
  | exec =>
      cases quits with
      | false => exact iff_of_true neverHangs_exec ⟨rfl, rfl⟩
      | true =>
          apply iff_of_false
          · exact @hangs_of_leaves _ true true (Or.inr rfl) (by simp)
          · simp

/-- `SchedulerAgent::start` and `SchedulerTask::start` never hang exactly when the
scheduler is enabled, the interval is positive, and nobody calls `quit()` before they
have returned. -/
theorem start_neverHangs_iff (enabled : Bool) (activityInterval : Int) (quits : Bool) :
    (NeverHangs (SchedulerAgent.run enabled) quits ↔ enabled = true ∧ quits = false) ∧
      (NeverHangs (SchedulerTask.run activityInterval) quits ↔
        0 < activityInterval ∧ quits = false) := by
  constructor
  · rw [neverHangs_iff]
    cases enabled <;> simp [SchedulerAgent.run]
  · rw [neverHangs_iff, SchedulerTask.run]
    split
    next none => simp [Int.not_lt.mpr none]
    next some => simp [Int.not_le.mp some]

/-- `SchedulerAgent::start` of a disabled scheduler can hang. -/
theorem not_neverHangs_disabled : ¬NeverHangs (SchedulerAgent.run false) false :=
  @hangs_of_leaves _ _ false (Or.inl rfl) (by simp)

end QApr.Scheduler
