/-!
# Threads

The life of a `QThread`: after `start()` the new thread installs its event
dispatcher, enters `run()`, and clears the dispatcher when `run()` has returned.
-/

namespace QApr.Qt

/-- Where a thread is in its life. -/
inductive ThreadPhase where
  | notStarted
  /-- After `start()`, without an event dispatcher. -/
  | starting
  /-- The event dispatcher is installed. -/
  | installed
  /-- In `run()`. -/
  | running
  /-- `run()` has returned and the event dispatcher is cleared. -/
  | finished
  deriving DecidableEq, Repr

namespace ThreadPhase

/-- `QThread::eventDispatcher() != nullptr`. -/
def hasEventDispatcher : ThreadPhase → Bool
  | installed | running => true
  | _ => false

/-- `QThread::isRunning`. -/
def isRunning : ThreadPhase → Bool
  | starting | installed | running => true
  | _ => false

/-- `QThread::start`, which does nothing for a running thread. -/
def start (phase : ThreadPhase) : ThreadPhase :=
  if phase.isRunning then phase else starting

@[simp] theorem isRunning_start (phase : ThreadPhase) : phase.start.isRunning = true := by
  cases phase <;> rfl

end ThreadPhase

/-- What `run()` does: return at once, or stay in `exec()` until `quit()` is called. -/
inductive RunBody where
  | returns
  | exec
  deriving DecidableEq, Repr

end QApr.Qt
