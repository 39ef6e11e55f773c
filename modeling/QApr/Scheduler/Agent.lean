import QApr.Qt.Thread
import QApr.Scheduler.ScopeGroup

/-!
# The scheduler agent

`SchedulerAgentPvt` keeps a task for every group it runs.  Its `start` makes two
passes: over the registered groups, to build the tasks that are missing or finished,
and over the tasks, to start those that do not run.
-/

namespace QApr.Scheduler

open QApr.Library QApr.Qt

/-- `SchedulerScopeGroup::isScope`. -/
def SchedulerScopeGroup.isScope (chars : CharTable) (group : SchedulerScopeGroup)
    (scope : List QString) : Bool :=
  if scope.isEmpty && group.scope.isEmpty then true
  else scope.any fun name => chars.folded name = chars.folded group.scope

/-- A pointer to a task, as a position in the order of construction. -/
abbrev TaskPtr := Nat

/-- A `SchedulerTask` as a thread. -/
structure TaskThread where
  scope : SchedulerScopeGroup
  phase : ThreadPhase
  /-- `quit()` was called since the thread was started. -/
  quit : Bool
  /-- In `scope->invoke()`. -/
  invoking : Bool
  deriving DecidableEq

namespace TaskThread

/-- `SchedulerTask::builder(scope).build()`. -/
def build (scope : SchedulerScopeGroup) : TaskThread := ⟨scope, .notStarted, false, false⟩

variable (task : TaskThread)

/-- `QThread::isRunning`. -/
def isRunning : Bool := task.phase.isRunning

/-- `QThread::quit`, which does nothing for a thread that does not run. -/
def askToQuit : TaskThread :=
  { task with quit := task.quit || task.isRunning }

/-- `QThread::start`, which forgets an earlier `quit()` unless the thread runs. -/
def start : TaskThread :=
  { task with phase := task.phase.start, quit := task.quit && task.isRunning }

@[simp] theorem isRunning_start : task.start.isRunning = true :=
  task.phase.isRunning_start

@[simp] theorem scope_start : task.start.scope = task.scope := rfl

@[simp] theorem scope_askToQuit : task.askToQuit.scope = task.scope := rfl

@[simp] theorem isRunning_askToQuit : task.askToQuit.isRunning = task.isRunning := rfl

/-- `quit()` on a task that does not run. -/
theorem askToQuit_of_not_running (stopped : task.isRunning = false) :
    task.askToQuit = task := by
  rw [askToQuit, stopped, Bool.or_false]

end TaskThread

/-- A call that the agent makes on a task. -/
inductive TaskCall where
  | start (task : TaskPtr)
  | quit (task : TaskPtr)
  | delete (task : TaskPtr)
  | deleteLater (task : TaskPtr)
  deriving DecidableEq, Repr

/-- The task that a call is made on. -/
def TaskCall.task : TaskCall → TaskPtr
  | start task | quit task | delete task | deleteLater task => task

/-- The tasks of `SchedulerAgentPvt`, all threads that were built, and the calls that
were made on them. -/
structure SchedulerAgentPvt where
  tasks : QHash QUuid TaskPtr
  threads : List TaskThread
  calls : List TaskCall
  deriving DecidableEq

namespace SchedulerAgentPvt

variable (agent : SchedulerAgentPvt)

/-- `isRunning()` of the task behind a pointer. -/
def isRunning (task : TaskPtr) : Bool :=
  agent.threads[task]?.any TaskThread.isRunning

/-- `quit()` on a task. -/
def quit (task : TaskPtr) : SchedulerAgentPvt :=
  { agent with
    threads := agent.threads.modify task TaskThread.askToQuit
    calls := agent.calls ++ [.quit task] }

/-- `if(task->wait(1000)) delete task; else task->deleteLater();`, where `waited` is
the result of `wait`. -/
def dispose (task : TaskPtr) (waited : Bool) : SchedulerAgentPvt :=
  { agent with calls := agent.calls ++ [if waited then .delete task else .deleteLater task] }

/-- `task=SchedulerTask::builder(scope).build(); this->tasks.insert(scope->uuid(), task);`. -/
def insertNew (scope : SchedulerScopeGroup) : SchedulerAgentPvt :=
  { agent with
    tasks := agent.tasks.insert scope.uuid agent.threads.length
    threads := agent.threads ++ [.build scope] }

/-- The body of the first loop of `start`.  The task that is quit does not run, so that
`wait` returns at once. -/
def create (chars : CharTable) (scopeList : List QString) (scope : SchedulerScopeGroup) :
    SchedulerAgentPvt :=
  if !scope.isScope chars scopeList then agent
  else
    match agent.tasks.lookup scope.uuid with
    | none => agent.insertNew scope
    | some task =>
        if agent.isRunning task then agent
        else
          let agent := agent.quit task
          (agent.dispose task (!agent.isRunning task)).insertNew scope

/-- `i.value()->start()` on a task. -/
def startTask (task : TaskPtr) : SchedulerAgentPvt :=
  { agent with
    threads := agent.threads.modify task TaskThread.start
    calls := agent.calls ++ [.start task] }

/-- The body of the second loop of `start`, for the entry under a key. -/
def resume (uuid : QUuid) : SchedulerAgentPvt :=
  match agent.tasks.lookup uuid with
  | none => agent
  | some task => if agent.isRunning task then agent else agent.startTask task

/-- The first loop of `start` over `SchedulerScopeGroup::scopes()`. -/
def createAll (chars : CharTable) (scopeList : List QString)
    (scopes : List SchedulerScopeGroup) : SchedulerAgentPvt :=
  scopes.foldl (fun agent scope => agent.create chars scopeList scope) agent

/-- The second loop of `start`, over the keys in the order of the iterator. -/
def resumeAll (keys : List QUuid) : SchedulerAgentPvt :=
  keys.foldl resume agent

/-- `SchedulerAgentPvt::start`. -/
def start (chars : CharTable) (scopeList : List QString) (scopes : List SchedulerScopeGroup)
    (keys : List QUuid) : SchedulerAgentPvt :=
  (agent.createAll chars scopeList scopes).resumeAll keys

/-- An order in which an iterator visits the entries of a hash. -/
structure Iterates (tasks : QHash QUuid TaskPtr) (keys : List QUuid) : Prop where
  nodup : keys.Nodup
  mem_iff : ∀ key, key ∈ keys ↔ key ∈ tasks

/-- The keys are the uuids of the groups of the tasks. -/
def Keyed : Prop :=
  ∀ uuid task, agent.tasks.lookup uuid = some task →
    ∃ thread, agent.threads[task]? = some thread ∧ thread.scope.uuid = uuid

end SchedulerAgentPvt

end QApr.Scheduler
