import QApr.Scheduler.AgentStart
import QApr.Scheduler.Polling

/-!
# The agent and its tasks as threads

The thread of the agent runs `SchedulerAgentPvt::start` once after it was started and
`SchedulerAgentPvt::free` when it was stopped.  Its steps interleave with those of the
tasks, with calls of `start` and `stop`, and with registrations.
-/

namespace QApr.Scheduler

open QApr.Library QApr.Qt

/-- The settings of the agent and of the tasks. -/
structure AgentSettings where
  /-- `settingScheduler.enabled()`. -/
  enabled : Bool
  /-- `settingScheduler.scope()`. -/
  scope : List QString
  /-- `settings.activityInterval()` of every task. -/
  activityInterval : Int

/-- Where the thread of the agent is. -/
inductive AgentPhase where
  | stopped
  /-- In `exec()`, with or without the timer of `QTimer::singleShot`. -/
  | looping (timer : Bool)
  /-- In the first loop of `start`, with the groups that are left. -/
  | creating (scopes : List SchedulerScopeGroup)
  /-- In the second loop of `start`, with the keys that are left. -/
  | starting (keys : List QUuid)
  /-- In `SchedulerTask::start` of a task of the second loop. -/
  | polling (task : TaskPtr) (keys : List QUuid)
  /-- In the loop of `free`, with the tasks that are left. -/
  | freeing (tasks : List TaskPtr)
  /-- In `task->wait(1000)` of the loop of `free`. -/
  | waiting (task : TaskPtr) (tasks : List TaskPtr)
  deriving DecidableEq

/-- A pass of the first loop comes next. -/
def AgentPhase.creates : AgentPhase → Bool
  | creating (_ :: _) => true
  | _ => false

/-- The registry, the agent and its thread, and the task that holds
`staticMutexSynchronize`. -/
structure AgentSystem where
  registry : Registry
  agent : SchedulerAgentPvt
  phase : AgentPhase
  /-- `quit()` was called since the thread was started. -/
  quit : Bool
  owner : Option TaskPtr
  deriving DecidableEq

/-- The system before anything was registered or started. -/
def AgentSystem.empty : AgentSystem := ⟨.empty, ⟨∅, [], []⟩, .stopped, false, none⟩

/-- One step of the thread of the task `self`, with the owner of the mutex before and
after it.  A timer that has expired may still fire after `quit()`. -/
inductive ThreadStep (body : RunBody) (self : TaskPtr) :
    Option TaskPtr → TaskThread → Option TaskPtr → TaskThread → Prop where
  | install {owner : Option TaskPtr} {task : TaskThread} (phase : task.phase = .starting) :
      ThreadStep body self owner task owner { task with phase := .installed }
  | enter {owner : Option TaskPtr} {task : TaskThread} (phase : task.phase = .installed) :
      ThreadStep body self owner task owner { task with phase := .running }
  | invoke {owner : Option TaskPtr} {task : TaskThread} (phase : task.phase = .running)
      (exec : body = .exec) (idle : task.invoking = false)
      (synchronize : task.scope.synchronize = false) :
      ThreadStep body self owner task owner { task with invoking := true }
  | lock {task : TaskThread} (phase : task.phase = .running)
      (exec : body = .exec) (idle : task.invoking = false)
      (synchronize : task.scope.synchronize = true) :
      ThreadStep body self none task (some self) { task with invoking := true }
  | invoked {owner : Option TaskPtr} {task : TaskThread} (invoking : task.invoking = true)
      (synchronize : task.scope.synchronize = false) :
      ThreadStep body self owner task owner { task with invoking := false }
  | unlock {owner : Option TaskPtr} {task : TaskThread} (invoking : task.invoking = true)
      (synchronize : task.scope.synchronize = true) :
      ThreadStep body self owner task none { task with invoking := false }
  | finish {owner : Option TaskPtr} {task : TaskThread} (phase : task.phase = .running)
      (idle : task.invoking = false) (leaves : body = .returns ∨ task.quit = true) :
      ThreadStep body self owner task owner { task with phase := .finished }

section Steps

variable (platform : Platform) (createUuid : Nat → QUuid) (settings : AgentSettings)

/-- One step of the system: a class is registered, `SchedulerAgent::start` or `stop` is
called, the thread of the agent advances, or a task does.  A disabled agent returns from
`run()` at once. -/
inductive AgentStep : AgentSystem → AgentSystem → Prop where
  | reg (system : AgentSystem) (metaObject : QMetaObject) :
      AgentStep system
        { system with registry := reg platform createUuid system.registry metaObject }
  | start {system : AgentSystem} (phase : system.phase = .stopped)
      (exec : SchedulerAgent.run settings.enabled = .exec) :
      AgentStep system { system with phase := .looping true, quit := false }
  | stop (system : AgentSystem) : AgentStep system { system with quit := true }
  | timer {system : AgentSystem} (phase : system.phase = .looping true) :
      AgentStep system { system with phase := .creating system.registry.scopes }
  | create {system : AgentSystem} {scope : SchedulerScopeGroup}
      {scopes : List SchedulerScopeGroup} (phase : system.phase = .creating (scope :: scopes)) :
      AgentStep system
        { system with
          agent := system.agent.create platform.chars settings.scope scope
          phase := .creating scopes }
  | created {system : AgentSystem} {keys : List QUuid} (phase : system.phase = .creating [])
      (iterates : SchedulerAgentPvt.Iterates system.agent.tasks keys) :
      AgentStep system { system with phase := .starting keys }
  | startTask {system : AgentSystem} {key : QUuid} {keys : List QUuid} {task : TaskPtr}
      (phase : system.phase = .starting (key :: keys))
      (found : system.agent.tasks.lookup key = some task)
      (notRunning : system.agent.isRunning task = false) :
      AgentStep system
        { system with agent := system.agent.startTask task, phase := .polling task keys }
  | polled {system : AgentSystem} {keys : List QUuid} {task : TaskPtr} {thread : TaskThread}
      (phase : system.phase = .polling task keys)
      (present : system.agent.threads[task]? = some thread)
      (dispatches : thread.phase.hasEventDispatcher = true) :
      AgentStep system { system with phase := .starting keys }
  | skip {system : AgentSystem} {key : QUuid} {keys : List QUuid} {task : TaskPtr}
      (phase : system.phase = .starting (key :: keys))
      (found : system.agent.tasks.lookup key = some task)
      (running : system.agent.isRunning task = true) :
      AgentStep system { system with phase := .starting keys }
  | started {system : AgentSystem} (phase : system.phase = .starting []) :
      AgentStep system { system with phase := .looping false }
  | leave {system : AgentSystem} {timer : Bool} {keys : List QUuid}
      (phase : system.phase = .looping timer) (quit : system.quit = true)
      (iterates : SchedulerAgentPvt.Iterates system.agent.tasks keys) :
      AgentStep system
        { system with
          agent := { system.agent with tasks := ∅ }
          phase := .freeing (keys.filterMap system.agent.tasks.lookup) }
  | quitTask {system : AgentSystem} {task : TaskPtr} {tasks : List TaskPtr}
      (phase : system.phase = .freeing (task :: tasks)) :
      AgentStep system
        { system with agent := system.agent.quit task, phase := .waiting task tasks }
  | waited {system : AgentSystem} {task : TaskPtr} {tasks : List TaskPtr}
      (phase : system.phase = .waiting task tasks)
      (notRunning : system.agent.isRunning task = false) :
      AgentStep system
        { system with agent := system.agent.dispose task true, phase := .freeing tasks }
  | timeout {system : AgentSystem} {task : TaskPtr} {tasks : List TaskPtr}
      (phase : system.phase = .waiting task tasks)
      (running : system.agent.isRunning task = true) :
      AgentStep system
        { system with agent := system.agent.dispose task false, phase := .freeing tasks }
  | freed {system : AgentSystem} (phase : system.phase = .freeing []) :
      AgentStep system { system with phase := .stopped }
  | thread {system : AgentSystem} {self : TaskPtr} {before after : TaskThread}
      {owner : Option TaskPtr} (found : system.agent.threads[self]? = some before)
      (step : ThreadStep (SchedulerTask.run settings.activityInterval) self system.owner
        before owner after) :
      AgentStep system
        { system with
          agent := { system.agent with threads := system.agent.threads.set self after }
          owner }

/-- The systems that every sequence of calls and every interleaving can reach. -/
def AgentReachable (system : AgentSystem) : Prop :=
  Relation.ReflTransGen (AgentStep platform createUuid settings) .empty system

end Steps

end QApr.Scheduler
