import QApr.Scheduler.ScopeGroup
import Mathlib.Logic.Relation

/-!
# Scheduler tasks

`SchedulerTask` runs a group in a thread of its own.  The steps of
`SchedulerTaskPvt::taskRun` interleave with those of other tasks and with
registrations; a task of a synchronised group holds the global mutex
`staticMutexSynchronize` during its run.
-/

namespace QApr.Scheduler

open QApr.Library QApr.Qt

/-- Where a task is in `taskRun`. -/
inductive TaskPhase where
  /-- Between two runs, or waiting for the mutex. -/
  | waiting
  /-- After `staticMutexSynchronize->lock()`. -/
  | entered
  /-- In `scope->invoke()`, with the methods that are left. -/
  | invoking (methodList : List QMetaMethod)
  /-- In `scheduler->invoke(this, method)`. -/
  | executing (scheduler : QObject) (method : QMetaMethod) (methodList : List QMetaMethod)
  /-- After `scope->invoke()`. -/
  | finished
  deriving DecidableEq

/-- The fields of `SchedulerTaskPvt` that `taskRun` uses. -/
structure SchedulerTask where
  scope : ScopePtr
  synchronize : Bool
  phase : TaskPhase
  deriving DecidableEq

/-- The constructor of `SchedulerTaskPvt` for the group behind a pointer. -/
def SchedulerTask.new (scope : ScopePtr) (group : SchedulerScopeGroup) : SchedulerTask where
  scope
  synchronize := group.synchronize
  phase := .waiting

/-- The registry, the tasks, and the task that holds `staticMutexSynchronize`. -/
structure System where
  registry : Registry
  tasks : List SchedulerTask
  owner : Option Nat
  deriving DecidableEq

/-- The system before anything was registered. -/
def System.empty : System := ⟨.empty, [], none⟩

/-- One step of `taskRun` of the task `self`, with the owner of the mutex before and
after it. -/
inductive TaskStep (chars : CharTable) (registry : Registry) (self : Nat) :
    Option Nat → SchedulerTask → Option Nat → SchedulerTask → Prop where
  | lock {task : SchedulerTask} (phase : task.phase = .waiting)
      (synchronize : task.synchronize = true) :
      TaskStep chars registry self none task (some self) { task with phase := .entered }
  | enter {owner : Option Nat} {task : SchedulerTask} (phase : task.phase = .waiting)
      (synchronize : task.synchronize = false) :
      TaskStep chars registry self owner task owner { task with phase := .entered }
  | start {owner : Option Nat} {task : SchedulerTask} {group : SchedulerScopeGroup}
      {methodKeys : List QString} (phase : task.phase = .entered)
      (stored : registry.heap[task.scope]? = some group)
      (order : group.KeyOrder chars methodKeys) :
      TaskStep chars registry self owner task owner
        { task with phase := .invoking (group.methodList methodKeys) }
  | execute {owner : Option Nat} {task : SchedulerTask} {group : SchedulerScopeGroup}
      {method : QMetaMethod} {methodList : List QMetaMethod} {scheduler : QObject}
      (phase : task.phase = .invoking (method :: methodList))
      (stored : registry.heap[task.scope]? = some group)
      (created : group.metaObject.newScheduler = some scheduler) :
      TaskStep chars registry self owner task owner
        { task with phase := .executing scheduler method methodList }
  | giveUp {owner : Option Nat} {task : SchedulerTask} {group : SchedulerScopeGroup}
      {method : QMetaMethod} {methodList : List QMetaMethod}
      (phase : task.phase = .invoking (method :: methodList))
      (stored : registry.heap[task.scope]? = some group)
      (created : group.metaObject.newScheduler = none) :
      TaskStep chars registry self owner task owner { task with phase := .finished }
  | executed {owner : Option Nat} {task : SchedulerTask} {scheduler : QObject}
      {method : QMetaMethod} {methodList : List QMetaMethod}
      (phase : task.phase = .executing scheduler method methodList) :
      TaskStep chars registry self owner task owner
        { task with phase := .invoking methodList }
  | finish {owner : Option Nat} {task : SchedulerTask} (phase : task.phase = .invoking []) :
      TaskStep chars registry self owner task owner { task with phase := .finished }
  | unlock {owner : Option Nat} {task : SchedulerTask} (phase : task.phase = .finished)
      (synchronize : task.synchronize = true) :
      TaskStep chars registry self owner task none { task with phase := .waiting }
  | leave {owner : Option Nat} {task : SchedulerTask} (phase : task.phase = .finished)
      (synchronize : task.synchronize = false) :
      TaskStep chars registry self owner task owner { task with phase := .waiting }

section Steps

variable (platform : Platform) (createUuid : Nat → QUuid)

/-- One step of the system: a class is registered, a task is built for a group of
`scopes()`, or a task advances. -/
inductive Step : System → System → Prop where
  | reg (system : System) (metaObject : QMetaObject) :
      Step system
        { system with registry := reg platform createUuid system.registry metaObject }
  | build (system : System) {scope : ScopePtr} {group : SchedulerScopeGroup}
      (listed : scope ∈ system.registry.scopeList)
      (stored : system.registry.heap[scope]? = some group) :
      Step system { system with tasks := system.tasks ++ [.new scope group] }
  | task (system : System) {self : Nat} {before after : SchedulerTask} {owner : Option Nat}
      (found : system.tasks[self]? = some before)
      (step : TaskStep platform.chars system.registry self system.owner before owner after) :
      Step system { system with tasks := system.tasks.set self after, owner }

/-- The systems that registrations and tasks can reach. -/
def Reachable (system : System) : Prop :=
  Relation.ReflTransGen (Step platform createUuid) .empty system

end Steps

/-- A task is executing a job: it is inside the method on an instance of the class. -/
def System.Executing (system : System) (self : Nat) (job : Job) : Prop :=
  ∃ task scheduler methodList, system.tasks[self]? = some task ∧
    task.phase = .executing scheduler job.method methodList ∧
    scheduler.metaObject = job.metaObject

end QApr.Scheduler
