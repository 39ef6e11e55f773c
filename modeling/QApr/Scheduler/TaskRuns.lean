import QApr.Library.Simulation
import QApr.Scheduler.Exclusion

/-!
# Runs of a group in the pool

A task that has entered `taskRun` comes to the end of its run by steps of its own.  From
outside it is seen only whether a task is outside of a run, in it or at its end, and who
holds the mutex.
-/

namespace QApr.Scheduler

open QApr.Library QApr.Qt Relation

/-- Where a task is with its run. -/
inductive TaskPlace where
  | outside
  | running
  | leaving
  deriving DecidableEq, Repr

/-- The place of a task of the pool. -/
def TaskPhase.place : TaskPhase → TaskPlace
  | .waiting => .outside
  | .entered | .invoking _ | .executing _ _ _ => .running
  | .finished => .leaving

/-- What is seen of the tasks: the place of each of them, and the owner of the mutex. -/
abbrev Sight := List TaskPlace × Option Nat

/-- What is seen of the pool. -/
def System.seen (pool : System) : Sight :=
  (pool.tasks.map fun task => task.phase.place, pool.owner)

/-- A step of the pool that builds no task. -/
def ServeStep (platform : Platform) (createUuid : Nat → QUuid) (before after : System) : Prop :=
  Step platform createUuid before after ∧ after.tasks.length = before.tasks.length

section Pool

variable {platform : Platform} {createUuid : Nat → QUuid} {pool middle : System} {self : Nat}
  {task after : SchedulerTask} {group : SchedulerScopeGroup}

theorem serveStep_task {owner : Option Nat} (found : pool.tasks[self]? = some task)
    (step : TaskStep platform.chars pool.registry self pool.owner task owner after) :
    ServeStep platform createUuid pool
      { pool with tasks := pool.tasks.set self after, owner } :=
  ⟨.task pool found step, List.length_set⟩

/-- A task that stays at its place. -/
theorem System.seen_set (found : pool.tasks[self]? = some task)
    (same : after.phase.place = task.phase.place) :
    System.seen { pool with tasks := pool.tasks.set self after } = pool.seen := by
  have placed : (pool.tasks.map fun task => task.phase.place)[self]? =
      some task.phase.place := by
    rw [List.getElem?_map, found, Option.map_some]
  rw [System.seen, List.map_set, same, set_of_some placed]
  rfl

/-- The pool takes steps that are not seen. -/
abbrev QuietRun (platform : Platform) (createUuid : Nat → QUuid) : System → System → Prop :=
  fun pool => History (ServeStep platform createUuid) System.seen pool []

/-- A step of a task within its run. -/
theorem quietRun_set (run : QuietRun platform createUuid pool middle)
    (found : middle.tasks[self]? = some task)
    (step : TaskStep platform.chars middle.registry self middle.owner task middle.owner after)
    (same : after.phase.place = task.phase.place) :
    QuietRun platform createUuid pool
      { middle with tasks := middle.tasks.set self after } :=
  run.quiet (serveStep_task found step) (System.seen_set found same)

/-- The task comes to the last step of its run without being seen. -/
def Finishes (platform : Platform) (createUuid : Nat → QUuid) (pool : System) (self : Nat)
    (task : SchedulerTask) : Prop :=
  ∃ middle, QuietRun platform createUuid pool middle ∧
    ServeStep platform createUuid middle
      { pool with tasks := pool.tasks.set self { task with phase := .finished } }

/-- The task is elsewhere in its run. -/
theorem Finishes.of_quiet {phase : TaskPhase}
    (run : QuietRun platform createUuid pool
      { pool with tasks := pool.tasks.set self { task with phase } })
    (finishes : Finishes platform createUuid
      { pool with tasks := pool.tasks.set self { task with phase } } self { task with phase }) :
    Finishes platform createUuid pool self task := by
  rcases finishes with ⟨middle, quiet, last⟩
  rw [List.set_set] at last
  exact ⟨middle, run.trans quiet, last⟩

/-- The loop over the methods comes to its end. -/
theorem finishes_of_invoking (found : pool.tasks[self]? = some task)
    {methodList : List QMetaMethod} (phase : task.phase = .invoking methodList)
    (stored : pool.registry.heap[task.scope]? = some group) :
    Finishes platform createUuid pool self task := by
  induction methodList generalizing pool task with
  | nil => exact ⟨pool, .start, serveStep_task found (.finish phase)⟩
  | cons method rest ih =>
      cases created : group.metaObject.newScheduler with
      | none => exact ⟨pool, .start, serveStep_task found (.giveUp phase stored created)⟩
      | some scheduler =>
          let executing : SchedulerTask := { task with phase := .executing scheduler method rest }
          let executed : SchedulerTask := { task with phase := .invoking rest }
          have isExecuting := getElem?_set_of_some found executing
          have execute : QuietRun platform createUuid pool
              { pool with tasks := pool.tasks.set self executing } :=
            quietRun_set .start found (.execute phase stored created) (by rw [phase]; rfl)
          have execution : QuietRun platform createUuid pool
              { pool with tasks := (pool.tasks.set self executing).set self executed } :=
            quietRun_set execute isExecuting (.executed rfl) rfl
          rw [List.set_set] at execution
          apply Finishes.of_quiet execution
          exact ih (getElem?_set_of_some found executed) rfl stored

/-- A task finishes its run from wherever it is in it. -/
theorem finishes_of_running (found : pool.tasks[self]? = some task)
    (running : task.phase.place = .running)
    (stored : pool.registry.heap[task.scope]? = some group) :
    Finishes platform createUuid pool self task := by
  cases phase : task.phase with
  | waiting => simp [phase, TaskPhase.place] at running
  | finished => simp [phase, TaskPhase.place] at running
  | invoking methodList => exact finishes_of_invoking found phase stored
  | entered =>
      rcases group.exists_keyOrder platform.chars with ⟨methodKeys, order⟩
      let started : SchedulerTask :=
        { task with phase := .invoking (group.methodList methodKeys) }
      have entered : QuietRun platform createUuid pool
          { pool with tasks := pool.tasks.set self started } :=
        quietRun_set .start found (.start phase stored order) (by rw [phase]; rfl)
      apply Finishes.of_quiet entered
      exact finishes_of_invoking (getElem?_set_of_some found started) rfl stored
  | executing scheduler method methodList =>
      let executed : SchedulerTask := { task with phase := .invoking methodList }
      have execution : QuietRun platform createUuid pool
          { pool with tasks := pool.tasks.set self executed } :=
        quietRun_set .start found (.executed phase) (by rw [phase]; rfl)
      apply Finishes.of_quiet execution
      exact finishes_of_invoking (getElem?_set_of_some found executed) rfl stored

/-- A task that has entered its run finishes it. -/
theorem Finishes.steps (finishes : Finishes platform createUuid pool self task) :
    ReflTransGen (Step platform createUuid) pool
      { pool with tasks := pool.tasks.set self { task with phase := .finished } } := by
  rcases finishes with ⟨middle, quiet, last⟩
  have steps : ReflTransGen (Step platform createUuid) pool middle :=
    quiet.reaches.lift id fun _ _ step => step.1
  exact steps.tail last.1

end Pool

end QApr.Scheduler
