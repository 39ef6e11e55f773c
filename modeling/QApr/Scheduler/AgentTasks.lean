import QApr.Library.Simulation
import QApr.Scheduler.Restarts
import QApr.Scheduler.TaskRuns

/-!
# The agent as a pool of tasks

The threads that the agent builds are tasks of the pool of `System`.  For the agent a run of
a group is one step into it and one step out of it; for the pool it is the whole way of
`taskRun` through the methods of the group.
-/

namespace QApr.Scheduler

open QApr.Library QApr.Qt Relation

/-- The groups that the first loop of `start` has not visited. -/
def AgentPhase.scopes : AgentPhase → List SchedulerScopeGroup
  | .creating scopes => scopes
  | .stopped | .looping _ | .starting _ | .polling _ _ | .freeing _ | .waiting _ _ => []

/-- The group is one of `scopes()`, where it may have more methods by now. -/
def Registry.Lists (registry : Registry) (group : SchedulerScopeGroup) : Prop :=
  ∃ scope ∈ registry.scopeList, ∃ now, registry.heap[scope]? = some now ∧ group.Extends now

/-- The thread is the task: of the same group, with its flag, and at the same place. -/
structure TaskThread.Shows (registry : Registry) (thread : TaskThread) (task : SchedulerTask) :
    Prop where
  group : ∃ now, registry.heap[task.scope]? = some now ∧ thread.scope.Extends now
  synchronize : task.synchronize = thread.scope.synchronize
  phase : task.phase = if thread.invoking then .entered else .waiting

/-- The threads of the agent are the tasks of a pool with the same registry and mutex. -/
structure AgentSystem.Shows (system : AgentSystem) (pool : System) : Prop where
  registry : pool.registry = system.registry
  owner : pool.owner = system.owner
  tasks : List.Forall₂ (TaskThread.Shows system.registry) system.agent.threads pool.tasks
  scopes : ∀ scope ∈ system.phase.scopes, system.registry.Lists scope

section Refines

variable (platform : Platform) (createUuid : Nat → QUuid) (settings : AgentSettings)

/-- Whatever the agent does, a pool of tasks does, so that no two threads of the agent are in
runs of synchronised classes. -/
structure AgentRefinesTasks : Prop where
  /-- A step of the agent is made up of steps of the pool. -/
  simulates : StepSimulation (AgentStep platform createUuid settings)
    (Step platform createUuid) AgentSystem.Shows
  shows : ∀ system, AgentReachable platform createUuid settings system →
    ∃ pool, Reachable platform createUuid pool ∧ system.Shows pool
  exclusive : ∀ system, AgentReachable platform createUuid settings system →
    ∀ (left right : TaskPtr) (leftThread rightThread : TaskThread),
      system.agent.threads[left]? = some leftThread → leftThread.invoking = true →
      leftThread.scope.metaObject.scSynchronize = some true →
      system.agent.threads[right]? = some rightThread → rightThread.invoking = true →
      rightThread.scope.metaObject.scSynchronize = some true → left = right

end Refines

/-! ## One step of the agent -/

section Simulate

theorem Registry.lists_of_mem_scopes {registry : Registry} {group : SchedulerScopeGroup}
    (member : group ∈ registry.scopes) : registry.Lists group := by
  rcases List.mem_filterMap.mp member with ⟨scope, listed, stored⟩
  exact ⟨scope, listed, group, stored, .refl group⟩

theorem Registry.Lists.mono {before after : Registry} (extended : before.Extends after)
    {group : SchedulerScopeGroup} (lists : before.Lists group) : after.Lists group := by
  rcases lists with ⟨scope, listed, now, stored, grown⟩
  rcases extended.heap scope now stored with ⟨kept, keptStored, keptGrown⟩
  exact ⟨scope, extended.scopeList.subset listed, kept, keptStored, grown.trans keptGrown⟩

theorem TaskThread.Shows.mono {before after : Registry} (extended : before.Extends after)
    {thread : TaskThread} {task : SchedulerTask} (shows : thread.Shows before task) :
    thread.Shows after task := by
  rcases shows.group with ⟨now, stored, grown⟩
  rcases extended.heap task.scope now stored with ⟨kept, keptStored, keptGrown⟩
  exact ⟨⟨kept, keptStored, grown.trans keptGrown⟩, shows.synchronize, shows.phase⟩

/-- A thread with the same group and in the same run. -/
theorem TaskThread.Shows.congr {registry : Registry} {before after : TaskThread}
    {task : SchedulerTask} (shows : before.Shows registry task)
    (scopeEq : after.scope = before.scope) (invokingEq : after.invoking = before.invoking) :
    after.Shows registry task where
  group := by
    rw [scopeEq]
    exact shows.group
  synchronize := by rw [scopeEq, shows.synchronize]
  phase := by rw [invokingEq, shows.phase]

section Steps

variable {platform : Platform} {createUuid : Nat → QUuid} {settings : AgentSettings}

section Threads

variable {body : RunBody} {pool : System} {self : TaskPtr} {ownerBefore owner : Option TaskPtr}
  {before after : TaskThread} {task : SchedulerTask}

/-- A task that finishes its run and leaves it. -/
theorem steps_of_leaving (owns : pool.owner = ownerBefore)
    (found : pool.tasks[self]? = some task) (entered : task.phase = .entered)
    {group : SchedulerScopeGroup} (stored : pool.registry.heap[task.scope]? = some group)
    (leave : TaskStep platform.chars pool.registry self ownerBefore
      { task with phase := .finished } owner { task with phase := .waiting }) :
    ReflTransGen (Step platform createUuid) pool
      { pool with tasks := pool.tasks.set self { task with phase := .waiting }, owner } := by
  subst owns
  let finished : SchedulerTask := { task with phase := .finished }
  have running : task.phase.place = .running := by rw [entered]; rfl
  have ran : ReflTransGen (Step platform createUuid) pool
      { pool with tasks := pool.tasks.set self finished } :=
    (finishes_of_running found running stored).steps
  have left : Step platform createUuid { pool with tasks := pool.tasks.set self finished }
      { pool with
        tasks := (pool.tasks.set self finished).set self { task with phase := .waiting }
        owner } :=
    .task { pool with tasks := pool.tasks.set self finished } (getElem?_set_of_some found finished)
      leave
  rw [List.set_set] at left
  exact ran.tail left

/-- The task advances as its thread does. -/
theorem ThreadStep.simulated (step : ThreadStep body self ownerBefore before owner after)
    (owns : pool.owner = ownerBefore) (found : pool.tasks[self]? = some task)
    (shows : before.Shows pool.registry task) :
    ∃ next : SchedulerTask, after.Shows pool.registry next ∧
      ReflTransGen (Step platform createUuid) pool
        { pool with tasks := pool.tasks.set self next, owner } := by
  -- The task stays where it is when its thread neither enters nor leaves a run.
  have stays : ReflTransGen (Step platform createUuid) pool
      { pool with tasks := pool.tasks.set self task, owner := ownerBefore } := by
    rw [set_of_some found, ← owns]
  have moves {ownerBefore owner : Option TaskPtr} {next : SchedulerTask}
      (owns : pool.owner = ownerBefore)
      (taken : TaskStep platform.chars pool.registry self ownerBefore task owner next) :
      ReflTransGen (Step platform createUuid) pool
        { pool with tasks := pool.tasks.set self next, owner } := by
    subst owns
    exact .single (.task pool found taken)
  rcases shows.group with ⟨now, stored, grown⟩
  cases step with
  | install => exact ⟨task, shows.congr rfl rfl, stays⟩
  | enter => exact ⟨task, shows.congr rfl rfl, stays⟩
  | finish => exact ⟨task, shows.congr rfl rfl, stays⟩
  | invoke _ _ idle synchronize =>
      refine ⟨{ task with phase := .entered }, ⟨shows.group, shows.synchronize, rfl⟩, ?_⟩
      have waiting : task.phase = .waiting := by rw [shows.phase, idle]; rfl
      exact moves owns (.enter waiting (shows.synchronize.trans synchronize))
  | lock _ _ idle synchronize =>
      refine ⟨{ task with phase := .entered }, ⟨shows.group, shows.synchronize, rfl⟩, ?_⟩
      have waiting : task.phase = .waiting := by rw [shows.phase, idle]; rfl
      exact moves owns (.lock waiting (shows.synchronize.trans synchronize))
  | invoked invoking synchronize =>
      refine ⟨{ task with phase := .waiting }, ⟨shows.group, shows.synchronize, rfl⟩, ?_⟩
      have entered : task.phase = .entered := by rw [shows.phase, invoking]; rfl
      exact steps_of_leaving owns found entered stored
        (.leave rfl (shows.synchronize.trans synchronize))
  | unlock invoking synchronize =>
      refine ⟨{ task with phase := .waiting }, ⟨shows.group, shows.synchronize, rfl⟩, ?_⟩
      have entered : task.phase = .entered := by rw [shows.phase, invoking]; rfl
      exact steps_of_leaving owns found entered stored
        (.unlock rfl (shows.synchronize.trans synchronize))

end Threads

namespace AgentSystem

variable {before after : AgentSystem} {pool : System}

/-- Steps that no task takes part in. -/
theorem Shows.congr (shows : before.Shows pool) (registryEq : after.registry = before.registry)
    (threadsEq : after.agent.threads = before.agent.threads) (ownerEq : after.owner = before.owner)
    (scopes : ∀ scope ∈ after.phase.scopes, before.registry.Lists scope) : after.Shows pool where
  registry := by rw [registryEq, shows.registry]
  owner := by rw [ownerEq, shows.owner]
  tasks := by
    rw [registryEq, threadsEq]
    exact shows.tasks
  scopes := by
    rw [registryEq]
    exact scopes

/-- `start()` and `quit()` on a thread leave its task where it is. -/
theorem Shows.modify (shows : before.Shows pool) (registryEq : after.registry = before.registry)
    (ownerEq : after.owner = before.owner) {self : TaskPtr} {change : TaskThread → TaskThread}
    (threadsEq : after.agent.threads = before.agent.threads.modify self change)
    (scopeEq : ∀ thread, (change thread).scope = thread.scope)
    (invokingEq : ∀ thread, (change thread).invoking = thread.invoking)
    (scopes : after.phase.scopes = []) : after.Shows pool where
  registry := by rw [registryEq, shows.registry]
  owner := by rw [ownerEq, shows.owner]
  tasks := by
    rw [registryEq, threadsEq]
    exact forall₂_modify_left shows.tasks self fun thread _ shown =>
      shown.congr (scopeEq thread) (invokingEq thread)
  scopes := by simp [scopes]

/-- A pass of the first loop of `start`. -/
theorem Shows.create (shows : before.Shows pool) {scope : SchedulerScopeGroup}
    {scopes : List SchedulerScopeGroup} (phase : before.phase = .creating (scope :: scopes)) :
    ∃ next, ReflTransGen (Step platform createUuid) pool next ∧
      AgentSystem.Shows
        { before with
          agent := before.agent.create platform.chars settings.scope scope
          phase := .creating scopes } next := by
  have pending := shows.scopes
  rw [phase] at pending
  have rest : ∀ other ∈ scopes, before.registry.Lists other :=
    fun other member => pending other (List.mem_cons_of_mem _ member)
  rcases before.agent.threads_create platform.chars settings.scope scope with same | built
  · exact ⟨pool, .refl, shows.congr rfl same rfl rest⟩
  · rcases pending scope List.mem_cons_self with ⟨pointer, listed, now, stored, grown⟩
    rw [← shows.registry] at listed stored
    refine ⟨_, .single (.build pool listed stored), shows.registry, shows.owner, ?_, rest⟩
    have shown : (TaskThread.build scope).Shows before.registry (.new pointer now) :=
      ⟨⟨now, shows.registry ▸ stored, grown⟩, grown.synchronize, rfl⟩
    change List.Forall₂ _ (before.agent.create platform.chars settings.scope scope).threads _
    rw [built]
    exact List.rel_append shows.tasks (.cons shown .nil)

end AgentSystem

/-- Every step of the agent is made up of steps of the pool. -/
theorem stepSimulation_agent :
    StepSimulation (AgentStep platform createUuid settings) (Step platform createUuid)
      AgentSystem.Shows := by
  intro before after pool step shows
  cases step with
  | reg metaObject =>
      have extended := before.registry.extends_reg platform createUuid metaObject
      refine ⟨_, .single (.reg pool metaObject), ?_, shows.owner, ?_, ?_⟩
      · change reg platform createUuid pool.registry metaObject = _
        rw [shows.registry]
      · exact shows.tasks.imp fun _ _ shown => shown.mono extended
      · intro scope member
        exact (shows.scopes scope member).mono extended
  | stop => exact ⟨pool, .refl, shows.congr rfl rfl rfl shows.scopes⟩
  | timer =>
      exact ⟨pool, .refl,
        shows.congr rfl rfl rfl fun _ member => Registry.lists_of_mem_scopes member⟩
  | create phase => exact shows.create phase
  | startTask =>
      exact ⟨pool, .refl, shows.modify rfl rfl rfl (fun _ => rfl) (fun _ => rfl) rfl⟩
  | quitTask =>
      exact ⟨pool, .refl, shows.modify rfl rfl rfl (fun _ => rfl) (fun _ => rfl) rfl⟩
  | @thread self threadBefore threadAfter owner found taken =>
      rcases forall₂_getElem? shows.tasks found with ⟨task, taskFound, shown⟩
      rw [← shows.registry] at shown
      rcases taken.simulated shows.owner taskFound shown with ⟨next, nextShown, steps⟩
      refine ⟨_, steps, shows.registry, rfl, ?_, shows.scopes⟩
      rw [shows.registry] at nextShown
      exact forall₂_set shows.tasks self nextShown
  | _ => exact ⟨pool, .refl, shows.congr rfl rfl rfl (by simp [AgentPhase.scopes])⟩

theorem shows_empty : AgentSystem.empty.Shows .empty where
  registry := rfl
  owner := rfl
  tasks := .nil
  scopes := by simp [AgentSystem.empty, AgentPhase.scopes]

/-- A thread in a run of a group of a synchronised class shows a task inside the lock. -/
theorem AgentSystem.Shows.inside {system : AgentSystem} {pool : System}
    (shows : system.Shows pool) (invariant : pool.Synchronized) {self : TaskPtr}
    {thread : TaskThread} (found : system.agent.threads[self]? = some thread)
    (invoking : thread.invoking = true)
    (annotated : thread.scope.metaObject.scSynchronize = some true) : pool.Inside self := by
  rcases forall₂_getElem? shows.tasks found with ⟨task, taskFound, shown⟩
  rcases shown.group with ⟨now, stored, grown⟩
  rw [← shows.registry] at stored
  have flag := invariant.flagged now (List.mem_of_getElem? stored)
  rw [grown.metaObject, annotated, grown.synchronize] at flag
  refine ⟨task, taskFound, shown.synchronize.trans flag, ?_⟩
  rw [shown.phase, invoking]
  simp

end Steps

end Simulate

/-! ## The agent refines the pool -/

theorem agentRefinesTasks (platform : Platform) (createUuid : Nat → QUuid)
    (settings : AgentSettings) : AgentRefinesTasks platform createUuid settings := by
  have shows : ∀ system, AgentReachable platform createUuid settings system →
      ∃ pool, Reachable platform createUuid pool ∧ system.Shows pool :=
    fun system reachable => stepSimulation_agent.reaches reachable shows_empty
  refine ⟨stepSimulation_agent, shows, ?_⟩
  intro system reachable left right leftThread rightThread leftFound leftInvoking leftAnnotated
    rightFound rightInvoking rightAnnotated
  rcases shows system reachable with ⟨pool, poolReachable, shown⟩
  have invariant := poolReachable.synchronized
  exact invariant.guarded.exclusive
    (shown.inside invariant leftFound leftInvoking leftAnnotated)
    (shown.inside invariant rightFound rightInvoking rightAnnotated)

end QApr.Scheduler
