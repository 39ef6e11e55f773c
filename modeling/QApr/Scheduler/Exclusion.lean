import QApr.Library.Mutex
import QApr.Scheduler.Extension
import QApr.Scheduler.Tasks

/-!
# Exclusion of synchronised classes

A group takes its flag from the annotation of the class that opens it, and a task
copies the flag of its group.  Both copies stay faithful over all registrations,
so a method of a synchronised class only ever runs in a task that holds the mutex.
-/

namespace QApr.Scheduler

open QApr.Library QApr.Qt

variable {platform : Platform} {createUuid : Nat → QUuid}

/-! ## Flags of groups -/

/-- Every group carries the flag of its own class. -/
def Registry.Flagged (registry : Registry) : Prop :=
  ∀ group ∈ registry.heap, group.synchronize = group.metaObject.scSynchronize.getD false

/-- Groups keep their position, their class and their flag. -/
def Registry.Keeps (before after : Registry) : Prop :=
  ∀ (scope : ScopePtr) (group : SchedulerScopeGroup), before.heap[scope]? = some group →
    ∃ kept, after.heap[scope]? = some kept ∧ kept.metaObject = group.metaObject ∧
      kept.synchronize = group.synchronize

namespace Registry

theorem Extends.keeps {before after : Registry} (extended : before.Extends after) :
    before.Keeps after := by
  intro scope group stored
  have ⟨kept, keptStored, keptExtends⟩ := extended.heap scope group stored
  exact ⟨kept, keptStored, keptExtends.metaObject, keptExtends.synchronize⟩

/-- Looking a group up or creating it. -/
theorem Flagged.obtain {registry : Registry} (flagged : registry.Flagged) (uuid : QUuid)
    {group : SchedulerScopeGroup}
    (own : group.synchronize = group.metaObject.scSynchronize.getD false) :
    (registry.obtain uuid group).2.Flagged := by
  unfold Registry.obtain
  cases registry.scopeCache.lookup uuid with
  | some scope => exact flagged
  | none =>
      intro other member
      rcases List.mem_append.mp member with old | new
      · exact flagged other old
      · rw [List.mem_singleton.mp new]
        exact own

/-- Entering a method changes neither class nor flag of a group. -/
theorem Flagged.enter {registry : Registry} (flagged : registry.Flagged) (scope : ScopePtr)
    (sortName : QString) (methodIndex : Nat) :
    (registry.enter scope sortName methodIndex).Flagged :=
  forall_mem_modify (fun _ own => own) flagged

/-- One pass of the innermost loop of `reg` keeps all flags. -/
theorem Flagged.place {registry : Registry} (flagged : registry.Flagged)
    (placement : Placement) : (registry.place platform createUuid placement).Flagged := by
  let uuid := placement.scopeUuid platform createUuid registry.drawn
  let counted : Registry :=
    { registry with drawn := registry.drawn + placement.draws platform }
  have counts : counted.Flagged := flagged
  have own : (placement.newGroup platform uuid).synchronize =
      (placement.newGroup platform uuid).metaObject.scSynchronize.getD false := rfl
  exact (counts.obtain uuid own).enter _ _ _

/-- A registration keeps all flags. -/
theorem Flagged.reg {registry : Registry} (flagged : registry.Flagged)
    (metaObject : QMetaObject) :
    (Scheduler.reg platform createUuid registry metaObject).Flagged := by
  rw [reg_eq_foldl]
  apply List.foldlRecOn (motive := Registry.Flagged) _ _ flagged
  intro after stillFlagged placement _
  exact stillFlagged.place placement

end Registry

/-! ## Tasks and their groups -/

/-- A task carries the flag of its group, and executes methods of the group's class. -/
def SchedulerTask.Matches (task : SchedulerTask) (registry : Registry) : Prop :=
  ∃ group, registry.heap[task.scope]? = some group ∧
    task.synchronize = group.synchronize ∧
    ∀ scheduler method methodList, task.phase = .executing scheduler method methodList →
      scheduler.metaObject = group.metaObject

theorem SchedulerTask.Matches.mono {task : SchedulerTask} {before after : Registry}
    (matched : task.Matches before) (keeps : before.Keeps after) : task.Matches after := by
  have ⟨group, stored, flagEq, executes⟩ := matched
  have ⟨kept, keptStored, classEq, keptFlag⟩ := keeps _ group stored
  refine ⟨kept, keptStored, flagEq.trans keptFlag.symm, ?_⟩
  intro scheduler method methodList phase
  exact (executes scheduler method methodList phase).trans classEq.symm

/-- A synchronised task within its run. -/
def SchedulerTask.Inside (task : SchedulerTask) : Prop :=
  task.synchronize = true ∧ task.phase ≠ .waiting

/-- A step of a task keeps its group and its flag, and never starts a method of another
class than the group's. -/
theorem TaskStep.matches {chars : CharTable} {registry : Registry} {self : Nat}
    {ownerBefore ownerAfter : Option Nat} {before after : SchedulerTask}
    (step : TaskStep chars registry self ownerBefore before ownerAfter after)
    (matched : before.Matches registry) : after.Matches registry := by
  have ⟨group, stored, flagEq, _⟩ := matched
  cases step with
  | execute _ otherStored created =>
      refine ⟨group, stored, flagEq, ?_⟩
      intro scheduler method methodList phase
      cases phase
      cases otherStored.symm.trans stored
      rw [(QMetaObject.newScheduler_eq_some_iff.mp created).2.2]
  | _ =>
      refine ⟨group, stored, flagEq, ?_⟩
      intro _ _ _ phase
      contradiction

/-! ## The invariant of the system -/

/-- The party of a lock that is inside: a synchronised task within its run. -/
def System.Inside (system : System) (self : Nat) : Prop :=
  ∃ task, system.tasks[self]? = some task ∧ task.Inside

/-- All flags are faithful, and every synchronised task within its run holds the mutex. -/
structure System.Synchronized (system : System) : Prop where
  flagged : system.registry.Flagged
  matched : ∀ task ∈ system.tasks, task.Matches system.registry
  guarded : Guarded system.owner system.Inside

theorem synchronized_empty : System.empty.Synchronized where
  flagged := by simp [Registry.Flagged, System.empty, Registry.empty]
  matched := by simp [System.empty]
  guarded := by
    intro party inside
    rcases inside with ⟨task, found, _⟩
    simp [System.empty] at found

/-- A step of a task keeps the lock guarded. -/
theorem TaskStep.guarded {chars : CharTable} {registry : Registry} {tasks : List SchedulerTask}
    {self : Nat} {before after : SchedulerTask} {ownerBefore owner : Option Nat}
    (step : TaskStep chars registry self ownerBefore before owner after)
    (found : tasks[self]? = some before)
    (guarded : Guarded ownerBefore (insideOf tasks SchedulerTask.Inside)) :
    Guarded owner (insideOf (tasks.set self after) SchedulerTask.Inside) := by
  -- Only locking brings a task inside, and only unlocking changes the owner otherwise.
  cases step with
  | lock => exact guarded.set_acquire
  | enter phase synchronize =>
      apply guarded.set found
      intro inside
      exact absurd inside.1 (by simp [synchronize])
  | unlock phase synchronize =>
      apply guarded.set_release found ⟨synchronize, by simp [phase]⟩
      intro inside
      exact inside.2 rfl
  | leave phase synchronize =>
      apply guarded.set found
      intro inside
      exact absurd inside.1 (by simp [synchronize])
  | start phase => exact guarded.set found fun inside => ⟨inside.1, by simp [phase]⟩
  | execute phase => exact guarded.set found fun inside => ⟨inside.1, by simp [phase]⟩
  | giveUp phase => exact guarded.set found fun inside => ⟨inside.1, by simp [phase]⟩
  | executed phase => exact guarded.set found fun inside => ⟨inside.1, by simp [phase]⟩
  | finish phase => exact guarded.set found fun inside => ⟨inside.1, by simp [phase]⟩

/-- Every step keeps the invariant. -/
theorem Step.synchronized {before after : System} (step : Step platform createUuid before after)
    (invariant : before.Synchronized) : after.Synchronized := by
  cases step with
  | reg metaObject =>
      have keeps := (before.registry.extends_reg platform createUuid metaObject).keeps
      exact ⟨invariant.flagged.reg metaObject,
        fun task member => (invariant.matched task member).mono keeps, invariant.guarded⟩
  | @build scope group listed stored =>
      refine ⟨invariant.flagged, ?_, ?_⟩
      · intro task member
        rcases List.mem_append.mp member with old | new
        · exact invariant.matched task old
        · rw [List.mem_singleton.mp new]
          refine ⟨group, stored, rfl, ?_⟩
          intro _ _ _ phase
          contradiction
      · apply Guarded.concat invariant.guarded
        intro inside
        exact inside.2 rfl
  | @task self taskBefore taskAfter owner found step =>
      refine ⟨invariant.flagged, ?_, step.guarded found invariant.guarded⟩
      intro task member
      rcases List.mem_or_eq_of_mem_set member with old | rfl
      · exact invariant.matched task old
      · exact step.matches (invariant.matched _ (List.mem_of_getElem? found))

/-- The invariant holds in every reachable system. -/
theorem Reachable.synchronized {system : System}
    (reachable : Reachable platform createUuid system) : system.Synchronized := by
  induction reachable with
  | refl => exact synchronized_empty
  | tail _ step ih => exact step.synchronized ih

/-! ## Exclusion -/

/-- A task that executes a method of a synchronised class is inside the lock. -/
theorem System.Synchronized.inside {system : System} (invariant : system.Synchronized)
    {self : Nat} {job : Job} (executing : system.Executing self job)
    (annotated : job.metaObject.scSynchronize = some true) : system.Inside self := by
  have ⟨task, scheduler, methodList, found, phase, classEq⟩ := executing
  have member := List.mem_of_getElem? found
  have ⟨group, stored, flagEq, executes⟩ := invariant.matched task member
  have flag := invariant.flagged group (List.mem_of_getElem? stored)
  have groupClass : job.metaObject = group.metaObject :=
    classEq.symm.trans (executes _ _ _ phase)
  refine ⟨task, found, ?_, by simp [phase]⟩
  rw [flagEq, flag, ← groupClass, annotated]
  rfl

/-- At most one task at a time executes methods of synchronised classes. -/
def System.Exclusive (system : System) : Prop :=
  ∀ left right leftJob rightJob,
    system.Executing left leftJob → leftJob.metaObject.scSynchronize = some true →
      system.Executing right rightJob → rightJob.metaObject.scSynchronize = some true →
        left = right

/-- In no reachable system do two tasks execute methods of synchronised classes. -/
theorem exclusive_of_reachable {system : System}
    (reachable : Reachable platform createUuid system) : system.Exclusive := by
  intro left right leftJob rightJob leftExecutes leftAnnotated rightExecutes rightAnnotated
  have invariant := reachable.synchronized
  exact invariant.guarded.exclusive (invariant.inside leftExecutes leftAnnotated)
    (invariant.inside rightExecutes rightAnnotated)

/-- A synchronised class with one method in the default group. -/
def vacuumClass : QMetaObject :=
  schedulerClass "Vacuum" (some true) [scheduleMethod "vacuum" none none none]

/-- The registry with this class alone. -/
def vacuumRegistry : Registry :=
  reg .ascii (fun _ => .null) .empty vacuumClass

/-- The group of this class. -/
def vacuumGroup : SchedulerScopeGroup :=
  { SchedulerScopeGroup.new .ascii (Platform.ascii.pairUuid defaultName defaultName)
      defaultName defaultName true vacuumClass with
    methods := (∅ : QHash QString Nat).insert "default-default-b-vacuum".toList 5 }

theorem keyOrder_vacuumGroup :
    vacuumGroup.KeyOrder .ascii ["default-default-b-vacuum".toList] where
  nodup := by simp
  mem_iff key := by simp [vacuumGroup, Finmap.mem_insert, Finmap.notMem_empty]
  sorted := by simp

/-- Two tasks of the group, of which the second waits. -/
def vacuumSystem (phase : TaskPhase) (owner : Option Nat) : System where
  registry := vacuumRegistry
  tasks := [⟨0, true, phase⟩, ⟨0, true, .waiting⟩]
  owner

/-- The method of the class as a task executes it. -/
def vacuumMethod : QMetaMethod := ⟨5, scheduleMethod "vacuum" none none none⟩

theorem reachable_vacuumSystem :
    Reachable .ascii (fun _ => .null)
      (vacuumSystem (.executing ⟨vacuumClass⟩ vacuumMethod []) (some 0)) := by
  have stored : vacuumRegistry.heap[0]? = some vacuumGroup := by decide
  have listed : 0 ∈ vacuumRegistry.scopeList := by decide
  have registered : Reachable .ascii (fun _ => .null) ⟨vacuumRegistry, [], none⟩ :=
    .tail .refl (.reg .empty vacuumClass)
  have one := registered.tail (.build _ listed stored)
  have two := one.tail (.build _ listed stored)
  have built : Reachable .ascii (fun _ => .null) (vacuumSystem .waiting none) := two
  have locked : Reachable .ascii (fun _ => .null) (vacuumSystem .entered (some 0)) :=
    built.tail (@Step.task _ _ _ 0 _ _ _ rfl (.lock rfl rfl))
  have started : Reachable .ascii (fun _ => .null)
      (vacuumSystem (.invoking [vacuumMethod]) (some 0)) :=
    locked.tail (@Step.task _ _ _ 0 _ _ _ rfl (.start rfl stored keyOrder_vacuumGroup))
  exact started.tail (@Step.task _ _ _ 0 _ _ _ rfl (.execute rfl stored rfl))

/-- While the first task executes the method of the class, no other one does. -/
theorem exclusive_vacuumSystem :
    (vacuumSystem (.executing ⟨vacuumClass⟩ vacuumMethod []) (some 0)).Executing 0
        ⟨vacuumClass, vacuumMethod⟩ ∧
      (vacuumSystem (.executing ⟨vacuumClass⟩ vacuumMethod []) (some 0)).Exclusive :=
  ⟨⟨_, _, _, rfl, rfl, rfl⟩, exclusive_of_reachable reachable_vacuumSystem⟩

end QApr.Scheduler
