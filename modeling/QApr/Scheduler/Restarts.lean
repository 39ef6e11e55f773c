import QApr.Library.Mutex
import QApr.Scheduler.AgentRun

/-!
# Restarts of the agent

`SchedulerAgentPvt::free` forgets its tasks and gives up on those that take longer than
a second, so that after a restart a group can have a task more.  A group runs twice at
once only when such a task is still running as the new one is built.
-/

namespace QApr.Scheduler

open QApr.Library QApr.Qt

/-- A task of a synchronised group in its run. -/
def TaskThread.Inside (task : TaskThread) : Prop :=
  task.invoking = true ∧ task.scope.synchronize = true

namespace SchedulerAgentPvt

variable (agent : SchedulerAgentPvt)

/-- A task that runs, or that the agent can still start. -/
def Live (task : TaskPtr) (thread : TaskThread) : Prop :=
  agent.threads[task]? = some thread ∧
    (thread.isRunning = true ∨ agent.tasks.lookup thread.scope.uuid = some task)

/-- Every task in a run is a running thread, and the live tasks of one group are
synchronised unless there is only one. -/
structure Separate : Prop where
  keyed : agent.Keyed
  runs : ∀ thread ∈ agent.threads, thread.invoking = true → thread.phase = .running
  apart : ∀ left leftThread right rightThread, agent.Live left leftThread →
    agent.Live right rightThread → leftThread.scope.uuid = rightThread.scope.uuid →
    left ≠ right → leftThread.scope.synchronize = true

/-- No earlier task of the group still runs, unless the mutex keeps it apart. -/
def Retired (scope : SchedulerScopeGroup) : Prop :=
  ∀ (task : TaskPtr) (thread : TaskThread), agent.threads[task]? = some thread →
    thread.scope.uuid = scope.uuid → thread.isRunning = true →
      thread.scope.synchronize = true ∧ scope.synchronize = true

variable {agent}

theorem isRunning_of_some {task : TaskPtr} {thread : TaskThread}
    (present : agent.threads[task]? = some thread) :
    agent.isRunning task = thread.isRunning := by
  rw [isRunning, present, Option.any_some]

/-- One thread advances and keeps its group. -/
theorem Keyed.set (keyed : agent.Keyed) {self : TaskPtr} {before after : TaskThread}
    (found : agent.threads[self]? = some before) (scopeEq : after.scope = before.scope)
    (calls : List TaskCall) :
    Keyed ⟨agent.tasks, agent.threads.set self after, calls⟩ := by
  intro uuid task mapped
  rcases keyed uuid task mapped with ⟨thread, present, uuidEq⟩
  by_cases same : task = self
  · subst same
    have bound := (List.getElem?_eq_some_iff.mp found).1
    cases found.symm.trans present
    exact ⟨after, List.getElem?_set_self bound, by rw [scopeEq, uuidEq]⟩
  · exact ⟨thread, by rw [List.getElem?_set_ne (Ne.symm same), present], uuidEq⟩

/-- One thread advances without becoming live. -/
theorem Separate.set (separate : agent.Separate) {self : TaskPtr} {before after : TaskThread}
    (found : agent.threads[self]? = some before) (scopeEq : after.scope = before.scope)
    (runs : after.invoking = true → after.phase = .running)
    (live : after.isRunning = true → agent.Live self before) (calls : List TaskCall) :
    Separate ⟨agent.tasks, agent.threads.set self after, calls⟩ where
  keyed := separate.keyed.set found scopeEq calls
  runs := by
    intro thread member
    rcases List.mem_or_eq_of_mem_set member with old | rfl
    · exact separate.runs thread old
    · exact runs
  apart := by
    have earlier (task : TaskPtr) (thread : TaskThread)
        (isLive : Live ⟨agent.tasks, agent.threads.set self after, calls⟩ task thread) :
        ∃ old, agent.Live task old ∧ old.scope = thread.scope := by
      rcases isLive with ⟨present, alive⟩
      rcases getElem?_set_cases present with ⟨rfl, rfl⟩ | ⟨_, unchanged⟩
      · refine ⟨before, ?_, scopeEq.symm⟩
        rcases alive with running | mapped
        · exact live running
        · exact ⟨found, Or.inr (scopeEq ▸ mapped)⟩
      · exact ⟨thread, ⟨unchanged, alive⟩, rfl⟩
    intro left leftThread right rightThread leftLive rightLive uuidEq different
    rcases earlier left leftThread leftLive with ⟨leftOld, leftOldLive, leftScope⟩
    rcases earlier right rightThread rightLive with ⟨rightOld, rightOldLive, rightScope⟩
    rw [← leftScope]
    apply separate.apart left leftOld right rightOld leftOldLive rightOldLive _ different
    rw [leftScope, rightScope, uuidEq]

/-- `tasks.clear()`. -/
theorem Separate.clear (separate : agent.Separate) : Separate { agent with tasks := ∅ } where
  keyed := by
    intro uuid task mapped
    simp at mapped
  runs := separate.runs
  apart := by
    intro left leftThread right rightThread leftLive rightLive
    have running (task : TaskPtr) (thread : TaskThread)
        (isLive : Live { agent with tasks := ∅ } task thread) : agent.Live task thread := by
      rcases isLive with ⟨present, alive⟩
      exact ⟨present, Or.inl (by simpa using alive)⟩
    exact separate.apart left leftThread right rightThread (running left leftThread leftLive)
      (running right rightThread rightLive)

/-- `quit()` on a task. -/
theorem Separate.quit (separate : agent.Separate) (task : TaskPtr) :
    (agent.quit task).Separate := by
  unfold SchedulerAgentPvt.quit
  cases found : agent.threads[task]? with
  | none =>
      rw [List.modify_eq_self (List.getElem?_eq_none_iff.mp found)]
      exact ⟨separate.keyed, separate.runs, separate.apart⟩
  | some thread =>
      rw [modify_of_some found]
      apply separate.set found thread.scope_askToQuit
      · exact separate.runs thread (List.mem_of_getElem? found)
      · intro running
        exact ⟨found, Or.inl running⟩

/-- `start()` on a task of the table that does not run. -/
theorem Separate.startTask (separate : agent.Separate) {key : QUuid} {task : TaskPtr}
    (mapped : agent.tasks.lookup key = some task) (notRunning : agent.isRunning task = false) :
    (agent.startTask task).Separate := by
  rcases separate.keyed key task mapped with ⟨thread, present, uuidEq⟩
  rw [isRunning_of_some present] at notRunning
  unfold SchedulerAgentPvt.startTask
  rw [modify_of_some present]
  apply separate.set present thread.scope_start
  · intro invoking
    have phase := separate.runs thread (List.mem_of_getElem? present) invoking
    rw [TaskThread.isRunning, phase] at notRunning
    contradiction
  · intro _
    exact ⟨present, Or.inr (by rw [uuidEq, mapped])⟩

/-- A task that is live after a new task was built for a group. -/
theorem Live.of_insert {scope : SchedulerScopeGroup} {calls : List TaskCall} {task : TaskPtr}
    {thread : TaskThread}
    (isLive : Live ⟨agent.tasks.insert scope.uuid agent.threads.length,
      agent.threads ++ [.build scope], calls⟩ task thread) :
    (task = agent.threads.length ∧ thread = .build scope) ∨
      (agent.Live task thread ∧ (thread.scope.uuid = scope.uuid → thread.isRunning = true)) := by
  rcases isLive with ⟨present, alive⟩
  rcases getElem?_concat_cases present with old | new
  · apply Or.inr
    rcases alive with running | mapped
    · exact ⟨⟨old, Or.inl running⟩, fun _ => running⟩
    · have apart : thread.scope.uuid ≠ scope.uuid := by
        -- The table leads from the uuid of the group to the new task.
        intro uuidEq
        rw [uuidEq, Finmap.lookup_insert, Option.some.injEq] at mapped
        rw [← mapped, List.getElem?_eq_none (Nat.le_refl _)] at old
        contradiction
      simp only [Finmap.lookup_insert_of_ne _ apart] at mapped
      exact ⟨⟨old, Or.inr mapped⟩, fun uuidEq => absurd uuidEq apart⟩
  · exact Or.inl new

/-- A new task for a group whose earlier tasks have retired. -/
theorem Separate.insert (separate : agent.Separate) {scope : SchedulerScopeGroup}
    (retired : agent.Retired scope) (calls : List TaskCall) :
    Separate ⟨agent.tasks.insert scope.uuid agent.threads.length,
      agent.threads ++ [.build scope], calls⟩ where
  keyed := by
    intro uuid task mapped
    by_cases same : uuid = scope.uuid
    · subst same
      simp only [Finmap.lookup_insert, Option.some.injEq] at mapped
      subst mapped
      exact ⟨_, List.getElem?_concat_length, rfl⟩
    · simp only [Finmap.lookup_insert_of_ne _ same] at mapped
      rcases separate.keyed uuid task mapped with ⟨thread, present, uuidEq⟩
      exact ⟨thread, getElem?_append_of_some present _, uuidEq⟩
  runs := by
    intro thread member
    rcases List.mem_append.mp member with old | new
    · exact separate.runs thread old
    · rw [List.mem_singleton.mp new]
      intro invoking
      contradiction
  apart := by
    intro left leftThread right rightThread leftLive rightLive uuidEq different
    rcases leftLive.of_insert with ⟨rfl, rfl⟩ | ⟨leftOld, leftRuns⟩
    · rcases rightLive.of_insert with ⟨rfl, rfl⟩ | ⟨rightOld, rightRuns⟩
      · exact absurd rfl different
      · exact (retired right rightThread rightOld.1 uuidEq.symm (rightRuns uuidEq.symm)).2
    · rcases rightLive.of_insert with ⟨rfl, rfl⟩ | ⟨rightOld, _⟩
      · exact (retired left leftThread leftOld.1 uuidEq (leftRuns uuidEq)).1
      · exact separate.apart left leftThread right rightThread leftOld rightOld uuidEq different

/-- The threads after a pass of the first loop. -/
theorem threads_create (chars : CharTable) (scopeList : List QString)
    (scope : SchedulerScopeGroup) :
    (agent.create chars scopeList scope).threads = agent.threads ∨
      (agent.create chars scopeList scope).threads = agent.threads ++ [.build scope] := by
  cases replaced : agent.replaces chars scopeList scope with
  | false => exact Or.inl (by rw [create_of_not_replaces replaced])
  | true =>
      rcases create_of_replaces replaced with ⟨made, afterEq, _⟩
      exact Or.inr (by rw [afterEq])

/-- A pass of the first loop. -/
theorem Separate.create {chars : CharTable} {scopeList : List QString}
    {scope : SchedulerScopeGroup} (separate : agent.Separate)
    (retired : agent.replaces chars scopeList scope = true → agent.Retired scope) :
    (agent.create chars scopeList scope).Separate := by
  cases replaced : agent.replaces chars scopeList scope with
  | false =>
      rw [create_of_not_replaces replaced]
      exact separate
  | true =>
      rcases create_of_replaces replaced with ⟨made, afterEq, _⟩
      rw [afterEq]
      exact separate.insert (retired replaced) _

end SchedulerAgentPvt

/-! ## The invariant of the system -/

/-- The tasks are separate, and every synchronised task in its run holds the mutex. -/
structure AgentSystem.Safe (system : AgentSystem) : Prop where
  separate : system.agent.Separate
  guarded : Guarded system.owner (insideOf system.agent.threads TaskThread.Inside)

theorem AgentSystem.safe_empty : AgentSystem.empty.Safe where
  separate := by
    refine ⟨?_, by simp [AgentSystem.empty], ?_⟩
    · intro uuid task mapped
      simp [AgentSystem.empty] at mapped
    · intro left leftThread right rightThread leftLive
      have present := leftLive.1
      simp [AgentSystem.empty] at present
  guarded := by
    intro party inside
    rcases inside with ⟨task, found, _⟩
    simp [AgentSystem.empty] at found

section Threads

variable {body : RunBody} {self : TaskPtr} {ownerBefore owner : Option TaskPtr}
  {before after : TaskThread}

theorem ThreadStep.scope_eq (step : ThreadStep body self ownerBefore before owner after) :
    after.scope = before.scope := by
  cases step <;> rfl

/-- Only a running thread advances. -/
theorem ThreadStep.isRunning (step : ThreadStep body self ownerBefore before owner after)
    (runs : before.invoking = true → before.phase = .running) : before.isRunning = true := by
  unfold TaskThread.isRunning
  cases step with
  | invoked invoking => rw [runs invoking]; rfl
  | unlock invoking => rw [runs invoking]; rfl
  | install phase => rw [phase]; rfl
  | enter phase => rw [phase]; rfl
  | invoke phase => rw [phase]; rfl
  | lock phase => rw [phase]; rfl
  | finish phase => rw [phase]; rfl

/-- A thread is in a run of its group only in `run()`. -/
theorem ThreadStep.runs (step : ThreadStep body self ownerBefore before owner after)
    (runs : before.invoking = true → before.phase = .running) :
    after.invoking = true → after.phase = .running := by
  intro invoking
  cases step with
  | install phase => exact absurd (phase.symm.trans (runs invoking)) (by decide)
  | enter phase => exact absurd (phase.symm.trans (runs invoking)) (by decide)
  | invoke phase => exact phase
  | lock phase => exact phase
  | invoked => contradiction
  | unlock => contradiction
  | finish phase idle => exact absurd (idle.symm.trans invoking) (by decide)

/-- A thread that returns from `run()` at once does not run its group. -/
theorem ThreadStep.idle (step : ThreadStep body self ownerBefore before owner after)
    (returns : body = .returns) (idle : before.invoking = false) : after.invoking = false := by
  subst returns
  cases step with
  | invoke _ exec => contradiction
  | lock _ exec => contradiction
  | invoked => rfl
  | unlock => rfl
  | install => exact idle
  | enter => exact idle
  | finish => exact idle

/-- A step of a task keeps the lock guarded. -/
theorem ThreadStep.guarded {threads : List TaskThread}
    (step : ThreadStep body self ownerBefore before owner after)
    (found : threads[self]? = some before)
    (guarded : Guarded ownerBefore (insideOf threads TaskThread.Inside)) :
    Guarded owner (insideOf (threads.set self after) TaskThread.Inside) := by
  cases step with
  | install => exact guarded.set found id
  | enter => exact guarded.set found id
  | finish => exact guarded.set found id
  | lock => exact guarded.set_acquire
  | invoke phase exec idle synchronize =>
      apply guarded.set found
      intro inside
      exact absurd inside.2 (by simp [synchronize])
  | invoked invoking synchronize =>
      apply guarded.set found
      intro inside
      exact absurd inside.1 (by simp)
  | unlock invoking synchronize =>
      apply guarded.set_release found ⟨invoking, synchronize⟩
      intro inside
      exact absurd inside.1 (by simp)

end Threads

section Steps

variable {platform : Platform} {createUuid : Nat → QUuid} {settings : AgentSettings}

/-- What a step of a system into a phase does to the tasks and the mutex. -/
inductive TasksStep (chars : CharTable) (settings : AgentSettings) (system : AgentSystem)
    (phaseAfter : AgentPhase) : SchedulerAgentPvt → Option TaskPtr → Prop where
  | none (calls : List TaskCall) :
      TasksStep chars settings system phaseAfter { system.agent with calls } system.owner
  | clear :
      TasksStep chars settings system phaseAfter { system.agent with tasks := ∅ } system.owner
  | create {scope : SchedulerScopeGroup} {scopes : List SchedulerScopeGroup}
      (phase : system.phase = .creating (scope :: scopes)) (left : phaseAfter = .creating scopes) :
      TasksStep chars settings system phaseAfter
        (system.agent.create chars settings.scope scope) system.owner
  | startTask {key : QUuid} {task : TaskPtr}
      (found : system.agent.tasks.lookup key = some task)
      (notRunning : system.agent.isRunning task = false) :
      TasksStep chars settings system phaseAfter (system.agent.startTask task) system.owner
  | quit (task : TaskPtr) :
      TasksStep chars settings system phaseAfter (system.agent.quit task) system.owner
  | thread {self : TaskPtr} {before after : TaskThread} {owner : Option TaskPtr}
      (found : system.agent.threads[self]? = some before)
      (step : ThreadStep (SchedulerTask.run settings.activityInterval) self system.owner
        before owner after) :
      TasksStep chars settings system phaseAfter
        { system.agent with threads := system.agent.threads.set self after } owner

theorem AgentStep.tasksStep {before after : AgentSystem}
    (step : AgentStep platform createUuid settings before after) :
    TasksStep platform.chars settings before after.phase after.agent after.owner := by
  cases step with
  | create phase => exact .create phase rfl
  | startTask _ found notRunning => exact .startTask found notRunning
  | leave => exact .clear
  | quitTask => exact .quit _
  | thread found step => exact .thread found step
  | _ => exact .none _

/-- The group for which a step builds a task has no earlier task that still runs, unless
the mutex keeps it apart. -/
def AgentSystem.Retired (platform : Platform) (settings : AgentSettings) (system : AgentSystem)
    (phaseAfter : AgentPhase) : Prop :=
  ∀ scope scopes, system.phase = .creating (scope :: scopes) → phaseAfter = .creating scopes →
    system.agent.replaces platform.chars settings.scope scope = true →
      system.agent.Retired scope

section Tasks

variable {system : AgentSystem} {phaseAfter : AgentPhase} {agent : SchedulerAgentPvt}
  {owner : Option TaskPtr}

theorem TasksStep.separate
    (step : TasksStep platform.chars settings system phaseAfter agent owner)
    (separate : system.agent.Separate) (retired : system.Retired platform settings phaseAfter) :
    agent.Separate := by
  cases step with
  | none => exact ⟨separate.keyed, separate.runs, separate.apart⟩
  | clear => exact separate.clear
  | create phase left => exact separate.create (retired _ _ phase left)
  | startTask found notRunning => exact separate.startTask found notRunning
  | quit task => exact separate.quit task
  | @thread self threadBefore threadAfter _ found step =>
      have runs := separate.runs threadBefore (List.mem_of_getElem? found)
      apply separate.set found step.scope_eq (step.runs runs)
      intro _
      exact ⟨found, Or.inl (step.isRunning runs)⟩

theorem TasksStep.guarded {chars : CharTable}
    (step : TasksStep chars settings system phaseAfter agent owner)
    (guarded : Guarded system.owner (insideOf system.agent.threads TaskThread.Inside)) :
    Guarded owner (insideOf agent.threads TaskThread.Inside) := by
  cases step with
  | none => exact guarded
  | clear => exact guarded
  | @create scope _ _ =>
      rcases system.agent.threads_create chars settings.scope scope with same | built
      · rw [same]
        exact guarded
      · rw [built]
        exact guarded.concat fun inside => absurd inside.1 Bool.false_ne_true
  | startTask => exact guarded.modify fun _ inside => inside
  | quit => exact guarded.modify fun _ inside => inside
  | thread found step => exact step.guarded found guarded

/-- Tasks whose interval is not positive never run a group. -/
theorem TasksStep.idle {chars : CharTable}
    (step : TasksStep chars settings system phaseAfter agent owner)
    (returns : SchedulerTask.run settings.activityInterval = .returns)
    (idle : ∀ thread ∈ system.agent.threads, thread.invoking = false) :
    ∀ thread ∈ agent.threads, thread.invoking = false := by
  cases step with
  | none => exact idle
  | clear => exact idle
  | @create scope _ _ =>
      rcases system.agent.threads_create chars settings.scope scope with same | built
      · rw [same]
        exact idle
      · rw [built]
        intro thread member
        rcases List.mem_append.mp member with old | new
        · exact idle thread old
        · rw [List.mem_singleton.mp new]
          rfl
  | startTask => exact forall_mem_modify (fun _ isIdle => isIdle) idle
  | quit => exact forall_mem_modify (fun _ isIdle => isIdle) idle
  | thread found step =>
      intro thread member
      rcases List.mem_or_eq_of_mem_set member with old | rfl
      · exact idle thread old
      · exact step.idle returns (idle _ (List.mem_of_getElem? found))

end Tasks

/-- A step that builds no task beside a late one keeps the invariant. -/
theorem AgentStep.safe {before after : AgentSystem}
    (step : AgentStep platform createUuid settings before after) (safe : before.Safe)
    (retired : before.Retired platform settings after.phase) : after.Safe where
  separate := step.tasksStep.separate safe.separate retired
  guarded := step.tasksStep.guarded safe.guarded

end Steps

/-! ## Two runs of one group -/

/-- The task is in `scope->invoke()` for the group with the uuid. -/
def AgentSystem.Invoking (system : AgentSystem) (uuid : QUuid) (task : TaskPtr) : Prop :=
  ∃ thread, system.agent.threads[task]? = some thread ∧ thread.invoking = true ∧
    thread.scope.uuid = uuid

/-- No group runs twice at once. -/
def AgentSystem.Once (system : AgentSystem) : Prop :=
  ∀ uuid left right, system.Invoking uuid left → system.Invoking uuid right → left = right

theorem AgentSystem.Safe.once {system : AgentSystem} (safe : system.Safe) : system.Once := by
  intro uuid left right leftInvoking rightInvoking
  rcases leftInvoking with ⟨leftThread, leftFound, leftRuns, leftUuid⟩
  rcases rightInvoking with ⟨rightThread, rightFound, rightRuns, rightUuid⟩
  have live {task : TaskPtr} {thread : TaskThread}
      (found : system.agent.threads[task]? = some thread) (invoking : thread.invoking = true) :
      system.agent.Live task thread := by
    have phase := safe.separate.runs thread (List.mem_of_getElem? found) invoking
    exact ⟨found, Or.inl (by rw [TaskThread.isRunning, phase]; rfl)⟩
  apply Decidable.byContradiction
  intro different
  -- Two tasks of one group are synchronised, so that both hold the mutex.
  have leftFlag := safe.separate.apart left leftThread right rightThread
    (live leftFound leftRuns) (live rightFound rightRuns) (leftUuid.trans rightUuid.symm)
    different
  have rightFlag := safe.separate.apart right rightThread left leftThread
    (live rightFound rightRuns) (live leftFound leftRuns) (rightUuid.trans leftUuid.symm)
    (Ne.symm different)
  exact different (safe.guarded.exclusive ⟨leftThread, leftFound, leftRuns, leftFlag⟩
    ⟨rightThread, rightFound, rightRuns, rightFlag⟩)

section Runs

variable (platform : Platform) (createUuid : Nat → QUuid) (settings : AgentSettings)

/-- A step that is allowed. -/
def StepWhile (allowed : AgentSystem → AgentSystem → Prop) (before after : AgentSystem) : Prop :=
  AgentStep platform createUuid settings before after ∧ allowed before after

/-- A run of steps that are all allowed. -/
def RunWhile (allowed : AgentSystem → AgentSystem → Prop) (system : AgentSystem) : Prop :=
  Relation.ReflTransGen (StepWhile platform createUuid settings allowed) .empty system

/-- The step builds no task for a group of which an earlier task still runs, except where
the mutex keeps the two apart or no task ever runs its group. -/
def NoLateTask (before after : AgentSystem) : Prop :=
  settings.activityInterval ≤ 0 ∨ before.Retired platform settings after.phase

end Runs

section Once

variable {platform : Platform} {createUuid : Nat → QUuid} {settings : AgentSettings}

/-- What is allowed is a run. -/
theorem steps_of_allowed {allowed : AgentSystem → AgentSystem → Prop} {first last : AgentSystem}
    (run : Relation.ReflTransGen (StepWhile platform createUuid settings allowed) first last) :
    Relation.ReflTransGen (AgentStep platform createUuid settings) first last := by
  induction run with
  | refl => exact .refl
  | tail _ step ih => exact ih.tail step.1

/-- As long as no task is built beside a late one, no group runs twice at once. -/
theorem once_of_noLateTask {system : AgentSystem}
    (run : RunWhile platform createUuid settings (NoLateTask platform settings) system) :
    system.Once := by
  by_cases positive : settings.activityInterval ≤ 0
  · have returns : SchedulerTask.run settings.activityInterval = .returns := if_pos positive
    have idle : ∀ thread ∈ system.agent.threads, thread.invoking = false := by
      induction run with
      | refl => simp [AgentSystem.empty]
      | tail _ step ih => exact step.1.tasksStep.idle returns ih
    intro uuid left right leftInvoking
    rcases leftInvoking with ⟨thread, found, invoking, _⟩
    rw [idle thread (List.mem_of_getElem? found)] at invoking
    contradiction
  · have safe : system.Safe := by
      induction run with
      | refl => exact AgentSystem.safe_empty
      | tail _ step ih => exact step.1.safe ih (step.2.resolve_left positive)
    exact safe.once

end Once

/-- A class that is not synchronised. -/
def archiveClass : QMetaObject :=
  schedulerClass "Archive" none [scheduleMethod "archive" none none none]

def archiveRegistry : Registry :=
  reg .ascii (fun _ => .null) .empty archiveClass

/-- The group of this class. -/
def archiveGroup : SchedulerScopeGroup :=
  { SchedulerScopeGroup.new .ascii (Platform.ascii.pairUuid defaultName defaultName)
      defaultName defaultName false archiveClass with
    methods := (∅ : QHash QString Nat).insert "default-default-b-archive".toList 5 }

def archiveSettings : AgentSettings := ⟨true, [defaultName], 1000⟩

theorem scopes_archiveRegistry : archiveRegistry.scopes = [archiveGroup] := by decide

/-- The table with a task of this group. -/
def archiveTasks (task : TaskPtr) : QHash QUuid TaskPtr :=
  (∅ : QHash QUuid TaskPtr).insert archiveGroup.uuid task

theorem iterates_archiveTasks (task : TaskPtr) :
    SchedulerAgentPvt.Iterates (archiveTasks task) [archiveGroup.uuid] := by
  refine ⟨by simp, ?_⟩
  intro key
  simp [archiveTasks, Finmap.mem_insert, Finmap.notMem_empty]

theorem create_archiveGroup (threads : List TaskThread) (calls : List TaskCall) :
    SchedulerAgentPvt.create ⟨∅, threads, calls⟩ .ascii archiveSettings.scope archiveGroup =
      ⟨archiveTasks threads.length, threads ++ [.build archiveGroup], calls⟩ := by
  have selected : archiveGroup.isScope .ascii archiveSettings.scope = true := by decide
  rw [SchedulerAgentPvt.create, selected]
  rfl

/-- The system with this class alone, in which nobody holds the mutex. -/
def archiveSystem (agent : SchedulerAgentPvt) (phase : AgentPhase) : AgentSystem where
  registry := archiveRegistry
  agent
  phase
  quit := false
  owner := none

section Archive

variable {allowed : AgentSystem → AgentSystem → Prop} {first : AgentSystem}
  {threads : List TaskThread} {calls : List TaskCall}

/-- The runs of this system. -/
abbrev ArchiveRun (allowed : AgentSystem → AgentSystem → Prop) (first : AgentSystem)
    (system : AgentSystem) : Prop :=
  Relation.ReflTransGen (StepWhile .ascii (fun _ => .null) archiveSettings allowed) first system

/-- The youngest task advances. -/
theorem run_thread {tasks : QHash QUuid TaskPtr} {phase : AgentPhase} {quit : Bool}
    {before after : TaskThread}
    (free : ∀ before after : AgentSystem, before.phase.creates = false → allowed before after)
    (creates : phase.creates = false)
    (run : ArchiveRun allowed first
      { archiveSystem ⟨tasks, threads ++ [before], calls⟩ phase with quit })
    (step : ThreadStep .exec threads.length none before none after) :
    ArchiveRun allowed first
      { archiveSystem ⟨tasks, threads ++ [after], calls⟩ phase with quit } := by
  rw [← set_concat threads before]
  exact run.tail ⟨.thread List.getElem?_concat_length step, free _ _ creates⟩

theorem run_registered
    (free : ∀ before after : AgentSystem, before.phase.creates = false → allowed before after) :
    ArchiveRun allowed .empty (archiveSystem ⟨∅, [], []⟩ .stopped) :=
  .tail .refl ⟨.reg .empty archiveClass, free _ _ rfl⟩

/-- A start of the agent gets to the first loop. -/
theorem run_creating {quit : Bool}
    (free : ∀ before after : AgentSystem, before.phase.creates = false → allowed before after)
    (run : ArchiveRun allowed first
      { archiveSystem ⟨∅, threads, calls⟩ .stopped with quit }) :
    ArchiveRun allowed first (archiveSystem ⟨∅, threads, calls⟩ (.creating [archiveGroup])) := by
  have looping : ArchiveRun allowed first (archiveSystem ⟨∅, threads, calls⟩ (.looping true)) :=
    run.tail ⟨.start rfl rfl, free _ _ rfl⟩
  rw [← scopes_archiveRegistry]
  exact looping.tail ⟨.timer rfl, free _ _ rfl⟩

/-- The agent builds a task, whatever tasks there are, and starts it. -/
theorem run_started
    (free : ∀ before after : AgentSystem, before.phase.creates = false → allowed before after)
    (building : ∀ after,
      allowed (archiveSystem ⟨∅, threads, calls⟩ (.creating [archiveGroup])) after)
    (run : ArchiveRun allowed first
      (archiveSystem ⟨∅, threads, calls⟩ (.creating [archiveGroup]))) :
    ArchiveRun allowed first
      (archiveSystem ⟨archiveTasks threads.length,
        threads ++ [⟨archiveGroup, .running, false, false⟩], calls ++ [.start threads.length]⟩
        (.looping false)) := by
  have built : ArchiveRun allowed first
      (archiveSystem ⟨archiveTasks threads.length, threads ++ [.build archiveGroup], calls⟩
        (.creating [])) := by
    rw [← create_archiveGroup]
    exact run.tail ⟨.create rfl, building _⟩
  have starting : ArchiveRun allowed first
      (archiveSystem ⟨archiveTasks threads.length, threads ++ [.build archiveGroup], calls⟩
        (.starting [archiveGroup.uuid])) :=
    built.tail ⟨.created rfl (iterates_archiveTasks _), free _ _ rfl⟩
  have polling : ArchiveRun allowed first
      (archiveSystem ⟨archiveTasks threads.length,
        threads ++ [⟨archiveGroup, .starting, false, false⟩], calls ++ [.start threads.length]⟩
        (.polling threads.length [])) := by
    have startEq : SchedulerAgentPvt.startTask
        ⟨archiveTasks threads.length, threads ++ [.build archiveGroup], calls⟩ threads.length =
        ⟨archiveTasks threads.length, threads ++ [⟨archiveGroup, .starting, false, false⟩],
          calls ++ [.start threads.length]⟩ := by
      rw [SchedulerAgentPvt.startTask, modify_of_some List.getElem?_concat_length, set_concat]
      rfl
    have present : (threads ++ [.build archiveGroup])[threads.length]? =
        some (TaskThread.build archiveGroup) :=
      List.getElem?_concat_length
    have notRunning : SchedulerAgentPvt.isRunning
        ⟨archiveTasks threads.length, threads ++ [.build archiveGroup], calls⟩ threads.length =
        false := by
      rw [SchedulerAgentPvt.isRunning_of_some present]
      rfl
    rw [← startEq]
    exact starting.tail
      ⟨.startTask rfl (Finmap.lookup_insert _) notRunning, free _ _ rfl⟩
  have installed := run_thread free rfl polling (.install rfl)
  have entered := run_thread free rfl installed (.enter rfl)
  have polled := entered.tail
    ⟨.polled rfl List.getElem?_concat_length rfl, free _ _ rfl⟩
  exact polled.tail ⟨.started rfl, free _ _ rfl⟩

/-- A start of the agent with an empty table builds a task, and the task runs its group. -/
theorem run_invoke {quit : Bool}
    (free : ∀ before after : AgentSystem, before.phase.creates = false → allowed before after)
    (building : ∀ after,
      allowed (archiveSystem ⟨∅, threads, calls⟩ (.creating [archiveGroup])) after)
    (run : ArchiveRun allowed first
      { archiveSystem ⟨∅, threads, calls⟩ .stopped with quit }) :
    ArchiveRun allowed first
      (archiveSystem ⟨archiveTasks threads.length,
        threads ++ [⟨archiveGroup, .running, false, true⟩], calls ++ [.start threads.length]⟩
        (.looping false)) := by
  have started := run_started free building (run_creating free run)
  exact run_thread free rfl started (.invoke rfl rfl rfl rfl)

/-- The thread of the agent leaves its event loop after `stop`. -/
theorem step_leave :
    AgentStep .ascii (fun _ => .null) archiveSettings
      { archiveSystem ⟨archiveTasks 0, threads, calls⟩ (.looping false) with quit := true }
      { archiveSystem ⟨∅, threads, calls⟩ (.freeing [0]) with quit := true } := by
  have values : [archiveGroup.uuid].filterMap (archiveTasks 0).lookup = [0] := by decide
  rw [← values]
  exact .leave rfl rfl (iterates_archiveTasks 0)

/-- Every step may be allowed. -/
theorem anyStep (before after : AgentSystem) (_ : before.phase.creates = false) :
    (fun _ _ : AgentSystem => True) before after :=
  trivial

end Archive

/-- The first run of the group. -/
theorem once_archiveSystem :
    (archiveSystem ⟨archiveTasks 0, [⟨archiveGroup, .running, false, true⟩], [.start 0]⟩
      (.looping false)).Invoking archiveGroup.uuid 0 ∧
    (archiveSystem ⟨archiveTasks 0, [⟨archiveGroup, .running, false, true⟩], [.start 0]⟩
      (.looping false)).Once := by
  refine ⟨⟨_, rfl, rfl, rfl⟩, ?_⟩
  apply @once_of_noLateTask .ascii (fun _ => .null) archiveSettings
  have free (before after : AgentSystem) (other : before.phase.creates = false) :
      NoLateTask .ascii archiveSettings before after := by
    apply Or.inr
    intro scope scopes phase
    rw [phase] at other
    contradiction
  apply @run_invoke _ _ [] [] false free _ (run_registered free)
  intro after
  apply Or.inr
  intro scope scopes _ _ _ task thread found
  contradiction

/-- A task that outlasts `wait(1000)` of `free` runs its group beside the task of the next
start. -/
theorem not_once_archiveSystem :
    ¬∀ system, AgentReachable .ascii (fun _ => .null) archiveSettings system →
      system.Once := by
  intro once
  have first := @run_invoke _ _ [] [] false anyStep (fun _ => trivial) (run_registered anyStep)
  have stopped := first.tail ⟨.stop _, trivial⟩
  have left := stopped.tail ⟨step_leave, trivial⟩
  have waiting := left.tail ⟨.quitTask rfl, trivial⟩
  have late := waiting.tail ⟨.timeout rfl rfl, trivial⟩
  have freed : ArchiveRun (fun _ _ => True) .empty
      { archiveSystem ⟨∅, [⟨archiveGroup, .running, true, true⟩],
          [.start 0, .quit 0, .deleteLater 0]⟩ .stopped with
        quit := true } :=
    late.tail ⟨.freed rfl, trivial⟩
  have second := run_invoke anyStep (fun _ => trivial) freed
  have same := once _ (steps_of_allowed second) archiveGroup.uuid 0 1 ⟨_, rfl, rfl, rfl⟩
    ⟨_, rfl, rfl, rfl⟩
  contradiction

end QApr.Scheduler
