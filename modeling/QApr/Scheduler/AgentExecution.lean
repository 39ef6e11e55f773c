import QApr.Scheduler.AgentLiveness

/-!
# What the tasks achieve

While the agent serves, a task without the mutex runs its group again and again, and one
of the tasks that share the mutex gets it.  The mutex is never lost.
-/

namespace QApr.Scheduler

open QApr.Library QApr.Qt

/-- How far a thread is from the loop in which it runs its group. -/
def TaskThread.distance (thread : TaskThread) : ℕ :=
  match thread.phase with
  | .starting => 3
  | .installed => 2
  | .running => 1
  | .notStarted | .finished => 0

namespace AgentSystem

variable (system : AgentSystem)

/-- The distance of the thread of a task. -/
def distance (task : TaskPtr) : ℕ :=
  (system.agent.threads[task]?).elim 0 TaskThread.distance

/-- The agent serves, and has a task for a group with or without the mutex. -/
def Serves (synchronize : Bool) (uuid : QUuid) (task : TaskPtr) : Prop :=
  system.phase = .looping false ∧ system.agent.tasks.lookup uuid = some task ∧
    ∃ thread, system.agent.threads[task]? = some thread ∧
      thread.scope.synchronize = synchronize

/-- A task is in a run of its group. -/
def Busy (task : TaskPtr) : Prop :=
  ∃ thread, system.agent.threads[task]? = some thread ∧ thread.invoking = true

/-- The task with the mutex is in a run of its group. -/
def Held : Prop :=
  ∀ task, system.owner = some task → insideOf system.agent.threads TaskThread.Inside task

end AgentSystem

section Threads

variable {self : TaskPtr} {ownerBefore owner : Option TaskPtr} {before after : TaskThread}

/-- A thread in a run of its group leaves it with its next step. -/
theorem ThreadStep.leaves {body : RunBody}
    (step : ThreadStep body self ownerBefore before owner after)
    (runs : before.invoking = true → before.phase = .running) (busy : before.invoking = true) :
    after.invoking = false ∧ (owner = none ∨
      before.scope.synchronize = false ∧ owner = ownerBefore) := by
  cases step with
  | install phase => exact absurd (phase.symm.trans (runs busy)) (by decide)
  | enter phase => exact absurd (phase.symm.trans (runs busy)) (by decide)
  | invoke _ _ idle => exact absurd (idle.symm.trans busy) Bool.false_ne_true
  | lock _ _ idle => exact absurd (idle.symm.trans busy) Bool.false_ne_true
  | finish _ idle => exact absurd (idle.symm.trans busy) Bool.false_ne_true
  | invoked _ synchronize => exact ⟨rfl, Or.inr ⟨synchronize, rfl⟩⟩
  | unlock => exact ⟨rfl, Or.inl rfl⟩

/-- A thread outside a run takes the mutex or leaves it to its owner. -/
theorem ThreadStep.owner_cases {body : RunBody}
    (step : ThreadStep body self ownerBefore before owner after)
    (idle : before.invoking = false) :
    owner = ownerBefore ∨ owner = some self ∧ after.Inside := by
  cases step with
  | install => exact Or.inl rfl
  | enter => exact Or.inl rfl
  | invoke => exact Or.inl rfl
  | finish => exact Or.inl rfl
  | lock _ _ _ synchronize => exact Or.inr ⟨rfl, rfl, synchronize⟩
  | invoked busy => exact absurd (idle.symm.trans busy) Bool.false_ne_true
  | unlock busy => exact absurd (idle.symm.trans busy) Bool.false_ne_true

/-- A thread outside a run that was not asked to quit comes closer to the next one, or
begins it. -/
theorem ThreadStep.approaches (step : ThreadStep .exec self ownerBefore before owner after)
    (noQuit : before.quit = false) (idle : before.invoking = false) :
    after.invoking = true ∨ after.invoking = false ∧ after.distance < before.distance := by
  cases step with
  | install phase => exact Or.inr ⟨idle, by simp [TaskThread.distance, phase]⟩
  | enter phase => exact Or.inr ⟨idle, by simp [TaskThread.distance, phase]⟩
  | invoke => exact Or.inl rfl
  | lock => exact Or.inl rfl
  | invoked busy => exact absurd (idle.symm.trans busy) Bool.false_ne_true
  | unlock busy => exact absurd (idle.symm.trans busy) Bool.false_ne_true
  | finish _ _ leaves =>
      rcases leaves with returns | quits
      · contradiction
      · exact absurd (noQuit.symm.trans quits) Bool.false_ne_true

end Threads

section Steps

variable {platform : Platform} {createUuid : Nat → QUuid} {settings : AgentSettings}
  {before after : AgentSystem}

/-! ## The mutex -/

theorem TasksStep.held {chars : CharTable} {system : AgentSystem} {phaseAfter : AgentPhase}
    {agent : SchedulerAgentPvt} {owner : Option TaskPtr}
    (step : TasksStep chars settings system phaseAfter agent owner)
    (runs : ∀ thread ∈ system.agent.threads, thread.invoking = true → thread.phase = .running)
    (held : system.Held) :
    ∀ task, owner = some task → insideOf agent.threads TaskThread.Inside task := by
  intro task owns
  cases step with
  | none => exact held task owns
  | clear => exact held task owns
  | @create scope _ _ =>
      rcases system.agent.threads_create chars settings.scope scope with same | built
      · rw [same]
        exact held task owns
      · rw [built]
        exact (held task owns).concat
  | startTask => exact (held task owns).modify fun _ inside => inside
  | quit => exact (held task owns).modify fun _ inside => inside
  | @thread self threadBefore threadAfter _ found step =>
      have bound := (List.getElem?_eq_some_iff.mp found).1
      cases busy : threadBefore.invoking with
      | false =>
          rcases step.owner_cases busy with same | ⟨taken, inside⟩
          · have inside := held task (same.symm.trans owns)
            by_cases isSelf : task = self
            · -- The owner is in a run, which this task is not.
              subst isSelf
              rcases inside with ⟨thread, present, isInside⟩
              cases found.symm.trans present
              exact absurd (busy.symm.trans isInside.1) Bool.false_ne_true
            · exact inside.set isSelf
          · cases taken.symm.trans owns
            exact ⟨threadAfter, List.getElem?_set_self bound, inside⟩
      | true =>
          have isRunning := runs threadBefore (List.mem_of_getElem? found)
          rcases (step.leaves isRunning busy).2 with free | ⟨synchronize, same⟩
          · exact absurd (free.symm.trans owns) (Option.some_ne_none task).symm
          · have inside := held task (same.symm.trans owns)
            by_cases isSelf : task = self
            · subst isSelf
              rcases inside with ⟨thread, present, isInside⟩
              cases found.symm.trans present
              exact absurd (synchronize.symm.trans isInside.2) Bool.false_ne_true
            · exact inside.set isSelf

theorem AgentReachable.held {system : AgentSystem}
    (reachable : AgentReachable platform createUuid settings system) : system.Held := by
  induction reachable with
  | refl =>
      intro task owns
      contradiction
  | tail reachable step ih =>
      have owned := AgentReachable.owned reachable
      exact step.tasksStep.held owned.owns.runs ih

/-! ## Executions -/

/-- A step of a serving system: the agent leaves, a task advances, or neither. -/
theorem AgentStep.serving_cases (step : AgentStep platform createUuid settings before after)
    (serving : before.phase = .looping false) :
    after.phase ≠ .looping false ∨
      after.phase = .looping false ∧ after.agent.tasks = before.agent.tasks ∧
        ((after.agent.threads = before.agent.threads ∧ after.owner = before.owner) ∨
          ∃ self threadBefore threadAfter, before.agent.threads[self]? = some threadBefore ∧
            ThreadStep (SchedulerTask.run settings.activityInterval) self before.owner
              threadBefore after.owner threadAfter ∧
            after.agent.threads = before.agent.threads.set self threadAfter) := by
  cases step with
  | reg => exact Or.inr ⟨serving, rfl, Or.inl ⟨rfl, rfl⟩⟩
  | stop => exact Or.inr ⟨serving, rfl, Or.inl ⟨rfl, rfl⟩⟩
  | thread found taken => exact Or.inr ⟨serving, rfl, Or.inr ⟨_, _, _, found, taken, rfl⟩⟩
  | start phase => simp [phase] at serving
  | timer phase => simp [phase] at serving
  | create phase => simp [phase] at serving
  | created phase => simp [phase] at serving
  | startTask phase => simp [phase] at serving
  | polled phase => simp [phase] at serving
  | skip phase => simp [phase] at serving
  | started phase => simp [phase] at serving
  | leave => exact Or.inl (by simp)
  | quitTask phase => simp [phase] at serving
  | waited phase => simp [phase] at serving
  | timeout phase => simp [phase] at serving
  | freed phase => simp [phase] at serving

theorem AgentReachable.guarded {system : AgentSystem}
    (reachable : AgentReachable platform createUuid settings system) :
    Guarded system.owner (insideOf system.agent.threads TaskThread.Inside) := by
  induction reachable with
  | refl => exact AgentSystem.safe_empty.guarded
  | tail _ step ih => exact step.tasksStep.guarded ih

namespace AgentSystem

variable {synchronize : Bool} {uuid : QUuid} {task : TaskPtr}

/-- The wait of a task is over: it runs its group, somebody has the mutex that it needs, or
the agent leaves. -/
def Gets (system : AgentSystem) (synchronize : Bool) (task : TaskPtr) : Prop :=
  system.phase ≠ .looping false ∨
    match synchronize with
    | false => system.Busy task
    | true => system.owner ≠ none

/-- A task that runs its group has got what it waits for. -/
theorem gets_of_busy {system : AgentSystem} {thread : TaskThread}
    (reachable : AgentReachable platform createUuid settings system)
    (present : system.agent.threads[task]? = some thread)
    (synchronized : thread.scope.synchronize = synchronize) (busy : thread.invoking = true) :
    system.Gets synchronize task := by
  apply Or.inr
  cases synchronize with
  | false => exact ⟨thread, present, busy⟩
  | true =>
      have owner := reachable.guarded task ⟨thread, present, busy, synchronized⟩
      change system.owner ≠ none
      rw [owner]
      exact Option.some_ne_none task

/-- A task of a serving agent outside its run. -/
structure Waits (platform : Platform) (createUuid : Nat → QUuid) (settings : AgentSettings)
    (synchronize : Bool) (uuid : QUuid) (task : TaskPtr) (system : AgentSystem) : Prop where
  reachable : AgentReachable platform createUuid settings system
  serves : system.Serves synchronize uuid task
  waiting : ¬system.Gets synchronize task

/-- A task that waits is a running thread of its group, and was not asked to quit. -/
theorem Waits.thread (positive : 0 < settings.activityInterval)
    (waits : before.Waits platform createUuid settings synchronize uuid task) :
    ∃ thread, before.agent.threads[task]? = some thread ∧
      thread.scope.synchronize = synchronize ∧ thread.quit = false ∧
      thread.invoking = false ∧ thread.isRunning = true := by
  rcases waits.serves with ⟨serving, mapped, thread, present, synchronized⟩
  have attended := waits.reachable.attended positive
  rcases attended.noQuit task ⟨uuid, mapped⟩ with ⟨same, here, noQuit⟩
  cases here.symm.trans present
  refine ⟨thread, present, synchronized, noQuit, ?_, ?_⟩
  · cases busy : thread.invoking with
    | false => rfl
    | true => exact absurd (gets_of_busy waits.reachable present synchronized busy) waits.waiting
  · have visited := attended.visited
    rw [serving] at visited
    rcases visited rfl uuid task mapped with left | running
    · contradiction
    · rwa [SchedulerAgentPvt.isRunning_of_some present] at running

/-- A step of the task itself brings it closer to its run. -/
theorem Waits.own_step (positive : 0 < settings.activityInterval)
    (waits : before.Waits platform createUuid settings synchronize uuid task)
    {threadBefore threadAfter : TaskThread} {owner : Option TaskPtr}
    (found : before.agent.threads[task]? = some threadBefore)
    (step : ThreadStep (SchedulerTask.run settings.activityInterval) task before.owner
      threadBefore owner threadAfter)
    (reachable : AgentReachable platform createUuid settings after)
    (threadsEq : after.agent.threads = before.agent.threads.set task threadAfter)
    (waiting : ¬after.Gets synchronize task) : after.distance task < before.distance task := by
  rcases waits.thread positive with ⟨thread, present, synchronized, noQuit, idle, _⟩
  cases found.symm.trans present
  have bound := (List.getElem?_eq_some_iff.mp found).1
  have presentAfter : after.agent.threads[task]? = some threadAfter := by
    rw [threadsEq, List.getElem?_set_self bound]
  have exec : SchedulerTask.run settings.activityInterval = .exec :=
    if_neg (Int.not_le.mpr positive)
  rw [exec] at step
  rw [← step.scope_eq] at synchronized
  rcases step.approaches noQuit idle with busy | ⟨_, closer⟩
  · exact absurd (gets_of_busy reachable presentAfter synchronized busy) waiting
  · rw [distance, distance, presentAfter, found]
    exact closer

/-- No step takes a task further from its run. -/
theorem Waits.step (positive : 0 < settings.activityInterval)
    (waits : before.Waits platform createUuid settings synchronize uuid task)
    (step : AgentStep platform createUuid settings before after)
    (waiting : ¬after.Gets synchronize task) :
    after.Waits platform createUuid settings synchronize uuid task ∧
      (after.distance task < before.distance task ∨
        after.distance task = before.distance task) := by
  have reachable := waits.reachable.tail step
  rcases waits.serves with ⟨serving, mapped, thread, present, synchronized⟩
  rcases step.serving_cases serving with leaves | ⟨servingAfter, tasksEq, unchanged | moved⟩
  · exact absurd (Or.inl leaves) waiting
  · have same : after.agent.threads[task]? = before.agent.threads[task]? := by
      rw [unchanged.1]
    refine ⟨⟨reachable, ⟨servingAfter, by rw [tasksEq, mapped], thread, ?_, synchronized⟩,
      waiting⟩, Or.inr ?_⟩
    · rw [same, present]
    · rw [distance, distance, same]
  · rcases moved with ⟨self, threadBefore, threadAfter, found, taken, threadsEq⟩
    by_cases isSelf : self = task
    · subst isSelf
      cases found.symm.trans present
      have bound := (List.getElem?_eq_some_iff.mp found).1
      refine ⟨⟨reachable, ⟨servingAfter, by rw [tasksEq, mapped], threadAfter, ?_, ?_⟩,
        waiting⟩, Or.inl (waits.own_step positive found taken reachable threadsEq waiting)⟩
      · rw [threadsEq, List.getElem?_set_self bound]
      · rw [taken.scope_eq, synchronized]
    · have same : after.agent.threads[task]? = before.agent.threads[task]? := by
        rw [threadsEq, List.getElem?_set_ne isSelf]
      refine ⟨⟨reachable, ⟨servingAfter, by rw [tasksEq, mapped], thread, ?_, synchronized⟩,
        waiting⟩, Or.inr ?_⟩
      · rw [same, present]
      · rw [distance, distance, same]

/-- A task that waits can move. -/
theorem Waits.exists_moves (positive : 0 < settings.activityInterval)
    (waits : before.Waits platform createUuid settings synchronize uuid task) :
    ∃ after, Moves platform createUuid settings (some task) before after := by
  rcases waits.thread positive with ⟨thread, present, synchronized, _, idle, running⟩
  have exec : SchedulerTask.run settings.activityInterval = .exec :=
    if_neg (Int.not_le.mpr positive)
  have moves {threadAfter : TaskThread} {owner : Option TaskPtr}
      (step : ThreadStep (SchedulerTask.run settings.activityInterval) task before.owner
        thread owner threadAfter) :
      ∃ after, Moves platform createUuid settings (some task) before after :=
    ⟨_, thread, threadAfter, owner, present, step, rfl⟩
  rw [TaskThread.isRunning] at running
  cases phase : thread.phase with
  | starting => exact moves (.install phase)
  | installed => exact moves (.enter phase)
  | notStarted => simp [phase, ThreadPhase.isRunning] at running
  | finished => simp [phase, ThreadPhase.isRunning] at running
  | running =>
      cases synchronize with
      | false => exact moves (.invoke phase exec idle synchronized)
      | true =>
          have free : before.owner = none := by
            cases owner : before.owner with
            | none => rfl
            | some other =>
                have held : before.owner ≠ none := by
                  rw [owner]
                  exact Option.some_ne_none other
                exact absurd (Or.inr held) waits.waiting
          have lock := @ThreadStep.lock _ task thread phase exec idle synchronized
          rw [← free] at lock
          exact moves lock

/-- A task does not wait forever. -/
theorem Waits.leadsTo (positive : 0 < settings.activityInterval)
    (run : Run platform createUuid settings) (synchronize : Bool) (uuid : QUuid)
    (task : TaskPtr) :
    run.LeadsTo (fun system => system.Serves synchronize uuid task)
      (fun system => system.Gets synchronize task) := by
  intro time serves
  by_cases gets : (run.state time).Gets synchronize task
  · exact ⟨time, Nat.le_refl _, gets⟩
  · have ranked : Ranked (AgentStep platform createUuid settings)
        (Moves platform createUuid settings)
        (Waits platform createUuid settings synchronize uuid task)
        (fun system => system.Gets synchronize task) (fun system => system.distance task)
        (fun _ => some task) := by
      refine ⟨?_, ?_, fun _ waits => waits.exists_moves positive⟩
      · intro before after waits step
        by_cases gets : after.Gets synchronize task
        · exact Or.inl gets
        · obtain ⟨still, less | same⟩ := waits.step positive step gets
          · exact Or.inr ⟨still, Or.inl less⟩
          · exact Or.inr ⟨still, Or.inr ⟨same, rfl⟩⟩
      · intro before after waits moves
        by_cases gets : after.Gets synchronize task
        · exact Or.inl gets
        · refine Or.inr ⟨(waits.step positive moves.step gets).1, ?_⟩
          have reachable := waits.reachable.tail moves.step
          rcases moves with ⟨threadBefore, threadAfter, owner, found, taken, rfl⟩
          exact waits.own_step positive found taken reachable rfl gets
    exact ranked.leadsTo run.toFairRun time ⟨run.reachable time, serves, gets⟩

/-- A run of a group ends. -/
theorem Busy.leadsTo (run : Run platform createUuid settings) (task : TaskPtr) :
    run.LeadsTo (fun system => system.Busy task) (fun system => ¬system.Busy task) := by
  have ranked : Ranked (AgentStep platform createUuid settings)
      (Moves platform createUuid settings)
      (fun system => AgentReachable platform createUuid settings system ∧ system.Busy task)
      (fun system => ¬system.Busy task) (fun _ => 0) (fun _ => some task) := by
    refine ⟨?_, ?_, ?_⟩
    · intro before after begins step
      by_cases busy : after.Busy task
      · exact Or.inr ⟨⟨begins.1.tail step, busy⟩, Or.inr ⟨rfl, rfl⟩⟩
      · exact Or.inl busy
    · intro before after begins moves
      apply Or.inl
      rcases begins with ⟨reachable, thread, present, busy⟩
      rcases moves with ⟨threadBefore, threadAfter, owner, found, taken, rfl⟩
      cases found.symm.trans present
      have runs := reachable.owned.owns.runs _ (List.mem_of_getElem? found)
      have bound := (List.getElem?_eq_some_iff.mp found).1
      intro stillBusy
      rcases stillBusy with ⟨threadNow, here, busyNow⟩
      rw [List.getElem?_set_self bound, Option.some.injEq] at here
      subst here
      exact absurd ((taken.leaves runs busy).1.symm.trans busyNow) Bool.false_ne_true
    · intro before begins
      rcases begins with ⟨_, thread, present, busy⟩
      cases synchronized : thread.scope.synchronize with
      | false => exact ⟨_, thread, _, _, present, .invoked busy synchronized, rfl⟩
      | true => exact ⟨_, thread, _, _, present, .unlock busy synchronized, rfl⟩
  intro time busy
  exact ranked.leadsTo run.toFairRun time ⟨run.reachable time, busy⟩

end AgentSystem

end Steps

section Execute

variable (platform : Platform) (createUuid : Nat → QUuid) (settings : AgentSettings)

/-- What the tasks of the agent achieve in every run. -/
structure TasksExecute : Prop where
  /-- The mutex belongs to the synchronised task that runs its group, if there is one. -/
  owner_iff : ∀ system, AgentReachable platform createUuid settings system →
    ∀ task, system.owner = some task ↔ insideOf system.agent.threads TaskThread.Inside task
  /-- While the agent serves, every task without the mutex gets to run its group. -/
  repeats : ∀ (run : AgentSystem.Run platform createUuid settings) uuid task,
    run.LeadsTo (fun system => system.Serves false uuid task)
      fun system => system.Busy task ∨ system.phase ≠ .looping false
  /-- If there are tasks with the mutex, one of them gets to run its group. -/
  shares : ∀ (run : AgentSystem.Run platform createUuid settings) uuid task,
    run.LeadsTo (fun system => system.Serves true uuid task) fun system =>
      (∃ other, insideOf system.agent.threads TaskThread.Inside other) ∨
        system.phase ≠ .looping false
  /-- Every run of a group ends, so that the task can begin the next one. -/
  returns : ∀ (run : AgentSystem.Run platform createUuid settings) task,
    run.LeadsTo (fun system => system.Busy task) fun system => ¬system.Busy task

/-- With a positive interval the tasks execute, whatever is called and registered when. -/
theorem tasksExecute (positive : 0 < settings.activityInterval) :
    TasksExecute platform createUuid settings where
  owner_iff := by
    intro system reachable task
    exact ⟨reachable.held task, reachable.guarded task⟩
  repeats := by
    intro run uuid task time serves
    rcases AgentSystem.Waits.leadsTo positive run false uuid task time serves with
      ⟨later, after, leaves | busy⟩
    · exact ⟨later, after, Or.inr leaves⟩
    · exact ⟨later, after, Or.inl busy⟩
  shares := by
    intro run uuid task time serves
    rcases AgentSystem.Waits.leadsTo positive run true uuid task time serves with
      ⟨later, after, leaves | taken⟩
    · exact ⟨later, after, Or.inr leaves⟩
    · rcases Option.ne_none_iff_exists'.mp taken with ⟨other, owner⟩
      exact ⟨later, after, Or.inl ⟨other, (run.reachable later).held other owner⟩⟩
  returns := fun run task => AgentSystem.Busy.leadsTo run task

end Execute

/-- In a serving agent without a call of `stop` only the task moves. -/
theorem moves_servingSystem (actor : Option TaskPtr) (after : AgentSystem)
    (moves : AgentSystem.Moves .ascii (fun _ => .null) archiveSettings actor
      (servingSystem false) after) :
    AgentSystem.Moves .ascii (fun _ => .null) archiveSettings actor (servingSystem false)
      (servingSystem true) := by
  cases actor with
  | none =>
      rcases moves with ⟨step, _, moved⟩
      rcases step.serving_cases rfl with leaves | stays
      · cases step with
        | leave _ quit => contradiction
        | _ => contradiction
      · exact absurd stays.1 moved
  | some self =>
      rcases moves with ⟨before, _, _, found, _, _⟩
      have first : self = 0 := by
        have bound := (List.getElem?_eq_some_iff.mp found).1
        exact Nat.lt_one_iff.mp bound
      subst first
      exact ⟨_, _, _, rfl, .invoke rfl rfl rfl rfl, rfl⟩

/-- There is a run that serves forever, in which the task runs its group again and again. -/
theorem tasksExecute_archive :
    ∃ (run : AgentSystem.Run .ascii (fun _ => .null) archiveSettings) (serving : Nat),
      ∀ time ≥ serving, (run.state time).Serves false archiveGroup.uuid 0 ∧
        ∃ later ≥ time, (run.state later).Busy 0 := by
  have steps := steps_creating.trans steps_serving
  rcases (FairRun.alternate _ _ step_invoke step_invoked moves_servingSystem).exists_after
      steps with ⟨whole, serving, begins, goesOn⟩
  let run : AgentSystem.Run .ascii (fun _ => .null) archiveSettings := ⟨whole, begins⟩
  have states (time : Nat) (after : time ≥ serving) :
      ∃ invoking, run.state time = servingSystem invoking := by
    rcases Nat.exists_eq_add_of_le after with ⟨passed, rfl⟩
    by_cases even : passed % 2 = 0
    · exact ⟨false, (goesOn passed).trans (if_pos even)⟩
    · exact ⟨true, (goesOn passed).trans (if_neg even)⟩
  have serves (time : Nat) (after : time ≥ serving) :
      (run.state time).Serves false archiveGroup.uuid 0 := by
    rcases states time after with ⟨invoking, stateEq⟩
    rw [stateEq]
    exact ⟨rfl, Finmap.lookup_insert _, _, rfl, rfl⟩
  refine ⟨run, serving, fun time after => ⟨serves time after, ?_⟩⟩
  have executes := tasksExecute .ascii (fun _ => .null) archiveSettings (by decide)
  rcases executes.repeats run archiveGroup.uuid 0 time (serves time after) with
    ⟨later, afterTime, busy | leaves⟩
  · exact ⟨later, afterTime, busy⟩
  · exact absurd (serves later (Nat.le_trans after afterTime)).1 leaves

end QApr.Scheduler
