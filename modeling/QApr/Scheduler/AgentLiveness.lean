import QApr.Library.Liveness
import QApr.Scheduler.Disposal
import Mathlib.Data.Prod.Lex

/-!
# What the agent achieves

Under a fair scheduling of its threads, a started agent gets through both loops of
`start`, and a stopped one through the loop of `free`, whatever calls and registrations
come in between.  After `start` every task of the agent runs until `free`.
-/

namespace QApr.Scheduler

open QApr.Library QApr.Qt

/-- The keys that the second loop of `start` has not visited. -/
def AgentPhase.keys : AgentPhase → List QUuid
  | .starting keys | .polling _ keys => keys
  | .stopped | .looping _ | .creating _ | .freeing _ | .waiting _ _ => []

/-- The second loop of `start` has begun, and `free` has not. -/
def AgentPhase.serves : AgentPhase → Bool
  | .starting _ | .polling _ _ | .looping false => true
  | .stopped | .looping true | .creating _ | .freeing _ | .waiting _ _ => false

/-- The task has an event dispatcher. -/
def SchedulerAgentPvt.dispatches (agent : SchedulerAgentPvt) (task : TaskPtr) : Bool :=
  agent.threads[task]?.any fun thread => thread.phase.hasEventDispatcher

/-- How many parts of its work the thread of the agent has left. -/
def AgentPhase.stage : AgentPhase → ℕ
  | .looping true => 4
  | .creating _ => 3
  | .starting _ | .polling _ _ => 2
  | .looping false => 1
  | .freeing _ | .waiting _ _ | .stopped => 0

/-- How much the thread of the agent has left of its part, where some tasks have an event
dispatcher. -/
def AgentPhase.left (dispatches : TaskPtr → Bool) : AgentPhase → ℕ
  | .creating scopes => scopes.length
  | .starting keys => 3 * keys.length
  | .polling task keys => 3 * keys.length + if dispatches task then 1 else 2
  | .freeing tasks => 2 * tasks.length + 1
  | .waiting _ tasks => 2 * tasks.length + 2
  | .looping _ | .stopped => 0

namespace AgentSystem

variable (system : AgentSystem)

/-- How much of its work the thread of the agent has left. -/
def rank : ℕ ×ₗ ℕ := toLex (system.phase.stage, system.phase.left system.agent.dispatches)

/-- The thread that has to move next: the agent's own, or that of the task for whose event
dispatcher it waits. -/
def helper : Option TaskPtr :=
  match system.phase with
  | .polling task _ => if system.agent.dispatches task then none else some task
  | _ => none

section Moves

variable (platform : Platform) (createUuid : Nat → QUuid) (settings : AgentSettings)

/-- The moves of a thread.  Calls and registrations leave the thread of the agent where it
is, except that `start` takes it out of its rest. -/
def Moves : Option TaskPtr → AgentSystem → AgentSystem → Prop
  | none, before, after =>
      AgentStep platform createUuid settings before after ∧ before.phase ≠ .stopped ∧
        after.phase ≠ before.phase
  | some self, before, after => ∃ threadBefore threadAfter owner,
      before.agent.threads[self]? = some threadBefore ∧
        ThreadStep (SchedulerTask.run settings.activityInterval) self before.owner
          threadBefore owner threadAfter ∧
        after = { before with
          agent := { before.agent with threads := before.agent.threads.set self threadAfter }
          owner }

/-- The fair runs of the system. -/
structure Run extends
    FairRun (AgentStep platform createUuid settings) (Moves platform createUuid settings) where
  first : state 0 = .empty

end Moves

/-- The tasks of the table were not asked to quit, and those that the second loop has
visited run. -/
structure Attended : Prop where
  noQuit : ∀ task, system.agent.Holds task → ∃ thread,
    system.agent.threads[task]? = some thread ∧ thread.quit = false
  listed : ∀ key ∈ system.phase.keys, ∃ task, system.agent.tasks.lookup key = some task
  visited : system.phase.serves = true → ∀ key task,
    system.agent.tasks.lookup key = some task →
      key ∈ system.phase.keys ∨ system.agent.isRunning task = true
  polled : ∀ task keys, system.phase = .polling task keys →
    system.agent.Holds task ∧ system.agent.isRunning task = true

end AgentSystem

section Threads

variable {self : TaskPtr} {ownerBefore owner : Option TaskPtr} {before after : TaskThread}

/-- A task that was not asked to quit stays in `exec()`. -/
theorem ThreadStep.stays (step : ThreadStep .exec self ownerBefore before owner after)
    (noQuit : before.quit = false) (running : before.isRunning = true) :
    after.quit = false ∧ after.isRunning = true := by
  cases step with
  | install => exact ⟨noQuit, rfl⟩
  | enter => exact ⟨noQuit, rfl⟩
  | invoke => exact ⟨noQuit, running⟩
  | lock => exact ⟨noQuit, running⟩
  | invoked => exact ⟨noQuit, running⟩
  | unlock => exact ⟨noQuit, running⟩
  | finish _ _ leaves =>
      rcases leaves with returns | quits
      · contradiction
      · exact absurd (noQuit.symm.trans quits) Bool.false_ne_true

theorem ThreadStep.quit_eq {body : RunBody}
    (step : ThreadStep body self ownerBefore before owner after) : after.quit = before.quit := by
  cases step <;> rfl

/-- An event dispatcher that is there stays until the thread finishes. -/
theorem ThreadStep.dispatches (step : ThreadStep .exec self ownerBefore before owner after)
    (noQuit : before.quit = false) (present : before.phase.hasEventDispatcher = true) :
    after.phase.hasEventDispatcher = true := by
  cases step with
  | install => rfl
  | enter => rfl
  | invoke => exact present
  | lock => exact present
  | invoked => exact present
  | unlock => exact present
  | finish _ _ leaves =>
      rcases leaves with returns | quits
      · contradiction
      · exact absurd (noQuit.symm.trans quits) Bool.false_ne_true

end Threads

namespace SchedulerAgentPvt

variable {agent : SchedulerAgentPvt} {task : TaskPtr}

theorem isRunning_startTask_self {thread : TaskThread}
    (present : agent.threads[task]? = some thread) :
    (agent.startTask task).isRunning task = true := by
  rw [isRunning, startTask, List.getElem?_modify, present]
  simp

/-- Starting a task stops no other one. -/
theorem isRunning_startTask {other : TaskPtr} (running : agent.isRunning other = true) :
    (agent.startTask task).isRunning other = true := by
  cases present : agent.threads[other]? with
  | none => simp [isRunning, present] at running
  | some thread =>
      by_cases same : task = other
      · subst same
        exact isRunning_startTask_self present
      · rw [isRunning, startTask, List.getElem?_modify, present]
        rw [isRunning_of_some present] at running
        simpa [same] using running

/-- There is an order in which an iterator visits the tasks. -/
theorem exists_iterates (tasks : QHash QUuid TaskPtr) : ∃ keys, Iterates tasks keys := by
  refine ⟨tasks.keys.toList, Finset.nodup_toList _, ?_⟩
  intro key
  rw [Finset.mem_toList, Finmap.mem_keys]

end SchedulerAgentPvt

section Steps

variable {platform : Platform} {createUuid : Nat → QUuid} {settings : AgentSettings}
  {before after : AgentSystem}

namespace AgentSystem.Attended

/-- What a step of a task keeps of the tasks of the table. -/
theorem isRunning_set (attended : before.Attended) {self task : TaskPtr}
    {threadBefore threadAfter : TaskThread} {owner : Option TaskPtr}
    (found : before.agent.threads[self]? = some threadBefore)
    (step : ThreadStep .exec self before.owner threadBefore owner threadAfter)
    (held : before.agent.Holds task) (running : before.agent.isRunning task = true) :
    SchedulerAgentPvt.isRunning
      { before.agent with threads := before.agent.threads.set self threadAfter } task = true := by
  by_cases same : task = self
  · subst same
    rcases attended.noQuit task held with ⟨thread, present, noQuit⟩
    rw [found, Option.some.injEq] at present
    subst present
    rw [SchedulerAgentPvt.isRunning_of_some found] at running
    have bound := (List.getElem?_eq_some_iff.mp found).1
    rw [SchedulerAgentPvt.isRunning_of_some (List.getElem?_set_self bound)]
    exact (step.stays noQuit running).2
  · rw [SchedulerAgentPvt.isRunning, List.getElem?_set_ne (Ne.symm same)]
    exact running

theorem thread (attended : before.Attended) {self : TaskPtr}
    {threadBefore threadAfter : TaskThread} {owner : Option TaskPtr}
    (found : before.agent.threads[self]? = some threadBefore)
    (step : ThreadStep .exec self before.owner threadBefore owner threadAfter) :
    Attended { before with
      agent := { before.agent with threads := before.agent.threads.set self threadAfter }
      owner } where
  noQuit := by
    intro task held
    rcases attended.noQuit task held with ⟨thread, present, noQuit⟩
    by_cases same : task = self
    · subst same
      rw [found, Option.some.injEq] at present
      subst present
      have bound := (List.getElem?_eq_some_iff.mp found).1
      exact ⟨threadAfter, List.getElem?_set_self bound, step.quit_eq.trans noQuit⟩
    · exact ⟨thread, (List.getElem?_set_ne (Ne.symm same)).trans present, noQuit⟩
  listed := attended.listed
  visited := by
    intro serves key task mapped
    rcases attended.visited serves key task mapped with left | running
    · exact Or.inl left
    · exact Or.inr (attended.isRunning_set found step ⟨key, mapped⟩ running)
  polled := by
    intro task keys phase
    rcases attended.polled task keys phase with ⟨held, running⟩
    exact ⟨held, attended.isRunning_set found step held running⟩

/-- A pass of the first loop of `start`. -/
theorem create (attended : before.Attended) (chars : CharTable) (scopeList : List QString)
    (scope : SchedulerScopeGroup) (task : TaskPtr)
    (held : (before.agent.create chars scopeList scope).Holds task) :
    ∃ thread, (before.agent.create chars scopeList scope).threads[task]? = some thread ∧
      thread.quit = false := by
  cases replaced : before.agent.replaces chars scopeList scope with
  | false =>
      rw [SchedulerAgentPvt.create_of_not_replaces replaced] at held ⊢
      exact attended.noQuit task held
  | true =>
      rcases SchedulerAgentPvt.create_of_replaces replaced with ⟨made, afterEq, _⟩
      rw [afterEq] at held ⊢
      rcases held with ⟨key, mapped⟩
      by_cases same : key = scope.uuid
      · subst same
        rw [Finmap.lookup_insert, Option.some.injEq] at mapped
        subst mapped
        exact ⟨_, List.getElem?_concat_length, rfl⟩
      · rw [Finmap.lookup_insert_of_ne _ same] at mapped
        rcases attended.noQuit task ⟨key, mapped⟩ with ⟨thread, present, noQuit⟩
        exact ⟨thread, getElem?_append_of_some present _, noQuit⟩

/-- A task of the second loop of `start` is started. -/
theorem startTask (attended : before.Attended) {key : QUuid} {keys : List QUuid}
    {task : TaskPtr} (phase : before.phase = .starting (key :: keys))
    (found : before.agent.tasks.lookup key = some task) :
    Attended { before with
      agent := before.agent.startTask task
      phase := .polling task keys } where
  noQuit := by
    intro other held
    rcases attended.noQuit other held with ⟨thread, present, noQuit⟩
    by_cases same : task = other
    · subst same
      refine ⟨thread.start, ?_, ?_⟩
      · rw [SchedulerAgentPvt.startTask, List.getElem?_modify, present]
        simp
      · rw [TaskThread.start, noQuit]
        rfl
    · refine ⟨thread, ?_, noQuit⟩
      rw [SchedulerAgentPvt.startTask, List.getElem?_modify, present]
      simp [same]
  listed := by
    intro other member
    apply attended.listed other
    rw [phase]
    exact List.mem_cons_of_mem _ member
  visited := by
    intro _ other otherTask mapped
    rcases attended.visited (by rw [phase]; rfl) other otherTask mapped with left | running
    · rw [phase] at left
      rcases List.mem_cons.mp left with rfl | later
      · cases found.symm.trans mapped
        rcases attended.noQuit task ⟨other, found⟩ with ⟨thread, present, _⟩
        exact Or.inr (SchedulerAgentPvt.isRunning_startTask_self present)
      · exact Or.inl later
    · exact Or.inr (SchedulerAgentPvt.isRunning_startTask running)
  polled := by
    intro other keys polling
    cases polling
    rcases attended.noQuit task ⟨key, found⟩ with ⟨thread, present, _⟩
    exact ⟨⟨key, found⟩, SchedulerAgentPvt.isRunning_startTask_self present⟩

/-- The thread of the agent goes on without a change to the tasks. -/
theorem moves (attended : before.Attended) {phase : AgentPhase} {quit : Bool}
    (listed : ∀ key ∈ phase.keys, ∃ task, before.agent.tasks.lookup key = some task)
    (visited : phase.serves = true → ∀ key task, before.agent.tasks.lookup key = some task →
      key ∈ phase.keys ∨ before.agent.isRunning task = true)
    (polled : ∀ task keys, phase ≠ .polling task keys) :
    Attended { before with phase, quit } where
  noQuit := attended.noQuit
  listed := listed
  visited := visited
  polled := fun task keys same => absurd same (polled task keys)

/-- Once the table is empty there is nothing to attend to. -/
theorem of_empty (empty : after.agent.tasks = ∅) (keys : after.phase.keys = [])
    (serves : after.phase.serves = false) : after.Attended where
  noQuit := by
    rintro task ⟨key, mapped⟩
    rw [empty] at mapped
    simp at mapped
  listed := by simp [keys]
  visited := by simp [serves]
  polled := by
    intro task keys phase
    rw [phase] at serves
    contradiction

end AgentSystem.Attended

theorem AgentStep.attended (positive : 0 < settings.activityInterval)
    (step : AgentStep platform createUuid settings before after) (owned : before.Owned)
    (attended : before.Attended) : after.Attended := by
  cases step with
  | reg => exact ⟨attended.noQuit, attended.listed, attended.visited, attended.polled⟩
  | stop => exact ⟨attended.noQuit, attended.listed, attended.visited, attended.polled⟩
  | start | timer =>
      exact attended.moves (by simp [AgentPhase.keys]) (by simp [AgentPhase.serves]) (by simp)
  | create =>
      exact ⟨attended.create _ _ _, by simp [AgentPhase.keys], by simp [AgentPhase.serves], by simp⟩
  | created phase iterates =>
      apply attended.moves
      · intro key member
        exact Finmap.mem_iff.mp ((iterates.mem_iff key).mp member)
      · intro _ key task mapped
        exact Or.inl ((iterates.mem_iff key).mpr (Finmap.mem_iff.mpr ⟨task, mapped⟩))
      · simp
  | startTask phase found => exact attended.startTask phase found
  | polled phase =>
      have listed := attended.listed
      have visited := attended.visited
      rw [phase] at listed visited
      exact attended.moves listed (fun _ => visited rfl) (by simp)
  | skip phase found running =>
      have listed := attended.listed
      have visited := attended.visited
      rw [phase] at listed visited
      apply attended.moves
      · intro other member
        exact listed other (List.mem_cons_of_mem _ member)
      · intro _ other task mapped
        rcases visited rfl other task mapped with left | isRunning
        · rcases List.mem_cons.mp left with rfl | later
          · cases found.symm.trans mapped
            exact Or.inr running
          · exact Or.inl later
        · exact Or.inr isRunning
      · simp
  | started phase =>
      have visited := attended.visited
      rw [phase] at visited
      exact attended.moves (by simp [AgentPhase.keys]) (fun _ => visited rfl) (by simp)
  | leave => exact .of_empty rfl rfl rfl
  | quitTask phase => exact .of_empty (owned.emptied (by rw [phase]; rfl)) rfl rfl
  | waited phase => exact .of_empty (owned.emptied (by rw [phase]; rfl)) rfl rfl
  | timeout phase => exact .of_empty (owned.emptied (by rw [phase]; rfl)) rfl rfl
  | freed phase => exact .of_empty (owned.emptied (by rw [phase]; rfl)) rfl rfl
  | thread found step =>
      have exec : SchedulerTask.run settings.activityInterval = .exec :=
        if_neg (Int.not_le.mpr positive)
      rw [exec] at step
      exact attended.thread found step

theorem AgentSystem.attended_empty : AgentSystem.empty.Attended :=
  .of_empty rfl rfl rfl

theorem AgentReachable.attended (positive : 0 < settings.activityInterval)
    {system : AgentSystem} (reachable : AgentReachable platform createUuid settings system) :
    system.Attended := by
  induction reachable with
  | refl => exact AgentSystem.attended_empty
  | tail reachable step ih => exact step.attended positive (AgentReachable.owned reachable) ih

/-! ## Progress -/

/-- A step of a task does not take its event dispatcher away while the agent waits for it. -/
theorem AgentSystem.Attended.dispatches_set (attended : before.Attended) {self task : TaskPtr}
    {threadBefore threadAfter : TaskThread} {owner : Option TaskPtr}
    (found : before.agent.threads[self]? = some threadBefore)
    (step : ThreadStep .exec self before.owner threadBefore owner threadAfter)
    (held : before.agent.Holds task) (present : before.agent.dispatches task = true) :
    SchedulerAgentPvt.dispatches
      { before.agent with threads := before.agent.threads.set self threadAfter } task = true := by
  by_cases same : task = self
  · subst same
    rcases attended.noQuit task held with ⟨thread, here, noQuit⟩
    rw [found, Option.some.injEq] at here
    subst here
    have bound := (List.getElem?_eq_some_iff.mp found).1
    rw [SchedulerAgentPvt.dispatches, found] at present
    rw [SchedulerAgentPvt.dispatches, List.getElem?_set_self bound]
    exact step.dispatches noQuit present
  · rw [SchedulerAgentPvt.dispatches, List.getElem?_set_ne (Ne.symm same)]
    exact present

/-- The step has brought the thread of the agent forward, or has left its work as it was. -/
def AgentSystem.Progress (before after : AgentSystem) : Prop :=
  after.rank < before.rank ∨
    after.phase = before.phase ∧ after.rank = before.rank ∧ after.helper = before.helper

theorem AgentSystem.Progress.of_phase {phase : AgentPhase} (phaseEq : before.phase = phase)
    (less : after.phase.stage < phase.stage ∨ after.phase.stage = phase.stage ∧
      after.phase.left after.agent.dispatches < phase.left before.agent.dispatches) :
    before.Progress after := by
  subst phaseEq
  exact Or.inl (Prod.Lex.toLex_lt_toLex.mpr less)

/-- A step of a task brings the agent forward when it gives the task the event dispatcher
that the agent waits for. -/
theorem AgentSystem.Attended.progress_thread (attended : before.Attended) {self : TaskPtr}
    {threadBefore threadAfter : TaskThread} {owner : Option TaskPtr}
    (found : before.agent.threads[self]? = some threadBefore)
    (step : ThreadStep .exec self before.owner threadBefore owner threadAfter) :
    before.Progress { before with
      agent := { before.agent with threads := before.agent.threads.set self threadAfter }
      owner } := by
  cases phase : before.phase with
  | polling task keys =>
      have held := (attended.polled task keys phase).1
      cases present : before.agent.dispatches task with
      | true =>
          have kept := attended.dispatches_set found step held present
          exact Or.inr ⟨phase.symm, by simp [rank, phase, AgentPhase.left, present, kept],
            by simp [helper, phase, present, kept]⟩
      | false =>
          cases gained : SchedulerAgentPvt.dispatches
              { before.agent with threads := before.agent.threads.set self threadAfter } task with
          | true => exact .of_phase phase (by simp [AgentPhase.left, present, gained])
          | false =>
              exact Or.inr ⟨phase.symm, by simp [rank, phase, AgentPhase.left, present, gained],
                by simp [helper, phase, present, gained]⟩
  | _ => exact Or.inr ⟨phase.symm, by simp [rank, phase, AgentPhase.left], by simp [helper, phase]⟩

theorem AgentStep.progress (positive : 0 < settings.activityInterval)
    (step : AgentStep platform createUuid settings before after) (attended : before.Attended)
    (active : before.phase ≠ .stopped) : before.Progress after := by
  cases step with
  | reg => exact Or.inr ⟨rfl, rfl, rfl⟩
  | stop => exact Or.inr ⟨rfl, rfl, rfl⟩
  | start phase => exact absurd phase active
  | timer phase => exact .of_phase phase (by simp [AgentPhase.stage])
  | create phase => exact .of_phase phase (by simp [AgentPhase.stage, AgentPhase.left])
  | created phase => exact .of_phase phase (by simp [AgentPhase.stage])
  | startTask phase =>
      apply AgentSystem.Progress.of_phase phase
      refine Or.inr ⟨rfl, ?_⟩
      simp only [AgentPhase.left, List.length_cons]
      split <;> omega
  | polled phase =>
      apply AgentSystem.Progress.of_phase phase
      refine Or.inr ⟨rfl, ?_⟩
      simp only [AgentPhase.left]
      split <;> omega
  | skip phase => exact .of_phase phase (by simp [AgentPhase.stage, AgentPhase.left])
  | started phase => exact .of_phase phase (by simp [AgentPhase.stage])
  | @leave timer _ phase =>
      cases timer with
      | true => exact .of_phase phase (by simp [AgentPhase.stage])
      | false => exact .of_phase phase (by simp [AgentPhase.stage])
  | quitTask phase =>
      apply AgentSystem.Progress.of_phase phase
      refine Or.inr ⟨rfl, ?_⟩
      simp only [AgentPhase.left, List.length_cons]
      omega
  | waited phase => exact .of_phase phase (by simp [AgentPhase.stage, AgentPhase.left])
  | timeout phase => exact .of_phase phase (by simp [AgentPhase.stage, AgentPhase.left])
  | freed phase => exact .of_phase phase (by simp [AgentPhase.stage, AgentPhase.left])
  | thread found step =>
      have exec : SchedulerTask.run settings.activityInterval = .exec :=
        if_neg (Int.not_le.mpr positive)
      rw [exec] at step
      exact attended.progress_thread found step

/-- A call of `stop` is not forgotten before the agent has stopped. -/
theorem AgentStep.quit (step : AgentStep platform createUuid settings before after)
    (quit : before.quit = true) (active : before.phase ≠ .stopped) : after.quit = true := by
  cases step with
  | start phase => exact absurd phase active
  | stop => rfl
  | _ => exact quit

/-- The thread of a task has to move when the agent waits for its event dispatcher. -/
theorem AgentSystem.helper_eq_some {task : TaskPtr} (helps : before.helper = some task) :
    ∃ keys, before.phase = .polling task keys ∧ before.agent.dispatches task = false := by
  unfold AgentSystem.helper at helps
  split at helps
  next other keys phase =>
      cases present : before.agent.dispatches other with
      | true => simp [present] at helps
      | false =>
          simp only [present, Bool.false_eq_true, if_false, Option.some.injEq] at helps
          subst helps
          exact ⟨keys, phase, present⟩
  next => contradiction

/-- A task of the table that runs without an event dispatcher is about to install it. -/
theorem AgentSystem.Attended.starting (attended : before.Attended) {task : TaskPtr}
    {keys : List QUuid} (phase : before.phase = .polling task keys)
    (missing : before.agent.dispatches task = false) :
    ∃ thread, before.agent.threads[task]? = some thread ∧ thread.phase = .starting := by
  rcases attended.polled task keys phase with ⟨held, running⟩
  rcases attended.noQuit task held with ⟨thread, present, _⟩
  refine ⟨thread, present, ?_⟩
  rw [SchedulerAgentPvt.dispatches, present, Option.any_some] at missing
  rw [SchedulerAgentPvt.isRunning_of_some present, TaskThread.isRunning] at running
  cases threadPhase : thread.phase with
  | starting => rfl
  | notStarted => simp [threadPhase, ThreadPhase.isRunning] at running
  | finished => simp [threadPhase, ThreadPhase.isRunning] at running
  | installed => simp [threadPhase, ThreadPhase.hasEventDispatcher] at missing
  | running => simp [threadPhase, ThreadPhase.hasEventDispatcher] at missing

/-- A thread that starts installs its event dispatcher. -/
theorem ThreadStep.phase_of_starting {body : RunBody} {self : TaskPtr}
    {ownerBefore owner : Option TaskPtr} {threadBefore threadAfter : TaskThread}
    (step : ThreadStep body self ownerBefore threadBefore owner threadAfter)
    (starting : threadBefore.phase = .starting)
    (runs : threadBefore.invoking = true → threadBefore.phase = .running) :
    threadAfter.phase = .installed := by
  cases step with
  | install => rfl
  | enter phase => exact absurd (starting.symm.trans phase) (by decide)
  | invoke phase => exact absurd (starting.symm.trans phase) (by decide)
  | lock phase => exact absurd (starting.symm.trans phase) (by decide)
  | finish phase => exact absurd (starting.symm.trans phase) (by decide)
  | invoked invoking => exact absurd (starting.symm.trans (runs invoking)) (by decide)
  | unlock invoking => exact absurd (starting.symm.trans (runs invoking)) (by decide)

/-- A move of the helpful thread brings the agent forward. -/
theorem AgentSystem.Moves.rank_lt (positive : 0 < settings.activityInterval)
    (owned : before.Owned) (attended : before.Attended) (active : before.phase ≠ .stopped)
    (moves : AgentSystem.Moves platform createUuid settings before.helper before after) :
    after.rank < before.rank := by
  cases helps : before.helper with
  | none =>
      rw [helps] at moves
      rcases moves with ⟨step, _, moved⟩
      rcases step.progress positive attended active with less | same
      · exact less
      · exact absurd same.1 moved
  | some task =>
      rcases AgentSystem.helper_eq_some helps with ⟨keys, phase, missing⟩
      rcases attended.starting phase missing with ⟨thread, present, starting⟩
      rw [helps] at moves
      rcases moves with ⟨threadBefore, threadAfter, owner, found, step, rfl⟩
      cases present.symm.trans found
      have runs := owned.owns.runs thread (List.mem_of_getElem? found)
      have installed := step.phase_of_starting starting runs
      have exec : SchedulerTask.run settings.activityInterval = .exec :=
        if_neg (Int.not_le.mpr positive)
      rw [exec] at step
      rcases attended.progress_thread found step with less | ⟨_, _, same⟩
      · exact less
      · rcases AgentSystem.helper_eq_some (same.trans helps) with ⟨_, _, stillMissing⟩
        have bound := (List.getElem?_eq_some_iff.mp found).1
        rw [SchedulerAgentPvt.dispatches, List.getElem?_set_self bound, Option.any_some,
          installed] at stillMissing
        contradiction

/-- The helpful thread can move. -/
theorem AgentSystem.Attended.exists_moves (attended : before.Attended)
    (active : before.phase ≠ .stopped)
    (leaves : before.phase = .looping false → before.quit = true) :
    ∃ after, AgentSystem.Moves platform createUuid settings before.helper before after := by
  have agent {after : AgentSystem} (idle : before.helper = none)
      (step : AgentStep platform createUuid settings before after)
      (moved : after.phase ≠ before.phase) :
      ∃ after, AgentSystem.Moves platform createUuid settings before.helper before after := by
    rw [idle]
    exact ⟨after, step, active, moved⟩
  cases phase : before.phase with
  | stopped => exact absurd phase active
  | looping timer =>
      have idle : before.helper = none := by simp [AgentSystem.helper, phase]
      cases timer with
      | true => exact agent idle (.timer phase) (by simp [phase])
      | false =>
          rcases SchedulerAgentPvt.exists_iterates before.agent.tasks with ⟨keys, iterates⟩
          exact agent idle (.leave phase (leaves phase) iterates) (by simp [phase])
  | creating scopes =>
      have idle : before.helper = none := by simp [AgentSystem.helper, phase]
      cases scopes with
      | nil =>
          rcases SchedulerAgentPvt.exists_iterates before.agent.tasks with ⟨keys, iterates⟩
          exact agent idle (.created phase iterates) (by simp [phase])
      | cons scope scopes => exact agent idle (.create phase) (by simp [phase])
  | starting keys =>
      have idle : before.helper = none := by simp [AgentSystem.helper, phase]
      cases keys with
      | nil => exact agent idle (.started phase) (by simp [phase])
      | cons key keys =>
          have listed := attended.listed key
          rw [phase] at listed
          rcases listed List.mem_cons_self with ⟨task, found⟩
          cases running : before.agent.isRunning task with
          | true => exact agent idle (.skip phase found running) (by simp [phase])
          | false => exact agent idle (.startTask phase found running) (by simp [phase])
  | polling task keys =>
      cases present : before.agent.dispatches task with
      | true =>
          have idle : before.helper = none := by simp [AgentSystem.helper, phase, present]
          rcases attended.polled task keys phase with ⟨held, _⟩
          rcases attended.noQuit task held with ⟨thread, found, _⟩
          rw [SchedulerAgentPvt.dispatches, found, Option.any_some] at present
          exact agent idle (.polled phase found present) (by simp [phase])
      | false =>
          have helps : before.helper = some task := by
            simp [AgentSystem.helper, phase, present]
          rcases attended.starting phase present with ⟨thread, found, starting⟩
          rw [helps]
          exact ⟨_, thread, _, _, found, .install starting, rfl⟩
  | freeing tasks =>
      have idle : before.helper = none := by simp [AgentSystem.helper, phase]
      cases tasks with
      | nil => exact agent idle (.freed phase) (by simp [phase])
      | cons task tasks => exact agent idle (.quitTask phase) (by simp [phase])
  | waiting task tasks =>
      have idle : before.helper = none := by simp [AgentSystem.helper, phase]
      cases running : before.agent.isRunning task with
      | true => exact agent idle (.timeout phase running) (by simp [phase])
      | false => exact agent idle (.waited phase running) (by simp [phase])

theorem AgentSystem.Moves.step {actor : Option TaskPtr}
    (moves : AgentSystem.Moves platform createUuid settings actor before after) :
    AgentStep platform createUuid settings before after := by
  cases actor with
  | none => exact moves.1
  | some self =>
      rcases moves with ⟨threadBefore, threadAfter, owner, found, step, rfl⟩
      exact .thread found step

/-! ## Fair runs of the agent -/

/-- The rank leads to a target that the agent reaches before it rests. -/
theorem AgentSystem.ranked (positive : 0 < settings.activityInterval)
    {source target : AgentSystem → Prop}
    (reachable : ∀ system, source system → AgentReachable platform createUuid settings system)
    (active : ∀ system, source system → system.phase ≠ .stopped)
    (leaves : ∀ system, source system → system.phase = .looping false → system.quit = true)
    (closed : ∀ before after, source before →
      AgentStep platform createUuid settings before after → target after ∨ source after) :
    Ranked (AgentStep platform createUuid settings) (Moves platform createUuid settings) source
      target rank helper where
  keeps := by
    intro before after begins step
    rcases closed before after begins step with reached | goesOn
    · exact Or.inl reached
    · have attended := (reachable before begins).attended positive
      refine Or.inr ⟨goesOn, ?_⟩
      rcases step.progress positive attended (active before begins) with less | same
      · exact Or.inl less
      · exact Or.inr same.2
  helps := by
    intro before after begins moves
    rcases closed before after begins moves.step with reached | goesOn
    · exact Or.inl reached
    · have owned := (reachable before begins).owned
      have attended := (reachable before begins).attended positive
      exact Or.inr ⟨goesOn, moves.rank_lt positive owned attended (active before begins)⟩
  enabled := by
    intro before begins
    have attended := (reachable before begins).attended positive
    exact attended.exists_moves (active before begins) (leaves before begins)

theorem AgentSystem.Run.reachable (run : AgentSystem.Run platform createUuid settings)
    (time : Nat) : AgentReachable platform createUuid settings (run.state time) := by
  apply run.always
  · rw [run.first]
    exact .refl
  · exact fun _ _ reachable step => reachable.tail step

end Steps

section Serves

variable (platform : Platform) (createUuid : Nat → QUuid) (settings : AgentSettings)

/-- What the agent achieves in every run. -/
structure AgentServes : Prop where
  /-- Between the end of `start` and the beginning of `free` all tasks of the agent run. -/
  running : ∀ system, AgentReachable platform createUuid settings system →
    system.phase = .looping false →
    ∀ task, system.agent.Holds task → system.agent.isRunning task = true
  /-- The agent does not stay in `start` or `free`. -/
  settles : ∀ run : AgentSystem.Run platform createUuid settings,
    run.LeadsTo (fun _ => True) fun system =>
      system.phase = .looping false ∨ system.phase = .stopped
  /-- The agent stops after a call of `stop`. -/
  stops : ∀ run : AgentSystem.Run platform createUuid settings,
    run.LeadsTo (fun system => system.quit = true) fun system => system.phase = .stopped

/-- With a positive interval the agent serves, whatever is called and registered when. -/
theorem agentServes (positive : 0 < settings.activityInterval) :
    AgentServes platform createUuid settings where
  running := by
    intro system reachable phase task held
    rcases held with ⟨key, mapped⟩
    have attended := reachable.attended positive
    have visited := attended.visited
    rw [phase] at visited
    rcases visited rfl key task mapped with left | isRunning
    · contradiction
    · exact isRunning
  settles := by
    intro run time _
    by_cases settled :
        (run.state time).phase = .looping false ∨ (run.state time).phase = .stopped
    · exact ⟨time, Nat.le_refl _, settled⟩
    · have ranked : Ranked (AgentStep platform createUuid settings)
          (AgentSystem.Moves platform createUuid settings)
          (fun system => AgentReachable platform createUuid settings system ∧
            ¬(system.phase = .looping false ∨ system.phase = .stopped))
          (fun system => system.phase = .looping false ∨ system.phase = .stopped)
          AgentSystem.rank AgentSystem.helper := by
        apply AgentSystem.ranked positive
        · exact fun system begins => begins.1
        · exact fun system begins stopped => begins.2 (Or.inr stopped)
        · exact fun system begins looping => absurd (Or.inl looping) begins.2
        · intro before after begins step
          apply Decidable.or_iff_not_imp_left.mpr
          exact fun unsettled => ⟨begins.1.tail step, unsettled⟩
      exact ranked.leadsTo run.toFairRun time ⟨run.reachable time, settled⟩
  stops := by
    intro run time quit
    by_cases stopped : (run.state time).phase = .stopped
    · exact ⟨time, Nat.le_refl _, stopped⟩
    · have ranked : Ranked (AgentStep platform createUuid settings)
          (AgentSystem.Moves platform createUuid settings)
          (fun system => AgentReachable platform createUuid settings system ∧
            system.quit = true ∧ system.phase ≠ .stopped)
          (fun system => system.phase = .stopped) AgentSystem.rank AgentSystem.helper := by
        apply AgentSystem.ranked positive
        · exact fun system begins => begins.1
        · exact fun system begins => begins.2.2
        · exact fun system begins _ => begins.2.1
        · intro before after begins step
          apply Decidable.or_iff_not_imp_left.mpr
          exact fun active => ⟨begins.1.tail step, step.quit begins.2.1 begins.2.2, active⟩
      exact ranked.leadsTo run.toFairRun time ⟨run.reachable time, quit, stopped⟩

end Serves

/-! ## Runs with a group -/

/-- The agent serves a group, whose task is in a run of it or not. -/
def servingSystem (invoking : Bool) : AgentSystem :=
  archiveSystem ⟨archiveTasks 0, [⟨archiveGroup, .running, false, invoking⟩], [.start 0]⟩
    (.looping false)

/-- The agent was stopped, and its task has finished. -/
def finishedSystem : AgentSystem :=
  { archiveSystem ⟨∅, [⟨archiveGroup, .finished, true, false⟩],
      [.start 0, .quit 0, .delete 0]⟩ .stopped with
    quit := true }

/-- Nobody moves any more. -/
theorem still_finishedSystem (actor : Option TaskPtr) (after : AgentSystem) :
    ¬AgentSystem.Moves .ascii (fun _ => .null) archiveSettings actor finishedSystem after := by
  intro moves
  cases actor with
  | none => exact moves.2.1 rfl
  | some self =>
      rcases moves with ⟨before, after, owner, found, step, _⟩
      have finished := List.mem_singleton.mp (List.mem_of_getElem? found)
      subst finished
      cases step <;> contradiction

/-- The steps of this system. -/
abbrev ArchiveSteps : AgentSystem → AgentSystem → Prop :=
  Relation.ReflTransGen (AgentStep .ascii (fun _ => .null) archiveSettings)

/-- The class is registered and the agent started. -/
theorem steps_creating :
    ArchiveSteps .empty (archiveSystem ⟨∅, [], []⟩ (.creating [archiveGroup])) :=
  steps_of_allowed (@run_creating _ _ [] [] false anyStep (run_registered anyStep))

/-- The agent gets through `start`. -/
theorem steps_serving :
    ArchiveSteps (archiveSystem ⟨∅, [], []⟩ (.creating [archiveGroup])) (servingSystem false) :=
  steps_of_allowed (@run_started _ _ [] [] anyStep (fun _ => trivial) .refl)

theorem step_invoke :
    AgentStep .ascii (fun _ => .null) archiveSettings (servingSystem false)
      (servingSystem true) :=
  @AgentStep.thread _ _ _ (servingSystem false) 0 _ _ _ rfl (.invoke rfl rfl rfl rfl)

theorem step_invoked :
    AgentStep .ascii (fun _ => .null) archiveSettings (servingSystem true)
      (servingSystem false) :=
  @AgentStep.thread _ _ _ (servingSystem true) 0 _ _ _ rfl (.invoked rfl rfl)

/-- After `stop` the run of the group ends, and `free` deletes the task. -/
theorem steps_finished : ArchiveSteps { servingSystem true with quit := true } finishedSystem := by
  have left := Relation.ReflTransGen.single
    (@step_leave [⟨archiveGroup, .running, false, true⟩] [.start 0])
  have waiting := left.tail (.quitTask rfl)
  have invoked := waiting.tail (@AgentStep.thread _ _ _ _ 0 _ _ _ rfl (.invoked rfl rfl))
  have finished := invoked.tail
    (@AgentStep.thread _ _ _ _ 0 _ _ _ rfl (.finish rfl rfl (Or.inr rfl)))
  exact (finished.tail (.waited rfl rfl)).tail (.freed rfl)

/-- There is a run in which the agent gets through `start`, and stops after the call although
its task is in a run of its group. -/
theorem serves_archive :
    ∃ (run : AgentSystem.Run .ascii (fun _ => .null) archiveSettings) (started asked : Nat),
      run.state started = archiveSystem ⟨∅, [], []⟩ (.creating [archiveGroup]) ∧
      (∃ later ≥ started, (run.state later).phase = .looping false ∨
        (run.state later).phase = .stopped) ∧
      run.state asked = { servingSystem true with quit := true } ∧
      ∃ later ≥ asked, (run.state later).phase = .stopped := by
  have serving := (steps_serving.tail step_invoke).tail (.stop _)
  rcases (FairRun.rest finishedSystem still_finishedSystem).exists_after steps_finished with
    ⟨stopRun, _, stopBegins, _⟩
  rcases stopRun.exists_after (stopBegins ▸ serving) with
    ⟨startRun, length, startBegins, startGoesOn⟩
  rcases startRun.exists_after (startBegins ▸ steps_creating) with
    ⟨whole, first, begins, goesOn⟩
  let run : AgentSystem.Run .ascii (fun _ => .null) archiveSettings := ⟨whole, begins⟩
  have started := (goesOn 0).trans startBegins
  have asked := (goesOn length).trans ((startGoesOn 0).trans stopBegins)
  have serves := agentServes .ascii (fun _ => .null) archiveSettings (by decide)
  refine ⟨run, first, first + length, started, serves.settles run first trivial, asked, ?_⟩
  apply serves.stops run
  exact congrArg AgentSystem.quit asked

end QApr.Scheduler
