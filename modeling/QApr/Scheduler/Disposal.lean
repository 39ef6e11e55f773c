import QApr.Library.CallLog
import QApr.Scheduler.Restarts

/-!
# The tasks that the agent disposes of

`SchedulerAgentPvt::start` deletes the tasks that it replaces, and `free` deletes the
others or leaves them to `deleteLater`.  Every task that was built is in the table of the
agent, in the list of `free`, or was disposed of: a task moves from the first place over
the second to the third.
-/

namespace QApr.Scheduler

open QApr.Library QApr.Qt

/-- `delete task` and `task->deleteLater()` dispose of the task. -/
def TaskCall.disposes : TaskCall → Bool
  | delete _ | deleteLater _ => true
  | start _ | quit _ => false

/-- The calls that the agent makes on tasks. -/
def TaskCall.kind : CallKind TaskCall TaskPtr := ⟨TaskCall.task, TaskCall.disposes⟩

/-- The tasks that `free` has taken from the table and not yet disposed of. -/
def AgentPhase.pending : AgentPhase → List TaskPtr
  | .freeing tasks => tasks
  | .waiting task tasks => task :: tasks
  | .stopped | .looping _ | .creating _ | .starting _ | .polling _ _ => []

/-- `tasks.clear()` was called and `start` was not. -/
def AgentPhase.emptied : AgentPhase → Bool
  | .stopped | .freeing _ | .waiting _ _ => true
  | .looping _ | .creating _ | .starting _ | .polling _ _ => false

namespace SchedulerAgentPvt

variable (agent : SchedulerAgentPvt)

/-- The agent has disposed of the task. -/
def Disposed (task : TaskPtr) : Prop := TaskCall.kind.Disposed agent.calls task

/-- The task is in the table. -/
def Holds (task : TaskPtr) : Prop := ∃ uuid, agent.tasks.lookup uuid = some task

/-- Every task is in exactly one place, and the calls respect it. -/
structure Owns (pending : List TaskPtr) : Prop where
  keyed : agent.Keyed
  runs : ∀ thread ∈ agent.threads, thread.invoking = true → thread.phase = .running
  noUseAfter : TaskCall.kind.NoUseAfter agent.calls
  stopped : ∀ task, .delete task ∈ agent.calls → agent.isRunning task = false
  known : ∀ call ∈ agent.calls, call.task < agent.threads.length
  nodup : pending.Nodup
  waiting : ∀ task ∈ pending, task < agent.threads.length ∧ ¬agent.Disposed task
  table : ∀ task, agent.Holds task → task ∉ pending ∧ ¬agent.Disposed task
  covered : ∀ task < agent.threads.length,
    agent.Holds task ∨ task ∈ pending ∨ agent.Disposed task

variable {agent} {pending : List TaskPtr} {task : TaskPtr}

/-- `quit()` on a task that does not run changes no thread. -/
theorem quit_of_not_running (stopped : agent.isRunning task = false) :
    agent.quit task = { agent with calls := agent.calls ++ [.quit task] } := by
  have unchanged : agent.threads.modify task TaskThread.askToQuit = agent.threads := by
    apply modify_of_fixed
    intro thread present
    apply thread.askToQuit_of_not_running
    rw [← isRunning_of_some present, stopped]
  rw [quit, unchanged]

theorem insert_erase (tasks : QHash QUuid TaskPtr) (uuid : QUuid) (task : TaskPtr) :
    (tasks.erase uuid).insert uuid task = tasks.insert uuid task := by
  apply Finmap.ext_lookup
  intro key
  by_cases same : key = uuid
  · subst same
    rw [Finmap.lookup_insert, Finmap.lookup_insert]
  · rw [Finmap.lookup_insert_of_ne _ same, Finmap.lookup_insert_of_ne _ same,
      Finmap.lookup_erase_ne same]

theorem owns_empty : Owns ⟨∅, [], []⟩ [] where
  keyed := by
    intro uuid task mapped
    simp at mapped
  runs := by simp
  noUseAfter := CallKind.noUseAfter_nil
  stopped := by simp
  known := by simp
  nodup := List.nodup_nil
  waiting := by simp
  table := by simp [Holds]
  covered := by simp

namespace Owns

theorem lt_length (owns : agent.Owns pending) (held : agent.Holds task) :
    task < agent.threads.length := by
  rcases held with ⟨uuid, mapped⟩
  rcases owns.keyed uuid task mapped with ⟨thread, present, _⟩
  exact (List.getElem?_eq_some_iff.mp present).1

/-- A task that was not built yet was not disposed of. -/
theorem not_disposed_length (owns : agent.Owns pending) :
    ¬agent.Disposed agent.threads.length := by
  intro disposed
  rcases disposed with ⟨call, member, _, same⟩
  have bound := owns.known call member
  rw [show call.task = agent.threads.length from same] at bound
  exact Nat.lt_irrefl _ bound

/-- A thread advances; it becomes a running one only when its task is not deleted. -/
theorem set (owns : agent.Owns pending) {before after : TaskThread}
    (found : agent.threads[task]? = some before) (scopeEq : after.scope = before.scope)
    (runs : after.invoking = true → after.phase = .running)
    (running : after.isRunning = true → before.isRunning = true ∨ ¬agent.Disposed task) :
    Owns { agent with threads := agent.threads.set task after } pending where
  keyed := owns.keyed.set found scopeEq agent.calls
  runs := by
    intro thread member
    rcases List.mem_or_eq_of_mem_set member with old | rfl
    · exact owns.runs thread old
    · exact runs
  noUseAfter := owns.noUseAfter
  stopped := by
    intro other deleted
    have stopped := owns.stopped other deleted
    by_cases same : other = task
    · subst same
      have bound := (List.getElem?_eq_some_iff.mp found).1
      rw [isRunning_of_some (List.getElem?_set_self bound)]
      rw [isRunning_of_some found] at stopped
      cases now : after.isRunning with
      | false => rfl
      | true =>
          rcases running now with earlier | alive
          · exact earlier.symm.trans stopped
          · exact absurd ⟨_, deleted, rfl, rfl⟩ alive
    · rw [isRunning, List.getElem?_set_ne (Ne.symm same)]
      exact stopped
  known := by
    rw [List.length_set]
    exact owns.known
  nodup := owns.nodup
  waiting := by
    rw [List.length_set]
    exact owns.waiting
  table := owns.table
  covered := by
    rw [List.length_set]
    exact owns.covered

/-- A call that disposes of nothing, on a task that was not disposed of. -/
theorem call (owns : agent.Owns pending) (call : TaskCall) (keeps : call.disposes = false)
    (bound : call.task < agent.threads.length) (alive : ¬agent.Disposed call.task) :
    Owns { agent with calls := agent.calls ++ [call] } pending := by
  have same (task : TaskPtr) :
      Disposed { agent with calls := agent.calls ++ [call] } task ↔ agent.Disposed task :=
    CallKind.disposed_concat_of_keeps keeps
  refine ⟨owns.keyed, owns.runs, owns.noUseAfter.concat alive, ?_, ?_, owns.nodup, ?_, ?_, ?_⟩
  · intro task deleted
    rcases List.mem_append.mp deleted with old | new
    · exact owns.stopped task old
    · rw [← List.mem_singleton.mp new] at keeps
      contradiction
  · intro other member
    rcases List.mem_append.mp member with old | new
    · exact owns.known other old
    · rw [List.mem_singleton.mp new]
      exact bound
  · simp only [same]
    exact owns.waiting
  · simp only [same]
    exact owns.table
  · simp only [same]
    exact owns.covered

/-- `quit()` on a task that was not disposed of. -/
theorem quit (owns : agent.Owns pending) (bound : task < agent.threads.length)
    (alive : ¬agent.Disposed task) : (agent.quit task).Owns pending := by
  have found := List.getElem?_eq_getElem bound
  have asked : Owns { agent with
      threads := agent.threads.set task agent.threads[task].askToQuit } pending := by
    apply owns.set found (TaskThread.scope_askToQuit _)
    · exact owns.runs agent.threads[task] (List.getElem_mem bound)
    · exact Or.inl
  unfold SchedulerAgentPvt.quit
  rw [modify_of_some found]
  apply asked.call (.quit task) rfl _ alive
  rw [List.length_set]
  exact bound

/-- `start()` on a task of the table that does not run. -/
theorem startTask (owns : agent.Owns pending) (held : agent.Holds task)
    (notRunning : agent.isRunning task = false) : (agent.startTask task).Owns pending := by
  have bound := owns.lt_length held
  have alive := (owns.table task held).2
  have found := List.getElem?_eq_getElem bound
  rw [isRunning_of_some found] at notRunning
  have started : Owns { agent with
      threads := agent.threads.set task agent.threads[task].start } pending := by
    apply owns.set found (TaskThread.scope_start _)
    · intro invoking
      have phase := owns.runs _ (List.getElem_mem bound) invoking
      rw [TaskThread.isRunning, phase] at notRunning
      contradiction
    · intro _
      exact Or.inr alive
  unfold SchedulerAgentPvt.startTask
  rw [modify_of_some found]
  apply started.call (.start task) rfl _ alive
  rw [List.length_set]
  exact bound

/-- Taking a task out of the table. -/
theorem release (owns : agent.Owns pending) {uuid : QUuid}
    (mapped : agent.tasks.lookup uuid = some task) :
    Owns { agent with tasks := agent.tasks.erase uuid } (task :: pending) := by
  have table := owns.table task ⟨uuid, mapped⟩
  have remains (other : TaskPtr) :
      Holds { agent with tasks := agent.tasks.erase uuid } other ↔
        agent.Holds other ∧ other ≠ task := by
    constructor
    · intro held
      rcases held with ⟨key, found⟩
      have apart : key ≠ uuid := by
        rintro rfl
        simp [Finmap.lookup_erase] at found
      rw [Finmap.lookup_erase_ne apart] at found
      refine ⟨⟨key, found⟩, ?_⟩
      rintro rfl
      exact apart (owns.keyed.key_eq found mapped)
    · intro held
      rcases held with ⟨⟨key, found⟩, different⟩
      have apart : key ≠ uuid := by
        rintro rfl
        exact different (Option.some.inj (found.symm.trans mapped))
      exact ⟨key, by rw [Finmap.lookup_erase_ne apart, found]⟩
  refine ⟨?_, owns.runs, owns.noUseAfter, owns.stopped, owns.known, ?_, ?_, ?_, ?_⟩
  · intro key other found
    by_cases same : key = uuid
    · subst same
      simp [Finmap.lookup_erase] at found
    · rw [Finmap.lookup_erase_ne same] at found
      exact owns.keyed key other found
  · exact List.nodup_cons.mpr ⟨table.1, owns.nodup⟩
  · intro other member
    rcases List.mem_cons.mp member with rfl | old
    · exact ⟨owns.lt_length ⟨uuid, mapped⟩, table.2⟩
    · exact owns.waiting other old
  · intro other held
    obtain ⟨held, different⟩ := (remains other).mp held
    rw [List.mem_cons, not_or]
    exact ⟨⟨different, (owns.table other held).1⟩, (owns.table other held).2⟩
  · intro other bound
    rw [remains, List.mem_cons]
    by_cases same : other = task
    · exact Or.inr (Or.inl (Or.inl same))
    · rcases owns.covered other bound with held | waits | disposed
      · exact Or.inl ⟨held, same⟩
      · exact Or.inr (Or.inl (Or.inr waits))
      · exact Or.inr (Or.inr disposed)

/-- A task that was taken out of the table is deleted if it does not run, and left to
`deleteLater` otherwise. -/
theorem dispose (owns : agent.Owns (task :: pending)) {waited : Bool}
    (stopped : waited = true → agent.isRunning task = false) :
    (agent.dispose task waited).Owns pending := by
  obtain ⟨bound, alive⟩ := owns.waiting task List.mem_cons_self
  obtain ⟨absent, nodup⟩ := List.nodup_cons.mp owns.nodup
  have disposed (other : TaskPtr) :
      (agent.dispose task waited).Disposed other ↔ agent.Disposed other ∨ task = other := by
    rw [Disposed, SchedulerAgentPvt.dispose, CallKind.disposed_concat]
    cases waited <;> simp [Disposed, TaskCall.kind, TaskCall.disposes, TaskCall.task]
  have on (call : TaskCall) (last : call ∈ [if waited then .delete task else .deleteLater task]) :
      call.task = task := by
    rw [List.mem_singleton.mp last]
    cases waited <;> rfl
  refine ⟨owns.keyed, owns.runs, ?_, ?_, ?_, nodup, ?_, ?_, ?_⟩
  · apply owns.noUseAfter.concat
    rw [show TaskCall.kind.on _ = task from on _ (List.mem_singleton_self _)]
    exact alive
  · intro other deleted
    rcases List.mem_append.mp deleted with old | new
    · exact owns.stopped other old
    · have same : other = task := on _ new
      rw [same]
      apply stopped
      cases waited with
      | true => rfl
      | false => simp at new
  · intro call member
    rcases List.mem_append.mp member with old | new
    · exact owns.known call old
    · rw [on call new]
      exact bound
  · intro other member
    obtain ⟨otherBound, otherAlive⟩ := owns.waiting other (List.mem_cons_of_mem _ member)
    refine ⟨otherBound, ?_⟩
    rw [disposed]
    rintro (earlier | rfl)
    · exact otherAlive earlier
    · exact absent member
  · intro other held
    obtain ⟨apart, otherAlive⟩ := owns.table other held
    rw [List.mem_cons, not_or] at apart
    refine ⟨apart.2, ?_⟩
    rw [disposed]
    rintro (earlier | same)
    · exact otherAlive earlier
    · exact apart.1 same.symm
  · intro other otherBound
    rw [disposed]
    rcases owns.covered other otherBound with held | waits | earlier
    · exact Or.inl held
    · rcases List.mem_cons.mp waits with rfl | later
      · exact Or.inr (Or.inr (Or.inr rfl))
      · exact Or.inr (Or.inl later)
    · exact Or.inr (Or.inr (Or.inl earlier))

/-- A new task enters the table under a free key. -/
theorem insertNew (owns : agent.Owns pending) {scope : SchedulerScopeGroup}
    (free : agent.tasks.lookup scope.uuid = none) : (agent.insertNew scope).Owns pending := by
  have holds (other : TaskPtr) : (agent.insertNew scope).Holds other ↔
      agent.Holds other ∨ other = agent.threads.length := by
    constructor
    · intro held
      rcases held with ⟨key, found⟩
      by_cases same : key = scope.uuid
      · subst same
        simp only [SchedulerAgentPvt.insertNew, Finmap.lookup_insert, Option.some.injEq] at found
        exact Or.inr found.symm
      · simp only [SchedulerAgentPvt.insertNew, Finmap.lookup_insert_of_ne _ same] at found
        exact Or.inl ⟨key, found⟩
    · rintro (⟨key, found⟩ | rfl)
      · have apart : key ≠ scope.uuid := by
          rintro rfl
          rw [free] at found
          contradiction
        refine ⟨key, ?_⟩
        simp [SchedulerAgentPvt.insertNew, Finmap.lookup_insert_of_ne _ apart, found]
      · exact ⟨scope.uuid, Finmap.lookup_insert _⟩
  have longer : (agent.insertNew scope).threads.length = agent.threads.length + 1 :=
    List.length_append
  refine ⟨?_, ?_, owns.noUseAfter, ?_, ?_, owns.nodup, ?_, ?_, ?_⟩
  · intro key other found
    by_cases same : key = scope.uuid
    · subst same
      simp only [SchedulerAgentPvt.insertNew, Finmap.lookup_insert, Option.some.injEq] at found
      subst found
      exact ⟨_, List.getElem?_concat_length, rfl⟩
    · simp only [SchedulerAgentPvt.insertNew, Finmap.lookup_insert_of_ne _ same] at found
      rcases owns.keyed key other found with ⟨thread, present, uuidEq⟩
      exact ⟨thread, getElem?_append_of_some present _, uuidEq⟩
  · intro thread member invoking
    rcases List.mem_append.mp member with old | new
    · exact owns.runs thread old invoking
    · rw [List.mem_singleton.mp new] at invoking
      contradiction
  · intro other deleted
    exact (isRunning_append_build other scope).trans (owns.stopped other deleted)
  · intro call member
    rw [longer]
    exact Nat.lt_succ_of_lt (owns.known call member)
  · intro other member
    rw [longer]
    exact ⟨Nat.lt_succ_of_lt (owns.waiting other member).1, (owns.waiting other member).2⟩
  · intro other held
    rcases (holds other).mp held with old | rfl
    · exact owns.table other old
    · refine ⟨?_, owns.not_disposed_length⟩
      intro member
      exact Nat.lt_irrefl _ (owns.waiting _ member).1
  · intro other bound
    rw [holds]
    rw [longer] at bound
    rcases Nat.lt_succ_iff_lt_or_eq.mp bound with old | rfl
    · rcases owns.covered other old with held | elsewhere
      · exact Or.inl (Or.inl held)
      · exact Or.inr elsewhere
    · exact Or.inl (Or.inr rfl)

/-- A pass of the first loop of `start`. -/
theorem create (owns : agent.Owns pending) (chars : CharTable) (scopeList : List QString)
    (scope : SchedulerScopeGroup) : (agent.create chars scopeList scope).Owns pending := by
  unfold SchedulerAgentPvt.create
  cases scope.isScope chars scopeList with
  | false => exact owns
  | true =>
      cases found : agent.tasks.lookup scope.uuid with
      | none => exact owns.insertNew found
      | some task =>
          cases running : agent.isRunning task with
          | true => simpa [running] using owns
          | false =>
              -- The table forgets the old task when the new one takes its key.
              have released := owns.release found
              obtain ⟨bound, alive⟩ := released.waiting task List.mem_cons_self
              have asked := released.quit bound alive
              have forgotten : isRunning { agent with tasks := agent.tasks.erase scope.uuid }
                  task = false := running
              rw [quit_of_not_running forgotten] at asked
              have disposed := asked.dispose (fun _ => running : true = true → _)
              have inserted := disposed.insertNew (Finmap.lookup_erase _ _)
              have stillStopped : (agent.quit task).isRunning task = false := by
                rw [quit_of_not_running running]
                exact running
              simp only [running, stillStopped]
              rw [quit_of_not_running running]
              simpa [SchedulerAgentPvt.insertNew, SchedulerAgentPvt.dispose, insert_erase]
                using inserted

/-- `tasks.values()` and `tasks.clear()`. -/
theorem clear (owns : agent.Owns []) {keys : List QUuid}
    (iterates : Iterates agent.tasks keys) :
    Owns { agent with tasks := ∅ } (keys.filterMap agent.tasks.lookup) := by
  have taken (task : TaskPtr) : task ∈ keys.filterMap agent.tasks.lookup ↔ agent.Holds task := by
    rw [List.mem_filterMap]
    constructor
    · rintro ⟨key, _, found⟩
      exact ⟨key, found⟩
    · rintro ⟨key, found⟩
      refine ⟨key, ?_, found⟩
      rw [iterates.mem_iff, Finmap.mem_iff]
      exact ⟨task, found⟩
  have empty (task : TaskPtr) : ¬Holds { agent with tasks := ∅ } task := by
    simp [Holds]
  refine ⟨?_, owns.runs, owns.noUseAfter, owns.stopped, owns.known, ?_, ?_, ?_, ?_⟩
  · intro uuid task mapped
    simp at mapped
  · apply iterates.nodup.filterMap
    intro left right task leftFound rightFound
    exact owns.keyed.key_eq leftFound rightFound
  · intro task member
    have held := (taken task).mp member
    exact ⟨owns.lt_length held, (owns.table task held).2⟩
  · intro task held
    exact absurd held (empty task)
  · intro task bound
    rcases owns.covered task bound with held | waits | disposed
    · exact Or.inr (Or.inl ((taken task).mpr held))
    · contradiction
    · exact Or.inr (Or.inr disposed)

end Owns

end SchedulerAgentPvt

/-! ## The system -/

/-- Every task has its place, and the table is empty once `free` was called. -/
structure AgentSystem.Owned (system : AgentSystem) : Prop where
  owns : system.agent.Owns system.phase.pending
  emptied : system.phase.emptied = true → system.agent.tasks = ∅
  polled : ∀ task keys, system.phase = .polling task keys → system.agent.Holds task

theorem AgentSystem.owned_empty : AgentSystem.empty.Owned where
  owns := SchedulerAgentPvt.owns_empty
  emptied _ := rfl
  polled := by
    intro task keys phase
    simp [AgentSystem.empty] at phase

section Steps

variable {platform : Platform} {createUuid : Nat → QUuid} {settings : AgentSettings}

theorem AgentStep.owned {before after : AgentSystem}
    (step : AgentStep platform createUuid settings before after) (owned : before.Owned) :
    after.Owned := by
  have owns := owned.owns
  cases step with
  | reg => exact ⟨owns, owned.emptied, owned.polled⟩
  | stop => exact ⟨owns, owned.emptied, owned.polled⟩
  | start phase =>
      rw [phase] at owns
      exact ⟨owns, by simp [AgentPhase.emptied], by simp⟩
  | timer phase =>
      rw [phase] at owns
      exact ⟨owns, by simp [AgentPhase.emptied], by simp⟩
  | create phase =>
      rw [phase] at owns
      exact ⟨owns.create _ _ _, by simp [AgentPhase.emptied], by simp⟩
  | created phase =>
      rw [phase] at owns
      exact ⟨owns, by simp [AgentPhase.emptied], by simp⟩
  | startTask phase found notRunning =>
      rw [phase] at owns
      refine ⟨owns.startTask ⟨_, found⟩ notRunning, by simp [AgentPhase.emptied], ?_⟩
      intro task keys polling
      cases polling
      exact ⟨_, found⟩
  | polled phase =>
      rw [phase] at owns
      exact ⟨owns, by simp [AgentPhase.emptied], by simp⟩
  | skip phase =>
      rw [phase] at owns
      exact ⟨owns, by simp [AgentPhase.emptied], by simp⟩
  | started phase =>
      rw [phase] at owns
      exact ⟨owns, by simp [AgentPhase.emptied], by simp⟩
  | leave phase _ iterates =>
      rw [phase] at owns
      exact ⟨owns.clear iterates, fun _ => rfl, by simp⟩
  | quitTask phase =>
      have emptied := owned.emptied (by rw [phase]; rfl)
      rw [phase] at owns
      obtain ⟨bound, alive⟩ := owns.waiting _ List.mem_cons_self
      exact ⟨owns.quit bound alive, fun _ => emptied, by simp⟩
  | waited phase notRunning =>
      have emptied := owned.emptied (by rw [phase]; rfl)
      rw [phase] at owns
      exact ⟨owns.dispose fun _ => notRunning, fun _ => emptied, by simp⟩
  | timeout phase =>
      have emptied := owned.emptied (by rw [phase]; rfl)
      rw [phase] at owns
      exact ⟨owns.dispose (by simp), fun _ => emptied, by simp⟩
  | freed phase =>
      have emptied := owned.emptied (by rw [phase]; rfl)
      rw [phase] at owns
      exact ⟨owns, fun _ => emptied, by simp⟩
  | thread found step =>
      have runs := owns.runs _ (List.mem_of_getElem? found)
      refine ⟨owns.set found step.scope_eq (step.runs runs) ?_, owned.emptied, owned.polled⟩
      intro _
      exact Or.inl (step.isRunning runs)

theorem AgentReachable.owned {system : AgentSystem}
    (reachable : AgentReachable platform createUuid settings system) : system.Owned := by
  induction reachable with
  | refl => exact AgentSystem.owned_empty
  | tail _ step ih => exact step.owned ih

end Steps

/-- The agent calls its tasks in a safe order.  A task that was left to `deleteLater` may still
be in its thread, which calls its members without the agent. -/
structure AgentSystem.CallsSafely (system : AgentSystem) : Prop where
  /-- The agent calls no task after it has disposed of it, so it deletes none twice. -/
  noUseAfter : TaskCall.kind.NoUseAfter system.agent.calls
  /-- The tasks in the table, on the list of `free` and in the loop that waits for an event
  dispatcher exist. -/
  alive : ∀ task, system.agent.Holds task ∨ task ∈ system.phase.pending ∨
    (∃ keys, system.phase = .polling task keys) → ¬system.agent.Disposed task
  /-- A thread that runs was not deleted by the agent. -/
  stopped : ∀ task, .delete task ∈ system.agent.calls → system.agent.isRunning task = false
  /-- No task is lost. -/
  covered : ∀ task < system.agent.threads.length,
    system.agent.Holds task ∨ task ∈ system.phase.pending ∨ system.agent.Disposed task
  /-- Once the agent has stopped, each task was disposed of exactly once. -/
  freed : system.phase = .stopped → ∀ task < system.agent.threads.length,
    system.agent.calls.countP (fun call => call.disposes && decide (call.task = task)) = 1

theorem AgentSystem.Owned.callsSafely {system : AgentSystem} (owned : system.Owned) :
    system.CallsSafely where
  noUseAfter := owned.owns.noUseAfter
  alive := by
    rintro task (held | waits | ⟨keys, polling⟩)
    · exact (owned.owns.table task held).2
    · exact (owned.owns.waiting task waits).2
    · exact (owned.owns.table task (owned.polled task keys polling)).2
  stopped := owned.owns.stopped
  covered := owned.owns.covered
  freed := by
    intro phase task bound
    apply owned.owns.noUseAfter.countP_eq_one
    rcases owned.owns.covered task bound with held | waits | disposed
    · rcases held with ⟨uuid, mapped⟩
      rw [owned.emptied (by rw [phase]; rfl)] at mapped
      simp at mapped
    · rw [phase] at waits
      contradiction
    · exact disposed

/-- The agent has called its tasks in a safe order in every system that calls of `start` and
`stop`, registrations and the steps of all threads can reach. -/
def AgentCallsSafely (platform : Platform) (createUuid : Nat → QUuid)
    (settings : AgentSettings) : Prop :=
  ∀ system, AgentReachable platform createUuid settings system → system.CallsSafely

theorem agentCallsSafely (platform : Platform) (createUuid : Nat → QUuid)
    (settings : AgentSettings) : AgentCallsSafely platform createUuid settings := by
  intro system reachable
  exact reachable.owned.callsSafely

end QApr.Scheduler
