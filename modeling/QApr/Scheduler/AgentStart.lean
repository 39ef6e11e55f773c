import QApr.Library.Heap
import QApr.Scheduler.Agent
import Mathlib.Data.List.Induction

/-!
# Starting the agent

`SchedulerAgentPvt::start` leaves one running task for every selected group and every
task it had before, and disturbs no task that runs.  Each of its two loops has a
specification relative to the tasks at its beginning.
-/

namespace QApr.Scheduler

open QApr.Library QApr.Qt

namespace SchedulerAgentPvt

variable {chars : CharTable} {scopeList : List QString} {agent : SchedulerAgentPvt}

/-! ## The first loop -/

section Create

variable (chars : CharTable) (scopeList : List QString) (agent : SchedulerAgentPvt)

/-- The task under a uuid runs. -/
def runsAt (uuid : QUuid) : Bool :=
  (agent.tasks.lookup uuid).any agent.isRunning

/-- The group is selected, and its task is missing or does not run. -/
def replaces (scope : SchedulerScopeGroup) : Bool :=
  scope.isScope chars scopeList && !agent.runsAt scope.uuid

/-- What the first loop has done for a list of groups: the groups that need one have a
new task, and `made` are the calls on the tasks that were replaced. -/
structure Created (scopes : List SchedulerScopeGroup) (after : SchedulerAgentPvt)
    (made : List TaskCall) : Prop where
  calls : after.calls = agent.calls ++ made
  threads : ∃ built, after.threads = agent.threads ++ built
  isRunning : ∀ task, after.isRunning task = agent.isRunning task
  kept : ∀ uuid, (∀ scope ∈ scopes, agent.replaces chars scopeList scope = true →
    scope.uuid ≠ uuid) → after.tasks.lookup uuid = agent.tasks.lookup uuid
  built : ∀ scope ∈ scopes, agent.replaces chars scopeList scope = true →
    ∃ task, agent.threads.length ≤ task ∧ after.tasks.lookup scope.uuid = some task ∧
      after.threads[task]? = some (.build scope)
  made : ∀ call ∈ made, call ≠ .start call.task ∧ agent.isRunning call.task = false

end Create

theorem create_of_not_replaces {scope : SchedulerScopeGroup}
    (skipped : agent.replaces chars scopeList scope = false) :
    agent.create chars scopeList scope = agent := by
  unfold create
  unfold replaces runsAt at skipped
  cases selected : scope.isScope chars scopeList with
  | false => rfl
  | true =>
      cases found : agent.tasks.lookup scope.uuid with
      | none => simp [selected, found] at skipped
      | some task =>
          have running : agent.isRunning task = true := by simpa [selected, found] using skipped
          simp [running]

/-- A new task takes the place of the old one, which is quit and deleted. -/
theorem create_of_replaces {scope : SchedulerScopeGroup}
    (replaced : agent.replaces chars scopeList scope = true) :
    ∃ made, agent.create chars scopeList scope =
        { tasks := agent.tasks.insert scope.uuid agent.threads.length
          threads := agent.threads ++ [.build scope]
          calls := agent.calls ++ made } ∧
      ∀ call ∈ made, call ≠ .start call.task ∧ agent.isRunning call.task = false := by
  unfold replaces runsAt at replaced
  have selected : scope.isScope chars scopeList = true := (Bool.and_eq_true_iff.mp replaced).1
  unfold create
  cases found : agent.tasks.lookup scope.uuid with
  | none => exact ⟨[], by simp [selected, insertNew], by simp⟩
  | some task =>
      have stopped : agent.isRunning task = false := by
        simpa [selected, found] using replaced
      have unchanged : agent.threads.modify task TaskThread.askToQuit = agent.threads := by
        apply modify_of_fixed
        intro thread present
        apply thread.askToQuit_of_not_running
        simpa [isRunning, present] using stopped
      have quitEq : agent.quit task = { agent with calls := agent.calls ++ [.quit task] } := by
        rw [quit, unchanged]
      have stillStopped : (agent.quit task).isRunning task = false := by
        rw [quitEq]
        exact stopped
      refine ⟨[.quit task, .delete task], ?_, by simp [TaskCall.task, stopped]⟩
      simp only [selected, stopped, stillStopped]
      simp [quitEq, dispose, insertNew]

theorem isRunning_append_build (task : TaskPtr) (scope : SchedulerScopeGroup) :
    (agent.threads ++ [TaskThread.build scope])[task]?.any TaskThread.isRunning =
      agent.isRunning task := by
  unfold isRunning
  cases found : agent.threads[task]? with
  | some thread => rw [getElem?_append_of_some found]
  | none =>
      have outside := List.getElem?_eq_none_iff.mp found
      rw [List.getElem?_append_right outside]
      cases task - agent.threads.length <;> rfl

theorem created_nil : agent.Created chars scopeList [] agent [] where
  calls := (List.append_nil _).symm
  threads := ⟨[], (List.append_nil _).symm⟩
  isRunning _ := rfl
  kept _ _ := rfl
  built := by simp
  made := by simp

/-- One pass of the first loop, for a group with a new uuid. -/
theorem Created.create {scopes : List SchedulerScopeGroup} {after : SchedulerAgentPvt}
    {made : List TaskCall} (created : agent.Created chars scopeList scopes after made)
    {scope : SchedulerScopeGroup} (fresh : ∀ other ∈ scopes, other.uuid ≠ scope.uuid) :
    ∃ more, agent.Created chars scopeList (scopes ++ [scope])
      (after.create chars scopeList scope) (made ++ more) := by
  have lookupEq : after.tasks.lookup scope.uuid = agent.tasks.lookup scope.uuid :=
    created.kept scope.uuid fun other member _ => fresh other member
  have sameDecision : after.replaces chars scopeList scope =
      agent.replaces chars scopeList scope := by
    have sameRunning : after.isRunning = agent.isRunning := funext created.isRunning
    rw [replaces, runsAt, lookupEq, sameRunning]
    rfl
  cases replaced : agent.replaces chars scopeList scope with
  | false =>
      rw [create_of_not_replaces (sameDecision.trans replaced)]
      refine ⟨[], ?_⟩
      rw [List.append_nil]
      refine ⟨created.calls, created.threads, created.isRunning, ?_, ?_, created.made⟩
      · intro uuid others
        exact created.kept uuid fun other member => others other (by simp [member])
      · intro other member needed
        rcases List.mem_append.mp member with old | new
        · exact created.built other old needed
        · rw [List.mem_singleton.mp new, replaced] at needed
          contradiction
  | true =>
      rcases create_of_replaces (sameDecision.trans replaced) with ⟨more, afterEq, moreMade⟩
      rcases created.threads with ⟨built, threadsEq⟩
      have longer : agent.threads.length ≤ after.threads.length := by
        simp [threadsEq]
      rw [afterEq]
      refine ⟨more, ?_, ?_, ?_, ?_, ?_, ?_⟩
      · rw [created.calls, List.append_assoc]
      · exact ⟨built ++ [.build scope], by rw [threadsEq, List.append_assoc]⟩
      · intro task
        rw [← created.isRunning task]
        exact isRunning_append_build task scope
      · intro uuid others
        have apart : uuid ≠ scope.uuid := fun equal =>
          others scope (by simp) replaced equal.symm
        rw [Finmap.lookup_insert_of_ne _ apart]
        exact created.kept uuid fun other member => others other (by simp [member])
      · intro other member needed
        rcases List.mem_append.mp member with old | new
        · rcases created.built other old needed with ⟨task, isNew, found, present⟩
          refine ⟨task, isNew, ?_, getElem?_append_of_some present _⟩
          rw [Finmap.lookup_insert_of_ne _ (fresh other old), found]
        · rw [List.mem_singleton.mp new]
          exact ⟨after.threads.length, longer, Finmap.lookup_insert _, by simp⟩
      · intro call member
        rcases List.mem_append.mp member with old | new
        · exact created.made call old
        · rw [← created.isRunning]
          exact moreMade call new

/-- The first loop, for groups with distinct uuids. -/
theorem created_createAll {scopes : List SchedulerScopeGroup}
    (distinct : (scopes.map SchedulerScopeGroup.uuid).Nodup) :
    ∃ made, agent.Created chars scopeList scopes
      (agent.createAll chars scopeList scopes) made := by
  induction scopes using List.reverseRecOn with
  | nil => exact ⟨[], created_nil⟩
  | append_singleton earlier scope ih =>
      rw [List.map_append, List.nodup_append] at distinct
      rcases ih distinct.1 with ⟨made, created⟩
      have fresh : ∀ other ∈ earlier, other.uuid ≠ scope.uuid := by
        intro other member
        exact distinct.2.2 _ (List.mem_map_of_mem member) _ (by simp)
      rcases created.create fresh with ⟨more, createdNext⟩
      refine ⟨made ++ more, ?_⟩
      rw [createAll, List.foldl_append]
      exact createdNext

/-- What the tasks under a uuid are after the first loop. -/
theorem Created.lookup_cases {scopes : List SchedulerScopeGroup} {after : SchedulerAgentPvt}
    {made : List TaskCall} (created : agent.Created chars scopeList scopes after made)
    (uuid : QUuid) :
    (∃ scope ∈ scopes, agent.replaces chars scopeList scope = true ∧ scope.uuid = uuid) ∨
      after.tasks.lookup uuid = agent.tasks.lookup uuid := by
  by_cases needed : ∃ scope ∈ scopes,
      agent.replaces chars scopeList scope = true ∧ scope.uuid = uuid
  · exact Or.inl needed
  · apply Or.inr
    apply created.kept
    intro scope member replaced equal
    exact needed ⟨scope, member, replaced, equal⟩

/-- The tasks that were there before the first loop are as they were. -/
theorem Created.getElem?_of_some {scopes : List SchedulerScopeGroup}
    {after : SchedulerAgentPvt} {made : List TaskCall}
    (created : agent.Created chars scopeList scopes after made) {task : TaskPtr}
    {thread : TaskThread} (present : agent.threads[task]? = some thread) :
    after.threads[task]? = some thread := by
  have ⟨built, threadsEq⟩ := created.threads
  rw [threadsEq]
  exact getElem?_append_of_some present built

theorem Created.keyed {scopes : List SchedulerScopeGroup} {after : SchedulerAgentPvt}
    {made : List TaskCall} (created : agent.Created chars scopeList scopes after made)
    (keyed : agent.Keyed) : after.Keyed := by
  intro uuid task found
  rcases created.lookup_cases uuid with ⟨scope, member, replaced, rfl⟩ | same
  · rcases created.built scope member replaced with ⟨new, _, newFound, present⟩
    rw [newFound, Option.some.injEq] at found
    subst found
    exact ⟨_, present, rfl⟩
  · rw [same] at found
    have ⟨thread, present, uuidEq⟩ := keyed uuid task found
    exact ⟨thread, created.getElem?_of_some present, uuidEq⟩

/-- A key is in the table after the first loop when it was there or its group is
selected. -/
theorem Created.mem_iff {scopes : List SchedulerScopeGroup} {after : SchedulerAgentPvt}
    {made : List TaskCall} (created : agent.Created chars scopeList scopes after made)
    (uuid : QUuid) :
    uuid ∈ after.tasks ↔ uuid ∈ agent.tasks ∨
      ∃ scope ∈ scopes, scope.isScope chars scopeList = true ∧ scope.uuid = uuid := by
  simp only [Finmap.mem_iff]
  rcases created.lookup_cases uuid with ⟨scope, member, replaced, rfl⟩ | same
  · rcases created.built scope member replaced with ⟨new, _, found, _⟩
    apply iff_of_true ⟨new, found⟩
    exact Or.inr ⟨scope, member, (Bool.and_eq_true_iff.mp replaced).1, rfl⟩
  · rw [same]
    constructor
    · exact Or.inl
    · intro given
      rcases given with old | ⟨scope, member, selected, rfl⟩
      · exact old
      · cases found : agent.tasks.lookup scope.uuid with
        | some task => exact ⟨task, rfl⟩
        | none =>
            have needed : agent.replaces chars scopeList scope = true := by
              simp [replaces, runsAt, selected, found]
            rcases created.built scope member needed with ⟨new, _, newFound, _⟩
            rw [same, found] at newFound
            contradiction

/-! ## The second loop -/

/-- The tasks under some keys that do not run. -/
def stopped (agent : SchedulerAgentPvt) (keys : List QUuid) : List TaskPtr :=
  keys.filterMap fun key => (agent.tasks.lookup key).filter (!agent.isRunning ·)

theorem mem_stopped {keys : List QUuid} {task : TaskPtr} :
    task ∈ agent.stopped keys ↔
      (∃ key ∈ keys, agent.tasks.lookup key = some task) ∧ agent.isRunning task = false := by
  simp only [stopped, List.mem_filterMap, Option.filter_eq_some_iff, Bool.not_eq_true']
  constructor
  · intro given
    rcases given with ⟨key, member, found, notRunning⟩
    exact ⟨⟨key, member, found⟩, notRunning⟩
  · intro given
    rcases given with ⟨⟨key, member, found⟩, notRunning⟩
    exact ⟨key, member, found, notRunning⟩

/-- Tasks under different keys are different. -/
theorem Keyed.key_eq (keyed : agent.Keyed) {left right : QUuid} {task : TaskPtr}
    (leftFound : agent.tasks.lookup left = some task)
    (rightFound : agent.tasks.lookup right = some task) : left = right := by
  rcases keyed left task leftFound with ⟨thread, present, leftEq⟩
  rcases keyed right task rightFound with ⟨other, otherPresent, rightEq⟩
  rw [present, Option.some.injEq] at otherPresent
  rw [← leftEq, ← rightEq, otherPresent]

/-- What the second loop has done for a list of keys: the tasks that did not run were
started. -/
structure Resumed (agent : SchedulerAgentPvt) (keys : List QUuid) (after : SchedulerAgentPvt) :
    Prop where
  tasks : after.tasks = agent.tasks
  calls : after.calls = agent.calls ++ (agent.stopped keys).map .start
  threads : ∀ task, after.threads[task]? = (agent.threads[task]?).map fun thread =>
    if task ∈ agent.stopped keys then thread.start else thread

theorem resumed_nil : agent.Resumed [] agent where
  tasks := rfl
  calls := (List.append_nil _).symm
  threads task := by simp [stopped]

/-- Keys without a stopped task change nothing. -/
theorem Resumed.of_stopped_eq {keys more : List QUuid} {after : SchedulerAgentPvt}
    (resumed : agent.Resumed keys after) (same : agent.stopped more = agent.stopped keys) :
    agent.Resumed more after where
  tasks := resumed.tasks
  calls := by
    rw [same]
    exact resumed.calls
  threads := by
    rw [same]
    exact resumed.threads

theorem Resumed.resume {keys : List QUuid} {after : SchedulerAgentPvt}
    (resumed : agent.Resumed keys after) (keyed : agent.Keyed) {key : QUuid}
    (fresh : key ∉ keys) : agent.Resumed (keys ++ [key]) (after.resume key) := by
  have stoppedEq : agent.stopped (keys ++ [key]) = agent.stopped keys ++
      ((agent.tasks.lookup key).filter (!agent.isRunning ·)).toList := by
    rw [stopped, List.filterMap_append]
    cases found : (agent.tasks.lookup key).filter (!agent.isRunning ·) <;> simp [stopped, found]
  unfold SchedulerAgentPvt.resume
  rw [resumed.tasks]
  cases found : agent.tasks.lookup key with
  | none =>
      have same : agent.stopped (keys ++ [key]) = agent.stopped keys := by
        simp [stoppedEq, found]
      exact resumed.of_stopped_eq same
  | some task =>
      -- No earlier key has this task, so it is as it was before the loop.
      have unvisited : task ∉ agent.stopped keys := by
        intro visited
        rcases (mem_stopped.mp visited).1 with ⟨other, member, otherFound⟩
        rw [keyed.key_eq found otherFound] at fresh
        exact fresh member
      have sameRunning : after.isRunning task = agent.isRunning task := by
        rw [isRunning, resumed.threads, isRunning]
        simp [unvisited]
      simp only [sameRunning]
      cases running : agent.isRunning task with
      | true =>
          have same : agent.stopped (keys ++ [key]) = agent.stopped keys := by
            simp [stoppedEq, found, running]
          exact resumed.of_stopped_eq same
      | false =>
          have more : agent.stopped (keys ++ [key]) = agent.stopped keys ++ [task] := by
            simp [stoppedEq, found, running]
          refine ⟨resumed.tasks, ?_, ?_⟩
          · simp [startTask, more, resumed.calls]
          · intro other
            simp only [Bool.false_eq_true, ↓reduceIte, startTask, List.getElem?_modify,
              resumed.threads, more, List.mem_append, List.mem_singleton]
            by_cases same : task = other
            · subst same
              cases agent.threads[task]? <;> simp [unvisited]
            · cases agent.threads[other]? <;> simp [same, Ne.symm same]

theorem resumed_resumeAll (keyed : agent.Keyed) {keys : List QUuid} (nodup : keys.Nodup) :
    agent.Resumed keys (agent.resumeAll keys) := by
  induction keys using List.reverseRecOn with
  | nil => exact resumed_nil
  | append_singleton earlier key ih =>
      rw [List.nodup_append] at nodup
      rw [resumeAll, List.foldl_append]
      apply (ih nodup.1).resume keyed
      intro member
      exact nodup.2.2 key member key (by simp) rfl

/-- The tasks that are started are different. -/
theorem nodup_stopped (keyed : agent.Keyed) {keys : List QUuid} (nodup : keys.Nodup) :
    (agent.stopped keys).Nodup := by
  apply nodup.filterMap
  intro left right task leftFound rightFound
  rw [Option.mem_def, Option.filter_eq_some_iff] at leftFound rightFound
  exact keyed.key_eq leftFound.1 rightFound.1

/-! ## Both loops -/

section Start

variable (chars : CharTable) (scopeList : List QString) (scopes : List SchedulerScopeGroup)

/-- `start` has run every selected group and every task of the table, and has left the
tasks that ran alone; `made` are the calls that it made on tasks. -/
structure Complete (before after : SchedulerAgentPvt) (made : List TaskCall) : Prop where
  calls : after.calls = before.calls ++ made
  mem_iff : ∀ uuid, uuid ∈ after.tasks ↔ uuid ∈ before.tasks ∨
    ∃ scope ∈ scopes, scope.isScope chars scopeList = true ∧ scope.uuid = uuid
  keyed : after.Keyed
  undisturbed : ∀ uuid task, before.tasks.lookup uuid = some task →
    before.isRunning task = true →
    after.tasks.lookup uuid = some task ∧ after.threads[task]? = before.threads[task]? ∧
      ∀ call ∈ made, call.task ≠ task
  replaced : ∀ scope ∈ scopes, scope.isScope chars scopeList = true →
    ∀ task, before.tasks.lookup scope.uuid = some task → before.isRunning task = false →
    ∃ new, before.threads.length ≤ new ∧ after.tasks.lookup scope.uuid = some new ∧
      ∃ thread, after.threads[new]? = some thread ∧ thread.scope = scope
  started : ∀ uuid task, after.tasks.lookup uuid = some task →
    after.isRunning task = true ∧
      (made.count (.start task) = 1 ∨
        made.count (.start task) = 0 ∧ before.tasks.lookup uuid = some task ∧
          before.isRunning task = true)

end Start

section Loops

variable {scopes : List SchedulerScopeGroup} {created after : SchedulerAgentPvt}
  {made : List TaskCall} {keys : List QUuid} {uuid : QUuid} {task : TaskPtr}

/-- A task that runs is still under its key after the first loop. -/
theorem Created.undisturbed (first : agent.Created chars scopeList scopes created made)
    (found : agent.tasks.lookup uuid = some task) (running : agent.isRunning task = true) :
    created.tasks.lookup uuid = some task := by
  rw [first.kept, found]
  intro scope _ replaced equal
  have runs : agent.runsAt scope.uuid = true := by
    rw [runsAt, equal, found]
    exact running
  simp [replaces, runs] at replaced

/-- A task that runs after the first loop was there before. -/
theorem Created.lookup_of_running (first : agent.Created chars scopeList scopes created made)
    (found : created.tasks.lookup uuid = some task) (running : created.isRunning task = true) :
    agent.tasks.lookup uuid = some task := by
  rcases first.lookup_cases uuid with ⟨scope, member, replaced, rfl⟩ | same
  · rcases first.built scope member replaced with ⟨new, _, newFound, present⟩
    rw [newFound, Option.some.injEq] at found
    rw [← found, SchedulerAgentPvt.isRunning, present] at running
    contradiction
  · rw [← same, found]

/-- All calls of both loops are made on tasks that did not run before. -/
theorem not_running_of_call (first : agent.Created chars scopeList scopes created made)
    {call : TaskCall} (member : call ∈ made ++ (created.stopped keys).map .start) :
    agent.isRunning call.task = false := by
  rcases List.mem_append.mp member with replacing | starting
  · exact (first.made call replacing).2
  · rcases List.mem_map.mp starting with ⟨started, isStopped, rfl⟩
    rw [← first.isRunning]
    exact (mem_stopped.mp isStopped).2

/-- The first loop starts no task, the second one each task that does not run. -/
theorem count_start (first : agent.Created chars scopeList scopes created made)
    (keyed : created.Keyed) (nodup : keys.Nodup) :
    (made ++ (created.stopped keys).map TaskCall.start).count (TaskCall.start task) =
      if task ∈ created.stopped keys then 1 else 0 := by
  have noStart : made.count (.start task) = 0 := by
    apply List.count_eq_zero.mpr
    intro member
    exact (first.made _ member).1 rfl
  have injective : Function.Injective TaskCall.start := fun _ _ => TaskCall.start.inj
  rw [List.count_append, noStart, Nat.zero_add, List.count_map_of_injective _ _ injective]
  exact (nodup_stopped keyed nodup).count

/-- After the second loop a visited task runs. -/
theorem Resumed.isRunning_of_visited (second : created.Resumed keys after)
    {thread : TaskThread} (present : created.threads[task]? = some thread)
    (found : created.tasks.lookup uuid = some task) (visited : uuid ∈ keys) :
    after.isRunning task = true := by
  rw [isRunning, second.threads, present, Option.map_some, Option.any_some]
  split
  next => exact thread.isRunning_start
  next unstarted =>
    cases running : created.isRunning task with
    | false => exact absurd (mem_stopped.mpr ⟨⟨uuid, visited, found⟩, running⟩) unstarted
    | true =>
        unfold isRunning at running
        rw [present] at running
        exact running

/-- The two loops make `start` complete. -/
theorem complete_of_loops (first : agent.Created chars scopeList scopes created made)
    (keyed : agent.Keyed) (second : created.Resumed keys after)
    (iterates : Iterates created.tasks keys) :
    agent.Complete chars scopeList scopes after
      (made ++ (created.stopped keys).map .start) where
  calls := by rw [second.calls, first.calls, List.append_assoc]
  mem_iff uuid := by
    rw [second.tasks]
    exact first.mem_iff uuid
  keyed := by
    intro uuid task found
    rw [second.tasks] at found
    rcases first.keyed keyed uuid task found with ⟨thread, present, uuidEq⟩
    rw [second.threads, present]
    refine ⟨_, rfl, ?_⟩
    split <;> exact uuidEq
  undisturbed := by
    intro uuid task found running
    have unstarted : task ∉ created.stopped keys := by
      intro started
      rw [← first.isRunning, (mem_stopped.mp started).2] at running
      contradiction
    refine ⟨?_, ?_, ?_⟩
    · rw [second.tasks]
      exact first.undisturbed found running
    · rcases keyed uuid task found with ⟨thread, present, _⟩
      rw [second.threads, first.getElem?_of_some present, present]
      simp [unstarted]
    · intro call member equal
      rw [← equal, not_running_of_call first member] at running
      contradiction
  replaced := by
    intro scope member selected task found notRunning
    have needed : agent.replaces chars scopeList scope = true := by
      simp [replaces, runsAt, selected, found, notRunning]
    rcases first.built scope member needed with ⟨new, isNew, newFound, present⟩
    refine ⟨new, isNew, ?_, ?_⟩
    · rw [second.tasks, newFound]
    · rw [second.threads, present]
      refine ⟨_, rfl, ?_⟩
      split <;> rfl
  started := by
    intro uuid task found
    rw [second.tasks] at found
    have createdKeyed := first.keyed keyed
    have visited : uuid ∈ keys := by
      rw [iterates.mem_iff, Finmap.mem_iff]
      exact ⟨task, found⟩
    rcases createdKeyed uuid task found with ⟨thread, present, _⟩
    refine ⟨second.isRunning_of_visited present found visited, ?_⟩
    rw [count_start first createdKeyed iterates.nodup]
    cases running : created.isRunning task with
    | false =>
        have started := mem_stopped.mpr ⟨⟨uuid, visited, found⟩, running⟩
        exact Or.inl (if_pos started)
    | true =>
        have unstarted : task ∉ created.stopped keys := by
          intro started
          rw [(mem_stopped.mp started).2] at running
          contradiction
        refine Or.inr ⟨if_neg unstarted, first.lookup_of_running found running, ?_⟩
        rw [← first.isRunning, running]

end Loops

/-! ## A second start -/

/-- With a running task for every selected group the first loop does nothing. -/
theorem createAll_of_running {scopes : List SchedulerScopeGroup}
    (running : ∀ scope ∈ scopes, scope.isScope chars scopeList = true →
      agent.runsAt scope.uuid = true) :
    agent.createAll chars scopeList scopes = agent := by
  have unchanged : ∀ scope ∈ scopes, agent.create chars scopeList scope = agent := by
    intro scope member
    apply create_of_not_replaces
    cases selected : scope.isScope chars scopeList with
    | false => simp [replaces, selected]
    | true => simp [replaces, running scope member selected]
  apply List.foldlRecOn (motive := (· = agent)) _ _ rfl
  intro after same scope member
  rw [same, unchanged scope member]

/-- With running tasks only the second loop does nothing. -/
theorem resumeAll_of_running
    (running : ∀ uuid task, agent.tasks.lookup uuid = some task → agent.isRunning task = true)
    (keys : List QUuid) : agent.resumeAll keys = agent := by
  have unchanged : ∀ key, agent.resume key = agent := by
    intro key
    unfold resume
    cases found : agent.tasks.lookup key with
    | none => rfl
    | some task => simp [running key task found]
  apply List.foldlRecOn (motive := (· = agent)) _ _ rfl
  intro after same key _
  rw [same, unchanged key]

/-- `start` is complete, and a second `start` while all tasks run changes nothing. -/
theorem start_complete {scopes : List SchedulerScopeGroup}
    (distinct : (scopes.map SchedulerScopeGroup.uuid).Nodup) (keyed : agent.Keyed)
    {keys : List QUuid}
    (iterates : Iterates (agent.createAll chars scopeList scopes).tasks keys) :
    (∃ made, agent.Complete chars scopeList scopes (agent.start chars scopeList scopes keys)
        made) ∧
      ∀ again, (agent.start chars scopeList scopes keys).start chars scopeList scopes again =
        agent.start chars scopeList scopes keys := by
  rcases @created_createAll chars scopeList agent scopes distinct with ⟨made, first⟩
  have second := resumed_resumeAll (first.keyed keyed) iterates.nodup
  have complete : agent.Complete chars scopeList scopes
      (agent.start chars scopeList scopes keys) _ :=
    complete_of_loops first keyed second iterates
  refine ⟨⟨_, complete⟩, ?_⟩
  intro again
  have allRunning (uuid : QUuid) (task : TaskPtr)
      (found : (agent.start chars scopeList scopes keys).tasks.lookup uuid = some task) :
      (agent.start chars scopeList scopes keys).isRunning task = true :=
    (complete.started uuid task found).1
  have selectedRun : ∀ scope ∈ scopes, scope.isScope chars scopeList = true →
      (agent.start chars scopeList scopes keys).runsAt scope.uuid = true := by
    intro scope member selected
    have present := (complete.mem_iff scope.uuid).mpr (Or.inr ⟨scope, member, selected, rfl⟩)
    rcases Finmap.mem_iff.mp present with ⟨task, found⟩
    rw [runsAt, found]
    exact allRunning scope.uuid task found
  change ((agent.start chars scopeList scopes keys).createAll chars scopeList scopes).resumeAll
    again = _
  rw [createAll_of_running selectedRun, resumeAll_of_running allRunning]

end SchedulerAgentPvt

/-- The default group of a scope. -/
def namedGroup (name : String) : SchedulerScopeGroup :=
  .new .ascii (Platform.ascii.pairUuid name.toList defaultName) name.toList defaultName false
    (schedulerClass name none [])

def nightScopes : List SchedulerScopeGroup :=
  [namedGroup "nightly", namedGroup "default"]

/-- The names of both scopes, one in capital letters. -/
def nightFilter : List QString :=
  ["NIGHTLY".toList, "default".toList]

/-- An agent with a running task for one group and a finished task for the other. -/
def nightAgent : SchedulerAgentPvt where
  tasks := ((∅ : QHash QUuid TaskPtr).insert (namedGroup "nightly").uuid 0).insert
    (namedGroup "default").uuid 1
  threads := [⟨namedGroup "nightly", .running, false, true⟩,
    ⟨namedGroup "default", .finished, false, false⟩]
  calls := []

theorem keyed_nightAgent : nightAgent.Keyed := by
  intro uuid task found
  have known : uuid = (namedGroup "default").uuid ∨ uuid = (namedGroup "nightly").uuid := by
    have present : uuid ∈ nightAgent.tasks := Finmap.mem_iff.mpr ⟨task, found⟩
    simpa [nightAgent, Finmap.mem_insert, Finmap.notMem_empty] using present
  rcases known with rfl | rfl
  · have stored : nightAgent.tasks.lookup (namedGroup "default").uuid = some 1 := by decide
    cases stored.symm.trans found
    exact ⟨_, rfl, rfl⟩
  · have stored : nightAgent.tasks.lookup (namedGroup "nightly").uuid = some 0 := by decide
    cases stored.symm.trans found
    exact ⟨_, rfl, rfl⟩

theorem iterates_nightAgent :
    SchedulerAgentPvt.Iterates (nightAgent.createAll .ascii nightFilter nightScopes).tasks
      (nightScopes.map SchedulerScopeGroup.uuid) := by
  have tasksEq : (nightAgent.createAll .ascii nightFilter nightScopes).tasks =
      nightAgent.tasks.insert (namedGroup "default").uuid 2 := by
    decide
  refine ⟨by decide, ?_⟩
  intro key
  rw [tasksEq]
  simp [nightAgent, nightScopes, Finmap.mem_insert, Finmap.notMem_empty, or_comm]

/-- The agent after a start. -/
def nightStarted : SchedulerAgentPvt :=
  nightAgent.start .ascii nightFilter nightScopes
    (nightScopes.map SchedulerScopeGroup.uuid)

theorem start_complete_nightAgent :
    (∃ made, nightAgent.Complete .ascii nightFilter nightScopes nightStarted made) ∧
      nightStarted.start .ascii nightFilter nightScopes [] = nightStarted :=
  have both := SchedulerAgentPvt.start_complete (by decide) keyed_nightAgent iterates_nightAgent
  ⟨both.1, both.2 []⟩

end QApr.Scheduler
