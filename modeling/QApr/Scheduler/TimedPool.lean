import QApr.Library.Simulation
import QApr.Scheduler.TaskRuns
import QApr.Scheduler.TaskTimer

/-!
# The timers and the pool of tasks

The threads of the tasks on one clock and the tasks of the pool are the same tasks.  The
clock knows when a run may begin and does not look into it; the pool knows the methods of a
run and no time.  With positive intervals both show the same histories: the places of the
tasks and the owner of the mutex, in the order in which they change.
-/

namespace QApr.Scheduler

open QApr.Library QApr.Qt Relation

/-- The place of a task on the clock. -/
def TimerPhase.place : TimerPhase → TaskPlace
  | .stopped | .looping | .locking => .outside
  | .invoking _ => .running
  | .unlocking => .leaving

/-- In the loop a timer is armed, and it is before the loop is entered again. -/
structure TimedTask.Armed (task : TimedTask) : Prop where
  looping : task.phase = .looping → task.singleShot ≠ none ∨ task.timer ≠ none
  unlocking : task.phase = .unlocking → task.timer ≠ none

section Shows

variable {n : ℕ} (synchronize : Fin n → Bool)

/-- The tasks on the clock are those of the pool, at the same places. -/
structure TimerSystem.Shows (system : TimerSystem (Fin n)) (pool : System) : Prop where
  length : pool.tasks.length = n
  owner : pool.owner = system.owner.map Fin.val
  tasks : ∀ (self : Fin n) task, pool.tasks[self.val]? = some task →
    task.synchronize = synchronize self ∧ task.phase.place = (system.tasks self).phase.place

/-- What is known of two systems that show the same tasks. -/
structure TimerSystem.Paired (system : TimerSystem (Fin n)) (pool : System) : Prop where
  shows : system.Shows synchronize pool
  armed : ∀ self, (system.tasks self).Armed
  synchronized : pool.Synchronized

/-- What is seen of the threads. -/
def TimerSystem.seen (system : TimerSystem (Fin n)) : Sight :=
  (List.ofFn fun self => (system.tasks self).phase.place, system.owner.map Fin.val)

/-- Threads that were never started. -/
def TimerSystem.new (now : QDateTime) : TimerSystem (Fin n) := ⟨now, none, fun _ => .new⟩

variable (platform : Platform) (createUuid : Nat → QUuid) (settings : Fin n → TaskSettings)

/-- Every history of the threads, from whatever time on, is one of the pool that builds no
tasks, and the other way round. -/
structure TimersMatchTasks (pool : System) : Prop where
  forward : ∀ now history system,
    History (TimerSystemStep settings synchronize) TimerSystem.seen (.new now) history system →
      ∃ after, History (ServeStep platform createUuid) System.seen pool history after ∧
        system.Shows synchronize after
  backward : ∀ now history after,
    History (ServeStep platform createUuid) System.seen pool history after →
      ∃ system, History (TimerSystemStep settings synchronize) TimerSystem.seen (.new now)
        history system ∧ system.Shows synchronize after

end Shows

theorem serves_synchronized {platform : Platform} {createUuid : Nat → QUuid}
    {before after : System} (steps : ReflTransGen (ServeStep platform createUuid) before after)
    (invariant : before.Synchronized) : after.Synchronized := by
  induction steps with
  | refl => exact invariant
  | tail _ step ih => exact step.1.synchronized ih

/-! ## Steps of the threads -/

section Threads

variable {ι : Type} {settings : TaskSettings} {synchronize : Bool} {self : ι}
  {now : QDateTime} {ownerBefore owner : Option ι} {before after : TimedTask}

theorem armed_new : TimedTask.new.Armed where
  looping := by simp [TimedTask.new]
  unlocking := by simp [TimedTask.new]

/-- With a positive interval a thread never waits in its loop for nothing. -/
theorem TimerStep.armed
    (step : TimerStep settings synchronize self now ownerBefore before owner after)
    (positive : 0 < settings.activityInterval) (armed : before.Armed) : after.Armed := by
  cases step with
  | run => exact ⟨fun _ => Or.inl (Option.some_ne_none _), by simp⟩
  | finish =>
      refine ⟨by simp, fun _ => ?_⟩
      simp [TimedTask.timerStart, Int.not_le.mpr positive]
  | unlock phase => exact ⟨fun _ => Or.inr (armed.unlocking phase), by simp⟩
  | leave phase => exact ⟨fun _ => Or.inr (armed.unlocking phase), by simp⟩
  | shot => exact ⟨by simp, by simp⟩
  | timeout => exact ⟨by simp, by simp⟩
  | lock => exact ⟨by simp, by simp⟩
  | enter => exact ⟨by simp, by simp⟩
  | quit => exact ⟨by simp, by simp⟩

end Threads

section Clock

variable {n : ℕ} {settings : Fin n → TaskSettings} {synchronize : Fin n → Bool}
  {before after system : TimerSystem (Fin n)}

theorem TimerSystemStep.armed (positive : ∀ self, 0 < (settings self).activityInterval)
    (step : TimerSystemStep settings synchronize before after)
    (armed : ∀ self, (before.tasks self).Armed) : ∀ self, (after.tasks self).Armed := by
  cases step with
  | elapse => exact armed
  | @task self owner timed step =>
      intro other
      by_cases same : other = self
      · subst same
        simpa using step.armed (positive other) (armed other)
      · simpa [same] using armed other

theorem armed_of_steps (positive : ∀ self, 0 < (settings self).activityInterval)
    (steps : ReflTransGen (TimerSystemStep settings synchronize) before after)
    (armed : ∀ self, (before.tasks self).Armed) : ∀ self, (after.tasks self).Armed := by
  induction steps with
  | refl => exact armed
  | tail _ step ih => exact step.armed positive ih

/-- The other tasks and the mutex are as before the steps of one thread. -/
structure TimerSystem.Elsewhere (moved : Fin n) (before after : TimerSystem (Fin n)) :
    Prop where
  owner : after.owner = before.owner
  tasks : ∀ other, other ≠ moved → after.tasks other = before.tasks other

/-- A thread that stays at its place. -/
theorem TimerSystem.seen_update {self : Fin n} {timed : TimedTask}
    (same : timed.phase.place = (system.tasks self).phase.place) :
    TimerSystem.seen { system with tasks := Function.update system.tasks self timed } =
      system.seen := by
  have places : (fun other => (Function.update system.tasks self timed other).phase.place) =
      fun other => (system.tasks other).phase.place := by
    funext other
    by_cases isSelf : other = self
    · subst isSelf
      rw [Function.update_self, same]
    · rw [Function.update_of_ne isSelf]
  rw [TimerSystem.seen, places]
  rfl

/-- The threads take steps that are not seen. -/
abbrev QuietClock (settings : Fin n → TaskSettings) (synchronize : Fin n → Bool)
    (system : TimerSystem (Fin n)) : TimerSystem (Fin n) → Prop :=
  History (TimerSystemStep settings synchronize) TimerSystem.seen system []

/-- A timer that has expired is delivered. -/
theorem delivers_of_expired {interval due now : Int} (positive : 0 < interval)
    (expired : due ≤ now) : 20 * (due - now) ≤ interval := by
  omega

theorem TaskSettings.firstDelay_pos (settings : TaskSettings) : 0 < settings.firstDelay := by
  unfold firstDelay
  split <;> omega

/-- A timer of a task expires, and its thread goes to the mutex. -/
theorem quiet_of_due {self : Fin n} (positive : 0 < (settings self).activityInterval)
    (phase : (system.tasks self).phase = .looping) {due : QDateTime}
    (armed : (system.tasks self).singleShot = some due ∨ (system.tasks self).timer = some due) :
    ∃ next, QuietClock settings synchronize system next ∧
      (next.tasks self).phase = .locking ∧ TimerSystem.Elsewhere self system next := by
  let waited : TimerSystem (Fin n) := { system with now := max system.now due }
  have waits : QuietClock settings synchronize system waited :=
    History.start.quiet (.elapse system (le_max_left _ _)) rfl
  have expired : due ≤ waited.now := le_max_right _ _
  have moves {timed : TimedTask} (locking : timed.phase = .locking)
      (step : TimerStep (settings self) (synchronize self) self waited.now waited.owner
        (waited.tasks self) waited.owner timed) :
      ∃ next, QuietClock settings synchronize system next ∧
        (next.tasks self).phase = .locking ∧ TimerSystem.Elsewhere self system next := by
    have same : timed.phase.place = (waited.tasks self).phase.place := by
      rw [locking, show (waited.tasks self).phase = .looping from phase]
      rfl
    refine ⟨{ waited with tasks := Function.update waited.tasks self timed },
      waits.quiet (.task waited self step) (TimerSystem.seen_update same), ?_, rfl, ?_⟩
    · simpa using locking
    · exact fun other different => Function.update_of_ne different _ _
  rcases armed with shot | timer
  · have delivers := delivers_of_expired (settings self).firstDelay_pos expired
    exact moves rfl (.shot phase shot delivers)
  · have delivers := delivers_of_expired positive expired
    exact moves rfl (.timeout phase timer delivers)

/-- A task outside of a run can come to the mutex while all others wait. -/
theorem quiet_to_locking (self : Fin n) (positive : 0 < (settings self).activityInterval)
    (outside : (system.tasks self).phase.place = .outside)
    (armed : (system.tasks self).Armed) :
    ∃ next, QuietClock settings synchronize system next ∧
      (next.tasks self).phase = .locking ∧ TimerSystem.Elsewhere self system next := by
  cases phase : (system.tasks self).phase with
  | invoking => simp [phase, TimerPhase.place] at outside
  | unlocking => simp [phase, TimerPhase.place] at outside
  | locking => exact ⟨system, .start, phase, rfl, fun _ _ => rfl⟩
  | looping =>
      rcases armed.looping phase with shot | timer
      · rcases Option.ne_none_iff_exists'.mp shot with ⟨due, shot⟩
        exact quiet_of_due positive phase (Or.inl shot)
      · rcases Option.ne_none_iff_exists'.mp timer with ⟨due, timer⟩
        exact quiet_of_due positive phase (Or.inr timer)
  | stopped =>
      let due := system.now + (settings self).firstDelay
      let timed : TimedTask :=
        { system.tasks self with
          phase := .looping
          singleShot := some due
          session := (system.tasks self).session + 1 }
      let started : TimerSystem (Fin n) :=
        { system with tasks := Function.update system.tasks self timed }
      have runs : QuietClock settings synchronize system started :=
        History.start.quiet (.task system self (.run phase positive))
          (TimerSystem.seen_update (by rw [phase]; rfl))
      have isTimed : started.tasks self = timed := Function.update_self self timed system.tasks
      have looping : (started.tasks self).phase = .looping := by rw [isTimed]
      have shot : (started.tasks self).singleShot = some due := by rw [isTimed]
      rcases quiet_of_due positive looping (Or.inl shot) with ⟨next, steps, locking, elsewhere⟩
      refine ⟨next, runs.trans steps, locking, elsewhere.owner, ?_⟩
      intro other different
      rw [elsewhere.tasks other different]
      exact Function.update_of_ne different _ _

end Clock

/-! ## Both follow each other -/

namespace TimerSystem

variable {n : ℕ} {platform : Platform} {createUuid : Nat → QUuid}
  {settings : Fin n → TaskSettings} {synchronize : Fin n → Bool}
  {system next : TimerSystem (Fin n)} {pool : System} {self : Fin n} {task after : SchedulerTask}

/-- The task of the pool that a thread shows. -/
theorem Shows.exists_task (shows : system.Shows synchronize pool) (self : Fin n) :
    ∃ task, pool.tasks[self.val]? = some task ∧ task.synchronize = synchronize self ∧
      task.phase.place = (system.tasks self).phase.place := by
  have bound : self.val < pool.tasks.length := shows.length.symm ▸ self.isLt
  exact ⟨pool.tasks[self.val], List.getElem?_eq_getElem bound,
    shows.tasks self _ (List.getElem?_eq_getElem bound)⟩

/-- One task has moved in both systems. -/
theorem Shows.moved (shows : system.Shows synchronize pool)
    (others : ∀ other, other ≠ self → next.tasks other = system.tasks other)
    (flag : after.synchronize = synchronize self)
    (place : after.phase.place = (next.tasks self).phase.place) :
    next.Shows synchronize
      { pool with
        tasks := pool.tasks.set self.val after
        owner := next.owner.map Fin.val } where
  length := by rw [List.length_set, shows.length]
  owner := rfl
  tasks := by
    intro other task found
    rcases getElem?_set_cases found with ⟨same, rfl⟩ | ⟨different, old⟩
    · rw [Fin.ext same]
      exact ⟨flag, place⟩
    · have apart : other ≠ self := fun same => different (congrArg Fin.val same)
      rw [others other apart]
      exact shows.tasks other task old

/-- One thread has moved, and its task with it. -/
theorem Shows.update (shows : system.Shows synchronize pool) {holder : Option Nat}
    {owner : Option (Fin n)} (ownerEq : holder = owner.map Fin.val) {timed : TimedTask}
    (flag : after.synchronize = synchronize self)
    (place : after.phase.place = timed.phase.place) :
    Shows synchronize ⟨system.now, owner, Function.update system.tasks self timed⟩
      { pool with tasks := pool.tasks.set self.val after, owner := holder } := by
  subst ownerEq
  apply shows.moved (fun other different => Function.update_of_ne different _ _) flag
  change _ = (Function.update system.tasks self timed self).phase.place
  rw [place, Function.update_self]

/-- One thread has moved and is still at its place. -/
theorem Shows.update_same (shows : system.Shows synchronize pool) {timed : TimedTask}
    (placeEq : timed.phase.place = (system.tasks self).phase.place) :
    Shows synchronize ⟨system.now, system.owner, Function.update system.tasks self timed⟩
      pool := by
  rcases shows.exists_task self with ⟨task, found, flag, place⟩
  have moved := shows.update shows.owner flag (place.trans placeEq.symm)
  rwa [set_of_some found] at moved

end TimerSystem

theorem TaskPhase.eq_waiting {phase : TaskPhase} (outside : phase.place = .outside) :
    phase = .waiting := by
  cases phase <;> simp [place] at outside ⊢

theorem TaskPhase.eq_finished {phase : TaskPhase} (leaving : phase.place = .leaving) :
    phase = .finished := by
  cases phase <;> simp [place] at leaving ⊢

theorem TimerPhase.eq_invoking {phase : TimerPhase} (running : phase.place = .running) :
    ∃ lastExec, phase = .invoking lastExec := by
  cases phase <;> simp [place] at running ⊢

theorem TimerPhase.eq_unlocking {phase : TimerPhase} (leaving : phase.place = .leaving) :
    phase = .unlocking := by
  cases phase <;> simp [place] at leaving ⊢

section Simulate

variable {n : ℕ} {platform : Platform} {createUuid : Nat → QUuid}
  {settings : Fin n → TaskSettings} {synchronize : Fin n → Bool}

/-- Systems that show the same tasks look the same. -/
theorem TimerSystem.Shows.seen_eq {system : TimerSystem (Fin n)} {pool : System}
    (shows : system.Shows synchronize pool) : pool.seen = system.seen := by
  refine Prod.ext ?_ shows.owner
  apply List.ext_getElem?
  intro index
  rw [System.seen, TimerSystem.seen, List.getElem?_map]
  by_cases bound : index < n
  · rcases shows.exists_task ⟨index, bound⟩ with ⟨task, found, _, place⟩
    rw [List.getElem?_ofFn, dif_pos bound, ← place]
    exact congrArg (Option.map fun task => task.phase.place) found
  · rw [List.getElem?_ofFn, dif_neg bound, List.getElem?_eq_none]
    · rfl
    · rw [shows.length]
      exact Nat.le_of_not_lt bound

/-- The pool follows the steps of a thread. -/
theorem TimerStep.followed {settings : TaskSettings} {system : TimerSystem (Fin n)}
    {pool : System} {self : Fin n} {ownerBefore owner : Option (Fin n)} {timed : TimedTask}
    (step : TimerStep settings (synchronize self) self system.now ownerBefore
      (system.tasks self) owner timed)
    (owns : system.owner = ownerBefore) (paired : system.Paired synchronize pool) :
    Answers (ServeStep platform createUuid) System.seen pool
      (TimerSystem.Shows synchronize
        ⟨system.now, owner, Function.update system.tasks self timed⟩) := by
  have shows := paired.shows
  rcases shows.exists_task self with ⟨task, found, flag, place⟩
  rcases paired.synchronized.matched task (List.mem_of_getElem? found) with ⟨group, stored, _⟩
  have ownerEq : pool.owner = ownerBefore.map Fin.val := by rw [shows.owner, owns]
  have stays {timed : TimedTask} (same : timed.phase.place = (system.tasks self).phase.place) :
      Answers (ServeStep platform createUuid) System.seen pool
        (TimerSystem.Shows synchronize
          ⟨system.now, ownerBefore, Function.update system.tasks self timed⟩) := by
    subst owns
    exact .rest (shows.update_same same)
  have moves {phase : TaskPhase} {owner : Option (Fin n)} {timed : TimedTask}
      (taken : TaskStep platform.chars pool.registry self.val (ownerBefore.map Fin.val) task
        (owner.map Fin.val) { task with phase })
      (same : phase.place = timed.phase.place) :
      Answers (ServeStep platform createUuid) System.seen pool
        (TimerSystem.Shows synchronize
          ⟨system.now, owner, Function.update system.tasks self timed⟩) := by
    rw [← ownerEq] at taken
    exact .single (serveStep_task found taken) (shows.update rfl flag same)
  cases step with
  | run phase => exact stays (by rw [phase]; rfl)
  | shot phase => exact stays (by rw [phase]; rfl)
  | timeout phase => exact stays (by rw [phase]; rfl)
  | quit phase => exact stays (by rw [phase]; rfl)
  | lock phase synchronized =>
      rw [phase] at place
      exact moves (.lock (TaskPhase.eq_waiting place) (flag.trans synchronized)) rfl
  | enter phase unsynchronized =>
      rw [phase] at place
      exact moves (.enter (TaskPhase.eq_waiting place) (flag.trans unsynchronized)) rfl
  | finish phase =>
      -- The pool goes through the methods of the run before it comes to its end.
      rw [phase] at place
      subst owns
      have finishes : Finishes platform createUuid pool self.val task :=
        finishes_of_running found place stored
      rcases finishes with ⟨middle, quiet, last⟩
      exact .quiet quiet last (shows.update shows.owner flag rfl)
  | unlock phase synchronized =>
      rw [phase] at place
      exact moves (.unlock (TaskPhase.eq_finished place) (flag.trans synchronized)) rfl
  | leave phase unsynchronized =>
      rw [phase] at place
      exact moves (.leave (TaskPhase.eq_finished place) (flag.trans unsynchronized)) rfl

theorem seenSimulation_timers (positive : ∀ self, 0 < (settings self).activityInterval) :
    SeenSimulation (TimerSystemStep settings synchronize) (ServeStep platform createUuid)
      TimerSystem.seen System.seen (TimerSystem.Paired synchronize) where
  seen _ _ paired := paired.shows.seen_eq
  step := by
    intro before after pool step paired
    have shows := paired.shows
    have armed := step.armed positive paired.armed
    cases step with
    | elapse =>
        exact .rest ⟨⟨shows.length, shows.owner, shows.tasks⟩, armed, paired.synchronized⟩
    | @task self owner timed taken =>
        apply (taken.followed rfl paired).mono
        intro next steps shown
        exact ⟨shown, armed, serves_synchronized steps paired.synchronized⟩

/-- A thread outside of its run comes to the mutex and enters the run. -/
theorem TimerSystem.Shows.answers_enter {system : TimerSystem (Fin n)} {pool : System}
    {self : Fin n} {task : SchedulerTask} (shows : system.Shows synchronize pool)
    (positive : 0 < (settings self).activityInterval) (armed : (system.tasks self).Armed)
    (flag : task.synchronize = synchronize self)
    (outside : (system.tasks self).phase.place = .outside) (owner : Option (Fin n))
    (taken : ∀ middle : TimerSystem (Fin n), (middle.tasks self).phase = .locking →
      middle.owner = system.owner →
      TimerStep (settings self) (synchronize self) self middle.now middle.owner
        (middle.tasks self) owner
        { (middle.tasks self).timerStop with phase := .invoking middle.now }) :
    Answers (TimerSystemStep settings synchronize) TimerSystem.seen system fun next =>
      next.Shows synchronize
        { pool with
          tasks := pool.tasks.set self.val { task with phase := .entered }
          owner := owner.map Fin.val } := by
  rcases quiet_to_locking self positive outside armed with ⟨middle, quiet, locking, elsewhere⟩
  apply Answers.quiet quiet (.task middle self (taken middle locking elsewhere.owner))
  apply shows.moved
  · intro other different
    rw [← elsewhere.tasks other different]
    exact Function.update_of_ne different _ _
  · exact flag
  · change _ = (Function.update middle.tasks self _ self).phase.place
    rw [Function.update_self]
    rfl

/-- The threads follow the steps of a task of the pool. -/
theorem TaskStep.followed (positive : ∀ self, 0 < (settings self).activityInterval)
    {system : TimerSystem (Fin n)} {pool : System} {self : Fin n} {holderBefore holder : Option Nat}
    {task after : SchedulerTask} (found : pool.tasks[self.val]? = some task)
    (step : TaskStep platform.chars pool.registry self.val holderBefore task holder after)
    (holds : pool.owner = holderBefore) (paired : system.Paired synchronize pool) :
    Answers (TimerSystemStep settings synchronize) TimerSystem.seen system fun next =>
      next.Shows synchronize
        { pool with tasks := pool.tasks.set self.val after, owner := holder } := by
  have shows := paired.shows
  rcases shows.tasks self task found with ⟨flag, place⟩
  have ownerEq : system.owner.map Fin.val = holderBefore := shows.owner.symm.trans holds
  -- The thread is in the run all the same.
  have stays {phase : TaskPhase} (same : phase.place = task.phase.place) :
      Answers (TimerSystemStep settings synchronize) TimerSystem.seen system fun next =>
        next.Shows synchronize
          { pool with
            tasks := pool.tasks.set self.val { task with phase }
            owner := holderBefore } := by
    subst holds
    apply Answers.rest
    have moved := @TimerSystem.Shows.moved n synchronize system system pool self
      { task with phase } shows (fun _ _ => rfl) flag (same.trans place)
    rwa [← shows.owner] at moved
  have moves {phase : TaskPhase} {owner : Option (Fin n)} {timed : TimedTask}
      (taken : TimerStep (settings self) (synchronize self) self system.now system.owner
        (system.tasks self) owner timed)
      (holderEq : holder = owner.map Fin.val) (same : phase.place = timed.phase.place) :
      Answers (TimerSystemStep settings synchronize) TimerSystem.seen system fun next =>
        next.Shows synchronize
          { pool with
            tasks := pool.tasks.set self.val { task with phase }
            owner := holder } :=
    .single (.task system self taken) (shows.update holderEq flag same)
  have enters := @TimerSystem.Shows.answers_enter n settings synchronize system pool self task
    shows (positive self) (paired.armed self) flag
  cases step with
  | lock phase synchronized =>
      rw [phase] at place
      have free : system.owner = none := Option.map_eq_none_iff.mp ownerEq
      apply enters place.symm (some self)
      intro middle locking same
      rw [same, free]
      exact .lock locking (flag.symm.trans synchronized)
  | enter phase unsynchronized =>
      rw [phase] at place
      rw [← ownerEq]
      apply enters place.symm system.owner
      intro middle locking same
      rw [same]
      exact .enter locking (flag.symm.trans unsynchronized)
  | start phase => exact stays (by rw [phase]; rfl)
  | execute phase => exact stays (by rw [phase]; rfl)
  | executed phase => exact stays (by rw [phase]; rfl)
  | giveUp phase =>
      rw [phase] at place
      rcases TimerPhase.eq_invoking place.symm with ⟨lastExec, invoking⟩
      exact moves (.finish invoking) ownerEq.symm rfl
  | finish phase =>
      rw [phase] at place
      rcases TimerPhase.eq_invoking place.symm with ⟨lastExec, invoking⟩
      exact moves (.finish invoking) ownerEq.symm rfl
  | unlock phase synchronized =>
      rw [phase] at place
      have unlocking := TimerPhase.eq_unlocking place.symm
      exact moves (.unlock unlocking (flag.symm.trans synchronized)) rfl rfl
  | leave phase unsynchronized =>
      rw [phase] at place
      have unlocking := TimerPhase.eq_unlocking place.symm
      exact moves (.leave unlocking (flag.symm.trans unsynchronized)) ownerEq.symm rfl

theorem seenSimulation_pool (positive : ∀ self, 0 < (settings self).activityInterval) :
    SeenSimulation (ServeStep platform createUuid) (TimerSystemStep settings synchronize)
      System.seen TimerSystem.seen (flip (TimerSystem.Paired synchronize)) where
  seen _ _ paired := (TimerSystem.Paired.shows paired).seen_eq.symm
  step := by
    intro pool after system step paired
    have shows := TimerSystem.Paired.shows paired
    have armed := TimerSystem.Paired.armed paired
    have synchronized := step.1.synchronized (TimerSystem.Paired.synchronized paired)
    rcases step with ⟨step, same⟩
    cases step with
    | reg metaObject =>
        exact .rest ⟨⟨shows.length, shows.owner, shows.tasks⟩, armed, synchronized⟩
    | build => simp at same
    | @task self task taskAfter holder found taken =>
        have bound : self < n := shows.length ▸ (List.getElem?_eq_some_iff.mp found).1
        apply (@TaskStep.followed n platform settings synchronize positive system pool
          ⟨self, bound⟩ _ _ _ _ found taken rfl paired).mono
        intro next steps shown
        exact ⟨shown, armed_of_steps positive steps armed, synchronized⟩

end Simulate

/-- From a pool of waiting tasks, the timers and the pool have the same histories. -/
theorem timersMatchTasks {platform : Platform} {createUuid : Nat → QUuid} {pool : System}
    (reachable : Reachable platform createUuid pool) (free : pool.owner = none)
    (waiting : ∀ task ∈ pool.tasks, task.phase = .waiting)
    (settings : Fin pool.tasks.length → TaskSettings)
    (positive : ∀ self, 0 < (settings self).activityInterval) :
    TimersMatchTasks (fun self => pool.tasks[self].synchronize) platform createUuid settings
      pool := by
  let flags : Fin pool.tasks.length → Bool := fun self => pool.tasks[self].synchronize
  have initially (now : QDateTime) : TimerSystem.Paired flags (.new now) pool := by
    refine ⟨⟨rfl, free, ?_⟩, fun _ => armed_new, reachable.synchronized⟩
    intro self task found
    rcases List.getElem?_eq_some_iff.mp found with ⟨bound, rfl⟩
    refine ⟨rfl, ?_⟩
    rw [waiting _ (List.getElem_mem bound)]
    rfl
  constructor
  · intro now history system run
    rcases (seenSimulation_timers positive).history run (initially now) with ⟨after, served, paired⟩
    exact ⟨after, served, paired.shows⟩
  · intro now history after run
    rcases (seenSimulation_pool positive).history run (initially now) with ⟨system, clock, paired⟩
    exact ⟨system, clock, TimerSystem.Paired.shows paired⟩

theorem reachable_waiting :
    Reachable .ascii (fun _ => .null) (vacuumSystem .waiting none) := by
  have stored : vacuumRegistry.heap[0]? = some vacuumGroup := by decide
  have listed : 0 ∈ vacuumRegistry.scopeList := by decide
  have registered : Reachable .ascii (fun _ => .null) ⟨vacuumRegistry, [], none⟩ :=
    .tail .refl (.reg .empty vacuumClass)
  have first := registered.tail (.build _ listed stored)
  have second := first.tail (.build _ listed stored)
  exact second

/-- Two tasks of the synchronised class on the clock. -/
theorem timersMatchTasks_vacuum :
    TimersMatchTasks (fun self => (vacuumSystem .waiting none).tasks[self].synchronize) .ascii
      (fun _ => .null) (fun _ => ⟨1000, 500⟩) (vacuumSystem .waiting none) :=
  timersMatchTasks reachable_waiting rfl (by simp [vacuumSystem]) _ fun _ => by decide

end QApr.Scheduler
