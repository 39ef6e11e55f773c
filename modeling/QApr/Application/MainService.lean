import QApr.Application.Arguments
import QApr.Scheduler.Polling

/-!
# The main service

`MainService::exec` starts the services that the arguments name and enters the event loop
when one of them runs.  The module follows the command line through the parser of the
arguments to the services, of which the scheduler may keep `exec` in its `start()`.
-/

namespace QApr.Application

open QApr.Library QApr.Qt QApr.Scheduler

/-- `isRunning()` of the services after their `start()`, and what the event loop returns.
There is no value for the scheduler where `SchedulerAgent::start` does not return. -/
structure ServiceOutcomes where
  serverIsRunning : Bool
  schedulerIsRunning : Option Bool
  eventLoop : Int

/-- What `start()` and `isRunning()` of an agent can yield that nobody stops before `start()`
has returned. -/
inductive StartOutcome (enabled : Bool) : Option Bool → Prop where
  | returned {launch : Launch}
      (reachable : LaunchReachable (SchedulerAgent.run enabled) false launch)
      (returned : launch.caller = .returned) :
      StartOutcome enabled (some launch.thread.isRunning)
  | hung {launch : Launch}
      (reachable : LaunchReachable (SchedulerAgent.run enabled) false launch)
      (hung : launch.Hung) : StartOutcome enabled none

/-- What `MainService::exec` has done: the services it has started, the application in its
event loop, the warning and the code it returns. -/
structure MainRun where
  serverStarted : Bool
  schedulerStarted : Bool
  application : Option ApplicationPvt
  warning : Option QString
  code : Int

namespace MainService

/-- The arguments that start the server: `__api` and `__ws`. -/
def serverNames : List QString := ["api".toList, "ws".toList]

/-- The arguments that start the scheduler: `__scheduler` and `__sch`. -/
def schedulerNames : List QString := ["scheduler".toList, "sch".toList]

/-- `__job`, which starts no service. -/
def jobName : QString := "job".toList

/-- `__valid_args`. -/
def validArgs : List QString := serverNames ++ schedulerNames ++ [jobName]

/-- The warning about arguments that name no service. -/
def noValidArguments (args : List QString) : QString :=
  "No valid arguments:[".toList ++ [','].intercalate args ++ "], set valid arguments[".toList ++
    [','].intercalate validArgs ++ "]".toList

section Exec

variable {Variant : Type} (fromHash : QVariantHash → SettingBase) (globals : Globals)
  (arguments : QArguments Variant) (outcomes : ServiceOutcomes)

/-- `arguments.contains` for one of some names. -/
def names (candidates : List QString) : Bool :=
  candidates.any fun name => decide (name ∈ arguments)

/-- `MainService::exec`, where `keys` is `arguments.keys()`, unless it does not return from
`start()` of the scheduler. -/
def exec (keys : List QString) : Option MainRun :=
  if arguments.keys = ∅ then
    some ⟨false, false, none, some "No application arguments".toList, 0⟩
  else
    let serverStarted := names arguments serverNames
    let schedulerStarted := names arguments schedulerNames
    let isRunning := if schedulerStarted then outcomes.schedulerIsRunning else some false
    isRunning.map fun schedulerIsRunning =>
      if serverStarted && outcomes.serverIsRunning || schedulerIsRunning ||
          decide (jobName ∈ arguments) then
        ⟨serverStarted, schedulerStarted, some (Application.exec fromHash globals), none,
          outcomes.eventLoop⟩
      else
        ⟨serverStarted, schedulerStarted, none, some (noValidArguments keys), 0⟩

end Exec

/-! ## From the command line to the services -/

section CommandLine

variable {Variant : Type} (chars : CharTable) (ofString : QString → Variant)
  (manager : QArguments Variant) (args : List QString)

/-- The command line or the setting manager has one of some arguments, with any value. -/
def Asks (candidates : List QString) : Prop :=
  ∃ name ∈ candidates, name ∈ manager ∨ ∃ v ∈ args.drop 1, argumentKey chars v = name

/-- A run of the main service does what the command line asks for. -/
structure FollowsCommandLine (fromHash : QVariantHash → SettingBase) (globals : Globals)
    (outcomes : ServiceOutcomes) (run : MainRun) : Prop where
  server : run.serverStarted = true ↔ Asks chars manager args serverNames
  scheduler : run.schedulerStarted = true ↔ Asks chars manager args schedulerNames
  /-- The event loop is entered for a service that runs or for a job. -/
  loops : run.application = some (Application.exec fromHash globals) ↔
    (Asks chars manager args serverNames ∧ outcomes.serverIsRunning = true) ∨
      (Asks chars manager args schedulerNames ∧ outcomes.schedulerIsRunning = some true) ∨
        Asks chars manager args [jobName]
  /-- Otherwise the code is that of a normal exit, under a warning. -/
  exits : run.application = none → run.code = 0 ∧ run.warning ≠ none
  runs : run.application ≠ none → run.code = outcomes.eventLoop ∧ run.warning = none

/-- The main service follows the command line whenever it returns. -/
structure ExecFollows (fromHash : QVariantHash → SettingBase) (globals : Globals)
    (enabled : Bool) (outcomes : ServiceOutcomes) (result : Option MainRun) : Prop where
  /-- It stays in `start()` of a scheduler that is asked for and polls forever. -/
  stays : result = none ↔
    Asks chars manager args schedulerNames ∧ outcomes.schedulerIsRunning = none
  /-- It does not where the scheduler is enabled. -/
  returns : enabled = true → result ≠ none
  follows : ∀ run, result = some run →
    FollowsCommandLine chars manager args fromHash globals outcomes run

end CommandLine

section Proof

variable {Variant : Type} {chars : CharTable} {ofString : QString → Variant}
  {manager : QArguments Variant} {managerEntries : List (QString × Variant)}
  {args : List QString}

/-- The keys of the arguments are those of the manager and of the command line. -/
theorem mem_getArguments (iterates : IteratesEntries manager managerEntries) (key : QString) :
    key ∈ getArguments chars ofString ∅ args managerEntries ↔
      key ∈ manager ∨ ∃ v ∈ args.drop 1, argumentKey chars v = key := by
  simp only [Finmap.mem_iff, ← Option.isSome_iff_exists]
  rw [lookup_getArguments_drop iterates, Option.isSome_or, Bool.or_eq_true, Option.isSome_map]
  have onLine : (commandLineValue chars (args.drop 1) key).isSome = true ↔
      ∃ v ∈ args.drop 1, argumentKey chars v = key := by
    rw [Option.isSome_iff_ne_none, commandLineValue, ne_eq, lastWritten_eq_none_iff]
    simp
  rw [onLine]

theorem names_getArguments (iterates : IteratesEntries manager managerEntries)
    (candidates : List QString) :
    names (getArguments chars ofString ∅ args managerEntries) candidates = true ↔
      Asks chars manager args candidates := by
  simp only [names, List.any_eq_true, decide_eq_true_iff, mem_getArguments iterates, Asks]

/-- Nothing is asked for without arguments. -/
theorem not_asks_of_empty (iterates : IteratesEntries manager managerEntries)
    (empty : (getArguments chars ofString ∅ args managerEntries).keys = ∅)
    (candidates : List QString) : ¬Asks chars manager args candidates := by
  rw [← @names_getArguments _ _ ofString _ _ _ iterates, names, List.any_eq_true]
  rintro ⟨name, _, present⟩
  rw [decide_eq_true_iff, ← Finmap.mem_keys, empty] at present
  exact absurd present (Finset.notMem_empty _)

/-- An enabled scheduler that nobody stops does not keep its caller. -/
theorem ne_none_of_startOutcome {outcome : Option Bool} (starts : StartOutcome true outcome) :
    outcome ≠ none := by
  cases starts with
  | returned => exact Option.some_ne_none _
  | hung reachable hung => exact absurd hung (neverHangs_exec _ reachable)

/-- When the event loop is entered. -/
theorem runs_iff {server job : Bool} {asksServer asksJob : Prop}
    (serverIff : server = true ↔ asksServer) (jobIff : job = true ↔ asksJob)
    {scheduler : Bool} {asksScheduler : Prop} (schedulerIff : scheduler = true ↔ asksScheduler)
    {outcomes : ServiceOutcomes} {isRunning : Bool}
    (yields : (if scheduler then outcomes.schedulerIsRunning else some false) = some isRunning) :
    (server && outcomes.serverIsRunning || isRunning || job) = true ↔
      (asksServer ∧ outcomes.serverIsRunning = true) ∨
        (asksScheduler ∧ outcomes.schedulerIsRunning = some true) ∨ asksJob := by
  have schedulerRuns : isRunning = true ↔
      asksScheduler ∧ outcomes.schedulerIsRunning = some true := by
    rw [← schedulerIff]
    cases scheduler with
    | false =>
        cases yields
        simp
    | true =>
        rw [if_pos rfl] at yields
        simp [yields]
  rw [← serverIff, ← schedulerRuns, ← jobIff]
  simp only [Bool.or_eq_true, Bool.and_eq_true, or_assoc]

/-- Without arguments nothing is started. -/
theorem execFollows_of_empty (iterates : IteratesEntries manager managerEntries)
    (empty : (getArguments chars ofString ∅ args managerEntries).keys = ∅)
    (fromHash : QVariantHash → SettingBase) (globals : Globals) (enabled : Bool)
    (outcomes : ServiceOutcomes) (warning : QString) :
    ExecFollows chars manager args fromHash globals enabled outcomes
      (some ⟨false, false, none, some warning, 0⟩) := by
  have asksNothing := not_asks_of_empty iterates empty
  refine ⟨?_, fun _ => Option.some_ne_none _, ?_⟩
  · apply iff_of_false (Option.some_ne_none _)
    exact fun asks => asksNothing _ asks.1
  · intro run same
    cases same
    refine ⟨?_, ?_, ?_, fun _ => ⟨rfl, Option.some_ne_none _⟩, fun some => absurd rfl some⟩
    · exact iff_of_false Bool.false_ne_true (asksNothing _)
    · exact iff_of_false Bool.false_ne_true (asksNothing _)
    · apply iff_of_false (Option.some_ne_none _).symm
      rintro (server | scheduler | job)
      · exact asksNothing _ server.1
      · exact asksNothing _ scheduler.1
      · exact asksNothing _ job

/-- The main service follows every command line. -/
theorem exec_followsCommandLine (iterates : IteratesEntries manager managerEntries)
    (fromHash : QVariantHash → SettingBase) (globals : Globals) {enabled : Bool}
    {outcomes : ServiceOutcomes} (starts : StartOutcome enabled outcomes.schedulerIsRunning)
    (keys : List QString) :
    ExecFollows chars manager args fromHash globals enabled outcomes
      (exec fromHash globals (getArguments chars ofString ∅ args managerEntries) outcomes
        keys) := by
  unfold exec
  split
  next empty => exact execFollows_of_empty iterates empty _ _ _ _ _
  next =>
    have asked (candidates : List QString) :=
      @names_getArguments _ chars ofString manager managerEntries args iterates candidates
    have job : decide (jobName ∈ getArguments chars ofString ∅ args managerEntries) = true ↔
        Asks chars manager args [jobName] := by
      rw [← asked]
      simp [names]
    dsimp only
    constructor
    · rw [Option.map_eq_none_iff, ← asked]
      split
      next asks => simp [asks]
      next idle => simp [idle]
    · intro isEnabled
      subst isEnabled
      rw [ne_eq, Option.map_eq_none_iff]
      split
      · exact ne_none_of_startOutcome starts
      · exact Option.some_ne_none _
    · intro run result
      rcases Option.map_eq_some_iff.mp result with ⟨isRunning, yields, runEq⟩
      have running := runs_iff (asked serverNames) job (asked schedulerNames) yields
      rw [← runEq]
      split
      next runs =>
        refine ⟨asked _, asked _, ?_, ?_, fun _ => ⟨rfl, rfl⟩⟩
        · exact iff_of_true rfl (running.mp runs)
        · intro none
          contradiction
      next idle =>
        refine ⟨asked _, asked _, ?_, fun _ => ⟨rfl, Option.some_ne_none _⟩, ?_⟩
        · apply iff_of_false (Option.some_ne_none _).symm
          exact fun wanted => idle (running.mpr wanted)
        · exact fun some => absurd rfl some

end Proof

/-- A scheduler that is enabled and returns from `start()`. -/
theorem startOutcome_enabled : StartOutcome true (some true) := by
  have started : LaunchReachable (SchedulerAgent.run true) false
      ⟨.returned, .installed, false⟩ := by
    refine ⟨.notStarted, ?_⟩
    have polled := Relation.ReflTransGen.single
      (@LaunchStep.start (SchedulerAgent.run true) false .notStarted false)
    exact (polled.tail (.install .polling false)).tail (.found false rfl)
  exact .returned started rfl

/-- `API=0` names the server and `sch` the scheduler, whatever their values. -/
theorem exec_followsCommandLine_api :
    ExecFollows .ascii (∅ : QArguments QString) ["app".toList, "API=0".toList, "sch".toList]
      settingsByKey .initial true ⟨false, some true, 7⟩
      (exec settingsByKey .initial
        (getArguments .ascii id ∅ ["app".toList, "API=0".toList, "sch".toList] [])
        ⟨false, some true, 7⟩ ["api".toList, "sch".toList]) := by
  have iterates : IteratesEntries (∅ : QArguments QString) [] := by
    intro key value
    simp
  exact exec_followsCommandLine iterates _ _ startOutcome_enabled _

end MainService

end QApr.Application
