import QApr.Library.Blocks
import QApr.Scheduler.ScopeGroup

/-!
# Signals of a run

`SchedulerScopeGroup::invoke` signals the state of every method as an `int`, which
`SchedulerScopeGroupPvt::invokeState` reads as an `InvokeState`.  The last signal of
a method carries an `InvokeReturn` instead, and the two enumerations agree in one
value only.
-/

namespace QApr.Scheduler

open QApr.Library QApr.Qt

/-! ## Names of states -/

/-- The key of an enumerator of `InvokeState`. -/
def InvokeState.key : InvokeState → QString
  | .nothing => "NOTHING".toList
  | .started => "STARTED".toList
  | .fail => "FAIL".toList
  | .successful => "SUCCESSFUL".toList
  | .skipped => "SKIPPED".toList

/-- The key of an enumerator of `InvokeReturn`. -/
def InvokeReturn.key : InvokeReturn → QString
  | .nothing => "NOTHING".toList
  | .successful => "SUCCESSFUL".toList
  | .disabled => "DISABLED".toList
  | .skipped => "SKIPPED".toList
  | .fail => "FAIL".toList

/-- `QMetaEnum::valueToKey` for `InvokeState`; the key of other values is empty. -/
def InvokeState.valueToKey (state : Int) : QString :=
  (([.nothing, .started, .fail, .successful, .skipped] : List InvokeState).find?
    fun enumerator => enumerator.toInt = state).elim [] key

/-- The `stateName` of `SchedulerScopeGroupPvt::invokeState`. -/
def stateName (state : Int) : QString :=
  asciiLower (InvokeState.valueToKey state)

/-- The name of an `InvokeReturn`, in the spelling of state names. -/
def InvokeReturn.name (invokeReturn : InvokeReturn) : QString :=
  asciiLower invokeReturn.key

/-- Read as an `InvokeState`, an `InvokeReturn` keeps its name only if it is `NOTHING`. -/
theorem stateName_invokeReturn_iff (invokeReturn : InvokeReturn) :
    stateName invokeReturn.toInt = invokeReturn.name ↔ invokeReturn = .nothing := by
  cases invokeReturn <;> decide

/-! ## Histories -/

/-- One entry of a history: a method of a run enters a state. -/
structure HistoryEntry where
  stackId : QUuid
  methodName : QString
  state : QString
  deriving DecidableEq

/-- A signal as its receiver reads it. -/
def InvokeSignal.decode (signal : InvokeSignal) : HistoryEntry :=
  ⟨signal.stackId, signal.methodName, stateName signal.state⟩

/-- The signal of an event, if it is one. -/
def InvokeEvent.signal? : InvokeEvent → Option InvokeSignal
  | .invokeState signal => some signal
  | .invoke _ _ => none

/-- The signals among a sequence of events, in order. -/
def signals (events : List InvokeEvent) : List InvokeSignal :=
  events.filterMap InvokeEvent.signal?

namespace SchedulerScopeGroup

variable (group : SchedulerScopeGroup)

/-- The history that the receiver of the signals sees over consecutive runs. -/
def signalledHistory (runs : List InvokeRun) : List HistoryEntry :=
  (signals (runs.flatMap group.invoke)).map InvokeSignal.decode

/-- The two entries of one method of a run: it starts, and ends in the state `last`. -/
def methodHistory (run : InvokeRun) (last : InvokeReturn → QString)
    (call : QMetaMethod × Nat) : List HistoryEntry :=
  [⟨run.stackId, call.1.decl.name, "started".toList⟩,
    ⟨run.stackId, call.1.decl.name, last (run.invokeReturn call.2)⟩]

/-- What has happened in consecutive runs: every method starts and then ends in the
state that its `InvokeReturn` names. -/
def history (runs : List InvokeRun) : List HistoryEntry :=
  runs.flatMap fun run =>
    (group.methodList run.methodKeys).zipIdx.flatMap
      (methodHistory run InvokeReturn.name)

/-- The signalled history is the true one. -/
def TellsTruth (runs : List InvokeRun) : Prop :=
  group.signalledHistory runs = group.history runs

end SchedulerScopeGroup

/-! ## Histories of the loop -/

namespace SchedulerScopeGroup

variable {group : SchedulerScopeGroup}

/-- The receiver reads the `InvokeReturn` of every call as an `InvokeState`. -/
theorem signalledHistory_eq {scheduler : QObject}
    (created : group.metaObject.newScheduler = some scheduler) (runs : List InvokeRun) :
    group.signalledHistory runs = runs.flatMap fun run =>
      (group.methodList run.methodKeys).zipIdx.flatMap
        (methodHistory run fun invokeReturn => stateName invokeReturn.toInt) := by
  have calls (run : InvokeRun) (call : QMetaMethod × Nat) :
      ((callEvents run scheduler call).filterMap InvokeEvent.signal?).map InvokeSignal.decode =
        methodHistory run (fun invokeReturn => stateName invokeReturn.toInt) call := rfl
  simp only [signalledHistory, signals, invoke, invokeLoop_eq_flatMap created,
    List.filterMap_flatMap, List.map_flatMap, calls]

/-- The history of one run is true exactly when all its calls return `NOTHING`. -/
theorem flatMap_methodHistory_iff (run : InvokeRun) (methodList : List QMetaMethod) :
    methodList.zipIdx.flatMap
        (methodHistory run fun invokeReturn => stateName invokeReturn.toInt) =
      methodList.zipIdx.flatMap (methodHistory run InvokeReturn.name) ↔
        ∀ step < methodList.length, run.invokeReturn step = .nothing := by
  have blocks (call : QMetaMethod × Nat) (_ : call ∈ methodList.zipIdx) :
      (methodHistory run (fun invokeReturn => stateName invokeReturn.toInt) call).length =
        (methodHistory run InvokeReturn.name call).length := rfl
  rw [flatMap_eq_flatMap_iff blocks]
  simp only [methodHistory, List.cons.injEq, true_and, and_true, HistoryEntry.mk.injEq,
    stateName_invokeReturn_iff]
  constructor
  · intro returned step inside
    exact returned (methodList[step], step) (List.mk_mem_zipIdx_iff_getElem?.mpr
      (List.getElem?_eq_getElem inside))
  · intro returned call member
    exact returned call.2 (List.snd_lt_of_mem_zipIdx member)

/-- Over any runs the signalled history tells the truth exactly when every call returns
`NOTHING`. -/
theorem tellsTruth_iff {scheduler : QObject}
    (created : group.metaObject.newScheduler = some scheduler) (runs : List InvokeRun) :
    group.TellsTruth runs ↔
      ∀ run ∈ runs, ∀ step < (group.methodList run.methodKeys).length,
        run.invokeReturn step = .nothing := by
  rw [TellsTruth, signalledHistory_eq created, history, flatMap_eq_flatMap_iff]
  · simp only [flatMap_methodHistory_iff]
  · intro run _
    simp [methodHistory]

end SchedulerScopeGroup

/-- A group with one method. -/
def reportGroup : SchedulerScopeGroup where
  uuid := .null
  scope := defaultName
  group := defaultName
  synchronize := false
  metaObject := schedulerClass "Report" none [scheduleMethod "print" none none none]
  methods := (∅ : QHash QString Nat).insert "default-default-b-print".toList 5

/-- A run of this group in which every call yields the same result. -/
def reportRun (invokeReturn : InvokeReturn) : InvokeRun where
  methodKeys := ["default-default-b-print".toList]
  stackId := .null
  currentDateTime := Int.ofNat
  invokeReturn _ := invokeReturn

/-- Calls that return `NOTHING` are reported as such. -/
theorem tellsTruth_report :
    reportGroup.TellsTruth [reportRun .nothing, reportRun .nothing] := by
  have created : reportGroup.metaObject.newScheduler = some ⟨reportGroup.metaObject⟩ := rfl
  rw [SchedulerScopeGroup.tellsTruth_iff created]
  decide

/-- A successful call is reported as another start. -/
theorem not_tellsTruth_successful : ¬reportGroup.TellsTruth [reportRun .successful] := by
  unfold SchedulerScopeGroup.TellsTruth
  decide

end QApr.Scheduler
