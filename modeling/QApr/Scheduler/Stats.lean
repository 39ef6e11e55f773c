import QApr.Qt.Variant
import QApr.Scheduler.Signals

/-!
# Execution statistics

`SchedulerScopeGroupPvt::regState` and `SchedulerScopeGroupPvt::invokeState`.  Every
signal is worked into a copy of one attribute of `stackStats`; the copy is correct,
but its last write goes to the copy itself instead of `stackStats`.
-/

namespace QApr.Scheduler

open QApr.Library QApr.Qt

def attrEvents : QString := "events".toList
def attrMethod : QString := "method".toList
def attrStack : QString := "stack".toList
def attrMethodName : QString := "methodName".toList
def attrStackId : QString := "stackId".toList
def attrStacks : QString := "stacks".toList

/-! ## Registration of a state -/

/-- The innermost hash of `regState` after a state was entered in it. -/
def regStackId (vStackId : QVariantHash) (stateName : QString) (stackId : QUuid)
    (dt : QDateTime) (methodName : QString) : QVariantHash :=
  let vStackId :=
    if !QVariantHash.contains vStackId attrStackId then
      QVariantHash.insert vStackId attrStackId (.uuid stackId)
    else
      vStackId
  let vStackId :=
    if !QVariantHash.contains vStackId attrMethodName then
      QVariantHash.insert vStackId attrMethodName (.byteArray methodName)
    else
      vStackId
  QVariantHash.insert vStackId stateName (.dateTime dt)

/-- The copy `attr` of `regState`, updated level by level. -/
def regAttr (attr : QVariantHash) (stateName eventName : QString) (stackId : QUuid)
    (dt : QDateTime) (methodName : QString) : QVariantHash :=
  let vAttrEvents := QVariantHash.child attr attrEvents
  let vEventsHash := QVariantHash.child vAttrEvents eventName
  let vStacks := QVariantHash.child vEventsHash attrStacks
  let vStackId := QVariantHash.child vStacks stackId.toString
  let vStackId := regStackId vStackId stateName stackId dt methodName
  let vStacks := QVariantHash.insert vStacks stackId.toString (.hash vStackId)
  let vEventsHash := QVariantHash.insert vEventsHash attrStacks (.hash vStacks)
  let vAttrEvents := QVariantHash.insert vAttrEvents eventName (.hash vEventsHash)
  QVariantHash.insert attr attrEvents (.hash vAttrEvents)

/-- `SchedulerScopeGroupPvt::regState`, which yields the new `stackStats`. -/
def regState (stackStats : QVariantHash) (stateName sAttrName eventName : QString)
    (stackId : QUuid) (dt : QDateTime) (methodName : QString) : QVariantHash :=
  let attr := QVariantHash.child stackStats sAttrName
  let attr := regAttr attr stateName eventName stackId dt methodName
  -- The result is inserted in the local variable, which ends here.
  let _attr := QVariantHash.insert attr sAttrName (.hash attr)
  stackStats

/-- `SchedulerScopeGroupPvt::invokeState`. -/
def invokeState (stackStats : QVariantHash) (signal : InvokeSignal) : QVariantHash :=
  let stateName := stateName signal.state
  let stackStats := regState stackStats stateName attrStack signal.stackId.toString
    signal.stackId signal.dt signal.methodName
  regState stackStats stateName attrMethod signal.methodName signal.stackId signal.dt
    signal.methodName

/-! ## The updated copy -/

/-- What an attribute holds for an event and a run. -/
def stackEntry (attr : QVariantHash) (eventName : QString) (stackId : QUuid) : QVariantHash :=
  QVariantHash.child (QVariantHash.child (QVariantHash.child (QVariantHash.child attr
    attrEvents) eventName) attrStacks) stackId.toString

section Copy

variable (attr : QVariantHash) (stateName eventName : QString) (stackId : QUuid)
  (dt : QDateTime) (methodName : QString)

/-- The copy holds the state for its own event and run. -/
theorem stackEntry_regAttr_self :
    stackEntry (regAttr attr stateName eventName stackId dt methodName) eventName stackId =
      regStackId (stackEntry attr eventName stackId) stateName stackId dt methodName := by
  simp [stackEntry, regAttr]

/-- The copy keeps what it holds for other events and other runs. -/
theorem stackEntry_regAttr_of_ne {otherEvent : QString} {otherStack : QUuid}
    (different : (otherEvent, otherStack) ≠ (eventName, stackId)) :
    stackEntry (regAttr attr stateName eventName stackId dt methodName) otherEvent otherStack =
      stackEntry attr otherEvent otherStack := by
  simp only [stackEntry, regAttr, QVariantHash.child_insert_self]
  by_cases event : otherEvent = eventName
  · subst event
    have stack : otherStack.toString ≠ stackId.toString := by
      intro equal
      exact different (by rw [QUuid.toString_injective equal])
    simp [QVariantHash.child_insert_of_ne _ stack]
  · simp [QVariantHash.child_insert_of_ne _ event]

end Copy

/-! ## Retention -/

/-- The entry of `stackStats` for a method and a run, along the path `method`, `events`,
the method's name, `stacks` and the uuid of the run. -/
def statsEntry (stackStats : QVariantHash) (methodName : QString) (stackId : QUuid) :
    QVariantHash :=
  stackEntry (QVariantHash.child stackStats attrMethod) methodName stackId

/-- The method, the run and the state that a signal is about. -/
def InvokeSignal.triple (signal : InvokeSignal) : QString × QUuid × QString :=
  (signal.methodName, signal.stackId, stateName signal.state)

/-- After a sequence of signals `stackStats` holds the last signal of every triple, and
no signal changes the entry of another triple. -/
structure StatsRetained (signals : List InvokeSignal) : Prop where
  last : ∀ earlier signal later, signals = earlier ++ signal :: later →
    (∀ other ∈ later, other.triple ≠ signal.triple) →
      let entry := statsEntry (signals.foldl invokeState []) signal.methodName signal.stackId
      QVariantHash.find entry (stateName signal.state) = some (.dateTime signal.dt) ∧
        QVariantHash.find entry attrStackId = some (.uuid signal.stackId) ∧
        QVariantHash.find entry attrMethodName = some (.byteArray signal.methodName)
  frame : ∀ stackStats signal methodName stackId state,
    (methodName, stackId, stateName state) ≠ signal.triple →
      QVariantHash.find (statsEntry (invokeState stackStats signal) methodName stackId)
          (stateName state) =
        QVariantHash.find (statsEntry stackStats methodName stackId) (stateName state)

/-- Handling a signal leaves `stackStats` as it is. -/
theorem invokeState_eq (stackStats : QVariantHash) (signal : InvokeSignal) :
    invokeState stackStats signal = stackStats := rfl

theorem foldl_invokeState (stackStats : QVariantHash) (signals : List InvokeSignal) :
    signals.foldl invokeState stackStats = stackStats := by
  induction signals generalizing stackStats with
  | nil => rfl
  | cons signal rest ih => rw [List.foldl_cons, invokeState_eq, ih]

/-- The statistics are retained only when there is nothing to retain. -/
theorem statsRetained_iff (signals : List InvokeSignal) :
    StatsRetained signals ↔ signals = [] := by
  constructor
  · intro retained
    by_contra delivered
    have split := List.dropLast_append_getLast delivered
    have ⟨present, _⟩ := retained.last signals.dropLast (signals.getLast delivered) []
      split.symm (by simp)
    rw [foldl_invokeState] at present
    contradiction
  · intro empty
    subst empty
    constructor
    · intro earlier signal later split
      simp at split
    · intro stackStats signal methodName stackId state _
      rw [invokeState_eq]

/-- One signal leaves nothing behind. -/
theorem not_statsRetained_started :
    ¬StatsRetained [⟨.null, 0, "send".toList, InvokeState.started.toInt⟩] := by
  intro retained
  have ⟨present, _⟩ := retained.last [] _ [] rfl (by simp)
  contradiction

end QApr.Scheduler
