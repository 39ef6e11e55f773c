import QApr.Library.FirstWriter
import QApr.Library.Sort
import QApr.Scheduler.ScopeUuid
import Mathlib.Data.List.Sort

/-!
# Scope groups

Registration of scheduler classes in scope groups and invocation of a group,
after `SchedulerScopeGroup::reg` and `SchedulerScopeGroup::invoke`.

Groups are allocated once and never freed, so a pointer to a group is its
position in the order of allocation.  The uuids that `QUuid::createUuid` returns
are an arbitrary sequence.
-/

namespace QApr.Scheduler

open QApr.Library QApr.Qt

/-- `QHash`; two hashes with the same entries are equal. -/
abbrev QHash (κ ν : Type) := Finmap fun _ : κ => ν

/-- A pointer to a group, as a position in the order of allocation. -/
abbrev ScopePtr := Nat

/-- The fields of `SchedulerScopeGroupPvt` that registration and invocation use. -/
structure SchedulerScopeGroup where
  uuid : QUuid
  scope : QString
  group : QString
  synchronize : Bool
  metaObject : QMetaObject
  methods : QHash QString Nat
  deriving DecidableEq

/-- The constructor of `SchedulerScopeGroupPvt`. -/
def SchedulerScopeGroup.new (platform : Platform) (uuid : QUuid) (scope group : QString)
    (synchronize : Bool) (metaObject : QMetaObject) : SchedulerScopeGroup :=
  { uuid, scope := platform.chars.normal scope, group := platform.chars.normal group,
    synchronize, metaObject, methods := ∅ }

/-- The global `scopeCache` and `scopeList` with the groups they point to. -/
structure Registry where
  heap : List SchedulerScopeGroup
  scopeCache : QHash QUuid ScopePtr
  scopeList : List ScopePtr
  /-- Number of calls of `QUuid::createUuid` so far. -/
  drawn : Nat
  deriving DecidableEq

namespace Registry

/-- The registry before any registration. -/
def empty : Registry := ⟨[], ∅, [], 0⟩

/-- The group that `scopeCache` holds under a uuid. -/
def groupAt (registry : Registry) (uuid : QUuid) : Option SchedulerScopeGroup :=
  (registry.scopeCache.lookup uuid).bind (registry.heap[·]?)

/-- `SchedulerScopeGroup::scopes`. -/
def scopes (registry : Registry) : List SchedulerScopeGroup :=
  registry.scopeList.filterMap (registry.heap[·]?)

end Registry

/-! ## Sort keys -/

/-- `QByteArray::toLower`, which knows ASCII only. -/
def asciiLower (name : QString) : QString :=
  name.map Char.toLower

/-- `__a+QString::number(scExecOrder).rightJustified(11,'0')`, or `__b` and the
method name for a negative order. -/
def sortTag (scExecOrder : Int) (name : QString) : QString :=
  if scExecOrder ≥ 0 then
    "a-".toList ++ (Nat.toDigits 10 scExecOrder.toNat).leftpad 11 '0'
  else
    "b-".toList ++ asciiLower name

/-- `__formatOrder.arg(scopeName, groupName, sortTag).toLower()`. -/
def sortName (platform : Platform) (scopeName groupName tag : QString) : QString :=
  platform.chars.toLower (scopeName ++ "-".toList ++ groupName ++ "-".toList ++ tag)

/-! ## Registration -/

/-- One pass of the innermost loop of `reg`: a scheduled method of a class meets
one scope name and one group name. -/
structure Placement where
  metaObject : QMetaObject
  method : QMetaMethod
  scopeName : QString
  groupName : QString
  deriving DecidableEq, Repr

namespace Placement

variable (placement : Placement)

/-- `annotations.find(scExecOrder()).toValueInt(-1)`. -/
def scExecOrder : Int :=
  placement.method.decl.annotation.scExecOrder.getD (-1)

/-- `annotations.find(scSynchronize()).toValueBool(false)`. -/
def scSynchronize : Bool :=
  placement.metaObject.scSynchronize.getD false

/-- The key under which the method is entered. -/
def sortName (platform : Platform) : QString :=
  Scheduler.sortName platform placement.scopeName placement.groupName
    (sortTag placement.scExecOrder placement.method.decl.name)

/-- The call of `scopeUuid` in `reg`, when `drawn` uuids have been created before. -/
def scopeUuid (platform : Platform) (createUuid : Nat → QUuid) (drawn : Nat) : QUuid :=
  Scheduler.scopeUuid platform (createUuid drawn) placement.scopeName placement.groupName

/-- How many uuids the call of `scopeUuid` creates. -/
def draws (platform : Platform) : Nat :=
  if platform.BlankPair placement.scopeName placement.groupName then 1 else 0

/-- `new SchedulerScopeGroup` in `reg`. -/
def newGroup (platform : Platform) (uuid : QUuid) : SchedulerScopeGroup :=
  .new platform uuid placement.scopeName placement.groupName placement.scSynchronize
    placement.metaObject

end Placement

namespace Registry

variable (platform : Platform) (createUuid : Nat → QUuid)

/-- Look a group up under a uuid and create it when it is missing. -/
def obtain (registry : Registry) (uuid : QUuid) (group : SchedulerScopeGroup) :
    ScopePtr × Registry :=
  match registry.scopeCache.lookup uuid with
  | some scope => (scope, registry)
  | none =>
      (registry.heap.length,
        { registry with
          heap := registry.heap ++ [group]
          scopeCache := registry.scopeCache.insert uuid registry.heap.length
          scopeList := registry.scopeList ++ [registry.heap.length] })

/-- `if(!scope->p->methods.contains(sortName)) scope->p->methods.insert(...)`. -/
def enter (registry : Registry) (scope : ScopePtr) (sortName : QString)
    (methodIndex : Nat) : Registry :=
  { registry with
    heap := registry.heap.modify scope fun group =>
      { group with methods := insertNew group.methods sortName methodIndex } }

/-- The body of the innermost loop of `reg`. -/
def place (registry : Registry) (placement : Placement) : Registry :=
  let uuid := placement.scopeUuid platform createUuid registry.drawn
  let registry := { registry with drawn := registry.drawn + placement.draws platform }
  let (scope, registry) := registry.obtain uuid (placement.newGroup platform uuid)
  registry.enter scope (placement.sortName platform) placement.method.methodIndex

end Registry

/-- The scope and group names in the order of the two innermost loops of `reg`.
Both loops lower-case the list element in place, so the group names are
lower-cased again in each pass of the outer one. -/
def execPairs (chars : CharTable) : List QString → List QString → List (QString × QString)
  | [], _ => []
  | scopeName :: scopes, groups =>
      let groups := groups.map chars.toLower
      groups.map (chars.toLower scopeName, ·) ++ execPairs chars scopes groups

namespace QMetaObject

variable (metaObject : QMetaObject)

/-- The first loop of `reg`: the invokable methods with an `scSchedule` annotation. -/
def scheduledMethods : List QMetaMethod :=
  (List.range metaObject.methodCount).filterMap fun index =>
    (metaObject.method index).filter fun method =>
      method.decl.methodType = .method && method.decl.annotation.scSchedule

end QMetaObject

/-- `__default`, the name used where an annotation is absent. -/
def defaultName : QString := "default".toList

/-- `annotations.find(scExecScope()).toValueStringList(__default)`. -/
def QMetaMethod.scExecScope (method : QMetaMethod) : List QString :=
  method.decl.annotation.scExecScope.getD [defaultName]

/-- `annotations.find(scExecGroup()).toValueStringList(__default)`. -/
def QMetaMethod.scExecGroup (method : QMetaMethod) : List QString :=
  method.decl.annotation.scExecGroup.getD [defaultName]

/-- The passes of the innermost loop for one method. -/
def methodPlacements (chars : CharTable) (metaObject : QMetaObject)
    (method : QMetaMethod) : List Placement :=
  (execPairs chars method.scExecScope method.scExecGroup).map fun (scopeName, groupName) =>
    { metaObject, method, scopeName, groupName }

section Registration

variable (platform : Platform) (createUuid : Nat → QUuid)

/-- `SchedulerScopeGroup::reg`. -/
def reg (registry : Registry) (metaObject : QMetaObject) : Registry :=
  if !metaObject.inheritsScheduler then registry
  else
    match metaObject.newInstance with
    | none => registry
    | some sObj =>
        match sObj.toScheduler with
        | none => registry
        | some scheduler =>
            scheduler.metaObject.scheduledMethods.foldl (fun registry method =>
              (methodPlacements platform.chars scheduler.metaObject method).foldl
                (Registry.place platform createUuid) registry) registry

/-- Registration of a sequence of classes, from an empty registry. -/
def regs (classes : List QMetaObject) : Registry :=
  classes.foldl (reg platform createUuid) .empty

end Registration

/-! ## Invocation -/

/-- `Scheduler::InvokeReturn`, in the order of its values. -/
inductive InvokeReturn where
  | nothing
  | successful
  | disabled
  | skipped
  | fail
  deriving DecidableEq, Repr

/-- `SchedulerScopeGroup::InvokeState`, in the order of its values. -/
inductive InvokeState where
  | nothing
  | started
  | fail
  | successful
  | skipped
  deriving DecidableEq, Repr

/-- The conversion of an enumerator to `int`. -/
def InvokeReturn.toInt : InvokeReturn → Int
  | .nothing => 0
  | .successful => 1
  | .disabled => 2
  | .skipped => 3
  | .fail => 4

def InvokeState.toInt : InvokeState → Int
  | .nothing => 0
  | .started => 1
  | .fail => 2
  | .successful => 3
  | .skipped => 4

/-- `QDateTime`, in milliseconds since the epoch. -/
abbrev QDateTime := Int

/-- The arguments of the signal `SchedulerScopeGroup::invokeState`. -/
structure InvokeSignal where
  stackId : QUuid
  dt : QDateTime
  methodName : QString
  state : Int
  deriving DecidableEq

/-- What happens during `SchedulerScopeGroup::invoke`. -/
inductive InvokeEvent where
  /-- `emit invokeState(...)`. -/
  | invokeState (signal : InvokeSignal)
  /-- `scheduler->invoke(this, method)`. -/
  | invoke (scheduler : QObject) (method : QMetaMethod)
  deriving DecidableEq

/-- What one run of `invoke` takes from its surroundings: the keys of the methods
table as sorting leaves them, the uuid of the run, the clock, and the value that
each call of `Scheduler::invoke` returns. -/
structure InvokeRun where
  methodKeys : List QString
  stackId : QUuid
  currentDateTime : Nat → QDateTime
  invokeReturn : Nat → InvokeReturn

namespace SchedulerScopeGroup

variable (group : SchedulerScopeGroup)

/-- An order in which `methodKeys.sort(Qt::CaseInsensitive)` can leave the keys of
the methods table.  The order of equal keys is not specified. -/
structure KeyOrder (chars : CharTable) (methodKeys : List QString) : Prop where
  nodup : methodKeys.Nodup
  mem_iff : ∀ key, key ∈ methodKeys ↔ key ∈ group.methods
  sorted : methodKeys.Pairwise chars.FoldedLe

/-- The method that an entry of the methods table stands for. -/
def methodOf (key : QString) : Option QMetaMethod :=
  group.metaObject.method ((group.methods.lookup key).getD 0)

/-- The first loop of `invoke`, which skips invalid methods. -/
def methodList (methodKeys : List QString) : List QMetaMethod :=
  methodKeys.filterMap group.methodOf

/-- The second loop of `invoke`, which returns when no scheduler can be created. -/
def invokeLoop (run : InvokeRun) : Nat → List QMetaMethod → List InvokeEvent
  | _, [] => []
  | step, method :: rest =>
      match group.metaObject.newInstance with
      | none => []
      | some sObj =>
          match sObj.toScheduler with
          | none => []
          | some scheduler =>
              .invokeState ⟨run.stackId, run.currentDateTime (2 * step),
                  method.decl.name, InvokeState.started.toInt⟩ ::
                .invoke scheduler method ::
                .invokeState ⟨run.stackId, run.currentDateTime (2 * step + 1),
                  method.decl.name, (run.invokeReturn step).toInt⟩ ::
                invokeLoop run (step + 1) rest

/-- `SchedulerScopeGroup::invoke`. -/
def invoke (run : InvokeRun) : List InvokeEvent :=
  group.invokeLoop run 0 (group.methodList run.methodKeys)

end SchedulerScopeGroup

/-- A method executed on an instance of a class. -/
structure Job where
  metaObject : QMetaObject
  method : QMetaMethod
  deriving DecidableEq

/-- The job an event executes. -/
def InvokeEvent.job? : InvokeEvent → Option Job
  | .invokeState _ => none
  | .invoke scheduler method => some ⟨scheduler.metaObject, method⟩

/-- The jobs a sequence of events executes, in order. -/
def executed (events : List InvokeEvent) : List Job :=
  events.filterMap InvokeEvent.job?

/-! ## Runs of a group -/

namespace SchedulerScopeGroup

variable {group : SchedulerScopeGroup}

/-- The events of one method in the second loop of `invoke`. -/
def callEvents (run : InvokeRun) (scheduler : QObject) (call : QMetaMethod × Nat) :
    List InvokeEvent :=
  [.invokeState ⟨run.stackId, run.currentDateTime (2 * call.2), call.1.decl.name,
      InvokeState.started.toInt⟩,
    .invoke scheduler call.1,
    .invokeState ⟨run.stackId, run.currentDateTime (2 * call.2 + 1), call.1.decl.name,
      (run.invokeReturn call.2).toInt⟩]

/-- Where schedulers of the class can be created, the loop goes through all methods. -/
theorem invokeLoop_eq_flatMap {scheduler : QObject}
    (created : group.metaObject.newScheduler = some scheduler) (run : InvokeRun)
    (step : Nat) (methodList : List QMetaMethod) :
    group.invokeLoop run step methodList =
      (methodList.zipIdx step).flatMap (callEvents run scheduler) := by
  induction methodList generalizing step with
  | nil => rfl
  | cons method rest ih =>
      have ⟨constructible, inherits, schedulerEq⟩ :=
        QMetaObject.newScheduler_eq_some_iff.mp created
      subst schedulerEq
      simp [invokeLoop, QMetaObject.newInstance, constructible, QObject.toScheduler,
        inherits, ih, callEvents]

/-- A run executes the methods of its list in order, each on an instance of the
group's class. -/
theorem executed_invoke (created : group.metaObject.newScheduler = some ⟨group.metaObject⟩)
    (run : InvokeRun) :
    executed (group.invoke run) =
      (group.methodList run.methodKeys).map fun method => ⟨group.metaObject, method⟩ := by
  rw [invoke, invokeLoop_eq_flatMap created, executed, List.filterMap_flatMap]
  have jobs (call : QMetaMethod × Nat) :
      (callEvents run ⟨group.metaObject⟩ call).filterMap InvokeEvent.job? =
        [⟨group.metaObject, call.1⟩] := rfl
  have methods := List.zipIdx_map_fst 0 (group.methodList run.methodKeys)
  simp only [jobs, ← List.map_eq_flatMap]
  conv_rhs => rw [← methods, List.map_map]
  rfl

/-- Sorting the keys of the methods table is always possible. -/
theorem exists_keyOrder (chars : CharTable) (group : SchedulerScopeGroup) :
    ∃ methodKeys, group.KeyOrder chars methodKeys := by
  have sorts := sortsTo_mergeSort chars.foldedUnits group.methods.keys.toList
  refine ⟨_, ?_, ?_, sorts.pairwise⟩
  · exact sorts.perm.nodup_iff.mpr (Finset.nodup_toList _)
  · intro key
    rw [sorts.perm.mem_iff, Finset.mem_toList, Finmap.mem_keys]

end SchedulerScopeGroup

end QApr.Scheduler
