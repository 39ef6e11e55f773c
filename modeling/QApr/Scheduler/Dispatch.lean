import QApr.Scheduler.Registry

/-!
# What a group executes

`SchedulerScopeGroup::invoke` resolves every entry of the methods table in the
class stored with the group.  The module relates the jobs that a run executes to
the placements that entered the table: whether each entry runs the method it was
entered for, and whether a run executes a method twice.
-/

namespace QApr.Scheduler

open QApr.Library QApr.Qt

variable {platform : Platform} {createUuid : Nat → QUuid}

/-! ## Entries and what they resolve to -/

/-- The schedulers of every registered group can be created. -/
theorem newScheduler_of_scopes {classes : List QMetaObject} {group : SchedulerScopeGroup}
    (member : group ∈ (regs platform createUuid classes).scopes) :
    group.metaObject.newScheduler = some ⟨group.metaObject⟩ := by
  rcases opener_of_logGroup (scopes_regs.mp member) with ⟨opener, opened, _, classEq, _⟩
  rw [classEq]
  exact newScheduler_of_mem_logOf (mem_of_firstWriter opened)

/-- An entry resolves to the method with its index in the class of the group. -/
theorem methodOf_of_enters {log : List Site} {uuid : QUuid} {group : SchedulerScopeGroup}
    (found : logGroup platform log uuid = some group) {site : Site}
    (enters : Enters platform log site) (uuidEq : site.uuid = uuid) :
    group.methodOf (site.placement.sortName platform) =
      group.metaObject.method site.placement.method.methodIndex := by
  have slotEq : (uuid, site.placement.sortName platform) = site.slot platform := by
    rw [Site.slot, uuidEq]
  rw [SchedulerScopeGroup.methodOf, lookup_of_logGroup found, slotEq, enters]
  rfl

/-! ## Dispatch on the class of the placement -/

section Dispatch

variable (platform : Platform) (createUuid : Nat → QUuid)

/-- Every run of every group executes, entry by entry, the job for which `reg`
inserted the entry. -/
def DispatchesRight (classes : List QMetaObject) : Prop :=
  ∀ group ∈ (regs platform createUuid classes).scopes, ∀ run : InvokeRun,
    group.KeyOrder platform.chars run.methodKeys →
      List.Forall₂ (fun key job => ∃ site ∈ insertions platform createUuid classes,
          site.slot platform = (group.uuid, key) ∧ site.placement.job = job)
        run.methodKeys (executed (group.invoke run))

/-- A placement enters a method only in a group that its own class has opened. -/
def EntersOwnGroups (log : List Site) : Prop :=
  ∀ site, Enters platform log site → ∀ opener,
    firstWriter Site.uuid log site.uuid = some opener →
      opener.placement.metaObject = site.placement.metaObject

end Dispatch

theorem exists_of_forall₂ {α β : Type} {related : α → β → Prop} {left : List α}
    {right : List β} (aligned : List.Forall₂ related left right) {item : α}
    (member : item ∈ left) : ∃ image ∈ right, related item image := by
  induction aligned with
  | nil => contradiction
  | cons head tail ih =>
      rcases List.mem_cons.mp member with rfl | later
      · exact ⟨_, by simp, head⟩
      · rcases ih later with ⟨image, imageMember, holds⟩
        exact ⟨image, by simp [imageMember], holds⟩

/-- A list of keys whose entries all resolve yields one job for each key. -/
theorem forall₂_jobs {metaObject : QMetaObject} {resolve : QString → Option QMetaMethod}
    {related : QString → Job → Prop} {keys : List QString}
    (resolves : ∀ key ∈ keys, ∃ method, resolve key = some method ∧
      related key ⟨metaObject, method⟩) :
    List.Forall₂ related keys
      ((keys.filterMap resolve).map fun method => ⟨metaObject, method⟩) := by
  induction keys with
  | nil => exact .nil
  | cons key rest ih =>
      rcases resolves key (by simp) with ⟨method, resolved, holds⟩
      have tail := ih fun other member => resolves other (by simp [member])
      rw [List.filterMap_cons, resolved]
      exact .cons holds tail

theorem dispatchesRight_of_entersOwnGroups {classes : List QMetaObject}
    (own : EntersOwnGroups platform (logOf platform createUuid classes)) :
    DispatchesRight platform createUuid classes := by
  intro group member run order
  have found := scopes_regs.mp member
  rw [SchedulerScopeGroup.executed_invoke (newScheduler_of_scopes member)]
  apply forall₂_jobs
  intro key visited
  have entered := (mem_methods_of_logGroup found).mp ((order.mem_iff key).mp visited)
  rcases entered with ⟨site, enters, slotEq⟩
  have uuidEq : site.uuid = group.uuid := congrArg Prod.fst slotEq
  have keyEq : site.placement.sortName platform = key := congrArg Prod.snd slotEq
  rcases opener_of_logGroup found with ⟨opener, opened, _, classEq, _⟩
  have ownClass := own site enters opener (uuidEq ▸ opened)
  have resolved := methodOf_of_enters found enters uuidEq
  rw [keyEq, classEq, ownClass, method_of_mem_logOf enters.mem] at resolved
  refine ⟨site.placement.method, resolved, site, (mem_insertions classes site).mpr enters,
    slotEq, ?_⟩
  rw [classEq, ownClass]
  rfl

theorem entersOwnGroups_of_dispatchesRight {classes : List QMetaObject}
    (dispatches : DispatchesRight platform createUuid classes) :
    EntersOwnGroups platform (logOf platform createUuid classes) := by
  intro site enters opener opened
  rcases logGroup_of_opener opened with ⟨group, found, uuidEq, classEq⟩
  have member := mem_scopes_of_logGroup found
  rcases SchedulerScopeGroup.exists_keyOrder platform.chars group with ⟨keys, order⟩
  let run : InvokeRun := ⟨keys, site.uuid, fun _ => 0, fun _ => .nothing⟩
  have jobs := dispatches group member run order
  have visited : site.placement.sortName platform ∈ keys :=
    (order.mem_iff _).mpr ((mem_methods_of_logGroup found).mpr ⟨site, enters, rfl⟩)
  rcases exists_of_forall₂ jobs visited with ⟨job, executedJob, other, inserted, slotEq, jobEq⟩
  have same : other = site := by
    apply ((mem_insertions classes other).mp inserted).eq_of_slot enters
    rw [slotEq, uuidEq]
    rfl
  rw [SchedulerScopeGroup.executed_invoke (newScheduler_of_scopes member)] at executedJob
  rcases List.mem_map.mp executedJob with ⟨method, _, rfl⟩
  rw [← classEq, ← same]
  exact (congrArg Job.metaObject jobEq).symm

/-- Every entry executes the method it was entered for, on an instance of the class
it was entered for, exactly when no class enters a method in a group that another
class has opened. -/
theorem dispatchesRight_iff (platform : Platform) (createUuid : Nat → QUuid)
    (classes : List QMetaObject) :
    DispatchesRight platform createUuid classes ↔
      EntersOwnGroups platform (logOf platform createUuid classes) :=
  ⟨entersOwnGroups_of_dispatchesRight, dispatchesRight_of_entersOwnGroups⟩

/-- Two classes without scope and group annotations, each with one method. -/
def mailClass : QMetaObject :=
  schedulerClass "Mail" none [scheduleMethod "send" none none none]

def backupClass : QMetaObject :=
  schedulerClass "Backup" (some true) [scheduleMethod "dump" none none none]

/-- The placement of the only method of a class in the default group. -/
def defaultSite (metaObject : QMetaObject) (decl : MethodDecl) : Site where
  uuid := Platform.ascii.pairUuid defaultName defaultName
  placement := ⟨metaObject, ⟨5, decl⟩, defaultName, defaultName⟩

/-- Both classes go to the default group, which then runs `Mail::send` for the entry
of `Backup::dump`. -/
theorem not_dispatchesRight_default :
    ¬DispatchesRight .ascii (fun _ => .null) [mailClass, backupClass] := by
  intro dispatches
  have own := entersOwnGroups_of_dispatchesRight dispatches
    (defaultSite backupClass (scheduleMethod "dump" none none none)) (by decide)
    (defaultSite mailClass (scheduleMethod "send" none none none)) (by decide)
  revert own
  decide

/-! ## No double execution -/

/-- The job is a method that `reg` schedules for its class. -/
def Job.scheduled (job : Job) : Bool :=
  job.method ∈ job.metaObject.scheduledMethods

section Twice

variable (platform : Platform) (createUuid : Nat → QUuid)

/-- A run of a group executes every scheduled method of every class at most once, and no
table holds two keys for one method of one class. -/
structure NoDoubleExecution (classes : List QMetaObject) : Prop where
  executed_nodup : ∀ group ∈ (regs platform createUuid classes).scopes,
    ∀ run : InvokeRun, group.KeyOrder platform.chars run.methodKeys →
      ((executed (group.invoke run)).filter Job.scheduled).Nodup
  oneKey : ∀ left ∈ insertions platform createUuid classes,
    ∀ right ∈ insertions platform createUuid classes, left.uuid = right.uuid →
      left.placement.job = right.placement.job →
        left.placement.sortName platform = right.placement.sortName platform

/-- Two different keys of a group carry the same method index only for methods of
different classes, and only when the class that has opened the group schedules no method
with this index. -/
def DistinctIndices (log : List Site) : Prop :=
  ∀ left, Enters platform log left → ∀ right, Enters platform log right →
    left.uuid = right.uuid →
    left.placement.method.methodIndex = right.placement.method.methodIndex →
    left.placement.sortName platform ≠ right.placement.sortName platform →
      left.placement.metaObject ≠ right.placement.metaObject ∧
        ∀ opener, firstWriter Site.uuid log left.uuid = some opener →
          ∀ method ∈ opener.placement.metaObject.scheduledMethods,
            method.methodIndex ≠ left.placement.method.methodIndex

end Twice

/-- Resolving distinct keys yields distinct methods exactly when no two of the keys
resolve to one method. -/
theorem nodup_filterMap_iff {keys : List QString} (distinct : keys.Nodup)
    {resolve : QString → Option QMetaMethod} :
    (keys.filterMap resolve).Nodup ↔
      ∀ left ∈ keys, ∀ right ∈ keys, left ≠ right →
        ∀ method, resolve left = some method → resolve right ≠ some method := by
  rw [List.Nodup, List.pairwise_filterMap]
  constructor
  · intro pairwise left leftMem right rightMem different method leftEq rightEq
    have symmetric : Std.Symm fun first second : QString =>
        ∀ method, resolve first = some method →
          ∀ other, resolve second = some other → method ≠ other := by
      constructor
      intro first second apart method firstEq other secondEq
      exact (apart other secondEq method firstEq).symm
    exact pairwise.forall leftMem rightMem different method leftEq method rightEq rfl
  · intro apart
    apply distinct.pairwise_of_forall_ne
    intro left leftMem right rightMem different method leftEq other rightEq equal
    exact apart left leftMem right rightMem different method leftEq (equal ▸ rightEq)

/-- A run executes no scheduled method twice when no two keys resolve to one. -/
theorem nodup_executed_iff {classes : List QMetaObject} {group : SchedulerScopeGroup}
    (member : group ∈ (regs platform createUuid classes).scopes) {run : InvokeRun}
    (order : group.KeyOrder platform.chars run.methodKeys) :
    ((executed (group.invoke run)).filter Job.scheduled).Nodup ↔
      ∀ left ∈ group.methods, ∀ right ∈ group.methods, left ≠ right →
        ∀ method ∈ group.metaObject.scheduledMethods, group.methodOf left = some method →
          group.methodOf right ≠ some method := by
  have injective : Function.Injective fun method => (⟨group.metaObject, method⟩ : Job) :=
    fun _ _ equal => congrArg Job.method equal
  rw [SchedulerScopeGroup.executed_invoke (newScheduler_of_scopes member), List.filter_map,
    List.nodup_map_iff injective, SchedulerScopeGroup.methodList, List.filter_filterMap,
    nodup_filterMap_iff order.nodup]
  simp only [order.mem_iff, ne_eq, Option.filter_eq_some_iff]
  constructor
  · intro apart left leftMem right rightMem different method isScheduled leftEq rightEq
    have scheduled : Job.scheduled ⟨group.metaObject, method⟩ = true := by
      simpa [Job.scheduled] using isScheduled
    exact apart left leftMem right rightMem different method ⟨leftEq, scheduled⟩
      ⟨rightEq, scheduled⟩
  · intro apart left leftMem right rightMem different method leftGiven rightGiven
    have scheduled : Job.scheduled ⟨group.metaObject, method⟩ = true := leftGiven.2
    have isScheduled : method ∈ group.metaObject.scheduledMethods := by
      simpa [Job.scheduled] using scheduled
    exact apart left leftMem right rightMem different method isScheduled leftGiven.1
      rightGiven.1

/-- A scheduled method is the method of its class with its index. -/
theorem method_of_mem_scheduledMethods {metaObject : QMetaObject} {method : QMetaMethod}
    (scheduled : method ∈ metaObject.scheduledMethods) :
    metaObject.method method.methodIndex = some method := by
  rcases List.mem_filterMap.mp scheduled with ⟨index, _, kept⟩
  have found := (Option.filter_eq_some_iff.mp kept).1
  rw [metaObject.methodIndex_of_method found, found]

theorem distinctIndices_of_noDoubleExecution {classes : List QMetaObject}
    (once : NoDoubleExecution platform createUuid classes) :
    DistinctIndices platform (logOf platform createUuid classes) := by
  intro left leftEnters right rightEnters uuidEq indexEq different
  constructor
  · intro classEq
    have methodEq : left.placement.method = right.placement.method := by
      apply Option.some.inj
      rw [← method_of_mem_logOf leftEnters.mem, ← method_of_mem_logOf rightEnters.mem,
        classEq, indexEq]
    apply different
    apply once.oneKey left ((mem_insertions classes left).mpr leftEnters) right
      ((mem_insertions classes right).mpr rightEnters) uuidEq
    rw [Placement.job, Placement.job, classEq, methodEq]
  · intro opener opened method scheduled sameIndex
    rcases logGroup_of_opener opened with ⟨group, found, groupUuid, classEq⟩
    have member := mem_scopes_of_logGroup found
    rcases SchedulerScopeGroup.exists_keyOrder platform.chars group with ⟨keys, order⟩
    have apart := (nodup_executed_iff member order).mp
      (once.executed_nodup group member ⟨keys, left.uuid, fun _ => 0, fun _ => .nothing⟩
        order)
    have leftMem := (mem_methods_of_logGroup found).mpr ⟨left, leftEnters, rfl⟩
    have rightMem := (mem_methods_of_logGroup found).mpr
      ⟨right, rightEnters, by rw [Site.slot, uuidEq]⟩
    have leftResolves := methodOf_of_enters found leftEnters rfl
    have rightResolves := methodOf_of_enters found rightEnters uuidEq.symm
    rw [← classEq] at scheduled
    have resolved := method_of_mem_scheduledMethods scheduled
    rw [← sameIndex, resolved] at leftResolves
    rw [← indexEq, ← sameIndex, resolved] at rightResolves
    exact apart _ leftMem _ rightMem different method scheduled leftResolves rightResolves

theorem noDoubleExecution_of_distinctIndices {classes : List QMetaObject}
    (distinct : DistinctIndices platform (logOf platform createUuid classes)) :
    NoDoubleExecution platform createUuid classes where
  executed_nodup := by
    intro group member run order
    have found := scopes_regs.mp member
    apply (nodup_executed_iff member order).mpr
    intro leftKey leftMem rightKey rightMem different method scheduled leftEq rightEq
    rcases (mem_methods_of_logGroup found).mp leftMem with ⟨left, leftEnters, leftSlot⟩
    rcases (mem_methods_of_logGroup found).mp rightMem with ⟨right, rightEnters, rightSlot⟩
    have leftUuid : left.uuid = group.uuid := congrArg Prod.fst leftSlot
    have rightUuid : right.uuid = group.uuid := congrArg Prod.fst rightSlot
    have leftKeyEq : left.placement.sortName platform = leftKey := congrArg Prod.snd leftSlot
    have rightKeyEq : right.placement.sortName platform = rightKey :=
      congrArg Prod.snd rightSlot
    have leftFound := methodOf_of_enters found leftEnters leftUuid
    have rightFound := methodOf_of_enters found rightEnters rightUuid
    rw [leftKeyEq, leftEq] at leftFound
    rw [rightKeyEq, rightEq] at rightFound
    have leftIndex := QMetaObject.methodIndex_of_method _ leftFound.symm
    have rightIndex := QMetaObject.methodIndex_of_method _ rightFound.symm
    rcases opener_of_logGroup found with ⟨opener, opened, _, classEq, _⟩
    have unscheduled := (distinct left leftEnters right rightEnters
      (leftUuid.trans rightUuid.symm) (leftIndex.symm.trans rightIndex)
      (by rw [leftKeyEq, rightKeyEq]; exact different)).2 opener (leftUuid ▸ opened)
    rw [← classEq] at unscheduled
    exact unscheduled method scheduled leftIndex
  oneKey := by
    intro left leftMem right rightMem uuidEq jobEq
    by_contra different
    have apart := distinct left ((mem_insertions classes left).mp leftMem) right
      ((mem_insertions classes right).mp rightMem) uuidEq
      (congrArg (fun job => job.method.methodIndex) jobEq) different
    exact apart.1 (congrArg Job.metaObject jobEq)

/-- No run executes a scheduled method twice and no method has two keys exactly when the
keys of a group carry distinct indices of methods that its class schedules. -/
theorem noDoubleExecution_iff (platform : Platform) (createUuid : Nat → QUuid)
    (classes : List QMetaObject) :
    NoDoubleExecution platform createUuid classes ↔
      DistinctIndices platform (logOf platform createUuid classes) :=
  ⟨distinctIndices_of_noDoubleExecution, noDoubleExecution_of_distinctIndices⟩

/-- A class whose method names one scope twice, once with a leading blank. -/
def nightlyClass : QMetaObject :=
  schedulerClass "Cleanup" none
    [scheduleMethod "vacuum" (some ["nightly".toList, " nightly".toList]) none none]

/-- Both spellings lead to one group but to two sort keys. -/
theorem not_noDoubleExecution_blank :
    ¬NoDoubleExecution .ascii (fun _ => .null) [nightlyClass] := by
  intro once
  let site (scopeName : String) : Site :=
    { uuid := Platform.ascii.pairUuid "nightly".toList defaultName
      placement :=
        { metaObject := nightlyClass
          method := ⟨5, scheduleMethod "vacuum"
            (some ["nightly".toList, " nightly".toList]) none none⟩
          scopeName := scopeName.toList
          groupName := defaultName } }
  have keyEq := once.oneKey (site "nightly") (by decide) (site " nightly") (by decide)
    rfl rfl
  revert keyEq
  decide

end QApr.Scheduler
