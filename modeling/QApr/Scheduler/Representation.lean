import QApr.Library.Heap
import QApr.Scheduler.Extension
import QApr.Scheduler.Registry

/-!
# The representation of the registry

`scopeCache`, `scopeList` and the groups they point to are updated together.  The
module states what ties them together after any sequence of registrations, what a
further registration leaves alone, and that a class registered before leaves
everything alone.
-/

namespace QApr.Scheduler

open QApr.Library QApr.Qt

variable {platform : Platform} {createUuid : Nat → QUuid}

/-! ## The representation invariant -/

/-- The names of a group are those of the placement that opened it, and a group with
a name has the uuid of its names. -/
structure SchedulerScopeGroup.Canonical (platform : Platform) (group : SchedulerScopeGroup) :
    Prop where
  normalScope : platform.chars.normal group.scope = group.scope
  normalGroup : platform.chars.normal group.group = group.group
  scopeUuid : group.scope ≠ [] ∨ group.group ≠ [] →
    ∀ drawn, Scheduler.scopeUuid platform drawn group.scope group.group = group.uuid

/-- `scopeList` lists every group of `scopeCache` once, and every group is cached
under its own uuid, which is that of its names. -/
structure Registry.Representation (platform : Platform) (registry : Registry) : Prop where
  nodup : registry.scopeList.Nodup
  listed : ∀ scope, scope ∈ registry.scopeList ↔
    ∃ uuid, registry.scopeCache.lookup uuid = some scope
  keyed : ∀ uuid scope, registry.scopeCache.lookup uuid = some scope →
    ∃ group, registry.heap[scope]? = some group ∧ group.uuid = uuid ∧
      group.Canonical platform

/-- A pair of names and their normal forms have the same uuid. -/
theorem pairUuid_normal (scope group : QString) :
    platform.pairUuid (platform.chars.normal scope) (platform.chars.normal group) =
      platform.pairUuid scope group := by
  simp [Platform.pairUuid, Platform.pairText, Platform.normalPair]

/-- A group as its first placement creates it. -/
theorem canonical_newGroup {uuid : QUuid} {placement : Placement}
    (named : ¬placement.Blank platform →
      uuid = platform.pairUuid placement.scopeName placement.groupName) :
    (placement.newGroup platform uuid).Canonical platform where
  normalScope := platform.chars.normal_normal _
  normalGroup := platform.chars.normal_normal _
  scopeUuid := by
    intro nonempty drawn
    change platform.chars.normal placement.scopeName ≠ [] ∨
      platform.chars.normal placement.groupName ≠ [] at nonempty
    change Scheduler.scopeUuid platform drawn (platform.chars.normal placement.scopeName)
      (platform.chars.normal placement.groupName) = uuid
    have notBlank : ¬placement.Blank platform := by
      intro blank
      simp [blank.1, blank.2] at nonempty
    have stillNamed : ¬platform.BlankPair (platform.chars.normal placement.scopeName)
        (platform.chars.normal placement.groupName) := by
      intro blank
      simp only [Platform.BlankPair, CharTable.normal, CharTable.trimmed_toLower,
        CharTable.trimmed_trimmed, CharTable.toLower_eq_nil] at blank
      exact notBlank blank
    rw [scopeUuid_of_named stillNamed, pairUuid_normal, named notBlank]

theorem canonical_of_logGroup {classes : List QMetaObject} {uuid : QUuid}
    {group : SchedulerScopeGroup}
    (found : logGroup platform (logOf platform createUuid classes) uuid = some group) :
    group.Canonical platform := by
  rcases Option.map_eq_some_iff.mp found with ⟨opener, opened, rfl⟩
  have uuidEq : opener.uuid = uuid := key_of_firstWriter opened
  have canonical : (opener.placement.newGroup platform uuid).Canonical platform := by
    apply canonical_newGroup
    intro named
    rw [← uuidEq]
    exact uuid_of_mem_sites (mem_of_firstWriter opened) named
  exact ⟨canonical.normalScope, canonical.normalGroup, canonical.scopeUuid⟩

/-- After any sequence of registrations the three stores agree, and one more
registration only adds groups and entries. -/
theorem representation_regs (classes : List QMetaObject) (metaObject : QMetaObject) :
    (regs platform createUuid classes).Representation platform ∧
      (regs platform createUuid classes).Extends
        (reg platform createUuid (regs platform createUuid classes) metaObject) := by
  have wellFormed := @wellFormed_regs platform createUuid classes
  refine ⟨?_, Registry.extends_reg _ _ _ _⟩
  constructor
  · rw [wellFormed.scopeList]
    exact List.nodup_range
  · intro scope
    rw [wellFormed.scopeList, List.mem_range]
    simp only [wellFormed.cached]
    constructor
    · intro inside
      exact ⟨_, _, List.getElem?_eq_getElem inside, rfl⟩
    · intro given
      rcases given with ⟨_, group, stored, _⟩
      exact (List.getElem?_eq_some_iff.mp stored).1
  · intro uuid scope cached
    rcases (wellFormed.cached uuid scope).mp cached with ⟨group, stored, uuidEq⟩
    have found := wellFormed.groupAt_eq_some_iff.mpr ⟨scope, stored, uuidEq⟩
    rw [groupAt_regs] at found
    exact ⟨group, stored, uuidEq, canonical_of_logGroup found⟩

/-! ## Registering a class again -/

/-- A pass of the innermost loop whose key is present changes nothing. -/
theorem Registry.place_of_present {registry : Registry} {placement : Placement}
    (named : ¬placement.Blank platform) {group : SchedulerScopeGroup}
    (found : registry.groupAt (placement.scopeUuid platform createUuid registry.drawn) =
      some group) (present : placement.sortName platform ∈ group.methods) :
    registry.place platform createUuid placement = registry := by
  have noDraw : placement.draws platform = 0 := if_neg named
  rcases Option.bind_eq_some_iff.mp found with ⟨scope, cached, stored⟩
  simp only [place, noDraw, Nat.add_zero, obtain_of_cached cached]
  have unchanged : registry.heap.modify scope (fun group =>
      { group with
        methods := insertNew group.methods (placement.sortName platform)
          placement.method.methodIndex }) = registry.heap := by
    apply modify_of_fixed
    intro other otherStored
    cases stored.symm.trans otherStored
    rw [insertNew_of_mem present]
  rw [enter, unchanged]

/-- The key of every placement of a registered class is present. -/
theorem present_of_registered {classes : List QMetaObject} {metaObject : QMetaObject}
    (registered : metaObject ∈ classes) {placement : Placement}
    (placed : placement ∈ placements platform metaObject)
    (named : ¬placement.Blank platform) (drawn : Nat) :
    ∃ group, (regs platform createUuid classes).groupAt
        (placement.scopeUuid platform createUuid drawn) = some group ∧
      placement.sortName platform ∈ group.methods := by
  have logged : placement ∈ (logOf platform createUuid classes).map Site.placement := by
    rw [logOf, map_placement_sites]
    exact List.mem_flatMap.mpr ⟨metaObject, registered, placed⟩
  rcases List.mem_map.mp logged with ⟨site, member, rfl⟩
  rcases @exists_firstWriter _ _ _ (Site.slot platform) _ _ member with ⟨writer, first⟩
  have slotEq := key_of_firstWriter first
  have enters : Enters platform (logOf platform createUuid classes) writer := by
    rw [Enters, slotEq, first]
  have uuidEq : site.placement.scopeUuid platform createUuid drawn = writer.uuid := by
    rw [Placement.scopeUuid_of_named named, ← uuid_of_mem_sites member named]
    exact (congrArg Prod.fst slotEq).symm
  rcases enters.exists_logGroup with ⟨group, opened⟩
  refine ⟨group, ?_, ?_⟩
  · rw [groupAt_regs, uuidEq, opened]
  · rw [mem_methods_of_logGroup opened]
    have keyEq : writer.placement.sortName platform = site.placement.sortName platform :=
      congrArg Prod.snd slotEq
    exact ⟨writer, enters, Prod.ext rfl keyEq⟩

/-- Registering a class that was registered before changes nothing, provided each of
its pairs of names has a name. -/
theorem reg_of_registered {classes : List QMetaObject} {metaObject : QMetaObject}
    (registered : metaObject ∈ classes)
    (named : ∀ method ∈ metaObject.scheduledMethods, ∀ scopeName ∈ method.scExecScope,
      ∀ groupName ∈ method.scExecGroup, ¬platform.BlankPair scopeName groupName) :
    reg platform createUuid (regs platform createUuid classes) metaObject =
      regs platform createUuid classes := by
  have namedPlacement : ∀ placement ∈ placements platform metaObject,
      ¬placement.Blank platform := by
    intro placement placed blank
    rcases mem_placements.mp placed with
      ⟨_, _, scheduled, scopeName, scopeMem, groupName, groupMem, scopeEq, groupEq⟩
    apply named placement.method scheduled scopeName scopeMem groupName groupMem
    simpa [Placement.Blank, Platform.BlankPair, scopeEq, groupEq] using blank
  have unchanged : ∀ placement ∈ placements platform metaObject,
      (regs platform createUuid classes).place platform createUuid placement =
        regs platform createUuid classes := by
    intro placement placed
    have notBlank := namedPlacement placement placed
    rcases present_of_registered registered placed notBlank _ with ⟨group, found, present⟩
    exact Registry.place_of_present notBlank found present
  rw [reg_eq_foldl]
  apply List.foldlRecOn (motive := (· = regs platform createUuid classes)) _ _ rfl
  intro after same placement placed
  rw [same, unchanged placement placed]

/-- A class with a method in a scope of its own and one in the default scope. -/
def reportClass : QMetaObject :=
  schedulerClass "Report" none
    [scheduleMethod "collect" (some ["Nightly".toList]) none (some 1),
      scheduleMethod "send" none none none]

theorem reg_of_registered_reportClass :
    reg .ascii (fun _ => .null)
        (regs .ascii (fun _ => .null) [reportClass, schedulerClass "Mail" (some true) []])
        reportClass =
      regs .ascii (fun _ => .null) [reportClass, schedulerClass "Mail" (some true) []] :=
  reg_of_registered (by decide) (by decide)

end QApr.Scheduler
