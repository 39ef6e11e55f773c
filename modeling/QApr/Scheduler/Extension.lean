import QApr.Library.Heap
import QApr.Scheduler.Placements

/-!
# Registries only grow

A registration adds groups and enters methods, and changes nothing that was there:
groups keep their place in `scopeCache` and `scopeList`, all their fields, and every
entry of their methods table.
-/

namespace QApr.Scheduler

open QApr.Library QApr.Qt

/-- A group with the same fields and at least the same methods. -/
structure SchedulerScopeGroup.Extends (before after : SchedulerScopeGroup) : Prop where
  uuid : after.uuid = before.uuid
  scope : after.scope = before.scope
  group : after.group = before.group
  synchronize : after.synchronize = before.synchronize
  metaObject : after.metaObject = before.metaObject
  methods : ∀ key methodIndex, before.methods.lookup key = some methodIndex →
    after.methods.lookup key = some methodIndex

/-- A registry that holds every group of an earlier one, at the same place. -/
structure Registry.Extends (before after : Registry) : Prop where
  scopeCache : ∀ uuid scope, before.scopeCache.lookup uuid = some scope →
    after.scopeCache.lookup uuid = some scope
  scopeList : before.scopeList <+: after.scopeList
  heap : ∀ (scope : ScopePtr) group, before.heap[scope]? = some group →
    ∃ kept, after.heap[scope]? = some kept ∧ group.Extends kept

namespace SchedulerScopeGroup

theorem Extends.refl (group : SchedulerScopeGroup) : group.Extends group :=
  ⟨rfl, rfl, rfl, rfl, rfl, fun _ _ found => found⟩

theorem Extends.trans {first second third : SchedulerScopeGroup}
    (before : first.Extends second) (after : second.Extends third) : first.Extends third where
  uuid := after.uuid.trans before.uuid
  scope := after.scope.trans before.scope
  group := after.group.trans before.group
  synchronize := after.synchronize.trans before.synchronize
  metaObject := after.metaObject.trans before.metaObject
  methods key methodIndex found :=
    after.methods key methodIndex (before.methods key methodIndex found)

/-- Entering a method replaces no entry. -/
theorem extends_insertNew (group : SchedulerScopeGroup) (sortName : QString)
    (methodIndex : Nat) :
    group.Extends { group with methods := insertNew group.methods sortName methodIndex } where
  uuid := rfl
  scope := rfl
  group := rfl
  synchronize := rfl
  metaObject := rfl
  methods := by
    intro key index found
    by_cases same : key = sortName
    · subst same
      rw [lookup_insertNew_self, found, Option.getD_some]
    · rw [lookup_insertNew_of_ne _ _ same, found]

end SchedulerScopeGroup

namespace Registry

theorem Extends.refl (registry : Registry) : registry.Extends registry where
  scopeCache _ _ found := found
  scopeList := List.prefix_refl _
  heap _ group stored := ⟨group, stored, .refl group⟩

theorem Extends.trans {first second third : Registry} (before : first.Extends second)
    (after : second.Extends third) : first.Extends third where
  scopeCache uuid scope found := after.scopeCache uuid scope (before.scopeCache uuid scope found)
  scopeList := before.scopeList.trans after.scopeList
  heap := by
    intro scope group stored
    have ⟨middle, middleStored, middleExtends⟩ := before.heap scope group stored
    have ⟨last, lastStored, lastExtends⟩ := after.heap scope middle middleStored
    exact ⟨last, lastStored, middleExtends.trans lastExtends⟩

/-- The group under a uuid stays under it. -/
theorem Extends.groupAt {before after : Registry} (extended : before.Extends after)
    {uuid : QUuid} {group : SchedulerScopeGroup} (found : before.groupAt uuid = some group) :
    ∃ kept, after.groupAt uuid = some kept ∧ group.Extends kept := by
  rcases Option.bind_eq_some_iff.mp found with ⟨scope, cached, stored⟩
  have ⟨kept, keptStored, keptExtends⟩ := extended.heap scope group stored
  refine ⟨kept, ?_, keptExtends⟩
  exact Option.bind_eq_some_iff.mpr ⟨scope, extended.scopeCache uuid scope cached, keptStored⟩

/-- Looking a group up or creating it. -/
theorem extends_obtain (registry : Registry) (uuid : QUuid) (group : SchedulerScopeGroup) :
    registry.Extends (registry.obtain uuid group).2 := by
  unfold obtain
  cases missing : registry.scopeCache.lookup uuid with
  | some scope => exact .refl registry
  | none =>
      constructor
      · intro other scope found
        have apart : other ≠ uuid := by
          intro equal
          rw [equal, missing] at found
          contradiction
        rw [Finmap.lookup_insert_of_ne _ apart, found]
      · exact List.prefix_append _ _
      · intro scope other stored
        exact ⟨other, getElem?_append_of_some stored _, .refl other⟩

theorem extends_enter (registry : Registry) (scope : ScopePtr) (sortName : QString)
    (methodIndex : Nat) : registry.Extends (registry.enter scope sortName methodIndex) where
  scopeCache _ _ found := found
  scopeList := List.prefix_refl _
  heap := by
    intro other group stored
    simp only [Registry.enter, List.getElem?_modify, stored, Option.map_eq_map,
      Option.map_some]
    refine ⟨_, rfl, ?_⟩
    split
    · exact group.extends_insertNew sortName methodIndex
    · exact .refl group

section Registration

variable (platform : Platform) (createUuid : Nat → QUuid)

/-- One pass of the innermost loop of `reg`. -/
theorem extends_place (registry : Registry) (placement : Placement) :
    registry.Extends (registry.place platform createUuid placement) := by
  let uuid := placement.scopeUuid platform createUuid registry.drawn
  let counted : Registry :=
    { registry with drawn := registry.drawn + placement.draws platform }
  have counts : registry.Extends counted :=
    ⟨fun _ _ found => found, List.prefix_refl _, (Extends.refl registry).heap⟩
  have obtained := counted.extends_obtain uuid (placement.newGroup platform uuid)
  exact counts.trans (obtained.trans (extends_enter _ _ _ _))

theorem extends_foldl (registry : Registry) (run : List Placement) :
    registry.Extends (run.foldl (Registry.place platform createUuid) registry) := by
  induction run generalizing registry with
  | nil => exact .refl registry
  | cons placement rest ih => exact (extends_place _ _ registry placement).trans (ih _)

theorem extends_reg (registry : Registry) (metaObject : QMetaObject) :
    registry.Extends (reg platform createUuid registry metaObject) := by
  rw [reg_eq_foldl]
  exact extends_foldl _ _ _ _

end Registration

end Registry

end QApr.Scheduler
