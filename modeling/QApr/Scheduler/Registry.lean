import QApr.Library.Heap
import QApr.Scheduler.Placements

/-!
# The registry as a first-writer-wins log

The registry that `reg` builds is determined by the log of its placements: the
first placement in a group opens it, and the first placement under a sort key
enters its method.  The module proves that the code computes exactly this
registry, and that its pointers stay well formed.
-/

namespace QApr.Scheduler

open QApr.Library QApr.Qt

section Log

variable (platform : Platform)

/-- A site is the first under its sort key, so that it enters its method. -/
def Enters (log : List Site) (site : Site) : Prop :=
  firstWriter (Site.slot platform) log (site.slot platform) = some site

instance (log : List Site) (site : Site) : Decidable (Enters platform log site) :=
  inferInstanceAs (Decidable (_ = _))

/-- The group that a log leaves under a uuid. -/
def logGroup (log : List Site) (uuid : QUuid) : Option SchedulerScopeGroup :=
  (firstWriter Site.uuid log uuid).map fun opener =>
    { opener.placement.newGroup platform uuid with
      methods := tableOf (fun site => site.placement.sortName platform)
        (fun site => site.placement.method.methodIndex)
        (log.filter fun site => site.uuid = uuid) }

end Log

variable {platform : Platform} {createUuid : Nat → QUuid}

/-! ## Well-formed pointers -/

/-- `scopeCache` maps exactly the uuids of the allocated groups to their pointers,
and `scopeList` lists the pointers in the order of allocation. -/
structure Registry.WellFormed (registry : Registry) : Prop where
  scopeList : registry.scopeList = List.range registry.heap.length
  cached : ∀ uuid scope, registry.scopeCache.lookup uuid = some scope ↔
    ∃ group, registry.heap[scope]? = some group ∧ group.uuid = uuid

namespace Registry

theorem wellFormed_empty : Registry.empty.WellFormed where
  scopeList := rfl
  cached := by simp [empty]

theorem WellFormed.groupAt_eq_some_iff {registry : Registry}
    (wellFormed : registry.WellFormed) {uuid : QUuid} {group : SchedulerScopeGroup} :
    registry.groupAt uuid = some group ↔
      ∃ scope : ScopePtr, registry.heap[scope]? = some group ∧ group.uuid = uuid := by
  simp only [groupAt, Option.bind_eq_some_iff]
  constructor
  · intro given
    rcases given with ⟨scope, found, stored⟩
    rcases (wellFormed.cached uuid scope).mp found with ⟨other, otherStored, uuidEq⟩
    rw [stored] at otherStored
    cases otherStored
    exact ⟨scope, stored, uuidEq⟩
  · intro given
    rcases given with ⟨scope, stored, uuidEq⟩
    exact ⟨scope, (wellFormed.cached uuid scope).mpr ⟨group, stored, uuidEq⟩, stored⟩

theorem WellFormed.groupAt_eq_none_iff {registry : Registry}
    (wellFormed : registry.WellFormed) {uuid : QUuid} :
    registry.groupAt uuid = none ↔ registry.scopeCache.lookup uuid = none := by
  constructor
  · intro missing
    cases found : registry.scopeCache.lookup uuid with
    | none => rfl
    | some scope =>
        rcases (wellFormed.cached uuid scope).mp found with ⟨group, stored, uuidEq⟩
        rw [wellFormed.groupAt_eq_some_iff.mpr ⟨scope, stored, uuidEq⟩] at missing
        contradiction
  · intro missing
    simp [groupAt, missing]

/-- The groups of `scopes()` are those found in `scopeCache`. -/
theorem WellFormed.mem_scopes_iff {registry : Registry} (wellFormed : registry.WellFormed)
    {group : SchedulerScopeGroup} :
    group ∈ registry.scopes ↔ registry.groupAt group.uuid = some group := by
  rw [wellFormed.groupAt_eq_some_iff, scopes, wellFormed.scopeList]
  simp only [List.mem_filterMap, List.mem_range]
  constructor
  · intro given
    rcases given with ⟨scope, _, stored⟩
    exact ⟨scope, stored, trivial⟩
  · intro given
    rcases given with ⟨scope, stored, _⟩
    exact ⟨scope, (List.getElem?_eq_some_iff.mp stored).1, stored⟩

/-- No group is listed twice in `scopes()`. -/
theorem WellFormed.nodup_scopes {registry : Registry} (wellFormed : registry.WellFormed) :
    registry.scopes.Nodup := by
  rw [scopes, wellFormed.scopeList]
  apply List.nodup_range.filterMap
  intro left right group leftStored rightStored
  have leftCached := (wellFormed.cached group.uuid left).mpr ⟨group, leftStored, rfl⟩
  have rightCached := (wellFormed.cached group.uuid right).mpr ⟨group, rightStored, rfl⟩
  exact Option.some.inj (leftCached.symm.trans rightCached)

/-! ## One placement -/

/-- The registry after allocating a group and caching it. -/
def alloc (registry : Registry) (group : SchedulerScopeGroup) : Registry :=
  { registry with
    heap := registry.heap ++ [group]
    scopeCache := registry.scopeCache.insert group.uuid registry.heap.length
    scopeList := registry.scopeList ++ [registry.heap.length] }

theorem WellFormed.alloc {registry : Registry} (wellFormed : registry.WellFormed)
    {group : SchedulerScopeGroup}
    (missing : registry.scopeCache.lookup group.uuid = none) :
    (registry.alloc group).WellFormed where
  scopeList := by simp [Registry.alloc, wellFormed.scopeList, List.range_succ]
  cached := by
    intro uuid scope
    change (registry.scopeCache.insert group.uuid registry.heap.length).lookup uuid =
      some scope ↔ ∃ other, (registry.heap ++ [group])[scope]? = some other ∧ _
    have uncached (other : ScopePtr) : ¬∃ old, registry.heap[other]? = some old ∧
        old.uuid = group.uuid := by
      rw [← wellFormed.cached, missing]
      simp
    rcases Nat.lt_trichotomy scope registry.heap.length with old | rfl | outside
    · rw [List.getElem?_append_left old]
      by_cases same : uuid = group.uuid
      · subst same
        rw [Finmap.lookup_insert, Option.some.injEq]
        exact iff_of_false (Nat.ne_of_gt old) (uncached scope)
      · rw [Finmap.lookup_insert_of_ne _ same, wellFormed.cached]
    · rw [List.getElem?_concat_length]
      by_cases same : uuid = group.uuid
      · subst same
        simp [Finmap.lookup_insert]
      · simp [Finmap.lookup_insert_of_ne _ same, wellFormed.cached, Ne.symm same]
    · have pastEnd : (registry.heap ++ [group])[scope]? = none := by
        rw [List.getElem?_eq_none_iff, List.length_append, List.length_singleton]
        exact outside
      rw [pastEnd]
      by_cases same : uuid = group.uuid
      · subst same
        simp [Finmap.lookup_insert, Nat.ne_of_lt outside]
      · simp [Finmap.lookup_insert_of_ne _ same, wellFormed.cached,
          List.getElem?_eq_none (Nat.le_of_lt outside)]

theorem obtain_of_cached {registry : Registry} {uuid : QUuid} {scope : ScopePtr}
    (cached : registry.scopeCache.lookup uuid = some scope) (group : SchedulerScopeGroup) :
    registry.obtain uuid group = (scope, registry) := by
  simp [obtain, cached]

theorem obtain_of_missing {registry : Registry} {group : SchedulerScopeGroup}
    (missing : registry.scopeCache.lookup group.uuid = none) :
    registry.obtain group.uuid group = (registry.heap.length, registry.alloc group) := by
  simp [obtain, missing, alloc]

/-- Looking a group up or creating it keeps the registry well formed and yields a
pointer to the group that is now under its uuid; other uuids are unaffected. -/
theorem WellFormed.obtain_spec {registry : Registry} (wellFormed : registry.WellFormed)
    (group : SchedulerScopeGroup) :
    ∃ scope after, registry.obtain group.uuid group = (scope, after) ∧
      after.WellFormed ∧ after.drawn = registry.drawn ∧
      after.scopeCache.lookup group.uuid = some scope ∧
      after.heap[scope]? = some ((registry.groupAt group.uuid).getD group) ∧
      ∀ uuid, uuid ≠ group.uuid → after.groupAt uuid = registry.groupAt uuid := by
  cases found : registry.scopeCache.lookup group.uuid with
  | some scope =>
      rcases (wellFormed.cached group.uuid scope).mp found with ⟨old, stored, _⟩
      refine ⟨scope, registry, obtain_of_cached found group, wellFormed, rfl, found, ?_,
        fun _ _ => rfl⟩
      simp [groupAt, found, stored]
  | none =>
      have missing := wellFormed.groupAt_eq_none_iff.mpr found
      refine ⟨registry.heap.length, registry.alloc group, obtain_of_missing found,
        wellFormed.alloc found, rfl, ?_, ?_, ?_⟩
      · exact Finmap.lookup_insert _
      · simp [Registry.alloc, missing]
      · intro uuid different
        simp only [groupAt, Registry.alloc, Finmap.lookup_insert_of_ne _ different]
        cases kept : registry.scopeCache.lookup uuid with
        | none => rfl
        | some scope =>
            rcases (wellFormed.cached uuid scope).mp kept with ⟨other, stored, _⟩
            simp only [Option.bind_some]
            rw [getElem?_append_of_some stored, stored]

end Registry

/-- Enter a method under a sort key unless the key is present. -/
def SchedulerScopeGroup.enter (group : SchedulerScopeGroup) (sortName : QString)
    (methodIndex : Nat) : SchedulerScopeGroup :=
  { group with methods := insertNew group.methods sortName methodIndex }

namespace Registry

theorem WellFormed.enter {registry : Registry} (wellFormed : registry.WellFormed)
    (scope : ScopePtr) (sortName : QString) (methodIndex : Nat) :
    (registry.enter scope sortName methodIndex).WellFormed where
  scopeList := by simp [Registry.enter, wellFormed.scopeList]
  cached := by
    intro uuid other
    rw [Registry.enter, wellFormed.cached]
    simp only [List.getElem?_modify, Option.map_eq_map, Option.map_eq_some_iff]
    constructor
    · intro given
      rcases given with ⟨group, stored, uuidEq⟩
      by_cases same : scope = other
      · exact ⟨group.enter sortName methodIndex, ⟨group, stored, by simp [same]; rfl⟩, uuidEq⟩
      · exact ⟨group, ⟨group, stored, by simp [same]⟩, uuidEq⟩
    · intro given
      rcases given with ⟨_, ⟨group, stored, rfl⟩, uuidEq⟩
      refine ⟨group, stored, ?_⟩
      split at uuidEq <;> exact uuidEq

/-- Entering a method changes the group under the pointer's uuid and no other. -/
theorem WellFormed.groupAt_enter {registry : Registry} (wellFormed : registry.WellFormed)
    {uuid : QUuid} {scope : ScopePtr} {group : SchedulerScopeGroup}
    (cached : registry.scopeCache.lookup uuid = some scope)
    (stored : registry.heap[scope]? = some group) (sortName : QString)
    (methodIndex : Nat) (query : QUuid) :
    (registry.enter scope sortName methodIndex).groupAt query =
      if query = uuid then some (group.enter sortName methodIndex)
      else registry.groupAt query := by
  simp only [groupAt, Registry.enter]
  by_cases same : query = uuid
  · subst same
    simp [cached, stored, SchedulerScopeGroup.enter]
  · rw [if_neg same]
    cases found : registry.scopeCache.lookup query with
    | none => rfl
    | some other =>
        have apart : scope ≠ other := by
          intro equal
          subst equal
          rcases (wellFormed.cached _ _).mp cached with ⟨first, firstStored, firstUuid⟩
          rcases (wellFormed.cached _ _).mp found with ⟨second, secondStored, secondUuid⟩
          rw [firstStored] at secondStored
          cases secondStored
          exact same (secondUuid.symm.trans firstUuid)
        simp [List.getElem?_modify, apart]

theorem WellFormed.setDrawn {registry : Registry} (wellFormed : registry.WellFormed)
    (drawn : Nat) : ({ registry with drawn } : Registry).WellFormed :=
  ⟨wellFormed.scopeList, wellFormed.cached⟩

/-- One pass of the innermost loop enters the method in the group of its uuid,
which is opened when it is missing, and leaves every other group alone. -/
theorem WellFormed.place_spec {registry : Registry} (wellFormed : registry.WellFormed)
    (placement : Placement) :
    let uuid := placement.scopeUuid platform createUuid registry.drawn
    let after := registry.place platform createUuid placement
    after.WellFormed ∧ after.drawn = registry.drawn + placement.draws platform ∧
      ∀ query, after.groupAt query =
        if query = uuid then
          some (((registry.groupAt uuid).getD (placement.newGroup platform uuid)).enter
            (placement.sortName platform) placement.method.methodIndex)
        else registry.groupAt query := by
  intro uuid after
  let counted : Registry :=
    { registry with drawn := registry.drawn + placement.draws platform }
  have countedFormed : counted.WellFormed := wellFormed.setDrawn _
  rcases countedFormed.obtain_spec (placement.newGroup platform uuid) with
    ⟨scope, obtained, computed, obtainedFormed, drawnEq, cached, stored, frame⟩
  have afterEq : after = obtained.enter scope (placement.sortName platform)
      placement.method.methodIndex := by
    simp only [after, place]
    rw [show counted.obtain uuid (placement.newGroup platform uuid) = (scope, obtained)
      from computed]
  rw [afterEq]
  refine ⟨obtainedFormed.enter _ _ _, drawnEq, ?_⟩
  intro query
  rw [obtainedFormed.groupAt_enter cached stored]
  change (if query = uuid then _ else _) = _
  by_cases same : query = uuid
  · rw [if_pos same, if_pos same]
    rfl
  · rw [if_neg same, if_neg same]
    exact frame query same

end Registry

/-! ## The registry represents its log -/

theorem logGroup_snoc (log : List Site) (site : Site) (query : QUuid) :
    logGroup platform (log ++ [site]) query =
      if query = site.uuid then
        some (((logGroup platform log site.uuid).getD
          (site.placement.newGroup platform site.uuid)).enter
            (site.placement.sortName platform) site.placement.method.methodIndex)
      else logGroup platform log query := by
  by_cases same : query = site.uuid
  · subst same
    rw [if_pos rfl]
    simp only [logGroup, firstWriter_snoc, List.filter_append]
    cases opener : firstWriter Site.uuid log site.uuid with
    | none =>
        have unvisited : log.filter (fun other => other.uuid = site.uuid) = [] := by
          rw [List.filter_eq_nil_iff]
          intro other member
          simpa using firstWriter_eq_none_iff.mp opener other member
        simp [unvisited, tableOf, SchedulerScopeGroup.enter, Placement.newGroup,
          SchedulerScopeGroup.new]
    | some first => simp [tableOf_snoc, SchedulerScopeGroup.enter]
  · rw [if_neg same]
    simp [logGroup, firstWriter_snoc_of_ne (Ne.symm same), Ne.symm same]

section Represents

variable (platform : Platform) (createUuid : Nat → QUuid)

/-- A registry is well formed and holds what the log of a sequence of placements
determines. -/
structure Represents (registry : Registry) (run : List Placement) : Prop where
  wellFormed : registry.WellFormed
  drawn : registry.drawn = totalDraws platform run
  groupAt : ∀ uuid, registry.groupAt uuid =
    logGroup platform (sites platform createUuid 0 run) uuid

end Represents

theorem represents_empty : Represents platform createUuid .empty [] where
  wellFormed := Registry.wellFormed_empty
  drawn := rfl
  groupAt _ := rfl

theorem Represents.place {registry : Registry} {run : List Placement}
    (represents : Represents platform createUuid registry run) (placement : Placement) :
    Represents platform createUuid (registry.place platform createUuid placement)
      (run ++ [placement]) := by
  rcases Registry.WellFormed.place_spec represents.wellFormed placement with
    ⟨wellFormed, drawn, groupAt⟩
  refine ⟨wellFormed, ?_, ?_⟩
  · rw [drawn, represents.drawn, totalDraws_append]
    rfl
  · intro query
    rw [groupAt, sites_snoc, logGroup_snoc, represents.drawn, represents.groupAt,
      represents.groupAt]

/-- Any run of placements represents its log. -/
theorem represents_foldl (run : List Placement) :
    Represents platform createUuid
      (run.foldl (Registry.place platform createUuid) .empty) run := by
  induction run using List.reverseRecOn with
  | nil => exact represents_empty
  | append_singleton earlier placement ih =>
      rw [List.foldl_append]
      exact ih.place placement

/-- The registry after any sequence of registrations represents their log. -/
theorem represents_regs (classes : List QMetaObject) :
    Represents platform createUuid (regs platform createUuid classes)
      (classes.flatMap (placements platform)) := by
  rw [regs_eq_foldl]
  exact represents_foldl _

theorem wellFormed_regs (classes : List QMetaObject) :
    (regs platform createUuid classes).WellFormed :=
  (represents_regs classes).wellFormed

theorem groupAt_regs (classes : List QMetaObject) (uuid : QUuid) :
    (regs platform createUuid classes).groupAt uuid =
      logGroup platform (logOf platform createUuid classes) uuid :=
  (represents_regs classes).groupAt uuid

/-! ## Contents of the groups -/

section LogGroup

variable {log : List Site} {uuid : QUuid} {group : SchedulerScopeGroup}

theorem logGroup_eq_none_iff :
    logGroup platform log uuid = none ↔ ∀ site ∈ log, site.uuid ≠ uuid := by
  rw [logGroup, Option.map_eq_none_iff, firstWriter_eq_none_iff]

/-- The flag and the class of a group are those of the site that opened it. -/
theorem opener_of_logGroup (found : logGroup platform log uuid = some group) :
    ∃ opener, firstWriter Site.uuid log uuid = some opener ∧ group.uuid = uuid ∧
      group.metaObject = opener.placement.metaObject ∧
      group.synchronize = opener.placement.scSynchronize := by
  rcases Option.map_eq_some_iff.mp found with ⟨opener, opened, rfl⟩
  exact ⟨opener, opened, rfl, rfl, rfl⟩

/-- The first site under a uuid opens the group. -/
theorem logGroup_of_opener {opener : Site}
    (opened : firstWriter Site.uuid log uuid = some opener) :
    ∃ group, logGroup platform log uuid = some group ∧ group.uuid = uuid ∧
      group.metaObject = opener.placement.metaObject := by
  rw [logGroup, opened]
  exact ⟨_, rfl, rfl, rfl⟩

/-- Under each sort key a group holds the method of the first site with that key. -/
theorem lookup_of_logGroup (found : logGroup platform log uuid = some group)
    (key : QString) :
    group.methods.lookup key =
      (firstWriter (Site.slot platform) log (uuid, key)).map
        fun site => site.placement.method.methodIndex := by
  rcases Option.map_eq_some_iff.mp found with ⟨opener, opened, rfl⟩
  simp only [lookup_tableOf]
  congr 1
  exact firstWriter_pair.symm

theorem mem_methods_of_logGroup (found : logGroup platform log uuid = some group)
    {key : QString} :
    key ∈ group.methods ↔
      ∃ site, Enters platform log site ∧ site.slot platform = (uuid, key) := by
  rw [Finmap.mem_iff, lookup_of_logGroup found]
  constructor
  · intro given
    rcases given with ⟨methodIndex, present⟩
    rcases Option.map_eq_some_iff.mp present with ⟨site, first, _⟩
    have slotEq := key_of_firstWriter first
    exact ⟨site, by rw [Enters, slotEq, first], slotEq⟩
  · intro given
    rcases given with ⟨site, first, slotEq⟩
    rw [Enters, slotEq] at first
    exact ⟨site.placement.method.methodIndex, by rw [first]; rfl⟩

theorem Enters.mem {site : Site} (enters : Enters platform log site) : site ∈ log :=
  mem_of_firstWriter enters

/-- Two sites that enter their methods under one key are the same. -/
theorem Enters.eq_of_slot {left right : Site} (leftEnters : Enters platform log left)
    (rightEnters : Enters platform log right)
    (slotEq : left.slot platform = right.slot platform) : left = right := by
  rw [Enters, slotEq, rightEnters] at leftEnters
  exact (Option.some.inj leftEnters).symm

theorem Enters.exists_logGroup {site : Site} (enters : Enters platform log site) :
    ∃ opened, logGroup platform log site.uuid = some opened := by
  cases found : logGroup platform log site.uuid with
  | none => exact absurd rfl (logGroup_eq_none_iff.mp found site enters.mem)
  | some opened => exact ⟨opened, rfl⟩

end LogGroup

/-- What is known about every group after a sequence of registrations. -/
theorem scopes_regs {classes : List QMetaObject} {group : SchedulerScopeGroup} :
    group ∈ (regs platform createUuid classes).scopes ↔
      logGroup platform (logOf platform createUuid classes) group.uuid = some group := by
  rw [(wellFormed_regs classes).mem_scopes_iff, groupAt_regs]

theorem mem_scopes_of_logGroup {classes : List QMetaObject} {uuid : QUuid}
    {group : SchedulerScopeGroup}
    (found : logGroup platform (logOf platform createUuid classes) uuid = some group) :
    group ∈ (regs platform createUuid classes).scopes := by
  rcases opener_of_logGroup found with ⟨_, _, uuidEq, _⟩
  rw [scopes_regs, uuidEq]
  exact found

/-! ## Recorded insertions -/

section Insertions

variable (platform : Platform) (createUuid : Nat → QUuid)

/-- The entry that a pass of the innermost loop inserts: none when the sort key is
already in the table of the group. -/
def Registry.insertion? (registry : Registry) (placement : Placement) : Option Site :=
  let uuid := placement.scopeUuid platform createUuid registry.drawn
  if (registry.groupAt uuid).any (placement.sortName platform ∈ ·.methods) then none
  else some ⟨uuid, placement⟩

/-- The entries inserted during a run of the loops, in order. -/
def insertionsFrom (registry : Registry) : List Placement → List Site
  | [] => []
  | placement :: rest =>
      (registry.insertion? platform createUuid placement).toList ++
        insertionsFrom (registry.place platform createUuid placement) rest

/-- The entries inserted during a sequence of registrations. -/
def insertions (classes : List QMetaObject) : List Site :=
  insertionsFrom platform createUuid .empty (classes.flatMap (placements platform))

end Insertions

theorem insertionsFrom_append (registry : Registry) (before after : List Placement) :
    insertionsFrom platform createUuid registry (before ++ after) =
      insertionsFrom platform createUuid registry before ++
        insertionsFrom platform createUuid
          (before.foldl (Registry.place platform createUuid) registry) after := by
  induction before generalizing registry with
  | nil => rfl
  | cons placement rest ih => simp [insertionsFrom, ih]

/-- A placement inserts an entry exactly when its key is new to the log. -/
theorem Represents.insertion?_eq {registry : Registry} {run : List Placement}
    (represents : Represents platform createUuid registry run) (placement : Placement) :
    let site : Site :=
      ⟨placement.scopeUuid platform createUuid (totalDraws platform run), placement⟩
    registry.insertion? platform createUuid placement =
      if firstWriter (Site.slot platform) (sites platform createUuid 0 run)
          (site.slot platform) = none then some site else none := by
  intro site
  unfold Registry.insertion?
  simp only [represents.drawn, represents.groupAt]
  change (if (logGroup platform _ site.uuid).any _ = true then none else some site) = _
  cases found : logGroup platform (sites platform createUuid 0 run) site.uuid with
  | none =>
      have fresh : firstWriter (Site.slot platform) (sites platform createUuid 0 run)
          (site.slot platform) = none := by
        rw [firstWriter_eq_none_iff]
        intro other member slotEq
        exact logGroup_eq_none_iff.mp found other member (congrArg Prod.fst slotEq)
      simp [fresh]
  | some group =>
      have present : site.placement.sortName platform ∈ group.methods ↔
          firstWriter (Site.slot platform) (sites platform createUuid 0 run)
            (site.slot platform) ≠ none := by
        rw [Finmap.mem_iff, lookup_of_logGroup found]
        change (∃ _, Option.map _ (firstWriter _ _ (site.slot platform)) = _) ↔ _
        cases firstWriter (Site.slot platform) (sites platform createUuid 0 run)
          (site.slot platform) <;> simp
      have same : placement = site.placement := rfl
      rw [same, Option.any_some]
      by_cases entered : site.placement.sortName platform ∈ group.methods
      · simp [entered, present.mp entered]
      · simp [entered, not_not.mp (present.not.mp entered)]

/-- The recorded insertions of a run are the sites that are first under their key. -/
theorem mem_insertionsFrom_empty (run : List Placement) (site : Site) :
    site ∈ insertionsFrom platform createUuid .empty run ↔
      Enters platform (sites platform createUuid 0 run) site := by
  induction run using List.reverseRecOn with
  | nil => simp [insertionsFrom, sites, Enters]
  | append_singleton earlier placement ih =>
      rw [insertionsFrom_append, List.mem_append, ih, sites_snoc]
      simp only [Enters, firstWriter_snoc, insertionsFrom, List.append_nil,
        (represents_foldl earlier).insertion?_eq placement]
      set last : Site :=
        ⟨placement.scopeUuid platform createUuid (totalDraws platform earlier), placement⟩
      set log := sites platform createUuid 0 earlier
      cases first : firstWriter (Site.slot platform) log (site.slot platform) with
      | some writer =>
          have slotEq := key_of_firstWriter first
          simp only [Option.some_or, Option.some.injEq, or_iff_left_iff_imp]
          intro member
          split at member
          next fresh =>
            simp only [Option.mem_toList, Option.some.injEq] at member
            rw [member, first] at fresh
            contradiction
          next => simp at member
      | none =>
          simp only [Option.none_or, reduceCtorEq, false_or]
          by_cases same : last.slot platform = site.slot platform
          · rw [same, if_pos first, if_pos rfl]
            simp [eq_comm]
          · rw [if_neg same]
            have apart : site ≠ last := fun equal => same (congrArg _ equal.symm)
            split <;> simp [apart]

theorem mem_insertions (classes : List QMetaObject) (site : Site) :
    site ∈ insertions platform createUuid classes ↔
      Enters platform (logOf platform createUuid classes) site :=
  mem_insertionsFrom_empty _ _

end QApr.Scheduler
