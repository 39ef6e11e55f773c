import QApr.Library.Blocks
import QApr.Scheduler.Dispatch
import Mathlib.Data.Multiset.MapFold

/-!
# Independence of the order of registration

Classes are registered by static initialisers, whose order the language leaves
open.  Two orders build registries that agree in every group exactly when no two
classes place a method in one named group; the group of a shared pair of names
belongs to whichever class comes first.
-/

namespace QApr.Scheduler

open QApr.Library QApr.Qt

variable {platform : Platform} {createUuid : Nat → QUuid}

section Agreement

variable (platform : Platform)

/-- A sequence of jobs that some run of a group executes. -/
def Executes (group : SchedulerScopeGroup) (jobs : List Job) : Prop :=
  ∃ run : InvokeRun, group.KeyOrder platform.chars run.methodKeys ∧
    executed (group.invoke run) = jobs

/-- Two groups have the same flag and execute the same sequences of jobs. -/
structure SameBehaviour (left right : SchedulerScopeGroup) : Prop where
  synchronize : left.synchronize = right.synchronize
  executes : ∀ jobs, Executes platform left jobs ↔ Executes platform right jobs

/-- The groups of pairs without a name. -/
def Registry.blankGroups (registry : Registry) : List SchedulerScopeGroup :=
  registry.scopes.filter fun group => group.scope = [] ∧ group.group = []

/-- Two registries have groups of the same behaviour under every named pair whose uuid
is not a random one, and the same groups without a name up to order and uuid. -/
structure Agree (random : QUuid → Prop) (left right : Registry) : Prop where
  named : ∀ scope group, ¬platform.BlankPair scope group →
    ¬random (platform.pairUuid scope group) →
      Option.Rel (SameBehaviour platform)
        (left.groupAt (platform.pairUuid scope group))
        (right.groupAt (platform.pairUuid scope group))
  blank : Multiset.Rel (SameBehaviour platform)
    (left.blankGroups : Multiset SchedulerScopeGroup)
    (right.blankGroups : Multiset SchedulerScopeGroup)

/-- A uuid created while a sequence of classes is registered. -/
def Drawn (createUuid : Nat → QUuid) (classes : List QMetaObject) (uuid : QUuid) : Prop :=
  ∃ index < totalDraws platform (classes.flatMap (placements platform)),
    createUuid index = uuid

/-- The uuids created during a registration differ from each other and from those of the
named pairs. -/
structure FreshDraws (createUuid : Nat → QUuid) (classes : List QMetaObject) : Prop where
  distinct : ∀ left < totalDraws platform (classes.flatMap (placements platform)),
    ∀ right < totalDraws platform (classes.flatMap (placements platform)),
      createUuid left = createUuid right → left = right
  unnamed : ∀ placement ∈ classes.flatMap (placements platform),
    ¬placement.Blank platform →
      ¬Drawn platform createUuid classes
        (platform.pairUuid placement.scopeName placement.groupName)

/-- No two classes place a method in the same named group. -/
def NoSharedGroup (classes : List QMetaObject) : Prop :=
  ∀ left ∈ classes.flatMap (placements platform), ¬left.Blank platform →
    ∀ right ∈ classes.flatMap (placements platform), ¬right.Blank platform →
      platform.pairUuid left.scopeName left.groupName =
          platform.pairUuid right.scopeName right.groupName →
        left.metaObject = right.metaObject

instance (createUuid : Nat → QUuid) (classes : List QMetaObject) (uuid : QUuid) :
    Decidable (Drawn platform createUuid classes uuid) :=
  inferInstanceAs (Decidable (∃ index < _, _))

instance (classes : List QMetaObject) : Decidable (NoSharedGroup platform classes) :=
  inferInstanceAs (Decidable (∀ left ∈ _, _ → ∀ right ∈ _, _ → _ → _))

/-- Any two orders of registering the classes, with any random uuids, lead to registries
that agree. -/
def OrderIndependent (createUuid₁ createUuid₂ : Nat → QUuid)
    (classes : List QMetaObject) : Prop :=
  ∀ order₁ order₂ : List QMetaObject, order₁.Perm classes → order₂.Perm classes →
    Agree platform
      (fun uuid => Drawn platform createUuid₁ classes uuid ∨
        Drawn platform createUuid₂ classes uuid)
      (regs platform createUuid₁ order₁) (regs platform createUuid₂ order₂)

end Agreement

/-! ## Behaviour of a group -/

theorem SameBehaviour.refl (group : SchedulerScopeGroup) :
    SameBehaviour platform group group :=
  ⟨rfl, fun _ => Iff.rfl⟩

theorem SchedulerScopeGroup.invoke_congr {left right : SchedulerScopeGroup}
    (metaObject : left.metaObject = right.metaObject) (methods : left.methods = right.methods)
    (run : InvokeRun) : left.invoke run = right.invoke run := by
  have loops (step : Nat) (methodList : List QMetaMethod) :
      left.invokeLoop run step methodList = right.invokeLoop run step methodList := by
    induction methodList generalizing step with
    | nil => rfl
    | cons method rest ih => simp only [invokeLoop, metaObject, ih]
  have lists (methodKeys : List QString) :
      left.methodList methodKeys = right.methodList methodKeys := by
    have resolve : left.methodOf = right.methodOf := by
      funext key
      rw [methodOf, methodOf, metaObject, methods]
    rw [methodList, methodList, resolve]
  rw [invoke, invoke, lists, loops]

/-- The uuid and the names of a group have no influence on its behaviour. -/
theorem sameBehaviour_of_eq {left right : SchedulerScopeGroup}
    (synchronize : left.synchronize = right.synchronize)
    (metaObject : left.metaObject = right.metaObject)
    (methods : left.methods = right.methods) : SameBehaviour platform left right where
  synchronize
  executes jobs := by
    have orders (methodKeys : List QString) :
        left.KeyOrder platform.chars methodKeys ↔ right.KeyOrder platform.chars methodKeys := by
      constructor
      · intro order
        exact ⟨order.nodup, methods ▸ order.mem_iff, order.sorted⟩
      · intro order
        exact ⟨order.nodup, methods ▸ order.mem_iff, order.sorted⟩
    simp only [Executes, orders, SchedulerScopeGroup.invoke_congr metaObject methods]

/-! ## Named groups -/

theorem logGroup_congr {left right : List Site} {uuid : QUuid}
    (same : left.filter (fun site => site.uuid = uuid) =
      right.filter fun site => site.uuid = uuid) :
    logGroup platform left uuid = logGroup platform right uuid := by
  simp only [logGroup, firstWriter, ← List.head?_filter, same]

/-- The sites under a uuid that was not created are the placements of that name. -/
theorem filter_sites {drawn : Nat} {run : List Placement} {uuid : QUuid}
    (notDrawn : ∀ index, drawn ≤ index → index < drawn + totalDraws platform run →
      createUuid index ≠ uuid) :
    (sites platform createUuid drawn run).filter (fun site => site.uuid = uuid) =
      (run.filter fun placement => ¬placement.Blank platform ∧
        platform.pairUuid placement.scopeName placement.groupName = uuid).map
          fun placement => ⟨uuid, placement⟩ := by
  induction run generalizing drawn with
  | nil => rfl
  | cons placement rest ih =>
      have total : totalDraws platform (placement :: rest) =
          placement.draws platform + totalDraws platform rest := rfl
      have tail := @ih (drawn + placement.draws platform) fun index low high =>
        notDrawn index (by omega) (by omega)
      by_cases blank : placement.Blank platform
      · have drawsOne : placement.draws platform = 1 := if_pos blank
        have apart : placement.scopeUuid platform createUuid drawn ≠ uuid := by
          rw [Placement.scopeUuid, Scheduler.scopeUuid_of_blank blank]
          exact notDrawn drawn (Nat.le_refl _) (by omega)
        simp [sites, apart, blank, tail]
      · have uuidEq : placement.scopeUuid platform createUuid drawn =
            platform.pairUuid placement.scopeName placement.groupName :=
          Placement.scopeUuid_of_named blank drawn
        by_cases hit : platform.pairUuid placement.scopeName placement.groupName = uuid
        · simp [sites, uuidEq, hit, blank, tail]
        · simp [sites, uuidEq, hit, blank, tail]

section Draws

variable {order classes : List QMetaObject}

theorem totalDraws_perm {left right : List Placement} (perm : left.Perm right) :
    totalDraws platform left = totalDraws platform right := by
  induction perm with
  | nil => rfl
  | cons placement _ ih => simp [totalDraws, ih]
  | swap first second rest => simp [totalDraws, Nat.add_left_comm]
  | trans _ _ leftIh rightIh => exact leftIh.trans rightIh

theorem drawn_perm (perm : order.Perm classes) {uuid : QUuid} :
    Drawn platform createUuid order uuid ↔ Drawn platform createUuid classes uuid := by
  rw [Drawn, Drawn, totalDraws_perm (perm.flatMap_right _)]

theorem FreshDraws.perm (fresh : FreshDraws platform createUuid classes)
    (perm : order.Perm classes) : FreshDraws platform createUuid order where
  distinct := by
    rw [totalDraws_perm (perm.flatMap_right _)]
    exact fresh.distinct
  unnamed placement member named := by
    rw [drawn_perm perm]
    exact fresh.unnamed placement ((perm.flatMap_right _).mem_iff.mp member) named

/-- The sites of a log under a uuid that was not created. -/
theorem filter_logOf {uuid : QUuid} (notDrawn : ¬Drawn platform createUuid order uuid) :
    (logOf platform createUuid order).filter (fun site => site.uuid = uuid) =
      (order.flatMap fun metaObject => (placements platform metaObject).filter
        fun placement => ¬placement.Blank platform ∧
          platform.pairUuid placement.scopeName placement.groupName = uuid).map
            fun placement => ⟨uuid, placement⟩ := by
  rw [logOf, filter_sites, List.filter_flatMap]
  intro index _ inside equal
  exact notDrawn ⟨index, by omega, equal⟩

end Draws

/-- Without shared groups the placements under a named pair are those of one class, in
every order of registration. -/
theorem NoSharedGroup.flatMap_perm {order₁ order₂ classes : List QMetaObject}
    (apart : NoSharedGroup platform classes) (distinct : classes.Nodup)
    (perm₁ : order₁.Perm classes) (perm₂ : order₂.Perm classes) (uuid : QUuid) :
    let named (metaObject : QMetaObject) := (placements platform metaObject).filter
      fun placement => ¬placement.Blank platform ∧
        platform.pairUuid placement.scopeName placement.groupName = uuid
    order₁.flatMap named = order₂.flatMap named := by
  intro named
  have visits {metaObject : QMetaObject} (registered : metaObject ∈ classes)
      (nonempty : named metaObject ≠ []) :
      ∃ placement ∈ classes.flatMap (placements platform),
        placement.metaObject = metaObject ∧ ¬placement.Blank platform ∧
          platform.pairUuid placement.scopeName placement.groupName = uuid := by
    have ⟨placement, inside⟩ := List.exists_mem_of_ne_nil _ nonempty
    simp only [named, List.mem_filter, decide_eq_true_eq] at inside
    exact ⟨placement, List.mem_flatMap.mpr ⟨metaObject, registered, inside.1⟩,
      (mem_placements.mp inside.1).2.1, inside.2⟩
  apply flatMap_perm_of_unique distinct ?_ perm₁ perm₂
  intro first firstRegistered second secondRegistered firstNonempty secondNonempty
  rcases visits firstRegistered firstNonempty with ⟨left, leftMem, rfl, leftNamed, leftUuid⟩
  rcases visits secondRegistered secondNonempty with
    ⟨right, rightMem, rfl, rightNamed, rightUuid⟩
  exact apart left leftMem leftNamed right rightMem rightNamed
    (leftUuid.trans rightUuid.symm)

/-! ## Groups without a name -/

/-- The uuid of a blank site is one of those created for its run. -/
theorem uuid_of_blank_site {drawn : Nat} {run : List Placement} {site : Site}
    (member : site ∈ sites platform createUuid drawn run)
    (blank : site.placement.Blank platform) :
    ∃ index, drawn ≤ index ∧ index < drawn + totalDraws platform run ∧
      createUuid index = site.uuid := by
  induction run generalizing drawn with
  | nil => simp [sites] at member
  | cons placement rest ih =>
      have total : totalDraws platform (placement :: rest) =
          placement.draws platform + totalDraws platform rest := rfl
      rcases List.mem_cons.mp member with rfl | later
      · have drawsOne : placement.draws platform = 1 := if_pos blank
        exact ⟨drawn, Nat.le_refl _, by omega, (Scheduler.scopeUuid_of_blank blank).symm⟩
      · rcases ih later with ⟨index, low, high, uuidEq⟩
        exact ⟨index, by omega, by omega, uuidEq⟩

section Fresh

variable {drawn : Nat} {run : List Placement}

/-- The uuids that a run creates differ from each other and from those of its named
placements. -/
structure FreshRun (platform : Platform) (createUuid : Nat → QUuid) (drawn : Nat)
    (run : List Placement) : Prop where
  distinct : ∀ left < drawn + totalDraws platform run,
    ∀ right < drawn + totalDraws platform run,
      createUuid left = createUuid right → left = right
  unnamed : ∀ placement ∈ run, ¬placement.Blank platform →
    ∀ index < drawn + totalDraws platform run,
      createUuid index ≠ platform.pairUuid placement.scopeName placement.groupName

theorem FreshRun.tail {placement : Placement}
    (fresh : FreshRun platform createUuid drawn (placement :: run)) :
    FreshRun platform createUuid (drawn + placement.draws platform) run := by
  have total : drawn + totalDraws platform (placement :: run) =
      drawn + placement.draws platform + totalDraws platform run := by
    rw [totalDraws, Nat.add_assoc]
  constructor
  · rw [← total]
    exact fresh.distinct
  · intro other member
    rw [← total]
    exact fresh.unnamed other (by simp [member])

/-- The first site of a run and a later one have different uuids if one is blank. -/
theorem FreshRun.scopeUuid_ne {placement : Placement}
    (fresh : FreshRun platform createUuid drawn (placement :: run)) {later : Site}
    (member : later ∈ sites platform createUuid (drawn + placement.draws platform) run)
    (either : placement.Blank platform ∨ later.placement.Blank platform) :
    placement.scopeUuid platform createUuid drawn ≠ later.uuid := by
  have total : totalDraws platform (placement :: run) =
      placement.draws platform + totalDraws platform run := rfl
  intro equal
  by_cases headBlank : placement.Blank platform
  · have drawsOne : placement.draws platform = 1 := if_pos headBlank
    rw [Placement.scopeUuid, Scheduler.scopeUuid_of_blank headBlank] at equal
    by_cases laterBlank : later.placement.Blank platform
    · rcases uuid_of_blank_site member laterBlank with ⟨index, low, high, uuidEq⟩
      have same := fresh.distinct drawn (by omega) index (by omega)
        (equal.trans uuidEq.symm)
      omega
    · have visited : later.placement ∈ run := by
        rw [← map_placement_sites (drawn + placement.draws platform) run]
        exact List.mem_map_of_mem member
      rw [uuid_of_mem_sites member laterBlank] at equal
      exact fresh.unnamed later.placement (by simp [visited]) laterBlank drawn (by omega) equal
  · have laterBlank := either.resolve_left headBlank
    rcases uuid_of_blank_site member laterBlank with ⟨index, _, high, uuidEq⟩
    rw [Placement.scopeUuid_of_named headBlank] at equal
    exact fresh.unnamed placement (by simp) headBlank index (by omega)
      (uuidEq.trans equal.symm)

/-- The uuid of a blank site differs from those of all other sites. -/
theorem FreshRun.pairwise_sites (fresh : FreshRun platform createUuid drawn run) :
    (sites platform createUuid drawn run).Pairwise fun left right =>
      left.placement.Blank platform ∨ right.placement.Blank platform →
        left.uuid ≠ right.uuid := by
  induction run generalizing drawn with
  | nil => exact .nil
  | cons placement rest ih =>
      exact .cons (fun later member either => fresh.scopeUuid_ne member either)
        (ih fresh.tail)

end Fresh

theorem FreshDraws.pairwise_logOf {order : List QMetaObject}
    (fresh : FreshDraws platform createUuid order) :
    (logOf platform createUuid order).Pairwise fun left right =>
      left.placement.Blank platform ∨ right.placement.Blank platform →
        left.uuid ≠ right.uuid := by
  apply FreshRun.pairwise_sites
  constructor
  · rw [Nat.zero_add]
    exact fresh.distinct
  · intro placement member named index inside equal
    exact fresh.unnamed placement member named ⟨index, by omega, equal⟩

/-- A site whose uuid differs from those of all other sites is alone under it. -/
theorem filter_uuid_eq_singleton {blank : Site → Prop} {log : List Site}
    (apart : log.Pairwise fun left right => blank left ∨ blank right →
      left.uuid ≠ right.uuid) {site : Site} (member : site ∈ log) (isBlank : blank site) :
    log.filter (fun other => other.uuid = site.uuid) = [site] := by
  induction apart with
  | nil => contradiction
  | @cons first rest firstApart _ ih =>
      rcases List.mem_cons.mp member with rfl | later
      · have none_later : rest.filter (fun other => other.uuid = site.uuid) = [] := by
          apply List.filter_eq_nil_iff.mpr
          intro other inside
          simpa [eq_comm] using firstApart other inside (Or.inl isBlank)
        simp [none_later]
      · have different := firstApart site later (Or.inr isBlank)
        simp [different, ih later]

/-- The group that a blank placement leaves under its uuid. -/
def Site.blankGroup (platform : Platform) (site : Site) : SchedulerScopeGroup :=
  (site.placement.newGroup platform site.uuid).enter (site.placement.sortName platform)
    site.placement.method.methodIndex

theorem logGroup_of_alone {log : List Site} {site : Site}
    (alone : log.filter (fun other => other.uuid = site.uuid) = [site]) :
    logGroup platform log site.uuid = some (site.blankGroup platform) := by
  simp only [logGroup, firstWriter, ← List.head?_filter, alone]
  rfl

/-- The group of a placement is without a name when the placement is blank. -/
theorem Placement.newGroup_blank_iff {placement : Placement} (uuid : QUuid) :
    ((placement.newGroup platform uuid).scope = [] ∧
      (placement.newGroup platform uuid).group = []) ↔ placement.Blank platform := by
  rw [Placement.Blank, ← Platform.normalPair_eq_nil_iff, Platform.normalPair, Prod.mk.injEq]
  rfl

/-- The groups without a name are those of the blank sites, one for each. -/
theorem blankGroups_perm {order : List QMetaObject}
    (fresh : FreshDraws platform createUuid order) :
    (regs platform createUuid order).blankGroups.Perm
      (((logOf platform createUuid order).filter fun site =>
        site.placement.Blank platform).map (Site.blankGroup platform)) := by
  have apart := fresh.pairwise_logOf
  apply (List.perm_ext_iff_of_nodup ?_ ?_).mpr
  · intro group
    simp only [Registry.blankGroups, List.mem_filter, scopes_regs, List.mem_map,
      decide_eq_true_eq]
    constructor
    · intro ⟨found, unnamed⟩
      have ⟨opener, opened, groupEq⟩ := Option.map_eq_some_iff.mp found
      have member := mem_of_firstWriter opened
      have uuidEq := key_of_firstWriter opened
      have blank : opener.placement.Blank platform := by
        apply (Placement.newGroup_blank_iff group.uuid).mp
        rw [← groupEq] at unnamed
        exact unnamed
      have alone := filter_uuid_eq_singleton apart member blank
      refine ⟨opener, ⟨member, blank⟩, ?_⟩
      rw [← uuidEq, logGroup_of_alone alone] at found
      exact Option.some.inj found
    · intro given
      rcases given with ⟨site, ⟨member, blank⟩, rfl⟩
      have alone := filter_uuid_eq_singleton apart member blank
      exact ⟨logGroup_of_alone alone, (Placement.newGroup_blank_iff site.uuid).mpr blank⟩
  · exact (wellFormed_regs order).nodup_scopes.filter _
  · apply List.Nodup.of_map SchedulerScopeGroup.uuid
    rw [List.map_map]
    apply List.pairwise_map.mpr
    have blankApart := apart.filter fun site => decide (site.placement.Blank platform)
    apply blankApart.imp_of_mem
    intro left _ leftMem _ different
    exact different (Or.inl (of_decide_eq_true (List.mem_filter.mp leftMem).2))

theorem blank_rel {order₁ order₂ : List QMetaObject} {createUuid₁ createUuid₂ : Nat → QUuid}
    (fresh₁ : FreshDraws platform createUuid₁ order₁)
    (fresh₂ : FreshDraws platform createUuid₂ order₂) (perm : order₁.Perm order₂) :
    Multiset.Rel (SameBehaviour platform)
      ((regs platform createUuid₁ order₁).blankGroups : Multiset SchedulerScopeGroup)
      ((regs platform createUuid₂ order₂).blankGroups : Multiset SchedulerScopeGroup) := by
  rw [Multiset.coe_eq_coe.mpr (blankGroups_perm fresh₁),
    Multiset.coe_eq_coe.mpr (blankGroups_perm fresh₂), ← Multiset.map_coe, ← Multiset.map_coe,
    Multiset.rel_map]
  have placed {createUuid : Nat → QUuid} (order : List QMetaObject) :
      ((logOf platform createUuid order).filter fun site =>
        site.placement.Blank platform).map Site.placement =
      (order.flatMap (placements platform)).filter fun placement =>
        placement.Blank platform := by
    rw [← map_placement_sites 0 (order.flatMap _), List.filter_map]
    rfl
  have same : Multiset.Rel (fun left right : Site => left.placement = right.placement)
      ((logOf platform createUuid₁ order₁).filter fun site =>
        site.placement.Blank platform : List Site)
      ((logOf platform createUuid₂ order₂).filter fun site =>
        site.placement.Blank platform : List Site) := by
    apply Multiset.rel_map.mp
    rw [Multiset.rel_eq, Multiset.map_coe, Multiset.map_coe, placed, placed]
    exact Multiset.coe_eq_coe.mpr ((perm.flatMap_right _).filter _)
  apply same.mono
  intro left _ right _ equal
  apply sameBehaviour_of_eq
  · simp only [Site.blankGroup, equal]; rfl
  · simp only [Site.blankGroup, equal]; rfl
  · simp only [Site.blankGroup, equal]; rfl

/-! ## Shared groups -/

/-- The opener of a group also enters its method. -/
theorem enters_of_opener {log : List Site} {uuid : QUuid} {opener : Site}
    (opened : firstWriter Site.uuid log uuid = some opener) :
    Enters platform log opener := by
  apply firstWriter_of_coarser opened
  intro other equal
  have uuidEq : other.uuid = opener.uuid := congrArg Prod.fst equal
  exact uuidEq.trans (key_of_firstWriter opened)

/-- A run executes jobs of the group's class only, and every run does execute some. -/
def RunsOnly (platform : Platform) (group : SchedulerScopeGroup)
    (metaObject : QMetaObject) : Prop :=
  (∃ jobs, Executes platform group jobs) ∧
    ∀ jobs, Executes platform group jobs → jobs ≠ [] ∧
      ∀ job ∈ jobs, job.metaObject = metaObject

/-- Two groups of the same behaviour run the jobs of one class. -/
theorem SameBehaviour.class_eq {left right : SchedulerScopeGroup}
    (same : SameBehaviour platform left right) {leftClass rightClass : QMetaObject}
    (leftRuns : RunsOnly platform left leftClass)
    (rightRuns : RunsOnly platform right rightClass) : leftClass = rightClass := by
  have ⟨jobs, executes⟩ := leftRuns.1
  have ⟨nonempty, ofLeft⟩ := leftRuns.2 jobs executes
  have ofRight := (rightRuns.2 jobs ((same.executes jobs).mp executes)).2
  have ⟨job, member⟩ := List.exists_mem_of_ne_nil jobs nonempty
  exact (ofLeft job member).symm.trans (ofRight job member)

/-- A group runs jobs of the class that has opened it. -/
theorem runsOnly_of_opener {classes : List QMetaObject} {uuid : QUuid} {opener : Site}
    (opened : firstWriter Site.uuid (logOf platform createUuid classes) uuid = some opener) :
    ∃ group, (regs platform createUuid classes).groupAt uuid = some group ∧
      RunsOnly platform group opener.placement.metaObject := by
  rcases logGroup_of_opener opened with ⟨group, found, _, classEq⟩
  have enters : Enters platform (logOf platform createUuid classes) opener :=
    enters_of_opener opened
  have openerUuid := key_of_firstWriter opened
  have jobs := SchedulerScopeGroup.executed_invoke
    (newScheduler_of_scopes (mem_scopes_of_logGroup found))
  refine ⟨group, (groupAt_regs classes uuid).trans found, ?_, ?_⟩
  · rcases SchedulerScopeGroup.exists_keyOrder platform.chars group with ⟨keys, order⟩
    exact ⟨_, ⟨keys, uuid, fun _ => 0, fun _ => .nothing⟩, order, rfl⟩
  · rintro _ ⟨run, order, rfl⟩
    rw [jobs, classEq]
    constructor
    · -- The entry of the opener resolves to the opener's own method.
      have resolved := methodOf_of_enters found enters openerUuid
      rw [classEq, method_of_mem_logOf enters.mem] at resolved
      have visited := (order.mem_iff _).mpr ((mem_methods_of_logGroup found).mpr
        ⟨opener, enters, by rw [Site.slot, openerUuid]⟩)
      have listed : opener.placement.method ∈ group.methodList run.methodKeys :=
        List.mem_filterMap.mpr ⟨_, visited, resolved⟩
      exact List.ne_nil_of_mem (List.mem_map_of_mem listed)
    · intro job inside
      rcases List.mem_map.mp inside with ⟨_, _, rfl⟩
      rfl

/-- The class registered first opens all its named groups. -/
theorem opener_of_first {metaObject : QMetaObject} {rest : List QMetaObject}
    {placement : Placement} (member : placement ∈ placements platform metaObject)
    (named : ¬placement.Blank platform) :
    ∃ opener, firstWriter Site.uuid (logOf platform createUuid (metaObject :: rest))
        (platform.pairUuid placement.scopeName placement.groupName) = some opener ∧
      opener.placement.metaObject = metaObject := by
  -- The first class contributes the beginning of the log.
  let beginning := sites platform createUuid 0 (placements platform metaObject)
  have visited : placement ∈ beginning.map Site.placement := by
    rw [map_placement_sites]
    exact member
  rcases List.mem_map.mp visited with ⟨site, inside, rfl⟩
  rw [← uuid_of_mem_sites inside named]
  have ⟨opener, first⟩ : ∃ opener, firstWriter Site.uuid beginning site.uuid = some opener :=
    exists_firstWriter inside
  refine ⟨opener, ?_, ?_⟩
  · rw [logOf, List.flatMap_cons, sites_append]
    exact firstWriter_append_of_eq_some first
  · have placed : opener.placement ∈ placements platform metaObject := by
      rw [← map_placement_sites 0 (placements platform metaObject)]
      exact List.mem_map_of_mem (mem_of_firstWriter first)
    exact (mem_placements.mp placed).2.1

/-- The class registered first has all its named groups to itself. -/
theorem exists_group_of_first {metaObject : QMetaObject} {rest : List QMetaObject}
    {placement : Placement} (member : placement ∈ placements platform metaObject)
    (named : ¬placement.Blank platform) :
    ∃ group, (regs platform createUuid (metaObject :: rest)).groupAt
        (platform.pairUuid placement.scopeName placement.groupName) = some group ∧
      RunsOnly platform group metaObject := by
  rcases opener_of_first member named with ⟨opener, opened, classEq⟩
  have runs := runsOnly_of_opener opened
  rw [classEq] at runs
  exact runs

/-! ## Independence of the order -/

section Orders

variable {createUuid₁ createUuid₂ : Nat → QUuid} {classes : List QMetaObject}

theorem orderIndependent_of_noSharedGroup (distinct : classes.Nodup)
    (fresh₁ : FreshDraws platform createUuid₁ classes)
    (fresh₂ : FreshDraws platform createUuid₂ classes)
    (apart : NoSharedGroup platform classes) :
    OrderIndependent platform createUuid₁ createUuid₂ classes := by
  intro order₁ order₂ perm₁ perm₂
  refine ⟨?_, blank_rel (fresh₁.perm perm₁) (fresh₂.perm perm₂) (perm₁.trans perm₂.symm)⟩
  intro scope group _ notDrawn
  have ⟨notDrawn₁, notDrawn₂⟩ := not_or.mp notDrawn
  have sameLogs := filter_logOf ((drawn_perm perm₁).not.mpr notDrawn₁)
  rw [apart.flatMap_perm distinct perm₁ perm₂,
    ← filter_logOf ((drawn_perm perm₂).not.mpr notDrawn₂)] at sameLogs
  rw [groupAt_regs, groupAt_regs, logGroup_congr sameLogs]
  cases logGroup platform (logOf platform createUuid₂ order₂)
      (platform.pairUuid scope group) with
  | none => exact .none
  | some shared => exact .some (.refl shared)

theorem noSharedGroup_of_orderIndependent
    (fresh₁ : FreshDraws platform createUuid₁ classes)
    (fresh₂ : FreshDraws platform createUuid₂ classes)
    (independent : OrderIndependent platform createUuid₁ createUuid₂ classes) :
    NoSharedGroup platform classes := by
  intro left leftMem leftNamed right rightMem rightNamed uuidEq
  rcases List.mem_flatMap.mp leftMem with ⟨leftClass, leftRegistered, leftPlaced⟩
  rcases List.mem_flatMap.mp rightMem with ⟨rightClass, rightRegistered, rightPlaced⟩
  rw [(mem_placements.mp leftPlaced).2.1, (mem_placements.mp rightPlaced).2.1]
  -- Each of the two classes is registered first once.
  have agree := independent _ _ (List.perm_cons_erase leftRegistered).symm
    (List.perm_cons_erase rightRegistered).symm
  have notDrawn := not_or.mpr ⟨fresh₁.unnamed left leftMem leftNamed,
    fresh₂.unnamed left leftMem leftNamed⟩
  have related := agree.named left.scopeName left.groupName leftNamed notDrawn
  rcases exists_group_of_first leftPlaced leftNamed with ⟨leftGroup, leftFound, leftRuns⟩
  rcases exists_group_of_first rightPlaced rightNamed with ⟨rightGroup, rightFound, rightRuns⟩
  rw [leftFound, uuidEq, rightFound] at related
  cases related with
  | some same => exact same.class_eq leftRuns rightRuns

/-- All orders of registration agree exactly when no two classes place a method in the
same named group. -/
theorem orderIndependent_iff (distinct : classes.Nodup)
    (fresh₁ : FreshDraws platform createUuid₁ classes)
    (fresh₂ : FreshDraws platform createUuid₂ classes) :
    OrderIndependent platform createUuid₁ createUuid₂ classes ↔
      NoSharedGroup platform classes :=
  ⟨noSharedGroup_of_orderIndependent fresh₁ fresh₂,
    orderIndependent_of_noSharedGroup distinct fresh₁ fresh₂⟩

end Orders

/-- A class whose only method has no named scope or group. -/
def anonymousClass : QMetaObject :=
  schedulerClass "Sweep" none
    [scheduleMethod "sweep" (some [[]]) (some [[]]) none]

/-- A uuid with one digit throughout, for streams that create a single uuid. -/
def createdUuid (digit : Fin 16) : QUuid :=
  ⟨List.replicate 32 digit, by simp⟩

/-- A class with a named group and one with a group of its own agree in both orders. -/
theorem orderIndependent_mail_sweep :
    OrderIndependent .ascii (fun _ => createdUuid 1) (fun _ => createdUuid 2)
      [mailClass, anonymousClass] :=
  (orderIndependent_iff (by decide) ⟨by decide, by decide⟩ ⟨by decide, by decide⟩).mpr
    (by decide)

/-- Two classes without annotations share the default group, which belongs to the class
that is registered first. -/
theorem not_orderIndependent_default :
    ¬OrderIndependent .ascii (fun _ => .null) (fun _ => .null) [mailClass, backupClass] := by
  intro independent
  have apart := noSharedGroup_of_orderIndependent ⟨by decide, by decide⟩
    ⟨by decide, by decide⟩ independent
  revert apart
  decide

end QApr.Scheduler
