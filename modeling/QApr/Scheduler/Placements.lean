import QApr.Scheduler.ScopeGroup

/-!
# Placements

A registration is a run of the innermost loop of `reg`, one placement after the
other, and every placement goes to the group of one uuid.  The log of a sequence
of registrations records the placements with their uuids; it does not depend on
the contents of the registry.
-/

namespace QApr.Scheduler

open QApr.Library QApr.Qt

/-- A placement together with the uuid of the group it goes to. -/
structure Site where
  uuid : QUuid
  placement : Placement
  deriving DecidableEq

/-- The job a placement asks for. -/
def Placement.job (placement : Placement) : Job :=
  ⟨placement.metaObject, placement.method⟩

section Log

variable (platform : Platform) (createUuid : Nat → QUuid)

/-- The table entry a site writes to. -/
def Site.slot (site : Site) : QUuid × QString :=
  (site.uuid, site.placement.sortName platform)

/-- All passes of the innermost loop of `reg` for one class. -/
def placements (metaObject : QMetaObject) : List Placement :=
  match metaObject.newScheduler with
  | none => []
  | some scheduler =>
      scheduler.metaObject.scheduledMethods.flatMap
        (methodPlacements platform.chars scheduler.metaObject)

/-- The number of uuids that a run of placements creates. -/
def totalDraws : List Placement → Nat
  | [] => 0
  | placement :: rest => placement.draws platform + totalDraws rest

/-- Resolve the uuid of every placement, when `drawn` uuids have been created. -/
def sites : Nat → List Placement → List Site
  | _, [] => []
  | drawn, placement :: rest =>
      ⟨placement.scopeUuid platform createUuid drawn, placement⟩ ::
        sites (drawn + placement.draws platform) rest

/-- The log of a sequence of registrations. -/
def logOf (classes : List QMetaObject) : List Site :=
  sites platform createUuid 0 (classes.flatMap (placements platform))

end Log

variable {platform : Platform} {createUuid : Nat → QUuid}

/-! ## Registration as a run of placements -/

theorem reg_eq_foldl (registry : Registry) (metaObject : QMetaObject) :
    reg platform createUuid registry metaObject =
      (placements platform metaObject).foldl (Registry.place platform createUuid)
        registry := by
  unfold reg placements QMetaObject.newScheduler
  cases instance? : metaObject.newInstance with
  | none => cases metaObject.inheritsScheduler <;> simp
  | some sObj =>
      have created : sObj = ⟨metaObject⟩ := by
        simp only [QMetaObject.newInstance] at instance?
        split at instance?
        · exact (Option.some.inj instance?).symm
        · contradiction
      subst created
      cases inherits : metaObject.inheritsScheduler <;>
        simp [QObject.toScheduler, inherits, List.foldl_flatMap]

theorem regs_eq_foldl (classes : List QMetaObject) :
    regs platform createUuid classes =
      (classes.flatMap (placements platform)).foldl (Registry.place platform createUuid)
        .empty := by
  rw [regs, List.foldl_flatMap]
  congr 1
  funext registry metaObject
  exact reg_eq_foldl registry metaObject

theorem totalDraws_append (before after : List Placement) :
    totalDraws platform (before ++ after) =
      totalDraws platform before + totalDraws platform after := by
  induction before with
  | nil => simp [totalDraws]
  | cons placement rest ih => simp [totalDraws, ih, Nat.add_assoc]

theorem sites_append (drawn : Nat) (before after : List Placement) :
    sites platform createUuid drawn (before ++ after) =
      sites platform createUuid drawn before ++
        sites platform createUuid (drawn + totalDraws platform before) after := by
  induction before generalizing drawn with
  | nil => simp [sites, totalDraws]
  | cons placement rest ih => simp [sites, totalDraws, ih, Nat.add_assoc]

/-- The site of the placement that follows a run. -/
theorem sites_snoc (run : List Placement) (placement : Placement) :
    sites platform createUuid 0 (run ++ [placement]) =
      sites platform createUuid 0 run ++
        [⟨placement.scopeUuid platform createUuid (totalDraws platform run), placement⟩] := by
  simp [sites_append, sites]

/-! ## Placements of a class -/

/-- The innermost loops visit every scope name with every group name. -/
theorem mem_execPairs {chars : CharTable} {scopes groups : List QString}
    {pair : QString × QString} :
    pair ∈ execPairs chars scopes groups ↔
      ∃ scopeName ∈ scopes, ∃ groupName ∈ groups,
        pair = (chars.toLower scopeName, chars.toLower groupName) := by
  induction scopes generalizing groups with
  | nil => simp [execPairs]
  | cons scopeName rest ih =>
      simp only [execPairs, List.mem_append, List.mem_map, ih, List.mem_cons]
      constructor
      · rintro (⟨_, ⟨groupName, member, rfl⟩, rfl⟩ |
          ⟨other, otherMember, _, ⟨groupName, member, rfl⟩, rfl⟩)
        · exact ⟨scopeName, Or.inl rfl, groupName, member, rfl⟩
        · exact ⟨other, Or.inr otherMember, groupName, member, by rw [chars.toLower_toLower]⟩
      · intro given
        rcases given with ⟨other, rfl | otherMember, groupName, member, rfl⟩
        · exact Or.inl ⟨_, ⟨groupName, member, rfl⟩, rfl⟩
        · exact Or.inr ⟨other, otherMember, _, ⟨groupName, member, rfl⟩,
            by rw [chars.toLower_toLower]⟩

theorem mem_scheduledMethods {metaObject : QMetaObject} {method : QMetaMethod} :
    method ∈ metaObject.scheduledMethods ↔
      metaObject.method method.methodIndex = some method ∧
        method.decl.methodType = .method ∧ method.decl.annotation.scSchedule = true := by
  simp only [QMetaObject.scheduledMethods, List.mem_filterMap, List.mem_range,
    Option.filter_eq_some_iff, Bool.and_eq_true, decide_eq_true_eq]
  constructor
  · intro given
    rcases given with ⟨index, _, found, accepted⟩
    have indexEq := metaObject.methodIndex_of_method found
    exact ⟨indexEq ▸ found, accepted⟩
  · intro given
    rcases given with ⟨found, accepted⟩
    refine ⟨method.methodIndex, ?_, found, accepted⟩
    by_contra outside
    rw [metaObject.method_eq_none_iff.mpr (Nat.le_of_not_lt outside)] at found
    contradiction

theorem mem_placements {metaObject : QMetaObject} {placement : Placement} :
    placement ∈ placements platform metaObject ↔
      metaObject.newScheduler = some ⟨metaObject⟩ ∧ placement.metaObject = metaObject ∧
        placement.method ∈ metaObject.scheduledMethods ∧
        ∃ scopeName ∈ placement.method.scExecScope,
          ∃ groupName ∈ placement.method.scExecGroup,
            placement.scopeName = platform.chars.toLower scopeName ∧
              placement.groupName = platform.chars.toLower groupName := by
  unfold placements
  cases created : metaObject.newScheduler with
  | none => simp
  | some scheduler =>
      have schedulerEq := (QMetaObject.newScheduler_eq_some_iff.mp created).2.2
      subst schedulerEq
      simp only [List.mem_flatMap, methodPlacements, List.mem_map, mem_execPairs, true_and]
      constructor
      · intro given
        rcases given with
          ⟨method, scheduled, _, ⟨scopeName, scopeMem, groupName, groupMem, rfl⟩, rfl⟩
        exact ⟨rfl, scheduled, scopeName, scopeMem, groupName, groupMem, rfl, rfl⟩
      · intro given
        rcases given with
          ⟨rfl, scheduled, scopeName, scopeMem, groupName, groupMem, scopeEq, groupEq⟩
        refine ⟨placement.method, scheduled, _,
          ⟨scopeName, scopeMem, groupName, groupMem, rfl⟩, ?_⟩
        rw [← scopeEq, ← groupEq]

/-- Both names of a placement are blank, so that it opens a group of its own. -/
def Placement.Blank (platform : Platform) (placement : Placement) : Prop :=
  platform.BlankPair placement.scopeName placement.groupName

instance (placement : Placement) : Decidable (placement.Blank platform) :=
  inferInstanceAs (Decidable (platform.BlankPair _ _))

theorem Placement.scopeUuid_of_named {placement : Placement}
    (named : ¬placement.Blank platform) (drawn : Nat) :
    placement.scopeUuid platform createUuid drawn =
      platform.pairUuid placement.scopeName placement.groupName :=
  Scheduler.scopeUuid_of_named named

theorem map_placement_sites (drawn : Nat) (run : List Placement) :
    (sites platform createUuid drawn run).map Site.placement = run := by
  induction run generalizing drawn with
  | nil => rfl
  | cons placement rest ih => simp [sites, ih]

/-- A named site carries the uuid of its names. -/
theorem uuid_of_mem_sites {drawn : Nat} {run : List Placement} {site : Site}
    (member : site ∈ sites platform createUuid drawn run)
    (named : ¬site.placement.Blank platform) :
    site.uuid = platform.pairUuid site.placement.scopeName site.placement.groupName := by
  induction run generalizing drawn with
  | nil => simp [sites] at member
  | cons placement rest ih =>
      rcases List.mem_cons.mp member with rfl | later
      · exact Placement.scopeUuid_of_named named drawn
      · exact ih later

/-- Every site of the log belongs to a registered class. -/
theorem placement_of_mem_logOf {classes : List QMetaObject} {site : Site}
    (member : site ∈ logOf platform createUuid classes) :
    site.placement.metaObject ∈ classes ∧
      site.placement ∈ placements platform site.placement.metaObject := by
  have visited : site.placement ∈ classes.flatMap (placements platform) := by
    rw [← map_placement_sites 0 (classes.flatMap _)]
    exact List.mem_map_of_mem member
  rcases List.mem_flatMap.mp visited with ⟨metaObject, registered, placed⟩
  have classEq := (mem_placements.mp placed).2.1
  exact ⟨classEq ▸ registered, classEq ▸ placed⟩

/-- A class in the log is one whose schedulers can be created. -/
theorem newScheduler_of_mem_logOf {classes : List QMetaObject} {site : Site}
    (member : site ∈ logOf platform createUuid classes) :
    site.placement.metaObject.newScheduler = some ⟨site.placement.metaObject⟩ :=
  (mem_placements.mp (placement_of_mem_logOf member).2).1

/-- A placed method is the method of its class under its own index. -/
theorem method_of_mem_logOf {classes : List QMetaObject} {site : Site}
    (member : site ∈ logOf platform createUuid classes) :
    site.placement.metaObject.method site.placement.method.methodIndex =
      some site.placement.method :=
  (mem_scheduledMethods.mp (mem_placements.mp (placement_of_mem_logOf member).2).2.2.1).1

end QApr.Scheduler
