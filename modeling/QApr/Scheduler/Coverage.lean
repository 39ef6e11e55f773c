import QApr.Scheduler.Registry

/-!
# Scheduled methods that have an entry

A placement whose sort key is taken is dropped without notice.  The module states
when every scheduled method of every registered class nevertheless has an entry
in each of its groups.
-/

namespace QApr.Scheduler

open QApr.Library QApr.Qt

section Lost

variable (platform : Platform) (createUuid : Nat → QUuid)

/-- An annotated scope and group name of a scheduled method of a registered class,
at least one of them not blank. -/
structure Scheduled (classes : List QMetaObject) (job : Job)
    (scopeName groupName : QString) : Prop where
  registered : job.metaObject ∈ classes
  inherits : job.metaObject.inheritsScheduler = true
  declared : job.metaObject.method job.method.methodIndex = some job.method
  scheduled : job.method.decl.annotation.scSchedule = true
  scope : scopeName ∈ job.method.scExecScope
  group : groupName ∈ job.method.scExecGroup
  named : ¬platform.BlankPair scopeName groupName

/-- Every scheduled method has an entry in the group of each of its annotated pairs
of names. -/
def NoMethodLost (classes : List QMetaObject) : Prop :=
  ∀ job scopeName groupName, Scheduled platform classes job scopeName groupName →
    ∃ group ∈ (regs platform createUuid classes).scopes,
      (∀ fresh, group.uuid = scopeUuid platform fresh scopeName groupName) ∧
        ∃ site ∈ insertions platform createUuid classes,
          site.uuid = group.uuid ∧ site.placement.job = job ∧
            site.placement.sortName platform ∈ group.methods

/-- Among the sort keys of a job in a group, one is not taken by an earlier placement
of another job. -/
def HasOwnKey (log : List Site) (job : Job) (uuid : QUuid) : Prop :=
  ∃ site ∈ log, site.uuid = uuid ∧ site.placement.job = job ∧
    (firstWriter (Site.slot platform) log (site.slot platform)).map
      (fun writer => writer.placement.job) = some job

end Lost

/-- A job has an own key exactly when one of its placements enters the method. -/
theorem hasOwnKey_iff {log : List Site} {job : Job} {uuid : QUuid} :
    HasOwnKey platform log job uuid ↔
      ∃ site, Enters platform log site ∧ site.uuid = uuid ∧ site.placement.job = job := by
  constructor
  · intro ownKey
    rcases ownKey with ⟨site, _, uuidEq, _, first⟩
    rcases Option.map_eq_some_iff.mp first with ⟨writer, writes, jobEq⟩
    have slotEq := key_of_firstWriter writes
    refine ⟨writer, by rw [Enters, slotEq, writes], ?_, jobEq⟩
    exact (congrArg Prod.fst slotEq).trans uuidEq
  · intro entered
    rcases entered with ⟨site, enters, uuidEq, jobEq⟩
    exact ⟨site, enters.mem, uuidEq, jobEq, by rw [enters, ← jobEq]; rfl⟩

/-- No method is lost exactly when every scheduled method keeps a sort key of its own
in every group it is annotated for. -/
theorem noMethodLost_iff (platform : Platform) (createUuid : Nat → QUuid)
    (classes : List QMetaObject) :
    NoMethodLost platform createUuid classes ↔
      ∀ job scopeName groupName, Scheduled platform classes job scopeName groupName →
        HasOwnKey platform (logOf platform createUuid classes) job
          (platform.pairUuid scopeName groupName) := by
  constructor
  · intro kept job scopeName groupName scheduled
    rcases kept job scopeName groupName scheduled with
      ⟨group, _, groupUuid, site, inserted, uuidEq, jobEq, _⟩
    apply hasOwnKey_iff.mpr
    refine ⟨site, (mem_insertions classes site).mp inserted, ?_, jobEq⟩
    rw [uuidEq, groupUuid .null, scopeUuid_of_named scheduled.named]
  · intro ownKeys job scopeName groupName scheduled
    rcases hasOwnKey_iff.mp (ownKeys job scopeName groupName scheduled) with
      ⟨site, enters, uuidEq, jobEq⟩
    have ⟨group, found⟩ := enters.exists_logGroup
    rcases opener_of_logGroup found with ⟨_, _, groupUuid, _, _⟩
    refine ⟨group, ?_, ?_, site, (mem_insertions classes site).mpr enters,
      groupUuid.symm, jobEq, ?_⟩
    · exact mem_scopes_of_logGroup found
    · intro fresh
      rw [groupUuid, uuidEq, scopeUuid_of_named scheduled.named]
    · exact (mem_methods_of_logGroup found).mpr ⟨site, enters, rfl⟩

/-- A class whose two methods are scheduled with the same order. -/
def orderedClass : QMetaObject :=
  schedulerClass "Report" none
    [scheduleMethod "collect" none none (some 0), scheduleMethod "print" none none (some 0)]

/-- The method `print` is the second one under the key of order zero and is lost. -/
theorem not_noMethodLost_sameOrder :
    ¬NoMethodLost .ascii (fun _ => .null) [orderedClass] := by
  intro kept
  let job : Job := ⟨orderedClass, ⟨7, scheduleMethod "print" none none (some 0)⟩⟩
  have scheduled : Scheduled .ascii [orderedClass] job defaultName defaultName := by
    constructor <;> decide
  rcases kept job _ _ scheduled with ⟨_, _, _, site, inserted, _, jobEq, _⟩
  have absent : ∀ site ∈ insertions .ascii (fun _ => .null) [orderedClass],
      site.placement.job ≠ job := by
    decide
  exact absent site inserted jobEq

end QApr.Scheduler
