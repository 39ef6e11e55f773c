import QApr.Scheduler.Registry

/-!
# Faithfulness of group identity

Two pairs of scope and group names should share a group exactly when their normal
forms agree.  The dot that joins the two names before hashing is not escaped, so
this holds exactly for the pairs that do not overlap at a dot.
-/

namespace QApr.Scheduler

open QApr.Library QApr.Qt

variable {platform : Platform}

section Faithful

variable (platform : Platform)

/-- The uuids of two pairs of names agree exactly when the normal forms do, and
pairs with different normal forms never have one group in `scopeCache`. -/
structure FaithfulPairs (scope group scope' group' : QString) : Prop where
  uuid_iff : ∀ fresh fresh',
    scopeUuid platform fresh scope group = scopeUuid platform fresh' scope' group' ↔
      platform.normalPair scope group = platform.normalPair scope' group'
  cached : ∀ createUuid classes fresh fresh' scopePtr,
    (regs platform createUuid classes).scopeCache.lookup
        (scopeUuid platform fresh scope group) = some scopePtr →
    (regs platform createUuid classes).scopeCache.lookup
        (scopeUuid platform fresh' scope' group') = some scopePtr →
      platform.normalPair scope group = platform.normalPair scope' group'

/-- Two pairs of names overlap at a dot in one of the two orientations. -/
def DotOverlap (scope group scope' group' : QString) : Prop :=
  Overlap '.' (platform.normalPair scope group) (platform.normalPair scope' group') ∨
    Overlap '.' (platform.normalPair scope' group') (platform.normalPair scope group)

end Faithful

/-- One pointer is cached under one uuid only. -/
theorem Registry.WellFormed.uuid_of_pointer {registry : Registry}
    (wellFormed : registry.WellFormed) {left right : QUuid} {scope : ScopePtr}
    (leftCached : registry.scopeCache.lookup left = some scope)
    (rightCached : registry.scopeCache.lookup right = some scope) : left = right := by
  rcases (wellFormed.cached left scope).mp leftCached with ⟨first, stored, leftEq⟩
  rcases (wellFormed.cached right scope).mp rightCached with ⟨second, stored', rightEq⟩
  cases stored.symm.trans stored'
  exact leftEq.symm.trans rightEq

/-- Without a collision, the uuids of two named pairs agree exactly when the joined
texts do. -/
theorem scopeUuid_eq_iff {scope group scope' group' : QString} (fresh fresh' : QUuid)
    (named : ¬platform.BlankPair scope group) (named' : ¬platform.BlankPair scope' group')
    (apart : platform.NoCollision (platform.pairText scope group)
      (platform.pairText scope' group')) :
    scopeUuid platform fresh scope group = scopeUuid platform fresh' scope' group' ↔
      platform.pairText scope group = platform.pairText scope' group' := by
  rw [scopeUuid_of_named named, scopeUuid_of_named named']
  exact textUuid_inj apart

/-- Group identity is faithful for two named pairs exactly when they do not overlap at
a dot. -/
theorem faithfulPairs_iff (platform : Platform) (scope group scope' group' : QString)
    (named : ¬platform.BlankPair scope group) (named' : ¬platform.BlankPair scope' group')
    (apart : platform.NoCollision (platform.pairText scope group)
      (platform.pairText scope' group')) :
    FaithfulPairs platform scope group scope' group' ↔
      ¬DotOverlap platform scope group scope' group' := by
  have uuidIff := fun fresh fresh' => scopeUuid_eq_iff fresh fresh' named named' apart
  have present := platform.normalPair_eq_nil_iff.not.mpr named
  have present' := platform.normalPair_eq_nil_iff.not.mpr named'
  have faithful : (platform.pairText scope group = platform.pairText scope' group' ↔
      platform.normalPair scope group = platform.normalPair scope' group') ↔
        ¬DotOverlap platform scope group scope' group' :=
    joinPair_faithful_iff present present'
  constructor
  · intro pairs
    apply faithful.mp
    rw [← pairs.uuid_iff .null .null, uuidIff]
  · intro separate
    have textIff := faithful.mpr separate
    constructor
    · intro fresh fresh'
      exact (uuidIff fresh fresh').trans textIff
    · intro createUuid classes fresh fresh' scopePtr cached cached'
      have uuidEq := (wellFormed_regs classes).uuid_of_pointer cached cached'
      exact textIff.mp ((uuidIff fresh fresh').mp uuidEq)

/-- The pairs `nightly, default` and `default, default` do not overlap. -/
theorem faithfulPairs_nightly :
    FaithfulPairs .ascii "Nightly ".toList defaultName defaultName defaultName ↔
      ¬DotOverlap .ascii "Nightly ".toList defaultName defaultName defaultName :=
  faithfulPairs_iff .ascii _ _ _ _ (by decide) (by decide) (by decide)

/-- The scope `a.b` with the group `c` shares its uuid with the scope `a` and the group
`b.c`. -/
theorem not_faithfulPairs_dotted :
    ¬FaithfulPairs .ascii "a.b".toList "c".toList "a".toList "b.c".toList := by
  intro pairs
  have equal := (pairs.uuid_iff .null .null).mp (by decide)
  revert equal
  decide

end QApr.Scheduler
