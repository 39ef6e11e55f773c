import QApr.Library.Mutex
import Mathlib.Logic.Function.Basic
import Mathlib.Logic.Relation

/-!
# Double-checked initialisation

Any number of calls find out, without a lock, whether a store is ready.  A call that finds
it unready takes the lock, looks again, and fills the store if it still has to.  The steps
of different calls interleave.
-/

namespace QApr.Library

open Relation

/-- Where a call is; its body is at a position of type `φ`. -/
inductive CallPhase (φ : Type) where
  /-- About to look without the lock, and so many times again after it. -/
  | checking (left : Nat)
  | waiting
  | holding
  | filling (position : φ)
  /-- Returned, `early` if it never held the lock. -/
  | returned (early : Bool)

/-- A phase in which the call holds the lock. -/
def CallPhase.Inside {φ : Type} : CallPhase φ → Prop
  | .holding | .filling _ => True
  | .checking _ | .waiting | .returned _ => False

/-- The code of the calls: the checks before the lock less one, and the body. -/
structure Initialiser (ι σ φ : Type) where
  checks : ι → Nat
  ready : σ → Bool
  Enter : ι → φ → Prop
  Fill : φ → σ → φ → σ → Prop
  Ends : φ → Prop

/-- The store with its lock and the calls. -/
structure CallWorld (ι σ φ : Type) where
  store : σ
  owner : Option ι
  phase : ι → CallPhase φ

variable {ι σ φ : Type} [DecidableEq ι]

/-- A call goes to another phase. -/
def CallWorld.go (world : CallWorld ι σ φ) (party : ι) (phase : CallPhase φ) (store : σ)
    (owner : Option ι) : CallWorld ι σ φ :=
  ⟨store, owner, Function.update world.phase party phase⟩

namespace Initialiser

variable (init : Initialiser ι σ φ)

/-- A step of one call. -/
inductive Step (world : CallWorld ι σ φ) : CallWorld ι σ φ → Prop where
  | skip (party : ι) (left : Nat) (checking : world.phase party = .checking left)
      (ready : init.ready world.store = true) :
      Step world (world.go party (.returned true) world.store world.owner)
  | check (party : ι) (left : Nat) (checking : world.phase party = .checking (left + 1))
      (unready : init.ready world.store = false) :
      Step world (world.go party (.checking left) world.store world.owner)
  | arrive (party : ι) (checking : world.phase party = .checking 0)
      (unready : init.ready world.store = false) :
      Step world (world.go party .waiting world.store world.owner)
  | acquire (party : ι) (waiting : world.phase party = .waiting)
      (free : world.owner = none) :
      Step world (world.go party .holding world.store (some party))
  | leave (party : ι) (holding : world.phase party = .holding)
      (ready : init.ready world.store = true) :
      Step world (world.go party (.returned false) world.store none)
  | enter (party : ι) (position : φ) (holding : world.phase party = .holding)
      (unready : init.ready world.store = false) (enters : init.Enter party position) :
      Step world (world.go party (.filling position) world.store world.owner)
  | fill (party : ι) (position next : φ) (store : σ)
      (filling : world.phase party = .filling position)
      (fills : init.Fill position world.store next store) :
      Step world (world.go party (.filling next) store world.owner)
  | finish (party : ι) (position : φ) (filling : world.phase party = .filling position)
      (ends : init.Ends position) :
      Step world (world.go party (.returned false) world.store none)

/-- The world before any call. -/
def start (store : σ) : CallWorld ι σ φ := ⟨store, none, fun party => .checking (init.checks party)⟩

/-- The worlds of all interleavings. -/
def Reachable (store : σ) (world : CallWorld ι σ φ) : Prop :=
  ReflTransGen init.Step (init.start store) world

/-- What the body keeps: `idle` while nobody fills, `busy` while a call is filling. -/
structure Keeps (idle : σ → Prop) (busy : φ → σ → Prop) : Prop where
  enter : ∀ party position store, idle store → init.ready store = false →
    init.Enter party position → busy position store
  fill : ∀ position store next after, busy position store →
    init.Fill position store next after → busy next after
  finish : ∀ position store, busy position store → init.Ends position → idle store

end Initialiser

namespace CallWorld

section Go

variable (world : CallWorld ι σ φ) (party : ι) (phase : CallPhase φ) (store : σ)
  (owner : Option ι)

@[simp] theorem store_go : (world.go party phase store owner).store = store := rfl

@[simp] theorem owner_go : (world.go party phase store owner).owner = owner := rfl

@[simp] theorem phase_go_self : (world.go party phase store owner).phase party = phase := by
  simp [go]

theorem phase_go_of_ne {other : ι} (different : other ≠ party) :
    (world.go party phase store owner).phase other = world.phase other := by
  simp [go, different]

theorem phase_go_cases (other : ι) :
    other = party ∧ (world.go party phase store owner).phase other = phase ∨
      other ≠ party ∧ (world.go party phase store owner).phase other = world.phase other := by
  by_cases same : other = party
  · subst same
    exact Or.inl ⟨rfl, phase_go_self ..⟩
  · exact Or.inr ⟨same, phase_go_of_ne _ _ _ _ _ same⟩

end Go

/-- Nobody is filling the store. -/
def Quiet (world : CallWorld ι σ φ) : Prop :=
  ∀ party position, world.phase party ≠ .filling position

/-- The lock is held by the call that is inside, and the store is as the body keeps it. -/
structure Invariant (idle : σ → Prop) (busy : φ → σ → Prop) (world : CallWorld ι σ φ) :
    Prop where
  guarded : Guarded world.owner fun party => (world.phase party).Inside
  occupied : ∀ party, world.owner = some party → (world.phase party).Inside
  busy : ∀ party position, world.phase party = .filling position → busy position world.store
  idle : world.Quiet → idle world.store

namespace Invariant

variable {idle : σ → Prop} {busy : φ → σ → Prop} {world : CallWorld ι σ φ} {party : ι}
  {phase : CallPhase φ}

/-- A call takes a step without the lock. -/
theorem outside (invariant : world.Invariant idle busy) (before : ¬(world.phase party).Inside)
    (after : ¬phase.Inside) :
    (world.go party phase world.store world.owner).Invariant idle busy := by
  constructor
  · apply invariant.guarded.mono
    intro other inside
    obtain ⟨_, moved⟩ | ⟨_, stays⟩ := phase_go_cases world party phase world.store world.owner other
    · rw [moved] at inside
      exact absurd inside after
    · rwa [stays] at inside
  · intro other owns
    have inside := invariant.occupied other owns
    have different : other ≠ party := fun same => before (same ▸ inside)
    rwa [phase_go_of_ne _ _ _ _ _ different]
  · intro other position filling
    obtain ⟨_, moved⟩ | ⟨_, stays⟩ := phase_go_cases world party phase world.store world.owner other
    · rw [moved] at filling
      exact absurd (filling ▸ trivial) after
    · exact invariant.busy other position (stays.symm.trans filling)
  · intro quiet
    apply invariant.idle
    intro other position filling
    have different : other ≠ party := by
      intro same
      apply before
      rw [← same, filling]
      trivial
    exact quiet other position ((phase_go_of_ne _ _ _ _ _ different).trans filling)

/-- A call takes the free lock. -/
theorem acquire (invariant : world.Invariant idle busy) (free : world.owner = none) :
    (world.go party .holding world.store (some party)).Invariant idle busy := by
  have nobody (other : ι) : ¬(world.phase other).Inside := by
    intro inside
    have owns := invariant.guarded other inside
    rw [free] at owns
    contradiction
  have quiet : world.Quiet := by
    intro other position filling
    apply nobody other
    rw [filling]
    trivial
  constructor
  · rw [owner_go]
    apply Guarded.acquire (free ▸ invariant.guarded)
    intro other inside
    obtain ⟨same, _⟩ | ⟨_, stays⟩ :=
      phase_go_cases world party .holding world.store (some party) other
    · exact Or.inl same
    · rw [stays] at inside
      exact Or.inr inside
  · intro other owns
    have same : party = other := Option.some.inj owns
    rw [← same, phase_go_self]
    trivial
  · intro other position filling
    obtain ⟨_, moved⟩ | ⟨_, stays⟩ :=
      phase_go_cases world party .holding world.store (some party) other
    · rw [moved] at filling
      contradiction
    · exact absurd (stays.symm.trans filling) (quiet other position)
  · intro _
    exact invariant.idle quiet

/-- The call inside takes a step of the body. -/
theorem inside (invariant : world.Invariant idle busy) (isInside : (world.phase party).Inside)
    {position : φ} {store : σ} (keeps : busy position store) :
    (world.go party (.filling position) store world.owner).Invariant idle busy := by
  have owns := invariant.guarded party isInside
  constructor
  · apply invariant.guarded.mono
    intro other inside
    obtain ⟨same, _⟩ | ⟨_, stays⟩ :=
      phase_go_cases world party (.filling position) store world.owner other
    · rwa [same]
    · rwa [stays] at inside
  · intro other otherOwns
    have same : party = other := Option.some.inj (owns.symm.trans otherOwns)
    rw [← same, phase_go_self]
    trivial
  · intro other otherPosition filling
    obtain ⟨_, moved⟩ | ⟨different, stays⟩ :=
      phase_go_cases world party (.filling position) store world.owner other
    · cases moved.symm.trans filling
      exact keeps
    · have otherInside : (world.phase other).Inside := by
        rw [stays.symm.trans filling]
        trivial
      exact absurd (invariant.guarded.exclusive otherInside isInside) different
  · intro quiet
    exact absurd (phase_go_self ..) (quiet party position)

/-- The call inside releases the lock. -/
theorem release (invariant : world.Invariant idle busy) (isInside : (world.phase party).Inside)
    (keeps : idle world.store) :
    (world.go party (.returned false) world.store none).Invariant idle busy := by
  have nobody : ∀ other,
      ¬((world.go party (.returned false) world.store none).phase other).Inside := by
    intro other inside
    obtain ⟨_, moved⟩ | ⟨different, stays⟩ :=
      phase_go_cases world party (.returned false) world.store none other
    · rw [moved] at inside
      exact inside
    · rw [stays] at inside
      exact different (invariant.guarded.exclusive inside isInside)
  constructor
  · intro other inside
    exact absurd inside (nobody other)
  · intro other owns
    contradiction
  · intro other position filling
    apply absurd _ (nobody other)
    rw [filling]
    trivial
  · intro _
    exact keeps

omit [DecidableEq ι] in
/-- While the lock is free, nobody fills. -/
theorem quiet_of_free (invariant : world.Invariant idle busy) (free : world.owner = none) :
    world.Quiet := by
  intro party position filling
  have inside : (world.phase party).Inside := by
    rw [filling]
    trivial
  have owns := invariant.guarded party inside
  rw [free] at owns
  contradiction

omit [DecidableEq ι] in
/-- While a call holds the lock without filling, nobody fills. -/
theorem quiet_of_holding (invariant : world.Invariant idle busy)
    (holding : world.phase party = .holding) : world.Quiet := by
  intro other position filling
  have otherInside : (world.phase other).Inside := by
    rw [filling]
    trivial
  have isInside : (world.phase party).Inside := by
    rw [holding]
    trivial
  rw [invariant.guarded.exclusive otherInside isInside, holding] at filling
  contradiction

end Invariant

end CallWorld

namespace Initialiser

open CallWorld

variable {init : Initialiser ι σ φ} {idle : σ → Prop} {busy : φ → σ → Prop}
  {world after : CallWorld ι σ φ} {store : σ}

theorem Keeps.step (keeps : init.Keeps idle busy) (invariant : world.Invariant idle busy)
    (step : init.Step world after) : after.Invariant idle busy := by
  cases step with
  | skip party left checking _ | check party left checking _ =>
      exact invariant.outside (by simp [checking, CallPhase.Inside]) id
  | arrive party checking _ =>
      exact invariant.outside (by simp [checking, CallPhase.Inside]) id
  | acquire party _ free => exact invariant.acquire free
  | leave party holding _ =>
      exact invariant.release (by rw [holding]; trivial)
        (invariant.idle (invariant.quiet_of_holding holding))
  | enter party position holding unready enters =>
      apply invariant.inside (by rw [holding]; trivial)
      exact keeps.enter party position _ (invariant.idle (invariant.quiet_of_holding holding))
        unready enters
  | fill party position next store filling fills =>
      apply invariant.inside (by rw [filling]; trivial)
      exact keeps.fill _ _ _ _ (invariant.busy party position filling) fills
  | finish party position filling ends =>
      apply invariant.release (by rw [filling]; trivial)
      exact keeps.finish _ _ (invariant.busy party position filling) ends

/-- The invariant holds in every interleaving. -/
theorem Keeps.invariant (keeps : init.Keeps idle busy) (initially : idle store)
    (reachable : init.Reachable store world) : world.Invariant idle busy := by
  induction reachable with
  | refl =>
      constructor
      · intro party inside
        exact absurd inside id
      · intro party owns
        contradiction
      · intro party position filling
        contradiction
      · intro _
        exact initially
  | tail _ step ih => exact keeps.step ih step

/-! ## What a call that has returned can rely on -/

/-- The store is ready and nobody fills it. -/
structure Settled (init : Initialiser ι σ φ) (world : CallWorld ι σ φ) : Prop where
  ready : init.ready world.store = true
  quiet : world.Quiet

/-- A settled store stays as it is. -/
theorem Settled.step (settled : init.Settled world) (step : init.Step world after) :
    init.Settled after ∧ after.store = world.store := by
  have quietAfter {party : ι} {phase : CallPhase φ} {owner : Option ι}
      (notFilling : ∀ position, phase ≠ .filling position) :
      (world.go party phase world.store owner).Quiet := by
    intro other position filling
    obtain ⟨_, moved⟩ | ⟨_, stays⟩ := phase_go_cases world party phase world.store owner other
    · exact notFilling position (moved.symm.trans filling)
    · exact settled.quiet other position (stays.symm.trans filling)
  cases step with
  | skip | check | arrive | acquire | leave =>
      exact ⟨⟨settled.ready, quietAfter (by simp)⟩, rfl⟩
  | enter _ _ _ unready _ =>
      have contradictory := settled.ready.symm.trans unready
      contradiction
  | fill party position _ _ filling _ => exact absurd filling (settled.quiet party position)
  | finish party position filling _ => exact absurd filling (settled.quiet party position)

/-- It stays as it is in all later interleavings. -/
theorem Settled.steps (settled : init.Settled world)
    (steps : ReflTransGen init.Step world after) :
    init.Settled after ∧ after.store = world.store := by
  induction steps with
  | refl => exact ⟨settled, rfl⟩
  | tail _ step ih =>
      have ⟨still, same⟩ := ih.1.step step
      exact ⟨still, same.trans ih.2⟩

/-- How a call returns: from a check, or with the lock that it releases. -/
inductive Returns (init : Initialiser ι σ φ) (world after : CallWorld ι σ φ) (party : ι) :
    Bool → Prop where
  | skipped (ready : init.ready world.store = true) : Returns init world after party true
  | left (holding : world.phase party = .holding) (ready : init.ready world.store = true)
      (free : after.owner = none) : Returns init world after party false
  | finished (position : φ) (filling : world.phase party = .filling position)
      (ends : init.Ends position) (free : after.owner = none) :
      Returns init world after party false

/-- A call that has returned had returned before the step, or it returns with the step,
which leaves the store as it is. -/
theorem Step.returned {party : ι} {early : Bool} (step : init.Step world after)
    (returned : after.phase party = .returned early) :
    world.phase party = .returned early ∨
      after.store = world.store ∧ init.Returns world after party early := by
  have moves {other : ι} {phase : CallPhase φ} {store : σ} {owner : Option ι}
      (returned : (world.go other phase store owner).phase party = .returned early) :
      party = other ∧ phase = .returned early ∨ world.phase party = .returned early := by
    obtain ⟨same, moved⟩ | ⟨_, stays⟩ := phase_go_cases world other phase store owner party
    · exact Or.inl ⟨same, moved.symm.trans returned⟩
    · exact Or.inr (stays.symm.trans returned)
  cases step with
  | check other left _ _ | arrive other _ _ | acquire other _ _ | enter other _ _ _ _
  | fill other _ _ _ _ _ =>
      obtain ⟨_, different⟩ | before := moves returned
      · contradiction
      · exact Or.inl before
  | skip other left _ ready =>
      obtain ⟨rfl, same⟩ | before := moves returned
      · cases same
        exact Or.inr ⟨rfl, .skipped ready⟩
      · exact Or.inl before
  | leave other holding ready =>
      obtain ⟨rfl, same⟩ | before := moves returned
      · cases same
        exact Or.inr ⟨rfl, .left holding ready rfl⟩
      · exact Or.inl before
  | finish other position filling ends =>
      obtain ⟨rfl, same⟩ | before := moves returned
      · cases same
        exact Or.inr ⟨rfl, .finished position filling ends rfl⟩
      · exact Or.inl before

/-- A call that has returned takes no more steps. -/
theorem Step.stays_returned {party : ι} {early : Bool} (step : init.Step world after)
    (returned : world.phase party = .returned early) : after.phase party = .returned early := by
  have stays {other : ι} {phase before : CallPhase φ} {store : σ} {owner : Option ι}
      (moves : world.phase other = before) (running : before ≠ .returned early) :
      (world.go other phase store owner).phase party = .returned early := by
    rw [phase_go_of_ne _ _ _ _ _ _, returned]
    intro same
    exact running (moves.symm.trans (same ▸ returned))
  cases step with
  | skip _ _ moves _ | check _ _ moves _ | arrive _ moves _ | acquire _ moves _
  | leave _ moves _ | enter _ _ moves _ _ | fill _ _ _ _ moves _ | finish _ _ moves _ =>
      exact stays moves (by simp)

theorem stays_returned {party : ι} {early : Bool} (returned : world.phase party = .returned early)
    (steps : ReflTransGen init.Step world after) : after.phase party = .returned early := by
  induction steps with
  | refl => exact returned
  | tail _ step ih => exact step.stays_returned ih

/-- If the body ends with a ready store, a call that returns after it held the lock leaves
a settled store. -/
theorem Keeps.settled_of_returned (keeps : init.Keeps idle busy) (initially : idle store)
    (readies : ∀ position store, busy position store → init.Ends position →
      init.ready store = true)
    (reachable : init.Reachable store world) {party : ι}
    (returned : world.phase party = .returned false) : init.Settled world := by
  induction reachable with
  | refl => contradiction
  | @tail before world previous step ih =>
      have invariant := keeps.invariant initially previous
      have quiet (free : world.owner = none) : world.Quiet :=
        (keeps.step invariant step).quiet_of_free free
      obtain old | ⟨sameStore, returns⟩ := step.returned returned
      · exact ((ih old).step step).1
      cases returns with
      | left _ ready free => exact ⟨sameStore ▸ ready, quiet free⟩
      | finished position filling ends free =>
          have ready := readies position _ (invariant.busy party position filling) ends
          exact ⟨sameStore ▸ ready, quiet free⟩

/-- If the body keeps a ready store ready, every call that has returned early finds it
ready. -/
theorem Keeps.ready_of_returned (keeps : init.Keeps idle busy) (initially : idle store)
    (stays : ∀ position store next after, busy position store → init.ready store = true →
      init.Fill position store next after → init.ready after = true)
    (reachable : init.Reachable store world) {party : ι}
    (returned : world.phase party = .returned true) : init.ready world.store = true := by
  induction reachable with
  | refl => contradiction
  | @tail before world previous step ih =>
      have invariant := keeps.invariant initially previous
      obtain old | ⟨sameStore, returns⟩ := step.returned returned
      · have ready := ih old
        cases step with
        | skip | check | arrive | acquire | leave | enter | finish => exact ready
        | fill party position next store filling fills =>
            exact stays _ _ _ _ (invariant.busy party position filling) ready fills
      · cases returns with
        | skipped ready => exact sameStore ▸ ready

/-! ## Every call can return -/

/-- The body can start and always goes on until it ends. -/
structure Live (init : Initialiser ι σ φ) (size : φ → Nat) : Prop where
  enter : ∀ party, ∃ position, init.Enter party position
  fill : ∀ position store, init.Ends position ∨
    ∃ next after, init.Fill position store next after ∧ size next < size position

section Progress

variable {size : φ → Nat} (live : init.Live size) {party : ι}

/-- The other calls have not moved. -/
def Alone (party : ι) (world after : CallWorld ι σ φ) : Prop :=
  ∀ other, other ≠ party → after.phase other = world.phase other

omit [DecidableEq ι] in
theorem Alone.trans {middle : CallWorld ι σ φ} (first : Alone party world middle)
    (second : Alone party middle after) : Alone party world after :=
  fun other different => (second other different).trans (first other different)

theorem alone_go {phase : CallPhase φ} {owner : Option ι} :
    Alone party world (world.go party phase store owner) :=
  fun _ different => phase_go_of_ne _ _ _ _ _ different

/-- The call returns while the others stand still, and the lock is free. -/
def Completes (init : Initialiser ι σ φ) (party : ι) (world : CallWorld ι σ φ) : Prop :=
  ∃ after early, ReflTransGen init.Step world after ∧ Alone party world after ∧
    after.phase party = .returned early ∧ after.owner = none

theorem Completes.head (step : init.Step world after) (alone : Alone party world after)
    (completes : init.Completes party after) : init.Completes party world := by
  have ⟨last, early, steps, lastAlone, returned, free⟩ := completes
  exact ⟨last, early, .head step steps, alone.trans lastAlone, returned, free⟩

include live

theorem completes_of_filling {position : φ} (filling : world.phase party = .filling position) :
    init.Completes party world := by
  induction bound : size position using Nat.strongRecOn generalizing position world with
  | _ _ ih =>
      obtain ends | ⟨next, after, fills, smaller⟩ := live.fill position world.store
      · exact ⟨_, false, .single (.finish party position filling ends), alone_go,
          phase_go_self .., rfl⟩
      · apply Completes.head (.fill party position next after filling fills) alone_go
        exact ih _ (bound ▸ smaller) (phase_go_self ..) rfl

theorem completes_of_holding (holding : world.phase party = .holding) :
    init.Completes party world := by
  cases ready : init.ready world.store with
  | true =>
      exact ⟨_, false, .single (.leave party holding ready), alone_go, phase_go_self .., rfl⟩
  | false =>
      have ⟨position, enters⟩ := live.enter party
      apply Completes.head (.enter party position holding ready enters) alone_go
      exact completes_of_filling live (phase_go_self ..)

theorem completes_of_inside (inside : (world.phase party).Inside) :
    init.Completes party world := by
  cases phase : world.phase party with
  | checking | waiting | returned =>
      rw [phase] at inside
      exact absurd inside id
  | holding => exact completes_of_holding live phase
  | filling position => exact completes_of_filling live phase

theorem completes_of_waiting (waiting : world.phase party = .waiting)
    (free : world.owner = none) : init.Completes party world := by
  apply Completes.head (.acquire party waiting free) alone_go
  exact completes_of_holding live (phase_go_self ..)

theorem completes_of_checking {left : Nat} (checking : world.phase party = .checking left)
    (free : world.owner = none) : init.Completes party world := by
  induction left generalizing world with
  | zero =>
      cases ready : init.ready world.store with
      | true =>
          exact ⟨_, true, .single (.skip party 0 checking ready), alone_go,
            phase_go_self .., free⟩
      | false =>
          apply Completes.head (.arrive party checking ready) alone_go
          exact completes_of_waiting live (phase_go_self ..) free
  | succ left ih =>
      cases ready : init.ready world.store with
      | true =>
          exact ⟨_, true, .single (.skip party _ checking ready), alone_go,
            phase_go_self .., free⟩
      | false =>
          apply Completes.head (.check party left checking ready) alone_go
          exact ih (phase_go_self ..) free

theorem completes_of_free (free : world.owner = none) : init.Completes party world := by
  cases phase : world.phase party with
  | checking left => exact completes_of_checking live phase free
  | waiting => exact completes_of_waiting live phase free
  | holding => exact completes_of_holding live phase
  | filling position => exact completes_of_filling live phase
  | returned early => exact ⟨world, early, .refl, fun _ _ => rfl, phase, free⟩

/-- Wherever the calls have got to, every one of them can return. -/
theorem returns_of_invariant (invariant : world.Invariant idle busy) (party : ι) :
    ∃ after early, ReflTransGen init.Step world after ∧
      after.phase party = .returned early := by
  cases owner : world.owner with
  | none =>
      have completes : init.Completes party world := completes_of_free live owner
      have ⟨after, early, steps, _, returned, _⟩ := completes
      exact ⟨after, early, steps, returned⟩
  | some other =>
      -- The call inside returns first.
      have inside := invariant.occupied other owner
      have ⟨middle, _, others, _, _, free⟩ := completes_of_inside live inside
      have completes : init.Completes party middle := completes_of_free live free
      have ⟨after, early, steps, _, returned, _⟩ := completes
      exact ⟨after, early, others.trans steps, returned⟩

end Progress

/-! ## Bodies that are a list of actions -/

/-- A body that takes the actions of a list one by one. -/
def ofActions (checks : ι → Nat) (ready : σ → Bool) (actions : List (σ → σ)) :
    Initialiser ι σ (List (σ → σ)) where
  checks
  ready
  Enter _ position := position = actions
  Fill position store next after :=
    ∃ action, position = action :: next ∧ after = action store
  Ends position := position = []

/-- The store after some actions. -/
def runActions (store : σ) (actions : List (σ → σ)) : σ :=
  actions.foldl (fun store action => action store) store

section Actions

variable {checks : ι → Nat} {ready : σ → Bool} {actions : List (σ → σ)}

@[simp] theorem runActions_nil (store : σ) : runActions store [] = store := rfl

@[simp] theorem runActions_cons (store : σ) (action : σ → σ) (rest : List (σ → σ)) :
    runActions store (action :: rest) = runActions (action store) rest := rfl

theorem runActions_append (store : σ) (first second : List (σ → σ)) :
    runActions store (first ++ second) = runActions (runActions store first) second :=
  List.foldl_append

/-- The actions before a position have been taken. -/
def Progressed (actions : List (σ → σ)) (start : σ) (position : List (σ → σ)) (store : σ) :
    Prop :=
  ∃ done, done ++ position = actions ∧ store = runActions start done

/-- Nothing has been done, or everything. -/
def Untouched (actions : List (σ → σ)) (start store : σ) : Prop :=
  store = start ∨ store = runActions start actions

omit [DecidableEq ι] in
theorem keeps_ofActions {start : σ} (readies : ready (runActions start actions) = true) :
    (ofActions checks ready actions : Initialiser ι σ _).Keeps (Untouched actions start)
      (Progressed actions start) where
  enter _ position store idle unready enters := by
    subst enters
    obtain rfl | rfl := idle
    · exact ⟨[], rfl, rfl⟩
    · exact absurd (readies.symm.trans unready) Bool.noConfusion
  fill position store next after progressed fills := by
    have ⟨done, split, sofar⟩ := progressed
    have ⟨action, taken, result⟩ := fills
    refine ⟨done ++ [action], ?_, ?_⟩
    · rw [List.append_assoc, ← split, taken]
      rfl
    · rw [result, sofar, runActions_append]
      rfl
  finish position store progressed ends := by
    have ⟨done, split, sofar⟩ := progressed
    rw [show position = [] from ends, List.append_nil] at split
    rw [← split]
    exact Or.inr sofar

omit [DecidableEq ι] in
theorem live_ofActions :
    (ofActions checks ready actions : Initialiser ι σ _).Live List.length where
  enter _ := ⟨actions, rfl⟩
  fill position store := by
    cases position with
    | nil => exact Or.inl rfl
    | cons action rest => exact Or.inr ⟨rest, action store, ⟨action, rfl, rfl⟩, by simp⟩

/-- A run in which the actions that are taken are written down with the calls that take
them. -/
inductive Recorded (checks : ι → Nat) (ready : σ → Bool) (actions : List (σ → σ)) (start : σ) :
    CallWorld ι σ (List (σ → σ)) → List (ι × (σ → σ)) → Prop where
  | start : Recorded checks ready actions start ((ofActions checks ready actions).start start) []
  | action {world : CallWorld ι σ (List (σ → σ))} {taken : List (ι × (σ → σ))}
      (recorded : Recorded checks ready actions start world taken) {party : ι} {action : σ → σ}
      {rest : List (σ → σ)} (filling : world.phase party = .filling (action :: rest)) :
      Recorded checks ready actions start
        (world.go party (.filling rest) (action world.store) world.owner)
        (taken ++ [(party, action)])
  /-- No call goes on in its body. -/
  | other {world after : CallWorld ι σ (List (σ → σ))} {taken : List (ι × (σ → σ))}
      (recorded : Recorded checks ready actions start world taken)
      (step : (ofActions checks ready actions).Step world after)
      (rests : ∀ party position next, world.phase party = .filling position →
        after.phase party = .filling next → next = position) :
      Recorded checks ready actions start after taken

/-- The record is a part of the body, from its beginning, and all of it is by one call. -/
structure Accounted (actions : List (σ → σ)) (start : σ) (world : CallWorld ι σ (List (σ → σ)))
    (taken : List (ι × (σ → σ))) (rest : List (σ → σ)) : Prop where
  split : taken.map Prod.snd ++ rest = actions
  store : world.store = runActions start (taken.map Prod.snd)
  alone : ∀ left ∈ taken, ∀ right ∈ taken, left.1 = right.1
  quiet : world.Quiet → taken = [] ∨ rest = []
  filling : ∀ party position, world.phase party = .filling position →
    position = rest ∧ ∀ entry ∈ taken, entry.1 = party

section Reached

variable {start : σ} {world : CallWorld ι σ (List (σ → σ))}
  (readies : ready (runActions start actions) = true)
  (reachable : (ofActions checks ready actions).Reachable start world)

include readies reachable

/-- In every interleaving, no action has been taken twice. -/
theorem progressed_of_reachable : ∃ position, Progressed actions start position world.store := by
  have invariant := (keeps_ofActions readies).invariant (Or.inl rfl) reachable
  by_cases quiet : world.Quiet
  · obtain untouched | complete := invariant.idle quiet
    · exact ⟨actions, [], rfl, untouched⟩
    · exact ⟨[], actions, List.append_nil _, complete⟩
  · simp only [CallWorld.Quiet, not_forall, not_not] at quiet
    have ⟨party, position, filling⟩ := quiet
    exact ⟨position, invariant.busy party position filling⟩

/-- If the store becomes ready with the last action, a call that has returned finds all of
them taken. -/
theorem complete_of_returned
    (unready : ∀ done rest, done ++ rest = actions → rest ≠ [] →
      ready (runActions start done) = false)
    {party : ι} {early : Bool} (returned : world.phase party = .returned early) :
    world.store = runActions start actions := by
  have finished {position : List (σ → σ)} {store : σ}
      (progressed : Progressed actions start position store)
      (isReady : ready store = true) : position = [] := by
    have ⟨done, split, sofar⟩ := progressed
    by_contra more
    have contradictory := unready done position split more
    rw [← sofar, isReady] at contradictory
    contradiction
  have keeps := @keeps_ofActions ι σ checks ready actions start readies
  have isReady : ready world.store = true := by
    cases early with
    | true =>
        apply keeps.ready_of_returned (Or.inl rfl) _ reachable returned
        intro position store next after progressed isReady fills
        have ⟨action, taken, _⟩ := fills
        rw [finished progressed isReady] at taken
        contradiction
    | false =>
        apply (keeps.settled_of_returned (Or.inl rfl) _ reachable returned).ready
        intro position store progressed ends
        have ⟨done, split, sofar⟩ := progressed
        rw [show position = [] from ends, List.append_nil] at split
        rw [sofar, split]
        exact readies
  have ⟨position, progressed⟩ := progressed_of_reachable readies reachable
  have none := finished progressed isReady
  have ⟨done, split, sofar⟩ := progressed
  rw [none, List.append_nil] at split
  rw [sofar, split]

/-- Every call can return. -/
theorem returns_of_reachable (party : ι) :
    ∃ after early, ReflTransGen (ofActions checks ready actions).Step world after ∧
      after.phase party = .returned early :=
  returns_of_invariant live_ofActions ((keeps_ofActions readies).invariant (Or.inl rfl) reachable)
    party

end Reached

section Record

variable {start : σ} {world : CallWorld ι σ (List (σ → σ))} {taken : List (ι × (σ → σ))}
  {rest : List (σ → σ)}

omit [DecidableEq ι] in
/-- A step outside of the bodies of the calls. -/
theorem Accounted.outside (accounted : Accounted actions start world taken rest)
    {after : CallWorld ι σ (List (σ → σ))} (sameStore : after.store = world.store)
    (fewer : ∀ party position, after.phase party = .filling position →
      world.phase party = .filling position)
    (quiet : after.Quiet → world.Quiet ∨ rest = []) :
    Accounted actions start after taken rest where
  split := accounted.split
  store := by rw [sameStore, accounted.store]
  alone := accounted.alone
  quiet := by
    intro quietAfter
    obtain quietBefore | finished := quiet quietAfter
    · exact accounted.quiet quietBefore
    · exact Or.inr finished
  filling party position filling := accounted.filling party position (fewer _ _ filling)

/-- A call goes to a phase outside of its body. -/
theorem filling_of_go {party other : ι} {phase : CallPhase (List (σ → σ))} {store : σ}
    {owner : Option ι} (leaves : ∀ position, phase ≠ .filling position)
    {position : List (σ → σ)}
    (filling : (world.go party phase store owner).phase other = .filling position) :
    world.phase other = .filling position := by
  obtain ⟨_, moved⟩ | ⟨_, stays⟩ := phase_go_cases world party phase store owner other
  · exact absurd (moved.symm.trans filling) (leaves position)
  · exact stays.symm.trans filling

/-- A call takes an action. -/
theorem Accounted.action (accounted : Accounted actions start world taken rest)
    (guarded : Guarded world.owner fun party => (world.phase party).Inside) {party : ι}
    {action : σ → σ} {next : List (σ → σ)}
    (filling : world.phase party = .filling (action :: next)) :
    Accounted actions start
      (world.go party (.filling next) (action world.store) world.owner)
      (taken ++ [(party, action)]) next := by
  have ⟨position, own⟩ := accounted.filling party _ filling
  have all : ∀ entry ∈ taken ++ [(party, action)], entry.1 = party := by
    intro entry member
    obtain old | last := List.mem_append.mp member
    · exact own entry old
    · rw [List.mem_singleton.mp last]
  have isInside : (world.phase party).Inside := by
    rw [filling]
    trivial
  constructor
  · rw [List.map_append, List.append_assoc, ← accounted.split, ← position]
    rfl
  · rw [store_go, accounted.store, List.map_append, runActions_append]
    rfl
  · intro left leftMember right rightMember
    rw [all left leftMember, all right rightMember]
  · intro quiet
    exact absurd (phase_go_self ..) (quiet party next)
  · intro other otherPosition otherFilling
    obtain ⟨same, moved⟩ | ⟨different, stays⟩ :=
      phase_go_cases world party (.filling next) (action world.store) world.owner other
    · cases moved.symm.trans otherFilling
      exact ⟨rfl, same ▸ all⟩
    · have otherInside : (world.phase other).Inside := by
        rw [stays.symm.trans otherFilling]
        trivial
      exact absurd (guarded.exclusive otherInside isInside) different

/-- A call enters its body, which no call has entered before. -/
theorem Accounted.enter (accounted : Accounted actions start world taken rest)
    (readies : ready (runActions start actions) = true) (unready : ready world.store = false)
    (quiet : world.Quiet) {party : ι} :
    Accounted actions start (world.go party (.filling actions) world.store world.owner) taken
      rest := by
  have fresh : taken = [] := by
    obtain fresh | finished := accounted.quiet quiet
    · exact fresh
    · have complete := accounted.split
      rw [finished, List.append_nil] at complete
      rw [accounted.store, complete, readies] at unready
      contradiction
  subst fresh
  refine ⟨accounted.split, accounted.store, by simp, fun _ => Or.inl rfl, ?_⟩
  intro other position filling
  obtain ⟨_, moved⟩ | ⟨_, stays⟩ :=
    phase_go_cases world party (.filling actions) world.store world.owner other
  · cases moved.symm.trans filling
    exact ⟨accounted.split.symm, by simp⟩
  · exact absurd (stays.symm.trans filling) (quiet other position)

/-- A record is one of a run. -/
theorem Recorded.reachable (recorded : Recorded checks ready actions start world taken) :
    (ofActions checks ready actions).Reachable start world := by
  induction recorded with
  | start => exact .refl
  | action _ filling ih => exact ih.tail (.fill _ _ _ _ filling ⟨_, rfl, rfl⟩)
  | other _ step _ ih => exact ih.tail step

/-- Every run has a record. -/
theorem exists_recorded (reachable : (ofActions checks ready actions).Reachable start world) :
    ∃ taken, Recorded checks ready actions start world taken := by
  induction reachable with
  | refl => exact ⟨[], .start⟩
  | @tail before world _ step ih =>
      have ⟨taken, recorded⟩ := ih
      have outside {party : ι} {phase : CallPhase (List (σ → σ))} {store : σ}
          {owner : Option ι} (leaves : ∀ position, phase ≠ .filling position) :
          ∀ other position next, before.phase other = .filling position →
            (before.go party phase store owner).phase other = .filling next →
              next = position := by
        intro other position next filling fillingAfter
        cases filling.symm.trans (filling_of_go leaves fillingAfter)
        rfl
      have given := step
      cases step with
      | skip | check | arrive | acquire | leave | finish =>
          exact ⟨taken, .other recorded given (outside (by simp))⟩
      | enter party position holding unready enters =>
          refine ⟨taken, .other recorded given ?_⟩
          intro other first next filling fillingAfter
          have different : other ≠ party := by
            intro same
            rw [same, holding] at filling
            contradiction
          rw [phase_go_of_ne _ _ _ _ _ different, filling] at fillingAfter
          cases fillingAfter
          rfl
      | fill party position next store filling fills =>
          have ⟨action, same, result⟩ := fills
          subst same result
          exact ⟨_, .action recorded filling⟩

/-- In every run, one call takes all actions that are taken, in their order and each of them
once. -/
theorem Recorded.accounted (recorded : Recorded checks ready actions start world taken)
    (readies : ready (runActions start actions) = true) :
    ∃ rest, Accounted actions start world taken rest := by
  induction recorded with
  | start =>
      refine ⟨actions, rfl, rfl, by simp, fun _ => Or.inl rfl, ?_⟩
      intro party position filling
      contradiction
  | action recorded filling ih =>
      have ⟨rest, accounted⟩ := ih
      have invariant := (keeps_ofActions readies).invariant (Or.inl rfl) recorded.reachable
      exact ⟨_, accounted.action invariant.guarded filling⟩
  | @other world after taken recorded step rests ih =>
      have ⟨rest, accounted⟩ := ih
      have invariant := (keeps_ofActions readies).invariant (Or.inl rfl) recorded.reachable
      have quietBefore {party : ι} {phase : CallPhase (List (σ → σ))} {store : σ}
          {owner : Option ι} (idle : ∀ position, world.phase party ≠ .filling position)
          (quiet : (world.go party phase store owner).Quiet) : world.Quiet := by
        intro other position filling
        have different : other ≠ party := fun same => idle position (same ▸ filling)
        apply quiet other position
        rw [phase_go_of_ne _ _ _ _ _ different, filling]
      refine ⟨rest, ?_⟩
      cases step with
      | skip party left phase | check party left phase | arrive party phase
      | acquire party phase | leave party phase =>
          refine accounted.outside rfl ?_ ?_
          · exact fun _ _ => filling_of_go (by simp)
          · exact fun quiet => Or.inl (quietBefore (by simp [phase]) quiet)
      | enter party position holding unready enters =>
          cases enters
          exact accounted.enter readies unready (invariant.quiet_of_holding holding)
      | fill party position next store filling fills =>
          have ⟨acts, same, _⟩ := fills
          have rested := rests party position next filling (phase_go_self ..)
          rw [rested] at same
          exact absurd same.symm (List.cons_ne_self _ _)
      | finish party position filling ends =>
          refine accounted.outside rfl ?_ ?_
          · exact fun _ _ => filling_of_go (by simp)
          · intro _
            rw [← (accounted.filling party position filling).1]
            exact Or.inr ends

end Record

end Actions

end Initialiser

end QApr.Library
