import Mathlib.Data.Set.Function
import Mathlib.Logic.Relation

/-!
# Gates

Parties pass a gate by acquiring its lock and releasing it at once.  Somebody else may
hold the lock from the start: then nobody passes, and otherwise everybody can.
-/

namespace QApr.Library

open Relation

/-- Where a party is. -/
inductive GatePhase where
  | away
  | waiting
  | inside
  deriving DecidableEq, Repr

/-- A gate with the parties that pass it. -/
structure Gate (ι : Type) where
  locked : Bool
  phase : ι → GatePhase

namespace Gate

variable {ι : Type} [DecidableEq ι]

/-- A gate at which nobody has arrived. -/
def new (locked : Bool) : Gate ι := ⟨locked, fun _ => .away⟩

/-- A party goes to another phase. -/
def move (gate : Gate ι) (party : ι) (phase : GatePhase) (locked : Bool) : Gate ι :=
  ⟨locked, Function.update gate.phase party phase⟩

/-- A step of one party. -/
inductive Step (gate : Gate ι) : Gate ι → Prop where
  | arrive (party : ι) (away : gate.phase party = .away) :
      Step gate (gate.move party .waiting gate.locked)
  | acquire (party : ι) (waiting : gate.phase party = .waiting) (free : gate.locked = false) :
      Step gate (gate.move party .inside true)
  | release (party : ι) (inside : gate.phase party = .inside) :
      Step gate (gate.move party .away false)

/-- Wherever the parties have got to, one that waits can still pass. -/
def Passable (ι : Type) [DecidableEq ι] (locked : Bool) : Prop :=
  ∀ gate : Gate ι, ReflTransGen Step (new locked) gate →
    ∀ party, gate.phase party = .waiting →
      ∃ after, ReflTransGen Step gate after ∧ after.phase party = .away

section Move

variable (gate : Gate ι) (party : ι) (phase : GatePhase) (locked : Bool)

@[simp] theorem locked_move : (gate.move party phase locked).locked = locked := rfl

@[simp] theorem phase_move_self : (gate.move party phase locked).phase party = phase := by
  simp [move]

theorem phase_move_of_ne {other : ι} (different : other ≠ party) :
    (gate.move party phase locked).phase other = gate.phase other := by
  simp [move, different]

end Move

/-! ## The free gate -/

/-- A locked gate has somebody inside. -/
def Occupied (gate : Gate ι) : Prop :=
  gate.locked = true → ∃ party, gate.phase party = .inside

theorem Occupied.step {gate after : Gate ι} (occupied : gate.Occupied)
    (step : Step gate after) : after.Occupied := by
  intro locked
  cases step with
  | arrive party away =>
      have ⟨other, inside⟩ := occupied locked
      have different : other ≠ party := by
        intro same
        rw [same, away] at inside
        contradiction
      exact ⟨other, by rw [phase_move_of_ne _ _ _ _ different, inside]⟩
  | acquire party _ _ => exact ⟨party, phase_move_self ..⟩
  | release _ _ => contradiction

theorem Occupied.steps {gate after : Gate ι} (occupied : gate.Occupied)
    (steps : ReflTransGen Step gate after) : after.Occupied := by
  induction steps with
  | refl => exact occupied
  | tail _ step ih => exact ih.step step

/-- A party that waits at a free gate passes. -/
theorem pass {gate : Gate ι} {party : ι} (waiting : gate.phase party = .waiting)
    (free : gate.locked = false) :
    ∃ after, ReflTransGen Step gate after ∧ after.phase party = .away := by
  have enters := Step.acquire party waiting free
  have leaves : Step _ _ := .release party (phase_move_self gate party .inside true)
  exact ⟨_, .tail (.single enters) leaves, phase_move_self ..⟩

theorem passable_free : Passable ι false := by
  intro gate reached party waiting
  have occupied : gate.Occupied := by
    apply Occupied.steps _ reached
    intro locked
    contradiction
  cases locked : gate.locked with
  | false => exact pass waiting locked
  | true =>
      -- The party inside leaves first.
      have ⟨other, inside⟩ := occupied locked
      have different : party ≠ other := by
        intro same
        rw [same, inside] at waiting
        contradiction
      have leaves := Step.release other inside
      have stays := (phase_move_of_ne gate other .away false different).trans waiting
      have ⟨after, passes, away⟩ := pass stays rfl
      exact ⟨after, .head leaves passes, away⟩

/-! ## The held gate -/

/-- The lock is held by somebody else, and a party waits. -/
structure Blocked (gate : Gate ι) (party : ι) : Prop where
  locked : gate.locked = true
  outside : ∀ other, gate.phase other ≠ .inside
  waiting : gate.phase party = .waiting

theorem Blocked.step {gate after : Gate ι} {party : ι} (blocked : gate.Blocked party)
    (step : Step gate after) : after.Blocked party := by
  cases step with
  | arrive arriving away =>
      have different : party ≠ arriving := by
        intro same
        rw [← same, blocked.waiting] at away
        contradiction
      refine ⟨blocked.locked, fun other => ?_, ?_⟩
      · by_cases same : other = arriving
        · rw [same, phase_move_self]
          exact GatePhase.noConfusion
        · rw [phase_move_of_ne _ _ _ _ same]
          exact blocked.outside other
      · rw [phase_move_of_ne _ _ _ _ different, blocked.waiting]
  | acquire _ _ free =>
      rw [blocked.locked] at free
      contradiction
  | release _ inside => exact absurd inside (blocked.outside _)

/-- A blocked party never passes. -/
theorem Blocked.steps {gate after : Gate ι} {party : ι} (blocked : gate.Blocked party)
    (steps : ReflTransGen Step gate after) : after.phase party = .waiting := by
  have still : after.Blocked party := by
    induction steps with
    | refl => exact blocked
    | tail _ step ih => exact ih.step step
  exact still.waiting

theorem not_passable_locked [Inhabited ι] : ¬Passable ι true := by
  intro passable
  have arrives : Step (new true) ((new true).move (default : ι) .waiting true) :=
    .arrive default rfl
  have blocked : ((new true).move (default : ι) .waiting true).Blocked default := by
    refine ⟨rfl, fun other => ?_, phase_move_self ..⟩
    by_cases same : other = default
    · rw [same, phase_move_self]
      exact GatePhase.noConfusion
    · rw [phase_move_of_ne _ _ _ _ same]
      exact GatePhase.noConfusion
  have ⟨after, steps, away⟩ := passable _ (.single arrives) _ blocked.waiting
  rw [blocked.steps steps] at away
  contradiction

end Gate

end QApr.Library
