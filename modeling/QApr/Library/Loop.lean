/-!
# Loops

A loop whose body either yields the next state or leaves with a result.  It runs for
a number of passes, and has no result when it is not done by then.
-/

namespace QApr.Library

variable {σ ρ : Type}

/-- What one pass of a loop does. -/
inductive Pass (σ ρ : Type) where
  | next (state : σ)
  | done (result : ρ)
  deriving DecidableEq, Repr

/-- The result of a loop after at most `fuel` passes. -/
def runLoop (body : σ → Pass σ ρ) : Nat → σ → Option ρ
  | 0, _ => none
  | fuel + 1, state =>
      match body state with
      | .next after => runLoop body fuel after
      | .done result => some result

section Rules

variable {body : σ → Pass σ ρ} {state after : σ} {fuel : Nat}

theorem runLoop_next (passes : body state = .next after) :
    runLoop body (fuel + 1) state = runLoop body fuel after := by
  rw [runLoop, passes]

theorem runLoop_done {result : ρ} (leaves : body state = .done result) :
    runLoop body (fuel + 1) state = some result := by
  rw [runLoop, leaves]

/-- A pass that changes nothing is repeated forever. -/
theorem runLoop_of_fixed (stays : body state = .next state) (fuel : Nat) :
    runLoop body fuel state = none := by
  induction fuel with
  | zero => rfl
  | succ fuel ih => rw [runLoop_next stays, ih]

/-- A loop with a measure that every pass lowers, and a value that every pass keeps,
ends with that value. -/
theorem runLoop_of_measure (measure : σ → Nat) (value : σ → ρ)
    (lowers : ∀ state after, body state = .next after →
      measure after < measure state ∧ value after = value state)
    (leaves : ∀ state result, body state = .done result → result = value state)
    (enough : measure state < fuel) : runLoop body fuel state = some (value state) := by
  induction fuel generalizing state with
  | zero => contradiction
  | succ fuel ih =>
      cases pass : body state with
      | next after =>
          have ⟨less, same⟩ := lowers state after pass
          rw [runLoop_next pass, ih (Nat.lt_of_lt_of_le less (Nat.le_of_lt_succ enough)), same]
      | done result => rw [runLoop_done pass, leaves state result pass]

end Rules

end QApr.Library
