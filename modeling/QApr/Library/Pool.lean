import Mathlib.Data.List.Count

/-!
# Resource pools

A pool hands out resources, numbered in the order in which they are taken, and
records which of them have been given back.
-/

namespace QApr.Library

/-- The number of resources taken so far, those outstanding, and all the resources
that were given back, in order. -/
structure Pool where
  taken : Nat
  outstanding : List Nat
  finished : List Nat
  deriving DecidableEq, Repr

namespace Pool

/-- A pool from which nothing was taken. -/
def fresh : Pool := ⟨0, [], []⟩

variable (pool : Pool)

/-- Take a resource, which may fail. -/
def take (success : Bool) : Option Nat × Pool :=
  if success then
    (some pool.taken,
      { pool with taken := pool.taken + 1, outstanding := pool.taken :: pool.outstanding })
  else
    (none, pool)

/-- Give a resource back; giving back nothing has no effect. -/
def finish : Option Nat → Pool
  | none => pool
  | some resource =>
      { pool with
        outstanding := pool.outstanding.erase resource
        finished := pool.finished ++ [resource] }

/-- Only resources that were taken are outstanding or given back. -/
structure WellFormed : Prop where
  outstanding : ∀ resource ∈ pool.outstanding, resource < pool.taken
  finished : ∀ resource ∈ pool.finished, resource < pool.taken

variable {pool}

theorem wellFormed_fresh : fresh.WellFormed where
  outstanding := by simp [fresh]
  finished := by simp [fresh]

theorem WellFormed.take (wellFormed : pool.WellFormed) (success : Bool) :
    (pool.take success).2.WellFormed := by
  cases success with
  | false => exact wellFormed
  | true =>
      constructor
      · intro resource member
        rcases List.mem_cons.mp member with rfl | old
        · exact Nat.lt_succ_self _
        · exact Nat.lt_succ_of_lt (wellFormed.outstanding resource old)
      · intro resource member
        exact Nat.lt_succ_of_lt (wellFormed.finished resource member)

/-- Giving back a resource that was taken keeps the pool well formed. -/
theorem WellFormed.finish (wellFormed : pool.WellFormed) {given : Option Nat}
    (known : ∀ resource, given = some resource → resource < pool.taken) :
    (pool.finish given).WellFormed := by
  cases given with
  | none => exact wellFormed
  | some resource =>
      constructor
      · intro other member
        exact wellFormed.outstanding other (List.mem_of_mem_erase member)
      · intro other member
        rcases List.mem_append.mp member with old | new
        · exact wellFormed.finished other old
        · rw [List.mem_singleton.mp new]
          exact known resource rfl

/-- A resource that was not taken yet was not given back either. -/
theorem WellFormed.count_finished (wellFormed : pool.WellFormed) {resource : Nat}
    (future : pool.taken ≤ resource) : pool.finished.count resource = 0 := by
  apply List.count_eq_zero.mpr
  intro member
  exact Nat.not_lt.mpr future (wellFormed.finished resource member)

/-- Taking a resource and giving it back restores the outstanding ones. -/
theorem finish_take :
    (pool.take true).2.finish (pool.take true).1 =
      { pool with taken := pool.taken + 1, finished := pool.finished ++ [pool.taken] } := by
  simp [take, finish]

end Pool

end QApr.Library
