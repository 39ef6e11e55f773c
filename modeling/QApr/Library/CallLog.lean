import Mathlib.Data.List.Basic

/-!
# Logs of calls on objects

Some kinds of calls dispose of their object.  In a correct log no call is made on an
object that an earlier one has disposed of, so that no object is disposed of twice.
-/

namespace QApr.Library

/-- The object of a call, and whether the call disposes of it. -/
structure CallKind (κ π : Type*) where
  on : κ → π
  disposes : κ → Bool

namespace CallKind

variable {κ π : Type*} (kind : CallKind κ π)

/-- A call of the log has disposed of the object. -/
def Disposed (calls : List κ) (object : π) : Prop :=
  ∃ call ∈ calls, kind.disposes call = true ∧ kind.on call = object

/-- No call is made on an object after it was disposed of. -/
def NoUseAfter (calls : List κ) : Prop :=
  calls.Pairwise fun earlier later =>
    kind.disposes earlier = true → kind.on later ≠ kind.on earlier

variable {kind} {calls : List κ} {call : κ} {object : π}

@[simp] theorem not_disposed_nil : ¬kind.Disposed [] object := by
  simp [Disposed]

theorem disposed_concat :
    kind.Disposed (calls ++ [call]) object ↔
      kind.Disposed calls object ∨ kind.disposes call = true ∧ kind.on call = object := by
  simp [Disposed, or_and_right, exists_or]

theorem Disposed.concat (disposed : kind.Disposed calls object) (call : κ) :
    kind.Disposed (calls ++ [call]) object :=
  disposed_concat.mpr (Or.inl disposed)

/-- A call that disposes of nothing. -/
theorem disposed_concat_of_keeps (keeps : kind.disposes call = false) :
    kind.Disposed (calls ++ [call]) object ↔ kind.Disposed calls object := by
  simp [disposed_concat, keeps]

theorem noUseAfter_nil : kind.NoUseAfter [] := List.Pairwise.nil

/-- A call may be added on an object that was not disposed of. -/
theorem NoUseAfter.concat (safe : kind.NoUseAfter calls)
    (alive : ¬kind.Disposed calls (kind.on call)) : kind.NoUseAfter (calls ++ [call]) := by
  apply List.pairwise_append.mpr
  refine ⟨safe, List.pairwise_singleton _ _, ?_⟩
  intro earlier member later last disposes same
  rw [List.mem_singleton.mp last] at same
  exact alive ⟨earlier, member, disposes, same.symm⟩

/-- An object that was disposed of was disposed of once. -/
theorem NoUseAfter.countP_eq_one [DecidableEq π] (safe : kind.NoUseAfter calls)
    (disposed : kind.Disposed calls object) :
    calls.countP (fun call => kind.disposes call && decide (kind.on call = object)) = 1 := by
  induction calls with
  | nil => exact absurd disposed not_disposed_nil
  | cons first calls ih =>
      rw [NoUseAfter, List.pairwise_cons] at safe
      rw [List.countP_cons]
      cases now : kind.disposes first && decide (kind.on first = object) with
      | true =>
          rw [Bool.and_eq_true, decide_eq_true_iff] at now
          have later : calls.countP
              (fun call => kind.disposes call && decide (kind.on call = object)) = 0 := by
            rw [List.countP_eq_zero]
            intro call member again
            rw [Bool.and_eq_true, decide_eq_true_iff] at again
            exact safe.1 call member now.1 (again.2.trans now.2.symm)
          rw [later]
          rfl
      | false =>
          apply ih safe.2
          rcases disposed with ⟨call, member, disposes, same⟩
          rcases List.mem_cons.mp member with rfl | earlier
          · simp [disposes, same] at now
          · exact ⟨call, earlier, disposes, same⟩

end CallKind

end QApr.Library
