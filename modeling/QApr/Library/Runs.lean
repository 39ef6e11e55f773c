import Mathlib.Data.List.Induction

/-!
# Steps of a run

A statement about every step of a run quantifies over the ways to split the run before
and after the step.  It follows the recursion on the run.
-/

namespace QApr.Library

variable {α : Type} {first last : α} {earlier rest : List α}

/-- Every step of a run is the first one or a step of the rest. -/
theorem forall_split_cons {property : List α → α → Prop} :
    (∀ before step after, first :: rest = before ++ step :: after → property before step) ↔
      property [] first ∧
        ∀ before step after, rest = before ++ step :: after →
          property (first :: before) step := by
  constructor
  · intro every
    constructor
    · exact every [] first rest rfl
    · intro before step after split
      apply every (first :: before) step after
      rw [split, List.cons_append]
  · intro ⟨atFirst, later⟩ before step after split
    cases before with
    | nil =>
        cases split
        exact atFirst
    | cons _ before =>
        cases split
        exact later before step after rfl

/-- Every step of a run is a step of the earlier run or the last one. -/
theorem forall_split_snoc {property : List α → α → Prop} :
    (∀ before step after, earlier ++ [last] = before ++ step :: after → property before step) ↔
      (∀ before step after, earlier = before ++ step :: after → property before step) ∧
        property earlier last := by
  constructor
  · intro every
    constructor
    · intro before step after split
      apply every before step (after ++ [last])
      rw [split, List.append_assoc, List.cons_append]
    · exact every earlier last [] rfl
  · intro ⟨atEarlier, atLast⟩ before step after split
    cases after using List.reverseRecOn with
    | nil =>
        have ⟨same, sameLast⟩ := List.append_inj' split rfl
        cases sameLast
        rw [← same]
        exact atLast
    | append_singleton after final =>
        rw [← List.cons_append, ← List.append_assoc] at split
        have ⟨same, _⟩ := List.append_inj' split rfl
        exact atEarlier before step after same

/-- A run without steps has none. -/
theorem forall_split_nil {property : List α → α → Prop} (before : List α) (step : α)
    (after : List α) (split : [] = before ++ step :: after) : property before step := by
  cases before <;> contradiction

end QApr.Library
