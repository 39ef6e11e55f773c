import Mathlib.Logic.Relation
import Mathlib.Order.WellFounded
import Mathlib.Order.RelClasses

/-!
# Fair runs

Infinite runs of a system whose actors are scheduled fairly, and the rule by which a rank
that a helpful actor lowers leads from one kind of states to another.
-/

namespace QApr.Library

/-- An infinite run, in which the system may also rest.  An actor that can move from some
time on does move. -/
structure FairRun {σ ι : Type*} (step : σ → σ → Prop) (move : ι → σ → σ → Prop) where
  state : Nat → σ
  next : ∀ time, step (state time) (state (time + 1)) ∨ state (time + 1) = state time
  fair : ∀ actor time, (∀ later ≥ time, ∃ after, move actor (state later) after) →
    ∃ later ≥ time, move actor (state later) (state (later + 1))

section Fair

variable {σ ι α : Type*} {step : σ → σ → Prop} {move : ι → σ → σ → Prop} {source
  target : σ → Prop} {rank : σ → α} {helper : σ → ι}

/-- An invariant of the steps holds along a run. -/
theorem FairRun.always {invariant : σ → Prop} (run : FairRun step move)
    (first : invariant (run.state 0))
    (keeps : ∀ before after, invariant before → step before after → invariant after)
    (time : Nat) : invariant (run.state time) := by
  induction time with
  | zero => exact first
  | succ time ih =>
      rcases run.next time with taken | rests
      · exact keeps _ _ ih taken
      · rw [rests]
        exact ih

/-- A system in which nobody can move rests forever. -/
def FairRun.rest (state : σ) (still : ∀ actor after, ¬move actor state after) :
    FairRun step move where
  state _ := state
  next _ := Or.inr rfl
  fair := by
    intro actor time enabled
    rcases enabled time (Nat.le_refl _) with ⟨after, moves⟩
    exact absurd moves (still actor after)

/-- A run with one step before it. -/
def FairRun.cons (state : σ) (run : FairRun step move) (taken : step state (run.state 0)) :
    FairRun step move where
  state
    | 0 => state
    | time + 1 => run.state time
  next
    | 0 => Or.inl taken
    | time + 1 => run.next time
  fair := by
    intro actor time enabled
    rcases run.fair actor time fun later after =>
      enabled (later + 1) (Nat.le_succ_of_le after) with ⟨later, after, moves⟩
    exact ⟨later + 1, Nat.le_succ_of_le after, moves⟩

/-- Every finite run can go on as a fair one. -/
theorem FairRun.exists_after (run : FairRun step move) {state : σ}
    (path : Relation.ReflTransGen step state (run.state 0)) :
    ∃ (whole : FairRun step move) (length : Nat), whole.state 0 = state ∧
      ∀ time, whole.state (length + time) = run.state time := by
  induction path using Relation.ReflTransGen.head_induction_on with
  | refl => exact ⟨run, 0, rfl, fun time => by rw [Nat.zero_add]⟩
  | @head before after taken path ih =>
      rcases ih with ⟨whole, length, begins, goesOn⟩
      subst begins
      refine ⟨.cons before whole taken, length + 1, rfl, ?_⟩
      intro time
      rw [Nat.add_right_comm]
      exact goesOn time

/-- A system that is in two states by turns, where everybody who can move in the first one
takes it to the second. -/
def FairRun.alternate (left right : σ) (there : step left right) (back : step right left)
    (moves : ∀ actor after, move actor left after → move actor left right) :
    FairRun step move where
  state time := if time % 2 = 0 then left else right
  next := by
    intro time
    apply Or.inl
    by_cases even : time % 2 = 0
    · have odd : (time + 1) % 2 ≠ 0 := by omega
      rw [if_pos even, if_neg odd]
      exact there
    · have later : (time + 1) % 2 = 0 := by omega
      rw [if_neg even, if_pos later]
      exact back
  fair := by
    intro actor time enabled
    have even : 2 * time % 2 = 0 := Nat.mul_mod_right 2 time
    have odd : (2 * time + 1) % 2 ≠ 0 := by omega
    have after : 2 * time ≥ time := by omega
    rcases enabled (2 * time) after with ⟨next, moved⟩
    rw [if_pos even] at moved
    refine ⟨2 * time, after, ?_⟩
    rw [if_pos even, if_neg odd]
    exact moves actor next moved

/-- From every state of one kind the run gets to a state of the other. -/
def FairRun.LeadsTo (run : FairRun step move) (source target : σ → Prop) : Prop :=
  ∀ time, source (run.state time) → ∃ later ≥ time, target (run.state later)

/-- In every state some actor helps: it can move, and its moves lower the rank.  No step
raises the rank, and the helpful actor changes only when the rank gets lower. -/
structure Ranked [LT α] (step : σ → σ → Prop) (move : ι → σ → σ → Prop)
    (source target : σ → Prop) (rank : σ → α) (helper : σ → ι) : Prop where
  keeps : ∀ before after, source before → step before after →
    target after ∨ source after ∧ (rank after < rank before ∨
      rank after = rank before ∧ helper after = helper before)
  helps : ∀ before after, source before → move (helper before) before after →
    target after ∨ source after ∧ rank after < rank before
  enabled : ∀ before, source before → ∃ after, move (helper before) before after

theorem Ranked.leadsTo [Preorder α] [WellFoundedLT α]
    (ranked : Ranked step move source target rank helper) (run : FairRun step move) :
    run.LeadsTo source target := by
  intro time begins
  induction value : rank (run.state time) using WellFoundedLT.induction generalizing time with
  | ind value ih =>
      subst value
      by_cases lowered : ∃ later ≥ time,
          source (run.state later) ∧ rank (run.state later) < rank (run.state time)
      · rcases lowered with ⟨later, after, begins, less⟩
        rcases ih _ less later begins rfl with ⟨found, afterLater, reached⟩
        exact ⟨found, Nat.le_trans after afterLater, reached⟩
      · apply Classical.byContradiction
        intro never
        -- Without progress the rank and the helpful actor stay as they are.
        have stays (later : Nat) (after : time ≤ later) :
            source (run.state later) ∧ rank (run.state later) = rank (run.state time) ∧
              helper (run.state later) = helper (run.state time) := by
          induction later, after using Nat.le_induction with
          | base => exact ⟨begins, rfl, rfl⟩
          | succ later after ih =>
              rcases ih with ⟨begins, rankEq, helperEq⟩
              rcases run.next later with taken | rests
              · rcases ranked.keeps _ _ begins taken with reached | ⟨begins, less | same⟩
                · exact absurd ⟨_, Nat.le_succ_of_le after, reached⟩ never
                · rw [rankEq] at less
                  exact absurd ⟨_, Nat.le_succ_of_le after, begins, less⟩ lowered
                · exact ⟨begins, same.1.trans rankEq, same.2.trans helperEq⟩
              · rw [rests]
                exact ⟨begins, rankEq, helperEq⟩
        have enabled (later : Nat) (after : later ≥ time) :
            ∃ next, move (helper (run.state time)) (run.state later) next := by
          rw [← (stays later after).2.2]
          exact ranked.enabled _ (stays later after).1
        rcases run.fair _ time enabled with ⟨later, after, taken⟩
        rcases stays later after with ⟨begins, rankEq, helperEq⟩
        rw [← helperEq] at taken
        rcases ranked.helps _ _ begins taken with reached | ⟨begins, less⟩
        · exact never ⟨_, Nat.le_succ_of_le after, reached⟩
        · rw [rankEq] at less
          exact lowered ⟨_, Nat.le_succ_of_le after, begins, less⟩

end Fair

end QApr.Library
