import Mathlib.Data.List.Forall2
import Mathlib.Data.List.Induction
import Mathlib.Logic.Relation

/-!
# Simulations

A machine changes its state and answers with every call.  A function from the states of
one machine to those of another that commutes with the calls makes their answers agree
over all sequences of calls.

Where steps are a relation, each step of one system may take any number of steps of
another.  Parts of the states that are lists are related position by position.
-/

namespace QApr.Library

/-- A machine with calls of type `α` and answers of type `β`. -/
structure Machine (σ α β : Type*) where
  step : σ → α → σ × β

namespace Machine

variable {σ τ α β : Type*} (machine : Machine σ α β)

/-- The state after a sequence of calls. -/
def after (state : σ) (calls : List α) : σ :=
  calls.foldl (fun state call => (machine.step state call).1) state

/-- The answers to a sequence of calls. -/
def answers (state : σ) : List α → List β
  | [] => []
  | call :: calls =>
      (machine.step state call).2 :: answers (machine.step state call).1 calls

/-- The view of the states of one machine as those of another commutes with the calls. -/
structure Simulates (concrete : Machine σ α β) (abstract : Machine τ α β) (view : σ → τ) :
    Prop where
  state : ∀ state call,
    view (concrete.step state call).1 = (abstract.step (view state) call).1
  answer : ∀ state call, (concrete.step state call).2 = (abstract.step (view state) call).2

theorem answers_append (state : σ) (earlier later : List α) :
    machine.answers state (earlier ++ later) =
      machine.answers state earlier ++ machine.answers (machine.after state earlier) later := by
  induction earlier generalizing state with
  | nil => rfl
  | cons call earlier ih =>
      rw [List.cons_append, answers, answers, ih, List.cons_append]
      rfl

variable {machine} {concrete : Machine σ α β} {abstract : Machine τ α β} {view : σ → τ}

theorem Simulates.after (simulates : Simulates concrete abstract view) (state : σ)
    (calls : List α) : view (concrete.after state calls) = abstract.after (view state) calls := by
  induction calls generalizing state with
  | nil => rfl
  | cons call calls ih =>
      rw [Machine.after, List.foldl_cons, ← Machine.after, ih, simulates.state]
      rfl

theorem Simulates.answers (simulates : Simulates concrete abstract view) (state : σ)
    (calls : List α) : concrete.answers state calls = abstract.answers (view state) calls := by
  induction calls generalizing state with
  | nil => rfl
  | cons call calls ih =>
      rw [Machine.answers, Machine.answers, ih, simulates.state, simulates.answer]

/-- Calls that change no state may be left out. -/
theorem after_filter {keeps : α → Bool}
    (silent : ∀ state call, keeps call = false → (machine.step state call).1 = state)
    (state : σ) (calls : List α) :
    machine.after state (calls.filter keeps) = machine.after state calls := by
  induction calls generalizing state with
  | nil => rfl
  | cons call calls ih =>
      cases kept : keeps call with
      | true =>
          rw [List.filter_cons_of_pos kept]
          exact ih _
      | false =>
          rw [List.filter_cons_of_neg (by simp [kept]), ih, Machine.after, Machine.after,
            List.foldl_cons, silent state call kept]

end Machine

/-! ## Systems with many steps -/

section Steps

open Relation

variable {σ τ : Type*}

/-- Every step between related states is made up of steps of the other system. -/
def StepSimulation (step : σ → σ → Prop) (otherStep : τ → τ → Prop) (related : σ → τ → Prop) :
    Prop :=
  ∀ before after other, step before after → related before other →
    ∃ next, ReflTransGen otherStep other next ∧ related after next

/-- What one system reaches is related to what the other one reaches. -/
theorem StepSimulation.reaches {step : σ → σ → Prop} {otherStep : τ → τ → Prop}
    {related : σ → τ → Prop} (simulation : StepSimulation step otherStep related)
    {before after : σ} (reached : ReflTransGen step before after) {other : τ}
    (initially : related before other) :
    ∃ next, ReflTransGen otherStep other next ∧ related after next := by
  induction reached with
  | refl => exact ⟨other, .refl, initially⟩
  | tail _ last ih =>
      rcases ih with ⟨middle, steps, isRelated⟩
      rcases simulation _ _ middle last isRelated with ⟨next, moreSteps, nextRelated⟩
      exact ⟨next, steps.trans moreSteps, nextRelated⟩

end Steps

/-! ## What is seen of a system -/

section Seen

open Relation

variable {σ τ ω : Type*}

/-- What a step shows: the new sight, if it is one. -/
inductive Shown (before after : ω) : List ω → Prop where
  | same (same : after = before) : Shown before after []
  | change (different : after ≠ before) : Shown before after [after]

/-- A run in which all sights are written down in their order. -/
inductive History (step : σ → σ → Prop) (seen : σ → ω) (start : σ) : List ω → σ → Prop where
  | start : History step seen start [] start
  | step {history shown : List ω} {before after : σ}
      (earlier : History step seen start history before) (taken : step before after)
      (shows : Shown (seen before) (seen after) shown) :
      History step seen start (history ++ shown) after

section History

variable {step : σ → σ → Prop} {seen : σ → ω} {start middle last : σ} {history : List ω}

theorem History.reaches (run : History step seen start history last) :
    ReflTransGen step start last := by
  induction run with
  | start => exact .refl
  | step _ taken _ ih => exact ih.tail taken

theorem History.trans {later : List ω} (run : History step seen start history middle)
    (others : History step seen middle later last) :
    History step seen start (history ++ later) last := by
  induction others with
  | start => rwa [List.append_nil]
  | step _ taken shows ih =>
      rw [← List.append_assoc]
      exact .step ih taken shows

/-- A step that is not seen. -/
theorem History.quiet (run : History step seen start [] middle) (taken : step middle last)
    (same : seen last = seen middle) : History step seen start [] last := by
  have whole := History.step run taken (.same same)
  rwa [List.append_nil] at whole

theorem History.seen_eq (run : History step seen start history last) (quiet : history = []) :
    seen last = seen start := by
  induction run with
  | start => rfl
  | step _ _ shows ih =>
      obtain ⟨earlier, silent⟩ := List.append_eq_nil_iff.mp quiet
      cases shows with
      | same same => rw [same, ih earlier]
      | change => contradiction

end History

/-- A system answers a step of another one: it takes steps that are not seen and then at most
one more. -/
def Answers (step : σ → σ → Prop) (seen : σ → ω) (start : σ) (goal : σ → Prop) : Prop :=
  ∃ middle next, History step seen start [] middle ∧ ReflGen step middle next ∧ goal next

section Answers

variable {step : σ → σ → Prop} {seen : σ → ω} {start middle next : σ} {goal : σ → Prop}

/-- The other system stays where it is. -/
theorem Answers.rest (reached : goal start) : Answers step seen start goal :=
  ⟨start, start, .start, .refl, reached⟩

/-- It takes a step after some that are not seen. -/
theorem Answers.quiet (quiet : History step seen start [] middle) (taken : step middle next)
    (reached : goal next) : Answers step seen start goal :=
  ⟨middle, next, quiet, .single taken, reached⟩

/-- It takes a step. -/
theorem Answers.single (taken : step start next) (reached : goal next) :
    Answers step seen start goal :=
  .quiet .start taken reached

/-- What is known of the state that is reached. -/
theorem Answers.mono {known : σ → Prop} (answers : Answers step seen start goal)
    (implies : ∀ next, ReflTransGen step start next → goal next → known next) :
    Answers step seen start known := by
  obtain ⟨middle, next, quiet, last, reached⟩ := answers
  have steps := quiet.reaches.trans (ReflGen.to_reflTransGen last)
  exact ⟨middle, next, quiet, last, implies next steps reached⟩

end Answers

/-- Related states look the same, and every step of one system is answered by the other one. -/
structure SeenSimulation (step : σ → σ → Prop) (otherStep : τ → τ → Prop) (seen : σ → ω)
    (otherSeen : τ → ω) (related : σ → τ → Prop) : Prop where
  seen : ∀ state other, related state other → otherSeen other = seen state
  step : ∀ before after other, step before after → related before other →
    Answers otherStep otherSeen other (related after)

/-- Whatever is seen of the one system may be seen of the other one. -/
theorem SeenSimulation.history {step : σ → σ → Prop} {otherStep : τ → τ → Prop}
    {seen : σ → ω} {otherSeen : τ → ω} {related : σ → τ → Prop}
    (simulation : SeenSimulation step otherStep seen otherSeen related) {start last : σ}
    {history : List ω} (run : History step seen start history last) {other : τ}
    (initially : related start other) :
    ∃ next, History otherStep otherSeen other history next ∧ related last next := by
  induction run with
  | start => exact ⟨other, .start, initially⟩
  | @step history shown before after _ taken shows ih =>
      obtain ⟨reached, otherRun, isRelated⟩ := ih
      obtain ⟨middle, next, quiet, final, nextRelated⟩ :=
        simulation.step before after reached taken isRelated
      have middleSeen : otherSeen middle = seen before :=
        (quiet.seen_eq rfl).trans (simulation.seen before reached isRelated)
      have nextSeen : otherSeen next = seen after := simulation.seen after next nextRelated
      have toMiddle := otherRun.trans quiet
      rw [List.append_nil] at toMiddle
      cases final with
      | refl =>
          cases shows with
          | same =>
              rw [List.append_nil]
              exact ⟨middle, toMiddle, nextRelated⟩
          | change different => exact absurd (nextSeen.symm.trans middleSeen) different
      | single otherTaken =>
          rw [← middleSeen, ← nextSeen] at shows
          exact ⟨next, .step toMiddle otherTaken shows, nextRelated⟩

end Seen

/-! ## Lists that are related position by position -/

section Lists

open List

variable {α β : Type*} {related : α → β → Prop} {left : List α} {right : List β}

theorem forall₂_getElem? (all : Forall₂ related left right) {self : Nat} {first : α}
    (found : left[self]? = some first) :
    ∃ second, right[self]? = some second ∧ related first second := by
  induction all generalizing self with
  | nil => simp at found
  | cons head _ ih =>
      cases self with
      | zero =>
          cases found
          exact ⟨_, rfl, head⟩
      | succ self => exact ih found

theorem forall₂_set (all : Forall₂ related left right) (self : Nat) {first : α} {second : β}
    (isRelated : related first second) :
    Forall₂ related (left.set self first) (right.set self second) := by
  induction all generalizing self with
  | nil => exact .nil
  | cons head rest ih =>
      cases self with
      | zero => exact .cons isRelated rest
      | succ self => exact .cons head (ih self)

/-- A change of one side that its counterpart does not notice. -/
theorem forall₂_modify_left (all : Forall₂ related left right) (self : Nat) {change : α → α}
    (keeps : ∀ first second, related first second → related (change first) second) :
    Forall₂ related (left.modify self change) right := by
  induction all generalizing self with
  | nil =>
      rw [List.modify_nil]
      exact .nil
  | cons head rest ih =>
      cases self with
      | zero => exact .cons (keeps _ _ head) rest
      | succ self => exact .cons head (ih self)

end Lists

end QApr.Library
