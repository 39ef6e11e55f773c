import QApr.Scheduler.ScopeGroup

/-!
# Invocation of a scheduled method

`Scheduler::invoke` calls the hooks of a subclass around the scheduled method.  The
hooks are arbitrary functions of the state of the object.  The module states what
the calls and the result should report, and when they do.
-/

namespace QApr.Scheduler

/-- The calls that `Scheduler::invoke` can make. -/
inductive Stage where
  | canEnabled
  | canInvoke
  | invokeBefore
  | method
  | invokeAfter
  | invokeFail
  deriving DecidableEq, Repr

/-- What a subclass of `Scheduler` provides. -/
structure SchedulerHooks (σ : Type) where
  canEnabled : σ → Bool × σ
  canInvoke : σ → Bool × σ
  invokeBefore : σ → Bool × σ
  /-- The scheduled method; `none` when `QMetaMethod::invoke` fails to dispatch it. -/
  method : σ → Option InvokeReturn × σ
  invokeAfter : σ → Bool × σ
  invokeFail : σ → Bool × σ

/-- A call that was made.  A hook succeeds by accepting, the scheduled method by
returning `SUCCESSFUL`. -/
structure StageCall where
  stage : Stage
  succeeded : Bool
  deriving DecidableEq, Repr

/-- The calls of one `Scheduler::invoke`, its result and the state it leaves. -/
structure Invocation (σ : Type) where
  calls : List StageCall
  returned : InvokeReturn
  state : σ

section Invoke

variable {σ : Type} (hooks : SchedulerHooks σ)

/-- `Scheduler::invoke`. -/
def SchedulerHooks.invoke (state : σ) : Invocation σ :=
  let (enabled, state) := hooks.canEnabled state
  let calls : List StageCall := [⟨.canEnabled, enabled⟩]
  if !enabled then ⟨calls, .disabled, state⟩
  else
    let (invokable, state) := hooks.canInvoke state
    let calls := calls ++ [⟨.canInvoke, invokable⟩]
    if !invokable then ⟨calls, .skipped, state⟩
    else
      let (prepared, state) := hooks.invokeBefore state
      let calls := calls ++ [⟨.invokeBefore, prepared⟩]
      if !prepared then ⟨calls, .fail, state⟩
      else
        let (outcome, state) := hooks.method state
        let calls := calls ++ [⟨.method, outcome = some .successful⟩]
        -- `QMetaMethod::invoke` tells whether the call was dispatched, not what it returned.
        if outcome.isNone then
          let (handled, state) := hooks.invokeFail state
          ⟨calls ++ [⟨.invokeFail, handled⟩], .fail, state⟩
        else
          let (finished, state) := hooks.invokeAfter state
          let calls := calls ++ [⟨.invokeAfter, finished⟩]
          if !finished then ⟨calls, .fail, state⟩ else ⟨calls, .successful, state⟩

/-- The scheduled method is reached, dispatched, and returns a value. -/
def SchedulerHooks.MethodReturns (state : σ) (value : InvokeReturn) : Prop :=
  ∃ enabled invokable prepared returned, hooks.canEnabled state = (true, enabled) ∧
    hooks.canInvoke enabled = (true, invokable) ∧
    hooks.invokeBefore invokable = (true, prepared) ∧
    hooks.method prepared = (some value, returned)

end Invoke

/-! ## What an invocation should report -/

/-- The stages of a successful invocation. -/
def Stage.inOrder : List Stage :=
  [.canEnabled, .canInvoke, .invokeBefore, .method, .invokeAfter]

/-- The result when a stage refuses. -/
def Stage.refusal : Stage → InvokeReturn
  | .canEnabled => .disabled
  | .canInvoke => .skipped
  | _ => .fail

/-- The calls other than that of `invokeFail`. -/
def stagesOf (calls : List StageCall) : List StageCall :=
  calls.filter fun call => call.stage ≠ .invokeFail

/-- The stages are called in their order, each after the earlier ones succeeded;
`invokeFail` is called for a scheduled method that did not succeed; and the result is
that of the first stage that refused, and success only where all went well. -/
structure Faithful (calls : List StageCall) (returned : InvokeReturn) : Prop where
  inOrder : (stagesOf calls).map StageCall.stage <+: Stage.inOrder
  afterSuccess : (stagesOf calls).Pairwise fun earlier _ => earlier.succeeded = true
  invokeFail : (∃ call ∈ calls, call.stage = .invokeFail) ↔ ⟨.method, false⟩ ∈ calls
  refused : ∀ call ∈ (stagesOf calls).find? (!·.succeeded), returned = call.stage.refusal
  successful : returned = .successful →
    ⟨.method, true⟩ ∈ calls ∧ ⟨.invokeAfter, true⟩ ∈ calls

theorem faithful_iff (calls : List StageCall) (returned : InvokeReturn) :
    ((stagesOf calls).map StageCall.stage <+: Stage.inOrder ∧
      ((stagesOf calls).Pairwise fun earlier _ => earlier.succeeded = true) ∧
      ((∃ call ∈ calls, call.stage = .invokeFail) ↔ ⟨.method, false⟩ ∈ calls) ∧
      (∀ call ∈ (stagesOf calls).find? (!·.succeeded), returned = call.stage.refusal) ∧
      (returned = .successful →
        ⟨.method, true⟩ ∈ calls ∧ ⟨.invokeAfter, true⟩ ∈ calls)) ↔
      Faithful calls returned :=
  ⟨fun ⟨inOrder, afterSuccess, invokeFail, refused, successful⟩ =>
      ⟨inOrder, afterSuccess, invokeFail, refused, successful⟩,
    fun faithful => ⟨faithful.inOrder, faithful.afterSuccess, faithful.invokeFail,
      faithful.refused, faithful.successful⟩⟩

instance (calls : List StageCall) (returned : InvokeReturn) :
    Decidable (Faithful calls returned) :=
  decidable_of_iff _ (faithful_iff calls returned)

/-! ## What an invocation does report -/

/-- The calls before the scheduled method. -/
def preparation : List StageCall :=
  [⟨.canEnabled, true⟩, ⟨.canInvoke, true⟩, ⟨.invokeBefore, true⟩]

/-- The calls and the results when the scheduled method returns no value. -/
def refusedRuns : List (List StageCall × InvokeReturn) :=
  [([⟨.canEnabled, false⟩], .disabled),
    ([⟨.canEnabled, true⟩, ⟨.canInvoke, false⟩], .skipped),
    ([⟨.canEnabled, true⟩, ⟨.canInvoke, true⟩, ⟨.invokeBefore, false⟩], .fail),
    (preparation ++ [⟨.method, false⟩, ⟨.invokeFail, false⟩], .fail),
    (preparation ++ [⟨.method, false⟩, ⟨.invokeFail, true⟩], .fail)]

/-- The calls when the scheduled method returns a value. -/
def dispatchedCalls (value : InvokeReturn) (finished : Bool) : List StageCall :=
  preparation ++ [⟨.method, value = .successful⟩, ⟨.invokeAfter, finished⟩]

theorem faithful_refusedRuns : ∀ run ∈ refusedRuns, Faithful run.1 run.2 := by
  decide

theorem faithful_dispatchedCalls_iff (value : InvokeReturn) (finished : Bool) :
    Faithful (dispatchedCalls value finished) (if finished then .successful else .fail) ↔
      value = .successful := by
  cases value <;> cases finished <;> decide

section Invoke

variable {σ : Type} {hooks : SchedulerHooks σ} {state : σ}

theorem SchedulerHooks.MethodReturns.unique {left right : InvokeReturn}
    (leftReturns : hooks.MethodReturns state left)
    (rightReturns : hooks.MethodReturns state right) : left = right := by
  rcases leftReturns with ⟨_, _, _, _, enabled, invokable, prepared, returned⟩
  rcases rightReturns with ⟨_, _, _, _, enabled', invokable', prepared', returned'⟩
  cases enabled.symm.trans enabled'
  cases invokable.symm.trans invokable'
  cases prepared.symm.trans prepared'
  cases returned.symm.trans returned'
  rfl

/-- Either a stage before the scheduled method refuses or the method is not
dispatched, or the method returns a value, which only the trace remembers. -/
theorem invoke_cases (hooks : SchedulerHooks σ) (state : σ) :
    (((hooks.invoke state).calls, (hooks.invoke state).returned) ∈ refusedRuns ∧
        ∀ value, ¬hooks.MethodReturns state value) ∨
      ∃ value finished, hooks.MethodReturns state value ∧
        (hooks.invoke state).calls = dispatchedCalls value finished ∧
        (hooks.invoke state).returned = if finished then .successful else .fail := by
  unfold SchedulerHooks.invoke SchedulerHooks.MethodReturns
  rcases enabledEq : hooks.canEnabled state with ⟨enabled, afterEnabled⟩
  cases enabled with
  | false => exact Or.inl ⟨by simp [refusedRuns], by simp⟩
  | true =>
      rcases invokableEq : hooks.canInvoke afterEnabled with ⟨invokable, afterInvokable⟩
      cases invokable with
      | false =>
          exact Or.inl ⟨by simp [refusedRuns, invokableEq], by simp [invokableEq]⟩
      | true =>
          rcases preparedEq : hooks.invokeBefore afterInvokable with ⟨prepared, afterPrepared⟩
          cases prepared with
          | false =>
              exact Or.inl ⟨by simp [refusedRuns, invokableEq, preparedEq],
                by simp [invokableEq, preparedEq]⟩
          | true =>
              rcases methodEq : hooks.method afterPrepared with ⟨outcome, afterMethod⟩
              cases outcome with
              | none =>
                  apply Or.inl
                  constructor
                  · cases handled : (hooks.invokeFail afterMethod).1 <;>
                      simp [refusedRuns, preparation, invokableEq, preparedEq, methodEq,
                        handled]
                  · simp [invokableEq, preparedEq, methodEq]
              | some value =>
                  apply Or.inr
                  refine ⟨value, (hooks.invokeAfter afterMethod).1, ?_⟩
                  cases finished : (hooks.invokeAfter afterMethod).1 <;>
                    simp [dispatchedCalls, preparation, invokableEq, preparedEq, methodEq,
                      finished]

/-- `invoke` reports faithfully exactly when a scheduled method that is dispatched
returns `SUCCESSFUL`: any other value is dropped. -/
theorem faithful_invoke_iff (hooks : SchedulerHooks σ) (state : σ) :
    Faithful (hooks.invoke state).calls (hooks.invoke state).returned ↔
      ∀ value, hooks.MethodReturns state value → value = .successful := by
  rcases invoke_cases hooks state with
    ⟨refused, unreached⟩ | ⟨value, finished, returns, callsEq, returnedEq⟩
  · apply iff_of_true
    · exact faithful_refusedRuns _ refused
    · intro value returns
      exact absurd returns (unreached value)
  · rw [callsEq, returnedEq, faithful_dispatchedCalls_iff]
    constructor
    · intro success other otherReturns
      rw [← returns.unique otherReturns, success]
    · intro allSucceed
      exact allSucceed value returns

end Invoke

/-- A subclass with the default hooks and a scheduled method that fails. -/
def failingJob : SchedulerHooks Unit where
  canEnabled := fun state => (true, state)
  canInvoke := fun state => (true, state)
  invokeBefore := fun state => (true, state)
  method := fun state => (some .fail, state)
  invokeAfter := fun state => (true, state)
  invokeFail := fun state => (true, state)

/-- The failure of the job is reported as success and `invokeFail` is not called. -/
theorem not_faithful_failingJob :
    ¬Faithful (failingJob.invoke ()).calls (failingJob.invoke ()).returned := by
  decide

end QApr.Scheduler
