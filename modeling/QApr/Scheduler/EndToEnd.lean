import QApr.Scheduler.AgentStart
import QApr.Scheduler.Dispatch

/-!
# From annotations to executions

An agent that starts with nothing but the registered classes.  The module follows the
annotations through registration, through the filter of the settings and through the two
loops of `start`, up to the methods that the tasks execute.
-/

namespace QApr.Scheduler

open QApr.Library QApr.Qt

namespace SchedulerAgentPvt

/-- An agent without tasks. -/
def new : SchedulerAgentPvt := ⟨∅, [], []⟩

/-! ## The first start -/

section FirstStart

variable {chars : CharTable} {scopeList : List QString} {scopes : List SchedulerScopeGroup}

end FirstStart

end SchedulerAgentPvt

/-! ## From annotations to executions -/

section EndToEnd

variable (platform : Platform) (createUuid : Nat → QUuid) (classes : List QMetaObject)
  (scopeList : List QString)

end EndToEnd

variable {platform : Platform} {createUuid : Nat → QUuid} {classes : List QMetaObject}
  {scopeList : List QString}

end QApr.Scheduler
