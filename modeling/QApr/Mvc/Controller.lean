import QApr.Interfaces.Atomicity
import QApr.Interfaces.Irq
import QApr.Library.LastWriter

/-!
# Controllers of a request

The handler of a request works through controllers below its interface.
`Controller::resultInfo` hands a failure to the request of its parent, and
`Controller::setTransactionRollbackForce` goes up to the nearest interface.  The module
says which of them decide between commit and rollback.
-/

namespace QApr.Mvc

open QApr.Library QApr.Interfaces

/-- An object above a controller. -/
structure ParentObject where
  object : QObject
  /-- `dynamic_cast<QRpc::Controller*>` succeeds. -/
  isController : Bool
  /-- `Interface` is derived from `QRpc::Controller`. -/
  derived : object.isInterface = true → isController = true

/-- A `QApr::Controller` with its parents, nearest first. -/
structure Controller where
  self : ObjectPtr
  parents : List ParentObject

/-- What `Controller::resultInfo` reads of `lr()`. -/
structure LocalResult (Status : Type) where
  isNotOk : Bool
  sc : Status
  deriving DecidableEq, Repr

namespace Controller

variable (controller : Controller)

/-- The effect of `Controller::resultInfo` on the statuses of the requests. -/
def resultInfo {Status : Type} (lr : LocalResult Status) (co : ObjectPtr → Status) :
    ObjectPtr → Status :=
  match controller.parents.head? with
  | none => co
  | some parent =>
      if !parent.isController then co
      else if lr.isNotOk then Function.update co parent.object.pointer lr.sc
      else co

/-- `p->req()`; the walk is never longer than the chain of parents. -/
def req : Option ObjectPtr :=
  (ControllerPvt.req none ⟨controller.self, false⟩ (controller.parents.map ParentObject.object)
    (controller.parents.length + 2)).join

/-- `Controller::setTransactionRollbackForce`, on the calls that the interfaces get. -/
def setTransactionRollbackForce (value : Bool) (calls : ObjectPtr → List Bool) :
    ObjectPtr → List Bool :=
  match controller.req with
  | none => calls
  | some interface => Function.update calls interface (calls interface ++ [value])

end Controller

/-- What a handler of an interface does. -/
inductive HandlerAction (Database Status : Type) where
  | write (change : Database → Database)
  /-- The interface sets the status of its request. -/
  | setCo (status : Status)
  | resultInfo (controller : Controller) (lr : LocalResult Status)
  | setTransactionRollbackForce (controller : Controller) (value : Bool)

/-- What a handler has done so far. -/
structure HandlerState (Database Status : Type) where
  database : Database
  co : ObjectPtr → Status
  calls : ObjectPtr → List Bool

section Handler

variable {Database Status : Type} (self : ObjectPtr)

/-- One action in the handler of the interface `self`. -/
def HandlerState.act (state : HandlerState Database Status) :
    HandlerAction Database Status → HandlerState Database Status
  | .write change => { state with database := change state.database }
  | .setCo status => { state with co := Function.update state.co self status }
  | .resultInfo controller lr => { state with co := controller.resultInfo lr state.co }
  | .setTransactionRollbackForce controller value =>
      { state with calls := controller.setTransactionRollbackForce value state.calls }

/-- The handler of the interface `self` with some actions, where other requests have the
statuses `others`. -/
def handler (others : ObjectPtr → Status) (actions : List (HandlerAction Database Status))
    (database : Database) (status : Status) : HandlerResult Database Status :=
  let state := actions.foldl (HandlerState.act self)
    ⟨database, Function.update others self status, fun _ => []⟩
  ⟨state.database, state.co self, state.calls self⟩

/-! ## What reaches the request -/

/-- The status that an action gives the request: a failure reaches it from a controller
whose parent the interface is. -/
def HandlerAction.status : HandlerAction Database Status → Option Status
  | .setCo status => some status
  | .resultInfo controller lr =>
      match controller.parents.head? with
      | none => none
      | some parent =>
          if parent.isController ∧ parent.object.pointer = self ∧ lr.isNotOk then some lr.sc
          else none
  | _ => none

/-- The flag that an action sets: that of a controller whose nearest interface it is. -/
def HandlerAction.force : HandlerAction Database Status → Option Bool
  | .setTransactionRollbackForce controller value =>
      if nearestInterface (controller.parents.map ParentObject.object) = some self then
        some value
      else none
  | _ => none

/-- The change that an action makes. -/
def HandlerAction.change : HandlerAction Database Status → Database → Database
  | .write change => change
  | _ => id

variable (codes : StatusCodes Status) (outcomes : Outcomes Status)
  (actions : List (HandlerAction Database Status))

/-- The status with which the hooks after the handler decide. -/
def decidingStatus : Status :=
  outcomes.statusAfterInvoke ((lastWritten (HandlerAction.status self) actions).getD codes.initial)

/-- The request commits: pool, base class and commit succeed, the status that was set last
is one of success, and the flag that was set last does not force a rollback. -/
def Commits : Prop :=
  outcomes.opened = true ∧ outcomes.requestAfterInvoke = true ∧
    codes.isOK (decidingStatus self codes outcomes actions) = true ∧
    (lastWritten (HandlerAction.force self) actions).getD false = false ∧
    outcomes.commit = true

/-- A request with a transaction, neither an `OPTIONS` one nor with annotations about the
database, whose handler takes some actions publishes all its changes or none, and its
controllers decide which. -/
structure Decided (others : ObjectPtr → Status) (server : Server Database) : Prop where
  commits : Commits self codes outcomes actions →
    (serve codes ⟨false, .plain, handler self others actions, outcomes⟩ server).server.database =
      actions.foldl (fun database action => action.change database) server.database
  rollsBack : ¬Commits self codes outcomes actions →
    (serve codes ⟨false, .plain, handler self others actions, outcomes⟩ server).server.database =
      server.database
  /-- The caller learns the status that decided, if the hook of the base class succeeds. -/
  reports : outcomes.opened = true → outcomes.requestAfterInvoke = true →
    (serve codes ⟨false, .plain, handler self others actions, outcomes⟩ server).reported =
      decidingStatus self codes outcomes actions

end Handler

section Proof

variable {Database Status : Type} {self : ObjectPtr}

theorem Controller.req_eq (controller : Controller) :
    controller.req = nearestInterface (controller.parents.map ParentObject.object) := by
  have enough : (controller.parents.map ParentObject.object).length + 1 <
      controller.parents.length + 2 := by
    rw [List.length_map]
    exact Nat.lt_succ_self _
  rw [req, ControllerPvt.req_eq rfl enough, Option.join_some]

/-- An action writes the status of the request or leaves it alone. -/
theorem co_act (state : HandlerState Database Status) (action : HandlerAction Database Status) :
    (state.act self action).co self = (action.status self).getD (state.co self) := by
  cases action with
  | write => rfl
  | setCo => simp [HandlerState.act, HandlerAction.status]
  | setTransactionRollbackForce => rfl
  | resultInfo controller lr =>
      simp only [HandlerState.act, HandlerAction.status, Controller.resultInfo]
      cases controller.parents.head? with
      | none => rfl
      | some parent =>
          cases isController : parent.isController with
          | false => simp [isController]
          | true =>
              by_cases same : parent.object.pointer = self
              · cases lr.isNotOk <;> simp [isController, same]
              · cases lr.isNotOk <;> simp [isController, same, Ne.symm same]

/-- An action adds its flag to the calls that the interface gets. -/
theorem calls_act (state : HandlerState Database Status)
    (action : HandlerAction Database Status) :
    (state.act self action).calls self = state.calls self ++ (action.force self).toList := by
  cases action with
  | write => simp [HandlerState.act, HandlerAction.force]
  | setCo => simp [HandlerState.act, HandlerAction.force]
  | resultInfo => simp [HandlerState.act, HandlerAction.force]
  | setTransactionRollbackForce controller value =>
      simp only [HandlerState.act, HandlerAction.force, Controller.setTransactionRollbackForce,
        controller.req_eq]
      cases nearestInterface (controller.parents.map ParentObject.object) with
      | none => simp
      | some interface =>
          by_cases same : interface = self
          · simp [same]
          · simp [same, Ne.symm same]

theorem calls_foldl (state : HandlerState Database Status)
    (actions : List (HandlerAction Database Status)) :
    (actions.foldl (HandlerState.act self) state).calls self =
      state.calls self ++ actions.filterMap (HandlerAction.force self) := by
  induction actions generalizing state with
  | nil => simp
  | cons action actions ih =>
      rw [List.foldl_cons, ih, calls_act, List.append_assoc, List.filterMap_cons]
      cases action.force self <;> rfl

theorem database_foldl (state : HandlerState Database Status)
    (actions : List (HandlerAction Database Status)) :
    (actions.foldl (HandlerState.act self) state).database =
      actions.foldl (fun database action => action.change database) state.database := by
  induction actions generalizing state with
  | nil => rfl
  | cons action actions ih =>
      rw [List.foldl_cons, List.foldl_cons, ih]
      cases action <;> rfl

/-- What the handler leaves. -/
theorem handler_eq (others : ObjectPtr → Status)
    (actions : List (HandlerAction Database Status)) (database : Database) (status : Status) :
    let result := handler self others actions database status
    result.database =
        actions.foldl (fun database action => action.change database) database ∧
      result.status = (lastWritten (HandlerAction.status self) actions).getD status ∧
      result.forced = (lastWritten (HandlerAction.force self) actions).getD false := by
  refine ⟨database_foldl _ _, ?_, ?_⟩
  · have last := @read_foldl _ _ (HandlerState Database Status) _ (HandlerState.act self)
      (fun state => state.co self) co_act
    exact (last _ actions).trans (by simp)
  · rw [HandlerResult.forced]
    simp only [handler, calls_foldl, List.nil_append, List.getLast?_filterMap]
    rfl

/-- The controllers decide in every request with a transaction. -/
theorem handler_decides (codes : StatusCodes Status) (outcomes : Outcomes Status)
    (actions : List (HandlerAction Database Status)) (others : ObjectPtr → Status)
    (server : Server Database) : Decided self codes outcomes actions others server := by
  obtain ⟨databaseEq, statusEq, forcedEq⟩ :=
    @handler_eq _ _ self others actions server.database codes.initial
  cases opened : outcomes.opened with
  | false =>
      have closed := @serve_of_closed _ _ ⟨false, .plain, handler self others actions, outcomes⟩
        codes server rfl rfl opened
      refine ⟨?_, fun _ => closed.2, ?_⟩
      · intro commits
        exact absurd (opened.symm.trans commits.1) Bool.false_ne_true
      · intro isOpened
        exact absurd (opened.symm.trans isOpened) Bool.false_ne_true
  | true =>
      have served := @serve_of_opened _ _ ⟨false, .plain, handler self others actions, outcomes⟩
        codes server rfl rfl opened
      dsimp only at served
      rw [statusEq, forcedEq, databaseEq] at served
      obtain ⟨_, _, reported, published⟩ := served
      refine ⟨?_, ?_, ?_⟩
      · intro commits
        exact published.trans (if_pos commits.2)
      · intro fails
        exact published.trans (if_neg fun rest => fails ⟨opened, rest⟩)
      · intro _ called
        exact reported.trans (if_pos called)

end Proof

end QApr.Mvc
