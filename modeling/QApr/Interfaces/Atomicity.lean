import QApr.Interfaces.Request
import Mathlib.Data.List.Induction
import Mathlib.Tactic.MkIffOfInductiveProp

/-!
# Atomicity of requests

A request with a transaction publishes what its handler made of the database
exactly when it reports success and no rollback was forced.  The module shows
which requests keep this promise: the result of `commit` is ignored, and a
request that the base class refuses afterwards keeps its status.
-/

namespace QApr.Interfaces

open QApr.Library

section Atomicity

variable {Database Status : Type} (codes : StatusCodes Status)
  (request : Request Database Status) (server : Server Database)

/-- The database as the handler of a request leaves it; a handler that is not called
leaves it as it is. -/
def handlerDatabase : Database :=
  if (serve codes request server).accepted then
    (request.handler server.database codes.initial).database
  else
    server.database

/-- The request publishes the result of its handler when it reports success and no
rollback was forced, and nothing otherwise. -/
def Atomic : Prop :=
  let served := serve codes request server
  served.server.database =
    if codes.isOK served.reported ∧ served.left.transactionRollbackForce = false then
      handlerDatabase codes request server
    else
      server.database

/-- Pool, connection and transaction let the request through to its handler. -/
def Outcomes.opened (outcomes : Outcomes Status) : Bool :=
  outcomes.get && outcomes.setConnection && outcomes.transaction

/-- The value that the last call of `setTransactionRollbackForce` leaves. -/
def HandlerResult.forced (result : HandlerResult Database Status) : Bool :=
  result.setTransactionRollbackForce.getLast?.getD false

/-- A handler changes the database without forcing a rollback, and then the commit
fails under a status of success, or the base class refuses the request and the status
reported is one of success all the same. -/
@[mk_iff] structure LosesChanges : Prop where
  opened : request.outcomes.opened
  notForced : (request.handler server.database codes.initial).forced = false
  changed : (request.handler server.database codes.initial).database ≠ server.database
  unpublished :
    let status := request.outcomes.statusAfterInvoke
      (request.handler server.database codes.initial).status
    if request.outcomes.requestAfterInvoke then
      codes.isOK status ∧ request.outcomes.commit = false
    else
      codes.isOK (codes.refused status)

end Atomicity

variable {Database Status : Type} {codes : StatusCodes Status}
  {request : Request Database Status} {server : Server Database}

/-! ## The hooks of a request with a transaction -/

/-- `requestBeforeInvoke` opens a transaction on the connection it has taken, or leaves
the interface without a transaction. -/
theorem requestBeforeInvoke_plain (codes : StatusCodes Status) (server : Server Database)
    (methodEq : request.isMethodOptions = false)
    (annotationEq : request.annotation = .plain) :
    let entered := (Interface.new server codes.initial).requestBeforeInvoke request
    entered.1 = request.outcomes.opened ∧
      entered.2.co = codes.initial ∧ entered.2.transactionRollbackForce = false ∧
      entered.2.store.published = server.database ∧
      (request.outcomes.opened → entered.2.store.working = some server.database ∧
        entered.2.connection = some server.pool.taken) := by
  simp only [Interface.requestBeforeInvoke, methodEq, annotationEq,
    InterfaceAnnotations.plain, Interface.connectionCreate, Outcomes.opened]
  cases got : request.outcomes.get with
  | false => simp [Pool.take, Interface.new]
  | true =>
      cases connected : request.outcomes.setConnection with
      | false => simp [Pool.take, Interface.new, Interface.setConnection]
      | true =>
          cases started : request.outcomes.transaction <;>
            simp [Pool.take, Interface.new, Interface.setConnection, Interface.transaction,
              Store.start]

theorem foldl_last {α : Type} (start : α) (calls : List α) :
    calls.foldl (fun _ value => value) start = calls.getLast?.getD start := by
  induction calls using List.reverseRecOn with
  | nil => rfl
  | append_singleton earlier call _ => simp

/-- The handler works on the copy of the transaction. -/
theorem invoke_plain (request : Request Database Status)
    {entered : Interface Database Status}
    (working : entered.store.working = some server.database)
    (unforced : entered.transactionRollbackForce = false) :
    let result := request.handler server.database entered.co
    let handled := entered.invoke request
    handled.store.working = some result.database ∧
      handled.store.published = entered.store.published ∧ handled.co = result.status ∧
      handled.transactionRollbackForce = result.forced ∧
      handled.connection = entered.connection := by
  have view : entered.store.view = server.database := by
    rw [Store.view, working]
    rfl
  intro result handled
  have writes : handled.store = entered.store.write result.database := by
    simp only [handled, Interface.invoke, view, result]
  refine ⟨?_, ?_, ?_, ?_, rfl⟩
  · rw [writes, Store.working_write _ working]
  · rw [writes, Store.published_write _ working]
  · simp only [handled, Interface.invoke, view, result]
  · simp only [handled, Interface.invoke, view, unforced, foldl_last, HandlerResult.forced,
      result]

/-- What `requestAfterInvoke` publishes while a transaction is open. -/
theorem requestAfterInvoke_plain (codes : StatusCodes Status)
    (request : Request Database Status) {interface : Interface Database Status} {copy : Database}
    (working : interface.store.working = some copy) (valid : interface.connection.isSome) :
    let left := interface.requestAfterInvoke codes.isOK request
    let status := request.outcomes.statusAfterInvoke interface.co
    left.1 = request.outcomes.requestAfterInvoke ∧ left.2.co = status ∧
      left.2.transactionRollbackForce = interface.transactionRollbackForce ∧
      left.2.store.published =
        if request.outcomes.requestAfterInvoke ∧ codes.isOK status ∧
            interface.transactionRollbackForce = false ∧ request.outcomes.commit then copy
        else interface.store.published := by
  simp only [Interface.requestAfterInvoke, valid]
  cases called : request.outcomes.requestAfterInvoke with
  | false => simp
  | true =>
      cases forced : interface.transactionRollbackForce with
      | true => simp [Interface.finish]
      | false =>
          cases succeeded : codes.isOK (request.outcomes.statusAfterInvoke interface.co) <;>
            simp [Interface.finish, succeeded, Store.published_commit _ working]

/-- A request that does not get through to its handler changes nothing. -/
theorem serve_of_closed (codes : StatusCodes Status) (server : Server Database)
    (methodEq : request.isMethodOptions = false)
    (annotationEq : request.annotation = .plain)
    (closed : request.outcomes.opened = false) :
    (serve codes request server).accepted = false ∧
      (serve codes request server).server.database = server.database := by
  have ⟨accepted, _, _, published, _⟩ :=
    requestBeforeInvoke_plain codes server methodEq annotationEq
  rw [closed] at accepted
  simp [serve, accepted, Interface.destroy, published]

/-- What a request that gets through to its handler reports and publishes. -/
theorem serve_of_opened (codes : StatusCodes Status) (server : Server Database)
    (methodEq : request.isMethodOptions = false)
    (annotationEq : request.annotation = .plain) (opened : request.outcomes.opened) :
    let result := request.handler server.database codes.initial
    let status := request.outcomes.statusAfterInvoke result.status
    let served := serve codes request server
    served.accepted = true ∧ served.left.transactionRollbackForce = result.forced ∧
      served.reported =
        (if request.outcomes.requestAfterInvoke then status else codes.refused status) ∧
      served.server.database =
        if request.outcomes.requestAfterInvoke ∧ codes.isOK status ∧
            result.forced = false ∧ request.outcomes.commit then result.database
        else server.database := by
  have ⟨accepted, co, unforced, published, transaction⟩ :=
    requestBeforeInvoke_plain codes server methodEq annotationEq
  have ⟨working, connection⟩ := transaction opened
  have ⟨handled, unpublished, status, forced, kept⟩ := invoke_plain request working unforced
  rw [co] at handled status forced
  have valid : ((Interface.new server codes.initial).requestBeforeInvoke request
      |>.2.invoke request).connection.isSome := by
    rw [kept, connection]
    rfl
  have after := requestAfterInvoke_plain codes request handled valid
  rw [status, forced, unpublished, published] at after
  rw [opened] at accepted
  refine ⟨accepted, ?_⟩
  simp only [serve, accepted, ↓reduceIte, after, Interface.destroy, Store.published_rollback,
    and_self]

/-! ## Atomicity -/

/-- A request is atomic exactly when no changes get lost under a status of success. -/
theorem atomic_iff (methodEq : request.isMethodOptions = false)
    (annotationEq : request.annotation = .plain) :
    Atomic codes request server ↔ ¬LosesChanges codes request server := by
  rw [losesChanges_iff]
  cases opened : request.outcomes.opened with
  | false =>
      have ⟨accepted, unchanged⟩ :=
        serve_of_closed codes server methodEq annotationEq opened
      simp [Atomic, handlerDatabase, accepted, unchanged]
  | true =>
      have ⟨accepted, forcedEq, reported, published⟩ :=
        serve_of_opened codes server methodEq annotationEq opened
      simp only [Atomic, handlerDatabase, accepted, forcedEq, reported, published, ↓reduceIte]
      set result := request.handler server.database codes.initial
      cases result.forced with
      | true => simp
      | false =>
          cases request.outcomes.requestAfterInvoke with
          | false =>
              cases succeeded : codes.isOK (codes.refused
                (request.outcomes.statusAfterInvoke result.status)) with
              | false => simp [succeeded]
              | true => simpa [succeeded] using eq_comm
          | true =>
              cases succeeded : codes.isOK
                (request.outcomes.statusAfterInvoke result.status) with
              | false => simp [succeeded]
              | true =>
                  cases request.outcomes.commit with
                  | false => simpa [succeeded] using eq_comm
                  | true => simp [succeeded]

/-- Status codes as numbers: 200 is success, and a refused request reports 500. -/
def httpCodes : StatusCodes Nat := ⟨fun code => code == 200, 200, fun _ => 500⟩

/-- A request whose handler writes 1 to the database. -/
def writeOne (commit : Bool) : Request Nat Nat where
  isMethodOptions := false
  annotation := .plain
  handler _ _ := ⟨1, 200, []⟩
  outcomes :=
    { get := true, getReadOnly := true, setConnection := true, transaction := true
      requestAfterInvoke := true, statusAfterInvoke := id
      commit, rollback := true, rollbackOnDestroy := true }

/-- A write that is committed is published. -/
theorem atomic_writeOne : Atomic httpCodes (writeOne true) ⟨0, .fresh⟩ :=
  (atomic_iff rfl rfl).mpr fun loses => by
    have failed := loses.unpublished
    simp [writeOne] at failed

/-- When the commit fails the request reports success and the database is unchanged. -/
theorem not_atomic_commitFails : ¬Atomic httpCodes (writeOne false) ⟨0, .fresh⟩ := by
  unfold Atomic handlerDatabase
  decide

end QApr.Interfaces
