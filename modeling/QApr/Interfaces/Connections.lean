import QApr.Interfaces.Request
import Mathlib.Data.List.Induction

/-!
# Connections of the pool

A request takes at most one connection, in `requestBeforeInvoke`, and gives it
back in `requestAfterInvoke` when `connection()` is valid.  The module shows for
which requests the handler finds the connection that was taken, and which ones
give it back.
-/

namespace QApr.Interfaces

open QApr.Library

variable {Database Status : Type}

section Connections

variable (codes : StatusCodes Status) (request : Request Database Status)
  (server : Server Database)

/-- A request takes a connection while it is served. -/
def Takes (connection : Nat) : Prop :=
  server.pool.taken ≤ connection ∧
    connection < (serve codes request server).server.pool.taken

/-- While the handler runs `connection()` yields any connection the request has taken. -/
def HandsOver : Prop :=
  (serve codes request server).accepted →
    ∀ connection, Takes codes request server connection →
      (serve codes request server).entered.connection = some connection

/-- The request gives every connection it has taken back once, and no connection is
outstanding when it has ended. -/
structure GivesBack : Prop where
  once : ∀ connection, Takes codes request server connection →
    (serve codes request server).server.pool.finished.count connection = 1
  none_outstanding : (serve codes request server).server.pool.outstanding = []

/-- Every request of a sequence, served from a pool without outstanding connections,
hands its connection to the handler and gives it back. -/
def ConnectionsReturned (database : Database)
    (requests : List (Request Database Status)) : Prop :=
  ∀ earlier request later, requests = earlier ++ request :: later →
    let server := serveAll codes ⟨database, .fresh⟩ earlier
    HandsOver codes request server ∧ GivesBack codes request server

/-- Pool and annotations let the request take a connection. -/
def Request.takes : Bool :=
  !request.isMethodOptions && !request.annotation.dbNoConnection &&
    if request.annotation.dbReadOnly then request.outcomes.getReadOnly
    else request.outcomes.get

/-- `requestBeforeInvoke` returns before it calls `setConnection`. -/
def Request.skipsSetConnection : Bool :=
  request.annotation.dbReadOnly || request.annotation.dbNoTransaction

/-- `setConnection` and the transaction succeed. -/
def Request.binds : Bool :=
  request.outcomes.setConnection && request.outcomes.transaction

/-- A request that takes a connection calls `setConnection`, and the base class does not
refuse it after its handler has run. -/
def Request.Orderly : Prop :=
  request.takes → request.skipsSetConnection = false ∧
    (request.binds → request.outcomes.requestAfterInvoke)

end Connections

variable {codes : StatusCodes Status} {request : Request Database Status}
  {server : Server Database}

/-! ## The pool after one request -/

/-- The handler uses neither the pool nor the connection of the interface. -/
theorem invoke_frame (interface : Interface Database Status) :
    (interface.invoke request).pool = interface.pool ∧
      (interface.invoke request).connection = interface.connection :=
  ⟨rfl, rfl⟩

/-- `requestAfterInvoke` gives back the connection that `connection()` yields, unless the
base class refuses the request. -/
theorem pool_requestAfterInvoke (interface : Interface Database Status) :
    (interface.requestAfterInvoke codes.isOK request).2.pool =
      if request.outcomes.requestAfterInvoke then interface.pool.finish interface.connection
      else interface.pool := by
  have kept (isOK : Status → Bool) (interface : Interface Database Status) :
      (interface.finish isOK request.outcomes).pool = interface.pool := by
    unfold Interface.finish
    split
    · rfl
    · split <;> rfl
  unfold Interface.requestAfterInvoke
  cases request.outcomes.requestAfterInvoke with
  | false => rfl
  | true =>
      cases bound : interface.connection with
      | none => rfl
      | some connection => simp [kept]

theorem pool_serve :
    (serve codes request server).server.pool =
      if (serve codes request server).accepted ∧ request.outcomes.requestAfterInvoke then
        (serve codes request server).entered.pool.finish
          (serve codes request server).entered.connection
      else (serve codes request server).entered.pool := by
  by_cases accepted : ((Interface.new server codes.initial).requestBeforeInvoke request).1
  · simp [serve, Interface.destroy, accepted, pool_requestAfterInvoke, invoke_frame]
  · simp [serve, Interface.destroy, accepted]

/-- A request that takes no connection leaves the pool as it is. -/
theorem serve_of_not_takes (codes : StatusCodes Status) (server : Server Database)
    (free : request.takes = false) :
    (serve codes request server).server.pool = server.pool := by
  have entered : (serve codes request server).entered.pool = server.pool ∧
      (serve codes request server).entered.connection = none := by
    simp only [serve, Interface.requestBeforeInvoke, Interface.connectionCreate]
    cases methodEq : request.isMethodOptions with
    | true => exact ⟨rfl, rfl⟩
    | false =>
        cases connectionEq : request.annotation.dbNoConnection with
        | true => exact ⟨rfl, rfl⟩
        | false =>
            simp only [Request.takes, methodEq, connectionEq, Bool.not_false,
              Bool.true_and] at free
            simp [free, Pool.take, Pool.finish, Interface.new]
  rw [pool_serve, entered.1, entered.2]
  split <;> rfl

/-- How the handler of a request that has taken a connection finds the interface. -/
theorem serve_of_takes (codes : StatusCodes Status) (server : Server Database)
    (takes : request.takes) :
    let served := serve codes request server
    served.accepted = (request.skipsSetConnection || request.binds) ∧
      served.entered.connection =
        (if request.skipsSetConnection = false ∧ request.binds then some server.pool.taken
        else none) ∧
      served.entered.pool =
        if request.skipsSetConnection || request.binds then (server.pool.take true).2
        else (server.pool.take true).2.finish (server.pool.take true).1 := by
  simp only [Request.takes, Bool.and_eq_true, Bool.not_eq_true'] at takes
  have ⟨⟨methodEq, connectionEq⟩, got⟩ := takes
  simp only [serve, Interface.requestBeforeInvoke, Interface.connectionCreate, methodEq,
    connectionEq, got]
  cases readOnly : request.annotation.dbReadOnly with
  | true => simp [Request.skipsSetConnection, readOnly, Interface.new]
  | false =>
      cases noTransaction : request.annotation.dbNoTransaction with
      | true => simp [Request.skipsSetConnection, noTransaction, Interface.new]
      | false =>
          cases connected : request.outcomes.setConnection <;>
            cases started : request.outcomes.transaction <;>
            simp [Request.skipsSetConnection, Request.binds, readOnly, noTransaction,
              connected, started, Interface.setConnection, Interface.transaction,
              Interface.new, Pool.take]

/-- The pool after a request that has taken a connection. -/
theorem pool_serve_of_takes (codes : StatusCodes Status) (server : Server Database)
    (takes : request.takes) [Decidable request.Orderly] :
    (serve codes request server).server.pool =
      if request.Orderly then (server.pool.take true).2.finish (server.pool.take true).1
      else (server.pool.take true).2 := by
  have ⟨accepted, connection, entered⟩ :=
    serve_of_takes codes server takes
  rw [pool_serve, accepted, connection, entered]
  cases skips : request.skipsSetConnection with
  | true => simp [Request.Orderly, takes, skips, Pool.finish]
  | false =>
      cases binds : request.binds with
      | false => simp [Request.Orderly, takes, skips, binds]
      | true => simp [Request.Orderly, takes, skips, binds, Pool.take]

/-- Every request keeps the pool well formed. -/
theorem wellFormed_serve (wellFormed : server.pool.WellFormed) :
    (serve codes request server).server.pool.WellFormed := by
  cases takes : request.takes with
  | false =>
      rw [serve_of_not_takes codes server takes]
      exact wellFormed
  | true =>
      classical
      rw [pool_serve_of_takes codes server takes]
      split
      · apply (wellFormed.take true).finish
        intro resource equal
        cases equal
        exact Nat.lt_succ_self _
      · exact wellFormed.take true

/-! ## One request -/

/-- A request that takes no connection has nothing to give back. -/
theorem returned_of_not_takes (free : request.takes = false)
    (none_outstanding : server.pool.outstanding = []) :
    HandsOver codes request server ∧ GivesBack codes request server := by
  have unchanged := serve_of_not_takes codes server free
  have nothing (connection : Nat) : ¬Takes codes request server connection := by
    intro taken
    rw [Takes, unchanged] at taken
    exact Nat.not_lt.mpr taken.1 taken.2
  refine ⟨fun _ connection taken => absurd taken (nothing connection), ?_, ?_⟩
  · intro connection taken
    exact absurd taken (nothing connection)
  · rw [unchanged]
    exact none_outstanding

/-- An orderly request that takes a connection hands it over and gives it back. -/
theorem returned_of_orderly (wellFormed : server.pool.WellFormed)
    (none_outstanding : server.pool.outstanding = []) (takes : request.takes)
    (orderly : request.Orderly) :
    HandsOver codes request server ∧ GivesBack codes request server := by
  have ⟨accepted, connectionEq, _⟩ :=
    serve_of_takes codes server takes
  have finished : (serve codes request server).server.pool =
      { server.pool with
        taken := server.pool.taken + 1
        finished := server.pool.finished ++ [server.pool.taken] } := by
    classical
    rw [pool_serve_of_takes codes server takes, if_pos orderly, Pool.finish_take]
  have single {connection : Nat} (taken : Takes codes request server connection) :
      connection = server.pool.taken := by
    rw [Takes, finished] at taken
    exact Nat.le_antisymm (Nat.le_of_lt_succ taken.2) taken.1
  refine ⟨?_, ?_, ?_⟩
  · intro handled connection taken
    have skips := (orderly takes).1
    rw [accepted, skips, Bool.false_or] at handled
    rw [connectionEq, if_pos ⟨skips, handled⟩, single taken]
  · intro connection taken
    rw [finished, single taken]
    simp [wellFormed.count_finished (Nat.le_refl _)]
  · rw [finished]
    exact none_outstanding

/-- From a pool without outstanding connections a request finds its connection and gives
it back exactly when it is orderly. -/
theorem returned_iff_orderly (codes : StatusCodes Status) (wellFormed : server.pool.WellFormed)
    (none_outstanding : server.pool.outstanding = []) :
    HandsOver codes request server ∧ GivesBack codes request server ↔ request.Orderly := by
  cases takes : request.takes with
  | false =>
      apply iff_of_true (returned_of_not_takes takes none_outstanding)
      intro taken
      rw [takes] at taken
      contradiction
  | true =>
      constructor
      · intro ⟨_, givesBack⟩
        classical
        by_contra disorderly
        have kept := givesBack.none_outstanding
        rw [pool_serve_of_takes codes server takes, if_neg disorderly] at kept
        contradiction
      · exact returned_of_orderly wellFormed none_outstanding takes

/-! ## Sequences of requests -/

theorem serveAll_snoc (earlier : List (Request Database Status)) (server : Server Database) :
    serveAll codes server (earlier ++ [request]) =
      (serve codes request (serveAll codes server earlier)).server := by
  simp [serveAll]

/-- Orderly requests leave no connection outstanding. -/
theorem pool_serveAll (codes : StatusCodes Status) (database : Database)
    (requests : List (Request Database Status)) :
    let server := serveAll codes ⟨database, .fresh⟩ requests
    server.pool.WellFormed ∧
      ((∀ request ∈ requests, request.Orderly) → server.pool.outstanding = []) := by
  induction requests using List.reverseRecOn with
  | nil => exact ⟨Pool.wellFormed_fresh, fun _ => rfl⟩
  | append_singleton earlier request ih =>
      simp only [serveAll_snoc]
      refine ⟨wellFormed_serve ih.1, fun orderly => ?_⟩
      have returned := (returned_iff_orderly codes ih.1
        (ih.2 fun other member => orderly other (by simp [member]))).mpr
        (orderly request (by simp))
      exact returned.2.none_outstanding

/-- Along any sequence every connection is handed over and given back exactly when all the
requests are orderly. -/
theorem connectionsReturned_iff (codes : StatusCodes Status) (database : Database)
    (requests : List (Request Database Status)) :
    ConnectionsReturned codes database requests ↔
      ∀ request ∈ requests, request.Orderly := by
  constructor
  · intro returned request member
    have ⟨earlier, later, split⟩ := List.append_of_mem member
    have ⟨wellFormed, _⟩ := pool_serveAll codes database earlier
    -- The request before this one has left nothing outstanding.
    have outstanding : (serveAll codes ⟨database, .fresh⟩ earlier).pool.outstanding = [] := by
      cases earlier using List.reverseRecOn with
      | nil => rfl
      | append_singleton before previous =>
          rw [serveAll_snoc]
          exact (returned before previous (request :: later) (by simp [split])).2.none_outstanding
    exact (returned_iff_orderly codes wellFormed outstanding).mp
      (returned earlier request later split)
  · intro orderly earlier request later split
    have ⟨wellFormed, outstanding⟩ := pool_serveAll codes database earlier
    rw [split] at orderly
    exact (returned_iff_orderly codes wellFormed
      (outstanding fun other member => orderly other (by simp [member]))).mpr
      (orderly request (by simp))

/-- A read-only request for which everything succeeds. -/
def readOnlyRequest : Request Unit Unit where
  isMethodOptions := false
  annotation := ⟨false, true, false⟩
  handler _ _ := ⟨(), (), []⟩
  outcomes :=
    { get := true, getReadOnly := true, setConnection := true, transaction := true
      requestAfterInvoke := true, statusAfterInvoke := id
      commit := true, rollback := true, rollbackOnDestroy := true }

/-- The connection of a read-only request is neither handed over nor given back. -/
theorem not_connectionsReturned_readOnly :
    ¬ConnectionsReturned ⟨fun _ => true, (), id⟩ () [readOnlyRequest] := by
  intro returned
  have leaked := (returned [] readOnlyRequest [] rfl).2.none_outstanding
  revert leaked
  decide

end QApr.Interfaces
