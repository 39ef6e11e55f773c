import QApr.Library.Pool
import QApr.Library.Store

/-!
# Requests of an interface

`Interface::requestBeforeInvoke`, `Interface::requestAfterInvoke` and the
destructor of `InterfacePvt`, around the handler of one request.

The results of `QOrm::ConnectionPool`, `QOrm::Transaction` and
`QRpc::Controller` are arbitrary: they are given with the request.
-/

namespace QApr.Interfaces

open QApr.Library

/-- A connection of the pool; `none` is an invalid connection. -/
abbrev QSqlDatabase := Option Nat

/-- The database annotations of an interface. -/
structure InterfaceAnnotations where
  dbNoConnection : Bool
  dbReadOnly : Bool
  dbNoTransaction : Bool
  deriving DecidableEq, Repr

/-- An interface without database annotations. -/
def InterfaceAnnotations.plain : InterfaceAnnotations := ⟨false, false, false⟩

/-- What `QRpc` makes of status codes. -/
structure StatusCodes (Status : Type) where
  isOK : Status → Bool
  /-- The status of a request before any hook has run. -/
  initial : Status
  /-- The status reported when a hook returned `false`. -/
  refused : Status → Status

/-- What a handler leaves: the database as it has changed it, the status it has set,
and its calls of `setTransactionRollbackForce` in order. -/
structure HandlerResult (Database Status : Type) where
  database : Database
  status : Status
  setTransactionRollbackForce : List Bool

/-- The results of the calls that the hooks make during one request. -/
structure Outcomes (Status : Type) where
  get : Bool
  getReadOnly : Bool
  setConnection : Bool
  transaction : Bool
  /-- `QRpc::Controller::requestAfterInvoke`, which may set the status as well. -/
  requestAfterInvoke : Bool
  statusAfterInvoke : Status → Status
  commit : Bool
  rollback : Bool
  /-- The `rollback` of the destructor. -/
  rollbackOnDestroy : Bool

/-- One request of an interface. -/
structure Request (Database Status : Type) where
  isMethodOptions : Bool
  annotation : InterfaceAnnotations
  handler : Database → Status → HandlerResult Database Status
  outcomes : Outcomes Status

/-- What the requests of a server share. -/
structure Server (Database : Type) where
  database : Database
  pool : Pool
  deriving DecidableEq

/-- `Interface` with its `InterfacePvt`. -/
structure Interface (Database Status : Type) where
  /-- The database, with the transaction of `p->transaction`. -/
  store : Store Database
  pool : Pool
  /-- The connection that `connection()` yields. -/
  connection : QSqlDatabase
  /-- The status of `rq().co()`. -/
  co : Status
  transactionRollbackForce : Bool

section Hooks

variable {Database Status : Type}

namespace Interface

variable (interface : Interface Database Status)

/-- The constructors of `Interface` and `InterfacePvt`. -/
def new (server : Server Database) (co : Status) : Interface Database Status where
  store := ⟨server.database, none⟩
  pool := server.pool
  connection := none
  co
  transactionRollbackForce := false

/-- `setConnection`; `connection()` is valid only after it has succeeded. -/
def setConnection (success : Bool) (connection : QSqlDatabase) :
    Bool × Interface Database Status :=
  if success then (true, { interface with connection }) else (false, interface)

/-- `p->transaction.transaction()`. -/
def transaction (success : Bool) : Bool × Interface Database Status :=
  (success, { interface with store := interface.store.start success })

/-- The lambda `connectionCreate` of `requestBeforeInvoke`, with the connection that
it leaves in the captured variable. -/
def connectionCreate (outcomes : Outcomes Status) (dbReadOnly dbTransaction : Bool) :
    Bool × QSqlDatabase × Interface Database Status :=
  let dbSuccess := if dbReadOnly then outcomes.getReadOnly else outcomes.get
  let (connection, pool) := interface.pool.take dbSuccess
  let interface := { interface with pool }
  if !dbSuccess then
    (false, connection, interface)
  else if dbReadOnly then
    (true, connection, interface)
  else if !dbTransaction then
    (true, connection, interface)
  else
    let (connected, interface) := interface.setConnection outcomes.setConnection connection
    if !connected then
      (false, connection, interface)
    else
      let (started, interface) := interface.transaction outcomes.transaction
      if !started then
        (false, connection, interface)
      else
        (true, connection, interface)

/-- `Interface::requestBeforeInvoke`. -/
def requestBeforeInvoke (request : Request Database Status) :
    Bool × Interface Database Status :=
  if request.isMethodOptions then
    (true, interface)
  else
    let dbConnection := !request.annotation.dbNoConnection
    if !dbConnection then
      (true, interface)
    else
      let dbReadOnly := request.annotation.dbReadOnly
      let dbTransaction := !request.annotation.dbNoTransaction
      let (created, connection, interface) :=
        interface.connectionCreate request.outcomes dbReadOnly dbTransaction
      if !created then
        -- `connectionClear()` makes the connection of the interface invalid.
        (false, { interface with pool := interface.pool.finish connection, connection := none })
      else
        (true, interface)

/-- The handler, which sees the working copy when a transaction is open. -/
def invoke (request : Request Database Status) : Interface Database Status :=
  let result := request.handler interface.store.view interface.co
  { interface with
    store := interface.store.write result.database
    co := result.status
    transactionRollbackForce :=
      result.setTransactionRollbackForce.foldl (fun _ value => value)
        interface.transactionRollbackForce }

/-- The lambda `finish` of `requestAfterInvoke`, which ignores what `commit` and
`rollback` return. -/
def finish (isOK : Status → Bool) (outcomes : Outcomes Status) :
    Interface Database Status :=
  if interface.transactionRollbackForce then
    { interface with store := interface.store.rollback outcomes.rollback }
  else if isOK interface.co then
    { interface with store := interface.store.commit outcomes.commit }
  else
    { interface with store := interface.store.rollback outcomes.rollback }

/-- `Interface::requestAfterInvoke`. -/
def requestAfterInvoke (isOK : Status → Bool) (request : Request Database Status) :
    Bool × Interface Database Status :=
  let interface :=
    { interface with co := request.outcomes.statusAfterInvoke interface.co }
  if !request.outcomes.requestAfterInvoke then
    (false, interface)
  else
    let connection := interface.connection
    if !connection.isSome then
      (false, interface)
    else
      let interface := interface.finish isOK request.outcomes
      (true, { interface with pool := interface.pool.finish connection })

/-- The destructor of `InterfacePvt`. -/
def destroy (success : Bool) : Interface Database Status :=
  { interface with store := interface.store.rollback success }

end Interface

/-- What is left of a request that has been served. -/
structure Served (Database Status : Type) where
  /-- Whether `requestBeforeInvoke` returned `true`, so that the handler was called. -/
  accepted : Bool
  /-- The interface when `requestBeforeInvoke` has returned. -/
  entered : Interface Database Status
  /-- The interface when the last hook has returned. -/
  left : Interface Database Status
  /-- The status reported to the caller. -/
  reported : Status
  /-- The server after the interface was destroyed. -/
  server : Server Database

/-- Serve one request with an interface of its own. -/
def serve (codes : StatusCodes Status) (request : Request Database Status)
    (server : Server Database) : Served Database Status :=
  let (accepted, entered) := (Interface.new server codes.initial).requestBeforeInvoke request
  let (succeeded, left) :=
    if accepted then (entered.invoke request).requestAfterInvoke codes.isOK request
    else (false, entered)
  let destroyed := left.destroy request.outcomes.rollbackOnDestroy
  { accepted, entered, left
    reported := if succeeded then left.co else codes.refused left.co
    server := ⟨destroyed.store.published, destroyed.pool⟩ }

/-- The server after a sequence of requests. -/
def serveAll (codes : StatusCodes Status) (server : Server Database)
    (requests : List (Request Database Status)) : Server Database :=
  requests.foldl (fun server request => (serve codes request server).server) server

end Hooks

end QApr.Interfaces
