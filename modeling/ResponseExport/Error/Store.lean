/-!
# `ResponseExport.Error.Store`: what can go wrong with the store

The engine below the tables has faults of its own (`EngineError`); a `StoreError` says what the
service wanted from the store when one occurred, or that a record is not there.
-/

set_option autoImplicit false

namespace ResponseExport

/-- A fault of the engine below the tables. -/
inductive EngineError where
  /-- A query that has to return a row returned none. -/
  | rowNotFound
  /-- The store is closed. -/
  | poolClosed
  /-- No connection became free in time. -/
  | poolTimedOut
  /-- A result has no column of this name. -/
  | columnNotFound (name : String)
  /-- The engine refuses a statement. -/
  | refused (code : Nat) (reason : String)
  /-- The address of a store cannot be understood. -/
  | configuration (reason : String)
  /-- The engine cannot be reached. -/
  | communication (reason : String)
  deriving Repr, DecidableEq

/-- The wording of an engine's fault. -/
def EngineError.message : EngineError → String
  | .rowNotFound => "no rows returned by a query that expected to return at least one row"
  | .poolClosed => "attempted to acquire a connection on a closed pool"
  | .poolTimedOut => "pool timed out while waiting for an open connection"
  | .columnNotFound name => s!"no column found for name: {name}"
  | .refused code reason => s!"error returned from database: (code: {code}) {reason}"
  | .configuration reason => s!"error with configuration: {reason}"
  | .communication reason => s!"error communicating with database: {reason}"

/-- A fault of the store. -/
inductive StoreError where
  /-- A fault of the engine, passed on. -/
  | engine (e : EngineError)
  /-- The store cannot be reached. -/
  | connection (reason : String)
  /-- A transaction cannot be begun or committed. -/
  | transaction (reason : String)
  /-- A query fails. -/
  | query (reason : String)
  /-- A record is not there. -/
  | notFound (table id : String)
  /-- The schema cannot be brought up to date. -/
  | migration (reason : String)
  /-- Anything else. -/
  | other (reason : String)
  deriving Repr, DecidableEq

/-- The wording of a store's fault. -/
def StoreError.message : StoreError → String
  | .engine e => s!"SQLx error: {e.message}"
  | .connection reason => s!"Connection pool error: {reason}"
  | .transaction reason => s!"Transaction error: {reason}"
  | .query reason => s!"Query error: {reason}"
  | .notFound table id => s!"Record not found: {table} with ID {id}"
  | .migration reason => s!"Migration error: {reason}"
  | .other reason => s!"Database error: {reason}"

end ResponseExport
