import Outboxy.AdapterCore

/-!
# The MySQL adapter

The statements of `MySQLEventRepository`, `MySQLMaintenance` and
`MySQLEventService`.  In the `SET` list of an `UPDATE`, MySQL evaluates the
assignments from left to right, and a later right-hand side reads the new
value of an earlier column.

A claim is a transaction of a `SELECT ... FOR UPDATE SKIP LOCKED` and an
`UPDATE`, and a `SELECT` after its commit.  Stale recovery and range replay
read ids in one statement and update them in another, and that `UPDATE` names
the ids only.

A method that validates its ids has no statement, `none`, when one of them is
not a UUID: it throws.
-/


namespace Outboxy.MySQLEventRepository

/-- `validateIds` returns, rather than throws. -/
def validateIds (ids : List EventId) : Bool := ids.all isUuid

/-- The rows that a claim and the pending count look for. -/
def claimable (now : Int) (row : OutboxEvent) : Bool :=
  (decide (row.status = .pending) ||
      (decide (row.status = .failed) && sqlLe row.nextRetryAt now)) &&
    decide (row.deletedAt = none)

/-- The ids that the first statement of a claim may lock and return.  There
is no `ORDER BY`: any claimable rows that nobody has locked will do. -/
def ClaimSelection {a : Adapter} (table : OutboxTable a) (locked : EventId → Bool) (now : Int)
    (batchSize : Nat) (ids : List EventId) : Prop :=
  table.IsSelection (fun row => claimable now row && !locked row.id) batchSize ids

instance {a : Adapter} (table : OutboxTable a) (locked : EventId → Bool) (now : Int)
    (batchSize : Nat) (ids : List EventId) :
    Decidable (ClaimSelection table locked now batchSize ids) := by
  unfold ClaimSelection
  infer_instance

/-- The `UPDATE` in the transaction of `claimPendingEvents`. -/
def claimPendingEvents (now : Int) (ids : List EventId) : OutboxUpdate where
  guard := idIn ids
  assign := claimRow now
  assign_pk := claimRow_id now

def getPendingEventCount {a : Adapter} (table : OutboxTable a) (now : Int) : Nat :=
  table.rows.countP (claimable now)

def markSucceeded (now : Int) (results : List (EventId × String)) : Option OutboxUpdate :=
  if validateIds (results.map Prod.fst) then
    some
      { guard := idIn (results.map Prod.fst)
        assign := succeedRow now results
        assign_pk := succeedRow_id now results }
  else none

/-- `(errorMessages.get(id) || fallback).substring(0, MAX_ERROR_MESSAGE_LENGTH)`;
the empty message is falsy. -/
def errorText (fallback : String) (errorMessages : OrderedMap EventId String) (id : EventId) :
    String :=
  truncateError <|
    match errorMessages.get? id with
    | none | some "" => fallback
    | some message => message

def errorCase (fallback : String) (eventIds : List EventId)
    (errorMessages : OrderedMap EventId String) : List (EventId × String) :=
  eventIds.map fun id => (id, errorText fallback errorMessages id)

/-- `INTERVAL CEIL((base * POW(multiplier, retry_count)) / 1000) SECOND` -/
def backoffDelay (config : BackoffConfig) (retryCount : Nat) : Int :=
  (config.delayMs retryCount / 1000).ceil * Time.second

def scheduleRetry (now : Int) (eventIds : List EventId)
    (errorMessages : OrderedMap EventId String) (config : BackoffConfig) :
    Option OutboxUpdate :=
  if validateIds eventIds then
    some
      { guard := fun row => idIn eventIds row && decide ((row.retryCount : Int) < row.maxRetries)
        -- `retry_count` is assigned first, so the delay reads its new value.
        assign := fun row =>
          { row with
            status := .failed
            retryCount := row.retryCount + 1
            nextRetryAt := some (now + backoffDelay config (row.retryCount + 1))
            lastError := caseId (errorCase "Unknown error" eventIds errorMessages) row.id
            processingStartedAt := none
            updatedAt := now }
        assign_pk := fun _ => rfl }
  else none

def moveToDLQ (now : Int) (eventIds : List EventId)
    (errorMessages : OrderedMap EventId String) : Option OutboxUpdate :=
  if validateIds eventIds then
    some
      { guard := idIn eventIds
        assign := fun row =>
          { row with
            status := .dlq
            lastError := caseId (errorCase "Moved to DLQ" eventIds errorMessages) row.id
            updatedAt := now }
        assign_pk := fun _ => rfl }
  else none

end Outboxy.MySQLEventRepository


namespace Outboxy.MySQLMaintenance

/-- `Math.ceil(thresholdMs / 1000)` -/
def thresholdSeconds (thresholdMs : Nat) : Nat := (thresholdMs + 999) / 1000

/-- The `WHERE` of the `SELECT` of `recoverStaleEvents`. -/
def stale (now : Int) (thresholdMs : Nat) (row : OutboxEvent) : Bool :=
  decide (row.status = .processing) &&
    sqlLt row.processingStartedAt (now - thresholdSeconds thresholdMs * Time.second) &&
    decide ((row.retryCount : Int) < row.maxRetries)

/-- The ids that the `SELECT` of `recoverStaleEvents` returns. -/
def staleIds {a : Adapter} (table : OutboxTable a) (now : Int) (thresholdMs : Nat) :
    List EventId :=
  (table.rows.filter (stale now thresholdMs)).map OutboxEvent.id

/-- The `UPDATE` of `recoverStaleEvents`. -/
def recoverStaleEvents (now : Int) (eventIds : List EventId) : Option OutboxUpdate :=
  if MySQLEventRepository.validateIds eventIds then
    some
      { guard := idIn eventIds
        assign := recoverRow now
        assign_pk := recoverRow_id now }
  else none

end Outboxy.MySQLMaintenance


namespace Outboxy.MySQLEventService

/-- A `TIMESTAMP` column rounds a bound date to the nearest second. -/
def timestamp (t : Int) : Int := (t + Time.second / 2) / Time.second * Time.second

/-- The row that `createEvent` inserts.  The dates are those of the client's
clock. -/
def createEvent (clock : Int) (id : EventId) (input : CreateEventInput) : OutboxEvent :=
  input.values.row id (timestamp clock)

def replayEvent (now : Int) (id : EventId) : OutboxUpdate where
  guard := replayGuard id
  assign := replayRow now
  assign_pk := replayRow_id now

/-- The `WHERE` of the `SELECT` of `replayEventsInRange`.  Texts compare by
the column's collation. -/
def inReplayRange (input : ReplayRangeInput) (row : OutboxEvent) : Bool :=
  decide (row.status = input.requestedStatus) &&
    decide (input.startDate ≤ row.createdAt) && decide (row.createdAt ≤ input.endDate) &&
    decide (row.deletedAt = none) &&
    match input.aggregateType with
    | none | some "" => true
    | some aggregateType => decide (unicodeCi row.aggregateType = unicodeCi aggregateType)

def replayEventsInRange (now : Int) (eventIds : List EventId) : OutboxUpdate where
  guard := idIn eventIds
  assign := replayRow now
  assign_pk := replayRow_id now

/-- The ids are those of the `SELECT`, the count is the number of rows that
the `UPDATE` matched. -/
def replayRangeResult (selected affected : List EventId) : ReplayRangeResult where
  replayedCount := affected.length
  eventIds := selected

end Outboxy.MySQLEventService

namespace Outboxy.MySqlDialect

/-- `ON DUPLICATE KEY UPDATE updated_at = CASE ... END` on the row that is in
the way. -/
def onDuplicateKey (now : Int) (existing : EventId) : OutboxUpdate where
  guard row := decide (row.id = existing)
  assign row :=
    { row with updatedAt := if row.status ≠ .succeeded then now else row.updatedAt }
  assign_pk _ := rfl

end Outboxy.MySqlDialect
