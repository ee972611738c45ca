import Outboxy.AdapterCore

/-!
# The PostgreSQL adapter

The statements of `PgEventRepository`, `PgMaintenance` and `PgEventService`,
as functions of `now`, the value of `NOW()` in the statement.  In the `SET`
list of an `UPDATE` every right-hand side reads the old row.

Two methods are more than one statement.  A replay is a `SELECT` and then an
`UPDATE`.  The `UPDATE` of `replayEvent` checks the status again; that of
`replayEventsInRange` names the selected ids only.  Stale recovery is one
`UPDATE`, so its `WHERE` is checked at the instant of the change.
-/


namespace Outboxy.PgEventRepository

/-- The rows that the sub-select of a claim and the pending count look for. -/
def claimable (now : Int) (row : OutboxEvent) : Bool :=
  (decide (row.status = .pending) || decide (row.status = .failed)) &&
    (decide (row.nextRetryAt = none) || sqlLe row.nextRetryAt now) &&
    decide (row.deletedAt = none)

/-- The ids that the sub-select of a claim may return: the oldest claimable
rows that nobody has locked, up to the batch size. -/
def ClaimSelection {a : Adapter} (table : OutboxTable a) (locked : EventId → Bool) (now : Int)
    (batchSize : Nat) (ids : List EventId) : Prop :=
  table.IsSelection (fun row => claimable now row && !locked row.id) batchSize ids ∧
    ∀ row ∈ table.rows, row.id ∈ ids →
      ∀ other ∈ table.rows, claimable now other = true → locked other.id = false →
        other.id ∉ ids → row.createdAt ≤ other.createdAt

instance {a : Adapter} (table : OutboxTable a) (locked : EventId → Bool) (now : Int)
    (batchSize : Nat) (ids : List EventId) :
    Decidable (ClaimSelection table locked now batchSize ids) := by
  unfold ClaimSelection
  infer_instance

/-- The `UPDATE` of `claimPendingEvents` on the ids of its sub-select. -/
def claimPendingEvents (now : Int) (ids : List EventId) : OutboxUpdate where
  guard := idIn ids
  assign := claimRow now
  assign_pk := claimRow_id now

def getPendingEventCount {a : Adapter} (table : OutboxTable a) (now : Int) : Nat :=
  table.rows.countP (claimable now)

/-- An empty list returns before the statement; no row has an id in the empty
list either.  The same holds of the two methods below. -/
def markSucceeded (now : Int) (results : List (EventId × String)) : OutboxUpdate where
  guard := idIn (results.map Prod.fst)
  assign := succeedRow now results
  assign_pk := succeedRow_id now results

/-- `(errorMessages.get(id) ?? "Unknown error").substring(0, 1000)` -/
def errorText (errorMessages : OrderedMap EventId String) (id : EventId) : String :=
  truncateError ((errorMessages.get? id).getD "Unknown error")

def errorCase (eventIds : List EventId) (errorMessages : OrderedMap EventId String) :
    List (EventId × String) :=
  eventIds.map fun id => (id, errorText errorMessages id)

/-- An interval is stored in whole microseconds. -/
def backoffDelay (config : BackoffConfig) (retryCount : Nat) : Int :=
  Float8.rint (config.delayMs retryCount * 1000)

/-- `power(multiplier, retry_count)` makes the statement fail when its result is
zero and the multiplier is not. -/
def PowerUnderflows (config : BackoffConfig) (retryCount : Nat) : Prop :=
  Float8.pow config.backoffMultiplier retryCount = 0 ∧ config.backoffMultiplier ≠ 0

instance (config : BackoffConfig) (retryCount : Nat) :
    Decidable (PowerUnderflows config retryCount) :=
  inferInstanceAs (Decidable (_ ∧ _))

def scheduleRetry (now : Int) (eventIds : List EventId)
    (errorMessages : OrderedMap EventId String) (config : BackoffConfig) : OutboxUpdate where
  guard row := idIn eventIds row && decide ((row.retryCount : Int) < row.maxRetries)
  assign row :=
    { row with
      status := .failed
      retryCount := row.retryCount + 1
      lastError := caseId (errorCase eventIds errorMessages) row.id
      updatedAt := now
      nextRetryAt := some (now + backoffDelay config row.retryCount) }
  assign_pk _ := rfl

def moveToDLQ (now : Int) (eventIds : List EventId)
    (errorMessages : OrderedMap EventId String) : OutboxUpdate where
  guard := idIn eventIds
  assign row :=
    { row with
      status := .dlq
      lastError := caseId (errorCase eventIds errorMessages) row.id
      processedAt := some now
      updatedAt := now }
  assign_pk _ := rfl

end Outboxy.PgEventRepository


namespace Outboxy.PgMaintenance

/-- The `WHERE` of `recoverStaleEvents`. -/
def stale (now : Int) (thresholdMs : Nat) (row : OutboxEvent) : Bool :=
  decide (row.status = .processing) &&
    sqlLt row.processingStartedAt (now - thresholdMs * Time.millisecond) &&
    decide ((row.retryCount : Int) < row.maxRetries)

def recoverStaleEvents (now : Int) (thresholdMs : Nat) : OutboxUpdate where
  guard := stale now thresholdMs
  assign := recoverRow now
  assign_pk := recoverRow_id now

end Outboxy.PgMaintenance


namespace Outboxy.PgEventService

/-- The row that `createEvent` inserts. -/
def createEvent (now : Int) (id : EventId) (input : CreateEventInput) : OutboxEvent :=
  input.values.row id now

def replayEvent (now : Int) (id : EventId) : OutboxUpdate where
  guard := replayGuard id
  assign := replayRow now
  assign_pk := replayRow_id now

/-- The `WHERE` of the `SELECT` of `replayEventsInRange`. -/
def inReplayRange (input : ReplayRangeInput) (row : OutboxEvent) : Bool :=
  decide (row.status = input.requestedStatus) &&
    decide (input.startDate ≤ row.createdAt) && decide (row.createdAt ≤ input.endDate) &&
    decide (row.deletedAt = none) &&
    match input.aggregateType with
    | none | some "" => true
    | some aggregateType => decide (row.aggregateType = aggregateType)

def replayEventsInRange (now : Int) (eventIds : List EventId) : OutboxUpdate where
  guard := idIn eventIds
  assign := replayRow now
  assign_pk := replayRow_id now

/-- `UPDATE ... RETURNING id` returns the rows it touched. -/
def replayRangeResult (_selected affected : List EventId) : ReplayRangeResult where
  replayedCount := affected.length
  eventIds := affected

end Outboxy.PgEventService

namespace Outboxy.PostgreSqlDialect

/-- `ON CONFLICT ... DO UPDATE SET idempotency_key = outbox_events.idempotency_key`
on the row that is in the way. -/
def onConflict (existing : EventId) : OutboxUpdate where
  guard row := decide (row.id = existing)
  assign row := { row with idempotencyKey := row.idempotencyKey }
  assign_pk _ := rfl

end Outboxy.PostgreSqlDialect
