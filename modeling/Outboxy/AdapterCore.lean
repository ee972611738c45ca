import Outboxy.Library.Float8
import Outboxy.Schema

/-!
# Types shared by the two database adapters

The inputs and results of the adapter operations, and the parts of their
statements that the two adapters write identically.
-/

namespace Outboxy

/-- Exponential backoff: base delay in milliseconds and growth factor. -/
structure BackoffConfig where
  backoffBaseMs : ℚ
  backoffMultiplier : ℚ

/-- `base * power(multiplier, retryCount)`, in milliseconds.  The power is a double,
also on MySQL. -/
def BackoffConfig.delayMs (config : BackoffConfig) (retryCount : Nat) : ℚ :=
  config.backoffBaseMs * Float8.pow config.backoffMultiplier retryCount

/-- Input of `createEvent`. -/
structure CreateEventInput where
  aggregateType : String
  aggregateId : String
  eventType : String
  eventVersion : Option Int
  payload : Json
  headers : Option Json
  destinationUrl : String
  destinationType : Option DestinationType
  idempotencyKey : Option String
  maxRetries : Option Int
  metadata : Option Json

/-- The values that `createEvent` binds, with its defaults. -/
def CreateEventInput.values (input : CreateEventInput) : InsertValues where
  aggregateType := input.aggregateType
  aggregateId := input.aggregateId
  eventType := input.eventType
  eventVersion := input.eventVersion.getD 1
  payload := input.payload
  headers := input.headers.getD (.obj [])
  destinationUrl := input.destinationUrl
  destinationType := input.destinationType.getD .http
  idempotencyKey := input.idempotencyKey
  maxRetries := input.maxRetries.getD 5
  metadata := input.metadata.getD (.obj [])

/-- Result of `replayEvent`. -/
structure ReplayEventResult where
  id : EventId
  previousStatus : EventStatus
  newStatus : EventStatus
  replayedAt : Int

/-- The statuses that a range replay may ask for. -/
inductive ReplayStatus where
  | failed
  | dlq
deriving DecidableEq, Repr

def ReplayStatus.status : ReplayStatus → EventStatus
  | .failed => .failed
  | .dlq => .dlq

/-- Input of `replayEventsInRange`. -/
structure ReplayRangeInput where
  startDate : Int
  endDate : Int
  status : Option ReplayStatus
  aggregateType : Option String
  limit : Option Nat

/-- `input.status ?? "dlq"` -/
def ReplayRangeInput.requestedStatus (input : ReplayRangeInput) : EventStatus :=
  (input.status.getD .dlq).status

/-- `input.limit ?? 100` -/
def ReplayRangeInput.requestedLimit (input : ReplayRangeInput) : Nat := input.limit.getD 100

theorem ReplayRangeInput.requestedStatus_cases (input : ReplayRangeInput) :
    input.requestedStatus = .failed ∨ input.requestedStatus = .dlq := by
  unfold requestedStatus
  cases input.status.getD .dlq with
  | failed => exact Or.inl rfl
  | dlq => exact Or.inr rfl

/-- Result of `replayEventsInRange`. -/
structure ReplayRangeResult where
  replayedCount : Nat
  eventIds : List EventId

/-- `id IN (ids)` -/
def idIn (ids : List EventId) (row : OutboxEvent) : Bool := decide (row.id ∈ ids)

@[simp] theorem idIn_eq_true {ids : List EventId} {row : OutboxEvent} :
    idIn ids row = true ↔ row.id ∈ ids := decide_eq_true_iff

/-- The `SET` of a claim. -/
def claimRow (now : Int) (row : OutboxEvent) : OutboxEvent :=
  { row with
    status := .processing
    processingStartedAt := some now
    updatedAt := now }

/-- The `SET` of a delivery. -/
def succeedRow (now : Int) (results : List (EventId × String)) (row : OutboxEvent) :
    OutboxEvent :=
  { row with
    status := .succeeded
    processedAt := some now
    processedByWorker := caseId results row.id
    updatedAt := now }

/-- The `SET` of a replay. -/
def replayRow (now : Int) (row : OutboxEvent) : OutboxEvent :=
  { row with
    status := .pending
    retryCount := 0
    nextRetryAt := none
    lastError := none
    errorDetails := none
    processingStartedAt := none
    processedAt := none
    updatedAt := now }

/-- The `SET` of a stale recovery. -/
def recoverRow (now : Int) (row : OutboxEvent) : OutboxEvent :=
  { row with
    status := .failed
    retryCount := row.retryCount + 1
    lastError := some "Recovered from stale processing state"
    nextRetryAt := some (now + Time.second)
    updatedAt := now }

@[simp] theorem claimRow_id (now : Int) (row : OutboxEvent) : (claimRow now row).id = row.id := rfl

@[simp] theorem succeedRow_id (now : Int) (results : List (EventId × String))
    (row : OutboxEvent) : (succeedRow now results row).id = row.id := rfl

@[simp] theorem replayRow_id (now : Int) (row : OutboxEvent) :
    (replayRow now row).id = row.id := rfl

@[simp] theorem recoverRow_id (now : Int) (row : OutboxEvent) :
    (recoverRow now row).id = row.id := rfl

/-- The `WHERE` of `cleanupStaleIdempotencyKeys`. -/
def staleKey (now : Int) (retentionDays : Nat) (row : OutboxEvent) : Bool :=
  decide (row.status = .succeeded) && row.idempotencyKey.isSome &&
    sqlLt row.processedAt (now - retentionDays * Time.day)

/-- `cleanupStaleIdempotencyKeys`, the same statement in both adapters. -/
def cleanupStaleIdempotencyKeys (now : Int) (retentionDays : Nat) : OutboxUpdate where
  guard := staleKey now retentionDays
  assign row := { row with idempotencyKey := none, updatedAt := now }
  assign_pk _ := rfl

/-- The status that the first statement of `replayEvent` reads. -/
def selectReplayStatus {a : Adapter} (table : OutboxTable a) (id : EventId) :
    Option EventStatus :=
  match table.lookup id with
  | some row => if row.deletedAt = none then some row.status else none
  | none => none

/-- `previousStatus` is one that `replayEvent` goes on with. -/
def replayableStatus (status : EventStatus) : Bool :=
  decide (status = .failed) || decide (status = .dlq)

/-- The `WHERE` of the second statement of `replayEvent`. -/
def replayGuard (id : EventId) (row : OutboxEvent) : Bool :=
  decide (row.id = id) && replayableStatus row.status && decide (row.deletedAt = none)

end Outboxy
