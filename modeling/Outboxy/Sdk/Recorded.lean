import Outboxy.Library.Recorded
import Outboxy.Sdk.Statements

/-!
# Batches with the statements they execute

`publishBatch` and `receiveBatch` with an arbitrary query function.  The calls
record the statements that they execute, also when they throw.

`erases_publishBatchWith` and `erases_receiveBatchWith`: with the query
function of a table and without the record, they are `publishBatch` and
`receiveBatch`.
-/

namespace Outboxy

open Session

variable {a : Adapter} {σ : Type} {collate : String → String}

/-- A query function on a state of type `σ`. -/
abbrev QueryFn (ι σ : Type) := ι → Sdk σ (List QueryRow)

/-! ## The outbox client -/

namespace OutboxyClient

/-- `bulkInsert` of at most `MAX_EVENTS_PER_BATCH` events. -/
def insertSliceWith (client : OutboxyClient a) (query : QueryFn OutboxStatement σ)
    (events : List (Stamp × ValidatedEvent)) :
    EStateM SdkError (Recorded σ OutboxStatement) (List EventId) := do
  let rows ← ofExcept (client.bulkRows events)
  let resultRows ← record query ⟨rows⟩
  if a.supportsReturning then return resultRows.map QueryRow.id
  else return events.map fun event => event.1.id

def bulkInsertWith (client : OutboxyClient a) (query : QueryFn OutboxStatement σ)
    (events : List (Stamp × ValidatedEvent)) :
    EStateM SdkError (Recorded σ OutboxStatement) (List EventId) :=
  List.inChunks client.maxEventsPerBatch client.maxEventsPerBatch_pos
    (client.insertSliceWith query) events

def publishBatchWith (client : OutboxyClient a) (query : QueryFn OutboxStatement σ)
    (events : List (Stamp × PublishEventInput)) :
    EStateM SdkError (Recorded σ OutboxStatement) (List EventId) := do
  if events.isEmpty then return []
  let validatedEvents ← ofExcept (client.validateBatch 0 events)
  let keysInBatch :=
    (validatedEvents.filterMap fun event => event.2.idempotencyKey).filter (· ≠ "")
  if keysInBatch.Nodup then client.bulkInsertWith query validatedEvents
  else
    throw (.validation "Duplicate idempotency keys within batch are not allowed" "idempotencyKey")

/-- The query function of a table. -/
def tableQuery (a : Adapter) : QueryFn OutboxStatement (OutboxTable a) :=
  fun statement => a.bulkInsert statement.rows

theorem erases_insertSliceWith (client : OutboxyClient a)
    (events : List (Stamp × ValidatedEvent)) :
    Erases (client.insertSliceWith (tableQuery a) events) (client.insertSlice events) := by
  unfold insertSliceWith insertSlice
  refine erases_bind (erases_ofExcept _) fun rows => ?_
  refine erases_bind (erases_record _ _) fun resultRows => ?_
  exact erases_ite (erases_pure _) (erases_pure _)

theorem erases_bulkInsertWith (client : OutboxyClient a)
    (events : List (Stamp × ValidatedEvent)) :
    Erases (client.bulkInsertWith (tableQuery a) events) (client.bulkInsert events) := by
  unfold bulkInsertWith bulkInsert
  rw [List.inChunks_eq]
  refine erases_ite ?_ (client.erases_insertSliceWith events)
  exact erases_bind (erases_mapM client.erases_insertSliceWith _) fun _ => erases_pure _

theorem erases_publishBatchWith (client : OutboxyClient a)
    (events : List (Stamp × PublishEventInput)) :
    Erases (client.publishBatchWith (tableQuery a) events) (client.publishBatch events) := by
  unfold publishBatchWith publishBatch
  refine erases_ite (erases_pure []) ?_
  refine erases_bind (erases_ofExcept _) fun validatedEvents => ?_
  exact erases_ite (client.erases_bulkInsertWith _) (erases_ofExcept (.error _))

end OutboxyClient

/-! ## The inbox client -/

namespace InboxyClient

/-- `buildFindByIdempotencyKeys` throws before there is a statement. -/
def findWith (query : QueryFn InboxStatement σ) (keys : List String) :
    EStateM SdkError (Recorded σ InboxStatement) (List QueryRow) :=
  if keys.isEmpty then
    throw (.unexpected "buildFindByIdempotencyKeys requires at least one key")
  else record query (.findByIdempotencyKeys keys)

/-- `bulkInsert` of at most `MAX_EVENTS_PER_BATCH` events. -/
def insertSliceWith (_client : InboxyClient a) (query : QueryFn InboxStatement σ)
    (events : List (Stamp × ValidatedInboxEvent)) :
    EStateM SdkError (Recorded σ InboxStatement) (List InboxReceiveResult) := do
  let rows ← ofExcept (bulkRows events)
  let resultRows ← record query (.bulkInsert rows)
  let checkRows ← findWith query (events.map fun event => event.2.idempotencyKey)
  let keyToId := OrderedMap.ofList QueryRow.idempotencyKey QueryRow.id checkRows
  return events.map fun event => batchResult a (resultRows.map QueryRow.id) keyToId event.1 event.2

def bulkInsertWith (client : InboxyClient a) (query : QueryFn InboxStatement σ)
    (events : List (Stamp × ValidatedInboxEvent)) :
    EStateM SdkError (Recorded σ InboxStatement) (List InboxReceiveResult) :=
  List.inChunks client.maxEventsPerBatch client.maxEventsPerBatch_pos
    (client.insertSliceWith query) events

def receiveBatchWith (client : InboxyClient a) (query : QueryFn InboxStatement σ)
    (events : List (Stamp × InboxReceiveEventInput)) :
    EStateM SdkError (Recorded σ InboxStatement) (List InboxReceiveResult) := do
  if events.isEmpty then return []
  let validatedEvents ← ofExcept (client.validateBatch 0 events)
  let keysInBatch := validatedEvents.map fun event => event.2.idempotencyKey
  if keysInBatch.Nodup then client.bulkInsertWith query validatedEvents
  else
    throw (.validation "Duplicate idempotency keys within batch are not allowed" "idempotencyKey")

/-- The query function of a table. -/
def tableQuery (a : Adapter) : QueryFn InboxStatement (InboxTable collate)
  | .bulkInsert rows => a.inboxBulkInsert rows
  | .findByIdempotencyKeys keys => a.inboxFind keys

theorem erases_findWith (keys : List String) :
    Erases (findWith (tableQuery a) keys) (a.inboxFind keys : Sdk (InboxTable collate) _) := by
  by_cases hkeys : keys.isEmpty
  · unfold findWith Adapter.inboxFind
    rw [if_pos hkeys, if_pos hkeys]
    exact erases_ofExcept (.error _)
  · unfold findWith
    rw [if_neg hkeys]
    exact erases_record _ _

theorem erases_insertSliceWith (client : InboxyClient a)
    (events : List (Stamp × ValidatedInboxEvent)) :
    Erases (client.insertSliceWith (tableQuery a) events)
      (client.insertSlice events : Sdk (InboxTable collate) _) := by
  unfold insertSliceWith insertSlice
  refine erases_bind (erases_ofExcept _) fun rows => ?_
  refine erases_bind (erases_record _ _) fun resultRows => ?_
  exact erases_bind (erases_findWith _) fun checkRows => erases_pure _

theorem erases_bulkInsertWith (client : InboxyClient a)
    (events : List (Stamp × ValidatedInboxEvent)) :
    Erases (client.bulkInsertWith (tableQuery a) events)
      (client.bulkInsert events : Sdk (InboxTable collate) _) := by
  unfold bulkInsertWith bulkInsert
  rw [List.inChunks_eq]
  refine erases_ite ?_ (client.erases_insertSliceWith events)
  exact erases_bind (erases_mapM client.erases_insertSliceWith _) fun _ => erases_pure _

theorem erases_receiveBatchWith (client : InboxyClient a)
    (events : List (Stamp × InboxReceiveEventInput)) :
    Erases (client.receiveBatchWith (tableQuery a) events)
      (client.receiveBatch events : Sdk (InboxTable collate) _) := by
  unfold receiveBatchWith receiveBatch
  refine erases_ite (erases_pure []) ?_
  refine erases_bind (erases_ofExcept _) fun validatedEvents => ?_
  exact erases_ite (client.erases_bulkInsertWith _) (erases_ofExcept (.error _))

end InboxyClient

end Outboxy
