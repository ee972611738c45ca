import Mathlib.Logic.Function.Basic
import Outboxy.Library.Transition
import Outboxy.Sdk.InboxyClient

/-!
# The inbox at run time

Any number of transactions on the PostgreSQL inbox, each a sequence of
`receive`, `receiveBatch` and `markFailed` calls that ends with a commit or a
rollback, next to a maintenance job that deletes old rows.  Each SQL
statement is a step, and the statements of different transactions interleave
freely, also within one call of `receiveBatch`.

`table` holds the rows that the unique index knows of.  A row that an open
transaction has inserted is `hidden` from the other transactions: no statement
of theirs reads, changes or deletes it, and one that would insert its key
waits, which is to say that its step is not enabled.  What `markFailed` writes
becomes visible with the commit, and locks the row until then.

A statement that fails aborts its transaction, which is its rollback.
-/

namespace Outboxy

/-- The rows that `cleanupProcessedInboxEvents` deletes. -/
def PgMaintenance.processedInboxEvent (now retentionDays : Int) (row : InboxEvent) : Bool :=
  decide (row.status = .processed) && sqlLt row.processedAt (now - retentionDays * Time.day)

/-- The pieces that `bulkInsert` inserts with one statement each. -/
def InboxyClient.chunks {a : Adapter} (client : InboxyClient a)
    (events : List (Stamp × ValidatedInboxEvent)) : List (List (Stamp × ValidatedInboxEvent)) :=
  if events.length > client.maxEventsPerBatch then
    events.slices client.maxEventsPerBatch client.maxEventsPerBatch_pos
  else [events]

namespace Inbox

abbrev TransactionId := Nat

/-- What a call has answered for a key. -/
abbrev Answer := String × InboxReceiveResult

/-- Where a call of `receiveBatch` is: before the `INSERT` of a chunk, or
before the `SELECT` that follows it.  `results` are those of the chunks before. -/
inductive BatchCall where
  | none
  | inserting (chunks : List (List (Stamp × ValidatedInboxEvent))) (results : List Answer)
  | finding (chunk : List (Stamp × ValidatedInboxEvent))
      (chunks : List (List (Stamp × ValidatedInboxEvent))) (insertedIds : List EventId)
      (results : List Answer)

/-- What the call has found out so far. -/
def BatchCall.results : BatchCall → List Answer
  | .none => []
  | .inserting _ results => results
  | .finding _ _ _ results => results

/-- An open transaction.  `answers` are the results that its calls have
returned. -/
structure Transaction where
  startedAt : Int
  call : BatchCall := .none
  answers : List Answer := []

/-- All that the calls of the transaction have found out. -/
def Transaction.given (t : Transaction) : List Answer := t.answers ++ t.call.results

structure State where
  clock : Int
  table : InboxTable Adapter.postgres.collate
  /-- The rows that open transactions have inserted. -/
  inserted : List (TransactionId × EventId)
  /-- The rows that open transactions have marked, with the errors. -/
  marks : List (TransactionId × EventId × String)
  transactions : TransactionId → Option Transaction

inductive Action where
  /-- Time passes. -/
  | tick (micros : Nat)
  | begin (tx : TransactionId)
  | receive (tx : TransactionId) (client : InboxyClient .postgres) (id : EventId)
      (event : InboxReceiveEventInput)
  /-- `receiveBatch` up to its first statement. -/
  | receiveBatch (tx : TransactionId) (client : InboxyClient .postgres)
      (events : List (EventId × InboxReceiveEventInput))
  | insertChunk (tx : TransactionId)
  | findChunk (tx : TransactionId)
  | markFailed (tx : TransactionId) (eventId : EventId) (error : String)
  | commit (tx : TransactionId)
  /-- Also of a transaction whose connection fails during a call. -/
  | rollback (tx : TransactionId)
  | cleanupProcessedInboxEvents (retentionDays : ℚ)

/-- The transaction that takes the step. -/
def Action.transaction : Action → Option TransactionId
  | .begin tx => some tx
  | .receive tx _ _ _ => some tx
  | .receiveBatch tx _ _ => some tx
  | .insertChunk tx => some tx
  | .findChunk tx => some tx
  | .markFailed tx _ _ => some tx
  | .commit tx => some tx
  | .rollback tx => some tx
  | .tick _ => none
  | .cleanupProcessedInboxEvents _ => none

namespace State

/-- A table with any rows, and no transactions. -/
def initial (clock : Int) (table : InboxTable Adapter.postgres.collate) : State where
  clock := clock
  table := table
  inserted := []
  marks := []
  transactions := fun _ => none

/-- An open transaction has inserted the row. -/
def uncommitted (s : State) (row : InboxEvent) : Bool :=
  s.inserted.any fun entry => decide (entry.2 = row.id)

/-- Another transaction has. -/
def hidden (s : State) (tx : TransactionId) (row : InboxEvent) : Bool :=
  s.inserted.any fun entry => decide (entry.2 = row.id ∧ entry.1 ≠ tx)

/-- The transaction has. -/
def owns (s : State) (tx : TransactionId) (row : InboxEvent) : Bool :=
  s.inserted.any fun entry => decide (entry.2 = row.id ∧ entry.1 = tx)

/-- Another transaction has marked the row. -/
def locked (s : State) (tx : TransactionId) (id : EventId) : Bool :=
  s.marks.any fun mark => decide (mark.2.1 = id ∧ mark.1 ≠ tx)

/-- The rows that a statement of the transaction sees. -/
def view (s : State) (tx : TransactionId) : InboxTable Adapter.postgres.collate :=
  s.table.delete (s.hidden tx)

/-- The rows that every transaction sees. -/
def committed (s : State) : InboxTable Adapter.postgres.collate := s.table.delete s.uncommitted

/-- An insert of the key waits for another transaction. -/
def waits (s : State) (tx : TransactionId) (key : String) : Bool :=
  s.table.rows.any fun row => decide (row.idempotencyKey = key) && s.hidden tx row

def setTransaction (s : State) (tx : TransactionId) (t : Option Transaction) : State :=
  { s with transactions := Function.update s.transactions tx t }

/-- The transaction has inserted those of the rows that are in the table. -/
def store (s : State) (tx : TransactionId) (table : InboxTable Adapter.postgres.collate)
    (ids : List EventId) : State :=
  { s with
    table := table
    inserted :=
      ((ids.filter fun id => (table.lookup id).isSome).map fun id => (tx, id)) ++ s.inserted }

/-- Nothing of the transaction is left. -/
def finish (s : State) (tx : TransactionId) (table : InboxTable Adapter.postgres.collate) : State :=
  { s with
    table := table
    inserted := s.inserted.filter fun entry => entry.1 ≠ tx
    marks := s.marks.filter fun mark => mark.1 ≠ tx
    transactions := Function.update s.transactions tx none }

@[simp] theorem setTransaction_self (s : State) (tx : TransactionId) (t : Option Transaction) :
    (s.setTransaction tx t).transactions tx = t := Function.update_self _ _ _

theorem setTransaction_of_ne (s : State) {tx tx' : TransactionId} (h : tx' ≠ tx)
    (t : Option Transaction) : (s.setTransaction tx t).transactions tx' = s.transactions tx' :=
  Function.update_of_ne h _ _

@[simp] theorem finish_self (s : State) (tx : TransactionId)
    (table : InboxTable Adapter.postgres.collate) : (s.finish tx table).transactions tx = none :=
  Function.update_self _ _ _

theorem finish_of_ne (s : State) {tx tx' : TransactionId} (h : tx' ≠ tx)
    (table : InboxTable Adapter.postgres.collate) :
    (s.finish tx table).transactions tx' = s.transactions tx' :=
  Function.update_of_ne h _ _

/-! ### The calls of a transaction -/

def begin (s : State) (tx : TransactionId) : Option State :=
  match s.transactions tx with
  | none => some (s.setTransaction tx (some { startedAt := s.clock }))
  | some _ => none

def receive (s : State) (tx : TransactionId) (t : Transaction) (client : InboxyClient .postgres)
    (id : EventId) (event : InboxReceiveEventInput) : Option State :=
  match t.call, s.table.lookup id, (client.receive ⟨id, t.startedAt⟩ event).run s.table with
  | .none, none, .ok (result, table) =>
    if s.waits tx event.idempotencyKey then none
    else some ((s.store tx table [id]).setTransaction tx
      (some { t with answers := t.answers ++ [(event.idempotencyKey, result)] }))
  -- The call throws before its statement.
  | .none, none, .error _ => some s
  | _, _, _ => none

def receiveBatch (s : State) (tx : TransactionId) (t : Transaction)
    (client : InboxyClient .postgres) (events : List (EventId × InboxReceiveEventInput)) :
    Option State :=
  match t.call with
  | .none =>
    if events.isEmpty then some s
    else
      match client.validateBatch 0 (events.map fun event => (⟨event.1, t.startedAt⟩, event.2)) with
      | .ok validatedEvents =>
        if (validatedEvents.map fun event => event.2.idempotencyKey).Nodup then
          some (s.setTransaction tx
            (some { t with call := .inserting (client.chunks validatedEvents) [] }))
        else some s
      | .error _ => some s
  | _ => none

/-- The `INSERT` of a chunk. -/
def insertChunk (s : State) (tx : TransactionId) (t : Transaction) : Option State :=
  match t.call with
  | .inserting (chunk :: chunks) results =>
    match InboxyClient.bulkRows chunk with
    | .ok rows =>
      if (rows.any fun row => (s.table.lookup row.id).isSome || s.waits tx row.idempotencyKey) ∨
          ¬ (rows.map InboxEvent.id).Nodup then none
      else
        (PostgreSqlInboxDialect.buildInboxBulkInsert rows s.table).map fun inserted =>
          (s.store tx inserted.2 (rows.map InboxEvent.id)).setTransaction tx
            (some { t with
              call := .finding chunk chunks (inserted.1.map QueryRow.id) results })
    -- The call throws before the statement, and its results are lost.
    | .error _ => some (s.setTransaction tx (some { t with call := .none }))
  | _ => none

/-- The answers for a chunk, from the rows that its `SELECT` finds. -/
def chunkAnswers (s : State) (tx : TransactionId) (chunk : List (Stamp × ValidatedInboxEvent))
    (insertedIds : List EventId) : List Answer :=
  let checkRows := findByIdempotencyKeys (chunk.map fun event => event.2.idempotencyKey) (s.view tx)
  let keyToId := OrderedMap.ofList QueryRow.idempotencyKey QueryRow.id checkRows
  chunk.map fun event =>
    (event.2.idempotencyKey,
      InboxyClient.batchResult .postgres insertedIds keyToId event.1 event.2)

/-- The `SELECT` after it.  The call returns after the last chunk. -/
def findChunk (s : State) (tx : TransactionId) (t : Transaction) : Option State :=
  match t.call with
  | .finding chunk [] insertedIds results =>
    some (s.setTransaction tx
      (some { t with
        call := .none
        answers := t.answers ++ (results ++ s.chunkAnswers tx chunk insertedIds) }))
  | .finding chunk chunks insertedIds results =>
    some (s.setTransaction tx
      (some { t with
        call := .inserting chunks (results ++ s.chunkAnswers tx chunk insertedIds) }))
  | _ => none

/-- The `UPDATE` touches the row that the transaction sees, if there is one,
and waits for a transaction that has marked it. -/
def markFailed (s : State) (tx : TransactionId) (t : Transaction) (eventId : EventId)
    (error : String) : Option State :=
  match t.call, (s.view tx).lookup eventId with
  | .none, some _ =>
    if s.locked tx eventId then none
    else some { s with marks := s.marks ++ [(tx, eventId, truncateError error)] }
  | .none, none => some s
  | _, _ => none

/-- The table with what a transaction has marked, in the order of its calls. -/
def applyMarks (marks : List (TransactionId × EventId × String)) (tx : TransactionId)
    (table : InboxTable Adapter.postgres.collate) : Option (InboxTable Adapter.postgres.collate) :=
  (marks.filter fun mark => mark.1 = tx).foldlM
    (fun table mark => table.update (buildMarkFailed mark.2.1 mark.2.2)) table

def commit (s : State) (tx : TransactionId) (t : Transaction) : Option State :=
  match t.call with
  | .none => (applyMarks s.marks tx s.table).map fun table => s.finish tx table
  | _ => none

def rollback (s : State) (tx : TransactionId) : State := s.finish tx (s.table.delete (s.owns tx))

/-- The committed rows that the job deletes. -/
def expired (s : State) (retentionDays : ℚ) (row : InboxEvent) : Bool :=
  PgMaintenance.processedInboxEvent s.clock retentionDays.num row && !s.uncommitted row

/-- The job runs outside of the transactions.  It waits for a transaction that
has marked a row which it would delete. -/
def cleanupProcessedInboxEvents (s : State) (retentionDays : ℚ) : Option State :=
  if retentionDays.den ≠ 1 ∨ retentionDays < 1 then some s
  else if s.table.rows.any fun row =>
      s.expired retentionDays row && s.marks.any fun mark => decide (mark.2.1 = row.id) then none
  else some { s with table := s.table.delete (s.expired retentionDays) }

end State

/-- One step of the system. -/
def step (s : State) : Action → Option State
  | .tick micros => some { s with clock := s.clock + micros }
  | .begin tx => s.begin tx
  | .receive tx client id event => (s.transactions tx).bind fun t => s.receive tx t client id event
  | .receiveBatch tx client events =>
    (s.transactions tx).bind fun t => s.receiveBatch tx t client events
  | .insertChunk tx => (s.transactions tx).bind fun t => s.insertChunk tx t
  | .findChunk tx => (s.transactions tx).bind fun t => s.findChunk tx t
  | .markFailed tx eventId error =>
    (s.transactions tx).bind fun t => s.markFailed tx t eventId error
  | .commit tx => (s.transactions tx).bind fun t => s.commit tx t
  | .rollback tx => (s.transactions tx).map fun _ => s.rollback tx
  | .cleanupProcessedInboxEvents retentionDays => s.cleanupProcessedInboxEvents retentionDays

def inbox : Transition.System State Action where
  init s := ∃ clock table, s = State.initial clock table
  step := step

end Inbox

end Outboxy
