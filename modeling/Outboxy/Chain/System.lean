import Outboxy.Inbox.System

/-!
# The atomic chain

A consumer that receives an event, runs its business logic and publishes what
follows from it, all in one transaction: `inbox.receive`, then
`outbox.publish`, then the commit.  Any number of such handlers are open at a
time.  Their statements interleave with each other, with the statements of the
workers on the consumer's outbox, and with the cleanup of its inbox.

A handler can fail at any point, which rolls its transaction back, and the
same event can be delivered again at any time.

`written` holds the outbox rows of open transactions.  No other statement sees
them.  `history` and `answered` record what happened; no step reads them.
-/

namespace Outboxy

/-- The two clients of an application, which share its adapter and so its
transactions. -/
structure OutboxyClients (a : Adapter) where
  outbox : OutboxyClient a
  inbox : InboxyClient a

namespace Chain

open Inbox (TransactionId)

/-- The application.  `publishes` are the events that its business logic
publishes for a received one; they have no idempotency key of their own. -/
structure Consumer where
  clients : OutboxyClients .postgres
  publishes : InboxReceiveEventInput → List PublishEventInput
  unkeyed : ∀ event, ∀ input ∈ publishes event, input.idempotencyKey = none

/-- Where a handler is.  `processing` has the events that are still to be
published; a `failed` handler has caught an error of one of its calls. -/
inductive Phase where
  | receiving
  | duplicate
  | processing (rest : List PublishEventInput)
  | failed

/-- One delivery of an event, in its transaction. -/
structure Handler where
  event : InboxReceiveEventInput
  phase : Phase

inductive Entry where
  /-- A handler has committed what it published for the event. -/
  | committed (event : InboxReceiveEventInput) (published : List OutboxEvent)
  /-- Another producer has inserted the rows. -/
  | produced (rows : List OutboxEvent)
  /-- A cleanup has deleted the rows. -/
  | cleaned (rows : List InboxEvent)

/-- The outbox rows that the entry stands for. -/
def Entry.rows : Entry → List OutboxEvent
  | .committed _ published => published
  | .produced rows => rows
  | .cleaned _ => []

/-- How often an event with the key has taken effect since the last cleanup of
the key.  The newest entry comes first. -/
def effectsSince (key : String) : List Entry → Nat
  | [] => 0
  | .committed event _ :: history =>
    if event.idempotencyKey = key then effectsSince key history + 1 else effectsSince key history
  | .produced _ :: history => effectsSince key history
  | .cleaned rows :: history =>
    if rows.any fun row => row.idempotencyKey = key then 0 else effectsSince key history

structure State where
  inbox : Inbox.State
  outbox : Outboxy.State .postgres
  written : List (TransactionId × OutboxEvent)
  handlers : TransactionId → Option Handler
  history : List Entry
  /-- The keys of the deliveries that were answered with success. -/
  answered : List String

inductive Action where
  /-- Time passes. -/
  | tick (micros : Nat)
  /-- An event is delivered. -/
  | begin (tx : TransactionId) (event : InboxReceiveEventInput)
  | receive (tx : TransactionId) (id : EventId)
  | publish (tx : TransactionId) (id : EventId)
  /-- The handler commits, and answers with success. -/
  | commit (tx : TransactionId)
  /-- The handler gives up, or its process crashes. -/
  | rollback (tx : TransactionId)
  | cleanupProcessedInboxEvents (retentionDays : ℚ)
  /-- A worker, a recovery, a replay or another producer. -/
  | outbox (action : Outboxy.Action)

namespace State

/-- Empty tables, and no handlers. -/
def initial (clock : Int) : State where
  inbox := .initial clock Table.empty
  outbox := .initial clock
  written := []
  handlers := fun _ => none
  history := []
  answered := []

def setHandler (s : State) (tx : TransactionId) (handler : Option Handler) : State :=
  { s with handlers := Function.update s.handlers tx handler }

def record (s : State) (entry : Entry) : State := { s with history := entry :: s.history }

/-- What an open transaction has published. -/
def rowsOf (s : State) (tx : TransactionId) : List OutboxEvent :=
  (s.written.filter fun entry => entry.1 = tx).map Prod.snd

/-- Nothing of the handler is left. -/
def finish (s : State) (tx : TransactionId) (inbox : Inbox.State) : State :=
  { s with
    inbox := inbox
    written := s.written.filter fun entry => entry.1 ≠ tx
    handlers := Function.update s.handlers tx none }

@[simp] theorem setHandler_self (s : State) (tx : TransactionId) (handler : Option Handler) :
    (s.setHandler tx handler).handlers tx = handler := Function.update_self _ _ _

theorem setHandler_of_ne (s : State) {tx tx' : TransactionId} (h : tx' ≠ tx)
    (handler : Option Handler) : (s.setHandler tx handler).handlers tx' = s.handlers tx' :=
  Function.update_of_ne h _ _

@[simp] theorem finish_self (s : State) (tx : TransactionId) (inbox : Inbox.State) :
    (s.finish tx inbox).handlers tx = none := Function.update_self _ _ _

theorem finish_of_ne (s : State) {tx tx' : TransactionId} (h : tx' ≠ tx) (inbox : Inbox.State) :
    (s.finish tx inbox).handlers tx' = s.handlers tx' := Function.update_of_ne h _ _

/-! ### The steps of a handler -/

def begin (s : State) (tx : TransactionId) (event : InboxReceiveEventInput) : Option State :=
  match s.handlers tx with
  | none =>
    (Inbox.step s.inbox (.begin tx)).map fun inbox =>
      ({ s with inbox := inbox } : State).setHandler tx (some ⟨event, .receiving⟩)
  | some _ => none

/-- How a handler goes on after its `receive`, from the answers of its
transaction.  There is none when the call has thrown. -/
def received (consumer : Consumer) (event : InboxReceiveEventInput) :
    Option Inbox.Transaction → Phase
  | some t =>
    match t.answers with
    | (_, ⟨_, .processed⟩) :: _ => .processing (consumer.publishes event)
    | (_, ⟨_, .duplicate⟩) :: _ => .duplicate
    | [] => .failed
  | none => .failed

def receive (consumer : Consumer) (s : State) (tx : TransactionId) (id : EventId) :
    Option State :=
  match s.handlers tx with
  | some ⟨event, .receiving⟩ =>
    (Inbox.step s.inbox (.receive tx consumer.clients.inbox id event)).map fun inbox =>
      ({ s with inbox := inbox } : State).setHandler tx
        (some ⟨event, received consumer event (inbox.transactions tx)⟩)
  | _ => none

/-- `publish` of the next event.  Nothing is in the way of a row without a key;
generated ids are new UUIDs. -/
def publish (consumer : Consumer) (s : State) (tx : TransactionId) (id : EventId) :
    Option State :=
  match s.handlers tx, s.inbox.transactions tx with
  | some ⟨event, .processing (input :: rest)⟩, some t =>
    match consumer.clients.outbox.insertValues input with
    | .ok values =>
      if isUuid id ∧ s.outbox.table.lookup id = none ∧ ∀ entry ∈ s.written, entry.2.id ≠ id then
        some (({ s with written := s.written ++ [(tx, values.row id t.startedAt)] } :
          State).setHandler tx (some ⟨event, .processing rest⟩))
      else none
    | .error _ => some (s.setHandler tx (some ⟨event, .failed⟩))
  | _, _ => none

def commit (s : State) (tx : TransactionId) : Option State :=
  match s.handlers tx with
  | some ⟨event, .duplicate⟩ =>
    (Inbox.step s.inbox (.commit tx)).map fun inbox =>
      { s.finish tx inbox with answered := event.idempotencyKey :: s.answered }
  | some ⟨event, .processing []⟩ =>
    (Inbox.step s.inbox (.commit tx)).bind fun inbox =>
      ((s.rowsOf tx).foldlM Outboxy.State.insert s.outbox).map fun outbox =>
        ({ s.finish tx inbox with
          outbox := outbox
          answered := event.idempotencyKey :: s.answered } : State).record
            (.committed event (s.rowsOf tx))
  | _ => none

def rollback (s : State) (tx : TransactionId) : Option State :=
  match s.handlers tx with
  | some _ => (Inbox.step s.inbox (.rollback tx)).map fun inbox => s.finish tx inbox
  | none => none

/-! ### The others -/

def cleanupProcessedInboxEvents (s : State) (retentionDays : ℚ) : Option State :=
  (Inbox.step s.inbox (.cleanupProcessedInboxEvents retentionDays)).map fun inbox =>
    ({ s with inbox := inbox } : State).record
      (.cleaned (s.inbox.table.rows.filter fun row => (inbox.table.lookup row.id).isNone))

/-- The clocks of both tables are that of the database. -/
def outboxStep (s : State) (action : Outboxy.Action) : Option State :=
  match action with
  | .tick _ => none
  | action =>
    (Outboxy.step s.outbox action).bind fun outbox =>
      if ∃ row ∈ outbox.table.rows, ∃ entry ∈ s.written, entry.2.id = row.id then none
      else
        some (({ s with outbox := outbox } : State).record
          (.produced (outbox.table.rows.filter fun row => (s.outbox.table.lookup row.id).isNone)))

end State

/-- One step of the system. -/
def step (consumer : Consumer) (s : State) : Action → Option State
  | .tick micros =>
    some { s with
      inbox := { s.inbox with clock := s.inbox.clock + micros }
      outbox := { s.outbox with clock := s.outbox.clock + micros } }
  | .begin tx event => s.begin tx event
  | .receive tx id => s.receive consumer tx id
  | .publish tx id => s.publish consumer tx id
  | .commit tx => s.commit tx
  | .rollback tx => s.rollback tx
  | .cleanupProcessedInboxEvents retentionDays => s.cleanupProcessedInboxEvents retentionDays
  | .outbox action => s.outboxStep action

/-- The consumer's system, from empty tables. -/
def chain (consumer : Consumer) : Transition.System State Action where
  init s := ∃ clock, s = State.initial clock
  step := step consumer

/-! ## Sample data -/

namespace Sample

open Outboxy.Sample (id otherId received)

/-- For each order, one event is published. -/
def orders : Consumer where
  clients := ⟨Outboxy.Sample.outboxyClient .postgres, Outboxy.Sample.inboxyClient .postgres⟩
  publishes _ := [{ Outboxy.Sample.keyed "" with idempotencyKey := none }]
  unkeyed _ input hinput := by
    obtain rfl := List.mem_singleton.mp hinput
    rfl

/-- An order is delivered twice, and the second handler starts while the first
one is open. -/
def redelivered : List Action :=
  [.begin 0 (received "order-1"), .receive 0 id, .begin 1 (received "order-1"), .publish 0 otherId,
    .commit 0, .receive 1 otherId, .commit 1]

end Sample

end Chain

end Outboxy
