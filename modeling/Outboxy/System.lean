import Outboxy.Library.Transition
import Outboxy.Adapter

/-!
# The outbox at run time

Any number of workers, maintenance schedulers, API servers and producers work
on one table.  Each SQL statement is atomic, and the statements of different
calls interleave freely.

A `Task` is one call in progress: a claim with the batch that it returned, a
stale recovery or a replay.  A task id is used once, so it also names the
claim that the task makes.  The open transaction of a MySQL claim holds row
locks until its commit or until its task ends; a statement that would touch a
locked row waits, which is to say that its step is not enabled.

`history` records what happened.  No step reads it; claims, publishes,
outcome writes, recoveries and replays of the past are read off it.
-/

namespace Outboxy

abbrev TaskId := Nat

/-- A call in progress, by the statement it executed last. -/
inductive Task where
  | idle
  | claimSelected (worker : OutboxWorker) (ids : List EventId)
  | claimUpdated (worker : OutboxWorker) (ids : List EventId) (startedAt : Int)
  | claimCommitted (worker : OutboxWorker) (ids : List EventId)
  | claimed (worker : OutboxWorker) (events : List OutboxEvent)
  | writing (worker : OutboxWorker) (events : List OutboxEvent) (outcome : PublishOutcome)
      (pending : List RepositoryCall)
  | recoverSelected (thresholdMs : Nat) (eventIds : List EventId)
  | replaySelected (id : EventId) (previousStatus : EventStatus)
  | rangeSelected (input : ReplayRangeInput) (eventIds : List EventId)
  | done

inductive HistoryEntry where
  | inserted (id : EventId)
  | claimed (task : TaskId) (ids : List EventId)
  | published (task : TaskId) (worker : OutboxWorker) (events : List OutboxEvent)
      (outcome : PublishOutcome)
  | wrote (task : TaskId) (call : RepositoryCall)
  | recovered (affected : List EventId)
  | replayed (affected : List EventId) (result : Option ReplayEventResult)
  | rangeReplayed (input : ReplayRangeInput) (affected : List EventId)
      (result : ReplayRangeResult)

/-- The entry claims the event. -/
def HistoryEntry.claims (id : EventId) : HistoryEntry → Bool
  | .claimed _ ids => decide (id ∈ ids)
  | _ => false

/-- The entry creates or replays the event, so its deliveries start again. -/
def HistoryEntry.resets (id : EventId) : HistoryEntry → Bool
  | .inserted id' => decide (id' = id)
  | .replayed affected _ => decide (id ∈ affected)
  | .rangeReplayed _ affected _ => decide (id ∈ affected)
  | _ => false

/-- How often the event was claimed since its creation or last replay.  The
newest entry comes first. -/
def claimsSince (id : EventId) : List HistoryEntry → Nat
  | [] => 0
  | entry :: history =>
    if entry.resets id then 0
    else if entry.claims id then claimsSince id history + 1
    else claimsSince id history

structure State (a : Adapter) where
  clock : Int
  table : OutboxTable a
  locks : List (TaskId × EventId)
  tasks : TaskId → Task
  history : List HistoryEntry

/-- The statements of the system, and what else can happen between them. -/
inductive Action where
  /-- Time passes. -/
  | tick (micros : Nat)
  /-- A producer publishes through the SDK. -/
  | publish (id : EventId) (values : InsertValues)
  /-- The API creates an event. -/
  | createEvent (id : EventId) (input : CreateEventInput)
  /-- The application sets `deleted_at`; no code of the repository does. -/
  | softDelete (id : EventId)
  | cleanupStaleIdempotencyKeys (retentionDays : Nat)
  /-- The whole claim on PostgreSQL, its first statement on MySQL. -/
  | claim (task : TaskId) (worker : OutboxWorker) (ids : List EventId)
  | claimUpdate (task : TaskId)
  | claimCommit (task : TaskId)
  | claimReselect (task : TaskId)
  /-- The publisher answers, and the worker issues its repository calls. -/
  | publishBatch (task : TaskId) (outcome : PublishOutcome)
  /-- An issued call executes. -/
  | write (task : TaskId) (index : Nat)
  /-- An issued call fails without an effect. -/
  | writeFails (task : TaskId) (index : Nat)
  /-- The task ends: its process crashes or its call throws. -/
  | crash (task : TaskId)
  /-- The whole stale recovery on PostgreSQL, its `SELECT` on MySQL. -/
  | recover (task : TaskId) (thresholdMs : Nat)
  | recoverUpdate (task : TaskId)
  | replaySelect (task : TaskId) (id : EventId)
  | replayUpdate (task : TaskId)
  | rangeSelect (task : TaskId) (input : ReplayRangeInput) (ids : List EventId)
  | rangeUpdate (task : TaskId)

namespace State

variable {a : Adapter}

/-- The value of `NOW()`. -/
def now (s : State a) : Int := a.now s.clock

/-- An open claim has locked the row.  The transaction of a producer is not in the
state: `publish` locks the row whose key it meets until the caller's `COMMIT`, and
is one step here. -/
def locked (s : State a) (id : EventId) : Bool := s.locks.any fun lock => decide (lock.2 = id)

/-- The status of an event. -/
def status (s : State a) (id : EventId) : Option EventStatus :=
  (s.table.lookup id).map OutboxEvent.status

theorem status_eq_some {s : State a} {id : EventId} {status : EventStatus} :
    s.status id = some status ↔
      ∃ row, s.table.lookup id = some row ∧ row.status = status := by
  simp [State.status]

def setTask (s : State a) (t : TaskId) (task : Task) : State a :=
  { s with tasks := Function.update s.tasks t task }

def record (s : State a) (entry : HistoryEntry) : State a :=
  { s with history := entry :: s.history }

/-- The locks of a task are released when its transaction ends. -/
def unlock (s : State a) (t : TaskId) : State a :=
  { s with locks := s.locks.filter fun lock => decide (lock.1 ≠ t) }

/-- Execute an `UPDATE` outside of a transaction.  It waits for locked rows,
and fails when the unique index rejects it. -/
def execute (s : State a) (u : OutboxUpdate) : Option (State a) :=
  if s.table.rows.any fun row => u.guard row && s.locked row.id then none
  else (s.table.update u).map fun table => { s with table := table }

/-- Insert a new row. -/
def insert (s : State a) (row : OutboxEvent) : Option (State a) :=
  (s.table.insert row).map fun table =>
    ({ s with table := table } : State a).record (.inserted row.id)

@[simp] theorem setTask_table (s : State a) (t : TaskId) (task : Task) :
    (s.setTask t task).table = s.table := rfl

@[simp] theorem setTask_locks (s : State a) (t : TaskId) (task : Task) :
    (s.setTask t task).locks = s.locks := rfl

@[simp] theorem setTask_history (s : State a) (t : TaskId) (task : Task) :
    (s.setTask t task).history = s.history := rfl

@[simp] theorem setTask_tasks_self (s : State a) (t : TaskId) (task : Task) :
    (s.setTask t task).tasks t = task := Function.update_self _ _ _

@[simp] theorem record_table (s : State a) (entry : HistoryEntry) :
    (s.record entry).table = s.table := rfl

@[simp] theorem record_locks (s : State a) (entry : HistoryEntry) :
    (s.record entry).locks = s.locks := rfl

@[simp] theorem record_tasks (s : State a) (entry : HistoryEntry) :
    (s.record entry).tasks = s.tasks := rfl

@[simp] theorem record_history (s : State a) (entry : HistoryEntry) :
    (s.record entry).history = entry :: s.history := rfl

@[simp] theorem unlock_table (s : State a) (t : TaskId) : (s.unlock t).table = s.table := rfl

@[simp] theorem unlock_tasks (s : State a) (t : TaskId) : (s.unlock t).tasks = s.tasks := rfl

@[simp] theorem unlock_history (s : State a) (t : TaskId) :
    (s.unlock t).history = s.history := rfl

/-- An empty table and no calls. -/
def initial (clock : Int) : State a where
  clock := clock
  table := Table.empty
  locks := []
  tasks := fun _ => .idle
  history := []

/-! ### The steps of a claim -/

/-- `claimPendingEvents` on PostgreSQL, and the `SELECT ... FOR UPDATE SKIP
LOCKED` of `claimPendingEvents` on MySQL. -/
def claim (s : State a) (t : TaskId) (worker : OutboxWorker) (ids : List EventId) :
    Option (State a) :=
  match s.tasks t with
  | .idle =>
    if a.ClaimSelection s.table s.locked s.now worker.config.batchSize ids then
      -- Nothing to claim: the worker sleeps, and MySQL rolls back.
      if ids = [] then some (s.setTask t .done)
      else if a = .postgres then
        (s.execute (a.claimPendingEvents s.now ids)).map fun s' =>
          (s'.setTask t (.claimed worker (ids.filterMap s'.table.lookup))).record (.claimed t ids)
      else
        some (({ s with locks := ids.map (fun id => (t, id)) ++ s.locks } : State a).setTask t
          (.claimSelected worker ids))
    else none
  | _ => none

/-- The `UPDATE` in the transaction of a MySQL claim.  Other calls do not see
it before the commit, so only its `NOW()` is kept. -/
def claimUpdate (s : State a) (t : TaskId) : Option (State a) :=
  match s.tasks t with
  | .claimSelected worker ids =>
    if MySQLEventRepository.validateIds ids then
      some (s.setTask t (.claimUpdated worker ids s.now))
    else none
  | _ => none

/-- The `COMMIT` of a MySQL claim. -/
def claimCommit (s : State a) (t : TaskId) : Option (State a) :=
  match s.tasks t with
  | .claimUpdated worker ids startedAt =>
    (s.table.update (a.claimPendingEvents startedAt ids)).map fun table =>
      ((({ s with table := table } : State a).unlock t).setTask t
        (.claimCommitted worker ids)).record (.claimed t ids)
  | _ => none

/-- The `SELECT` after the commit of a MySQL claim. -/
def claimReselect (s : State a) (t : TaskId) : Option (State a) :=
  match s.tasks t with
  | .claimCommitted worker ids =>
    some (s.setTask t (.claimed worker (ids.filterMap s.table.lookup)))
  | _ => none

/-! ### The steps of a batch -/

/-- `executeBatchProcessing` up to the repository calls. -/
def publishBatch (s : State a) (t : TaskId) (outcome : PublishOutcome) : Option (State a) :=
  match s.tasks t with
  | .claimed worker events =>
    let task :=
      match executeBatchProcessing worker events outcome with
      | some calls => .writing worker events outcome calls
      | none => .done
    some ((s.setTask t task).record (.published t worker events outcome))
  | _ => none

/-- One issued repository call executes. -/
def write (s : State a) (t : TaskId) (index : Nat) : Option (State a) :=
  match s.tasks t with
  | .writing worker events outcome pending =>
    match pending[index]? with
    | some call =>
      (a.repositoryUpdate s.now call).bind fun u =>
        (s.execute u).map fun s' =>
          (s'.setTask t (.writing worker events outcome (pending.eraseIdx index))).record
            (.wrote t call)
    | none => none
  | _ => none

/-- One issued repository call is rejected. -/
def writeFails (s : State a) (t : TaskId) (index : Nat) : Option (State a) :=
  match s.tasks t with
  | .writing worker events outcome pending =>
    some (s.setTask t (.writing worker events outcome (pending.eraseIdx index)))
  | _ => none

/-! ### The steps of a stale recovery -/

def recover (s : State a) (t : TaskId) (thresholdMs : Nat) : Option (State a) :=
  match s.tasks t with
  | .idle =>
    if a = .postgres then
      let u := PgMaintenance.recoverStaleEvents s.now thresholdMs
      (s.execute u).map fun s' =>
        (s'.setTask t .done).record (.recovered (s.table.affected u))
    else
      let eventIds := MySQLMaintenance.staleIds s.table s.now thresholdMs
      if eventIds = [] then some (s.setTask t .done)
      else some (s.setTask t (.recoverSelected thresholdMs eventIds))
  | _ => none

def recoverUpdate (s : State a) (t : TaskId) : Option (State a) :=
  match s.tasks t with
  | .recoverSelected _ eventIds =>
    (MySQLMaintenance.recoverStaleEvents s.now eventIds).bind fun u =>
      (s.execute u).map fun s' =>
        (s'.setTask t .done).record (.recovered (s.table.affected u))
  | _ => none

/-! ### The steps of a replay -/

def replaySelect (s : State a) (t : TaskId) (id : EventId) : Option (State a) :=
  match s.tasks t with
  | .idle =>
    match selectReplayStatus s.table id with
    | some previousStatus =>
      if replayableStatus previousStatus then some (s.setTask t (.replaySelected id previousStatus))
      else some (s.setTask t .done)
    | none => some (s.setTask t .done)
  | _ => none

/-- `replayEvent` returns its result when its `UPDATE` touched a row, and
`null` otherwise. -/
def replayResult (s : State a) (id : EventId) (previousStatus : EventStatus)
    (affected : List EventId) : Option ReplayEventResult :=
  if affected = [] then none else some ⟨id, previousStatus, .pending, s.clock⟩

def replayUpdate (s : State a) (t : TaskId) : Option (State a) :=
  match s.tasks t with
  | .replaySelected id previousStatus =>
    let u := a.replayEvent s.now id
    (s.execute u).map fun s' =>
      (s'.setTask t .done).record
        (.replayed (s.table.affected u) (s.replayResult id previousStatus (s.table.affected u)))
  | _ => none

def rangeSelect (s : State a) (t : TaskId) (input : ReplayRangeInput) (ids : List EventId) :
    Option (State a) :=
  match s.tasks t with
  | .idle =>
    if s.table.IsSelection (a.inReplayRange input) input.requestedLimit ids then
      if ids = [] then some (s.setTask t .done)
      else some (s.setTask t (.rangeSelected input ids))
    else none
  | _ => none

def rangeUpdate (s : State a) (t : TaskId) : Option (State a) :=
  match s.tasks t with
  | .rangeSelected input eventIds =>
    let u := a.replayEventsInRange s.now eventIds
    (s.execute u).map fun s' =>
      (s'.setTask t .done).record
        (.rangeReplayed input (s.table.affected u)
          (a.replayRangeResult eventIds (s.table.affected u)))
  | _ => none

/-! ### Inserts -/

/-- The `INSERT` of `publish`, and the `COMMIT` of its caller.  Generated ids are
UUIDs. -/
def publish (s : State a) (id : EventId) (values : InsertValues) : Option (State a) :=
  if isUuid id then
    match s.table.conflict (values.row id s.now) with
    | some existing => s.execute (a.onConflict s.now existing.id)
    | none => s.insert (values.row id s.now)
  else none

def createEvent (s : State a) (id : EventId) (input : CreateEventInput) : Option (State a) :=
  if isUuid id then s.insert (a.createEvent s.clock id input) else none

/-- The application deletes an event softly. -/
def softDelete (s : State a) (id : EventId) : Option (State a) :=
  s.execute
    { guard := fun row => decide (row.id = id)
      assign := fun row => { row with deletedAt := some s.now }
      assign_pk := fun _ => rfl }

end State

/-- One step of the system. -/
def step {a : Adapter} (s : State a) : Action → Option (State a)
  | .tick micros => some { s with clock := s.clock + micros }
  | .publish id values => s.publish id values
  | .createEvent id input => s.createEvent id input
  | .softDelete id => s.softDelete id
  | .cleanupStaleIdempotencyKeys retentionDays =>
    s.execute (cleanupStaleIdempotencyKeys s.now retentionDays)
  | .claim t worker ids => s.claim t worker ids
  | .claimUpdate t => s.claimUpdate t
  | .claimCommit t => s.claimCommit t
  | .claimReselect t => s.claimReselect t
  | .publishBatch t outcome => s.publishBatch t outcome
  | .write t index => s.write t index
  | .writeFails t index => s.writeFails t index
  | .crash t => some ((s.unlock t).setTask t .done)
  | .recover t thresholdMs => s.recover t thresholdMs
  | .recoverUpdate t => s.recoverUpdate t
  | .replaySelect t id => s.replaySelect t id
  | .replayUpdate t => s.replayUpdate t
  | .rangeSelect t input ids => s.rangeSelect t input ids
  | .rangeUpdate t => s.rangeUpdate t

/-- The outbox over an adapter, from an empty table. -/
def outbox (a : Adapter) : Transition.System (State a) Action where
  init s := ∃ clock, s = State.initial clock
  step := step

theorem reachable_initial (a : Adapter) (clock : Int) :
    (outbox a).Reachable (State.initial clock) := .init ⟨clock, rfl⟩

/-! ## Sample data

Values for runs that can be evaluated. -/

namespace Sample

def id : EventId := "0b4c3a60-7a0d-4b57-b6f7-0a4a0b2b9a10"

def otherId : EventId := "5f0e7b1c-2d43-4c8e-9a51-3e6d8c7f2b04"

def values (maxRetries : Int) : InsertValues where
  aggregateType := "order"
  aggregateId := "1"
  eventType := "created"
  eventVersion := 1
  payload := .null
  headers := .obj []
  destinationUrl := "http://localhost"
  destinationType := .http
  idempotencyKey := none
  maxRetries := maxRetries
  metadata := .obj []

/-- An event that the API creates. -/
def input (maxRetries : Int) : CreateEventInput where
  aggregateType := "order"
  aggregateId := "1"
  eventType := "created"
  eventVersion := none
  payload := .obj []
  headers := none
  destinationUrl := "http://localhost"
  destinationType := none
  idempotencyKey := none
  maxRetries := some maxRetries
  metadata := none

def worker : OutboxWorker := ⟨{}, "worker-1", none⟩

/-- The worker with metrics. -/
def measured : OutboxWorker := { worker with metrics := some .asDocumented }

theorem documented_measured : ∀ metrics ∈ measured.metrics, metrics.Documented := by
  intro metrics h
  obtain rfl := Option.some.inj h
  exact WorkerMetrics.documented_asDocumented

/-- The publisher answers for some events, and calls its failures
retryable. -/
def answers (results : List (EventId × Bool)) : PublishOutcome :=
  .returned (OrderedMap.ofList Prod.fst (fun result => ⟨result.2, .nullish, true, none⟩) results)

/-- On PostgreSQL, a worker fails to publish and is slow to say so.  Meanwhile
its claim is recovered, and a second worker claims the event. -/
def superseded : List Action :=
  [.publish id (values 5), .claim 0 worker [id], .publishBatch 0 (answers [(id, false)]),
    .tick 600000000, .recover 1 300000, .tick 2000000, .claim 2 worker [id]]

end Sample

end Outboxy
