import Outboxy.Postgres
import Outboxy.Mysql
import Outboxy.Worker

/-!
# One interface over the two adapters

Each operation of the adapter interfaces, dispatched on the adapter, and the
facts about its statements that hold on both databases.  A later proof uses
these facts and does not look inside a statement again.

* `readCall` is what the methods of the repositories read of the messages that
  the worker passes on.
* `repositoryUpdate_guard` and `repositoryUpdate_assign` say which rows an
  outcome write touches and what it makes of them.
* `KeepsDelivery` is what the statements outside of the delivery pipeline
  keep of a row.
* The remaining lemmas are the guards and assignments of the claim, of the
  recovery and of the replays.
-/

namespace Outboxy

namespace Adapter

variable (a : Adapter)

/-- The `WHERE` of a claim. -/
def claimable (now : Int) (row : OutboxEvent) : Bool :=
  match a with
  | .postgres => PgEventRepository.claimable now row
  | .mysql => MySQLEventRepository.claimable now row

/-- The ids that the `SELECT` of a claim may return. -/
def ClaimSelection (table : OutboxTable a) (locked : EventId → Bool) (now : Int)
    (batchSize : Nat) (ids : List EventId) : Prop :=
  match a with
  | .postgres => PgEventRepository.ClaimSelection table locked now batchSize ids
  | .mysql => MySQLEventRepository.ClaimSelection table locked now batchSize ids

instance (table : OutboxTable a) (locked : EventId → Bool) (now : Int) (batchSize : Nat)
    (ids : List EventId) : Decidable (a.ClaimSelection table locked now batchSize ids) := by
  unfold ClaimSelection
  split <;> infer_instance

/-- The `UPDATE` of a claim. -/
def claimPendingEvents (now : Int) (ids : List EventId) : OutboxUpdate :=
  match a with
  | .postgres => PgEventRepository.claimPendingEvents now ids
  | .mysql => MySQLEventRepository.claimPendingEvents now ids

def getPendingEventCount (table : OutboxTable a) (now : Int) : Nat :=
  match a with
  | .postgres => PgEventRepository.getPendingEventCount table now
  | .mysql => MySQLEventRepository.getPendingEventCount table now

/-- The text that a message is cut as, `none` when it has no `substring` and the
method throws.  The `??` of PostgreSQL keeps such a message, the `||` of MySQL
keeps it if it is truthy, and puts the fallback in its place otherwise, as it
does for the empty text. -/
def readMessage : ErrorMessage → Option String
  | .text message => some message
  | .other truthy =>
    match a with
    | .postgres => none
    | .mysql => if truthy then none else some ""

/-- The messages of the listed events are read. -/
def readMessages (eventIds : List EventId) (errorMessages : OrderedMap EventId ErrorMessage) :
    Option (OrderedMap EventId String) :=
  if eventIds.all fun id =>
      (errorMessages.get? id).all fun message => (a.readMessage message).isSome then
    some (errorMessages.mapValues fun message => (a.readMessage message).getD "")
  else none

/-- The call with the texts that its method reads. -/
def readCall : RepositoryCall → Option (RepositoryCall String)
  | .markSucceeded results => some (.markSucceeded results)
  | .scheduleRetry eventIds errorMessages config =>
    (a.readMessages eventIds errorMessages).map fun texts => .scheduleRetry eventIds texts config
  | .moveToDLQ eventIds errorMessages =>
    (a.readMessages eventIds errorMessages).map fun texts => .moveToDLQ eventIds texts

/-- The statement of an outcome write, `none` when the method refuses the ids. -/
def outcomeUpdate (now : Int) (call : RepositoryCall String) : Option OutboxUpdate :=
  match a, call with
  | .postgres, .markSucceeded results => some (PgEventRepository.markSucceeded now results)
  | .postgres, .scheduleRetry eventIds errorMessages config =>
    some (PgEventRepository.scheduleRetry now eventIds errorMessages config)
  | .postgres, .moveToDLQ eventIds errorMessages =>
    some (PgEventRepository.moveToDLQ now eventIds errorMessages)
  | .mysql, .markSucceeded results => MySQLEventRepository.markSucceeded now results
  | .mysql, .scheduleRetry eventIds errorMessages config =>
    MySQLEventRepository.scheduleRetry now eventIds errorMessages config
  | .mysql, .moveToDLQ eventIds errorMessages =>
    MySQLEventRepository.moveToDLQ now eventIds errorMessages

/-- The statement of a call that the worker issues, `none` when the method
throws before it. -/
def repositoryUpdate (now : Int) (call : RepositoryCall) : Option OutboxUpdate :=
  (a.readCall call).bind (a.outcomeUpdate now)

/-- The row that `createEvent` inserts. -/
def createEvent (clock : Int) (id : EventId) (input : CreateEventInput) : OutboxEvent :=
  match a with
  | .postgres => PgEventService.createEvent (Adapter.postgres.now clock) id input
  | .mysql => MySQLEventService.createEvent clock id input

/-- What the `INSERT` of `publish` does to the row that is in the way. -/
def onConflict (now : Int) (existing : EventId) : OutboxUpdate :=
  match a with
  | .postgres => PostgreSqlDialect.onConflict existing
  | .mysql => MySqlDialect.onDuplicateKey now existing

def replayEvent (now : Int) (id : EventId) : OutboxUpdate :=
  match a with
  | .postgres => PgEventService.replayEvent now id
  | .mysql => MySQLEventService.replayEvent now id

def inReplayRange (input : ReplayRangeInput) (row : OutboxEvent) : Bool :=
  match a with
  | .postgres => PgEventService.inReplayRange input row
  | .mysql => MySQLEventService.inReplayRange input row

def replayEventsInRange (now : Int) (eventIds : List EventId) : OutboxUpdate :=
  match a with
  | .postgres => PgEventService.replayEventsInRange now eventIds
  | .mysql => MySQLEventService.replayEventsInRange now eventIds

def replayRangeResult (selected affected : List EventId) : ReplayRangeResult :=
  match a with
  | .postgres => PgEventService.replayRangeResult selected affected
  | .mysql => MySQLEventService.replayRangeResult selected affected

end Adapter

/-! ## Claims -/

namespace Adapter

variable {a : Adapter}

@[simp] theorem claimPendingEvents_guard (now : Int) (ids : List EventId) :
    (a.claimPendingEvents now ids).guard = idIn ids := by
  cases a <;> rfl

@[simp] theorem claimPendingEvents_assign (now : Int) (ids : List EventId) :
    (a.claimPendingEvents now ids).assign = claimRow now := by
  cases a <;> rfl

/-- A claimable row waits for delivery and is not deleted. -/
theorem status_of_claimable {now : Int} {row : OutboxEvent} (h : a.claimable now row = true) :
    (row.status = .pending ∨ row.status = .failed) ∧ row.deletedAt = none := by
  cases a with
  | postgres =>
    simp only [claimable, PgEventRepository.claimable, Bool.and_eq_true, Bool.or_eq_true,
      decide_eq_true_eq] at h
    exact ⟨h.1.1, h.2⟩
  | mysql =>
    simp only [claimable, MySQLEventRepository.claimable, Bool.and_eq_true, Bool.or_eq_true,
      decide_eq_true_eq] at h
    exact ⟨h.1.imp id And.left, h.2⟩

theorem ClaimSelection.isSelection {table : OutboxTable a} {locked : EventId → Bool} {now : Int}
    {batchSize : Nat} {ids : List EventId}
    (h : a.ClaimSelection table locked now batchSize ids) :
    table.IsSelection (fun row => a.claimable now row && !locked row.id) batchSize ids := by
  cases a with
  | postgres => exact h.1
  | mysql => exact h

theorem getPendingEventCount_eq (table : OutboxTable a) (now : Int) :
    a.getPendingEventCount table now = table.rows.countP (a.claimable now) := by
  cases a <;> rfl

end Adapter

/-! ## Outcome writes -/

namespace RepositoryCall

variable {Message : Type}

/-- The status that a call writes. -/
def status : RepositoryCall Message → EventStatus
  | .markSucceeded _ => .succeeded
  | .scheduleRetry _ _ _ => .failed
  | .moveToDLQ _ _ => .dlq

/-- What the `WHERE` of a call asks of a listed row: a retry must be left. -/
def admits : RepositoryCall Message → OutboxEvent → Prop
  | .scheduleRetry _ _ _, row => (row.retryCount : Int) < row.maxRetries
  | _, _ => True

instance (call : RepositoryCall Message) (row : OutboxEvent) : Decidable (call.admits row) := by
  cases call <;> unfold admits <;> infer_instance

/-- What a call makes of a row it touches. -/
structure Effect (call : RepositoryCall Message) (row row' : OutboxEvent) : Prop where
  status : row'.status = call.status
  retryCount : row'.retryCount =
    if call.decision = .retry then row.retryCount + 1 else row.retryCount
  nextRetryAt : if call.decision = .retry then row'.nextRetryAt.isSome
    else row'.nextRetryAt = row.nextRetryAt
  maxRetries : row'.maxRetries = row.maxRetries
  deletedAt : row'.deletedAt = row.deletedAt

/-- A call with other messages. -/
structure SameButMessages {Message' : Type} (call : RepositoryCall Message)
    (call' : RepositoryCall Message') : Prop where
  ids : call'.ids = call.ids
  decision : call'.decision = call.decision
  status : call'.status = call.status
  admits : ∀ row, call'.admits row ↔ call.admits row

theorem SameButMessages.effect {Message' : Type} {call : RepositoryCall Message}
    {call' : RepositoryCall Message'} (h : SameButMessages call call') {row row' : OutboxEvent}
    (heffect : call'.Effect row row') : call.Effect row row' := by
  obtain ⟨hstatus, hcount, hnext, hmax, hdeleted⟩ := heffect
  rw [h.decision] at hcount hnext
  exact ⟨hstatus.trans h.status, hcount, hnext, hmax, hdeleted⟩

end RepositoryCall

/-- Reading its messages changes nothing else of a call. -/
theorem sameButMessages_readCall {a : Adapter} {call : RepositoryCall}
    {texts : RepositoryCall String} (h : a.readCall call = some texts) :
    call.SameButMessages texts := by
  cases call with
  | markSucceeded results =>
    obtain rfl := Option.some.inj h
    exact ⟨rfl, rfl, rfl, fun _ => Iff.rfl⟩
  | scheduleRetry eventIds errorMessages config =>
    obtain ⟨_, -, rfl⟩ := Option.map_eq_some_iff.mp h
    exact ⟨rfl, rfl, rfl, fun _ => Iff.rfl⟩
  | moveToDLQ eventIds errorMessages =>
    obtain ⟨_, -, rfl⟩ := Option.map_eq_some_iff.mp h
    exact ⟨rfl, rfl, rfl, fun _ => Iff.rfl⟩

section OutcomeUpdate

variable {a : Adapter} {now : Int} {call : RepositoryCall String} {u : OutboxUpdate}

/-- With valid ids a call has a statement. -/
theorem exists_outcomeUpdate (a : Adapter) (now : Int)
    (hvalid : MySQLEventRepository.validateIds call.ids = true) :
    ∃ u, a.outcomeUpdate now call = some u := by
  cases a with
  | postgres => cases call <;> exact ⟨_, rfl⟩
  | mysql => cases call <;> exact ⟨_, if_pos hvalid⟩

/-- The rows that the statement touches: the listed ones that the call admits. -/
theorem outcomeUpdate_guard (h : a.outcomeUpdate now call = some u) (row : OutboxEvent) :
    u.guard row = true ↔ row.id ∈ call.ids ∧ call.admits row := by
  cases a <;> cases call <;>
    simp only [Adapter.outcomeUpdate, MySQLEventRepository.markSucceeded,
      MySQLEventRepository.scheduleRetry, MySQLEventRepository.moveToDLQ,
      Option.ite_none_right_eq_some, Option.some.injEq] at h
  all_goals
    first
    | obtain rfl := h
    | obtain ⟨_, rfl⟩ := h
    simp [PgEventRepository.markSucceeded, PgEventRepository.scheduleRetry,
      PgEventRepository.moveToDLQ, RepositoryCall.ids, RepositoryCall.admits]

/-- What the statement makes of a row it touches. -/
theorem outcomeUpdate_assign (h : a.outcomeUpdate now call = some u) (row : OutboxEvent) :
    call.Effect row (u.assign row) := by
  cases a <;> cases call <;>
    simp only [Adapter.outcomeUpdate, MySQLEventRepository.markSucceeded,
      MySQLEventRepository.scheduleRetry, MySQLEventRepository.moveToDLQ,
      Option.ite_none_right_eq_some, Option.some.injEq] at h
  all_goals
    first
    | obtain rfl := h
    | obtain ⟨_, rfl⟩ := h
    constructor <;>
      simp [PgEventRepository.markSucceeded, PgEventRepository.scheduleRetry,
        PgEventRepository.moveToDLQ, succeedRow, RepositoryCall.status, RepositoryCall.decision]

end OutcomeUpdate

section RepositoryUpdate

variable {a : Adapter} {now : Int} {call : RepositoryCall} {u : OutboxUpdate}

/-- The rows that an outcome write touches: the listed ones that it admits. -/
theorem repositoryUpdate_guard (h : a.repositoryUpdate now call = some u) (row : OutboxEvent) :
    u.guard row = true ↔ row.id ∈ call.ids ∧ call.admits row := by
  obtain ⟨texts, hread, hupdate⟩ := Option.bind_eq_some_iff.mp h
  have hsame := sameButMessages_readCall hread
  rw [outcomeUpdate_guard hupdate, hsame.ids, hsame.admits]

/-- What an outcome write makes of a row it touches. -/
theorem repositoryUpdate_assign (h : a.repositoryUpdate now call = some u) (row : OutboxEvent) :
    call.Effect row (u.assign row) := by
  obtain ⟨texts, hread, hupdate⟩ := Option.bind_eq_some_iff.mp h
  exact (sameButMessages_readCall hread).effect (outcomeUpdate_assign hupdate row)

end RepositoryUpdate

/-! ## Recoveries and replays -/

theorem MySQLMaintenance.recoverStaleEvents_eq_some {now : Int} {eventIds : List EventId}
    {u : OutboxUpdate} (h : MySQLMaintenance.recoverStaleEvents now eventIds = some u) :
    u.guard = idIn eventIds ∧ u.assign = recoverRow now := by
  unfold MySQLMaintenance.recoverStaleEvents at h
  split at h
  · obtain rfl := Option.some.inj h
    exact ⟨rfl, rfl⟩
  · exact absurd h (by simp)

/-- The `WHERE` of the atomic recovery. -/
theorem PgMaintenance.stale_iff {now : Int} {thresholdMs : Nat} {row : OutboxEvent} :
    PgMaintenance.stale now thresholdMs row = true ↔
      row.status = .processing ∧
        sqlLt row.processingStartedAt (now - thresholdMs * Time.millisecond) = true ∧
        (row.retryCount : Int) < row.maxRetries := by
  simp [PgMaintenance.stale, and_assoc]

theorem MySQLMaintenance.stale_iff {now : Int} {thresholdMs : Nat} {row : OutboxEvent} :
    MySQLMaintenance.stale now thresholdMs row = true ↔
      row.status = .processing ∧
        sqlLt row.processingStartedAt
          (now - MySQLMaintenance.thresholdSeconds thresholdMs * Time.second) = true ∧
        (row.retryCount : Int) < row.maxRetries := by
  simp [MySQLMaintenance.stale, and_assoc]

/-- What the MySQL `SELECT` finds stale, the atomic recovery finds stale. -/
theorem PgMaintenance.stale_of_mysql_stale {now : Int} {thresholdMs : Nat} {row : OutboxEvent}
    (h : MySQLMaintenance.stale now thresholdMs row = true) :
    PgMaintenance.stale now thresholdMs row = true := by
  simp only [MySQLMaintenance.stale, Bool.and_eq_true, decide_eq_true_eq] at h
  refine PgMaintenance.stale_iff.mpr ⟨h.1.1, ?_, h.2⟩
  cases hstarted : row.processingStartedAt with
  | none =>
    rw [hstarted] at h
    exact absurd h.1.2 (by simp)
  | some started =>
    rw [hstarted, sqlLt_some, decide_eq_true_eq] at h
    rw [sqlLt_some, decide_eq_true_eq]
    have hround : thresholdMs ≤ MySQLMaintenance.thresholdSeconds thresholdMs * 1000 := by
      unfold MySQLMaintenance.thresholdSeconds
      omega
    have hlt := h.1.2
    unfold Time.second at hlt
    unfold Time.millisecond
    omega

namespace Adapter

variable {a : Adapter}

@[simp] theorem replayEvent_guard (now : Int) (id : EventId) :
    (a.replayEvent now id).guard = replayGuard id := by
  cases a <;> rfl

@[simp] theorem replayEvent_assign (now : Int) (id : EventId) :
    (a.replayEvent now id).assign = replayRow now := by
  cases a <;> rfl

@[simp] theorem replayEventsInRange_guard (now : Int) (ids : List EventId) :
    (a.replayEventsInRange now ids).guard = idIn ids := by
  cases a <;> rfl

@[simp] theorem replayEventsInRange_assign (now : Int) (ids : List EventId) :
    (a.replayEventsInRange now ids).assign = replayRow now := by
  cases a <;> rfl

/-- A row in the range of a replay has the requested status and is not
deleted. -/
theorem status_of_inReplayRange {input : ReplayRangeInput} {row : OutboxEvent}
    (h : a.inReplayRange input row = true) :
    row.status = input.requestedStatus ∧ row.deletedAt = none := by
  cases a <;>
    simp only [inReplayRange, PgEventService.inReplayRange, MySQLEventService.inReplayRange,
      Bool.and_eq_true, decide_eq_true_eq] at h <;>
    exact ⟨h.1.1.1.1, h.1.2⟩

end Adapter

theorem replayGuard_iff {id : EventId} {row : OutboxEvent} :
    replayGuard id row = true ↔
      row.id = id ∧ (row.status = .failed ∨ row.status = .dlq) ∧ row.deletedAt = none := by
  simp [replayGuard, replayableStatus, and_assoc]

/-! ## The other statements -/

/-- What decides about the delivery of a row, apart from its deletion. -/
structure KeepsDelivery (row row' : OutboxEvent) : Prop where
  status : row'.status = row.status
  retryCount : row'.retryCount = row.retryCount
  maxRetries : row'.maxRetries = row.maxRetries
  nextRetryAt : row'.nextRetryAt = row.nextRetryAt
  processingStartedAt : row'.processingStartedAt = row.processingStartedAt

theorem KeepsDelivery.refl (row : OutboxEvent) : KeepsDelivery row row :=
  ⟨rfl, rfl, rfl, rfl, rfl⟩

theorem keepsDelivery_onConflict (a : Adapter) (now : Int) (existing : EventId)
    (row : OutboxEvent) : KeepsDelivery row ((a.onConflict now existing).assign row) := by
  cases a <;> exact ⟨rfl, rfl, rfl, rfl, rfl⟩

theorem keepsDelivery_cleanup (now : Int) (retentionDays : Nat) (row : OutboxEvent) :
    KeepsDelivery row ((cleanupStaleIdempotencyKeys now retentionDays).assign row) :=
  ⟨rfl, rfl, rfl, rfl, rfl⟩

@[simp] theorem createEvent_status (a : Adapter) (clock : Int) (id : EventId)
    (input : CreateEventInput) : (a.createEvent clock id input).status = .pending := by
  cases a <;> rfl

@[simp] theorem createEvent_retryCount (a : Adapter) (clock : Int) (id : EventId)
    (input : CreateEventInput) : (a.createEvent clock id input).retryCount = 0 := by
  cases a <;> rfl

@[simp] theorem createEvent_nextRetryAt (a : Adapter) (clock : Int) (id : EventId)
    (input : CreateEventInput) : (a.createEvent clock id input).nextRetryAt = none := by
  cases a <;> rfl

@[simp] theorem createEvent_id (a : Adapter) (clock : Int) (id : EventId)
    (input : CreateEventInput) : (a.createEvent clock id input).id = id := by
  cases a <;> rfl

end Outboxy
