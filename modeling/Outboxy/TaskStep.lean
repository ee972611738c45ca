import Outboxy.Steps

/-!
# What a step does to a call in progress

`TaskStep` lists the ways in which a step can move a call on, with everything
that the step has checked, and `task_step` says that there is no other way.
The invariants about calls, batches and locks are derived from it.
-/

namespace Outboxy

variable {a : Adapter} {s s' : State a}

/-- The rows that the open transaction of a call has locked. -/
def Task.lockedIds : Task → List EventId
  | .claimSelected _ ids => ids
  | .claimUpdated _ ids _ => ids
  | _ => []

/-- How a step from `s` to `s'` can move the call `t` on. -/
inductive TaskStep (s : State a) (act : Action) (s' : State a) (t : TaskId) : Task → Task → Prop
  /-- The step is not one of this call. -/
  | kept {task : Task} (hact : act.task? ≠ some t)
      (hlocks : ∀ id, (t, id) ∈ s'.locks ↔ (t, id) ∈ s.locks) : TaskStep s act s' t task task
  /-- The call ends.  Its process may have crashed in an open transaction. -/
  | ended {task : Task} (hact : act.task? = some t) (hwrite : ∀ index, act ≠ .write t index)
      (hlocks : (∀ id, (t, id) ∉ s'.locks) ∨ s'.locks = s.locks ∧ task.lockedIds = []) :
      TaskStep s act s' t task .done
  /-- MySQL locks the rows of a claim. -/
  | selected (worker : OutboxWorker) (ids : List EventId) (hact : act = .claim t worker ids)
      (ha : a ≠ .postgres)
      (hselection : a.ClaimSelection s.table s.locked s.now worker.config.batchSize ids)
      (htable : s'.table = s.table)
      (hlocks : s'.locks = ids.map (fun id => (t, id)) ++ s.locks) :
      TaskStep s act s' t .idle (.claimSelected worker ids)
  /-- PostgreSQL claims. -/
  | claimed (worker : OutboxWorker) (ids : List EventId) (hact : act = .claim t worker ids)
      (ha : a = .postgres)
      (hselection : a.ClaimSelection s.table s.locked s.now worker.config.batchSize ids)
      (hrows : ∀ id ∈ ids, ∀ row, s.table.lookup id = some row →
        s'.table.lookup id = some (claimRow s.now row))
      (hlocks : s'.locks = s.locks) (hhistory : s'.history = .claimed t ids :: s.history) :
      TaskStep s act s' t .idle (.claimed worker (ids.filterMap s'.table.lookup))
  /-- The `UPDATE` of a MySQL claim. -/
  | updated (worker : OutboxWorker) (ids : List EventId) (hact : act = .claimUpdate t)
      (hlocks : s'.locks = s.locks) :
      TaskStep s act s' t (.claimSelected worker ids) (.claimUpdated worker ids s.now)
  /-- The `COMMIT` of a MySQL claim. -/
  | committed (worker : OutboxWorker) (ids : List EventId) (startedAt : Int)
      (hact : act = .claimCommit t)
      (hrows : ∀ id ∈ ids, ∀ row, s.table.lookup id = some row →
        s'.table.lookup id = some (claimRow startedAt row))
      (hlocks : ∀ id, (t, id) ∉ s'.locks)
      (hhistory : s'.history = .claimed t ids :: s.history) :
      TaskStep s act s' t (.claimUpdated worker ids startedAt) (.claimCommitted worker ids)
  /-- The last `SELECT` of a MySQL claim. -/
  | reselected (worker : OutboxWorker) (ids : List EventId) (hact : act = .claimReselect t)
      (htable : s'.table = s.table) (hlocks : s'.locks = s.locks) :
      TaskStep s act s' t (.claimCommitted worker ids)
        (.claimed worker (ids.filterMap s'.table.lookup))
  /-- The publisher answers. -/
  | published (worker : OutboxWorker) (events : List OutboxEvent) (outcome : PublishOutcome)
      (calls : List RepositoryCall) (hact : act = .publishBatch t outcome)
      (hcalls : executeBatchProcessing worker events outcome = some calls)
      (htable : s'.table = s.table) (hlocks : s'.locks = s.locks)
      (hhistory : s'.history = .published t worker events outcome :: s.history) :
      TaskStep s act s' t (.claimed worker events) (.writing worker events outcome calls)
  /-- An outcome write executes. -/
  | wrote (worker : OutboxWorker) (events : List OutboxEvent) (outcome : PublishOutcome)
      (pending : List RepositoryCall) (index : Nat) (call : RepositoryCall)
      (hact : act = .write t index) (hcall : pending[index]? = some call)
      (hlocks : s'.locks = s.locks) (hhistory : s'.history = .wrote t call :: s.history) :
      TaskStep s act s' t (.writing worker events outcome pending)
        (.writing worker events outcome (pending.eraseIdx index))
  /-- An outcome write is rejected. -/
  | writeFailed (worker : OutboxWorker) (events : List OutboxEvent) (outcome : PublishOutcome)
      (pending : List RepositoryCall) (index : Nat) (hact : act = .writeFails t index)
      (hlocks : s'.locks = s.locks) (hhistory : s'.history = s.history) :
      TaskStep s act s' t (.writing worker events outcome pending)
        (.writing worker events outcome (pending.eraseIdx index))
  /-- A MySQL recovery has read its ids. -/
  | recoverSelected (thresholdMs : Nat) (hact : act = .recover t thresholdMs)
      (ha : a ≠ .postgres) (htable : s'.table = s.table) (hlocks : s'.locks = s.locks) :
      TaskStep s act s' t .idle
        (.recoverSelected thresholdMs (MySQLMaintenance.staleIds s.table s.now thresholdMs))
  /-- A replay has read the status of its row. -/
  | replaySelected (id : EventId) (row : OutboxEvent) (hact : act = .replaySelect t id)
      (hrow : s.table.lookup id = some row) (hlocks : s'.locks = s.locks) :
      TaskStep s act s' t .idle (.replaySelected id row.status)
  /-- A range replay has read its ids. -/
  | rangeSelected (input : ReplayRangeInput) (ids : List EventId)
      (hact : act = .rangeSelect t input ids)
      (hselection : s.table.IsSelection (a.inReplayRange input) input.requestedLimit ids)
      (htable : s'.table = s.table) (hlocks : s'.locks = s.locks) :
      TaskStep s act s' t .idle (.rangeSelected input ids)

/-- The `UPDATE` of a claim touches the rows it names. -/
private theorem lookup_of_claimPendingEvents {startedAt : Int} {ids : List EventId}
    {table : OutboxTable a}
    (htable : s.table.update (a.claimPendingEvents startedAt ids) = some table) :
    ∀ id ∈ ids, ∀ row, s.table.lookup id = some row →
      table.lookup id = some (claimRow startedAt row) := by
  intro id hid row hrow
  have hguard : (a.claimPendingEvents startedAt ids).guard row = true := by
    rw [Adapter.claimPendingEvents_guard, idIn_eq_true, Table.pk_of_lookup hrow]
    exact hid
  rw [Table.lookup_update_of_guard htable hrow hguard, Adapter.claimPendingEvents_assign]

/-- What a step does to a call. -/
theorem task_step {act : Action} (h : step s act = some s') (t : TaskId) :
    TaskStep s act s' t (s.tasks t) (s'.tasks t) := by
  by_cases hact : act.task? = some t
  case neg =>
    rw [(frame_step h).tasks t hact]
    exact .kept hact fun id => (frame_step h).locks t id hact
  cases act with
  | tick micros => exact absurd hact (by simp [Action.task?])
  | publish id values => exact absurd hact (by simp [Action.task?])
  | createEvent id input => exact absurd hact (by simp [Action.task?])
  | softDelete id => exact absurd hact (by simp [Action.task?])
  | cleanupStaleIdempotencyKeys retentionDays => exact absurd hact (by simp [Action.task?])
  | claim t' worker ids =>
    obtain rfl : t' = t := Option.some.inj hact
    rcases claim_cases h with
      ⟨htask, hselection, ⟨_, rfl⟩ | ⟨_, ha, table, htable, rfl⟩ | ⟨_, ha, rfl⟩⟩ <;>
      rw [htask]
    · simpa using .ended hact (by simp) (Or.inr ⟨rfl, rfl⟩)
    · simpa using .claimed worker ids rfl ha hselection (lookup_of_claimPendingEvents htable)
        rfl rfl
    · simpa using .selected worker ids rfl ha hselection rfl rfl
  | claimUpdate t' =>
    obtain rfl : t' = t := Option.some.inj hact
    obtain ⟨worker, ids, htask, rfl⟩ := claimUpdate_cases h
    rw [htask]
    simpa using .updated worker ids rfl rfl
  | claimCommit t' =>
    obtain rfl : t' = t := Option.some.inj hact
    obtain ⟨worker, ids, startedAt, table, htask, htable, rfl⟩ := claimCommit_cases h
    rw [htask]
    simpa using .committed worker ids startedAt rfl (lookup_of_claimPendingEvents htable)
      (by simp [State.unlock]) rfl
  | claimReselect t' =>
    obtain rfl : t' = t := Option.some.inj hact
    obtain ⟨worker, ids, htask, rfl⟩ := claimReselect_cases h
    rw [htask]
    simpa using .reselected worker ids rfl rfl rfl
  | publishBatch t' outcome =>
    obtain rfl : t' = t := Option.some.inj hact
    rcases publishBatch_cases h with ⟨worker, events, htask, ⟨calls, hcalls, rfl⟩ | ⟨_, rfl⟩⟩ <;>
      rw [htask]
    · simpa using .published worker events outcome calls rfl hcalls rfl rfl rfl
    · simpa using .ended hact (by simp) (Or.inr ⟨rfl, rfl⟩)
  | write t' index =>
    obtain rfl : t' = t := Option.some.inj hact
    obtain ⟨worker, events, outcome, pending, call, _, _, htask, hcall, _, _, _, rfl⟩ :=
      write_cases h
    rw [htask]
    simpa using .wrote worker events outcome pending index call rfl hcall rfl rfl
  | writeFails t' index =>
    obtain rfl : t' = t := Option.some.inj hact
    obtain ⟨worker, events, outcome, pending, htask, rfl⟩ := writeFails_cases h
    rw [htask]
    simpa using .writeFailed worker events outcome pending index rfl rfl rfl
  | crash t' =>
    obtain rfl : t' = t := Option.some.inj hact
    obtain rfl := Option.some.inj h
    simpa using .ended hact (by simp) (Or.inl (by simp [State.unlock]))
  | recover t' thresholdMs =>
    obtain rfl : t' = t := Option.some.inj hact
    rcases recover_cases h with ⟨htask, ⟨_, table, _, _, rfl⟩ | ⟨ha, rfl | rfl⟩⟩ <;>
      rw [htask]
    · simpa using .ended hact (by simp) (Or.inr ⟨rfl, rfl⟩)
    · simpa using .ended hact (by simp) (Or.inr ⟨rfl, rfl⟩)
    · simpa using .recoverSelected thresholdMs rfl ha rfl rfl
  | recoverUpdate t' =>
    obtain rfl : t' = t := Option.some.inj hact
    obtain ⟨thresholdMs, eventIds, _, table, htask, _, _, _, rfl⟩ := recoverUpdate_cases h
    rw [htask]
    simpa using .ended hact (by simp) (Or.inr ⟨rfl, rfl⟩)
  | replaySelect t' id =>
    obtain rfl : t' = t := Option.some.inj hact
    rcases replaySelect_cases h with ⟨htask, rfl | ⟨row, hrow, rfl⟩⟩ <;>
      rw [htask]
    · simpa using .ended hact (by simp) (Or.inr ⟨rfl, rfl⟩)
    · simpa using .replaySelected id row rfl hrow rfl
  | replayUpdate t' =>
    obtain rfl : t' = t := Option.some.inj hact
    obtain ⟨id, previousStatus, table, htask, _, _, rfl⟩ := replayUpdate_cases h
    rw [htask]
    simpa using .ended hact (by simp) (Or.inr ⟨rfl, rfl⟩)
  | rangeSelect t' input ids =>
    obtain rfl : t' = t := Option.some.inj hact
    rcases rangeSelect_cases h with ⟨htask, hselection, rfl | rfl⟩ <;>
      rw [htask]
    · simpa using .ended hact (by simp) (Or.inr ⟨rfl, rfl⟩)
    · simpa using .rangeSelected input ids rfl hselection rfl rfl
  | rangeUpdate t' =>
    obtain rfl : t' = t := Option.some.inj hact
    obtain ⟨input, eventIds, table, htask, _, _, rfl⟩ := rangeUpdate_cases h
    rw [htask]
    simpa using .ended hact (by simp) (Or.inr ⟨rfl, rfl⟩)

end Outboxy
