import Outboxy.System

/-!
# What a step can do

The inversion lemmas of the system, one for each operation: what the
operation checked, and the state that it leaves.  No later module unfolds an
operation of `State` again.

`Frame` is what a step leaves alone: the calls that it does not name with
their locks, and everything that has happened.
-/

namespace Outboxy

variable {a : Adapter} {s s' : State a}

/-! ## Statements -/

/-- A row is not locked by an open transaction when it is touched. -/
theorem execute_cases {u : OutboxUpdate} (h : s.execute u = some s') :
    (∀ row ∈ s.table.rows, u.guard row = true → s.locked row.id = false) ∧
      ∃ table, s.table.update u = some table ∧ s' = { s with table := table } := by
  unfold State.execute at h
  split at h
  · exact absurd h (by simp)
  · rename_i hlocked
    obtain ⟨table, htable, rfl⟩ := Option.map_eq_some_iff.mp h
    refine ⟨fun row hrow hguard => ?_, table, htable, rfl⟩
    rw [List.any_eq_true] at hlocked
    by_contra hne
    exact hlocked ⟨row, hrow, by simp [hguard, hne]⟩

theorem insert_cases {row : OutboxEvent} (h : s.insert row = some s') :
    ∃ table, s.table.insert row = some table ∧
      s' = ({ s with table := table } : State a).record (.inserted row.id) := by
  unfold State.insert at h
  obtain ⟨table, htable, rfl⟩ := Option.map_eq_some_iff.mp h
  exact ⟨table, htable, rfl⟩

/-! ## Claims -/

section Claims

variable {t : TaskId} {worker : OutboxWorker} {ids : List EventId}

/-- The first statement of a claim: it found nothing, it was the whole claim,
or it locked its rows. -/
theorem claim_cases (h : s.claim t worker ids = some s') :
    s.tasks t = .idle ∧
      a.ClaimSelection s.table s.locked s.now worker.config.batchSize ids ∧
      ((ids = [] ∧ s' = s.setTask t .done) ∨
        (ids ≠ [] ∧ a = .postgres ∧
          ∃ table, s.table.update (a.claimPendingEvents s.now ids) = some table ∧
            s' = (({ s with table := table } : State a).setTask t
              (.claimed worker (ids.filterMap table.lookup))).record (.claimed t ids)) ∨
        (ids ≠ [] ∧ a ≠ .postgres ∧
          s' = ({ s with locks := ids.map (fun id => (t, id)) ++ s.locks } : State a).setTask t
            (.claimSelected worker ids))) := by
  unfold State.claim at h
  split at h
  · rename_i htask
    split at h
    · rename_i hselection
      refine ⟨htask, hselection, ?_⟩
      split at h
      · rename_i hids
        exact Or.inl ⟨hids, (Option.some.inj h).symm⟩
      · rename_i hids
        split at h
        · rename_i ha
          obtain ⟨s₁, hs₁, rfl⟩ := Option.map_eq_some_iff.mp h
          obtain ⟨_, table, htable, rfl⟩ := execute_cases hs₁
          exact Or.inr (Or.inl ⟨hids, ha, table, htable, rfl⟩)
        · rename_i ha
          exact Or.inr (Or.inr ⟨hids, ha, (Option.some.inj h).symm⟩)
    · exact absurd h (by simp)
  · exact absurd h (by simp)

theorem claimUpdate_cases (h : s.claimUpdate t = some s') :
    ∃ worker ids, s.tasks t = .claimSelected worker ids ∧
      s' = s.setTask t (.claimUpdated worker ids s.now) := by
  unfold State.claimUpdate at h
  split at h
  · rename_i worker ids htask
    split at h
    · exact ⟨worker, ids, htask, (Option.some.inj h).symm⟩
    · exact absurd h (by simp)
  · exact absurd h (by simp)

theorem claimCommit_cases (h : s.claimCommit t = some s') :
    ∃ worker ids startedAt table, s.tasks t = .claimUpdated worker ids startedAt ∧
      s.table.update (a.claimPendingEvents startedAt ids) = some table ∧
      s' = ((({ s with table := table } : State a).unlock t).setTask t
        (.claimCommitted worker ids)).record (.claimed t ids) := by
  unfold State.claimCommit at h
  split at h
  · rename_i worker ids startedAt htask
    obtain ⟨table, htable, rfl⟩ := Option.map_eq_some_iff.mp h
    exact ⟨worker, ids, startedAt, table, htask, htable, rfl⟩
  · exact absurd h (by simp)

theorem claimReselect_cases (h : s.claimReselect t = some s') :
    ∃ worker ids, s.tasks t = .claimCommitted worker ids ∧
      s' = s.setTask t (.claimed worker (ids.filterMap s.table.lookup)) := by
  unfold State.claimReselect at h
  split at h
  · rename_i worker ids htask
    exact ⟨worker, ids, htask, (Option.some.inj h).symm⟩
  · exact absurd h (by simp)

end Claims

/-! ## Batches -/

section Batches

variable {t : TaskId} {index : Nat}

theorem publishBatch_cases {outcome : PublishOutcome}
    (h : s.publishBatch t outcome = some s') :
    ∃ worker events, s.tasks t = .claimed worker events ∧
      ((∃ calls, executeBatchProcessing worker events outcome = some calls ∧
          s' = (s.setTask t (.writing worker events outcome calls)).record
            (.published t worker events outcome)) ∨
        (executeBatchProcessing worker events outcome = none ∧
          s' = (s.setTask t .done).record (.published t worker events outcome))) := by
  unfold State.publishBatch at h
  split at h
  · rename_i worker events htask
    refine ⟨worker, events, htask, ?_⟩
    obtain rfl := Option.some.inj h
    cases hcalls : executeBatchProcessing worker events outcome with
    | some calls => exact Or.inl ⟨calls, rfl, rfl⟩
    | none => exact Or.inr ⟨rfl, rfl⟩
  · exact absurd h (by simp)

theorem write_cases (h : s.write t index = some s') :
    ∃ worker events outcome pending call u table,
      s.tasks t = .writing worker events outcome pending ∧ pending[index]? = some call ∧
      a.repositoryUpdate s.now call = some u ∧
      (∀ row ∈ s.table.rows, u.guard row = true → s.locked row.id = false) ∧
      s.table.update u = some table ∧
      s' = (({ s with table := table } : State a).setTask t
        (.writing worker events outcome (pending.eraseIdx index))).record (.wrote t call) := by
  unfold State.write at h
  split at h
  · rename_i worker events outcome pending htask
    split at h
    · rename_i call hcall
      obtain ⟨u, hu, h⟩ := Option.bind_eq_some_iff.mp h
      obtain ⟨s₁, hs₁, rfl⟩ := Option.map_eq_some_iff.mp h
      obtain ⟨hlocked, table, htable, rfl⟩ := execute_cases hs₁
      exact ⟨worker, events, outcome, pending, call, u, table, htask, hcall, hu, hlocked, htable,
        rfl⟩
    · exact absurd h (by simp)
  · exact absurd h (by simp)

theorem writeFails_cases (h : s.writeFails t index = some s') :
    ∃ worker events outcome pending, s.tasks t = .writing worker events outcome pending ∧
      s' = s.setTask t (.writing worker events outcome (pending.eraseIdx index)) := by
  unfold State.writeFails at h
  split at h
  · rename_i worker events outcome pending htask
    exact ⟨worker, events, outcome, pending, htask, (Option.some.inj h).symm⟩
  · exact absurd h (by simp)

end Batches

/-! ## Recoveries -/

section Recoveries

variable {t : TaskId}

theorem recover_cases {thresholdMs : Nat} (h : s.recover t thresholdMs = some s') :
    s.tasks t = .idle ∧
      ((a = .postgres ∧ ∃ table,
          (∀ row ∈ s.table.rows, PgMaintenance.stale s.now thresholdMs row = true →
            s.locked row.id = false) ∧
          s.table.update (PgMaintenance.recoverStaleEvents s.now thresholdMs) = some table ∧
          s' = (({ s with table := table } : State a).setTask t .done).record
            (.recovered (s.table.affected (PgMaintenance.recoverStaleEvents s.now thresholdMs)))) ∨
        (a ≠ .postgres ∧ (s' = s.setTask t .done ∨
          s' = s.setTask t (.recoverSelected thresholdMs
            (MySQLMaintenance.staleIds s.table s.now thresholdMs))))) := by
  unfold State.recover at h
  split at h
  · rename_i htask
    refine ⟨htask, ?_⟩
    split at h
    · rename_i ha
      obtain ⟨s₁, hs₁, rfl⟩ := Option.map_eq_some_iff.mp h
      obtain ⟨hlocked, table, htable, rfl⟩ := execute_cases hs₁
      exact Or.inl ⟨ha, table, hlocked, htable, rfl⟩
    · rename_i ha
      refine Or.inr ⟨ha, ?_⟩
      dsimp only at h
      split at h
      · exact Or.inl (Option.some.inj h).symm
      · exact Or.inr (Option.some.inj h).symm
  · exact absurd h (by simp)

theorem recoverUpdate_cases (h : s.recoverUpdate t = some s') :
    ∃ thresholdMs eventIds u table, s.tasks t = .recoverSelected thresholdMs eventIds ∧
      MySQLMaintenance.recoverStaleEvents s.now eventIds = some u ∧
      (∀ row ∈ s.table.rows, u.guard row = true → s.locked row.id = false) ∧
      s.table.update u = some table ∧
      s' = (({ s with table := table } : State a).setTask t .done).record
        (.recovered (s.table.affected u)) := by
  unfold State.recoverUpdate at h
  split at h
  · rename_i thresholdMs eventIds htask
    obtain ⟨u, hu, h⟩ := Option.bind_eq_some_iff.mp h
    obtain ⟨s₁, hs₁, rfl⟩ := Option.map_eq_some_iff.mp h
    obtain ⟨hlocked, table, htable, rfl⟩ := execute_cases hs₁
    exact ⟨thresholdMs, eventIds, u, table, htask, hu, hlocked, htable, rfl⟩
  · exact absurd h (by simp)

end Recoveries

/-! ## Replays -/

section Replays

variable {t : TaskId} {id : EventId} {input : ReplayRangeInput} {ids : List EventId}

theorem replaySelect_cases (h : s.replaySelect t id = some s') :
    s.tasks t = .idle ∧
      (s' = s.setTask t .done ∨
        ∃ row, s.table.lookup id = some row ∧
          s' = s.setTask t (.replaySelected id row.status)) := by
  unfold State.replaySelect at h
  split at h
  · rename_i htask
    refine ⟨htask, ?_⟩
    split at h
    · rename_i previousStatus hstatus
      split at h
      · obtain rfl := Option.some.inj h
        unfold selectReplayStatus at hstatus
        split at hstatus
        · rename_i row hrow
          split at hstatus
          · obtain rfl := Option.some.inj hstatus
            exact Or.inr ⟨row, hrow, rfl⟩
          · exact absurd hstatus (by simp)
        · exact absurd hstatus (by simp)
      · exact Or.inl (Option.some.inj h).symm
    · exact Or.inl (Option.some.inj h).symm
  · exact absurd h (by simp)

theorem replayUpdate_cases (h : s.replayUpdate t = some s') :
    ∃ id previousStatus table, s.tasks t = .replaySelected id previousStatus ∧
      (∀ row ∈ s.table.rows, replayGuard id row = true → s.locked row.id = false) ∧
      s.table.update (a.replayEvent s.now id) = some table ∧
      s' = (({ s with table := table } : State a).setTask t .done).record
        (.replayed (s.table.affected (a.replayEvent s.now id))
          (s.replayResult id previousStatus (s.table.affected (a.replayEvent s.now id)))) := by
  unfold State.replayUpdate at h
  split at h
  · rename_i id previousStatus htask
    obtain ⟨s₁, hs₁, rfl⟩ := Option.map_eq_some_iff.mp h
    obtain ⟨hlocked, table, htable, rfl⟩ := execute_cases hs₁
    rw [Adapter.replayEvent_guard] at hlocked
    exact ⟨id, previousStatus, table, htask, hlocked, htable, rfl⟩
  · exact absurd h (by simp)

theorem rangeSelect_cases (h : s.rangeSelect t input ids = some s') :
    s.tasks t = .idle ∧
      s.table.IsSelection (a.inReplayRange input) input.requestedLimit ids ∧
      (s' = s.setTask t .done ∨ s' = s.setTask t (.rangeSelected input ids)) := by
  unfold State.rangeSelect at h
  split at h
  · rename_i htask
    split at h
    · rename_i hselection
      refine ⟨htask, hselection, ?_⟩
      split at h
      · exact Or.inl (Option.some.inj h).symm
      · exact Or.inr (Option.some.inj h).symm
    · exact absurd h (by simp)
  · exact absurd h (by simp)

theorem rangeUpdate_cases (h : s.rangeUpdate t = some s') :
    ∃ input eventIds table, s.tasks t = .rangeSelected input eventIds ∧
      (∀ row ∈ s.table.rows, row.id ∈ eventIds → s.locked row.id = false) ∧
      s.table.update (a.replayEventsInRange s.now eventIds) = some table ∧
      s' = (({ s with table := table } : State a).setTask t .done).record
        (.rangeReplayed input (s.table.affected (a.replayEventsInRange s.now eventIds))
          (a.replayRangeResult eventIds
            (s.table.affected (a.replayEventsInRange s.now eventIds)))) := by
  unfold State.rangeUpdate at h
  split at h
  · rename_i input eventIds htask
    obtain ⟨s₁, hs₁, rfl⟩ := Option.map_eq_some_iff.mp h
    obtain ⟨hlocked, table, htable, rfl⟩ := execute_cases hs₁
    refine ⟨input, eventIds, table, htask, fun row hrow hid => hlocked row hrow ?_, htable, rfl⟩
    simpa using hid
  · exact absurd h (by simp)

end Replays

/-! ## Inserts -/

section Inserts

variable {id : EventId}

theorem publish_cases {values : InsertValues} (h : s.publish id values = some s') :
    isUuid id = true ∧
      ((∃ existing table, s.table.conflict (values.row id s.now) = some existing ∧
          (∀ row ∈ s.table.rows, (a.onConflict s.now existing.id).guard row = true →
            s.locked row.id = false) ∧
          s.table.update (a.onConflict s.now existing.id) = some table ∧
          s' = { s with table := table }) ∨
        (∃ table, s.table.insert (values.row id s.now) = some table ∧
          s' = ({ s with table := table } : State a).record (.inserted id))) := by
  unfold State.publish at h
  split at h
  · rename_i huuid
    refine ⟨huuid, ?_⟩
    split at h
    · rename_i existing hexisting
      obtain ⟨hlocked, table, htable, rfl⟩ := execute_cases h
      exact Or.inl ⟨existing, table, hexisting, hlocked, htable, rfl⟩
    · obtain ⟨table, htable, rfl⟩ := insert_cases h
      exact Or.inr ⟨table, htable, rfl⟩
  · exact absurd h (by simp)

theorem createEvent_cases {input : CreateEventInput} (h : s.createEvent id input = some s') :
    isUuid id = true ∧
      ∃ table, s.table.insert (a.createEvent s.clock id input) = some table ∧
        s' = ({ s with table := table } : State a).record (.inserted id) := by
  unfold State.createEvent at h
  split at h
  · rename_i huuid
    obtain ⟨table, htable, rfl⟩ := insert_cases h
    refine ⟨huuid, table, htable, ?_⟩
    rw [createEvent_id]
  · exact absurd h (by simp)

theorem softDelete_cases (h : s.softDelete id = some s') :
    (∀ row ∈ s.table.rows, row.id = id → s.locked row.id = false) ∧
      ∃ table u, (∀ row, u.guard row = true ↔ row.id = id) ∧
        (∀ row : OutboxEvent, u.assign row = { row with deletedAt := some s.now }) ∧
        s.table.update u = some table ∧ s' = { s with table := table } := by
  unfold State.softDelete at h
  obtain ⟨hlocked, table, htable, rfl⟩ := execute_cases h
  refine ⟨fun row hrow hid => hlocked row hrow (by simpa using hid), table, _, ?_, ?_, htable, rfl⟩
  · intro row
    simp
  · intro row
    rfl

end Inserts

/-! ## What a step leaves alone -/

/-- The call that an action is a step of. -/
def Action.task? : Action → Option TaskId
  | .claim t _ _ => some t
  | .claimUpdate t => some t
  | .claimCommit t => some t
  | .claimReselect t => some t
  | .publishBatch t _ => some t
  | .write t _ => some t
  | .writeFails t _ => some t
  | .crash t => some t
  | .recover t _ => some t
  | .recoverUpdate t => some t
  | .replaySelect t _ => some t
  | .replayUpdate t => some t
  | .rangeSelect t _ _ => some t
  | .rangeUpdate t => some t
  | _ => none

/-- The entry is an outcome write of the task that lists the event. -/
def HistoryEntry.writes (t : TaskId) (id : EventId) : HistoryEntry → Bool
  | .wrote t' call => decide (t' = t) && decide (id ∈ call.ids)
  | _ => false

/-- How many outcome writes of the task list the event. -/
def writes (t : TaskId) (id : EventId) (history : List HistoryEntry) : Nat :=
  history.countP (HistoryEntry.writes t id)

/-- Between `s` and `s'` only the call that `act` names has moved on. -/
structure Frame (s : State a) (act : Action) (s' : State a) : Prop where
  clock : s.clock ≤ s'.clock
  tasks : ∀ t, act.task? ≠ some t → s'.tasks t = s.tasks t
  locks : ∀ t id, act.task? ≠ some t → ((t, id) ∈ s'.locks ↔ (t, id) ∈ s.locks)
  history : s.history <:+ s'.history
  writes : ∀ t id, (∀ index, act ≠ .write t index) →
    writes t id s'.history = writes t id s.history

section Frame

variable {act : Action}

/-- A step that no call takes. -/
private theorem frame_of_tasks_eq (hclock : s.clock ≤ s'.clock) (htasks : s'.tasks = s.tasks)
    (hlocks : s'.locks = s.locks)
    (hhistory : s'.history = s.history ∨ ∃ id, s'.history = .inserted id :: s.history) :
    Frame s act s' where
  clock := hclock
  tasks t _ := congrFun htasks t
  locks t id _ := by rw [hlocks]
  history := by
    rcases hhistory with h | ⟨id, h⟩
    · exact h ▸ List.suffix_rfl
    · rw [h]
      exact List.suffix_cons _ _
  writes t id _ := by
    rcases hhistory with h | ⟨id', h⟩
    · rw [h]
    · rw [h]
      simp [Outboxy.writes, HistoryEntry.writes]

/-- A step of the call `t`. -/
private theorem frame_of_task {t : TaskId} {task : Task} (hact : act.task? = some t)
    (hclock : s'.clock = s.clock)
    (htasks : s'.tasks = Function.update s.tasks t task)
    (hlocks : ∀ t' id, t' ≠ t → ((t', id) ∈ s'.locks ↔ (t', id) ∈ s.locks))
    (hhistory : s'.history = s.history ∨ ∃ entry, s'.history = entry :: s.history ∧
      ∀ call t', entry = .wrote t' call → ∃ index, act = .write t' index) :
    Frame s act s' where
  clock := Int.le_of_eq hclock.symm
  tasks t' ht' := by
    have hne : t' ≠ t := fun heq => ht' (heq ▸ hact)
    rw [htasks, Function.update_of_ne hne]
  locks t' id ht' := hlocks t' id fun heq => ht' (heq ▸ hact)
  history := by
    rcases hhistory with h | ⟨entry, h, _⟩
    · exact h ▸ List.suffix_rfl
    · rw [h]
      exact List.suffix_cons _ _
  writes t' id ht' := by
    rcases hhistory with h | ⟨entry, h, hwrote⟩
    · rw [h]
    · rw [h, Outboxy.writes, Outboxy.writes, List.countP_cons_of_neg]
      cases entry with
      | wrote t'' call =>
        obtain ⟨index, hindex⟩ := hwrote call t'' rfl
        have hne : t'' ≠ t' := fun heq => ht' index (heq ▸ hindex)
        simp [HistoryEntry.writes, hne]
      | _ => simp [HistoryEntry.writes]

/-- A step leaves the calls it does not name alone, and forgets nothing. -/
theorem frame_step (h : step s act = some s') : Frame s act s' := by
  cases act with
  | tick micros =>
    obtain rfl := Option.some.inj h
    exact frame_of_tasks_eq (Int.le_add_of_nonneg_right (Int.natCast_nonneg _)) rfl rfl
      (Or.inl rfl)
  | publish id values =>
    rcases publish_cases h with ⟨_, ⟨_, _, _, _, _, rfl⟩ | ⟨_, _, rfl⟩⟩
    · exact frame_of_tasks_eq (Int.le_refl _) rfl rfl (Or.inl rfl)
    · exact frame_of_tasks_eq (Int.le_refl _) rfl rfl (Or.inr ⟨id, rfl⟩)
  | createEvent id input =>
    obtain ⟨_, _, _, rfl⟩ := createEvent_cases h
    exact frame_of_tasks_eq (Int.le_refl _) rfl rfl (Or.inr ⟨id, rfl⟩)
  | softDelete id =>
    obtain ⟨_, _, _, _, _, _, rfl⟩ := softDelete_cases h
    exact frame_of_tasks_eq (Int.le_refl _) rfl rfl (Or.inl rfl)
  | cleanupStaleIdempotencyKeys retentionDays =>
    obtain ⟨_, _, _, rfl⟩ := execute_cases h
    exact frame_of_tasks_eq (Int.le_refl _) rfl rfl (Or.inl rfl)
  | claim t worker ids =>
    rcases claim_cases h with ⟨_, _, ⟨_, rfl⟩ | ⟨_, _, _, _, rfl⟩ | ⟨_, _, rfl⟩⟩
    · exact frame_of_task rfl rfl rfl (fun _ _ _ => Iff.rfl) (Or.inl rfl)
    · exact frame_of_task rfl rfl rfl (fun _ _ _ => Iff.rfl) (Or.inr ⟨_, rfl, by simp⟩)
    · refine frame_of_task rfl rfl rfl (fun t' id hne => ?_) (Or.inl rfl)
      simp [hne.symm]
  | claimUpdate t =>
    obtain ⟨_, _, _, rfl⟩ := claimUpdate_cases h
    exact frame_of_task rfl rfl rfl (fun _ _ _ => Iff.rfl) (Or.inl rfl)
  | claimCommit t =>
    obtain ⟨_, _, _, _, _, _, rfl⟩ := claimCommit_cases h
    refine frame_of_task rfl rfl rfl (fun t' id hne => ?_) (Or.inr ⟨_, rfl, by simp⟩)
    simp [State.unlock, hne]
  | claimReselect t =>
    obtain ⟨_, _, _, rfl⟩ := claimReselect_cases h
    exact frame_of_task rfl rfl rfl (fun _ _ _ => Iff.rfl) (Or.inl rfl)
  | publishBatch t outcome =>
    rcases publishBatch_cases h with ⟨_, _, _, ⟨_, _, rfl⟩ | ⟨_, rfl⟩⟩
    · exact frame_of_task rfl rfl rfl (fun _ _ _ => Iff.rfl) (Or.inr ⟨_, rfl, by simp⟩)
    · exact frame_of_task rfl rfl rfl (fun _ _ _ => Iff.rfl) (Or.inr ⟨_, rfl, by simp⟩)
  | write t index =>
    obtain ⟨_, _, _, _, _, _, _, _, _, _, _, _, rfl⟩ := write_cases h
    refine frame_of_task rfl rfl rfl (fun _ _ _ => Iff.rfl)
      (Or.inr ⟨_, rfl, fun call t' hwrote => ?_⟩)
    obtain ⟨rfl, _⟩ := HistoryEntry.wrote.inj hwrote
    exact ⟨index, rfl⟩
  | writeFails t index =>
    obtain ⟨_, _, _, _, _, rfl⟩ := writeFails_cases h
    exact frame_of_task rfl rfl rfl (fun _ _ _ => Iff.rfl) (Or.inl rfl)
  | crash t =>
    obtain rfl := Option.some.inj h
    refine frame_of_task rfl rfl rfl (fun t' id hne => ?_) (Or.inl rfl)
    simp [State.unlock, hne]
  | recover t thresholdMs =>
    rcases recover_cases h with ⟨_, ⟨_, _, _, _, rfl⟩ | ⟨_, rfl | rfl⟩⟩
    · exact frame_of_task rfl rfl rfl (fun _ _ _ => Iff.rfl) (Or.inr ⟨_, rfl, by simp⟩)
    · exact frame_of_task rfl rfl rfl (fun _ _ _ => Iff.rfl) (Or.inl rfl)
    · exact frame_of_task rfl rfl rfl (fun _ _ _ => Iff.rfl) (Or.inl rfl)
  | recoverUpdate t =>
    obtain ⟨_, _, _, _, _, _, _, _, rfl⟩ := recoverUpdate_cases h
    exact frame_of_task rfl rfl rfl (fun _ _ _ => Iff.rfl) (Or.inr ⟨_, rfl, by simp⟩)
  | replaySelect t id =>
    rcases replaySelect_cases h with ⟨_, rfl | ⟨_, _, rfl⟩⟩
    · exact frame_of_task rfl rfl rfl (fun _ _ _ => Iff.rfl) (Or.inl rfl)
    · exact frame_of_task rfl rfl rfl (fun _ _ _ => Iff.rfl) (Or.inl rfl)
  | replayUpdate t =>
    obtain ⟨_, _, _, _, _, _, rfl⟩ := replayUpdate_cases h
    exact frame_of_task rfl rfl rfl (fun _ _ _ => Iff.rfl) (Or.inr ⟨_, rfl, by simp⟩)
  | rangeSelect t input ids =>
    rcases rangeSelect_cases h with ⟨_, _, rfl | rfl⟩
    · exact frame_of_task rfl rfl rfl (fun _ _ _ => Iff.rfl) (Or.inl rfl)
    · exact frame_of_task rfl rfl rfl (fun _ _ _ => Iff.rfl) (Or.inl rfl)
  | rangeUpdate t =>
    obtain ⟨_, _, _, _, _, _, rfl⟩ := rangeUpdate_cases h
    exact frame_of_task rfl rfl rfl (fun _ _ _ => Iff.rfl) (Or.inr ⟨_, rfl, by simp⟩)

/-- A run leaves the calls alone that none of its actions names. -/
theorem tasks_of_run {acts : List Action} {t : TaskId}
    (h : (outbox a).run s acts = some s') (hacts : ∀ act ∈ acts, act.task? ≠ some t) :
    s'.tasks t = s.tasks t := by
  refine Transition.System.run_keeps (P := fun u => u.tasks t = s.tasks t) ?_ h rfl
  intro u act u' htakes hu
  obtain ⟨pre, post, rfl, _, hstep⟩ := htakes
  exact ((frame_step hstep).tasks t (hacts act (by simp))).trans hu

end Frame

end Outboxy
