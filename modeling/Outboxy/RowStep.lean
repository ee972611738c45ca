import Outboxy.Steps

/-!
# What a step does to a row

`RowStep` lists the ways in which a step can change a row, with everything
that the step has checked about it, and `row_step` says that there is no
other way.  `fresh_row_step` is about the rows that a step inserts.  The
invariants about rows are derived from these two.
-/

namespace Outboxy

variable {a : Adapter} {s s' : State a}

/-- What a step from `s` to `s'` can make of a row, with everything that the
step has checked about it. -/
inductive RowStep (s : State a) (act : Action) (s' : State a) (row : OutboxEvent) :
    OutboxEvent → Prop
  /-- The row stays in its place of the delivery pipeline. -/
  | kept {row' : OutboxEvent} (hkeep : KeepsDelivery row row')
      (hclaims : claimsSince row.id s'.history = claimsSince row.id s.history) :
      RowStep s act s' row row'
  /-- PostgreSQL claims the row. -/
  | claimed (t : TaskId) (worker : OutboxWorker) (ids : List EventId)
      (hact : act = .claim t worker ids) (ha : a = .postgres) (hid : row.id ∈ ids)
      (hclaimable : a.claimable s.now row = true) (hfree : s.locked row.id = false)
      (hhistory : s'.history = .claimed t ids :: s.history) :
      RowStep s act s' row (claimRow s.now row)
  /-- A MySQL claim commits. -/
  | committed (t : TaskId) (worker : OutboxWorker) (ids : List EventId) (startedAt : Int)
      (hact : act = .claimCommit t) (htask : s.tasks t = .claimUpdated worker ids startedAt)
      (hid : row.id ∈ ids) (hhistory : s'.history = .claimed t ids :: s.history) :
      RowStep s act s' row (claimRow startedAt row)
  /-- An outcome write touches the row. -/
  | written {row' : OutboxEvent} (t : TaskId) (index : Nat) (worker : OutboxWorker)
      (events : List OutboxEvent) (outcome : PublishOutcome) (pending : List RepositoryCall)
      (call : RepositoryCall) (hact : act = .write t index)
      (htask : s.tasks t = .writing worker events outcome pending)
      (hcall : pending[index]? = some call) (hid : row.id ∈ call.ids)
      (hadmits : call.admits row) (heffect : call.Effect row row')
      (hfree : s.locked row.id = false)
      (hhistory : s'.history = .wrote t call :: s.history) :
      RowStep s act s' row row'
  /-- The atomic recovery of PostgreSQL touches the row. -/
  | recovered (t : TaskId) (thresholdMs : Nat) (affected : List EventId)
      (hact : act = .recover t thresholdMs) (ha : a = .postgres)
      (hstale : PgMaintenance.stale s.now thresholdMs row = true)
      (hfree : s.locked row.id = false)
      (hhistory : s'.history = .recovered affected :: s.history) :
      RowStep s act s' row (recoverRow s.now row)
  /-- The second statement of a MySQL recovery touches the row. -/
  | recoveredById (t : TaskId) (thresholdMs : Nat) (eventIds affected : List EventId)
      (hact : act = .recoverUpdate t)
      (htask : s.tasks t = .recoverSelected thresholdMs eventIds) (hid : row.id ∈ eventIds)
      (hfree : s.locked row.id = false)
      (hhistory : s'.history = .recovered affected :: s.history) :
      RowStep s act s' row (recoverRow s.now row)
  /-- The second statement of `replayEvent` touches the row. -/
  | replayed (t : TaskId) (id : EventId) (previousStatus : EventStatus)
      (hact : act = .replayUpdate t) (htask : s.tasks t = .replaySelected id previousStatus)
      (hguard : replayGuard id row = true) (hfree : s.locked row.id = false)
      (hclaims : claimsSince row.id s'.history = 0) :
      RowStep s act s' row (replayRow s.now row)
  /-- The second statement of a range replay touches the row. -/
  | rangeReplayed (t : TaskId) (input : ReplayRangeInput) (eventIds : List EventId)
      (hact : act = .rangeUpdate t) (htask : s.tasks t = .rangeSelected input eventIds)
      (hid : row.id ∈ eventIds) (hfree : s.locked row.id = false)
      (hclaims : claimsSince row.id s'.history = 0) :
      RowStep s act s' row (replayRow s.now row)

section RowStep

variable {act : Action} {id : EventId} {row : OutboxEvent}

/-- A statement outside of the delivery pipeline keeps every row. -/
private theorem kept_of_update {u : OutboxUpdate} {table : OutboxTable a}
    (htable : s.table.update u = some table)
    (hkeep : ∀ row, KeepsDelivery row (u.assign row)) (hrow : s.table.lookup id = some row) :
    ∃ row', table.lookup id = some row' ∧ KeepsDelivery row row' := by
  refine ⟨u.apply row, by rw [Table.lookup_update htable, hrow, Option.map_some], ?_⟩
  exact Update.apply_keeps (P := KeepsDelivery row) (fun _ _ => hkeep row) (.refl row)

/-- A statement either touches the row or leaves it alone. -/
private theorem apply_cases {u : OutboxUpdate} {table : OutboxTable a}
    (htable : s.table.update u = some table) (hrow : s.table.lookup id = some row) :
    (u.guard row = true ∧ table.lookup id = some (u.assign row)) ∨
      (u.guard row = false ∧ table.lookup id = some row) := by
  have hlookup : table.lookup id = some (u.apply row) := by
    rw [Table.lookup_update htable, hrow, Option.map_some]
  cases hguard : u.guard row with
  | true =>
    rw [Update.apply_of_guard hguard] at hlookup
    exact Or.inl ⟨rfl, hlookup⟩
  | false =>
    rw [Update.apply_of_not_guard hguard] at hlookup
    exact Or.inr ⟨rfl, hlookup⟩

private theorem mem_affected_iff {u : OutboxUpdate} (hrow : s.table.lookup id = some row) :
    id ∈ s.table.affected u ↔ u.guard row = true := by
  simp [Table.mem_affected_iff_lookup, hrow]

/-- An inserted row has an id of its own. -/
private theorem ne_id_of_fresh {id' : EventId} (hfresh : s.table.lookup id' = none)
    (hrow : s.table.lookup id = some row) : id' ≠ row.id := by
  rintro rfl
  rw [Table.lookup_of_mem (Table.mem_of_lookup hrow)] at hfresh
  exact nomatch hfresh

/-- What a step does to a row that is there. -/
theorem row_step (h : step s act = some s') (hrow : s.table.lookup id = some row) :
    ∃ row', s'.table.lookup id = some row' ∧ RowStep s act s' row row' := by
  have hrowid : row.id = id := Table.pk_of_lookup hrow
  have hmem : row ∈ s.table.rows := Table.mem_of_lookup hrow
  cases act with
  | tick micros =>
    obtain rfl := Option.some.inj h
    exact ⟨row, hrow, .kept (.refl row) rfl⟩
  | publish id' values =>
    rcases publish_cases h with ⟨_, ⟨existing, table, _, _, htable, rfl⟩ | ⟨table, htable, rfl⟩⟩
    · obtain ⟨row', hrow', hkeep⟩ :=
        kept_of_update htable (keepsDelivery_onConflict a s.now existing.id) hrow
      exact ⟨row', hrow', .kept hkeep rfl⟩
    · refine ⟨row, Table.lookup_insert_of_some htable hrow, .kept (.refl row) ?_⟩
      have hne : id' ≠ row.id := ne_id_of_fresh (Table.pk_fresh_of_insert htable) hrow
      simp [claimsSince, HistoryEntry.resets, HistoryEntry.claims, hne]
  | createEvent id' input =>
    obtain ⟨_, table, htable, rfl⟩ := createEvent_cases h
    refine ⟨row, Table.lookup_insert_of_some htable hrow, .kept (.refl row) ?_⟩
    have hfresh : s.table.lookup id' = none := by
      simpa using Table.pk_fresh_of_insert htable
    have hne : id' ≠ row.id := ne_id_of_fresh hfresh hrow
    simp [claimsSince, HistoryEntry.resets, HistoryEntry.claims, hne]
  | softDelete id' =>
    obtain ⟨_, table, u, _, hassign, htable, rfl⟩ := softDelete_cases h
    obtain ⟨row', hrow', hkeep⟩ := kept_of_update htable
      (fun row => by rw [hassign row]; exact ⟨rfl, rfl, rfl, rfl, rfl⟩) hrow
    exact ⟨row', hrow', .kept hkeep rfl⟩
  | cleanupStaleIdempotencyKeys retentionDays =>
    obtain ⟨_, table, htable, rfl⟩ := execute_cases h
    obtain ⟨row', hrow', hkeep⟩ :=
      kept_of_update htable (keepsDelivery_cleanup s.now retentionDays) hrow
    exact ⟨row', hrow', .kept hkeep rfl⟩
  | claim t worker ids =>
    rcases claim_cases h with ⟨_, hselection, ⟨_, rfl⟩ | ⟨_, ha, table, htable, rfl⟩ | ⟨_, _, rfl⟩⟩
    · exact ⟨row, hrow, .kept (.refl row) rfl⟩
    · rcases apply_cases htable hrow with ⟨hguard, hrow'⟩ | ⟨hguard, hrow'⟩
      · rw [Adapter.claimPendingEvents_guard, idIn_eq_true] at hguard
        rw [Adapter.claimPendingEvents_assign] at hrow'
        obtain ⟨row₁, hrow₁, hclaimable⟩ := hselection.isSelection.lookup hguard
        rw [hrowid, hrow] at hrow₁
        obtain rfl := Option.some.inj hrow₁
        rw [Bool.and_eq_true, Bool.not_eq_true'] at hclaimable
        exact ⟨_, hrow', .claimed t worker ids rfl ha hguard hclaimable.1 hclaimable.2 rfl⟩
      · refine ⟨row, hrow', .kept (.refl row) ?_⟩
        have hnot : row.id ∉ ids := by simpa [idIn] using hguard
        simp [claimsSince, HistoryEntry.resets, HistoryEntry.claims, hnot]
    · exact ⟨row, hrow, .kept (.refl row) rfl⟩
  | claimUpdate t =>
    obtain ⟨worker, ids, _, rfl⟩ := claimUpdate_cases h
    exact ⟨row, hrow, .kept (.refl row) rfl⟩
  | claimCommit t =>
    obtain ⟨worker, ids, startedAt, table, htask, htable, rfl⟩ := claimCommit_cases h
    rcases apply_cases htable hrow with ⟨hguard, hrow'⟩ | ⟨hguard, hrow'⟩
    · rw [Adapter.claimPendingEvents_guard, idIn_eq_true] at hguard
      rw [Adapter.claimPendingEvents_assign] at hrow'
      exact ⟨_, hrow', .committed t worker ids startedAt rfl htask hguard rfl⟩
    · refine ⟨row, hrow', .kept (.refl row) ?_⟩
      have hnot : row.id ∉ ids := by simpa [idIn] using hguard
      simp [claimsSince, HistoryEntry.resets, HistoryEntry.claims, hnot]
  | claimReselect t =>
    obtain ⟨worker, ids, _, rfl⟩ := claimReselect_cases h
    exact ⟨row, hrow, .kept (.refl row) rfl⟩
  | publishBatch t outcome =>
    rcases publishBatch_cases h with ⟨worker, events, _, ⟨calls, _, rfl⟩ | ⟨_, rfl⟩⟩
    · exact ⟨row, hrow, .kept (.refl row) rfl⟩
    · exact ⟨row, hrow, .kept (.refl row) rfl⟩
  | write t index =>
    obtain ⟨worker, events, outcome, pending, call, u, table, htask, hcall, hu, hlocked, htable,
      rfl⟩ := write_cases h
    rcases apply_cases htable hrow with ⟨hguard, hrow'⟩ | ⟨_, hrow'⟩
    · obtain ⟨hid, hadmits⟩ := (repositoryUpdate_guard hu row).mp hguard
      exact ⟨_, hrow', .written t index worker events outcome pending call rfl htask hcall hid
        hadmits (repositoryUpdate_assign hu row) (hlocked row hmem hguard) rfl⟩
    · exact ⟨row, hrow', .kept (.refl row) rfl⟩
  | writeFails t index =>
    obtain ⟨worker, events, outcome, pending, _, rfl⟩ := writeFails_cases h
    exact ⟨row, hrow, .kept (.refl row) rfl⟩
  | crash t =>
    obtain rfl := Option.some.inj h
    exact ⟨row, hrow, .kept (.refl row) rfl⟩
  | recover t thresholdMs =>
    rcases recover_cases h with ⟨_, ⟨ha, table, hlocked, htable, rfl⟩ | ⟨_, rfl | rfl⟩⟩
    · rcases apply_cases htable hrow with ⟨hguard, hrow'⟩ | ⟨_, hrow'⟩
      · exact ⟨_, hrow', .recovered t thresholdMs _ rfl ha hguard (hlocked row hmem hguard) rfl⟩
      · exact ⟨row, hrow', .kept (.refl row) rfl⟩
    · exact ⟨row, hrow, .kept (.refl row) rfl⟩
    · exact ⟨row, hrow, .kept (.refl row) rfl⟩
  | recoverUpdate t =>
    obtain ⟨thresholdMs, eventIds, u, table, htask, hu, hlocked, htable, rfl⟩ :=
      recoverUpdate_cases h
    obtain ⟨hguards, hassigns⟩ := MySQLMaintenance.recoverStaleEvents_eq_some hu
    rcases apply_cases htable hrow with ⟨hguard, hrow'⟩ | ⟨_, hrow'⟩
    · have hfree := hlocked row hmem hguard
      rw [hguards, idIn_eq_true] at hguard
      rw [hassigns] at hrow'
      exact ⟨_, hrow', .recoveredById t thresholdMs eventIds _ rfl htask hguard hfree rfl⟩
    · exact ⟨row, hrow', .kept (.refl row) rfl⟩
  | replaySelect t id' =>
    rcases replaySelect_cases h with ⟨_, rfl | ⟨_, _, rfl⟩⟩
    · exact ⟨row, hrow, .kept (.refl row) rfl⟩
    · exact ⟨row, hrow, .kept (.refl row) rfl⟩
  | replayUpdate t =>
    obtain ⟨id', previousStatus, table, htask, hlocked, htable, rfl⟩ := replayUpdate_cases h
    have haffected := mem_affected_iff (u := a.replayEvent s.now id') hrow
    rcases apply_cases htable hrow with ⟨hguard, hrow'⟩ | ⟨hguard, hrow'⟩
    · rw [hguard] at haffected
      rw [Adapter.replayEvent_guard] at hguard
      rw [Adapter.replayEvent_assign] at hrow'
      refine ⟨_, hrow', .replayed t id' previousStatus rfl htask hguard
        (hlocked row hmem hguard) ?_⟩
      simp [claimsSince, HistoryEntry.resets, hrowid, haffected]
    · rw [hguard] at haffected
      refine ⟨row, hrow', .kept (.refl row) ?_⟩
      simp [claimsSince, HistoryEntry.resets, HistoryEntry.claims, hrowid, haffected]
  | rangeSelect t input ids =>
    rcases rangeSelect_cases h with ⟨_, _, rfl | rfl⟩
    · exact ⟨row, hrow, .kept (.refl row) rfl⟩
    · exact ⟨row, hrow, .kept (.refl row) rfl⟩
  | rangeUpdate t =>
    obtain ⟨input, eventIds, table, htask, hlocked, htable, rfl⟩ := rangeUpdate_cases h
    have haffected := mem_affected_iff (u := a.replayEventsInRange s.now eventIds) hrow
    rcases apply_cases htable hrow with ⟨hguard, hrow'⟩ | ⟨hguard, hrow'⟩
    · rw [hguard] at haffected
      rw [Adapter.replayEventsInRange_guard, idIn_eq_true] at hguard
      rw [Adapter.replayEventsInRange_assign] at hrow'
      refine ⟨_, hrow', .rangeReplayed t input eventIds rfl htask hguard
        (hlocked row hmem hguard) ?_⟩
      simp [claimsSince, HistoryEntry.resets, hrowid, haffected]
    · rw [hguard] at haffected
      refine ⟨row, hrow', .kept (.refl row) ?_⟩
      simp [claimsSince, HistoryEntry.resets, HistoryEntry.claims, hrowid, haffected]

end RowStep

/-! ## Touched rows

What `RowStep` leaves open: a statement does touch the rows that match its
`WHERE`. -/

section Touched

variable {t : TaskId} {id : EventId} {row : OutboxEvent}

/-- The update that an outcome write executes. -/
theorem update_of_write {index : Nat} {worker : OutboxWorker} {events : List OutboxEvent}
    {outcome : PublishOutcome} {pending : List RepositoryCall} {call : RepositoryCall}
    (h : s.write t index = some s') (htask : s.tasks t = .writing worker events outcome pending)
    (hcall : pending[index]? = some call) :
    ∃ u, a.repositoryUpdate s.now call = some u ∧ s.table.update u = some s'.table := by
  obtain ⟨_, _, _, _, call', u, table, htask', hcall', hu, _, htable, rfl⟩ := write_cases h
  rw [htask] at htask'
  obtain ⟨_, _, _, rfl⟩ := Task.writing.inj htask'
  rw [hcall] at hcall'
  obtain rfl := Option.some.inj hcall'
  exact ⟨u, hu, htable⟩

/-- An outcome write touches each row that it lists and admits. -/
theorem touches_of_write {index : Nat} {worker : OutboxWorker} {events : List OutboxEvent}
    {outcome : PublishOutcome} {pending : List RepositoryCall} {call : RepositoryCall}
    (h : s.write t index = some s') (htask : s.tasks t = .writing worker events outcome pending)
    (hcall : pending[index]? = some call) (hrow : s.table.lookup id = some row)
    (hid : id ∈ call.ids) :
    (call.admits row → ∃ row', s'.table.lookup id = some row' ∧ call.Effect row row') ∧
      (¬ call.admits row → s'.table.lookup id = some row) := by
  obtain ⟨u, hu, htable⟩ := update_of_write h htask hcall
  have hguard := repositoryUpdate_guard hu row
  rw [Table.pk_of_lookup hrow] at hguard
  constructor
  · intro hadmits
    exact ⟨_, Table.lookup_update_of_guard htable hrow (hguard.mpr ⟨hid, hadmits⟩),
      repositoryUpdate_assign hu row⟩
  · intro hadmits
    have hnot : u.guard row = false := by
      by_contra hne
      exact hadmits (hguard.mp (eq_true_of_ne_false hne)).2
    rw [Table.lookup_update htable, hrow, Option.map_some, Update.apply_of_not_guard hnot]

/-- An outcome write leaves the rows alone that it does not list. -/
theorem untouched_of_write {index : Nat} {worker : OutboxWorker} {events : List OutboxEvent}
    {outcome : PublishOutcome} {pending : List RepositoryCall} {call : RepositoryCall}
    (h : s.write t index = some s') (htask : s.tasks t = .writing worker events outcome pending)
    (hcall : pending[index]? = some call) (hid : id ∉ call.ids) :
    s'.table.lookup id = s.table.lookup id := by
  obtain ⟨u, hu, htable⟩ := update_of_write h htask hcall
  refine Table.lookup_update_of_not_mem htable fun haffected => hid ?_
  obtain ⟨row, _, hguard, rfl⟩ := Table.mem_affected.mp haffected
  exact ((repositoryUpdate_guard hu row).mp hguard).1

/-- The second statement of a MySQL recovery touches each row that it
lists. -/
theorem touches_of_recoverUpdate {thresholdMs : Nat} {eventIds : List EventId}
    (h : s.recoverUpdate t = some s') (htask : s.tasks t = .recoverSelected thresholdMs eventIds)
    (hrow : s.table.lookup id = some row) (hid : id ∈ eventIds) :
    s'.table.lookup id = some (recoverRow s.now row) := by
  obtain ⟨_, _, u, table, htask', hu, _, htable, rfl⟩ := recoverUpdate_cases h
  rw [htask] at htask'
  obtain ⟨rfl, rfl⟩ := Task.recoverSelected.inj htask'
  obtain ⟨hguards, hassigns⟩ := MySQLMaintenance.recoverStaleEvents_eq_some hu
  have hguard : u.guard row = true := by
    rw [hguards, idIn_eq_true, Table.pk_of_lookup hrow]
    exact hid
  rw [← hassigns]
  exact Table.lookup_update_of_guard htable hrow hguard

/-- The second statement of a MySQL recovery leaves the other rows alone. -/
theorem untouched_of_recoverUpdate {thresholdMs : Nat} {eventIds : List EventId}
    (h : s.recoverUpdate t = some s') (htask : s.tasks t = .recoverSelected thresholdMs eventIds)
    (hid : id ∉ eventIds) : s'.table.lookup id = s.table.lookup id := by
  obtain ⟨_, _, u, table, htask', hu, _, htable, rfl⟩ := recoverUpdate_cases h
  rw [htask] at htask'
  obtain ⟨rfl, rfl⟩ := Task.recoverSelected.inj htask'
  refine Table.lookup_update_of_not_mem htable fun haffected => hid ?_
  obtain ⟨row, _, hguard, rfl⟩ := Table.mem_affected.mp haffected
  rw [(MySQLMaintenance.recoverStaleEvents_eq_some hu).1, idIn_eq_true] at hguard
  exact hguard

/-- The second statement of a range replay touches each row that it lists. -/
theorem touches_of_rangeUpdate {input : ReplayRangeInput} {eventIds : List EventId}
    (h : s.rangeUpdate t = some s') (htask : s.tasks t = .rangeSelected input eventIds)
    (hrow : s.table.lookup id = some row) (hid : id ∈ eventIds) :
    s'.table.lookup id = some (replayRow s.now row) := by
  obtain ⟨_, _, table, htask', _, htable, rfl⟩ := rangeUpdate_cases h
  rw [htask] at htask'
  obtain ⟨rfl, rfl⟩ := Task.rangeSelected.inj htask'
  have hguard : (a.replayEventsInRange s.now eventIds).guard row = true := by
    rw [Adapter.replayEventsInRange_guard, idIn_eq_true, Table.pk_of_lookup hrow]
    exact hid
  rw [← Adapter.replayEventsInRange_assign (a := a)]
  exact Table.lookup_update_of_guard htable hrow hguard

end Touched

/-! ## Fresh rows -/

/-- A row that was not there before the step is inserted by it, and starts at
the head of the delivery pipeline. -/
structure FreshRow (s s' : State a) (id : EventId) (row : OutboxEvent) : Prop where
  status : row.status = .pending
  retryCount : row.retryCount = 0
  nextRetryAt : row.nextRetryAt = none
  uuid : isUuid id = true
  history : s'.history = .inserted id :: s.history

/-- A statement other than an insert makes no row. -/
private theorem lookup_update_eq_none {u : OutboxUpdate} {table : OutboxTable a}
    (htable : s.table.update u = some table) {id : EventId} (hrow : s.table.lookup id = none) :
    table.lookup id = none := by
  rw [Table.lookup_update htable, hrow, Option.map_none]

/-- The rows that a step makes. -/
theorem fresh_row_step {act : Action} {id : EventId} {row : OutboxEvent}
    (h : step s act = some s') (hfresh : s.table.lookup id = none)
    (hrow : s'.table.lookup id = some row) : FreshRow s s' id row := by
  have hnot : s'.table.lookup id ≠ none := by simp [hrow]
  cases act with
  | publish id' values =>
    rcases publish_cases h with ⟨huuid, ⟨_, _, _, _, htable, rfl⟩ | ⟨table, htable, rfl⟩⟩
    · exact absurd (lookup_update_eq_none htable hfresh) hnot
    · rw [State.record_table] at hrow
      obtain ⟨rfl, hid⟩ := Table.eq_of_lookup_insert htable hfresh hrow
      obtain rfl : id' = id := hid
      exact ⟨rfl, rfl, rfl, huuid, rfl⟩
  | createEvent id' input =>
    obtain ⟨huuid, table, htable, rfl⟩ := createEvent_cases h
    rw [State.record_table] at hrow
    obtain ⟨rfl, hid⟩ := Table.eq_of_lookup_insert htable hfresh hrow
    rw [createEvent_id] at hid
    subst hid
    exact ⟨createEvent_status _ _ _ _, createEvent_retryCount _ _ _ _,
      createEvent_nextRetryAt _ _ _ _, huuid, rfl⟩
  | softDelete id' =>
    obtain ⟨_, _, _, _, _, htable, rfl⟩ := softDelete_cases h
    exact absurd (lookup_update_eq_none htable hfresh) hnot
  | cleanupStaleIdempotencyKeys retentionDays =>
    obtain ⟨_, _, htable, rfl⟩ := execute_cases h
    exact absurd (lookup_update_eq_none htable hfresh) hnot
  | claim t worker ids =>
    rcases claim_cases h with ⟨_, _, ⟨_, rfl⟩ | ⟨_, _, _, htable, rfl⟩ | ⟨_, _, rfl⟩⟩
    · exact absurd hfresh hnot
    · exact absurd (lookup_update_eq_none htable hfresh) hnot
    · exact absurd hfresh hnot
  | claimCommit t =>
    obtain ⟨_, _, _, _, _, htable, rfl⟩ := claimCommit_cases h
    exact absurd (lookup_update_eq_none htable hfresh) hnot
  | write t index =>
    obtain ⟨_, _, _, _, _, _, _, _, _, _, _, htable, rfl⟩ := write_cases h
    exact absurd (lookup_update_eq_none htable hfresh) hnot
  | recover t thresholdMs =>
    rcases recover_cases h with ⟨_, ⟨_, _, _, htable, rfl⟩ | ⟨_, rfl | rfl⟩⟩
    · exact absurd (lookup_update_eq_none htable hfresh) hnot
    · exact absurd hfresh hnot
    · exact absurd hfresh hnot
  | recoverUpdate t =>
    obtain ⟨_, _, _, _, _, _, _, htable, rfl⟩ := recoverUpdate_cases h
    exact absurd (lookup_update_eq_none htable hfresh) hnot
  | replayUpdate t =>
    obtain ⟨_, _, _, _, _, htable, rfl⟩ := replayUpdate_cases h
    exact absurd (lookup_update_eq_none htable hfresh) hnot
  | rangeUpdate t =>
    obtain ⟨_, _, _, _, _, htable, rfl⟩ := rangeUpdate_cases h
    exact absurd (lookup_update_eq_none htable hfresh) hnot
  | tick micros =>
    obtain rfl := Option.some.inj h
    exact absurd hfresh hnot
  | claimUpdate t =>
    obtain ⟨_, _, _, rfl⟩ := claimUpdate_cases h
    exact absurd hfresh hnot
  | claimReselect t =>
    obtain ⟨_, _, _, rfl⟩ := claimReselect_cases h
    exact absurd hfresh hnot
  | publishBatch t outcome =>
    rcases publishBatch_cases h with ⟨_, _, _, ⟨_, _, rfl⟩ | ⟨_, rfl⟩⟩
    · exact absurd hfresh hnot
    · exact absurd hfresh hnot
  | writeFails t index =>
    obtain ⟨_, _, _, _, _, rfl⟩ := writeFails_cases h
    exact absurd hfresh hnot
  | crash t =>
    obtain rfl := Option.some.inj h
    exact absurd hfresh hnot
  | replaySelect t id' =>
    rcases replaySelect_cases h with ⟨_, rfl | ⟨_, _, rfl⟩⟩
    · exact absurd hfresh hnot
    · exact absurd hfresh hnot
  | rangeSelect t input ids =>
    rcases rangeSelect_cases h with ⟨_, _, rfl | rfl⟩
    · exact absurd hfresh hnot
    · exact absurd hfresh hnot

/-- No step deletes a row. -/
theorem lookup_isSome_step {act : Action} {id : EventId} (h : step s act = some s')
    (hrow : (s.table.lookup id).isSome) : (s'.table.lookup id).isSome := by
  obtain ⟨row, hrow⟩ := Option.isSome_iff_exists.mp hrow
  obtain ⟨row', hrow', _⟩ := row_step h hrow
  simp [hrow']

end Outboxy
