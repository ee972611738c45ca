import Outboxy.RowStep
import Outboxy.TaskStep

/-!
# Invariants of the outbox

What holds in every reachable state, whatever the workers, recoveries and
replays do.

* `reachable_rows` carries a property of rows through every run.
* `TaskOk` is about one call in progress: batches have distinct ids, are not
  larger than the batch size, and issue the calls of their published batch.
* `LocksOk` says that row locks are exclusive, belong to open claims, and are
  held on rows that wait for delivery only.
* `writes_add_mayWrite_le` says that a call writes an outcome at most once.
-/

namespace Outboxy

variable {a : Adapter} {s s' : State a} {act : Action}

/-! ## Rows -/

section Rows

variable {allowed : State a → Action → Prop} {P : State a → OutboxEvent → Prop}

/-- What holds of fresh rows and is kept by every way to change a row holds
of every row. -/
theorem reachable_rows
    (hfresh : ∀ s act s' row, (outbox a).ReachableBy allowed s → step s act = some s' →
      FreshRow s s' row.id row → P s' row)
    (hstep : ∀ s act s' row row', (outbox a).ReachableBy allowed s → allowed s act →
      step s act = some s' → s.table.lookup row.id = some row → row'.id = row.id →
      RowStep s act s' row row' → P s row → P s' row')
    (hs : (outbox a).ReachableBy allowed s) : ∀ row ∈ s.table.rows, P s row := by
  refine hs.induct (P := fun s => ∀ row ∈ s.table.rows, P s row) ?_ ?_
  · intro s hinit row hrow
    obtain ⟨clock, rfl⟩ := hinit
    exact absurd hrow List.not_mem_nil
  · intro s act s' hs hrows hallowed h row' hrow'
    have hlookup' := Table.lookup_of_mem hrow'
    cases hlookup : s.table.lookup row'.id with
    | none => exact hfresh s act s' row' hs h (fresh_row_step h hlookup hlookup')
    | some row =>
      obtain ⟨row'', hrow'', hrowStep⟩ := row_step h hlookup
      rw [hlookup'] at hrow''
      obtain rfl := Option.some.inj hrow''
      have hid : row.id = row'.id := Table.pk_of_lookup hlookup
      rw [← hid] at hlookup
      exact hstep s act s' row row' hs hallowed h hlookup hid.symm hrowStep
        (hrows row (Table.mem_of_lookup hlookup))

end Rows

/-- Event ids are UUIDs. -/
theorem isUuid_of_reachable (hs : (outbox a).Reachable s) :
    ∀ row ∈ s.table.rows, isUuid row.id = true := by
  refine reachable_rows (P := fun _ row => isUuid row.id = true) ?_ ?_ hs
  · intro _ _ _ _ _ _ hfresh
    exact hfresh.uuid
  · intro _ _ _ _ _ _ _ _ _ hid _ huuid
    rw [hid]
    exact huuid

/-- A row in processing knows since when. -/
theorem processingStartedAt_isSome (hs : (outbox a).Reachable s) :
    ∀ row ∈ s.table.rows, row.status = .processing → row.processingStartedAt.isSome := by
  refine reachable_rows
    (P := fun _ row => row.status = .processing → row.processingStartedAt.isSome) ?_ ?_ hs
  · intro _ _ _ _ _ _ hfresh hstatus
    rw [hfresh.status] at hstatus
    exact absurd hstatus (by simp)
  · intro s act s' row row' _ _ _ _ _ hrowStep ih hstatus
    cases hrowStep with
    | kept hkeep _ =>
      rw [hkeep.processingStartedAt]
      exact ih (hkeep.status ▸ hstatus)
    | claimed => rfl
    | committed => rfl
    | written _ _ _ _ _ _ call _ _ _ _ _ heffect =>
      rw [heffect.status] at hstatus
      cases call <;> exact absurd hstatus (by simp [RepositoryCall.status])
    | recovered => exact absurd hstatus (by simp [recoverRow])
    | recoveredById => exact absurd hstatus (by simp [recoverRow])
    | replayed => exact absurd hstatus (by simp [replayRow])
    | rangeReplayed => exact absurd hstatus (by simp [replayRow])

/-- Only the second statement of a MySQL recovery can count a retry too many:
it does not look whether one is left. -/
theorem retryCount_le_rowStep {row row' : OutboxEvent} (hstep : RowStep s act s' row row')
    (hbyId : ∀ t thresholdMs eventIds, act = .recoverUpdate t →
      s.tasks t = .recoverSelected thresholdMs eventIds → row.id ∈ eventIds →
      (row.retryCount : Int) < row.maxRetries)
    (hcount : (row.retryCount : Int) ≤ max 0 row.maxRetries) :
    (row'.retryCount : Int) ≤ max 0 row'.maxRetries := by
  cases hstep with
  | kept hkeep _ =>
    rw [hkeep.retryCount, hkeep.maxRetries]
    exact hcount
  | claimed => exact hcount
  | committed => exact hcount
  | written _ _ _ _ _ _ call _ _ _ _ hadmits heffect =>
    obtain ⟨_, hcount', _, hmax, _⟩ := heffect
    cases call with
    | scheduleRetry eventIds errorMessages config =>
      have hretry : (row.retryCount : Int) < row.maxRetries := hadmits
      simp only [RepositoryCall.decision, ↓reduceIte] at hcount'
      omega
    | _ =>
      simp only [RepositoryCall.decision, reduceCtorEq, ↓reduceIte] at hcount'
      omega
  | recovered _ _ _ _ _ hstale =>
    have hretry := (PgMaintenance.stale_iff.mp hstale).2.2
    simp only [recoverRow]
    omega
  | recoveredById t thresholdMs eventIds _ hact htask hid =>
    have hretry := hbyId t thresholdMs eventIds hact htask hid
    simp only [recoverRow]
    omega
  | replayed => exact Int.le_max_left _ _
  | rangeReplayed => exact Int.le_max_left _ _

/-! ## Calls in progress -/

/-- A batch that a call has claimed. -/
structure BatchOk (s : State a) (t : TaskId) (worker : OutboxWorker) (ids : List EventId) :
    Prop where
  nodup : ids.Nodup
  length_le : ids.length ≤ worker.config.batchSize
  claimed : ∀ id ∈ ids, ∃ claimed, .claimed t claimed ∈ s.history ∧ id ∈ claimed

/-- What holds of a call in progress. -/
def TaskOk (s : State a) (t : TaskId) : Task → Prop
  | .claimSelected worker ids =>
    a ≠ .postgres ∧ ids.Nodup ∧ ids.length ≤ worker.config.batchSize
  | .claimUpdated worker ids _ =>
    a ≠ .postgres ∧ ids.Nodup ∧ ids.length ≤ worker.config.batchSize
  | .claimCommitted worker ids => BatchOk s t worker ids
  | .claimed worker events => BatchOk s t worker (events.map OutboxEvent.id)
  | .writing worker events outcome pending =>
    BatchOk s t worker (events.map OutboxEvent.id) ∧
      .published t worker events outcome ∈ s.history ∧
      ∃ calls, executeBatchProcessing worker events outcome = some calls ∧ pending.Sublist calls
  | .recoverSelected _ _ => a ≠ .postgres
  | .rangeSelected _ eventIds =>
    eventIds.Nodup ∧ ∀ id ∈ eventIds, (s.table.lookup id).isSome
  | _ => True

theorem BatchOk.mono {t : TaskId} {worker : OutboxWorker} {ids ids' : List EventId}
    (h : BatchOk s t worker ids) (hids : ids'.Sublist ids)
    (hhistory : s.history ⊆ s'.history) : BatchOk s' t worker ids' where
  nodup := h.nodup.sublist hids
  length_le := hids.length_le.trans h.length_le
  claimed id hid := by
    obtain ⟨claimed, hclaimed, hmem⟩ := h.claimed id (hids.subset hid)
    exact ⟨claimed, hhistory hclaimed, hmem⟩

theorem history_subset_step (h : step s act = some s') : s.history ⊆ s'.history :=
  (frame_step h).history.subset

/-- A step of the others keeps what holds of a call. -/
theorem TaskOk.mono {t : TaskId} {task : Task} (h : step s act = some s')
    (htask : TaskOk s t task) : TaskOk s' t task := by
  have hhistory := history_subset_step h
  cases task with
  | claimCommitted worker ids => exact BatchOk.mono htask (List.Sublist.refl _) hhistory
  | claimed worker events => exact BatchOk.mono htask (List.Sublist.refl _) hhistory
  | writing worker events outcome pending =>
    obtain ⟨hbatch, hpublished, hcalls⟩ := htask
    exact ⟨hbatch.mono (List.Sublist.refl _) hhistory, hhistory hpublished, hcalls⟩
  | rangeSelected input eventIds =>
    exact ⟨htask.1, fun id hid => lookup_isSome_step h (htask.2 id hid)⟩
  | _ => exact htask

theorem taskOk_of_reachable (hs : (outbox a).Reachable s) : ∀ t, TaskOk s t (s.tasks t) := by
  refine hs.induct (P := fun s => ∀ t, TaskOk s t (s.tasks t)) ?_ ?_
  · intro s hinit t
    obtain ⟨clock, rfl⟩ := hinit
    trivial
  · intro s act s' _ hok _ h t
    have htask := (hok t).mono h
    have hmove := task_step h t
    generalize s.tasks t = task at htask hmove
    generalize s'.tasks t = task' at hmove
    cases hmove with
    | kept => exact htask
    | ended => trivial
    | selected worker ids _ ha hselection =>
      exact ⟨ha, hselection.isSelection.1, hselection.isSelection.length_le⟩
    | claimed worker ids _ _ hselection _ _ hhistory =>
      have hclaimed : BatchOk s' t worker ids := by
        refine ⟨hselection.isSelection.1, hselection.isSelection.length_le, fun id hid => ?_⟩
        exact ⟨ids, hhistory ▸ List.mem_cons_self, hid⟩
      exact hclaimed.mono (Table.map_pk_filterMap_lookup_sublist _ _) (List.Subset.refl _)
    | updated => exact htask
    | committed worker ids _ _ _ _ hhistory =>
      exact ⟨htask.2.1, htask.2.2, fun id hid => ⟨ids, hhistory ▸ List.mem_cons_self, hid⟩⟩
    | reselected =>
      exact BatchOk.mono htask (Table.map_pk_filterMap_lookup_sublist _ _) (List.Subset.refl _)
    | published worker events outcome calls _ hcalls _ _ hhistory =>
      exact ⟨htask, hhistory ▸ List.mem_cons_self, calls, hcalls, List.Sublist.refl _⟩
    | wrote worker events outcome pending index call _ _ _ hhistory =>
      obtain ⟨hbatch, hpublished, calls, hcalls, hpending⟩ := htask
      exact ⟨hbatch, hpublished, calls, hcalls, (List.eraseIdx_sublist _ _).trans hpending⟩
    | writeFailed worker events outcome pending index _ _ _ =>
      obtain ⟨hbatch, hpublished, calls, hcalls, hpending⟩ := htask
      exact ⟨hbatch, hpublished, calls, hcalls, (List.eraseIdx_sublist _ _).trans hpending⟩
    | recoverSelected _ _ ha => exact ha
    | replaySelected => trivial
    | rangeSelected input ids _ hselection htable _ =>
      refine ⟨hselection.1, fun id hid => ?_⟩
      obtain ⟨row, hrow, _⟩ := hselection.lookup hid
      rw [htable, hrow]
      rfl

/-- The call that a `write` action executes. -/
def IssuedCall (s : State a) (t : TaskId) (index : Nat) (call : RepositoryCall) : Prop :=
  ∃ worker events outcome pending, s.tasks t = .writing worker events outcome pending ∧
    pending[index]? = some call

/-- An issued call is one of the calls of the published batch of its task. -/
theorem exists_calls_of_issued (hs : (outbox a).Reachable s) {t : TaskId} {index : Nat}
    {call : RepositoryCall} (hissued : IssuedCall s t index call) :
    ∃ worker events outcome pending calls, s.tasks t = .writing worker events outcome pending ∧
      BatchOk s t worker (events.map OutboxEvent.id) ∧
      .published t worker events outcome ∈ s.history ∧
      executeBatchProcessing worker events outcome = some calls ∧ call ∈ calls := by
  obtain ⟨worker, events, outcome, pending, htask, hcall⟩ := hissued
  have hok := taskOk_of_reachable hs t
  rw [htask] at hok
  obtain ⟨hbatch, hpublished, calls, hcalls, hpending⟩ := hok
  have hmem : call ∈ calls := hpending.subset (List.mem_of_getElem? hcall)
  exact ⟨worker, events, outcome, pending, calls, htask, hbatch, hpublished, hcalls, hmem⟩

/-- A call that is issued for an event carries out the decision about it in
the published batch of its task. -/
theorem exists_event_of_issued (hs : (outbox a).Reachable s) {t : TaskId} {index : Nat}
    {call : RepositoryCall} (hissued : IssuedCall s t index call) {id : EventId}
    (hid : id ∈ call.ids) :
    ∃ worker events outcome pending event, s.tasks t = .writing worker events outcome pending ∧
      BatchOk s t worker (events.map OutboxEvent.id) ∧
      .published t worker events outcome ∈ s.history ∧ event ∈ events ∧
      decision worker outcome event = call.decision ∧ event.id = id := by
  obtain ⟨worker, events, outcome, pending, calls, htask, hbatch, hpublished, hcalls, hmem⟩ :=
    exists_calls_of_issued hs hissued
  obtain ⟨event, hevent, hdecision, hid⟩ :=
    exists_event_of_mem_ids hbatch.nodup hcalls hmem hid
  exact ⟨worker, events, outcome, pending, event, htask, hbatch, hpublished, hevent, hdecision,
    hid⟩

/-! ## Locks -/

/-- Row locks belong to open claims, and protect rows that wait for
delivery. -/
structure LocksOk (s : State a) : Prop where
  held : ∀ t id, (t, id) ∈ s.locks ↔ id ∈ (s.tasks t).lockedIds
  unique : ∀ t t' id, (t, id) ∈ s.locks → (t', id) ∈ s.locks → t = t'
  waiting : ∀ t id, (t, id) ∈ s.locks → ∃ row, s.table.lookup id = some row ∧
    (row.status = .pending ∨ row.status = .failed)

theorem locked_of_mem_locks {t : TaskId} {id : EventId} (h : (t, id) ∈ s.locks) :
    s.locked id = true := by
  rw [State.locked, List.any_eq_true]
  exact ⟨(t, id), h, by simp⟩

/-- A step keeps the correspondence of locks and open claims. -/
private theorem locksOk_held_step (h : step s act = some s') {t : TaskId}
    (hheld : ∀ id, (t, id) ∈ s.locks ↔ id ∈ (s.tasks t).lockedIds) :
    ∀ id, (t, id) ∈ s'.locks ↔ id ∈ (s'.tasks t).lockedIds := by
  intro id
  have hid := hheld id
  have hmove := task_step h t
  generalize s.tasks t = task at hid hmove
  generalize s'.tasks t = task' at hmove
  cases hmove with
  | kept _ hlocks => rw [hlocks, hid]
  | ended _ _ hlocks =>
    rcases hlocks with hnone | ⟨hsame, hempty⟩
    · simp [hnone id, Task.lockedIds]
    · rw [hsame, hid, hempty]
      rfl
  | selected _ _ _ _ _ _ hlocks =>
    have hnone : (t, id) ∉ s.locks := by simp [hid, Task.lockedIds]
    simp [hlocks, hnone, Task.lockedIds]
  | committed _ _ _ _ _ hlocks => simp [hlocks id, Task.lockedIds]
  | claimed _ _ _ _ _ _ hlocks => rw [hlocks, hid]; rfl
  | updated _ _ _ hlocks => rw [hlocks, hid]; rfl
  | reselected _ _ _ _ hlocks => rw [hlocks, hid]; rfl
  | published _ _ _ _ _ _ _ hlocks => rw [hlocks, hid]; rfl
  | wrote _ _ _ _ _ _ _ _ hlocks => rw [hlocks, hid]; rfl
  | writeFailed _ _ _ _ _ _ hlocks => rw [hlocks, hid]; rfl
  | recoverSelected _ _ _ _ hlocks => rw [hlocks, hid]; rfl
  | replaySelected _ _ _ _ hlocks => rw [hlocks, hid]; rfl
  | rangeSelected _ _ _ _ _ hlocks => rw [hlocks, hid]; rfl

/-- A lock is old, or the step takes it on a free row that waits for
delivery. -/
private theorem mem_locks_step (h : step s act = some s')
    (hheld : ∀ t id, (t, id) ∈ s.locks ↔ id ∈ (s.tasks t).lockedIds) {t : TaskId} {id : EventId}
    (hlock : (t, id) ∈ s'.locks) :
    (t, id) ∈ s.locks ∨
      act.task? = some t ∧ s'.table = s.table ∧ s.locked id = false ∧
        ∃ row, s.table.lookup id = some row ∧ (row.status = .pending ∨ row.status = .failed) := by
  have hlock' := (locksOk_held_step h (hheld t) id).mp hlock
  have hid := hheld t id
  have hmove := task_step h t
  generalize s.tasks t = task at hid hmove
  generalize s'.tasks t = task' at hlock' hmove
  cases hmove with
  | kept _ hlocks => exact Or.inl ((hlocks id).mp hlock)
  | selected worker ids hact _ hselection htable _ =>
    obtain ⟨row, hrow, hclaimable⟩ := hselection.isSelection.lookup hlock'
    rw [Bool.and_eq_true, Bool.not_eq_true', Table.pk_of_lookup hrow] at hclaimable
    refine Or.inr ⟨hact ▸ rfl, htable, hclaimable.2, row, hrow, ?_⟩
    exact (Adapter.status_of_claimable hclaimable.1).1
  | updated => exact Or.inl (hid.mpr hlock')
  | _ => exact absurd hlock' List.not_mem_nil

/-- A row that is locked when the step is over waits for delivery. -/
private theorem waiting_step (h : step s act = some s') (hlocks : LocksOk s) {t : TaskId}
    {id : EventId} (hlock : (t, id) ∈ s'.locks) :
    ∃ row, s'.table.lookup id = some row ∧ (row.status = .pending ∨ row.status = .failed) := by
  rcases mem_locks_step h hlocks.held hlock with hold | ⟨_, htable, _, hwaiting⟩
  case inr =>
    rw [htable]
    exact hwaiting
  obtain ⟨row, hrow, hstatus⟩ := hlocks.waiting t id hold
  have hlocked : s.locked row.id = true := by
    rw [Table.pk_of_lookup hrow]
    exact locked_of_mem_locks hold
  obtain ⟨row', hrow', hrowStep⟩ := row_step h hrow
  refine ⟨row', hrow', ?_⟩
  -- A statement waits for the locked row; only the commit of its claim does not.
  cases hrowStep with
  | kept hkeep _ =>
    rw [hkeep.status]
    exact hstatus
  | committed t' worker ids startedAt hact htask hid hhistory =>
    have hlock' : (t', row.id) ∈ s.locks := (hlocks.held t' row.id).mpr (by rw [htask]; exact hid)
    rw [Table.pk_of_lookup hrow] at hlock'
    obtain rfl := hlocks.unique t t' id hold hlock'
    have hlock'' := (locksOk_held_step h (hlocks.held t) id).mp hlock
    have hmove := task_step h t
    rw [htask] at hmove
    generalize s'.tasks t = task' at hlock'' hmove
    subst hact
    cases hmove with
    | kept hact _ => exact absurd rfl hact
    | _ => exact absurd hlock'' List.not_mem_nil
  | claimed _ _ _ _ _ _ _ hfree => exact absurd hlocked (by simp [hfree])
  | written _ _ _ _ _ _ _ _ _ _ _ _ _ hfree => exact absurd hlocked (by simp [hfree])
  | recovered _ _ _ _ _ _ hfree => exact absurd hlocked (by simp [hfree])
  | recoveredById _ _ _ _ _ _ _ hfree => exact absurd hlocked (by simp [hfree])
  | replayed _ _ _ _ _ _ hfree => exact absurd hlocked (by simp [hfree])
  | rangeReplayed _ _ _ _ _ _ hfree => exact absurd hlocked (by simp [hfree])

theorem locksOk_of_reachable (hs : (outbox a).Reachable s) : LocksOk s := by
  refine hs.induct ?_ ?_
  · intro s hinit
    obtain ⟨clock, rfl⟩ := hinit
    constructor <;> simp [State.initial, Task.lockedIds]
  · intro s act s' _ hlocks _ h
    refine ⟨fun t => locksOk_held_step h (hlocks.held t), ?_, fun t id => waiting_step h hlocks⟩
    intro t t' id hlock hlock'
    rcases mem_locks_step h hlocks.held hlock with hold | ⟨hact, _, hfree, _⟩ <;>
      rcases mem_locks_step h hlocks.held hlock' with hold' | ⟨hact', _, hfree', _⟩
    · exact hlocks.unique t t' id hold hold'
    · exact absurd (locked_of_mem_locks hold) (by simp [hfree'])
    · exact absurd (locked_of_mem_locks hold') (by simp [hfree])
    · rw [hact] at hact'
      exact Option.some.inj hact'

/-- The commit of a claim finds its rows waiting for delivery. -/
theorem status_of_claimUpdated (hs : (outbox a).Reachable s) {t : TaskId} {worker : OutboxWorker}
    {ids : List EventId} {startedAt : Int} (htask : s.tasks t = .claimUpdated worker ids startedAt)
    {id : EventId} (hid : id ∈ ids) {row : OutboxEvent} (hrow : s.table.lookup id = some row) :
    row.status = .pending ∨ row.status = .failed := by
  have hlocks := locksOk_of_reachable hs
  have hlock : (t, id) ∈ s.locks := (hlocks.held t id).mpr (by rw [htask]; exact hid)
  obtain ⟨row', hrow', hstatus⟩ := hlocks.waiting t id hlock
  rw [hrow] at hrow'
  obtain rfl := Option.some.inj hrow'
  exact hstatus

/-- PostgreSQL claims in one statement, so it leaves no row locked. -/
theorem locks_eq_nil_of_postgres {s : State .postgres} (hs : (outbox .postgres).Reachable s) :
    s.locks = [] := by
  refine List.eq_nil_iff_forall_not_mem.mpr ?_
  intro lock hlock
  obtain ⟨t, id⟩ := lock
  have hid := ((locksOk_of_reachable hs).held t id).mp hlock
  have htask := taskOk_of_reachable hs t
  cases h : s.tasks t with
  | claimSelected worker ids =>
    rw [h] at htask
    exact htask.1 rfl
  | claimUpdated worker ids startedAt =>
    rw [h] at htask
    exact htask.1 rfl
  | _ =>
    rw [h] at hid
    exact absurd hid List.not_mem_nil

/-! ## Outcome writes -/

theorem writes_le_step (h : step s act = some s') (t : TaskId) (id : EventId) :
    writes t id s.history ≤ writes t id s'.history :=
  (frame_step h).history.sublist.countP_le

/-- How many more writes a call can make that list the event. -/
def Task.mayWrite (id : EventId) : Task → Nat
  | .idle => 1
  | .claimSelected _ _ => 1
  | .claimUpdated _ _ _ => 1
  | .claimCommitted _ _ => 1
  | .claimed _ _ => 1
  | .writing _ _ _ pending => (pending.flatMap RepositoryCall.ids).count id
  | _ => 0

/-- A call writes the outcome of an event at most once: the writes that it has
made and the ones that it can still make are at most one. -/
theorem writes_add_mayWrite_le (hs : (outbox a).Reachable s) (t : TaskId) (id : EventId) :
    writes t id s.history + (s.tasks t).mayWrite id ≤ 1 := by
  refine hs.induct
    (P := fun s => writes t id s.history + (s.tasks t).mayWrite id ≤ 1) ?_ ?_
  · intro s hinit
    obtain ⟨clock, rfl⟩ := hinit
    simp [State.initial, writes, Task.mayWrite]
  · intro s act s' hs hle _ h
    have hwrites := (frame_step h).writes t id
    have htask := taskOk_of_reachable hs t
    have hmove := task_step h t
    generalize s.tasks t = task at hle htask hmove
    generalize s'.tasks t = task' at hmove
    cases hmove with
    | kept hact _ =>
      rw [hwrites fun index heq => hact (heq ▸ rfl)]
      exact hle
    | ended _ hwrite _ =>
      rw [hwrites hwrite]
      exact (Nat.le_add_right _ _).trans hle
    | published worker events outcome calls hact hcalls _ _ _ =>
      -- The calls list each event of the batch once.
      have hcount := List.nodup_iff_count_le_one.mp
        (nodup_flatMap_ids_calls htask.nodup hcalls) id
      rw [hwrites (by simp [hact])]
      simp only [Task.mayWrite] at hle ⊢
      omega
    | wrote worker events outcome pending index call hact hcall _ hhistory =>
      have hcount := count_ids_eraseIdx hcall id
      have hwrote : writes t id s'.history ≤ writes t id s.history + call.ids.count id := by
        rw [hhistory, writes, writes, List.countP_cons]
        split
        · rename_i hmem
          have hpos : 0 < call.ids.count id := by
            simpa [HistoryEntry.writes, List.count_pos_iff] using hmem
          omega
        · omega
      simp only [Task.mayWrite] at hle ⊢
      omega
    | writeFailed worker events outcome pending index hact _ _ =>
      have hcount := ((List.eraseIdx_sublist pending index).flatMap
        RepositoryCall.ids).count_le id
      rw [hwrites (by simp [hact])]
      simp only [Task.mayWrite] at hle ⊢
      omega
    | selected _ _ hact => rw [hwrites (by simp [hact])]; exact hle
    | claimed _ _ hact => rw [hwrites (by simp [hact])]; exact hle
    | updated _ _ hact => rw [hwrites (by simp [hact])]; exact hle
    | committed _ _ _ hact => rw [hwrites (by simp [hact])]; exact hle
    | reselected _ _ hact => rw [hwrites (by simp [hact])]; exact hle
    | recoverSelected _ hact =>
      rw [hwrites (by simp [hact])]
      exact (Nat.le_add_right _ _).trans hle
    | replaySelected _ _ hact =>
      rw [hwrites (by simp [hact])]
      exact (Nat.le_add_right _ _).trans hle
    | rangeSelected _ _ hact =>
      rw [hwrites (by simp [hact])]
      exact (Nat.le_add_right _ _).trans hle

/-- An issued call lists events that its task has not written yet. -/
theorem writes_eq_zero_of_issued (hs : (outbox a).Reachable s) {t : TaskId} {index : Nat}
    {call : RepositoryCall} (hissued : IssuedCall s t index call) {id : EventId}
    (hid : id ∈ call.ids) : writes t id s.history = 0 := by
  obtain ⟨worker, events, outcome, pending, htask, hcall⟩ := hissued
  have hle := writes_add_mayWrite_le hs t id
  have hpos : 0 < (pending.flatMap RepositoryCall.ids).count id :=
    List.count_pos_iff.mpr (List.mem_flatMap.mpr ⟨call, List.mem_of_getElem? hcall, hid⟩)
  rw [htask] at hle
  simp only [Task.mayWrite] at hle
  omega

end Outboxy
