import Outboxy.Invariants

/-!
# Recovery after a crash

A worker that crashes between its claim and its outcome write leaves its rows
in `processing`.  A claim does not look at the retry count, but stale
recovery asks for `retry_count < max_retries`, and no other statement looks
for rows in `processing`.  So a row whose last attempt crashed has no way
out.

* `recoverStaleEvents_eq` is what an uninterrupted recovery makes of an old
  row in `processing`.
* `Stuck` is the dead end, and `stuck_step` says that no step leads out of it.
* `crash_recovery_iff` puts both together.
-/

namespace Outboxy

variable {a : Adapter} {s s' : State a} {act : Action}

/-! ## An uninterrupted recovery -/

/-- The row has been in `processing` for longer than the threshold, as the
adapter measures it. -/
def Adapter.olderThan (a : Adapter) (now : Int) (thresholdMs : Nat) (row : OutboxEvent) : Bool :=
  match a with
  | .postgres => sqlLt row.processingStartedAt (now - thresholdMs * Time.millisecond)
  | .mysql =>
    sqlLt row.processingStartedAt
      (now - MySQLMaintenance.thresholdSeconds thresholdMs * Time.second)

/-- The statements of `recoverStaleEvents`.  On MySQL, it stops after its
`SELECT` when nothing is stale. -/
def recoverStaleEvents (s : State a) (t : TaskId) (thresholdMs : Nat) : List Action :=
  if a = .postgres then [.recover t thresholdMs]
  else if MySQLMaintenance.staleIds s.table s.now thresholdMs = [] then [.recover t thresholdMs]
  else [.recover t thresholdMs, .recoverUpdate t]

/-- The recovery of a row that is not delivered keeps its index key. -/
theorem idempotencyIndex_recoverRow (a : Adapter) (now : Int) {row : OutboxEvent}
    (h : row.status = .processing) :
    a.idempotencyIndex (recoverRow now row) = a.idempotencyIndex row := by
  cases a with
  | postgres => simp [Adapter.idempotencyIndex, recoverRow, h]
  | mysql => rfl

/-- A statement that recovers rows in `processing` executes. -/
theorem execute_recover (hs : (outbox a).Reachable s) {u : OutboxUpdate}
    (hassign : u.assign = recoverRow s.now)
    (hguard : ∀ row ∈ s.table.rows, u.guard row = true → row.status = .processing) :
    ∃ table, s.execute u = some { s with table := table } ∧ s.table.update u = some table := by
  have hindex : (s.table.update u).isSome := by
    refine Table.update_isSome fun row hrow hmatch => ?_
    rw [hassign]
    exact idempotencyIndex_recoverRow a s.now (hguard row hrow hmatch)
  obtain ⟨table, htable⟩ := Option.isSome_iff_exists.mp hindex
  refine ⟨table, ?_, htable⟩
  unfold State.execute
  rw [if_neg, htable, Option.map_some]
  -- A locked row waits for delivery.
  intro hany
  obtain ⟨row, hrow, hmatch⟩ := List.any_eq_true.mp hany
  rw [Bool.and_eq_true] at hmatch
  obtain ⟨⟨t, id⟩, hlock, hid⟩ := List.any_eq_true.mp hmatch.2
  obtain rfl : id = row.id := of_decide_eq_true hid
  obtain ⟨row', hrow', hwaiting⟩ := (locksOk_of_reachable hs).waiting t row.id hlock
  rw [Table.lookup_of_mem hrow] at hrow'
  obtain rfl := Option.some.inj hrow'
  simp [hguard row hrow hmatch.1] at hwaiting

/-- The MySQL `SELECT` finds the rows that it should. -/
theorem mem_staleIds {now : Int} {thresholdMs : Nat} {id : EventId} {row : OutboxEvent}
    (hrow : s.table.lookup id = some row) :
    id ∈ MySQLMaintenance.staleIds s.table now thresholdMs ↔
      MySQLMaintenance.stale now thresholdMs row = true := by
  simp only [MySQLMaintenance.staleIds, List.mem_map, List.mem_filter]
  constructor
  · intro h
    obtain ⟨row', ⟨hmem, hstale⟩, rfl⟩ := h
    rw [Table.lookup_of_mem hmem] at hrow
    exact Option.some.inj hrow ▸ hstale
  · intro hstale
    exact ⟨row, ⟨Table.mem_of_lookup hrow, hstale⟩, Table.pk_of_lookup hrow⟩

/-- A row that only the retry limit can keep from being recovered. -/
private theorem lookup_recovered {u : OutboxUpdate} {table : OutboxTable a} {now : Int}
    {id : EventId} {row : OutboxEvent} (hassign : u.assign = recoverRow now)
    (htable : s.table.update u = some table) (hrow : s.table.lookup id = some row)
    (hguard : u.guard row = true ↔ (row.retryCount : Int) < row.maxRetries) :
    table.lookup id =
      some (if (row.retryCount : Int) < row.maxRetries then recoverRow now row else row) := by
  split
  · rename_i hretry
    rw [Table.lookup_update_of_guard htable hrow (hguard.mpr hretry), hassign]
  · rename_i hretry
    have hnot : u.guard row = false := by
      by_contra hne
      exact hretry (hguard.mp (eq_true_of_ne_false hne))
    rw [Table.lookup_update htable, hrow, Option.map_some, Update.apply_of_not_guard hnot]

section Uninterrupted

variable {t : TaskId} {thresholdMs : Nat} {id : EventId} {row : OutboxEvent}

private theorem recoverStaleEvents_eq_postgres {s : State .postgres}
    (hs : (outbox .postgres).Reachable s) (htask : s.tasks t = .idle)
    (hrow : s.table.lookup id = some row) (hstatus : row.status = .processing)
    (hold : Adapter.postgres.olderThan s.now thresholdMs row = true) :
    ∃ s', (outbox .postgres).run s (recoverStaleEvents s t thresholdMs) = some s' ∧
      s'.table.lookup id =
        some (if (row.retryCount : Int) < row.maxRetries then recoverRow s.now row else row) := by
  obtain ⟨table, hexecute, htable⟩ :=
    execute_recover hs (u := PgMaintenance.recoverStaleEvents s.now thresholdMs) rfl
      fun row _ hstale => (PgMaintenance.stale_iff.mp hstale).1
  have hguard : PgMaintenance.stale s.now thresholdMs row = true ↔
      (row.retryCount : Int) < row.maxRetries := by
    rw [PgMaintenance.stale_iff]
    simp only [hstatus, true_and]
    exact and_iff_right hold
  have hrecover : ∃ s', s.recover t thresholdMs = some s' ∧ s'.table = table := by
    simp [State.recover, htask, hexecute]
  obtain ⟨s', hs', rfl⟩ := hrecover
  refine ⟨s', ?_, lookup_recovered rfl htable hrow hguard⟩
  rw [recoverStaleEvents, if_pos rfl, Transition.System.run_singleton]
  exact hs'

/-- The `UPDATE` of a MySQL recovery executes when its rows are in
`processing`. -/
private theorem exists_recoverUpdate {s : State .mysql} (hs : (outbox .mysql).Reachable s)
    {ids : List EventId} (htask : s.tasks t = .recoverSelected thresholdMs ids)
    (huuids : MySQLEventRepository.validateIds ids = true)
    (hprocessing : ∀ row ∈ s.table.rows, row.id ∈ ids → row.status = .processing) :
    ∃ s', (outbox .mysql).step s (.recoverUpdate t) = some s' ∧
      s.table.update ⟨idIn ids, recoverRow s.now, fun _ => rfl⟩ = some s'.table := by
  obtain ⟨table, hexecute, htable⟩ := execute_recover hs
    (u := ⟨idIn ids, recoverRow s.now, fun _ => rfl⟩) rfl
    fun row hrow hlisted => hprocessing row hrow (idIn_eq_true.mp hlisted)
  refine ⟨(({ s with table := table } : State .mysql).setTask t .done).record (.recovered
    (s.table.affected ⟨idIn ids, recoverRow s.now, fun _ => rfl⟩)), ?_, htable⟩
  show s.recoverUpdate t = _
  simp [State.recoverUpdate, htask, MySQLMaintenance.recoverStaleEvents, huuids, hexecute]

private theorem recoverStaleEvents_eq_mysql {s : State .mysql}
    (hs : (outbox .mysql).Reachable s) (htask : s.tasks t = .idle)
    (hrow : s.table.lookup id = some row) (hstatus : row.status = .processing)
    (hold : Adapter.mysql.olderThan s.now thresholdMs row = true) :
    ∃ s', (outbox .mysql).run s (recoverStaleEvents s t thresholdMs) = some s' ∧
      s'.table.lookup id =
        some (if (row.retryCount : Int) < row.maxRetries then recoverRow s.now row else row) := by
  generalize hids : MySQLMaintenance.staleIds s.table s.now thresholdMs = ids
  have hlisted : id ∈ ids ↔ (row.retryCount : Int) < row.maxRetries := by
    rw [← hids, mem_staleIds hrow, MySQLMaintenance.stale_iff]
    simp only [hstatus, true_and]
    exact and_iff_right hold
  by_cases hnil : ids = []
  · -- Nothing is stale.
    refine ⟨s.setTask t .done, ?_, ?_⟩
    · rw [recoverStaleEvents, if_neg (by simp), hids, if_pos hnil,
        Transition.System.run_singleton]
      show s.recover t thresholdMs = _
      simp [State.recover, htask, hids, hnil]
    · rw [if_neg (by rw [← hlisted, hnil]; exact List.not_mem_nil)]
      exact hrow
  · have hstale : ∀ row ∈ s.table.rows, row.id ∈ ids →
        MySQLMaintenance.stale s.now thresholdMs row = true := by
      intro row' hmem hlist
      rw [← hids, mem_staleIds (Table.lookup_of_mem hmem)] at hlist
      exact hlist
    have huuids : MySQLEventRepository.validateIds ids = true := by
      rw [MySQLEventRepository.validateIds, List.all_eq_true, ← hids]
      intro id hid
      obtain ⟨row, hmem, rfl⟩ := List.mem_map.mp hid
      exact isUuid_of_reachable hs row (List.mem_of_mem_filter hmem)
    have hselect : (outbox .mysql).step s (.recover t thresholdMs) =
        some (s.setTask t (.recoverSelected thresholdMs ids)) := by
      show s.recover t thresholdMs = _
      simp [State.recover, htask, hids, hnil]
    obtain ⟨s', hs', htable⟩ := exists_recoverUpdate (.step hs trivial hselect)
      (State.setTask_tasks_self s t _) huuids
      fun row hrow hlist => (MySQLMaintenance.stale_iff.mp (hstale row hrow hlist)).1
    refine ⟨s', ?_, lookup_recovered rfl htable hrow ?_⟩
    · rw [recoverStaleEvents, if_neg (by simp), hids, if_neg hnil, Transition.System.run_cons,
        hselect, Option.bind_some, Transition.System.run_singleton]
      exact hs'
    · show idIn ids row = true ↔ _
      rw [idIn_eq_true, Table.pk_of_lookup hrow, hlisted]

/-- What an uninterrupted recovery makes of an old row in `processing`. -/
theorem recoverStaleEvents_eq (hs : (outbox a).Reachable s) (htask : s.tasks t = .idle)
    (hrow : s.table.lookup id = some row) (hstatus : row.status = .processing)
    (hold : a.olderThan s.now thresholdMs row = true) :
    ∃ s', (outbox a).run s (recoverStaleEvents s t thresholdMs) = some s' ∧
      s'.table.lookup id =
        some (if (row.retryCount : Int) < row.maxRetries then recoverRow s.now row else row) := by
  cases a with
  | postgres => exact recoverStaleEvents_eq_postgres hs htask hrow hstatus hold
  | mysql => exact recoverStaleEvents_eq_mysql hs htask hrow hstatus hold

end Uninterrupted

/-! ## The dead end -/

/-- The events whose rows a call may still touch without a look at their
status. -/
def Task.holds : Task → List EventId
  | .claimSelected _ ids => ids
  | .claimUpdated _ ids _ => ids
  | .claimCommitted _ ids => ids
  | .claimed _ events => events.map OutboxEvent.id
  | .writing _ _ _ pending => pending.flatMap RepositoryCall.ids
  | .recoverSelected _ eventIds => eventIds
  | .rangeSelected _ eventIds => eventIds
  | _ => []

/-- The worker that claimed the event is gone, and no other call is about to
touch it. -/
def Abandoned (s : State a) (id : EventId) : Prop := ∀ t, id ∉ (s.tasks t).holds

/-- An abandoned row in `processing` without a retry left. -/
structure Stuck (s : State a) (id : EventId) (row : OutboxEvent) : Prop where
  lookup : s.table.lookup id = some row
  processing : row.status = .processing
  exhausted : row.maxRetries ≤ row.retryCount
  abandoned : Abandoned s id

/-- Nobody touches the delivery of a stuck row. -/
theorem keepsDelivery_of_stuck {id : EventId} {row row' : OutboxEvent} (hstuck : Stuck s id row)
    (hstep : RowStep s act s' row row') : KeepsDelivery row row' := by
  obtain ⟨hrow, hstatus, hexhausted, habandoned⟩ := hstuck
  obtain rfl := Table.pk_of_lookup hrow
  cases hstep with
  | kept hkeep _ => exact hkeep
  | claimed _ _ _ _ _ _ hclaimable _ _ =>
    have hwaiting := (Adapter.status_of_claimable hclaimable).1
    simp [hstatus] at hwaiting
  | committed t worker ids startedAt _ htask hid _ =>
    have hnot := habandoned t
    rw [htask] at hnot
    exact absurd hid hnot
  | written t index worker events outcome pending call _ htask hcall hid _ _ _ _ =>
    have hnot := habandoned t
    rw [htask] at hnot
    exact absurd (List.mem_flatMap.mpr ⟨call, List.mem_of_getElem? hcall, hid⟩) hnot
  | recovered _ _ _ _ _ hstale _ _ =>
    have hretry := (PgMaintenance.stale_iff.mp hstale).2.2
    omega
  | recoveredById t _ _ _ _ htask hid _ _ =>
    have hnot := habandoned t
    rw [htask] at hnot
    exact absurd hid hnot
  | replayed _ _ _ _ _ hguard _ _ =>
    have hreplayable := (replayGuard_iff.mp hguard).2.1
    simp [hstatus] at hreplayable
  | rangeReplayed t _ _ _ htask hid _ _ =>
    have hnot := habandoned t
    rw [htask] at hnot
    exact absurd hid hnot

/-- No statement selects a stuck row. -/
theorem not_holds_step (hs : (outbox a).Reachable s) (h : step s act = some s') {id : EventId}
    {row : OutboxEvent} (hstuck : Stuck s id row) (t : TaskId) : id ∉ (s'.tasks t).holds := by
  obtain ⟨hrow, hstatus, hexhausted, habandoned⟩ := hstuck
  have hnot := habandoned t
  have hok := taskOk_of_reachable hs t
  have hmove := task_step h t
  have hclaim : ∀ {worker : OutboxWorker} {ids : List EventId},
      a.ClaimSelection s.table s.locked s.now worker.config.batchSize ids → id ∉ ids := by
    intro worker ids hselection hid
    obtain ⟨row', hrow', hclaimable⟩ := hselection.isSelection.lookup hid
    rw [hrow] at hrow'
    obtain rfl := Option.some.inj hrow'
    rw [Bool.and_eq_true] at hclaimable
    have hwaiting := (Adapter.status_of_claimable hclaimable.1).1
    simp [hstatus] at hwaiting
  generalize s.tasks t = task at hnot hok hmove
  generalize s'.tasks t = task' at hmove
  cases hmove with
  | kept => exact hnot
  | ended => exact List.not_mem_nil
  | selected worker ids _ _ hselection => exact hclaim hselection
  | claimed worker ids _ _ hselection =>
    exact fun hid => hclaim hselection ((Table.map_pk_filterMap_lookup_sublist _ _).subset hid)
  | updated => exact hnot
  | committed => exact hnot
  | reselected =>
    exact fun hid => hnot ((Table.map_pk_filterMap_lookup_sublist _ _).subset hid)
  | published worker events outcome calls _ hcalls =>
    exact fun hid => hnot ((flatMap_ids_calls_perm hok.nodup hcalls).mem_iff.mp hid)
  | wrote => exact fun hid => hnot (((List.eraseIdx_sublist _ _).flatMap _).subset hid)
  | writeFailed => exact fun hid => hnot (((List.eraseIdx_sublist _ _).flatMap _).subset hid)
  | recoverSelected thresholdMs =>
    intro hid
    have hstale := (MySQLMaintenance.stale_iff.mp ((mem_staleIds hrow).mp hid)).2.2
    omega
  | replaySelected => exact List.not_mem_nil
  | rangeSelected input ids _ hselection =>
    intro hid
    obtain ⟨row', hrow', hrange⟩ := hselection.lookup hid
    rw [hrow] at hrow'
    obtain rfl := Option.some.inj hrow'
    have hrequested := (Adapter.status_of_inReplayRange hrange).1
    rcases input.requestedStatus_cases with hcase | hcase <;>
      simp [hstatus, hcase] at hrequested

/-- A stuck row stays stuck. -/
theorem stuck_step (hs : (outbox a).Reachable s) (h : step s act = some s') {id : EventId}
    {row : OutboxEvent} (hstuck : Stuck s id row) : ∃ row', Stuck s' id row' := by
  obtain ⟨row', hrow', hstep⟩ := row_step h hstuck.lookup
  have hkeep := keepsDelivery_of_stuck hstuck hstep
  refine ⟨row', hrow', hkeep.status.trans hstuck.processing, ?_, not_holds_step hs h hstuck⟩
  rw [hkeep.maxRetries, hkeep.retryCount]
  exact hstuck.exhausted

theorem status_of_stuck_run (hs : (outbox a).Reachable s) {id : EventId} {row : OutboxEvent}
    (hstuck : Stuck s id row) {acts : List Action} (hrun : (outbox a).run s acts = some s') :
    s'.status id = some .processing := by
  obtain ⟨row', hstuck'⟩ := Transition.System.run_keeps
    (P := fun u => ∃ row, Stuck u id row)
    (fun u act u' htakes hu => by
      obtain ⟨row, hu⟩ := hu
      exact stuck_step (hs.takesStep htakes) htakes.step_eq hu)
    hrun ⟨row, hstuck⟩
  exact State.status_eq_some.mpr ⟨row', hstuck'.lookup, hstuck'.processing⟩

/-! ## The way out -/

/-- There are only finitely many calls. -/
theorem exists_forall_idle (hs : (outbox a).Reachable s) : ∃ n, ∀ t, n ≤ t → s.tasks t = .idle := by
  refine hs.induct (P := fun s => ∃ n, ∀ t, n ≤ t → s.tasks t = .idle) ?_ ?_
  · intro s hinit
    obtain ⟨clock, rfl⟩ := hinit
    exact ⟨0, fun _ _ => rfl⟩
  · intro s act s' _ hbound _ h
    obtain ⟨n, hidle⟩ := hbound
    refine ⟨max n (act.task?.getD 0 + 1), fun t ht => ?_⟩
    have hne : act.task? ≠ some t := by
      intro hact
      rw [hact, Option.getD_some] at ht
      exact Nat.lt_irrefl t ((Nat.le_max_right _ _).trans ht)
    rw [(frame_step h).tasks t hne]
    exact hidle t ((Nat.le_max_left _ _).trans ht)

/-- Every row in `processing` grows old. -/
theorem exists_olderThan (hs : (outbox a).Reachable s) {id : EventId} {row : OutboxEvent}
    (hrow : s.table.lookup id = some row) (hstatus : row.status = .processing) :
    ∃ micros : Nat, a.olderThan (a.now (s.clock + micros)) 0 row = true := by
  obtain ⟨started, hstarted⟩ := Option.isSome_iff_exists.mp
    (processingStartedAt_isSome hs row (Table.mem_of_lookup hrow) hstatus)
  refine ⟨(started - s.clock).toNat + 2000000, ?_⟩
  cases a with
  | postgres =>
    simp only [Adapter.olderThan, hstarted, sqlLt_some, decide_eq_true_eq, Adapter.now,
      Time.millisecond]
    omega
  | mysql =>
    simp only [Adapter.olderThan, hstarted, sqlLt_some, decide_eq_true_eq, Adapter.now,
      MySQLMaintenance.thresholdSeconds, Time.second]
    omega

/-- A row in `processing` that a worker has left behind is recovered by
`recoverStaleEvents`, or moved by any operation at all, if and only if its
retry count is below its `max_retries`. -/
theorem crash_recovery_iff (hs : (outbox a).Reachable s) {id : EventId} {row : OutboxEvent}
    (hrow : s.table.lookup id = some row) (hstatus : row.status = .processing)
    (habandoned : Abandoned s id) :
    (∀ t thresholdMs, s.tasks t = .idle → a.olderThan s.now thresholdMs row = true →
        ∃ s', (outbox a).run s (recoverStaleEvents s t thresholdMs) = some s' ∧
          (s'.status id ≠ some .processing ↔ (row.retryCount : Int) < row.maxRetries)) ∧
      ((∃ acts s', (outbox a).run s acts = some s' ∧ s'.status id ≠ some .processing) ↔
        (row.retryCount : Int) < row.maxRetries) := by
  have hrecover : ∀ {s : State a} {t thresholdMs}, (outbox a).Reachable s →
      s.table.lookup id = some row → s.tasks t = .idle →
      a.olderThan s.now thresholdMs row = true →
      ∃ s', (outbox a).run s (recoverStaleEvents s t thresholdMs) = some s' ∧
        (s'.status id ≠ some .processing ↔ (row.retryCount : Int) < row.maxRetries) := by
    intro s t thresholdMs hs hrow htask hold
    obtain ⟨s', hs', hrow'⟩ := recoverStaleEvents_eq hs htask hrow hstatus hold
    refine ⟨s', hs', ?_⟩
    rw [State.status, hrow', Option.map_some]
    split
    · simpa [recoverRow]
    · rename_i hexhausted
      simpa [hstatus] using hexhausted
  refine ⟨fun t thresholdMs htask hold => hrecover hs hrow htask hold, ?_, ?_⟩
  · intro hmoves
    obtain ⟨acts, s', hrun, hstatus'⟩ := hmoves
    by_contra hexhausted
    exact hstatus' (status_of_stuck_run hs ⟨hrow, hstatus, by omega, habandoned⟩ hrun)
  · intro hretry
    -- Wait until the row is old, and recover it.
    obtain ⟨n, hidle⟩ := exists_forall_idle hs
    obtain ⟨micros, hold⟩ := exists_olderThan hs hrow hstatus
    have htick : (outbox a).step s (.tick micros) = some { s with clock := s.clock + micros } := rfl
    obtain ⟨s', hs', hmoved⟩ := hrecover (.step hs trivial htick) hrow (hidle n (le_refl n)) hold
    refine ⟨.tick micros :: recoverStaleEvents ({ s with clock := s.clock + micros } : State a) n 0,
      s', ?_, hmoved.mpr hretry⟩
    rw [Transition.System.run_cons, htick, Option.bind_some]
    exact hs'

/-- A worker on PostgreSQL claims an event and crashes, ten minutes ago.  `p`
is checked on its row. -/
private theorem exists_crashed (maxRetries : Int) (p : OutboxEvent → Bool)
    (hrun : ((outbox .postgres).run (State.initial 0)
      [.publish Sample.id (Sample.values maxRetries), .claim 0 Sample.worker [Sample.id], .crash 0,
        .tick 600000000]).any (fun s => (s.tasks 0).holds.isEmpty &&
          (s.table.lookup Sample.id).any fun row => decide (row.status = .processing) &&
            (Adapter.postgres.olderThan s.now 300000 row && p row)) = true) :
    ∃ (s : State .postgres) (row : OutboxEvent), (outbox .postgres).Reachable s ∧
      s.table.lookup Sample.id = some row ∧ row.status = .processing ∧ Abandoned s Sample.id ∧
      s.tasks 1 = .idle ∧ Adapter.postgres.olderThan s.now 300000 row = true ∧ p row = true := by
  obtain ⟨s, hs, hcheck⟩ := (Option.any_eq_true _ _).mp hrun
  rw [Bool.and_eq_true, List.isEmpty_iff] at hcheck
  obtain ⟨row, hrow, hcheck'⟩ := (Option.any_eq_true _ _).mp hcheck.2
  simp only [Bool.and_eq_true, decide_eq_true_eq] at hcheck'
  have hidle : ∀ t, t ≠ 0 → s.tasks t = .idle := fun t ht =>
    tasks_of_run hs (by simp [Action.task?, ht.symm])
  refine ⟨s, row, (reachable_initial .postgres 0).run hs, hrow, hcheck'.1, fun t => ?_,
    hidle 1 (by decide), hcheck'.2⟩
  by_cases ht : t = 0
  · rw [ht, hcheck.1]
    exact List.not_mem_nil
  · rw [hidle t ht]
    exact List.not_mem_nil

/-- With a retry left, the recovery moves the row. -/
theorem crash_recovery_of_retry_left :
    ∃ s s' : State .postgres, s.status Sample.id = some .processing ∧
      (outbox .postgres).run s (recoverStaleEvents s 1 300000) = some s' ∧
      s'.status Sample.id ≠ some .processing := by
  obtain ⟨s, row, hs, hrow, hstatus, habandoned, hidle, hold, hretry⟩ := exists_crashed 5
    (fun row => decide ((row.retryCount : Int) < row.maxRetries)) (by decide +kernel)
  obtain ⟨s', hs', hmoved⟩ :=
    (crash_recovery_iff hs hrow hstatus habandoned).1 1 300000 hidle hold
  exact ⟨s, s', State.status_eq_some.mpr ⟨row, hrow, hstatus⟩, hs',
    hmoved.mpr (of_decide_eq_true hretry)⟩

/-- A worker claims an event that allows no retry, and crashes.  The row is
old, and no run moves it out of `processing` again. -/
theorem crash_recovery_dead_end :
    ∃ (s : State .postgres) (row : OutboxEvent), (outbox .postgres).Reachable s ∧
      s.table.lookup Sample.id = some row ∧ 0 ≤ row.maxRetries ∧ row.deletedAt = none ∧
      Adapter.postgres.olderThan s.now 300000 row = true ∧
      ∀ acts s', (outbox .postgres).run s acts = some s' →
        s'.status Sample.id = some .processing := by
  obtain ⟨s, row, hs, hrow, hstatus, habandoned, _, hold, hcheck⟩ := exists_crashed 0
    (fun row => decide (0 ≤ row.maxRetries ∧ row.deletedAt = none ∧
      row.maxRetries ≤ (row.retryCount : Int))) (by decide +kernel)
  obtain ⟨hnonneg, hdeleted, hexhausted⟩ := of_decide_eq_true hcheck
  exact ⟨s, row, hs, hrow, hnonneg, hdeleted, hold, fun acts s' hrun =>
    status_of_stuck_run hs ⟨hrow, hstatus, hexhausted, habandoned⟩ hrun⟩

end Outboxy
