import Outboxy.Steps
import Outboxy.Invariants

/-!
# A slow worker

A worker that claimed an event and failed to publish it may take any time to
say so.  Meanwhile the event is recovered as stale and claimed by others, and
each recovery counts a retry.  `exists_slowWorker` builds such runs: the retry
of the slow worker is issued while the row has any retry count below its
limit.
-/

namespace Outboxy

/-- Every claim is by a worker of one configuration, and every recovery is with
its threshold. -/
structure RunsWith {a : Adapter} (config : WorkerConfig) (thresholdMs : ℕ) (_ : State a)
    (act : Action) : Prop where
  claims : ∀ t worker ids, act = .claim t worker ids → worker.config = config
  recovers : ∀ t threshold, act = .recover t threshold → threshold = thresholdMs

variable {a : Adapter} {config : WorkerConfig} {thresholdMs : ℕ}

/-- The table has one row, which has no idempotency key, and no transaction is
open. -/
structure OnlyRow (row : OutboxEvent) (s : State a) : Prop where
  rows : s.table.rows = [row]
  unkeyed : row.idempotencyKey = none
  unlocked : s.locks = []

/-- A reachable state with one row, and with calls before `n` only. -/
structure Quiet (config : WorkerConfig) (thresholdMs n : ℕ) (row : OutboxEvent) (s : State a) :
    Prop extends OnlyRow row s where
  reachable : (outbox a).ReachableBy (RunsWith config thresholdMs) s
  uuid : isUuid row.id
  idle : ∀ t : ℕ, n ≤ t → s.tasks t = .idle

theorem runsWith_claim {s : State a} {t : TaskId} {worker : OutboxWorker} {ids : List EventId}
    (hworker : worker.config = config) : RunsWith config thresholdMs s (.claim t worker ids) := by
  refine ⟨fun t' worker' ids' hact => ?_, fun _ _ hact => absurd hact (by simp)⟩
  cases hact
  exact hworker

theorem runsWith_recover {s : State a} {t : TaskId} :
    RunsWith config thresholdMs s (.recover t thresholdMs) := by
  refine ⟨fun _ _ _ hact => absurd hact (by simp), fun t' threshold hact => ?_⟩
  cases hact
  rfl

theorem runsWith_of_ne {s : State a} {act : Action}
    (hclaim : ∀ t worker ids, act ≠ .claim t worker ids)
    (hrecover : ∀ t threshold, act ≠ .recover t threshold) : RunsWith config thresholdMs s act :=
  ⟨fun t worker ids hact => absurd hact (hclaim t worker ids),
    fun t threshold hact => absurd hact (hrecover t threshold)⟩

theorem reachable_step {s s' : State a} {act : Action}
    (hs : (outbox a).ReachableBy (RunsWith config thresholdMs) s)
    (hallowed : RunsWith config thresholdMs s act) (hstep : step s act = some s') :
    (outbox a).ReachableBy (RunsWith config thresholdMs) s' :=
  hs.step hallowed hstep

/-- The calls before `n` and the clock are as they were. -/
structure Later (n : ℕ) (s s' : State a) : Prop where
  clock : s'.clock = s.clock
  tasks : ∀ t : ℕ, t < n → s'.tasks t = s.tasks t

theorem idempotencyIndex_of_unkeyed {row : OutboxEvent} (h : row.idempotencyKey = none) :
    a.idempotencyIndex row = none := by
  cases a <;> simp [Adapter.idempotencyIndex, h]

/-! ## Statements on the row -/

namespace OnlyRow

variable {row : OutboxEvent} {s : State a}

theorem not_locked (h : OnlyRow row s) (id : EventId) : s.locked id = false := by
  rw [State.locked, h.unlocked]
  rfl

/-- A statement that leaves the key alone runs. -/
theorem exists_update (h : OnlyRow row s) (u : OutboxUpdate) (hguard : u.guard row = true)
    (hkey : (u.assign row).idempotencyKey = none) :
    ∃ table, s.table.update u = some table ∧ table.rows = [u.assign row] := by
  have hsome : (s.table.update u).isSome := by
    refine Table.update_isSome fun r hr _ => ?_
    rw [h.rows, List.mem_singleton] at hr
    rw [hr, idempotencyIndex_of_unkeyed hkey, idempotencyIndex_of_unkeyed h.unkeyed]
  obtain ⟨table, htable⟩ := Option.isSome_iff_exists.mp hsome
  refine ⟨table, htable, ?_⟩
  rw [Table.rows_update htable, h.rows, List.map_singleton, Update.apply_of_guard hguard]

theorem exists_execute (h : OnlyRow row s) (u : OutboxUpdate) (hguard : u.guard row = true)
    (hkey : (u.assign row).idempotencyKey = none) :
    ∃ table, s.execute u = some { s with table := table } ∧ table.rows = [u.assign row] := by
  obtain ⟨table, htable, hrows⟩ := h.exists_update u hguard hkey
  refine ⟨table, ?_, hrows⟩
  rw [State.execute, if_neg, htable]
  · rfl
  · simp [h.not_locked]

end OnlyRow

theorem lookup_of_rows {row : OutboxEvent} {table : OutboxTable a} (hrows : table.rows = [row]) :
    [row.id].filterMap table.lookup = [row] := by
  have hlookup : table.lookup row.id = some row := Table.lookup_of_mem (by simp [hrows])
  simp [hlookup]

/-! ## Steps of a run -/

namespace Quiet

variable {n : ℕ} {row : OutboxEvent} {s : State a}

/-- The row alone is the batch of the next claim. -/
theorem claimSelection (h : Quiet config thresholdMs n row s)
    (hclaimable : a.claimable s.now row = true) (hsize : 0 < config.batchSize) :
    a.ClaimSelection s.table s.locked s.now config.batchSize [row.id] := by
  have hselection : s.table.IsSelection (fun row => a.claimable s.now row && !s.locked row.id)
      config.batchSize [row.id] := by
    refine ⟨List.nodup_singleton _, ?_, ?_⟩
    · intro id hid
      rw [List.mem_singleton] at hid
      exact ⟨row, by simp [h.rows], hid.symm, by simp [hclaimable, h.not_locked]⟩
    · rw [h.rows, List.countP_singleton, if_pos (by simp [hclaimable, h.not_locked])]
      exact (Nat.min_eq_right hsize).symm
  cases a with
  | postgres =>
    refine ⟨hselection, fun _ _ _ other hother _ _ hne => ?_⟩
    rw [h.rows, List.mem_singleton] at hother
    exact absurd (by simp [hother]) hne
  | mysql => exact hselection

/-- Time passes. -/
theorem tick (h : Quiet config thresholdMs n row s) (micros : ℕ) :
    Quiet config thresholdMs n row ({ s with clock := s.clock + micros } : State a) := by
  have hstep : step s (.tick micros) = some { s with clock := s.clock + micros } := rfl
  exact { h with
    reachable := reachable_step h.reachable (runsWith_of_ne (by simp) (by simp)) hstep }

/-- The call `n` has taken place. -/
theorem next (h : Quiet config thresholdMs n row s) {row' : OutboxEvent} {s' : State a}
    (honly : OnlyRow row' s') (hreachable : (outbox a).ReachableBy (RunsWith config thresholdMs) s')
    (hid : row'.id = row.id) (hclock : s'.clock = s.clock)
    (htasks : ∀ t : ℕ, t ≠ n → s'.tasks t = s.tasks t) :
    Quiet config thresholdMs (n + 1) row' s' ∧ Later n s s' := by
  refine ⟨⟨honly, hreachable, hid ▸ h.uuid, fun t ht => ?_⟩, hclock, fun t ht => ?_⟩
  · exact (htasks t (by omega)).trans (h.idle t (by omega))
  · exact htasks t (by omega)

/-! ### A claim -/

theorem exists_claimed_postgres {worker : OutboxWorker} {s : State .postgres}
    (h : Quiet config thresholdMs n row s)
    (hclaimable : Adapter.postgres.claimable s.now row = true) (hworker : worker.config = config)
    (hsize : 0 < config.batchSize) :
    ∃ s', Quiet config thresholdMs (n + 1) (claimRow s.now row) s' ∧ Later n s s' ∧
      s'.tasks n = .claimed worker [claimRow s.now row] := by
  have hselection := h.claimSelection hclaimable hsize
  rw [← hworker] at hselection
  obtain ⟨table, hexecute, hrows⟩ :=
    h.exists_execute (Adapter.postgres.claimPendingEvents s.now [row.id]) (by simp) h.unkeyed
  rw [Adapter.claimPendingEvents_assign] at hrows
  let claimed : State .postgres := (({ s with table := table } : State .postgres).setTask n
    (.claimed worker [claimRow s.now row])).record (.claimed n [row.id])
  have hstep : step s (.claim n worker [row.id]) = some claimed := by
    have hfound : [row.id].filterMap table.lookup = [claimRow s.now row] := lookup_of_rows hrows
    simp only [step, State.claim, h.idle n le_rfl, if_pos hselection]
    rw [if_neg (List.cons_ne_nil _ _), if_pos trivial, hexecute, Option.map_some, hfound]
  have honly : OnlyRow (claimRow s.now row) claimed := ⟨hrows, h.unkeyed, h.unlocked⟩
  have hreachable : (outbox .postgres).ReachableBy (RunsWith config thresholdMs) claimed :=
    reachable_step h.reachable (runsWith_claim hworker) hstep
  obtain ⟨hquiet, hlater⟩ := h.next honly hreachable rfl rfl
    fun t ht => Function.update_of_ne ht _ _
  exact ⟨claimed, hquiet, hlater, State.setTask_tasks_self _ _ _⟩

theorem exists_claimed_mysql {worker : OutboxWorker} {s : State .mysql}
    (h : Quiet config thresholdMs n row s) (hclaimable : Adapter.mysql.claimable s.now row = true)
    (hworker : worker.config = config) (hsize : 0 < config.batchSize) :
    ∃ s', Quiet config thresholdMs (n + 1) (claimRow s.now row) s' ∧ Later n s s' ∧
      s'.tasks n = .claimed worker [claimRow s.now row] := by
  have hselection := h.claimSelection hclaimable hsize
  rw [← hworker] at hselection
  obtain ⟨table, htable, hrows⟩ :=
    h.exists_update (Adapter.mysql.claimPendingEvents s.now [row.id]) (by simp) h.unkeyed
  rw [Adapter.claimPendingEvents_assign] at hrows
  have huuid : MySQLEventRepository.validateIds [row.id] = true := by
    simp [MySQLEventRepository.validateIds, h.uuid]
  -- `SELECT ... FOR UPDATE SKIP LOCKED`
  let selected : State .mysql := ({ s with locks := [(n, row.id)] } : State .mysql).setTask n
    (.claimSelected worker [row.id])
  have hselect : step s (.claim n worker [row.id]) = some selected := by
    simp only [step, State.claim, h.idle n le_rfl, if_pos hselection]
    rw [if_neg (List.cons_ne_nil _ _), if_neg (by decide), h.unlocked]
    rfl
  -- `UPDATE`
  let updated : State .mysql := selected.setTask n (.claimUpdated worker [row.id] s.now)
  have hupdate : step selected (.claimUpdate n) = some updated := by
    simp only [step, State.claimUpdate, selected, State.setTask_tasks_self, if_pos huuid]
    rfl
  -- `COMMIT`
  let committed : State .mysql :=
    ((({ updated with table := table } : State .mysql).unlock n).setTask n
      (.claimCommitted worker [row.id])).record (.claimed n [row.id])
  have hcommit : step updated (.claimCommit n) = some committed := by
    simp only [step, State.claimCommit, updated, State.setTask_tasks_self]
    rw [show (selected.setTask n _).table.update _ = some table from htable]
    rfl
  -- `SELECT`
  let claimed : State .mysql := committed.setTask n (.claimed worker [claimRow s.now row])
  have hreselect : step committed (.claimReselect n) = some claimed := by
    have htask : committed.tasks n = .claimCommitted worker [row.id] :=
      State.setTask_tasks_self _ _ _
    have hfound : [row.id].filterMap committed.table.lookup = [claimRow s.now row] :=
      lookup_of_rows hrows
    simp only [step, State.claimReselect, htask, hfound]
    rfl
  have hselected := reachable_step h.reachable (runsWith_claim hworker) hselect
  have hupdated := reachable_step hselected (runsWith_of_ne (by simp) (by simp)) hupdate
  have hcommitted := reachable_step hupdated (runsWith_of_ne (by simp) (by simp)) hcommit
  have hreachable := reachable_step hcommitted (runsWith_of_ne (by simp) (by simp)) hreselect
  have honly : OnlyRow (claimRow s.now row) claimed :=
    ⟨hrows, h.unkeyed, by simp [claimed, committed, updated, selected, State.unlock]⟩
  obtain ⟨hquiet, hlater⟩ := h.next honly hreachable rfl rfl
    fun t ht => by simp [claimed, committed, updated, selected, State.setTask, ht]
  exact ⟨claimed, hquiet, hlater, State.setTask_tasks_self _ _ _⟩

/-- The next claim takes the row. -/
theorem exists_claimed (h : Quiet config thresholdMs n row s) (worker : OutboxWorker)
    (hclaimable : a.claimable s.now row = true) (hworker : worker.config = config)
    (hsize : 0 < config.batchSize) :
    ∃ s', Quiet config thresholdMs (n + 1) (claimRow s.now row) s' ∧ Later n s s' ∧
      s'.tasks n = .claimed worker [claimRow s.now row] := by
  cases a with
  | postgres => exact h.exists_claimed_postgres hclaimable hworker hsize
  | mysql => exact h.exists_claimed_mysql hclaimable hworker hsize

/-! ### A recovery -/

/-- A recovery that is issued three seconds after the threshold finds the
row. -/
theorem stale_of_old (thresholdMs : ℕ) {started : Int} (hstatus : row.status = .processing)
    (hstarted : row.processingStartedAt = some started)
    (hold : started + (thresholdMs + 3000) * Time.millisecond ≤ s.clock)
    (hretries : (row.retryCount : Int) < row.maxRetries) :
    PgMaintenance.stale (Adapter.postgres.now s.clock) thresholdMs row = true ∧
      MySQLMaintenance.stale (Adapter.mysql.now s.clock) thresholdMs row = true := by
  have hmod : s.clock % Time.second < Time.second := Int.emod_lt_of_pos _ (by decide)
  rw [PgMaintenance.stale, MySQLMaintenance.stale, hstatus, hstarted]
  simp only [Adapter.now, MySQLMaintenance.thresholdSeconds, Time.second, Time.millisecond,
    sqlLt_some, decide_true, Bool.true_and, Bool.and_eq_true, decide_eq_true_eq] at *
  omega

theorem exists_recovered_postgres {s : State .postgres} (h : Quiet config thresholdMs n row s)
    (hstale : PgMaintenance.stale s.now thresholdMs row = true) :
    ∃ s', Quiet config thresholdMs (n + 1) (recoverRow s.now row) s' ∧ Later n s s' := by
  obtain ⟨table, hexecute, hrows⟩ :=
    h.exists_execute (PgMaintenance.recoverStaleEvents s.now thresholdMs) hstale h.unkeyed
  let recovered : State .postgres :=
    (({ s with table := table } : State .postgres).setTask n .done).record
      (.recovered (s.table.affected (PgMaintenance.recoverStaleEvents s.now thresholdMs)))
  have hstep : step s (.recover n thresholdMs) = some recovered := by
    simp only [step, State.recover, h.idle n le_rfl]
    rw [if_pos trivial, hexecute]
    rfl
  have honly : OnlyRow (recoverRow s.now row) recovered := ⟨hrows, h.unkeyed, h.unlocked⟩
  have hreachable := reachable_step h.reachable runsWith_recover hstep
  exact ⟨recovered, h.next honly hreachable rfl rfl fun t ht => Function.update_of_ne ht _ _⟩

theorem exists_recovered_mysql {s : State .mysql} (h : Quiet config thresholdMs n row s)
    (hstale : MySQLMaintenance.stale s.now thresholdMs row = true) :
    ∃ s', Quiet config thresholdMs (n + 1) (recoverRow s.now row) s' ∧ Later n s s' := by
  have hids : MySQLMaintenance.staleIds s.table s.now thresholdMs = [row.id] := by
    simp [MySQLMaintenance.staleIds, h.rows, hstale]
  have huuid : MySQLEventRepository.validateIds [row.id] = true := by
    simp [MySQLEventRepository.validateIds, h.uuid]
  -- `SELECT`
  let selected : State .mysql := s.setTask n (.recoverSelected thresholdMs [row.id])
  have hselect : step s (.recover n thresholdMs) = some selected := by
    simp only [step, State.recover, h.idle n le_rfl, hids]
    rw [if_neg (by decide), if_neg (List.cons_ne_nil _ _)]
  -- `UPDATE`
  obtain ⟨u, hu, hguard, hassign⟩ : ∃ u,
      MySQLMaintenance.recoverStaleEvents s.now [row.id] = some u ∧ u.guard row = true ∧
        u.assign row = recoverRow s.now row := by
    refine ⟨_, by rw [MySQLMaintenance.recoverStaleEvents, if_pos huuid], ?_, rfl⟩
    simp
  have honly : OnlyRow row selected := ⟨h.rows, h.unkeyed, h.unlocked⟩
  obtain ⟨table, hexecute, hrows⟩ := honly.exists_execute u hguard (hassign ▸ h.unkeyed)
  rw [hassign] at hrows
  let recovered : State .mysql :=
    (({ selected with table := table } : State .mysql).setTask n .done).record
      (.recovered (s.table.affected u))
  have hupdate : step selected (.recoverUpdate n) = some recovered := by
    have htask : selected.tasks n = .recoverSelected thresholdMs [row.id] :=
      State.setTask_tasks_self _ _ _
    have hu' : MySQLMaintenance.recoverStaleEvents selected.now [row.id] = some u := hu
    simp only [step, State.recoverUpdate, htask, hu', Option.bind_some, hexecute]
    rfl
  have hselected := reachable_step h.reachable runsWith_recover hselect
  have hreachable := reachable_step hselected (runsWith_of_ne (by simp) (by simp)) hupdate
  have honly' : OnlyRow (recoverRow s.now row) recovered := ⟨hrows, h.unkeyed, h.unlocked⟩
  exact ⟨recovered, h.next honly' hreachable rfl rfl
    fun t ht => by simp [recovered, selected, State.setTask, ht]⟩

/-- A recovery takes the row back. -/
theorem exists_recovered (h : Quiet config thresholdMs n row s) {started : Int}
    (hstatus : row.status = .processing) (hstarted : row.processingStartedAt = some started)
    (hold : started + (thresholdMs + 3000) * Time.millisecond ≤ s.clock)
    (hretries : (row.retryCount : Int) < row.maxRetries) :
    ∃ s', Quiet config thresholdMs (n + 1) (recoverRow s.now row) s' ∧ Later n s s' := by
  have hstale := stale_of_old thresholdMs hstatus hstarted hold hretries
  cases a with
  | postgres => exact h.exists_recovered_postgres hstale.1
  | mysql => exact h.exists_recovered_mysql hstale.2

end Quiet

/-! ## The run -/

/-- The worker of a configuration. -/
def slowWorker (config : WorkerConfig) : OutboxWorker := ⟨config, "worker-1", none⟩

/-- The retry that the worker issues for the event. -/
def slowRetry (config : WorkerConfig) : RepositoryCall :=
  .scheduleRetry [Sample.id] .empty ⟨config.backoffBaseMs, config.backoffMultiplier⟩

/-- The worker is slow to say that it failed.  Meanwhile the row has been
claimed for the last time, with `k` retries counted. -/
structure Slow (config : WorkerConfig) (thresholdMs : ℕ) (maxRetries : Int) (k : ℕ) (s : State a) :
    Prop where
  quiet : ∃ n row, 0 < n ∧ Quiet config thresholdMs n row s ∧ row.id = Sample.id ∧
    row.status = .processing ∧ row.retryCount = k ∧ row.maxRetries = maxRetries ∧
    row.deletedAt = none ∧ ∃ started, row.processingStartedAt = some started ∧ started ≤ s.clock
  issued : ∃ events outcome, s.tasks 0 = .writing (slowWorker config) events outcome
    [slowRetry config]

theorem now_le_clock (s : State a) : s.now ≤ s.clock := by
  cases a with
  | postgres => exact Int.le_refl _
  | mysql =>
    have hmod : 0 ≤ s.clock % Time.second := Int.emod_nonneg _ (by decide)
    show s.clock - s.clock % Time.second ≤ s.clock
    omega

theorem clock_lt_now (s : State a) : s.clock < s.now + Time.second := by
  cases a with
  | postgres =>
    show s.clock < s.clock + Time.second
    exact Int.lt_add_of_pos_right _ (by decide)
  | mysql =>
    have hmod : s.clock % Time.second < Time.second := Int.emod_lt_of_pos _ (by decide)
    show s.clock < s.clock - s.clock % Time.second + Time.second
    omega

theorem claimable_of_due {now due : Int} {row : OutboxEvent} (hstatus : row.status = .failed)
    (hretry : row.nextRetryAt = some due) (hdue : due ≤ now) (hdeleted : row.deletedAt = none) :
    a.claimable now row = true := by
  cases a <;> simp [Adapter.claimable, PgEventRepository.claimable,
    MySQLEventRepository.claimable, hstatus, hretry, hdue, hdeleted]

/-- The API creates the event. -/
theorem exists_created (config : WorkerConfig) (thresholdMs : ℕ) (maxRetries clock : Int) :
    ∃ s : State a,
      Quiet config thresholdMs 0 (a.createEvent clock Sample.id (Sample.input maxRetries)) s ∧
        s.clock = clock := by
  let start : State a := State.initial clock
  let row := a.createEvent clock Sample.id (Sample.input maxRetries)
  have huuid : isUuid Sample.id = true := by decide
  have hid : row.id = Sample.id := createEvent_id a clock Sample.id _
  have hkey : row.idempotencyKey = none := by
    cases a <;> rfl
  have hinsert : (start.table.insert row).isSome := by
    rw [Table.insert_isSome_iff]
    exact ⟨rfl, rfl⟩
  obtain ⟨table, htable⟩ := Option.isSome_iff_exists.mp hinsert
  let created : State a := ({ start with table := table } : State a).record (.inserted row.id)
  have hstep : step start (.createEvent Sample.id (Sample.input maxRetries)) = some created := by
    show (if isUuid Sample.id then (start.table.insert row).map _ else none) = _
    rw [if_pos huuid, htable]
    rfl
  have hreachable : (outbox a).ReachableBy (RunsWith config thresholdMs) created := reachable_step
    (.init ⟨clock, rfl⟩)
    (runsWith_of_ne (by simp) (by simp)) hstep
  exact ⟨created, ⟨⟨Table.rows_insert htable, hkey, rfl⟩, hreachable,
    (congrArg isUuid hid).trans huuid, fun _ _ => rfl⟩, rfl⟩

/-- A failed event with no retry counted is retried. -/
theorem executeBatchProcessing_slowWorker {config : WorkerConfig} (hmax : 0 < config.maxRetries)
    {event : OutboxEvent} (hid : event.id = Sample.id) (hcount : event.retryCount = 0) :
    executeBatchProcessing (slowWorker config) [event] (.returned .empty) =
      some [slowRetry config] := by
  have hdecision : decision (slowWorker config) (.returned .empty) event = .retry := by
    show decideRetry ⟨false, .nullish, true, none⟩ event.retryCount config.maxRetries = .retry
    rw [hcount, decideRetry]
    simp [Nat.ne_of_gt hmax]
  have hnodup : ([event].map OutboxEvent.id).Nodup := List.nodup_singleton _
  have hquiet : recordingThrows (slowWorker config) [event]
      (publishEvents [event] (.returned .empty))
      (decidedGroups (slowWorker config) (.returned .empty) [event]) = false :=
    recordingThrows_of_none rfl _ _ _
  have hdecided : ∀ d, decided (slowWorker config) (.returned .empty) [event] d =
      if d = .retry then [Sample.id] else [] := by
    intro d
    cases d <;> simp [decided, hdecision, hid]
  rw [executeBatchProcessing_eq _ _ hnodup, hquiet, decidedGroups, hdecided, hdecided, hdecided]
  rfl

/-- The first claim is by the slow worker, which does not reach the
destination. -/
theorem exists_slow_zero (hsize : 0 < config.batchSize)
    (hmax : 0 < config.maxRetries) (maxRetries clock : Int) :
    ∃ s : State a, Slow config thresholdMs maxRetries 0 s ∧ s.clock = clock := by
  obtain ⟨created, hcreated, rfl⟩ := exists_created (a := a) config thresholdMs maxRetries clock
  generalize hrow : a.createEvent created.clock Sample.id (Sample.input maxRetries) = row
    at hcreated
  have hid : row.id = Sample.id := hrow ▸ createEvent_id a _ _ _
  have hcount : row.retryCount = 0 := hrow ▸ createEvent_retryCount a _ _ _
  have hrest : a.claimable created.now row = true ∧ row.maxRetries = maxRetries ∧
      row.deletedAt = none := by
    rw [← hrow]
    cases a <;> exact ⟨rfl, rfl, rfl⟩
  obtain ⟨hclaimable, hlimit, hdeleted⟩ := hrest
  obtain ⟨claimed, hclaimed, hlater, htask⟩ :=
    hcreated.exists_claimed (slowWorker config) hclaimable rfl hsize
  have hcalls : executeBatchProcessing (slowWorker config) [claimRow created.now row]
      (.returned .empty) = some [slowRetry config] :=
    executeBatchProcessing_slowWorker hmax hid hcount
  let published : State a := (claimed.setTask 0 (.writing (slowWorker config)
    [claimRow created.now row] (.returned .empty) [slowRetry config])).record
      (.published 0 (slowWorker config) [claimRow created.now row] (.returned .empty))
  have hstep : step claimed (.publishBatch 0 (.returned .empty)) = some published := by
    simp only [step, State.publishBatch, htask, hcalls]
    rfl
  have hreachable := reachable_step hclaimed.reachable (runsWith_of_ne (by simp) (by simp)) hstep
  have hidle : ∀ t : ℕ, 1 ≤ t → published.tasks t = .idle := by
    intro t ht
    exact (Function.update_of_ne (show t ≠ 0 by omega) _ _).trans (hclaimed.idle t ht)
  have hquiet : Quiet config thresholdMs 1 (claimRow created.now row) published :=
    ⟨⟨hclaimed.rows, hclaimed.unkeyed, hclaimed.unlocked⟩, hreachable, hclaimed.uuid, hidle⟩
  have hclock : published.clock = created.clock := hlater.clock
  refine ⟨published, ⟨⟨1, _, Nat.one_pos, hquiet, hid, rfl, hcount, hlimit, hdeleted, created.now,
    rfl, ?_⟩, ?_⟩, hclock⟩
  · rw [hclock]
    exact now_le_clock created
  · exact ⟨_, _, State.setTask_tasks_self claimed 0 _⟩

/-- The time in which a claim becomes stale, in microseconds. -/
def staleMicros (thresholdMs : ℕ) : ℕ := (thresholdMs + 3000) * 1000

/-- The row becomes stale, is recovered, and is claimed again when its retry
falls due. -/
theorem Slow.exists_succ {maxRetries : Int} {k : ℕ} {s : State a}
    (h : Slow config thresholdMs maxRetries k s) (hsize : 0 < config.batchSize)
    (hretries : (k : Int) < maxRetries) :
    ∃ s' : State a, Slow config thresholdMs maxRetries (k + 1) s' ∧
      s'.clock = s.clock + (staleMicros thresholdMs + 10000000) := by
  obtain ⟨⟨n, row, hn, hquiet, hid, hstatus, hcount, hlimit, hdeleted, started, hstarted, hold⟩,
    events, outcome, htask⟩ := h
  -- The claim becomes stale, and a recovery takes the row back.
  have hwaited := hquiet.tick (staleMicros thresholdMs)
  obtain ⟨recovered, hrecovered, hafter⟩ := hwaited.exists_recovered hstatus hstarted
    (by simp only [staleMicros, Time.millisecond]; omega) (by rw [hcount, hlimit]; exact hretries)
  -- The retry falls due, and another call claims the row.
  have hdue := hrecovered.tick 10000000
  have hnow : (State.now { s with clock := s.clock + staleMicros thresholdMs } : Int) +
      Time.second ≤ State.now { recovered with clock := recovered.clock + (10000000 : ℕ) } := by
    have hbefore := now_le_clock ({ s with clock := s.clock + staleMicros thresholdMs } : State a)
    have hlate := clock_lt_now
      ({ recovered with clock := recovered.clock + (10000000 : ℕ) } : State a)
    simp only [hafter.clock, Time.second] at hbefore hlate ⊢
    omega
  obtain ⟨claimed, hclaimed, hlater, -⟩ := hdue.exists_claimed (slowWorker config)
    (claimable_of_due rfl rfl hnow hdeleted) rfl hsize
  have hclock : claimed.clock = s.clock + (staleMicros thresholdMs + 10000000) := by
    rw [hlater.clock]
    simp only [hafter.clock]
    omega
  refine ⟨claimed, ⟨⟨n + 2, _, by omega, hclaimed, hid, rfl, ?_, hlimit, hdeleted, _, rfl, ?_⟩,
    events, outcome, ?_⟩, hclock⟩
  · simp only [claimRow, recoverRow, hcount]
  · rw [hlater.clock]
    exact now_le_clock _
  · rw [hlater.tasks 0 (by omega)]
    exact (hafter.tasks 0 hn).trans htask

/-- The retry of a slow worker is issued while the row has any retry count
below its limit. -/
theorem exists_slowWorker (config : WorkerConfig) (thresholdMs : ℕ) (hsize : 0 < config.batchSize)
    (hmax : 0 < config.maxRetries) (maxRetries clock : Int) {k : ℕ}
    (hretries : (k : Int) < maxRetries) :
    ∃ s : State a, Slow config thresholdMs maxRetries k s ∧ s.clock = clock := by
  induction k generalizing clock with
  | zero => exact exists_slow_zero hsize hmax maxRetries clock
  | succ k ih =>
    obtain ⟨s, hslow, hclock⟩ := ih (clock - (staleMicros thresholdMs + 10000000)) (by omega)
    obtain ⟨s', hslow', hclock'⟩ := hslow.exists_succ hsize (by omega)
    exact ⟨s', hslow', by omega⟩

end Outboxy
