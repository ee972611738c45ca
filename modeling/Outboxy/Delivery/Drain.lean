import Mathlib.Data.Finset.Dedup
import Mathlib.Data.Finset.Order
import Outboxy.Delivery.Claimable
import Outboxy.Delivery.FailedClaim
import Outboxy.Delivery.Recovery
import Outboxy.Delivery.SlowWorker

/-!
# Draining the outbox

Whatever the producers, workers, schedulers and API servers have done, and
even if all of them crash now, one fresh worker with a publisher that delivers
and a stale recovery delivers every event that is not in the DLQ, deleted or
stuck.

`Rested` is a state in which no call is in progress and nothing is locked.
The run has three parts, each from one such state to the next.

* `exists_rested`: the calls in progress end, and their locks with them.
* `exists_recovered_all`: the rows in `processing` grow old, and those with a
  retry left are recovered.
* `exists_delivered_all`: the worker claims and delivers batch after batch,
  until nothing is claimable.

`exists_drained` puts them together.  It is about a run that exists, not about
every fair run.
-/

namespace Outboxy

open Transition

variable {a : Adapter} {s s' : State a}

/-- Nothing is in progress, and no call from the `n`-th on was made. -/
structure Rested (n : ℕ) (s : State a) : Prop where
  reachable : (outbox a).Reachable s
  unlocked : s.locks = []
  idle : ∀ t : ℕ, n ≤ t → s.tasks t = .idle
  free : ∀ id, Abandoned s id

namespace Rested

variable {n : ℕ}

/-- The call `n` has come to its end. -/
theorem next (h : Rested n s) (hs' : (outbox a).Reachable s') (hlocks : s'.locks = [])
    (htasks : ∀ t : ℕ, t ≠ n → s'.tasks t = s.tasks t) (hholds : (s'.tasks n).holds = []) :
    Rested (n + 1) s' := by
  refine ⟨hs', hlocks, fun t ht => (htasks t (by omega)).trans (h.idle t (by omega)), ?_⟩
  intro id (t : ℕ) hid
  by_cases heq : t = n
  · rw [heq, hholds] at hid
    exact absurd hid List.not_mem_nil
  · rw [htasks t heq] at hid
    exact h.free id t hid

theorem not_locked (h : Rested n s) (id : EventId) : s.locked id = false := by
  rw [State.locked, h.unlocked]
  rfl

theorem tick (h : Rested n s) (micros : ℕ) :
    Rested n ({ s with clock := s.clock + micros } : State a) :=
  { h with reachable := .step (a := .tick micros) h.reachable trivial rfl }

/-- A statement that the index does not reject executes. -/
theorem execute (h : Rested n s) {u : OutboxUpdate} {table : OutboxTable a}
    (htable : s.table.update u = some table) : s.execute u = some { s with table := table } := by
  rw [State.execute, if_neg, htable]
  · rfl
  · simp [h.not_locked]

end Rested

/-- The publisher delivers the events with the given ids. -/
def delivered (ids : List EventId) : PublishOutcome :=
  .returned (OrderedMap.ofList (fun id => id) (fun _ => ⟨true, .nullish, false, none⟩) ids)

/-- What happens while the outbox drains: calls end, time passes, stale events
are recovered, and one worker delivers what it claims. -/
def Action.drains (worker : OutboxWorker) : Action → Prop
  | .crash _ => True
  | .tick _ => True
  | .recover _ _ => True
  | .recoverUpdate _ => True
  | .claim _ worker' _ => worker' = worker
  | .claimUpdate _ => True
  | .claimCommit _ => True
  | .claimReselect _ => True
  | .publishBatch _ outcome => ∃ ids, outcome = delivered ids
  | .write _ _ => True
  | _ => False

/-! ## The calls in progress end -/

/-- All calls before the `n`-th end. -/
private theorem run_crashes (s : State a) (n : ℕ) :
    ∃ s', (outbox a).run s ((List.range n).map .crash) = some s' ∧ s'.table = s.table ∧
      s'.clock = s.clock ∧ s'.locks = s.locks.filter (fun lock => decide (n ≤ lock.1)) ∧
      (∀ t : ℕ, t < n → s'.tasks t = .done) ∧ ∀ t : ℕ, n ≤ t → s'.tasks t = s.tasks t := by
  induction n with
  | zero =>
    refine ⟨s, rfl, rfl, rfl, ?_, by simp, fun _ _ => rfl⟩
    exact (List.filter_eq_self.mpr fun lock _ => decide_eq_true (Nat.zero_le _)).symm
  | succ n ih =>
    obtain ⟨s', hrun, htable, hclock, hlocks, hdone, hsame⟩ := ih
    refine ⟨(s'.unlock n).setTask n .done, ?_, htable, hclock, ?_, fun t ht => ?_, fun t ht => ?_⟩
    · rw [List.range_succ, List.map_append, List.map_singleton]
      exact Transition.System.run_append_eq_some _ hrun rfl
    · show s'.locks.filter _ = _
      rw [hlocks, List.filter_filter]
      refine List.filter_congr fun lock _ => ?_
      have hlock : ∀ t : ℕ, (t ≠ n ∧ n ≤ t) ↔ n + 1 ≤ t := by omega
      rw [← Bool.decide_and]
      exact decide_eq_decide.mpr (hlock lock.1)
    · by_cases heq : t = n
      · subst heq
        exact State.setTask_tasks_self _ _ _
      · exact (Function.update_of_ne heq _ _).trans (hdone t (by omega))
    · have hne : t ≠ n := by omega
      exact (Function.update_of_ne hne _ _).trans (hsame t (by omega))

theorem exists_rested (hs : (outbox a).Reachable s) (worker : OutboxWorker) :
    ∃ n s', (outbox a).LeadsTo (Action.drains worker) s s' ∧ Rested n s' ∧
      s'.table = s.table := by
  obtain ⟨n, hidle⟩ := exists_forall_idle hs
  obtain ⟨s', hrun, htable, -, hlocks, hdone, hsame⟩ := run_crashes s n
  have hleads : (outbox a).LeadsTo (Action.drains worker) s s' := by
    refine ⟨_, hrun, fun act hact => ?_⟩
    obtain ⟨t, -, rfl⟩ := List.mem_map.mp hact
    trivial
  refine ⟨n, s', hleads, ⟨hleads.reachable hs, ?_, ?_, ?_⟩, htable⟩
  · -- A lock belongs to a claim in progress.
    rw [hlocks]
    refine List.filter_eq_nil_iff.mpr fun lock hlock hle => ?_
    have hheld := ((locksOk_of_reachable hs).held lock.1 lock.2).mp hlock
    rw [hidle lock.1 (of_decide_eq_true hle)] at hheld
    exact absurd hheld List.not_mem_nil
  · exact fun t ht => (hsame t ht).trans (hidle t ht)
  · intro id t hid
    rcases Nat.lt_or_ge t n with hlt | hge
    · rw [hdone t hlt] at hid
      exact absurd hid List.not_mem_nil
    · rw [hsame t hge, hidle t hge] at hid
      exact absurd hid List.not_mem_nil

/-! ## Stale events are recovered -/

/-- What a recovery makes of a row when all rows are old. -/
def recoverAll (now : Int) (row : OutboxEvent) : OutboxEvent :=
  if row.status = .processing ∧ (row.retryCount : Int) < row.maxRetries then recoverRow now row
  else row

/-- There is a time at which all rows in `processing` are old. -/
theorem exists_all_old (hs : (outbox a).Reachable s) :
    ∃ micros : ℕ, ∀ row ∈ s.table.rows, row.status = .processing →
      a.olderThan (a.now (s.clock + micros)) 0 row = true := by
  obtain ⟨latest, hlatest⟩ :=
    (s.table.rows.filterMap OutboxEvent.processingStartedAt).toFinset.exists_le
  refine ⟨(latest - s.clock).toNat + 2000000, fun row hrow hstatus => ?_⟩
  obtain ⟨started, hstarted⟩ :=
    Option.isSome_iff_exists.mp (processingStartedAt_isSome hs row hrow hstatus)
  have hle : started ≤ latest :=
    hlatest started (List.mem_toFinset.mpr (List.mem_filterMap.mpr ⟨row, hrow, hstarted⟩))
  cases a with
  | postgres =>
    simp only [Adapter.olderThan, hstarted, sqlLt_some, decide_eq_true_eq, Adapter.now,
      Time.millisecond]
    omega
  | mysql =>
    simp only [Adapter.olderThan, hstarted, sqlLt_some, decide_eq_true_eq, Adapter.now,
      MySQLMaintenance.thresholdSeconds, Time.second]
    omega

private theorem lookup_recoverAll {u : OutboxUpdate} {table : OutboxTable a} {now : Int}
    (hassign : u.assign = recoverRow now) (htable : s.table.update u = some table)
    (hguard : ∀ row ∈ s.table.rows, u.guard row = true ↔
      row.status = .processing ∧ (row.retryCount : Int) < row.maxRetries) (id : EventId) :
    table.lookup id = (s.table.lookup id).map (recoverAll now) := by
  rw [Table.lookup_update htable]
  refine Option.map_congr fun row hrow => ?_
  have hiff := hguard row (Table.mem_of_lookup hrow)
  by_cases hg : u.guard row = true
  · rw [Update.apply_of_guard hg, hassign, recoverAll, if_pos (hiff.mp hg)]
  · rw [Update.apply_of_not_guard (eq_false_of_ne_true hg), recoverAll,
      if_neg fun h => hg (hiff.mpr h)]

section RecoverAll

variable {n : ℕ} {worker : OutboxWorker}

private theorem exists_recoverAll_postgres {s : State .postgres} (h : Rested n s)
    (hold : ∀ row ∈ s.table.rows, row.status = .processing →
      Adapter.postgres.olderThan s.now 0 row = true) :
    ∃ s', (outbox .postgres).LeadsTo (Action.drains worker) s s' ∧ Rested (n + 1) s' ∧
      ∀ id, s'.table.lookup id = (s.table.lookup id).map (recoverAll s.now) := by
  obtain ⟨table, hexecute, htable⟩ :=
    execute_recover h.reachable (u := PgMaintenance.recoverStaleEvents s.now 0) rfl
      fun row _ hstale => (PgMaintenance.stale_iff.mp hstale).1
  let recovered : State .postgres := (({ s with table := table } : State .postgres).setTask n
    .done).record (.recovered (s.table.affected (PgMaintenance.recoverStaleEvents s.now 0)))
  have hstep : (outbox .postgres).step s (.recover n 0) = some recovered := by
    show s.recover n 0 = _
    rw [State.recover, h.idle n le_rfl]
    simp only [↓reduceIte, hexecute]
    rfl
  refine ⟨recovered, .step hstep trivial, h.next (.step h.reachable trivial hstep) h.unlocked
    (fun t ht => Function.update_of_ne ht _ _) ?_, lookup_recoverAll rfl htable ?_⟩
  · rw [show recovered.tasks n = .done from State.setTask_tasks_self _ _ _]
    rfl
  · intro row hrow
    refine PgMaintenance.stale_iff.trans ⟨fun hstale => ⟨hstale.1, hstale.2.2⟩, fun hretry => ?_⟩
    exact ⟨hretry.1, hold row hrow hretry.1, hretry.2⟩

/-- The rows that the MySQL `SELECT` finds when all rows are old. -/
private theorem mem_staleIds_of_old {s : State .mysql}
    (hold : ∀ row ∈ s.table.rows, row.status = .processing →
      Adapter.mysql.olderThan s.now 0 row = true) {row : OutboxEvent} (hrow : row ∈ s.table.rows) :
    row.id ∈ MySQLMaintenance.staleIds s.table s.now 0 ↔
      row.status = .processing ∧ (row.retryCount : Int) < row.maxRetries := by
  rw [mem_staleIds (Table.lookup_of_mem hrow), MySQLMaintenance.stale_iff]
  refine ⟨fun hstale => ⟨hstale.1, hstale.2.2⟩, fun hretry => ?_⟩
  exact ⟨hretry.1, hold row hrow hretry.1, hretry.2⟩

private theorem exists_recoverAll_mysql {s : State .mysql} (h : Rested n s)
    (hold : ∀ row ∈ s.table.rows, row.status = .processing →
      Adapter.mysql.olderThan s.now 0 row = true) :
    ∃ s', (outbox .mysql).LeadsTo (Action.drains worker) s s' ∧ Rested (n + 1) s' ∧
      ∀ id, s'.table.lookup id = (s.table.lookup id).map (recoverAll s.now) := by
  have hmem := fun (row : OutboxEvent) (hrow : row ∈ s.table.rows) =>
    mem_staleIds_of_old hold hrow
  generalize hids : MySQLMaintenance.staleIds s.table s.now 0 = ids at hmem
  by_cases hnil : ids = []
  · -- Nothing is stale, and the method returns after its `SELECT`.
    have hstep : (outbox .mysql).step s (.recover n 0) = some (s.setTask n .done) := by
      show s.recover n 0 = _
      simp [State.recover, h.idle n le_rfl, hids, hnil]
    refine ⟨s.setTask n .done, .step hstep trivial, h.next (.step h.reachable trivial hstep)
      h.unlocked (fun t ht => Function.update_of_ne ht _ _) ?_, fun id => ?_⟩
    · rw [State.setTask_tasks_self]
      rfl
    · show s.table.lookup id = _
      cases hrow : s.table.lookup id with
      | none => rfl
      | some row =>
        have hnot : ¬ (row.status = .processing ∧ (row.retryCount : Int) < row.maxRetries) := by
          rw [← hmem row (Table.mem_of_lookup hrow), hnil]
          exact List.not_mem_nil
        rw [Option.map_some, recoverAll, if_neg hnot]
  · let selected : State .mysql := s.setTask n (.recoverSelected 0 ids)
    have hselect : (outbox .mysql).step s (.recover n 0) = some selected := by
      show s.recover n 0 = _
      simp [State.recover, h.idle n le_rfl, hids, hnil, selected]
    have hselected : (outbox .mysql).Reachable selected := .step h.reachable trivial hselect
    have huuids : MySQLEventRepository.validateIds ids = true := by
      refine List.all_eq_true.mpr fun id hid => ?_
      rw [← hids] at hid
      obtain ⟨row, hrow, rfl⟩ := List.mem_map.mp hid
      exact isUuid_of_reachable h.reachable row (List.mem_of_mem_filter hrow)
    obtain ⟨table, hexecute, htable⟩ := execute_recover hselected
      (u := ⟨idIn ids, recoverRow s.now, fun _ => rfl⟩) rfl
      fun row hrow hlisted => ((hmem row hrow).mp (idIn_eq_true.mp hlisted)).1
    let recovered : State .mysql := (({ selected with table := table } : State .mysql).setTask n
      .done).record (.recovered (s.table.affected ⟨idIn ids, recoverRow s.now, fun _ => rfl⟩))
    have hupdate : (outbox .mysql).step selected (.recoverUpdate n) = some recovered := by
      show selected.recoverUpdate n = _
      have htask : selected.tasks n = .recoverSelected 0 ids := State.setTask_tasks_self _ _ _
      have hu : MySQLMaintenance.recoverStaleEvents selected.now ids =
          some ⟨idIn ids, recoverRow s.now, fun _ => rfl⟩ := if_pos huuids
      simp only [State.recoverUpdate, htask, hu, Option.bind_some, hexecute]
      rfl
    have htasks : ∀ t : ℕ, t ≠ n → recovered.tasks t = s.tasks t := fun t ht =>
      (Function.update_of_ne ht _ _).trans (Function.update_of_ne ht _ _)
    refine ⟨recovered, (System.LeadsTo.step hselect trivial).trans (.step hupdate trivial),
      h.next (.step hselected trivial hupdate) h.unlocked htasks ?_,
      lookup_recoverAll (s := s) rfl htable fun row hrow => idIn_eq_true.trans (hmem row hrow)⟩
    rw [show recovered.tasks n = .done from State.setTask_tasks_self _ _ _]
    rfl

/-- The rows in `processing` grow old, and those with a retry left are
recovered. -/
theorem exists_recovered_all (h : Rested n s) (worker : OutboxWorker) :
    ∃ now s', (outbox a).LeadsTo (Action.drains worker) s s' ∧ Rested (n + 1) s' ∧
      ∀ id, s'.table.lookup id = (s.table.lookup id).map (recoverAll now) := by
  obtain ⟨micros, hold⟩ := exists_all_old h.reachable
  have htick : (outbox a).LeadsTo (Action.drains worker) s { s with clock := s.clock + micros } :=
    .step (a := .tick micros) rfl trivial
  obtain ⟨s', hleads, hrested, hlookup⟩ : ∃ s', (outbox a).LeadsTo (Action.drains worker)
      { s with clock := s.clock + micros } s' ∧ Rested (n + 1) s' ∧
        ∀ id, s'.table.lookup id = (s.table.lookup id).map
          (recoverAll (a.now (s.clock + micros))) := by
    cases a with
    | postgres => exact exists_recoverAll_postgres (h.tick micros) hold
    | mysql => exact exists_recoverAll_mysql (h.tick micros) hold
  exact ⟨_, s', htick.trans hleads, hrested, hlookup⟩

end RecoverAll

/-! ## One batch -/

section Batch

variable {n : ℕ} {worker : OutboxWorker} {ids : List EventId}

/-- There is a batch to claim, unless nothing is claimable. -/
theorem exists_batch (h : Rested n s) (hsize : 0 < worker.config.batchSize) :
    ∃ ids, a.ClaimSelection s.table s.locked s.now worker.config.batchSize ids ∧
      (ids = [] → ∀ row ∈ s.table.rows, a.claimable s.now row = false) := by
  obtain ⟨ids, hselection, hfirst⟩ := s.table.exists_isSelection_first
    (fun row => a.claimable s.now row && !s.locked row.id) worker.config.batchSize
    (fun row row' => decide (row.createdAt ≤ row'.createdAt))
    (fun _ _ _ h h' => decide_eq_true ((of_decide_eq_true h).trans (of_decide_eq_true h')))
    (fun row row' => by simpa using Int.le_total row.createdAt row'.createdAt)
  refine ⟨ids, ?_, fun hnil row hrow => eq_false_of_ne_true fun hclaimable => ?_⟩
  · cases a with
    | postgres =>
      refine ⟨hselection, fun row hrow hid other hother hclaimable hunlocked hnot => ?_⟩
      exact of_decide_eq_true
        (hfirst row hrow hid other hother
        (Bool.and_eq_true_iff.mpr ⟨hclaimable, by rw [hunlocked]; rfl⟩) hnot)
    | mysql => exact hselection
  · have hlength := hselection.2.2
    have hpos : 0 < s.table.rows.countP fun row => a.claimable s.now row && !s.locked row.id :=
      List.countP_pos_iff.mpr ⟨row, hrow, by simp [hclaimable, h.not_locked]⟩
    rw [hnil, List.length_nil] at hlength
    omega

/-- The call `n` has claimed the events. -/
structure ClaimedBy (n : ℕ) (worker : OutboxWorker) (ids : List EventId) (s s' : State a) :
    Prop where
  reachable : (outbox a).Reachable s'
  clock : s'.clock = s.clock
  unlocked : s'.locks = []
  others : ∀ t : ℕ, t ≠ n → s'.tasks t = s.tasks t
  task : s'.tasks n = .claimed worker (ids.filterMap s'.table.lookup)
  rows : s'.table.rows = s.table.rows.map (a.claimPendingEvents s.now ids).apply
  lookup : ∀ id, s'.table.lookup id =
    (s.table.lookup id).map (a.claimPendingEvents s.now ids).apply

private theorem exists_claimedBy_postgres {s : State .postgres} (h : Rested n s)
    (hselection : Adapter.postgres.ClaimSelection s.table s.locked s.now
      worker.config.batchSize ids) (hnil : ids ≠ []) {table : OutboxTable .postgres}
    (htable : s.table.update (Adapter.postgres.claimPendingEvents s.now ids) = some table) :
    ∃ s', (outbox .postgres).LeadsTo (Action.drains worker) s s' ∧ ClaimedBy n worker ids s s' := by
  let claimed : State .postgres := (({ s with table := table } : State .postgres).setTask n
    (.claimed worker (ids.filterMap table.lookup))).record (.claimed n ids)
  have hstep : (outbox .postgres).step s (.claim n worker ids) = some claimed := by
    show s.claim n worker ids = _
    rw [State.claim, h.idle n le_rfl]
    simp only [if_pos hselection, if_neg hnil, ↓reduceIte, h.execute htable]
    rfl
  exact ⟨claimed, .step hstep rfl, .step h.reachable trivial hstep, rfl, h.unlocked,
    fun t ht => Function.update_of_ne ht _ _, State.setTask_tasks_self _ _ _,
    Table.rows_update htable, fun id => Table.lookup_update htable id⟩

private theorem exists_claimedBy_mysql {s : State .mysql} (h : Rested n s)
    (hselection : Adapter.mysql.ClaimSelection s.table s.locked s.now
      worker.config.batchSize ids) (hnil : ids ≠ []) {table : OutboxTable .mysql}
    (htable : s.table.update (Adapter.mysql.claimPendingEvents s.now ids) = some table) :
    ∃ s', (outbox .mysql).LeadsTo (Action.drains worker) s s' ∧ ClaimedBy n worker ids s s' := by
  have huuids : MySQLEventRepository.validateIds ids = true := by
    refine List.all_eq_true.mpr fun id hid => ?_
    obtain ⟨row, hrow, -⟩ := hselection.isSelection.lookup hid
    rw [← Table.pk_of_lookup hrow]
    exact isUuid_of_reachable h.reachable row (Table.mem_of_lookup hrow)
  -- `SELECT ... FOR UPDATE SKIP LOCKED`
  let selected : State .mysql := ({ s with locks := ids.map (fun id => (n, id)) ++ s.locks } :
    State .mysql).setTask n (.claimSelected worker ids)
  have hselect : (outbox .mysql).step s (.claim n worker ids) = some selected := by
    show s.claim n worker ids = _
    rw [State.claim, h.idle n le_rfl]
    simp only [if_pos hselection, if_neg hnil]
    rfl
  -- `UPDATE`
  let updated : State .mysql := selected.setTask n (.claimUpdated worker ids s.now)
  have hupdate : (outbox .mysql).step selected (.claimUpdate n) = some updated := by
    show selected.claimUpdate n = _
    simp only [State.claimUpdate, selected, State.setTask_tasks_self, if_pos huuids]
    rfl
  -- `COMMIT`
  let committed : State .mysql := ((({ updated with table := table } : State .mysql).unlock n)
    |>.setTask n (.claimCommitted worker ids)).record (.claimed n ids)
  have hcommit : (outbox .mysql).step updated (.claimCommit n) = some committed := by
    show updated.claimCommit n = _
    have htable' : updated.table.update (Adapter.mysql.claimPendingEvents s.now ids) =
        some table := htable
    simp only [State.claimCommit, updated, State.setTask_tasks_self] at htable' ⊢
    rw [htable']
    rfl
  -- `SELECT`
  let claimed : State .mysql :=
    committed.setTask n (.claimed worker (ids.filterMap table.lookup))
  have hreselect : (outbox .mysql).step committed (.claimReselect n) = some claimed := by
    show committed.claimReselect n = _
    have htask : committed.tasks n = .claimCommitted worker ids := State.setTask_tasks_self _ _ _
    simp only [State.claimReselect, htask]
    rfl
  have hselected : (outbox .mysql).LeadsTo (Action.drains worker) s selected :=
    .step hselect rfl
  have hleads : (outbox .mysql).LeadsTo (Action.drains worker) s claimed :=
    ((hselected.trans (.step hupdate trivial)).trans (.step hcommit trivial)).trans
      (.step hreselect trivial)
  refine ⟨claimed, hleads, hleads.reachable h.reachable, rfl, ?_, fun t ht => ?_,
    State.setTask_tasks_self _ _ _, Table.rows_update htable,
    fun id => Table.lookup_update htable id⟩
  · show (ids.map (fun id => (n, id)) ++ s.locks).filter _ = []
    rw [h.unlocked, List.append_nil, List.filter_eq_nil_iff]
    intro lock hlock
    obtain ⟨id, -, rfl⟩ := List.mem_map.mp hlock
    simp
  · simp [claimed, committed, updated, selected, State.setTask, State.unlock, State.record, ht]

/-- The worker claims its batch. -/
theorem exists_claimedBy (h : Rested n s)
    (hselection : a.ClaimSelection s.table s.locked s.now worker.config.batchSize ids)
    (hnil : ids ≠ []) :
    ∃ s', (outbox a).LeadsTo (Action.drains worker) s s' ∧ ClaimedBy n worker ids s s' := by
  have hindex : (s.table.update (a.claimPendingEvents s.now ids)).isSome := by
    refine Table.update_isSome fun row hrow hlisted => ?_
    rw [Adapter.claimPendingEvents_guard, idIn_eq_true] at hlisted
    obtain ⟨row', hrow', hclaimable⟩ := hselection.isSelection.lookup hlisted
    rw [Table.lookup_of_mem hrow] at hrow'
    obtain rfl := Option.some.inj hrow'
    rw [Adapter.claimPendingEvents_assign]
    rw [Bool.and_eq_true] at hclaimable
    exact idempotencyIndex_claimRow a s.now (Adapter.status_of_claimable hclaimable.1).1
  obtain ⟨table, htable⟩ := Option.isSome_iff_exists.mp hindex
  cases a with
  | postgres => exact exists_claimedBy_postgres h hselection hnil htable
  | mysql => exact exists_claimedBy_mysql h hselection hnil htable

/-! ### The outcome -/

theorem get?_delivered {events : List OutboxEvent} (hids : events.map OutboxEvent.id = ids)
    (hnodup : ids.Nodup) {event : OutboxEvent} (hevent : event ∈ events) :
    (OrderedMap.ofList (fun id => id)
      (fun _ => (⟨true, .nullish, false, none⟩ : PublishResult)) ids).get? event.id =
        some ⟨true, .nullish, false, none⟩ := by
  have hmem : event.id ∈ ids := hids ▸ List.mem_map_of_mem hevent
  exact OrderedMap.get?_ofList _ (by simpa using hnodup) hmem

/-- A batch that is delivered leads to one call. -/
theorem executeBatchProcessing_delivered {events : List OutboxEvent}
    (hdocumented : ∀ metrics ∈ worker.metrics, metrics.Documented)
    (hids : events.map OutboxEvent.id = ids) (hnodup : ids.Nodup) (hnil : ids ≠ []) :
    executeBatchProcessing worker events (delivered ids) =
      some [.markSucceeded (ids.map fun id => (id, worker.workerId))] := by
  subst hids
  have hget := fun (event : OutboxEvent) (hevent : event ∈ events) =>
    get?_delivered rfl hnodup hevent
  have hdecision : ∀ event ∈ events,
      decision worker (delivered (events.map OutboxEvent.id)) event = .succeeded := by
    intro event hevent
    simp [decision, processingResult, delivered, hget event hevent, decideRetry]
  have hdecided : ∀ d, decided worker (delivered (events.map OutboxEvent.id)) events d =
      if d = .succeeded then events.map OutboxEvent.id else [] := by
    intro d
    rw [decided]
    split
    · rename_i hd
      rw [List.filter_eq_self.mpr fun event hevent => ?_]
      rw [hdecision event hevent, hd]
      rfl
    · rename_i hd
      rw [List.filter_eq_nil_iff.mpr fun event hevent => ?_, List.map_nil]
      rw [hdecision event hevent]
      simpa using fun heq => hd heq.symm
  have hsilent := (recordingThrows_eq_false_iff hdocumented events
    (delivered (events.map OutboxEvent.id))
    (decidedGroups worker (delivered (events.map OutboxEvent.id)) events)).mpr
      fun _ event hevent => ⟨_, hget event hevent, by simp, Or.inl rfl⟩
  rw [executeBatchProcessing_eq worker _ hnodup, if_neg (by simp [hsilent]), decidedGroups,
    hdecided, hdecided, hdecided]
  simp [repositoryCalls, hnil]

/-- What a delivered batch makes of a row. -/
def deliverRow (now : Int) (worker : OutboxWorker) (ids : List EventId) (row : OutboxEvent) :
    OutboxEvent :=
  if row.id ∈ ids then
    succeedRow now (ids.map fun id => (id, worker.workerId)) (claimRow now row)
  else row

theorem repositoryUpdate_markSucceeded (a : Adapter) (now : Int) {results : List (EventId × String)}
    (huuids : MySQLEventRepository.validateIds (results.map Prod.fst) = true) :
    a.repositoryUpdate now (.markSucceeded results) = some (PgEventRepository.markSucceeded now
      results) := by
  cases a with
  | postgres => rfl
  | mysql => exact if_pos huuids

/-- A delivery takes its rows out of the partial index, or leaves their keys
alone. -/
theorem idempotencyIndex_succeedRow (a : Adapter) (now : Int) (results : List (EventId × String))
    (row : OutboxEvent) :
    a.idempotencyIndex (succeedRow now results row) = a.idempotencyIndex row ∨
      a.idempotencyIndex (succeedRow now results row) = none := by
  cases a with
  | postgres => exact Or.inr (by simp [Adapter.idempotencyIndex, succeedRow])
  | mysql => exact Or.inl rfl

/-- The publisher delivers the claimed batch, and the worker marks it. -/
theorem ClaimedBy.exists_delivered (hclaimed : ClaimedBy n worker ids s s') (h : Rested n s)
    (hdocumented : ∀ metrics ∈ worker.metrics, metrics.Documented)
    (hnodup : ids.Nodup) (hfound : ∀ id ∈ ids, (s.table.lookup id).isSome) (hnil : ids ≠ []) :
    ∃ t, (outbox a).LeadsTo (Action.drains worker) s' t ∧ Rested (n + 1) t ∧ t.clock = s.clock ∧
      t.table.rows = s.table.rows.map (deliverRow s.now worker ids) ∧
      ∀ id, t.table.lookup id = (s.table.lookup id).map (deliverRow s.now worker ids) := by
  let results := ids.map fun id => (id, worker.workerId)
  have hfst : results.map Prod.fst = ids := by simp [results, Function.comp_def]
  have hevents : (ids.filterMap s'.table.lookup).map OutboxEvent.id = ids := by
    refine Table.map_pk_filterMap_lookup fun id hid => ?_
    rw [hclaimed.lookup, Option.isSome_map]
    exact hfound id hid
  have hclaim := hclaimed.task
  generalize ids.filterMap s'.table.lookup = events at hevents hclaim
  -- The publisher answers.
  let published : State a := (s'.setTask n (.writing worker events (delivered ids)
    [.markSucceeded results])).record (.published n worker events (delivered ids))
  have hpublish : (outbox a).step s' (.publishBatch n (delivered ids)) = some published := by
    show s'.publishBatch n (delivered ids) = _
    simp only [State.publishBatch, hclaim,
      executeBatchProcessing_delivered hdocumented hevents hnodup hnil]
    rfl
  have hreachable : (outbox a).Reachable published := .step hclaimed.reachable trivial hpublish
  -- The write executes.
  have huuids : MySQLEventRepository.validateIds (results.map Prod.fst) = true := by
    rw [hfst]
    refine List.all_eq_true.mpr fun id hid => ?_
    obtain ⟨row, hrow⟩ := Option.isSome_iff_exists.mp (hfound id hid)
    rw [← Table.pk_of_lookup hrow]
    exact isUuid_of_reachable h.reachable row (Table.mem_of_lookup hrow)
  have hnow : published.now = s.now := congrArg a.now hclaimed.clock
  obtain ⟨table, htable⟩ := Option.isSome_iff_exists.mp (Table.update_isSome_of_or
    (t := s'.table) (u := PgEventRepository.markSucceeded s.now results)
    fun row _ _ => idempotencyIndex_succeedRow a s.now results row)
  have hexecute : published.execute (PgEventRepository.markSucceeded s.now results) =
      some { published with table := table } := by
    rw [State.execute, if_neg, show published.table.update _ = some table from htable]
    · rfl
    · have hunlocked : published.locks = [] := hclaimed.unlocked
      simp [State.locked, hunlocked]
  let written : State a := (({ published with table := table } : State a).setTask n
    (.writing worker events (delivered ids) [])).record (.wrote n (.markSucceeded results))
  have hwrite : (outbox a).step published (.write n 0) = some written := by
    show published.write n 0 = _
    have htask : published.tasks n = .writing worker events (delivered ids)
      [.markSucceeded results] := State.setTask_tasks_self _ _ _
    simp only [State.write, htask, List.getElem?_cons_zero, hnow,
      repositoryUpdate_markSucceeded a s.now huuids, Option.bind_some, hexecute]
    rfl
  have hothers : ∀ t : ℕ, t ≠ n → written.tasks t = s.tasks t := fun t ht =>
    ((Function.update_of_ne ht _ _).trans (Function.update_of_ne ht _ _)).trans
      (hclaimed.others t ht)
  have hleads : (outbox a).LeadsTo (Action.drains worker) s' published :=
    .step hpublish ⟨ids, rfl⟩
  have hrow : ∀ row, (PgEventRepository.markSucceeded s.now results).apply
      ((a.claimPendingEvents s.now ids).apply row) = deliverRow s.now worker ids row := by
    intro row
    have hlisted : ∀ row', (PgEventRepository.markSucceeded s.now results).guard row' =
        decide (row'.id ∈ ids) := fun row' => by
      rw [← hfst]
      rfl
    have hclaims : ∀ row', (a.claimPendingEvents s.now ids).guard row' =
        decide (row'.id ∈ ids) := fun row' => by
      rw [Adapter.claimPendingEvents_guard]
      rfl
    rw [deliverRow]
    by_cases hid : row.id ∈ ids
    · rw [if_pos hid, Update.apply_of_guard ((hclaims row).trans (decide_eq_true hid)),
        Adapter.claimPendingEvents_assign,
        Update.apply_of_guard ((hlisted (claimRow s.now row)).trans (decide_eq_true hid))]
      rfl
    · rw [if_neg hid, Update.apply_of_not_guard ((hclaims row).trans (decide_eq_false hid)),
        Update.apply_of_not_guard ((hlisted row).trans (decide_eq_false hid))]
  refine ⟨written, hleads.trans (.step hwrite trivial), h.next (.step hreachable trivial hwrite)
    hclaimed.unlocked hothers ?_, hclaimed.clock, ?_, fun id => ?_⟩
  · rw [show written.tasks n = .writing worker events (delivered ids) [] from
      State.setTask_tasks_self _ _ _]
    rfl
  · rw [show written.table.rows = _ from Table.rows_update htable, hclaimed.rows, List.map_map]
    exact List.map_congr_left fun row _ => hrow row
  · rw [show written.table.lookup id = _ from Table.lookup_update htable id, hclaimed.lookup,
      Option.map_map]
    exact Option.map_congr fun row _ => hrow row

end Batch

/-! ## Batch after batch -/

private theorem countP_lt_countP {α : Type*} {p q : α → Bool} {l : List α}
    (himp : ∀ x ∈ l, q x = true → p x = true) {x : α} (hx : x ∈ l) (hp : p x = true)
    (hq : q x = false) : l.countP q < l.countP p := by
  obtain ⟨l₁, l₂, rfl⟩ := List.append_of_mem hx
  have h₁ : l₁.countP q ≤ l₁.countP p :=
    List.countP_mono_left fun y hy => himp y (List.mem_append_left _ hy)
  have h₂ : l₂.countP q ≤ l₂.countP p :=
    List.countP_mono_left fun y hy => himp y (by simp [hy])
  rw [List.countP_append, List.countP_append, List.countP_cons_of_pos hp,
    List.countP_cons_of_neg (by simp [hq])]
  omega

theorem deliverRow_of_mem {now : Int} {worker : OutboxWorker} {ids : List EventId}
    {row : OutboxEvent} (hid : row.id ∈ ids) :
    (deliverRow now worker ids row).status = .succeeded := by
  rw [deliverRow, if_pos hid]
  rfl

/-- A delivered row is not claimed again. -/
theorem claimable_deliverRow {now now' : Int} {worker : OutboxWorker} {ids : List EventId}
    {row : OutboxEvent} :
    a.claimable now (deliverRow now' worker ids row) = true ↔
      row.id ∉ ids ∧ a.claimable now row = true := by
  by_cases hid : row.id ∈ ids
  · refine iff_of_false (fun h => ?_) fun h => h.1 hid
    have hwaiting := (Adapter.status_of_claimable h).1
    simp [deliverRow_of_mem hid] at hwaiting
  · rw [deliverRow, if_neg hid]
    exact (and_iff_right hid).symm

/-- The worker claims and delivers until nothing is claimable. -/
theorem exists_delivered_all {n : ℕ} {worker : OutboxWorker} (h : Rested n s)
    (hdocumented : ∀ metrics ∈ worker.metrics, metrics.Documented)
    (hsize : 0 < worker.config.batchSize) :
    ∃ m s', (outbox a).LeadsTo (Action.drains worker) s s' ∧ Rested m s' ∧
      ∀ id row, s.table.lookup id = some row → ∃ row', s'.table.lookup id = some row' ∧
        (a.claimable s.now row = true → row'.status = .succeeded) ∧
        (a.claimable s.now row = false → row' = row) := by
  induction hk : s.table.rows.countP (a.claimable s.now) using Nat.strong_induction_on
    generalizing s n with
  | _ k ih =>
  obtain ⟨ids, hselection, hempty⟩ := exists_batch h hsize
  by_cases hnil : ids = []
  · refine ⟨n, s, .refl s, h, fun id row hrow => ⟨row, hrow, fun hclaimable => ?_, fun _ => rfl⟩⟩
    rw [hempty hnil row (Table.mem_of_lookup hrow)] at hclaimable
    exact absurd hclaimable Bool.false_ne_true
  · have hfound : ∀ id ∈ ids, ∃ row, s.table.lookup id = some row ∧
        a.claimable s.now row = true := by
      intro id hid
      obtain ⟨row, hrow, hclaimable⟩ := hselection.isSelection.lookup hid
      exact ⟨row, hrow, (Bool.and_eq_true_iff.mp hclaimable).1⟩
    obtain ⟨t, hclaims, hclaimed⟩ := exists_claimedBy h hselection hnil
    obtain ⟨u, hdelivers, hrested, hclock, hrows, hlookup⟩ := hclaimed.exists_delivered h
      hdocumented hselection.isSelection.1 (fun id hid => by
        obtain ⟨row, hrow, -⟩ := hfound id hid
        rw [hrow]
        rfl) hnil
    have hnow : u.now = s.now := congrArg a.now hclock
    have hless : u.table.rows.countP (a.claimable u.now) < k := by
      obtain ⟨id, hid⟩ := List.exists_mem_of_ne_nil ids hnil
      obtain ⟨row, hrow, hclaimable⟩ := hfound id hid
      rw [hrows, hnow, List.countP_map, ← hk]
      refine countP_lt_countP (fun row' _ h' => (claimable_deliverRow.mp h').2)
        (Table.mem_of_lookup hrow) hclaimable (eq_false_of_ne_true fun h' => ?_)
      exact (claimable_deliverRow.mp h').1 (Table.pk_of_lookup hrow ▸ hid)
    obtain ⟨m, s', hrest, hrested', hstatus⟩ := ih _ hless hrested rfl
    refine ⟨m, s', (hclaims.trans hdelivers).trans hrest, hrested', fun id row hrow => ?_⟩
    obtain ⟨row', hrow', hdone, hsame⟩ := hstatus id (deliverRow s.now worker ids row) (by
      rw [hlookup, hrow]
      rfl)
    rw [hnow] at hdone hsame
    refine ⟨row', hrow', fun hclaimable => ?_, fun hnot => ?_⟩
    · by_cases hid : row.id ∈ ids
      · rw [hsame (eq_false_of_ne_true fun h' => (claimable_deliverRow.mp h').1 hid)]
        exact deliverRow_of_mem hid
      · exact hdone (claimable_deliverRow.mpr ⟨hid, hclaimable⟩)
    · rw [hsame (eq_false_of_ne_true fun h' => ?_), deliverRow, if_neg fun hid => ?_]
      · obtain ⟨row₂, hrow₂, hclaimable⟩ := hfound row.id hid
        rw [Table.pk_of_lookup hrow, hrow] at hrow₂
        obtain rfl := Option.some.inj hrow₂
        rw [hnot] at hclaimable
        exact absurd hclaimable Bool.false_ne_true
      · rw [(claimable_deliverRow.mp h').2] at hnot
        exact absurd hnot.symm Bool.false_ne_true

/-! ## The whole run -/

/-- There is a time at which every event that waits is due. -/
theorem exists_all_due (hs : (outbox a).Reachable s) :
    ∃ micros : ℕ, ∀ row ∈ s.table.rows, row.status = .pending ∨ row.status = .failed →
      row.deletedAt = none → a.claimable (a.now (s.clock + micros)) row = true := by
  obtain ⟨latest, hlatest⟩ :=
    (s.table.rows.filterMap OutboxEvent.nextRetryAt).toFinset.exists_le
  refine ⟨(latest - s.clock).toNat + 2000000, fun row hrow hwaiting hdeleted => ?_⟩
  have hok := retryAtOk_of_reachable hs row hrow
  have hnow : latest ≤ a.now (s.clock + ((latest - s.clock).toNat + 2000000 : ℕ)) := by
    cases a with
    | postgres =>
      simp only [Adapter.now]
      omega
    | mysql =>
      simp only [Adapter.now, Time.second]
      omega
  rcases hwaiting with hpending | hfailed
  · have hnone := hok.pending hpending
    cases a <;> simp [Adapter.claimable, PgEventRepository.claimable,
      MySQLEventRepository.claimable, hpending, hnone, hdeleted]
  · obtain ⟨due, hdue⟩ := Option.isSome_iff_exists.mp (hok.failed hfailed)
    have hle : due ≤ latest :=
      hlatest due (List.mem_toFinset.mpr (List.mem_filterMap.mpr ⟨row, hrow, hdue⟩))
    exact claimable_of_due hfailed hdue (hle.trans hnow) hdeleted

/-- The event is in the DLQ, or it is in its last attempt: should the claimer of
this attempt end without a write, no statement delivers the event again. -/
def Undeliverable (row : OutboxEvent) : Prop :=
  row.status = .dlq ∨ row.status = .processing ∧ row.maxRetries ≤ row.retryCount

instance (row : OutboxEvent) : Decidable (Undeliverable row) :=
  inferInstanceAs (Decidable (_ ∨ _))

/-- No statement cancels an event. -/
theorem not_cancelled_of_reachable (hs : (outbox a).Reachable s) :
    ∀ row ∈ s.table.rows, row.status ≠ .cancelled := by
  refine reachable_rows (P := fun _ row => row.status ≠ .cancelled) ?_ ?_ hs
  · intro _ _ _ _ _ _ hfresh hstatus
    rw [hfresh.status] at hstatus
    exact absurd hstatus (by simp)
  · intro s act s' row row' _ _ _ _ _ hrowStep hnot hstatus
    cases hrowStep with
    | kept hkeep _ => exact hnot (hkeep.status ▸ hstatus)
    | claimed => exact absurd hstatus (by simp [claimRow])
    | committed => exact absurd hstatus (by simp [claimRow])
    | written _ _ _ _ _ _ call _ _ _ _ _ heffect =>
      rw [heffect.status] at hstatus
      cases call <;> exact absurd hstatus (by simp [RepositoryCall.status])
    | recovered => exact absurd hstatus (by simp [recoverRow])
    | recoveredById => exact absurd hstatus (by simp [recoverRow])
    | replayed => exact absurd hstatus (by simp [replayRow])
    | rangeReplayed => exact absurd hstatus (by simp [replayRow])

/-- From every state, when the calls in progress have crashed, one worker with a
publisher that delivers and a stale recovery can deliver all events at once that
are neither deleted nor in the DLQ nor out of retries in `processing`.  The last
ones are then stuck, and stay in `processing` in every later run. -/
theorem exists_drained (hs : (outbox a).Reachable s) (worker : OutboxWorker)
    (hdocumented : ∀ metrics ∈ worker.metrics, metrics.Documented)
    (hsize : 0 < worker.config.batchSize) :
    ∃ s', (outbox a).LeadsTo (Action.drains worker) s s' ∧
      ∀ row ∈ s.table.rows, row.deletedAt = none →
        ∃ row', s'.table.lookup row.id = some row' ∧
          row'.status = (if Undeliverable row then row.status else .succeeded) ∧
          (row'.status = .processing → Stuck s' row.id row' ∧
            ∀ acts t, (outbox a).run s' acts = some t →
              t.status row.id = some .processing) := by
  obtain ⟨n, rested, hcrashes, hrested, htable⟩ := exists_rested hs worker
  obtain ⟨now, recovered, hrecovers, hrecovered, hlookup⟩ := exists_recovered_all hrested worker
  obtain ⟨micros, hdue⟩ := exists_all_due hrecovered.reachable
  have htick : (outbox a).LeadsTo (Action.drains worker) recovered
      { recovered with clock := recovered.clock + micros } :=
    .step (a := .tick micros) rfl trivial
  obtain ⟨m, s', hdelivers, hrested', hdelivered⟩ :=
    exists_delivered_all (hrecovered.tick micros) hdocumented hsize
  refine ⟨s', ((hcrashes.trans hrecovers).trans htick).trans hdelivers,
    fun row hrow hdeleted => ?_⟩
  have hrow₁ : recovered.table.lookup row.id = some (recoverAll now row) := by
    rw [hlookup, htable, Table.lookup_of_mem hrow]
    rfl
  obtain ⟨row', hrow', hdone, hsame⟩ := hdelivered row.id (recoverAll now row) hrow₁
  have hclaimed : (recoverAll now row).status = .pending ∨ (recoverAll now row).status = .failed →
      row'.status = .succeeded := by
    intro hwaiting
    refine hdone (hdue _ (Table.mem_of_lookup hrow₁) hwaiting ?_)
    rw [recoverAll]
    split <;> exact hdeleted
  have hkept : (recoverAll now row).status ≠ .pending → (recoverAll now row).status ≠ .failed →
      row' = recoverAll now row := fun hpending hfailed =>
    hsame (eq_false_of_ne_true fun hclaimable =>
      (Adapter.status_of_claimable hclaimable).1.elim hpending hfailed)
  refine ⟨row', hrow', ?_⟩
  cases hstatus : row.status with
  | pending =>
    rw [recoverAll, if_neg (by simp [hstatus])] at hclaimed
    have hsucceeded := hclaimed (Or.inl hstatus)
    simp [Undeliverable, hstatus, hsucceeded]
  | failed =>
    rw [recoverAll, if_neg (by simp [hstatus])] at hclaimed
    have hsucceeded := hclaimed (Or.inr hstatus)
    simp [Undeliverable, hstatus, hsucceeded]
  | succeeded =>
    rw [recoverAll, if_neg (by simp [hstatus])] at hkept
    rw [hkept (by simp [hstatus]) (by simp [hstatus])]
    simp [hstatus]
  | dlq =>
    rw [recoverAll, if_neg (by simp [hstatus])] at hkept
    rw [hkept (by simp [hstatus]) (by simp [hstatus])]
    simp [Undeliverable, hstatus]
  | cancelled => exact absurd hstatus (not_cancelled_of_reachable hs row hrow)
  | processing =>
    by_cases hretry : (row.retryCount : Int) < row.maxRetries
    · -- The recovery makes it wait again.
      rw [recoverAll, if_pos ⟨hstatus, hretry⟩] at hclaimed
      have hsucceeded := hclaimed (Or.inr rfl)
      simp [Undeliverable, hstatus, hsucceeded, hretry]
    · rw [recoverAll, if_neg fun h => hretry h.2] at hkept
      obtain rfl := hkept (by simp [hstatus]) (by simp [hstatus])
      have hexhausted : row'.maxRetries ≤ row'.retryCount := by omega
      have hstuck : Stuck s' row'.id row' := ⟨hrow', hstatus, hexhausted, hrested'.free row'.id⟩
      refine ⟨?_, fun _ => ⟨hstuck, fun acts t hrun =>
        status_of_stuck_run hrested'.reachable hstuck hrun⟩⟩
      simp [Undeliverable, hstatus, hexhausted]

/-- A worker is slow to publish its only event.  Another one can deliver it,
and one that waits. -/
theorem exists_drained_publishing : ∃ s s' : State .postgres,
    (outbox .postgres).Reachable s ∧ s.status Sample.id = some .processing ∧
      s.status Sample.otherId = some .pending ∧
      (outbox .postgres).LeadsTo (Action.drains Sample.measured) s s' ∧
      s'.status Sample.id = some .succeeded ∧ s'.status Sample.otherId = some .succeeded := by
  have hrun : ((outbox .postgres).run (State.initial 0)
      [.publish Sample.id (Sample.values 5), .claim 0 Sample.worker [Sample.id],
        .publish Sample.otherId (Sample.values 5)]).any (fun s =>
          (s.table.lookup Sample.id).any (fun row => decide (row.status = .processing ∧
            row.deletedAt = none ∧ ¬ Undeliverable row)) &&
          (s.table.lookup Sample.otherId).any fun row => decide (row.status = .pending ∧
            row.deletedAt = none ∧ ¬ Undeliverable row)) = true := by
    decide +kernel
  obtain ⟨s, hs, hcheck⟩ := (Option.any_eq_true _ _).mp hrun
  rw [Bool.and_eq_true] at hcheck
  obtain ⟨row, hrow, hfirst⟩ := (Option.any_eq_true _ _).mp hcheck.1
  obtain ⟨other, hother, hsecond⟩ := (Option.any_eq_true _ _).mp hcheck.2
  obtain ⟨hprocessing, hkept, hdeliverable⟩ := of_decide_eq_true hfirst
  obtain ⟨hpending, hkept', hdeliverable'⟩ := of_decide_eq_true hsecond
  have hreachable := (reachable_initial .postgres 0).run hs
  obtain ⟨s', hleads, hdrained⟩ := exists_drained hreachable Sample.measured
    Sample.documented_measured (by decide)
  obtain ⟨row', hrow', hstatus, -⟩ := hdrained row (Table.mem_of_lookup hrow) hkept
  obtain ⟨other', hother', hstatus', -⟩ := hdrained other (Table.mem_of_lookup hother) hkept'
  rw [if_neg hdeliverable] at hstatus
  rw [if_neg hdeliverable'] at hstatus'
  rw [Table.pk_of_lookup hrow] at hrow'
  rw [Table.pk_of_lookup hother] at hother'
  exact ⟨s, s', hreachable, State.status_eq_some.mpr ⟨row, hrow, hprocessing⟩,
    State.status_eq_some.mpr ⟨other, hother, hpending⟩, hleads,
    State.status_eq_some.mpr ⟨row', hrow', hstatus⟩,
    State.status_eq_some.mpr ⟨other', hother', hstatus'⟩⟩

end Outboxy
