import Outboxy.Invariants

/-!
# The rows that wait for a claim

The `WHERE` of a claim is not the same on the two databases.  PostgreSQL
reads a `next_retry_at` that is `NULL` as "now", for both statuses; MySQL
does not look at it on a `pending` row, and never finds a `failed` row
without it.

* `RetryAtOk` is what makes them agree: `pending` rows have no
  `next_retry_at`, and `failed` rows have one.
* `claimable_eq_of_retryAtOk` is the agreement.
* `claim_predicates_agree` adds the pending count.  It counts locked rows,
  which a claim skips.  The locks are those of open claims on MySQL, and of
  transactions of producers whose `publish` met the key of a row.  The state has
  only the former, so the result is about any locks.
-/

namespace Outboxy

variable {a : Adapter} {s s' : State a}

/-- The retry date fits the status. -/
structure RetryAtOk (row : OutboxEvent) : Prop where
  pending : row.status = .pending → row.nextRetryAt = none
  failed : row.status = .failed → row.nextRetryAt.isSome

/-- A row that is not waiting needs no retry date. -/
theorem RetryAtOk.of_not_waiting {row : OutboxEvent} (hpending : row.status ≠ .pending)
    (hfailed : row.status ≠ .failed) : RetryAtOk row :=
  ⟨fun h => absurd h hpending, fun h => absurd h hfailed⟩

theorem RetryAtOk.of_pending {row : OutboxEvent} (hstatus : row.status = .pending)
    (hnone : row.nextRetryAt = none) : RetryAtOk row :=
  ⟨fun _ => hnone, fun h => absurd (hstatus.symm.trans h) (by simp)⟩

theorem RetryAtOk.of_failed {row : OutboxEvent} (hstatus : row.status = .failed)
    (hsome : row.nextRetryAt.isSome) : RetryAtOk row :=
  ⟨fun h => absurd (hstatus.symm.trans h) (by simp), fun _ => hsome⟩

/-- Each way to change a row sets or clears the retry date as its status asks
for. -/
theorem retryAtOk_step {act : Action} {row row' : OutboxEvent} (hstep : RowStep s act s' row row')
    (hok : RetryAtOk row) : RetryAtOk row' := by
  cases hstep with
  | kept hkeep _ =>
    constructor
    · rw [hkeep.status, hkeep.nextRetryAt]
      exact hok.pending
    · rw [hkeep.status, hkeep.nextRetryAt]
      exact hok.failed
  | claimed => exact .of_not_waiting (by simp [claimRow]) (by simp [claimRow])
  | committed => exact .of_not_waiting (by simp [claimRow]) (by simp [claimRow])
  | written _ _ _ _ _ _ call _ _ _ _ _ heffect =>
    have hstatus := heffect.status
    cases call with
    | scheduleRetry eventIds errorMessages config => exact .of_failed hstatus heffect.nextRetryAt
    | _ =>
      refine .of_not_waiting ?_ ?_ <;>
        simp [hstatus, RepositoryCall.status]
  | recovered => exact .of_failed rfl rfl
  | recoveredById => exact .of_failed rfl rfl
  | replayed => exact .of_pending rfl rfl
  | rangeReplayed => exact .of_pending rfl rfl

theorem retryAtOk_of_reachable (hs : (outbox a).Reachable s) :
    ∀ row ∈ s.table.rows, RetryAtOk row :=
  reachable_rows (P := fun _ row => RetryAtOk row)
    (fun _ _ _ _ _ _ hfresh => .of_pending hfresh.status hfresh.nextRetryAt)
    (fun _ _ _ _ _ _ _ _ _ _ hstep hok => retryAtOk_step hstep hok) hs

/-- The two databases claim the same rows. -/
theorem claimable_eq_of_retryAtOk {row : OutboxEvent} (hok : RetryAtOk row) (now : Int) :
    PgEventRepository.claimable now row = MySQLEventRepository.claimable now row := by
  obtain ⟨hpending, hfailed⟩ := hok
  unfold PgEventRepository.claimable MySQLEventRepository.claimable
  cases hstatus : row.status with
  | pending => simp [hpending hstatus]
  | failed =>
    obtain ⟨nextRetryAt, hnext⟩ := Option.isSome_iff_exists.mp (hfailed hstatus)
    simp [hnext]
  | _ => simp

/-! ## The pending count -/

/-- The rows that are counted as pending while an open transaction has them
locked. -/
def State.lockedPendingCount (s : State a) (locked : EventId → Bool) : Nat :=
  s.table.rows.countP fun row => a.claimable s.now row && locked row.id

section Locked

variable {locked : EventId → Bool} {batchSize : Nat}
  (hbatch : a.getPendingEventCount s.table s.now ≤ batchSize)

include hbatch

/-- A claim without an effective batch size has a selection. -/
theorem exists_claimSelection :
    ∃ ids, a.ClaimSelection s.table locked s.now batchSize ids := by
  have hlimit : s.table.rows.countP (fun row => a.claimable s.now row && !locked row.id) ≤
      batchSize := by
    rw [Adapter.getPendingEventCount_eq] at hbatch
    refine (List.countP_mono_left fun row _ hrow => ?_).trans hbatch
    exact (Bool.and_eq_true _ _ ▸ hrow).1
  have hselection := Table.isSelection_filter hlimit
  cases a with
  | postgres =>
    refine ⟨_, hselection, fun _ _ _ other hother hclaimable hfree hnot => ?_⟩
    -- Nothing is left for the order to decide.
    refine absurd (List.mem_map.mpr ⟨other, List.mem_filter.mpr ⟨hother, ?_⟩, rfl⟩) hnot
    rw [hfree, Bool.not_false, Bool.and_true]
    exact hclaimable
  | mysql => exact ⟨_, hselection⟩

/-- Such a selection takes what is counted and not locked. -/
theorem getPendingEventCount_eq_length_add {ids : List EventId}
    (hselection : a.ClaimSelection s.table locked s.now batchSize ids) :
    a.getPendingEventCount s.table s.now = ids.length + s.lockedPendingCount locked := by
  rw [Adapter.getPendingEventCount_eq] at hbatch ⊢
  have hsplit := List.countP_eq_countP_filter_add s.table.rows (a.claimable s.now)
    fun row => !locked row.id
  simp only [List.countP_filter, Bool.not_not] at hsplit
  have hlength := hselection.isSelection.length_of_countP_le (by omega)
  rw [hsplit, hlength, State.lockedPendingCount]

end Locked

theorem lockedPendingCount_eq_zero {locked : EventId → Bool}
    (hfree : ∀ row ∈ s.table.rows, a.claimable s.now row = true → locked row.id = false) :
    s.lockedPendingCount locked = 0 := by
  rw [State.lockedPendingCount, List.countP_eq_zero]
  intro row hrow hboth
  rw [Bool.and_eq_true] at hboth
  rw [hfree row hrow hboth.1] at hboth
  exact absurd hboth.2 (by simp)

/-- In every reachable state the retry dates fit the statuses and the two
claim predicates agree, and a claim without an effective batch size takes
what the pending count counts, apart from the rows that open transactions have
locked, whichever these are. -/
theorem claim_predicates_agree (hs : (outbox a).Reachable s) :
    (∀ row ∈ s.table.rows, RetryAtOk row) ∧
      (∀ now, ∀ row ∈ s.table.rows,
        PgEventRepository.claimable now row = MySQLEventRepository.claimable now row) ∧
      ∀ (locked : EventId → Bool) batchSize, a.getPendingEventCount s.table s.now ≤ batchSize →
        (∃ ids, a.ClaimSelection s.table locked s.now batchSize ids) ∧
          ∀ ids, a.ClaimSelection s.table locked s.now batchSize ids →
            a.getPendingEventCount s.table s.now = ids.length + s.lockedPendingCount locked ∧
              ((∀ row ∈ s.table.rows, a.claimable s.now row = true → locked row.id = false) →
                a.getPendingEventCount s.table s.now = ids.length) := by
  have hok := retryAtOk_of_reachable hs
  refine ⟨hok, fun now row hrow => claimable_eq_of_retryAtOk (hok row hrow) now,
    fun locked batchSize hbatch => ⟨exists_claimSelection hbatch, fun ids hselection => ?_⟩⟩
  have hcount := getPendingEventCount_eq_length_add hbatch hselection
  refine ⟨hcount, fun hfree => ?_⟩
  rw [hcount, lockedPendingCount_eq_zero hfree, Nat.add_zero]

/-- A claim on MySQL has selected an event, and is not committed yet. -/
private theorem exists_claiming :
    ∃ s : State .mysql, (outbox .mysql).Reachable s ∧
      Adapter.mysql.getPendingEventCount s.table s.now = 1 ∧
      s.lockedPendingCount s.locked = 1 := by
  have hcheck : (((outbox .mysql).run (State.initial 0)
      [.publish Sample.id (Sample.values 5), .claim 0 Sample.worker [Sample.id]]).any fun s =>
        decide (Adapter.mysql.getPendingEventCount s.table s.now = 1 ∧
          s.lockedPendingCount s.locked = 1)) = true := by
    decide +kernel
  obtain ⟨s, hrun, hcounts⟩ := (Option.any_eq_true _ _).mp hcheck
  exact ⟨s, (reachable_initial .mysql 0).run hrun, of_decide_eq_true hcounts⟩

/-- While a claim is open, the next one takes nothing. -/
theorem claim_predicates_agree_claiming :
    ∃ s : State .mysql, Adapter.mysql.getPendingEventCount s.table s.now = 1 ∧
      ∀ ids, Adapter.mysql.ClaimSelection s.table s.locked s.now 10 ids → ids = [] := by
  obtain ⟨s, hs, hcount, hlocked⟩ := exists_claiming
  refine ⟨s, hcount, fun ids hselection => ?_⟩
  have hsum := (((claim_predicates_agree hs).2.2 s.locked 10 (by omega)).2 ids hselection).1
  exact List.length_eq_zero_iff.mp (by omega)

/-- The pending count is not what a claim of any size would take. -/
theorem pending_count_includes_locked :
    ∃ s : State .mysql, (outbox .mysql).Reachable s ∧
      ∀ batchSize ids, Adapter.mysql.ClaimSelection s.table s.locked s.now batchSize ids →
        ids.length ≠ Adapter.mysql.getPendingEventCount s.table s.now := by
  obtain ⟨s, hs, hcount, hlocked⟩ := exists_claiming
  refine ⟨s, hs, fun batchSize ids hselection hlength => ?_⟩
  have hbatch := hselection.isSelection.length_le
  have hsum := getPendingEventCount_eq_length_add (by omega) hselection
  omega

end Outboxy
