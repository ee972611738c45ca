import Outboxy.Delivery.Exclusive

/-!
# The retry budget

On PostgreSQL every statement that counts a retry asks for
`retry_count < max_retries` first, and every way back to the claimable
statuses counts one.  So the retry count is a bound on the claims:
`WithinBudget` is the invariant.  A row whose `max_retries` is negative is
claimed once all the same, because a claim does not look at it.

Without recoveries and range replays, the retry count that a worker decides
on is the one in the row, so the worker's own limit is a bound too.
-/

namespace Outboxy

/-- The row waits for delivery. -/
def OutboxEvent.waiting (row : OutboxEvent) : Prop :=
  row.status = .pending ∨ row.status = .failed

/-- The retry count is within its limit, and covers the claims of the row but
for the one that is not answered by a retry. -/
structure WithinBudget (s : State .postgres) (row : OutboxEvent) : Prop where
  retryCount : (row.retryCount : Int) ≤ max 0 row.maxRetries
  claims : claimsSince row.id s.history ≤ row.retryCount + 1
  waiting : row.waiting → claimsSince row.id s.history ≤ row.retryCount

section Steps

variable {s s' : State .postgres} {act : Action} {row row' : OutboxEvent}

theorem withinBudget_fresh (hfresh : FreshRow s s' row.id row) : WithinBudget s' row := by
  have hclaims : claimsSince row.id s'.history = 0 := by
    rw [hfresh.history]
    simp [claimsSince, HistoryEntry.resets]
  constructor
  · rw [hfresh.retryCount]
    exact Int.le_max_left _ _
  · omega
  · intro _
    omega

/-- A replay starts the count again. -/
private theorem withinBudget_replayRow {now : Int} (hclaims : claimsSince row.id s'.history = 0) :
    WithinBudget s' (replayRow now row) := by
  refine ⟨Int.le_max_left _ _, ?_, fun _ => ?_⟩
  · simp [replayRow, hclaims]
  · simp [replayRow, hclaims]

theorem withinBudget_step (hs : (outbox .postgres).Reachable s) (hid : row'.id = row.id)
    (hstep : RowStep s act s' row row') (hbudget : WithinBudget s row) : WithinBudget s' row' := by
  obtain ⟨hcount, hclaims, hwaiting⟩ := hbudget
  have hnone : ∀ t thresholdMs eventIds, s.tasks t ≠ .recoverSelected thresholdMs eventIds := by
    intro t thresholdMs eventIds htask
    have hok := taskOk_of_reachable hs t
    rw [htask] at hok
    exact hok rfl
  have hcount' := retryCount_le_rowStep hstep
    (fun t thresholdMs eventIds _ htask => absurd htask (hnone t thresholdMs eventIds)) hcount
  cases hstep with
  | kept hkeep hsame =>
    refine ⟨hcount', ?_, fun hwaiting' => ?_⟩
    · rw [hid, hsame, hkeep.retryCount]
      exact hclaims
    · rw [hid, hsame, hkeep.retryCount]
      rw [OutboxEvent.waiting, hkeep.status] at hwaiting'
      exact hwaiting hwaiting'
  | claimed t worker ids _ _ hmem hclaimable _ hhistory =>
    have hbefore := hwaiting (Adapter.status_of_claimable hclaimable).1
    have hafter : claimsSince row.id s'.history = claimsSince row.id s.history + 1 := by
      rw [hhistory]
      simp [claimsSince, HistoryEntry.resets, HistoryEntry.claims, hmem]
    refine ⟨hcount', ?_, fun hwaiting' => ?_⟩
    · simp only [claimRow, hafter]
      omega
    · simp [OutboxEvent.waiting, claimRow] at hwaiting'
  | committed t _ _ _ _ htask =>
    have hok := taskOk_of_reachable hs t
    rw [htask] at hok
    exact absurd rfl hok.1
  | written t index _ _ _ _ call _ _ _ _ _ heffect _ hhistory =>
    have hsame : claimsSince row.id s'.history = claimsSince row.id s.history := by
      rw [hhistory]
      rfl
    have hretries := heffect.retryCount
    rw [← hid] at hsame hclaims hwaiting
    cases call with
    | scheduleRetry eventIds errorMessages config =>
      simp only [RepositoryCall.decision, ↓reduceIte] at hretries
      exact ⟨hcount', by omega, fun _ => by omega⟩
    | _ =>
      simp only [RepositoryCall.decision, reduceCtorEq, ↓reduceIte] at hretries
      refine ⟨hcount', by omega, fun hwaiting' => ?_⟩
      simp [OutboxEvent.waiting, heffect.status, RepositoryCall.status] at hwaiting'
  | recovered _ _ _ _ _ _ _ hhistory =>
    have hsame : claimsSince row.id s'.history = claimsSince row.id s.history := by
      rw [hhistory]
      rfl
    refine ⟨hcount', ?_, fun _ => ?_⟩ <;> simp only [recoverRow, hsame] <;> omega
  | recoveredById t thresholdMs eventIds _ _ htask =>
    exact absurd htask (hnone t thresholdMs eventIds)
  | replayed _ _ _ _ _ _ _ hzero => exact withinBudget_replayRow hzero
  | rangeReplayed _ _ _ _ _ _ _ hzero => exact withinBudget_replayRow hzero

end Steps

theorem withinBudget_of_reachable {s : State .postgres} (hs : (outbox .postgres).Reachable s) :
    ∀ row ∈ s.table.rows, WithinBudget s row :=
  reachable_rows (fun _ _ _ _ _ _ hfresh => withinBudget_fresh hfresh)
    (fun _ _ _ _ _ hs _ _ _ hid hstep hbudget => withinBudget_step hs hid hstep hbudget) hs

/-! ## The limit of the workers -/

/-- The worker of a call. -/
def Task.worker? : Task → Option OutboxWorker
  | .claimSelected worker _ => some worker
  | .claimUpdated worker _ _ => some worker
  | .claimCommitted worker _ => some worker
  | .claimed worker _ => some worker
  | .writing worker _ _ _ => some worker
  | _ => none

/-- Nothing takes rows over, and the workers share the limit `M`. -/
def SharedLimit (M : Nat) (act : Action) : Prop :=
  act.takesOver = false ∧
    ∀ t worker ids, act = .claim t worker ids → worker.config.maxRetries = M

section SharedLimit

variable {a : Adapter} {M : Nat}

/-- What is true of the workers that claim is true of the workers in the
calls. -/
theorem worker_of_task {allowed : State a → Action → Prop} {P : OutboxWorker → Prop}
    (hclaim : ∀ s act, allowed s act → ∀ t worker ids, act = .claim t worker ids → P worker)
    {s : State a} (hs : (outbox a).ReachableBy allowed s) :
    ∀ t worker, (s.tasks t).worker? = some worker → P worker := by
  refine hs.induct (P := fun s => ∀ t worker, (s.tasks t).worker? = some worker → P worker) ?_ ?_
  · intro s hinit t worker hworker
    obtain ⟨clock, rfl⟩ := hinit
    exact absurd hworker (by simp [State.initial, Task.worker?])
  · intro s act s' _ hlimit hallowed h t worker hworker
    have hlimit' := hlimit t worker
    have hmove := task_step h t
    generalize s.tasks t = task at hlimit' hmove
    generalize s'.tasks t = task' at hworker hmove
    cases hmove with
    | selected worker' ids hact =>
      obtain rfl := Option.some.inj hworker
      exact hclaim s act hallowed t worker' ids hact
    | claimed worker' ids hact =>
      obtain rfl := Option.some.inj hworker
      exact hclaim s act hallowed t worker' ids hact
    | kept => exact hlimit' hworker
    | updated => exact hlimit' hworker
    | committed => exact hlimit' hworker
    | reselected => exact hlimit' hworker
    | published => exact hlimit' hworker
    | wrote => exact hlimit' hworker
    | writeFailed => exact hlimit' hworker
    | _ => exact absurd hworker (by simp [Task.worker?])

theorem maxRetries_of_worker {s : State a}
    (hs : (outbox a).ReachableBy (fun _ act => SharedLimit M act) s) :
    ∀ t worker, (s.tasks t).worker? = some worker → worker.config.maxRetries = M :=
  worker_of_task (fun _ _ hallowed => hallowed.2) hs

/-- A retry is scheduled for a row whose retry count is below the limit of
the workers, since the row is still the one that was claimed. -/
theorem retryCount_le_of_sharedLimit {s : State a}
    (hs : (outbox a).ReachableBy (fun _ act => SharedLimit M act) s) :
    ∀ row ∈ s.table.rows, row.retryCount ≤ M := by
  refine reachable_rows (P := fun _ row => row.retryCount ≤ M) ?_ ?_ hs
  · intro _ _ _ _ _ _ hfresh
    rw [hfresh.retryCount]
    exact Nat.zero_le _
  · intro s act s' row row' hs hallowed _ hrow _ hstep hle
    cases hstep with
    | kept hkeep _ =>
      rw [hkeep.retryCount]
      exact hle
    | claimed => exact hle
    | committed => exact hle
    | written t index worker events outcome pending call _ htask hcall hid _ heffect =>
      have hexclusive := exclusive_of_reachable (hs.mono fun _ _ h => h.1)
      have hissued : IssuedCall s t index call := ⟨worker, events, outcome, pending, htask, hcall⟩
      obtain ⟨worker', events', _, _, event, htask', _, _, hevent, hdecision, heventid⟩ :=
        exists_event_of_issued hs.reachable hissued hid
      have hin := inFlight_of_issued hs.reachable hissued hid
      rw [← heventid] at hin hrow
      have hmem : event ∈ (s.tasks t).events := by
        rw [htask']
        exact hevent
      obtain ⟨row₀, hrow₀, hcount⟩ := hexclusive.retryCount t event hmem hin
      rw [hrow] at hrow₀
      obtain rfl := Option.some.inj hrow₀
      have hlimit := maxRetries_of_worker hs t worker' (by rw [htask']; rfl)
      have hcount' := heffect.retryCount
      split at hcount'
      · rename_i hretry
        have hlt := retryCount_lt_of_decision (hdecision.trans hretry)
        omega
      · omega
    | recovered _ _ _ hact => exact absurd hallowed.1 (by simp [hact, Action.takesOver])
    | recoveredById _ _ _ _ hact => exact absurd hallowed.1 (by simp [hact, Action.takesOver])
    | replayed => exact Nat.zero_le _
    | rangeReplayed => exact Nat.zero_le _

end SharedLimit

/-- On PostgreSQL, the retry count of a row is at most its `max_retries`, or
0, and the row is claimed at most once more than that since its creation or
last replay.  Without recoveries and range replays, the limit that all workers
share is a bound too. -/
theorem retry_budget {s : State .postgres} (hs : (outbox .postgres).Reachable s) :
    (∀ row ∈ s.table.rows, (row.retryCount : Int) ≤ max 0 row.maxRetries ∧
        claimsSince row.id s.history ≤ row.retryCount + 1 ∧
        (claimsSince row.id s.history : Int) ≤ max 0 row.maxRetries + 1) ∧
      ∀ M : Nat, (outbox .postgres).ReachableBy (fun _ act => SharedLimit M act) s →
        ∀ row ∈ s.table.rows,
          (claimsSince row.id s.history : Int) ≤ min (M : Int) (max 0 row.maxRetries) + 1 := by
  constructor
  · intro row hrow
    obtain ⟨hcount, hclaims, _⟩ := withinBudget_of_reachable hs row hrow
    exact ⟨hcount, hclaims, by omega⟩
  · intro M hlimit row hrow
    obtain ⟨hcount, hclaims, _⟩ := withinBudget_of_reachable hs row hrow
    have hle := retryCount_le_of_sharedLimit hlimit row hrow
    omega

namespace Sample

/-- A worker claims an event, and nothing else happens. -/
def claimedOnce (maxRetries : Int) : List Action :=
  [.publish id (values maxRetries), .claim 0 worker [id]]

/-- A worker claims an event and fails to publish it.  The retry is claimed
when it is due. -/
def claimedTwice (maxRetries : Int) : List Action :=
  claimedOnce maxRetries ++
    [.publishBatch 0 (answers [(id, false)]), .write 0 0, .tick 60000000, .claim 1 worker [id]]

theorem sharedLimit_claimedTwice (maxRetries : Int) :
    ∀ act ∈ claimedTwice maxRetries, SharedLimit 5 act := by
  intro act hact
  refine ⟨?_, fun t w ids heq => ?_⟩
  · simp only [claimedTwice, claimedOnce, List.cons_append, List.nil_append, List.mem_cons,
      List.not_mem_nil, or_false] at hact
    rcases hact with rfl | rfl | rfl | rfl | rfl | rfl <;> rfl
  · subst heq
    have hworker : w = worker := by
      simp [claimedTwice, claimedOnce] at hact
      tauto
    rw [hworker]
    rfl

end Sample

/-- What the row looks like after a run without recoveries and range
replays. -/
private theorem exists_of_run {acts : List Action} (hacts : ∀ act ∈ acts, SharedLimit 5 act)
    (p : State .postgres → OutboxEvent → Bool)
    (hrun : ((outbox .postgres).run (State.initial 0) acts).any
      (fun s => (s.table.lookup Sample.id).any (p s)) = true) :
    ∃ (s : State .postgres) (row : OutboxEvent),
      (outbox .postgres).ReachableBy (fun _ act => SharedLimit 5 act) s ∧
      row ∈ s.table.rows ∧ row.id = Sample.id ∧ p s row = true := by
  obtain ⟨s, hs, hcheck⟩ := (Option.any_eq_true _ _).mp hrun
  obtain ⟨row, hrow, hp⟩ := (Option.any_eq_true _ _).mp hcheck
  exact ⟨s, row, Transition.System.ReachableBy.run (.init ⟨0, rfl⟩) (fun _ => hacts) hs,
    Table.mem_of_lookup hrow, Table.pk_of_lookup hrow, hp⟩

/-- The two claims of an event that was retried are within its budget. -/
theorem retry_budget_claimed_twice :
    ∃ (s : State .postgres) (row : OutboxEvent), row ∈ s.table.rows ∧ row.id = Sample.id ∧
      claimsSince row.id s.history = 2 ∧ row.retryCount = 1 ∧
      (claimsSince row.id s.history : Int) ≤ row.retryCount + 1 ∧
      (claimsSince row.id s.history : Int) ≤ min 5 (max 0 row.maxRetries) + 1 := by
  obtain ⟨s, row, hs, hrow, hid, hcheck⟩ := exists_of_run (Sample.sharedLimit_claimedTwice 3)
    (fun s row => decide (claimsSince row.id s.history = 2 ∧ row.retryCount = 1))
    (by decide +kernel)
  obtain ⟨hbudget, hlimit⟩ := retry_budget hs.reachable
  obtain ⟨hclaims, hretries⟩ := of_decide_eq_true hcheck
  exact ⟨s, row, hrow, hid, hclaims, hretries, Int.ofNat_le.mpr (hbudget row hrow).2.1,
    hlimit 5 hs row hrow⟩

/-- The SDK passes on a negative `max_retries`, and the event is claimed once
all the same. -/
theorem retry_budget_negative :
    ∃ (s : State .postgres) (row : OutboxEvent),
      (outbox .postgres).ReachableBy (fun _ act => SharedLimit 5 act) s ∧ row ∈ s.table.rows ∧
      ¬ (claimsSince row.id s.history : Int) ≤ row.maxRetries + 1 ∧
      ¬ (claimsSince row.id s.history : Int) ≤ min 5 row.maxRetries + 1 := by
  have hacts : ∀ act ∈ Sample.claimedOnce (-1), SharedLimit 5 act := fun act hact =>
    Sample.sharedLimit_claimedTwice (-1) act (List.mem_append_left _ hact)
  obtain ⟨s, row, hs, hrow, _, hcheck⟩ := exists_of_run hacts
    (fun s row => decide (¬ (claimsSince row.id s.history : Int) ≤ row.maxRetries + 1 ∧
      ¬ (claimsSince row.id s.history : Int) ≤ min 5 row.maxRetries + 1)) (by decide +kernel)
  exact ⟨s, row, hs, hrow, of_decide_eq_true hcheck⟩

end Outboxy
