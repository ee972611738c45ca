import Outboxy.Invariants

/-!
# Where outcomes come from

A row is `succeeded` or dead-lettered for a reason, and the reason is in the
history: a published batch with the event in it, and an answer of the
publisher that says so.  The publisher is arbitrary; it may throw, leave
events out, or answer for events that nobody asked about.
-/

namespace Outboxy

variable {a : Adapter} {s s' : State a} {act : Action}

/-- A batch with the event was published, and the publisher said that it was
delivered. -/
def WasDelivered (s : State a) (id : EventId) : Prop :=
  ∃ t worker events outcome, .published t worker events outcome ∈ s.history ∧
    (∃ event ∈ events, event.id = id) ∧ PublishSucceeded outcome id

/-- A batch with the event was published, and the attempt failed for good or
at the worker's retry limit. -/
def WasRefused (s : State a) (id : EventId) : Prop :=
  ∃ t worker events outcome, .published t worker events outcome ∈ s.history ∧
    ∃ event ∈ events, event.id = id ∧ PublishFailed outcome id ∧
      (PublishNotRetryable outcome id ∨ worker.config.maxRetries ≤ event.retryCount)

/-- The status of the row is backed by the history. -/
def Backed (s : State a) (row : OutboxEvent) : Prop :=
  (row.status = .succeeded → WasDelivered s row.id) ∧ (row.status = .dlq → WasRefused s row.id)

theorem WasDelivered.mono {id : EventId} (h : step s act = some s') (hs : WasDelivered s id) :
    WasDelivered s' id := by
  obtain ⟨t, worker, events, outcome, hpublished, hrest⟩ := hs
  exact ⟨t, worker, events, outcome, history_subset_step h hpublished, hrest⟩

theorem WasRefused.mono {id : EventId} (h : step s act = some s') (hs : WasRefused s id) :
    WasRefused s' id := by
  obtain ⟨t, worker, events, outcome, hpublished, hrest⟩ := hs
  exact ⟨t, worker, events, outcome, history_subset_step h hpublished, hrest⟩

/-- An outcome write has its reason in the batch of its task. -/
theorem backed_of_issued (hs : (outbox a).Reachable s) {t : TaskId} {index : Nat}
    {call : RepositoryCall} (hissued : IssuedCall s t index call) {id : EventId}
    (hid : id ∈ call.ids) :
    (call.status = .succeeded → WasDelivered s id) ∧ (call.status = .dlq → WasRefused s id) := by
  obtain ⟨worker, events, outcome, _, event, _, _, hpublished, hevent, hdecision, rfl⟩ :=
    exists_event_of_issued hs hissued hid
  cases call with
  | markSucceeded results =>
    refine ⟨fun _ => ?_, fun hdlq => absurd hdlq (by simp [RepositoryCall.status])⟩
    exact ⟨t, worker, events, outcome, hpublished, ⟨event, hevent, rfl⟩,
      publishSucceeded_of_decision hdecision⟩
  | scheduleRetry eventIds errorMessages config =>
    constructor <;> intro hstatus <;> exact absurd hstatus (by simp [RepositoryCall.status])
  | moveToDLQ eventIds errorMessages =>
    refine ⟨fun hsucceeded => absurd hsucceeded (by simp [RepositoryCall.status]), fun _ => ?_⟩
    have hfailed : PublishFailed outcome event.id :=
      publishFailed_of_decision (by rw [hdecision]; simp [RepositoryCall.decision])
    exact ⟨t, worker, events, outcome, hpublished, event, hevent, rfl, hfailed,
      notRetryable_or_exhausted_of_decision hdecision⟩

theorem backed_step (hs : (outbox a).Reachable s) (h : step s act = some s')
    {row row' : OutboxEvent} (hid : row'.id = row.id) (hstep : RowStep s act s' row row')
    (hbacked : Backed s row) : Backed s' row' := by
  have hnone : row'.status ≠ .succeeded → row'.status ≠ .dlq → Backed s' row' :=
    fun hsucceeded hdlq => ⟨fun h => absurd h hsucceeded, fun h => absurd h hdlq⟩
  cases hstep with
  | kept hkeep _ =>
    rw [Backed, hid, hkeep.status]
    exact ⟨fun hstatus => (hbacked.1 hstatus).mono h, fun hstatus => (hbacked.2 hstatus).mono h⟩
  | written t index worker events outcome pending call _ htask hcall hmem _ heffect =>
    have hreason := backed_of_issued hs ⟨worker, events, outcome, pending, htask, hcall⟩ hmem
    rw [Backed, hid, heffect.status]
    exact ⟨fun hstatus => (hreason.1 hstatus).mono h, fun hstatus => (hreason.2 hstatus).mono h⟩
  | claimed => exact hnone (by simp [claimRow]) (by simp [claimRow])
  | committed => exact hnone (by simp [claimRow]) (by simp [claimRow])
  | recovered => exact hnone (by simp [recoverRow]) (by simp [recoverRow])
  | recoveredById => exact hnone (by simp [recoverRow]) (by simp [recoverRow])
  | replayed => exact hnone (by simp [replayRow]) (by simp [replayRow])
  | rangeReplayed => exact hnone (by simp [replayRow]) (by simp [replayRow])

theorem backed_of_reachable (hs : (outbox a).Reachable s) :
    ∀ row ∈ s.table.rows, Backed s row := by
  refine reachable_rows (fun _ _ s' row _ _ hfresh => ?_)
    (fun _ _ _ _ _ hs _ h _ hid hstep hbacked => backed_step hs h hid hstep hbacked) hs
  constructor <;> intro hstatus <;> exact absurd (hfresh.status.symm.trans hstatus) (by simp)

/-- A publish attempt does not both deliver an event and fail for it. -/
theorem not_publishFailed {outcome : PublishOutcome} {id : EventId}
    (h : PublishSucceeded outcome id) : ¬ PublishFailed outcome id := by
  obtain ⟨results, result, rfl, hget, hsuccess⟩ := h
  intro hfailed
  rcases hfailed with
    ⟨error, herror⟩ | ⟨results', hresults, hnone | ⟨result', hget', hfailure⟩⟩
  · exact absurd herror (by simp)
  · obtain rfl := PublishOutcome.returned.inj hresults
    exact absurd (hget.symm.trans hnone) (by simp)
  · obtain rfl := PublishOutcome.returned.inj hresults
    obtain rfl := Option.some.inj (hget.symm.trans hget')
    exact absurd (hsuccess.symm.trans hfailure) (by simp)

/-- In every reachable state, a row is `succeeded` only if the publisher said
so for a batch with the event, and `dlq` only if an attempt failed for good or
at the retry limit.  A publisher that only ever throws, leaves the event out
or reports its failure makes no row `succeeded`. -/
theorem outcome_sound (hs : (outbox a).Reachable s) : ∀ row ∈ s.table.rows,
    (row.status = .succeeded → WasDelivered s row.id) ∧
      (row.status = .dlq → WasRefused s row.id) ∧
      ((∀ t worker events outcome, .published t worker events outcome ∈ s.history →
          (∃ event ∈ events, event.id = row.id) → PublishFailed outcome row.id) →
        row.status ≠ .succeeded) := by
  intro row hrow
  obtain ⟨hdelivered, hrefused⟩ := backed_of_reachable hs row hrow
  refine ⟨hdelivered, hrefused, fun hfailed hstatus => ?_⟩
  obtain ⟨t, worker, events, outcome, hpublished, hevent, hsucceeded⟩ := hdelivered hstatus
  exact not_publishFailed hsucceeded (hfailed t worker events outcome hpublished hevent)

/-- A delivered row and its reason. -/
theorem outcome_sound_delivered :
    ∃ (s : State .postgres) (row : OutboxEvent), row ∈ s.table.rows ∧
      row.status = .succeeded ∧ WasDelivered s row.id := by
  have hrun : ((outbox .postgres).run (State.initial 0)
      [.publish Sample.id (Sample.values 5), .claim 0 Sample.worker [Sample.id],
        .publishBatch 0 (Sample.answers [(Sample.id, true)]), .write 0 0]).any
        (fun s => decide (s.status Sample.id = some .succeeded)) = true := by decide +kernel
  obtain ⟨s, hs, hstatus⟩ := (Option.any_eq_true _ _).mp hrun
  obtain ⟨row, hrow, hsucceeded⟩ := State.status_eq_some.mp (of_decide_eq_true hstatus)
  have hmem := Table.mem_of_lookup hrow
  have hsound := outcome_sound ((reachable_initial .postgres 0).run hs) row hmem
  exact ⟨s, row, hmem, hsucceeded, hsound.1 hsucceeded⟩

end Outboxy
