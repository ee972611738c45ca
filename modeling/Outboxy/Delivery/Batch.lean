import Outboxy.Invariants

/-!
# A batch from the publisher's answer to its last repository call

`BatchRun` is a claimed batch that is carried through while nobody else
touches its rows.  `batch_settles_iff` says when it leaves no row in
`processing`.

There are two retry limits.  `decideRetry` compares the retry count with the
worker's `maxRetries`, and the `WHERE` of `scheduleRetry` with the row's
`max_retries`.  A row whose own limit is reached before the worker's one is
sent to `scheduleRetry`, which matches no row and says nothing.  And when
metrics are configured, a result that they cannot record makes the worker throw
before the first repository call.
-/

namespace Outboxy

variable {a : Adapter} {s s₁ s' : State a}

/-- The repository calls that are still to be executed. -/
def Task.pending : Task → List RepositoryCall
  | .writing _ _ _ pending => pending
  | _ => []

/-- The worker claimed the events, the publisher answers with `outcome` in
`s`, and in `s'` the repository calls of the batch have all been executed.
Nobody else touches the claimed rows. -/
structure BatchRun (s : State a) (t : TaskId) (worker : OutboxWorker) (events : List OutboxEvent)
    (outcome : PublishOutcome) (s₁ : State a) (acts : List Action) (s' : State a) : Prop where
  claimed : s.tasks t = .claimed worker events
  rows : ∀ event ∈ events,
    s.table.lookup event.id = some event ∧ event.status = .processing
  published : s.publishBatch t outcome = some s₁
  run : (outbox a).run s₁ acts = some s'
  alone : ∀ u act u', (outbox a).TakesStep s₁ acts u act u' →
    (∃ index, act = .write t index) ∨
      act.task? ≠ some t ∧
        ∀ event ∈ events, u'.table.lookup event.id = u.table.lookup event.id
  complete : (s'.tasks t).pending = []

/-- The row has left `processing` as the lifecycle of an event promises. -/
def Settled (outcome : PublishOutcome) (event row : OutboxEvent) : Prop :=
  (row.status = .succeeded ∨
      row.status = .failed ∧ row.retryCount = event.retryCount + 1 ∧ row.nextRetryAt.isSome ∨
      row.status = .dlq) ∧
    (RetryableFailure outcome event → event.maxRetries ≤ event.retryCount → row.status = .dlq)

/-- The metrics, if there are any, can record all results, and no retryable
failure meets the limit of its row before it meets the limit of the worker. -/
def BatchSettles (worker : OutboxWorker) (events : List OutboxEvent)
    (outcome : PublishOutcome) : Prop :=
  (worker.metrics.isSome → ∀ event ∈ events, Recordable outcome event) ∧
    ∀ event ∈ events, RetryableFailure outcome event → event.maxRetries ≤ event.retryCount →
      worker.config.maxRetries ≤ event.retryCount

/-- What the executed calls have made of the row of one event. -/
def Written (worker : OutboxWorker) (outcome : PublishOutcome) (event row : OutboxEvent) : Prop :=
  ∃ call : RepositoryCall, decision worker outcome event = call.decision ∧
    (call.admits event ∧ call.Effect event row ∨ ¬ call.admits event ∧ row = event)

/-- An executed call settles the row, unless it is a retry that the row does
not admit. -/
theorem settled_iff_of_written {worker : OutboxWorker} {outcome : PublishOutcome}
    {event row : OutboxEvent} (hstatus : event.status = .processing)
    (hwritten : Written worker outcome event row) :
    Settled outcome event row ↔
      (RetryableFailure outcome event → event.maxRetries ≤ event.retryCount →
        worker.config.maxRetries ≤ event.retryCount) := by
  obtain ⟨call, hdecision, hwritten⟩ := hwritten
  cases call with
  | markSucceeded results =>
    have hnot := not_retryableFailure_of_decision hdecision
    rcases hwritten with ⟨_, heffect⟩ | ⟨hadmits, _⟩
    · have hsucceeded : row.status = .succeeded := heffect.status
      simp [Settled, hsucceeded, hnot]
    · exact absurd trivial hadmits
  | scheduleRetry eventIds errorMessages config =>
    obtain ⟨hfailure, hlt⟩ := decision_eq_retry_iff.mp hdecision
    rcases hwritten with ⟨hadmits, heffect⟩ | ⟨hadmits, rfl⟩
    · have hretry : (event.retryCount : Int) < event.maxRetries := hadmits
      have hfailed : row.status = .failed := heffect.status
      have hcount : row.retryCount = event.retryCount + 1 := heffect.retryCount
      have hnext : row.nextRetryAt.isSome := heffect.nextRetryAt
      constructor
      · intro _ _ hle
        omega
      · intro _
        exact ⟨Or.inr (Or.inl ⟨hfailed, hcount, hnext⟩), fun _ hle => by omega⟩
    · have hle : row.maxRetries ≤ (row.retryCount : Int) := Int.not_lt.mp hadmits
      constructor
      · intro hsettled
        simp [Settled, hstatus] at hsettled
      · intro hlimit
        exact absurd (hlimit hfailure hle) (by omega)
  | moveToDLQ eventIds errorMessages =>
    rcases hwritten with ⟨_, heffect⟩ | ⟨hadmits, _⟩
    · have hdlq : row.status = .dlq := heffect.status
      refine ⟨fun _ hfailure _ => ?_, fun _ => by simp [Settled, hdlq]⟩
      by_contra hlt
      have hretry := decision_eq_retry_iff.mpr ⟨hfailure, not_le.mp hlt⟩
      rw [hdecision] at hretry
      exact absurd hretry (by simp [RepositoryCall.decision])
    · exact absurd trivial hadmits

/-! ## The calls of the batch, one by one -/

/-- Some calls are executed and some are pending: the rows of pending calls
are as claimed, the others are written. -/
structure BatchProgress (u : State a) (t : TaskId) (worker : OutboxWorker)
    (events : List OutboxEvent) (outcome : PublishOutcome) (calls pending : List RepositoryCall) :
    Prop where
  task : u.tasks t = .writing worker events outcome pending
  sublist : pending.Sublist calls
  rows : ∀ event ∈ events, ∃ row, u.table.lookup event.id = some row ∧
    (event.id ∈ pending.flatMap RepositoryCall.ids → row = event) ∧
    (event.id ∉ pending.flatMap RepositoryCall.ids → Written worker outcome event row)

section Progress

variable {t : TaskId} {worker : OutboxWorker} {events : List OutboxEvent}
  {outcome : PublishOutcome} {calls pending : List RepositoryCall}
  (hnodup : (events.map OutboxEvent.id).Nodup)
  (hcalls : executeBatchProcessing worker events outcome = some calls)

include hnodup hcalls

/-- A call that lists an event carries out the decision about it. -/
private theorem decision_of_mem_ids {call : RepositoryCall} (hcall : call ∈ calls)
    {event : OutboxEvent} (hevent : event ∈ events) (hid : event.id ∈ call.ids) :
    decision worker outcome event = call.decision := by
  obtain ⟨event', hevent', hdecision, hid'⟩ := exists_event_of_mem_ids hnodup hcalls hcall hid
  obtain rfl := List.inj_on_of_nodup_map hnodup hevent' hevent hid'
  exact hdecision

/-- A call of the batch executes. -/
theorem batchProgress_write {u u' : State a} {index : Nat}
    (hprogress : BatchProgress u t worker events outcome calls pending)
    (h : u.write t index = some u') :
    BatchProgress u' t worker events outcome calls (pending.eraseIdx index) := by
  obtain ⟨htask, hpending, hrows⟩ := hprogress
  obtain ⟨_, _, _, _, call, _, _, htask', hcall, _, _, _, hu'⟩ := write_cases h
  have hsame := htask'
  rw [htask] at hsame
  obtain ⟨rfl, rfl, rfl, rfl⟩ := Task.writing.inj hsame
  have hmem : call ∈ pending := List.mem_of_getElem? hcall
  have hmem' : ∀ id, id ∈ (pending.eraseIdx index).flatMap RepositoryCall.ids ↔
      id ∈ pending.flatMap RepositoryCall.ids ∧ id ∉ call.ids := fun _ =>
    mem_ids_eraseIdx ((nodup_flatMap_ids_calls hnodup hcalls).sublist (hpending.flatMap _)) hcall
  refine ⟨by simp [hu'], (List.eraseIdx_sublist _ _).trans hpending, fun event hevent => ?_⟩
  obtain ⟨row, hrow, hlisted, hdone⟩ := hrows event hevent
  by_cases hid : event.id ∈ call.ids
  case neg =>
    refine ⟨row, by rw [untouched_of_write h htask hcall hid, hrow], ?_, ?_⟩
    · intro hid'
      exact hlisted ((hmem' _).mp hid').1
    · intro hid'
      exact hdone fun hid'' => hid' ((hmem' _).mpr ⟨hid'', hid⟩)
  obtain rfl := hlisted (List.mem_flatMap.mpr ⟨call, hmem, hid⟩)
  have hdecision := decision_of_mem_ids hnodup hcalls (hpending.subset hmem) hevent hid
  have hgone : row.id ∉ (pending.eraseIdx index).flatMap RepositoryCall.ids :=
    fun hid' => ((hmem' _).mp hid').2 hid
  have htouches := touches_of_write h htask hcall hrow hid
  by_cases hadmits : call.admits row
  · obtain ⟨row', hrow', heffect⟩ := htouches.1 hadmits
    exact ⟨row', hrow', fun hid' => absurd hid' hgone,
      fun _ => ⟨call, hdecision, Or.inl ⟨hadmits, heffect⟩⟩⟩
  · exact ⟨row, htouches.2 hadmits, fun _ => rfl,
      fun _ => ⟨call, hdecision, Or.inr ⟨hadmits, rfl⟩⟩⟩

end Progress

/-- A step of somebody else. -/
theorem batchProgress_frame {u u' : State a} {t : TaskId} {worker : OutboxWorker}
    {events : List OutboxEvent} {outcome : PublishOutcome} {calls pending : List RepositoryCall}
    {act : Action} (hprogress : BatchProgress u t worker events outcome calls pending)
    (h : step u act = some u') (hact : act.task? ≠ some t)
    (hsame : ∀ event ∈ events, u'.table.lookup event.id = u.table.lookup event.id) :
    BatchProgress u' t worker events outcome calls pending where
  task := ((frame_step h).tasks t hact).trans hprogress.task
  sublist := hprogress.sublist
  rows event hevent := by
    rw [hsame event hevent]
    exact hprogress.rows event hevent

/-! ## The whole batch -/

section BatchRun

variable {t : TaskId} {worker : OutboxWorker} {events : List OutboxEvent}
  {outcome : PublishOutcome} {acts : List Action}
  (hbatch : BatchRun s t worker events outcome s₁ acts s')

include hbatch

/-- When the worker throws, no call is executed and every row stays as it was
claimed. -/
theorem rows_of_throws (hnone : executeBatchProcessing worker events outcome = none) :
    ∀ event ∈ events, s'.table.lookup event.id = some event := by
  have hstart : s₁.tasks t = .done ∧
      ∀ event ∈ events, s₁.table.lookup event.id = some event := by
    rcases publishBatch_cases hbatch.published with ⟨_, _, htask, ⟨calls, hcalls, _⟩ | ⟨_, rfl⟩⟩
    · rw [hbatch.claimed] at htask
      obtain ⟨rfl, rfl⟩ := Task.claimed.inj htask
      exact absurd hcalls (by simp [hnone])
    · exact ⟨by simp, fun event hevent => (hbatch.rows event hevent).1⟩
  refine (Transition.System.run_keeps (P := fun u => u.tasks t = .done ∧
    ∀ event ∈ events, u.table.lookup event.id = some event) ?_ hbatch.run hstart).2
  intro u act u' htakes hkept
  obtain ⟨htask, hrows⟩ := hkept
  rcases hbatch.alone u act u' htakes with ⟨index, rfl⟩ | ⟨hact, hsame⟩
  · obtain ⟨_, _, _, _, _, _, _, htask', _⟩ := write_cases htakes.step_eq
    rw [htask] at htask'
    exact absurd htask' (by simp)
  · refine ⟨((frame_step htakes.step_eq).tasks t hact).trans htask, fun event hevent => ?_⟩
    rw [hsame event hevent]
    exact hrows event hevent

/-- When the worker does not throw, every row is written by its call. -/
theorem rows_of_calls (hnodup : (events.map OutboxEvent.id).Nodup) {calls : List RepositoryCall}
    (hcalls : executeBatchProcessing worker events outcome = some calls) :
    ∀ event ∈ events, ∃ row, s'.table.lookup event.id = some row ∧
      Written worker outcome event row := by
  have hstart : BatchProgress s₁ t worker events outcome calls calls := by
    rcases publishBatch_cases hbatch.published with
      ⟨_, _, htask, ⟨calls', hcalls', rfl⟩ | ⟨hnone, _⟩⟩ <;>
      rw [hbatch.claimed] at htask <;> obtain ⟨rfl, rfl⟩ := Task.claimed.inj htask
    · rw [hcalls] at hcalls'
      obtain rfl := Option.some.inj hcalls'
      refine ⟨by simp, List.Sublist.refl _, fun event hevent => ?_⟩
      refine ⟨event, (hbatch.rows event hevent).1, fun _ => rfl, fun hid => absurd ?_ hid⟩
      exact (flatMap_ids_calls_perm hnodup hcalls).mem_iff.mpr (List.mem_map_of_mem hevent)
    · exact absurd hcalls (by simp [hnone])
  obtain ⟨pending, hprogress⟩ := Transition.System.run_keeps
    (P := fun u => ∃ pending, BatchProgress u t worker events outcome calls pending)
    (fun u act u' htakes hprogress => by
      obtain ⟨pending, hprogress⟩ := hprogress
      rcases hbatch.alone u act u' htakes with ⟨index, rfl⟩ | ⟨hact, hsame⟩
      · exact ⟨_, batchProgress_write hnodup hcalls hprogress htakes.step_eq⟩
      · exact ⟨pending, batchProgress_frame hprogress htakes.step_eq hact hsame⟩)
    hbatch.run ⟨calls, hstart⟩
  have hdone := hbatch.complete
  rw [hprogress.task] at hdone
  intro event hevent
  obtain ⟨row, hrow, _, hwritten⟩ := hprogress.rows event hevent
  exact ⟨row, hrow, hwritten (by simp [show pending = [] from hdone])⟩

end BatchRun

/-- A batch whose repository calls all execute leaves every row settled if and
only if the metrics can record its results and no retryable failure meets the
limit of its row before the limit of the worker. -/
theorem batch_settles_iff (hs : (outbox a).Reachable s) {t : TaskId} {worker : OutboxWorker}
    {events : List OutboxEvent} {outcome : PublishOutcome} {acts : List Action}
    (hdocumented : ∀ metrics ∈ worker.metrics, metrics.Documented)
    (hbatch : BatchRun s t worker events outcome s₁ acts s') :
    (∀ event ∈ events, ∃ row, s'.table.lookup event.id = some row ∧ Settled outcome event row) ↔
      BatchSettles worker events outcome := by
  have hnodup : (events.map OutboxEvent.id).Nodup := by
    have hok := taskOk_of_reachable hs t
    rw [hbatch.claimed] at hok
    exact hok.nodup
  have heq := executeBatchProcessing_eq worker outcome hnodup
  have hrecorded := recordingThrows_eq_false_iff hdocumented events outcome
    (decidedGroups worker outcome events)
  cases hthrows : recordingThrows worker events (publishEvents events outcome)
      (decidedGroups worker outcome events) with
  | true =>
    rw [hthrows, if_pos rfl] at heq
    rw [hthrows] at hrecorded
    have hrows := rows_of_throws hbatch heq
    refine iff_of_false (fun hsettled => ?_) fun hsettles => ?_
    · -- The event whose result is not recorded is still in processing.
      have hnot := mt hrecorded.mpr (by simp)
      obtain ⟨_, hnot⟩ := Classical.not_imp.mp hnot
      push Not at hnot
      obtain ⟨event, hevent, _⟩ := hnot
      obtain ⟨row, hrow, hstatus, _⟩ := hsettled event hevent
      rw [hrows event hevent] at hrow
      obtain rfl := Option.some.inj hrow
      simp [(hbatch.rows event hevent).2] at hstatus
    · exact absurd (hrecorded.mpr hsettles.1) (by simp)
  | false =>
    rw [hthrows, if_neg (by simp)] at heq
    have hrows := rows_of_calls hbatch hnodup heq
    have hevents : ∀ event ∈ events,
        (∃ row, s'.table.lookup event.id = some row ∧ Settled outcome event row) ↔
          (RetryableFailure outcome event → event.maxRetries ≤ event.retryCount →
            worker.config.maxRetries ≤ event.retryCount) := by
      intro event hevent
      obtain ⟨row, hrow, hwritten⟩ := hrows event hevent
      rw [← settled_iff_of_written (hbatch.rows event hevent).2 hwritten]
      simp [hrow]
    refine ⟨fun hsettled => ⟨hrecorded.mp hthrows, fun event hevent => ?_⟩,
      fun hsettles event hevent => ?_⟩
    · exact (hevents event hevent).mp (hsettled event hevent)
    · exact (hevents event hevent).mpr (hsettles.2 event hevent)

/-- A claim of one event on PostgreSQL, a retryable failure to publish it, and
the repository call of this batch.  `p` is checked at the end. -/
private theorem exists_sampleBatch (worker : OutboxWorker) (outcome : PublishOutcome)
    (maxRetries : Int) (p : State .postgres → OutboxEvent → Bool)
    (hrun : (((outbox .postgres).run (State.initial 0)
      [.publish Sample.id (Sample.values maxRetries)]).any fun s₀ =>
        (s₀.claim 0 worker [Sample.id]).any fun s =>
          (s.publishBatch 0 outcome).any fun s₁ =>
            (s₁.write 0 0).any fun s' => (s'.tasks 0).pending.isEmpty &&
              (s.table.lookup Sample.id).any fun event =>
                decide (event.status = .processing) && p s' event) = true) :
    ∃ s s₁ s' : State .postgres, ∃ event, (outbox .postgres).Reachable s ∧
      BatchRun s 0 worker [event] outcome s₁ [.write 0 0] s' ∧ event.id = Sample.id ∧
      p s' event = true := by
  obtain ⟨s₀, hs₀, hrun⟩ := (Option.any_eq_true _ _).mp hrun
  obtain ⟨s, hs, hrun⟩ := (Option.any_eq_true _ _).mp hrun
  obtain ⟨s₁, hs₁, hrun⟩ := (Option.any_eq_true _ _).mp hrun
  obtain ⟨s', hs', hrun⟩ := (Option.any_eq_true _ _).mp hrun
  rw [Bool.and_eq_true] at hrun
  obtain ⟨event, hevent, hcheck⟩ := (Option.any_eq_true _ _).mp hrun.2
  rw [Bool.and_eq_true, decide_eq_true_eq] at hcheck
  have hclaimed : s.tasks 0 = .claimed worker [event] := by
    rcases claim_cases hs with ⟨_, _, ⟨hnil, _⟩ | ⟨_, _, table, _, rfl⟩ | ⟨_, ha, _⟩⟩
    · exact absurd hnil (by simp)
    · have hevent' : table.lookup Sample.id = some event := hevent
      simp [hevent']
    · exact absurd rfl ha
  refine ⟨s, s₁, s', event, ?_, ⟨hclaimed, ?_, hs₁, ?_, ?_, ?_⟩, Table.pk_of_lookup hevent,
    hcheck.2⟩
  · have hreachable := (reachable_initial .postgres 0).run hs₀
    have hstep : (outbox .postgres).step s₀ (.claim 0 worker [Sample.id]) = some s := hs
    exact .step hreachable trivial hstep
  · intro event' hmem
    obtain rfl := List.mem_singleton.mp hmem
    rw [Table.pk_of_lookup hevent]
    exact ⟨hevent, hcheck.1⟩
  · rw [Transition.System.run_singleton]
    exact hs'
  · intro u act u' htakes
    obtain ⟨pre, post, hacts, _, _⟩ := htakes
    have hmem : act ∈ [Action.write 0 0] := hacts ▸ List.mem_append_right _ List.mem_cons_self
    exact Or.inl ⟨0, List.mem_singleton.mp hmem⟩
  · exact List.isEmpty_iff.mp hrun.1

namespace Sample

/-- A timeout after 30 seconds. -/
def timeout : PublishResult :=
  ⟨false, .truthy (some (.text "timeout")), true, some (.given (.finite 30000))⟩

def timedOut : PublishOutcome := .returned (.ofList Prod.fst Prod.snd [(id, timeout)])

end Sample

/-- A retry is left, the metrics record the failure, and the batch settles. -/
theorem batch_settles_of_retry_left :
    ∃ s s₁ s' : State .postgres, ∃ event,
      BatchRun s 0 Sample.measured [event] Sample.timedOut s₁ [.write 0 0] s' ∧
      ∃ row, s'.table.lookup event.id = some row ∧ Settled Sample.timedOut event row := by
  obtain ⟨s, s₁, s', event, hs, hbatch, hid, hleft⟩ := exists_sampleBatch Sample.measured
    Sample.timedOut 5 (fun _ event => decide ((event.retryCount : Int) < event.maxRetries))
    (by decide +kernel)
  refine ⟨s, s₁, s', event, hbatch,
    (batch_settles_iff hs Sample.documented_measured hbatch).mpr ⟨?_, ?_⟩ event (by simp)⟩
  · intro _ event' hmem
    obtain rfl := List.mem_singleton.mp hmem
    refine ⟨Sample.timeout, ?_, fun durationMs h => ?_, Or.inr rfl⟩
    · rw [hid]
      rfl
    · obtain rfl := Option.some.inj h
      rfl
  · intro event' hmem _ hle
    obtain rfl := List.mem_singleton.mp hmem
    exact absurd (of_decide_eq_true hleft) (by omega)

/-- An event that allows no retry fails in a way that may be retried.  The
worker's limit is not reached, `scheduleRetry` matches no row, and the row
stays in `processing`. -/
theorem batch_not_settled :
    ∃ s s₁ s' : State .postgres, ∃ event, (outbox .postgres).Reachable s ∧
      BatchRun s 0 Sample.worker [event] (Sample.answers [(Sample.id, false)]) s₁ [.write 0 0] s' ∧
      0 ≤ event.maxRetries ∧ s'.status event.id = some .processing := by
  obtain ⟨s, s₁, s', event, hs, hbatch, _, hcheck⟩ := exists_sampleBatch Sample.worker
    (Sample.answers [(Sample.id, false)]) 0
    (fun s' event => decide (0 ≤ event.maxRetries ∧ s'.status event.id = some .processing))
    (by decide +kernel)
  exact ⟨s, s₁, s', event, hs, hbatch, of_decide_eq_true hcheck⟩

end Outboxy
