import Outboxy.System

/-!
# The routing of a batch

A batch is published, its results are sorted into three groups, and the
non-empty groups are written by one repository call each.

* `batch_routing`: without metrics, the calls are a partition of the claimed
  ids in claim order, with each event's own error message.
* `issuedCalls_metrics_iff`: the metrics code reads the message of each error and
  records each duration, so with metrics the same calls are issued exactly when
  every failure has a text and every duration is a finite number.
-/

namespace Outboxy

/-! ## The calls that are issued -/

/-- `Promise.all`: the calls are made while its array is built, before any of
them settles, and a rejection is thrown then. -/
def promiseAll (rejects : RepositoryCall → Bool) (calls : List RepositoryCall) :
    List RepositoryCall × Bool :=
  calls.foldl (fun done call => (done.1 ++ [call], done.2 || rejects call)) ([], false)

theorem promiseAll_issued (rejects : RepositoryCall → Bool) (calls : List RepositoryCall) :
    (promiseAll rejects calls).1 = calls := by
  have hloop : ∀ (calls : List RepositoryCall) (done : List RepositoryCall × Bool),
      (calls.foldl (fun done call => (done.1 ++ [call], done.2 || rejects call)) done).1 =
        done.1 ++ calls := by
    intro calls
    induction calls with
    | nil => simp
    | cons call calls ih =>
      intro done
      rw [List.foldl_cons, ih, List.append_assoc]
      rfl
  exact hloop calls ([], false)

/-- The repository calls that a batch issues when these calls are rejected. -/
def issuedCalls (worker : OutboxWorker) (events : List OutboxEvent) (outcome : PublishOutcome)
    (rejects : RepositoryCall → Bool) : List RepositoryCall :=
  match executeBatchProcessing worker events outcome with
  | some calls => (promiseAll rejects calls).1
  | none => []

theorem issuedCalls_eq (worker : OutboxWorker) (events : List OutboxEvent)
    (outcome : PublishOutcome) (rejects : RepositoryCall → Bool) :
    issuedCalls worker events outcome rejects =
      (executeBatchProcessing worker events outcome).getD [] := by
  unfold issuedCalls
  cases executeBatchProcessing worker events outcome with
  | none => rfl
  | some calls => exact promiseAll_issued rejects calls

/-! ## Error messages -/

/-- The messages that a call passes on. -/
def RepositoryCall.errorMessages {Message : Type} :
    RepositoryCall Message → Option (OrderedMap EventId Message)
  | .markSucceeded _ => none
  | .scheduleRetry _ errorMessages _ => some errorMessages
  | .moveToDLQ _ errorMessages => some errorMessages

/-- The message of a result's own error, when it carries one. -/
def ownMessage (result : EventProcessingResult) : Option ErrorMessage :=
  if result.error.isTruthy then some (result.error.message.getD (.text "Unknown error")) else none

theorem get?_collectErrorMessages {events : List OutboxEvent} (outcome : PublishOutcome)
    (hnodup : (events.map OutboxEvent.id).Nodup) {event : OutboxEvent} (hevent : event ∈ events) :
    (collectErrorMessages (publishEvents events outcome)).get? event.id =
      ownMessage (processingResult outcome event) := by
  have hkeys : ((publishEvents events outcome).map fun r => r.event.id).Nodup := by
    rw [map_id_publishEvents]
    exact hnodup
  have hmem : processingResult outcome event ∈ publishEvents events outcome :=
    List.mem_map_of_mem hevent
  have hsub : ((publishEvents events outcome).filter fun r => r.error.isTruthy).Sublist
      (publishEvents events outcome) := List.filter_sublist
  unfold collectErrorMessages ownMessage
  by_cases htruthy : (processingResult outcome event).error.isTruthy
  · rw [if_pos htruthy]
    have hget := OrderedMap.get?_ofList
      (fun r : EventProcessingResult => r.error.message.getD (.text "Unknown error"))
      (hkeys.sublist (hsub.map _)) (List.mem_filter.mpr ⟨hmem, htruthy⟩)
    simpa using hget
  · rw [if_neg htruthy]
    apply OrderedMap.get?_ofList_of_not_mem _ (hkeys.sublist (hsub.map _))
    intro hid
    obtain ⟨result, hresult, heq⟩ := List.mem_map.mp hid
    obtain ⟨hpublished, hresult⟩ := List.mem_filter.mp hresult
    obtain rfl := List.inj_on_of_nodup_map hkeys hpublished hmem (by simpa using heq)
    exact htruthy hresult

/-! ## The partition -/

/-- There is one call for each group that is not empty. -/
theorem countP_repositoryCalls (worker : OutboxWorker) (grouped : BatchGroupingResult)
    (errorMessages : OrderedMap EventId ErrorMessage) (d : RetryDecision) :
    (repositoryCalls worker grouped errorMessages).countP (·.decision = d) =
      if grouped.group d = [] then 0 else 1 := by
  obtain ⟨succeeded, retried, dlq⟩ := grouped
  cases d <;> cases succeeded <;> cases retried <;> cases dlq <;>
    simp [repositoryCalls, RepositoryCall.decision, BatchGroupingResult.group]

theorem errorMessages_of_mem_repositoryCalls {worker : OutboxWorker}
    {grouped : BatchGroupingResult} {messages errorMessages : OrderedMap EventId ErrorMessage}
    {call : RepositoryCall} (h : call ∈ repositoryCalls worker grouped messages)
    (hmessages : errorMessages ∈ call.errorMessages) : errorMessages = messages := by
  unfold repositoryCalls at h
  rw [List.mem_append, List.mem_append] at h
  rcases h with (h | h) | h <;> split at h <;> simp at h <;> subst h <;> cases hmessages <;> rfl

theorem decided_eq_nil_iff {worker : OutboxWorker} {outcome : PublishOutcome}
    {events : List OutboxEvent} {d : RetryDecision} :
    decided worker outcome events d = [] ↔ ∀ event ∈ events, decision worker outcome event ≠ d := by
  simp [decided]

/-- The calls route the claimed events. -/
structure BatchRouting (worker : OutboxWorker) (events : List OutboxEvent)
    (outcome : PublishOutcome) (calls : List RepositoryCall) : Prop where
  /-- Each claimed id is passed to one call, once, and no other id is. -/
  covers : (calls.flatMap RepositoryCall.ids).Perm (events.map OutboxEvent.id)
  order : ∀ call ∈ calls, call.ids.Sublist (events.map OutboxEvent.id)
  decision : ∀ call ∈ calls, ∀ event ∈ events, event.id ∈ call.ids →
    call.decision = decision worker outcome event
  messages : ∀ call ∈ calls, ∀ errorMessages ∈ call.errorMessages, ∀ event ∈ events,
    errorMessages.get? event.id = ownMessage (processingResult outcome event)
  once : ∀ d, calls.countP (·.decision = d) =
    if ∀ event ∈ events, Outboxy.decision worker outcome event ≠ d then 0 else 1

/-- Without metrics a batch of distinct ids is partitioned, whatever the
publisher answers and whichever calls are rejected. -/
theorem batch_routing (worker : OutboxWorker) (events : List OutboxEvent)
    (outcome : PublishOutcome) (rejects : RepositoryCall → Bool)
    (hmetrics : worker.metrics = none) (hnodup : (events.map OutboxEvent.id).Nodup) :
    BatchRouting worker events outcome (issuedCalls worker events outcome rejects) := by
  have hexecute := executeBatchProcessing_eq worker outcome hnodup
  rw [recordingThrows_of_none hmetrics, if_neg (by simp)] at hexecute
  rw [issuedCalls_eq, hexecute, Option.getD_some]
  constructor
  · exact flatMap_ids_calls_perm hnodup hexecute
  · intro call hcall
    rw [ids_eq_decided hnodup hexecute hcall]
    exact List.filter_sublist.map _
  · intro call hcall event hevent hid
    obtain ⟨other, hother, hdecision, heq⟩ :=
      exists_event_of_mem_ids hnodup hexecute hcall hid
    obtain rfl := List.inj_on_of_nodup_map hnodup hother hevent heq
    exact hdecision.symm
  · intro call hcall errorMessages hmessages event hevent
    rw [errorMessages_of_mem_repositoryCalls hcall hmessages]
    exact get?_collectErrorMessages outcome hnodup hevent
  · intro d
    rw [countP_repositoryCalls]
    refine if_congr ?_ rfl rfl
    rw [← decided_eq_nil_iff, group_decidedGroups]

theorem batch_routing_sample :
    BatchRouting Sample.worker [(Sample.values 5).row Sample.id 0]
      (.threw (.truthy (some (.text "connection refused"))))
      (issuedCalls Sample.worker [(Sample.values 5).row Sample.id 0]
        (.threw (.truthy (some (.text "connection refused")))) fun _ => true) :=
  batch_routing Sample.worker _ _ _ rfl (by decide)

/-! ## With and without metrics -/

theorem repositoryCalls_ne_nil {worker : OutboxWorker} {grouped : BatchGroupingResult}
    {errorMessages : OrderedMap EventId ErrorMessage} {d : RetryDecision}
    (h : grouped.group d ≠ []) :
    repositoryCalls worker grouped errorMessages ≠ [] := by
  intro hnil
  have hcount := countP_repositoryCalls worker grouped errorMessages d
  rw [hnil, if_neg h] at hcount
  cases hcount

/-- A batch that is not empty has something to write. -/
theorem ne_nil_of_executeBatchProcessing {worker : OutboxWorker} {events : List OutboxEvent}
    {outcome : PublishOutcome} {calls : List RepositoryCall} (hne : events ≠ [])
    (h : executeBatchProcessing worker events outcome = some calls) : calls ≠ [] := by
  unfold executeBatchProcessing at h
  simp only at h
  split at h
  · cases h
  · obtain rfl := Option.some.inj h
    have hresults : publishEvents events outcome ≠ [] := by
      rw [publishEvents]
      simpa using hne
    have hentries := OrderedMap.entries_ofList_ne_nil
      (fun r : EventProcessingResult => r.event.id)
      (fun r => (⟨r.success, r.error, r.retryable, none⟩ : PublishResult)) hresults
    obtain ⟨entry, hentry⟩ := List.exists_mem_of_ne_nil _ hentries
    have hgroup : ∃ d, (batchGroups worker events outcome).group d ≠ [] := by
      refine ⟨decideRetry entry.2 (((OrderedMap.ofList (fun r : EventProcessingResult =>
        r.event.id) (fun r => r.event.retryCount) (publishEvents events outcome)).get?
          entry.1).getD 0) worker.config.maxRetries, ?_⟩
      rw [batchGroups, group_groupBatchResults]
      exact List.ne_nil_of_mem (List.mem_map_of_mem (List.mem_filter.mpr ⟨hentry, by simp⟩))
    obtain ⟨d, hd⟩ := hgroup
    exact repositoryCalls_ne_nil hd

/-- With and without metrics the same calls are issued exactly when the metrics
can record the result of each event. -/
theorem issuedCalls_metrics_iff (worker : OutboxWorker) (metrics : WorkerMetrics)
    (hdocumented : metrics.Documented) (events : List OutboxEvent) (outcome : PublishOutcome)
    (rejects : RepositoryCall → Bool) :
    issuedCalls { worker with metrics := some metrics } events outcome rejects =
        issuedCalls { worker with metrics := none } events outcome rejects ↔
      ∀ event ∈ events, Recordable outcome event := by
  -- The groups and their calls do not depend on the metrics.
  have hexecute : ∀ metrics, executeBatchProcessing { worker with metrics } events outcome =
      if recordingThrows { worker with metrics } events (publishEvents events outcome)
        (batchGroups worker events outcome) then none
      else some (repositoryCalls worker (batchGroups worker events outcome)
        (collectErrorMessages (publishEvents events outcome))) := fun _ => rfl
  have hcalls := hexecute none
  rw [recordingThrows_of_none rfl, if_neg (by simp)] at hcalls
  have hthrows : recordingThrows { worker with metrics := some metrics } events
        (publishEvents events outcome) (batchGroups worker events outcome) = true ↔
      ∃ event ∈ events, ¬Recordable outcome event :=
    recordingThrows_iff rfl hdocumented events outcome _
  rw [issuedCalls_eq, issuedCalls_eq, hcalls, hexecute]
  by_cases hsilent : ∃ event ∈ events, ¬Recordable outcome event
  · rw [if_pos (hthrows.mpr hsilent)]
    obtain ⟨event, hevent, hnot⟩ := hsilent
    have hne := ne_nil_of_executeBatchProcessing (List.ne_nil_of_mem hevent) hcalls
    constructor
    · intro hnil
      exact absurd hnil.symm hne
    · intro hall
      exact absurd (hall event hevent) hnot
  · rw [if_neg (mt hthrows.mp hsilent)]
    simpa using hsilent

namespace Sample

/-- A delivery that took 12 milliseconds. -/
def timed : PublishResult := ⟨true, .nullish, false, some (.given (.finite 12))⟩

def deliveredInTime : PublishOutcome := .returned (.ofList Prod.fst Prod.snd [(id, timed)])

end Sample

/-- An event that the publisher has delivered and timed. -/
theorem issuedCalls_metrics_timed :
    issuedCalls { Sample.worker with metrics := some .asDocumented }
        [(Sample.values 5).row Sample.id 0] Sample.deliveredInTime (fun _ => false) =
      issuedCalls { Sample.worker with metrics := none } [(Sample.values 5).row Sample.id 0]
        Sample.deliveredInTime (fun _ => false) := by
  refine (issuedCalls_metrics_iff Sample.worker .asDocumented
    WorkerMetrics.documented_asDocumented _ _ _).mpr fun event hevent => ?_
  obtain rfl := List.mem_singleton.mp hevent
  refine ⟨Sample.timed, rfl, fun durationMs h => ?_, Or.inl rfl⟩
  obtain rfl := Option.some.inj h
  rfl

/-- A publisher that leaves out a claimed id: without metrics the event is
retried, with metrics nothing is written. -/
theorem issuedCalls_metrics_missing_result :
    (issuedCalls { Sample.worker with metrics := some .asDocumented }
        [(Sample.values 5).row Sample.id 0] (.returned .empty)
        (fun _ => false)).map RepositoryCall.decision = [] ∧
      (issuedCalls { Sample.worker with metrics := none } [(Sample.values 5).row Sample.id 0]
        (.returned .empty) (fun _ => false)).map RepositoryCall.decision = [.retry] := by
  decide

end Outboxy
