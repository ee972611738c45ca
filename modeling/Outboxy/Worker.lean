import Mathlib.Data.List.Flatten
import Mathlib.Data.List.Perm.Basic
import Outboxy.AdapterCore

/-!
# The worker's batch

What `OutboxWorker` does with a claimed batch: `publishEvents` asks the
publisher, `groupBatchResults` sorts the events by `decideRetry`, and
`executeBatchProcessing` issues at most one repository call per group.  The
calls are issued together, so they may run in any order.

The metrics stand between the answer of the publisher and these calls.  Their
recorders are code of prom-client, so they are a parameter, `WorkerMetrics`, and
`WorkerMetrics.Documented` says what is known of them.

`executeBatchProcessing_eq` is the specification that the rest of the
development uses: for a batch of distinct ids, the three groups are the
events whose `decision` says so, in claim order.
-/

namespace Outboxy

/-- The fields of `WorkerConfig` that the batch processing reads, with the
defaults of the schema. -/
structure WorkerConfig where
  batchSize : Nat := 10
  maxRetries : Nat := 5
  backoffBaseMs : ℚ := 1000
  backoffMultiplier : ℚ := 2

/-! ## Values of the publisher -/

/-- The `message` of an error when it is neither `undefined` nor `null`: a text,
or a value without the methods of a text, such as a number or an object. -/
inductive ErrorMessage where
  | text (message : String)
  | other (truthy : Bool)

/-- What the worker can see of the `error` of a result or of a thrown value.
A property of `undefined` or `null` cannot be read; any other value has a
`message` or not. -/
inductive ErrorValue where
  | nullish
  | falsy
  | truthy (message : Option ErrorMessage)

namespace ErrorValue

/-- `if (error)` -/
def isTruthy : ErrorValue → Bool
  | .truthy _ => true
  | _ => false

/-- `error.message`, when there is one. -/
def message : ErrorValue → Option ErrorMessage
  | .truthy message => message
  | _ => none

/-- The message is a text. -/
def hasText (error : ErrorValue) : Bool :=
  match error.message with
  | some (.text _) => true
  | _ => false

end ErrorValue

/-- A number: a finite one, or `NaN` or an infinity. -/
inductive JsNumber where
  | finite (value : ℚ)
  | notFinite

/-- A duration in milliseconds: the difference of two readings of the clock, or
a number that a publisher made up. -/
inductive Duration where
  | elapsed
  | given (ms : JsNumber)

/-- `Number.isFinite(durationMs / 1000)` -/
def Duration.isFinite : Duration → Bool
  | .given .notFinite => false
  | _ => true

@[simp] theorem Duration.isFinite_elapsed : Duration.elapsed.isFinite = true := rfl

structure PublishResult where
  success : Bool
  error : ErrorValue
  retryable : Bool
  durationMs : Option Duration

/-- How a call of `publisher.publish` ends. -/
inductive PublishOutcome where
  | returned (results : OrderedMap EventId PublishResult)
  | threw (error : ErrorValue)

structure EventProcessingResult where
  event : OutboxEvent
  success : Bool
  error : ErrorValue
  retryable : Bool
  durationMs : Duration

/-- The result of one event: its own entry, or a retryable failure when the
publisher returned none or threw.  Without a duration of its own it gets that of
the batch. -/
def processingResult (outcome : PublishOutcome) (event : OutboxEvent) : EventProcessingResult :=
  match outcome with
  | .returned results =>
    match results.get? event.id with
    | some result => ⟨event, result.success, result.error, result.retryable,
        result.durationMs.getD .elapsed⟩
    | none => ⟨event, false, .nullish, true, .elapsed⟩
  | .threw error => ⟨event, false, error, true, .elapsed⟩

def publishEvents (events : List OutboxEvent) (outcome : PublishOutcome) :
    List EventProcessingResult :=
  events.map (processingResult outcome)

/-! ## Metrics -/

/-- The counters that a batch increments. -/
inductive BatchCounter where
  | eventsPublished
  | eventsFailed
  | eventsRetried
  | eventsDlq

/-- The recorders of `WorkerMetrics` in a batch: whether `inc` of a counter and
`observe` of `processingDuration` throw for an event. -/
structure WorkerMetrics where
  incThrows : BatchCounter → OutboxEvent → Bool
  observeThrows : OutboxEvent → Duration → Bool

/-- What prom-client documents of them: to increment a counter under its own
labels does not throw, and `observe` throws for what is no finite number. -/
structure WorkerMetrics.Documented (metrics : WorkerMetrics) : Prop where
  inc : ∀ counter event, metrics.incThrows counter event = false
  observe : ∀ event durationMs, metrics.observeThrows event durationMs = !durationMs.isFinite

/-- Recorders that throw when they have to. -/
def WorkerMetrics.asDocumented : WorkerMetrics where
  incThrows _ _ := false
  observeThrows _ durationMs := !durationMs.isFinite

theorem WorkerMetrics.documented_asDocumented : asDocumented.Documented :=
  ⟨fun _ _ => rfl, fun _ _ => rfl⟩

/-- One worker: its configuration, its id, and its metrics if there are any. -/
structure OutboxWorker where
  config : WorkerConfig
  workerId : String
  metrics : Option WorkerMetrics

/-- `recordRetry` and `recordDlq` throw. -/
def recordCountThrows (worker : OutboxWorker) (counter : BatchCounter) (event : OutboxEvent) :
    Bool :=
  worker.metrics.any fun metrics => metrics.incThrows counter event

def recordSuccessThrows (worker : OutboxWorker) (event : OutboxEvent) (durationMs : Duration) :
    Bool :=
  worker.metrics.any fun metrics =>
    metrics.incThrows .eventsPublished event || metrics.observeThrows event durationMs

/-- `categorizeError` reads `error.message.toLowerCase()`, which throws unless
the message is a text. -/
def recordFailureThrows (worker : OutboxWorker) (event : OutboxEvent) (error : ErrorValue)
    (durationMs : Duration) : Bool :=
  worker.metrics.any fun metrics =>
    !error.hasText || metrics.incThrows .eventsFailed event ||
      metrics.observeThrows event durationMs

/-- What the loop over the results records of one of them throws. -/
def recordResultThrows (worker : OutboxWorker) (result : EventProcessingResult) : Bool :=
  if result.success then recordSuccessThrows worker result.event result.durationMs
  else recordFailureThrows worker result.event result.error result.durationMs

/-! ## Retry decision and grouping -/

inductive RetryDecision where
  | succeeded
  | retry
  | dlq
deriving DecidableEq, Repr

def decideRetry (result : PublishResult) (retryCount maxRetries : Nat) : RetryDecision :=
  if result.success then .succeeded
  else if !result.retryable || decide (maxRetries ≤ retryCount) then .dlq
  else .retry

structure BatchGroupingResult where
  succeeded : List EventId
  retried : List EventId
  dlq : List EventId

namespace BatchGroupingResult

/-- The `switch` of the loop. -/
def push (g : BatchGroupingResult) (eventId : EventId) : RetryDecision → BatchGroupingResult
  | .succeeded => { g with succeeded := g.succeeded ++ [eventId] }
  | .retry => { g with retried := g.retried ++ [eventId] }
  | .dlq => { g with dlq := g.dlq ++ [eventId] }

/-- The list that a decision is collected in. -/
def group (g : BatchGroupingResult) : RetryDecision → List EventId
  | .succeeded => g.succeeded
  | .retry => g.retried
  | .dlq => g.dlq

theorem group_push (g : BatchGroupingResult) (eventId : EventId) (d d' : RetryDecision) :
    (g.push eventId d').group d = if d' = d then g.group d ++ [eventId] else g.group d := by
  cases d <;> cases d' <;> rfl

end BatchGroupingResult

def groupBatchResults (results : OrderedMap EventId PublishResult)
    (retryCount : OrderedMap EventId Nat) (maxRetries : Nat) : BatchGroupingResult :=
  results.entries.foldl
    (fun g entry =>
      g.push entry.1 (decideRetry entry.2 ((retryCount.get? entry.1).getD 0) maxRetries))
    ⟨[], [], []⟩

/-- Each group collects, in map order, the ids with its decision. -/
theorem group_groupBatchResults (results : OrderedMap EventId PublishResult)
    (retryCount : OrderedMap EventId Nat) (maxRetries : Nat) (d : RetryDecision) :
    (groupBatchResults results retryCount maxRetries).group d =
      (results.entries.filter fun entry =>
        decideRetry entry.2 ((retryCount.get? entry.1).getD 0) maxRetries = d).map Prod.fst := by
  have hloop : ∀ (entries : List (EventId × PublishResult)) (g : BatchGroupingResult),
      (entries.foldl (fun g entry =>
        g.push entry.1
          (decideRetry entry.2 ((retryCount.get? entry.1).getD 0) maxRetries)) g).group d =
      g.group d ++ (entries.filter fun entry =>
        decideRetry entry.2 ((retryCount.get? entry.1).getD 0) maxRetries = d).map Prod.fst := by
    intro entries
    induction entries with
    | nil =>
      intro g
      simp
    | cons entry entries ih =>
      intro g
      rw [List.foldl_cons, ih, BatchGroupingResult.group_push, List.filter_cons]
      split <;> simp_all
  rw [groupBatchResults, hloop]
  cases d <;> rfl

/-! ## Repository calls -/

/-- A call of the event repository with its arguments.  Its interface says that
the messages are texts.  The worker passes on what it was given. -/
inductive RepositoryCall (Message : Type := ErrorMessage) where
  | markSucceeded (results : List (EventId × String))
  | scheduleRetry (eventIds : List EventId) (errorMessages : OrderedMap EventId Message)
      (config : BackoffConfig)
  | moveToDLQ (eventIds : List EventId) (errorMessages : OrderedMap EventId Message)

/-- The events that a call is about. -/
def RepositoryCall.ids {Message : Type} : RepositoryCall Message → List EventId
  | .markSucceeded results => results.map Prod.fst
  | .scheduleRetry eventIds _ _ => eventIds
  | .moveToDLQ eventIds _ => eventIds

/-- The map of error messages that the loop over the results fills. -/
def collectErrorMessages (results : List EventProcessingResult) :
    OrderedMap EventId ErrorMessage :=
  OrderedMap.ofList (fun r => r.event.id)
    (fun r => r.error.message.getD (.text "Unknown error"))
    (results.filter fun r => r.error.isTruthy)

/-- Something that is recorded before the repository calls throws: of a result,
or of an event in one of the two groups that did not succeed. -/
def recordingThrows (worker : OutboxWorker) (events : List OutboxEvent)
    (publishResults : List EventProcessingResult) (grouped : BatchGroupingResult) : Bool :=
  publishResults.any (recordResultThrows worker) ||
    grouped.retried.any (fun eventId =>
      (events.find? fun e => e.id = eventId).any (recordCountThrows worker .eventsRetried)) ||
    grouped.dlq.any fun eventId =>
      (events.find? fun e => e.id = eventId).any (recordCountThrows worker .eventsDlq)

/-- The calls that the worker issues for its groups, in the order in which it
issues them: none for an empty group. -/
def repositoryCalls (worker : OutboxWorker) (grouped : BatchGroupingResult)
    (errorMessages : OrderedMap EventId ErrorMessage) : List RepositoryCall :=
  (if grouped.succeeded ≠ [] then
    [.markSucceeded (grouped.succeeded.map fun eventId => (eventId, worker.workerId))] else []) ++
  (if grouped.retried ≠ [] then
    [.scheduleRetry grouped.retried errorMessages
      ⟨worker.config.backoffBaseMs, worker.config.backoffMultiplier⟩] else []) ++
  (if grouped.dlq ≠ [] then [.moveToDLQ grouped.dlq errorMessages] else [])

/-- The groups of a batch. -/
def batchGroups (worker : OutboxWorker) (events : List OutboxEvent) (outcome : PublishOutcome) :
    BatchGroupingResult :=
  let publishResults := publishEvents events outcome
  let resultsMap := OrderedMap.ofList (fun r : EventProcessingResult => r.event.id)
    (fun r => (⟨r.success, r.error, r.retryable, none⟩ : PublishResult)) publishResults
  let retryCountMap := OrderedMap.ofList (fun r : EventProcessingResult => r.event.id)
    (fun r => r.event.retryCount) publishResults
  groupBatchResults resultsMap retryCountMap worker.config.maxRetries

/-- The repository calls of a batch, or `none` when the method throws before
it issues any. -/
def executeBatchProcessing (worker : OutboxWorker) (events : List OutboxEvent)
    (outcome : PublishOutcome) : Option (List RepositoryCall) :=
  let publishResults := publishEvents events outcome
  let errorMessages := collectErrorMessages publishResults
  let grouped := batchGroups worker events outcome
  if recordingThrows worker events publishResults grouped then none
  else some (repositoryCalls worker grouped errorMessages)

/-! ## The specification of a batch -/

/-- What the worker decides about one event of a batch. -/
def decision (worker : OutboxWorker) (outcome : PublishOutcome) (event : OutboxEvent) :
    RetryDecision :=
  let result := processingResult outcome event
  decideRetry ⟨result.success, result.error, result.retryable, none⟩ event.retryCount
    worker.config.maxRetries

/-- The ids of the events with a given decision, in claim order. -/
def decided (worker : OutboxWorker) (outcome : PublishOutcome) (events : List OutboxEvent)
    (d : RetryDecision) : List EventId :=
  (events.filter fun event => decision worker outcome event = d).map OutboxEvent.id

@[simp] theorem processingResult_event (outcome : PublishOutcome) (event : OutboxEvent) :
    (processingResult outcome event).event = event := by
  unfold processingResult
  split
  · split <;> rfl
  · rfl

theorem map_id_publishEvents (events : List OutboxEvent) (outcome : PublishOutcome) :
    (publishEvents events outcome).map (fun r => r.event.id) = events.map OutboxEvent.id := by
  simp [publishEvents, Function.comp_def]

theorem mem_decided {worker : OutboxWorker} {outcome : PublishOutcome}
    {events : List OutboxEvent} {d : RetryDecision} {id : EventId} :
    id ∈ decided worker outcome events d ↔
      ∃ event ∈ events, decision worker outcome event = d ∧ event.id = id := by
  simp [decided, and_assoc]

/-- Every event is in exactly one of the three groups. -/
theorem decided_perm (worker : OutboxWorker) (outcome : PublishOutcome)
    (events : List OutboxEvent) :
    (decided worker outcome events .succeeded ++ decided worker outcome events .retry ++
      decided worker outcome events .dlq).Perm (events.map OutboxEvent.id) := by
  induction events with
  | nil => exact List.Perm.refl _
  | cons event events ih =>
    simp only [decided, List.filter_cons, List.map_cons] at ih ⊢
    cases decision worker outcome event with
    | succeeded => simpa using ih
    | retry =>
      simp only [reduceCtorEq, decide_false, Bool.false_eq_true, ↓reduceIte, decide_true,
        List.map_cons, List.append_assoc, List.cons_append] at ih ⊢
      exact List.perm_middle.trans (ih.cons event.id)
    | dlq =>
      simp only [reduceCtorEq, decide_false, Bool.false_eq_true, ↓reduceIte, decide_true,
        List.map_cons] at ih ⊢
      exact List.perm_middle.trans (ih.cons event.id)

/-- For a batch of distinct ids, the groups are the decided events. -/
theorem group_eq_decided (worker : OutboxWorker) {events : List OutboxEvent}
    (outcome : PublishOutcome) (hnodup : (events.map OutboxEvent.id).Nodup) (d : RetryDecision) :
    (batchGroups worker events outcome).group d = decided worker outcome events d := by
  have hkeys : ((publishEvents events outcome).map fun r => r.event.id).Nodup := by
    rw [map_id_publishEvents]
    exact hnodup
  rw [batchGroups, group_groupBatchResults, OrderedMap.entries_ofList _ hkeys, decided,
    publishEvents, List.map_map, List.filter_map, List.map_map]
  have hfilter : ∀ event ∈ events,
      ((OrderedMap.ofList (fun r : EventProcessingResult => r.event.id)
        (fun r => r.event.retryCount) (publishEvents events outcome)).get? event.id) =
          some event.retryCount := by
    intro event hevent
    have hmem : processingResult outcome event ∈ publishEvents events outcome :=
      List.mem_map_of_mem hevent
    have hget := OrderedMap.get?_ofList (fun r => r.event.retryCount) hkeys hmem
    simpa using hget
  congr 1
  · funext event
    simp
  · refine List.filter_congr fun event hevent => ?_
    have hcount := hfilter event hevent
    rw [publishEvents] at hcount
    simp only [Function.comp_apply, processingResult_event, hcount, Option.getD_some, decision]
    rfl

/-- The groups of the decided events. -/
def decidedGroups (worker : OutboxWorker) (outcome : PublishOutcome) (events : List OutboxEvent) :
    BatchGroupingResult where
  succeeded := decided worker outcome events .succeeded
  retried := decided worker outcome events .retry
  dlq := decided worker outcome events .dlq

@[simp] theorem group_decidedGroups (worker : OutboxWorker) (outcome : PublishOutcome)
    (events : List OutboxEvent) (d : RetryDecision) :
    (decidedGroups worker outcome events).group d = decided worker outcome events d := by
  cases d <;> rfl

/-- `executeBatchProcessing` on a batch of distinct ids. -/
theorem executeBatchProcessing_eq (worker : OutboxWorker) {events : List OutboxEvent}
    (outcome : PublishOutcome) (hnodup : (events.map OutboxEvent.id).Nodup) :
    executeBatchProcessing worker events outcome =
      if recordingThrows worker events (publishEvents events outcome)
          (decidedGroups worker outcome events) then none
      else some (repositoryCalls worker (decidedGroups worker outcome events)
        (collectErrorMessages (publishEvents events outcome))) := by
  have hgroup := group_eq_decided worker outcome hnodup
  unfold executeBatchProcessing decidedGroups
  rw [← hgroup .succeeded, ← hgroup .retry, ← hgroup .dlq]
  rfl

/-! ## What the metrics do to a batch -/

/-- Without metrics nothing throws. -/
theorem recordingThrows_of_none {worker : OutboxWorker} (hmetrics : worker.metrics = none)
    (events : List OutboxEvent) (publishResults : List EventProcessingResult)
    (grouped : BatchGroupingResult) :
    recordingThrows worker events publishResults grouped = false := by
  have hcount : ∀ counter, recordCountThrows worker counter = fun _ => false := by
    intro counter
    funext event
    rw [recordCountThrows, hmetrics, Option.any_none]
  simp [recordingThrows, recordResultThrows, recordSuccessThrows, recordFailureThrows, hcount,
    hmetrics]

/-- The metrics can record the result of the event: a duration that comes with it
is finite, and a failure comes with an error whose message is a text. -/
def Recordable (outcome : PublishOutcome) (event : OutboxEvent) : Prop :=
  match outcome with
  | .returned results => ∃ result, results.get? event.id = some result ∧
      (∀ durationMs, result.durationMs = some durationMs → durationMs.isFinite = true) ∧
      (result.success = true ∨ result.error.hasText = true)
  | .threw error => error.hasText = true

section Documented

variable {worker : OutboxWorker} {metrics : WorkerMetrics}
  (hmetrics : worker.metrics = some metrics) (hdocumented : metrics.Documented)

include hmetrics hdocumented

theorem recordResultThrows_eq (result : EventProcessingResult) :
    recordResultThrows worker result =
      !(result.durationMs.isFinite && (result.success || result.error.hasText)) := by
  unfold recordResultThrows recordSuccessThrows recordFailureThrows
  rw [hmetrics]
  cases result.success <;>
    simp [hdocumented.inc, hdocumented.observe, Bool.or_comm]

theorem recordCountThrows_eq (counter : BatchCounter) :
    recordCountThrows worker counter = fun _ => false := by
  funext event
  rw [recordCountThrows, hmetrics, Option.any_some, hdocumented.inc]

/-- What cannot be recorded throws. -/
theorem recordResultThrows_iff (outcome : PublishOutcome) (event : OutboxEvent) :
    recordResultThrows worker (processingResult outcome event) = true ↔
      ¬Recordable outcome event := by
  rw [recordResultThrows_eq hmetrics hdocumented]
  unfold Recordable processingResult
  cases outcome with
  | threw error => simp
  | returned results =>
    cases hget : results.get? event.id with
    | none => simp [ErrorValue.hasText, ErrorValue.message, hget]
    | some result =>
      cases hduration : result.durationMs with
      | none => simp [hget, hduration]
      | some durationMs => cases hfinite : durationMs.isFinite <;> simp [hget, hduration, hfinite]

/-- A batch goes through if all its results can be recorded. -/
theorem recordingThrows_iff (events : List OutboxEvent) (outcome : PublishOutcome)
    (grouped : BatchGroupingResult) :
    recordingThrows worker events (publishEvents events outcome) grouped = true ↔
      ∃ event ∈ events, ¬Recordable outcome event := by
  simp [recordingThrows, publishEvents, recordCountThrows_eq hmetrics hdocumented,
    recordResultThrows_iff hmetrics hdocumented]

end Documented

/-- Metrics of any kind: nothing throws for a batch if none are configured, or
if all its results can be recorded. -/
theorem recordingThrows_eq_false_iff {worker : OutboxWorker}
    (hdocumented : ∀ metrics ∈ worker.metrics, metrics.Documented) (events : List OutboxEvent)
    (outcome : PublishOutcome) (grouped : BatchGroupingResult) :
    recordingThrows worker events (publishEvents events outcome) grouped = false ↔
      (worker.metrics.isSome → ∀ event ∈ events, Recordable outcome event) := by
  cases hmetrics : worker.metrics with
  | none => simp [recordingThrows_of_none hmetrics]
  | some metrics =>
    have hthrows := recordingThrows_iff hmetrics (hdocumented metrics hmetrics) events outcome
      grouped
    rw [← Bool.not_eq_true, hthrows]
    simp

/-! ## The calls of a batch -/

/-- The decision that a call carries out. -/
def RepositoryCall.decision {Message : Type} : RepositoryCall Message → RetryDecision
  | .markSucceeded _ => .succeeded
  | .scheduleRetry _ _ _ => .retry
  | .moveToDLQ _ _ => .dlq

theorem flatMap_ids_repositoryCalls (worker : OutboxWorker) (grouped : BatchGroupingResult)
    (errorMessages : OrderedMap EventId ErrorMessage) :
    (repositoryCalls worker grouped errorMessages).flatMap RepositoryCall.ids =
      grouped.succeeded ++ grouped.retried ++ grouped.dlq := by
  obtain ⟨succeeded, retried, dlq⟩ := grouped
  cases succeeded <;> cases retried <;> cases dlq <;>
    simp [repositoryCalls, RepositoryCall.ids, Function.comp_def]

/-- A call is about the group of its decision. -/
theorem ids_of_mem_repositoryCalls {worker : OutboxWorker} {grouped : BatchGroupingResult}
    {errorMessages : OrderedMap EventId ErrorMessage} {call : RepositoryCall}
    (h : call ∈ repositoryCalls worker grouped errorMessages) :
    call.ids = grouped.group call.decision := by
  unfold repositoryCalls at h
  rw [List.mem_append, List.mem_append] at h
  rcases h with (h | h) | h <;> split at h <;> simp at h <;> subst h <;>
    simp [RepositoryCall.ids, RepositoryCall.decision, BatchGroupingResult.group,
      Function.comp_def]

section Calls

variable {worker : OutboxWorker} {events : List OutboxEvent} {outcome : PublishOutcome}
  {calls : List RepositoryCall} (hnodup : (events.map OutboxEvent.id).Nodup)
  (hcalls : executeBatchProcessing worker events outcome = some calls)

include hnodup hcalls

theorem calls_eq_repositoryCalls :
    calls = repositoryCalls worker (decidedGroups worker outcome events)
      (collectErrorMessages (publishEvents events outcome)) := by
  rw [executeBatchProcessing_eq worker outcome hnodup] at hcalls
  split at hcalls
  · exact absurd hcalls (by simp)
  · exact (Option.some.inj hcalls).symm

/-- The calls are about each event of the batch once. -/
theorem flatMap_ids_calls_perm :
    (calls.flatMap RepositoryCall.ids).Perm (events.map OutboxEvent.id) := by
  rw [calls_eq_repositoryCalls hnodup hcalls, flatMap_ids_repositoryCalls]
  exact decided_perm worker outcome events

theorem nodup_flatMap_ids_calls : (calls.flatMap RepositoryCall.ids).Nodup :=
  (flatMap_ids_calls_perm hnodup hcalls).nodup_iff.mpr hnodup

/-- A call is about the events with its decision. -/
theorem ids_eq_decided {call : RepositoryCall} (hcall : call ∈ calls) :
    call.ids = decided worker outcome events call.decision := by
  rw [calls_eq_repositoryCalls hnodup hcalls] at hcall
  rw [ids_of_mem_repositoryCalls hcall, group_decidedGroups]

theorem exists_event_of_mem_ids {call : RepositoryCall} (hcall : call ∈ calls) {id : EventId}
    (hid : id ∈ call.ids) :
    ∃ event ∈ events, decision worker outcome event = call.decision ∧ event.id = id := by
  rw [ids_eq_decided hnodup hcalls hcall] at hid
  exact mem_decided.mp hid

end Calls

/-! ## Pending calls -/

/-- An executed call is no longer pending. -/
theorem count_ids_eraseIdx {pending : List RepositoryCall} {index : Nat} {call : RepositoryCall}
    (hcall : pending[index]? = some call) (id : EventId) :
    (pending.flatMap RepositoryCall.ids).count id =
      call.ids.count id + ((pending.eraseIdx index).flatMap RepositoryCall.ids).count id := by
  obtain ⟨hindex, hget⟩ := List.getElem?_eq_some_iff.mp hcall
  have hperm := (List.getElem_cons_eraseIdx_perm hindex).flatMap_right RepositoryCall.ids
  rw [← hperm.count_eq id, hget, List.flatMap_cons, List.count_append]

/-- When each event is listed once, the pending calls list the events that
the executed call does not list. -/
theorem mem_ids_eraseIdx {pending : List RepositoryCall} {index : Nat} {call : RepositoryCall}
    (hnodup : (pending.flatMap RepositoryCall.ids).Nodup) (hcall : pending[index]? = some call)
    {id : EventId} :
    id ∈ (pending.eraseIdx index).flatMap RepositoryCall.ids ↔
      id ∈ pending.flatMap RepositoryCall.ids ∧ id ∉ call.ids := by
  have hcount := count_ids_eraseIdx hcall id
  have hle := List.nodup_iff_count_le_one.mp hnodup id
  rw [← List.count_pos_iff, ← List.count_pos_iff, ← List.count_eq_zero]
  omega

/-! ## What a decision says about the publish attempt -/

/-- The publisher returned a result for the event that says `success`. -/
def PublishSucceeded (outcome : PublishOutcome) (id : EventId) : Prop :=
  ∃ results result, outcome = .returned results ∧ results.get? id = some result ∧
    result.success = true

/-- The attempt counts as a failure of the event: the publisher threw,
returned no result for it, or returned one that does not say `success`. -/
def PublishFailed (outcome : PublishOutcome) (id : EventId) : Prop :=
  (∃ error, outcome = .threw error) ∨
    ∃ results, outcome = .returned results ∧
      (results.get? id = none ∨
        ∃ result, results.get? id = some result ∧ result.success = false)

/-- The publisher returned a failure of the event that says not to retry. -/
def PublishNotRetryable (outcome : PublishOutcome) (id : EventId) : Prop :=
  ∃ results result, outcome = .returned results ∧ results.get? id = some result ∧
    result.success = false ∧ result.retryable = false

theorem publishSucceeded_of_decision {worker : OutboxWorker} {outcome : PublishOutcome}
    {event : OutboxEvent} (h : decision worker outcome event = .succeeded) :
    PublishSucceeded outcome event.id := by
  have hsuccess : (processingResult outcome event).success = true := by
    simp only [decision, decideRetry] at h
    split at h
    · assumption
    · split at h <;> exact absurd h (by simp)
  unfold processingResult at hsuccess
  split at hsuccess
  · rename_i results
    split at hsuccess
    · rename_i result hget
      exact ⟨results, result, rfl, hget, hsuccess⟩
    · exact absurd hsuccess (by simp)
  · exact absurd hsuccess (by simp)

theorem publishFailed_of_decision {worker : OutboxWorker} {outcome : PublishOutcome}
    {event : OutboxEvent} (h : decision worker outcome event ≠ .succeeded) :
    PublishFailed outcome event.id := by
  have hsuccess : (processingResult outcome event).success = false := by
    by_contra hne
    exact h (by simp [decision, decideRetry, eq_true_of_ne_false hne])
  unfold processingResult at hsuccess
  split at hsuccess
  · rename_i results
    refine Or.inr ⟨results, rfl, ?_⟩
    split at hsuccess
    · rename_i result hget
      exact Or.inr ⟨result, hget, hsuccess⟩
    · rename_i hget
      exact Or.inl hget
  · rename_i error
    exact Or.inl ⟨error, rfl⟩

theorem retryCount_lt_of_decision {worker : OutboxWorker} {outcome : PublishOutcome}
    {event : OutboxEvent} (h : decision worker outcome event = .retry) :
    event.retryCount < worker.config.maxRetries := by
  simp only [decision, decideRetry] at h
  split at h
  · exact absurd h (by simp)
  · split at h
    · exact absurd h (by simp)
    · rename_i hor
      simp only [Bool.or_eq_true, decide_eq_true_eq, not_or] at hor
      omega

/-- A dead-lettered event failed for good, or at the worker's retry limit. -/
theorem notRetryable_or_exhausted_of_decision {worker : OutboxWorker} {outcome : PublishOutcome}
    {event : OutboxEvent} (h : decision worker outcome event = .dlq) :
    PublishNotRetryable outcome event.id ∨ worker.config.maxRetries ≤ event.retryCount := by
  simp only [decision, decideRetry] at h
  split at h
  · exact absurd h (by simp)
  · rename_i hsuccess
    split at h
    · rename_i hor
      rw [Bool.or_eq_true, decide_eq_true_eq] at hor
      refine hor.imp (fun hretry => ?_) id
      unfold processingResult at hsuccess hretry
      split at hretry
      · rename_i results
        split at hretry
        · rename_i result hget
          exact ⟨results, result, rfl, hget, by simpa [hget] using hsuccess, by simpa using hretry⟩
        · exact absurd hretry (by simp)
      · exact absurd hretry (by simp)
    · exact absurd h (by simp)

/-- The attempt failed for the event in a way that may be retried. -/
def RetryableFailure (outcome : PublishOutcome) (event : OutboxEvent) : Prop :=
  (processingResult outcome event).success = false ∧
    (processingResult outcome event).retryable = true

instance (outcome : PublishOutcome) (event : OutboxEvent) :
    Decidable (RetryableFailure outcome event) :=
  inferInstanceAs (Decidable (_ ∧ _))

/-- A retry is decided for retryable failures below the worker's limit. -/
theorem decision_eq_retry_iff {worker : OutboxWorker} {outcome : PublishOutcome}
    {event : OutboxEvent} :
    decision worker outcome event = .retry ↔
      RetryableFailure outcome event ∧ event.retryCount < worker.config.maxRetries := by
  simp only [decision, decideRetry, RetryableFailure]
  cases (processingResult outcome event).success <;>
    cases (processingResult outcome event).retryable <;> simp

theorem not_retryableFailure_of_decision {worker : OutboxWorker} {outcome : PublishOutcome}
    {event : OutboxEvent} (h : decision worker outcome event = .succeeded) :
    ¬ RetryableFailure outcome event := by
  intro hfailure
  obtain ⟨hsuccess, _⟩ := hfailure
  simp only [decision, decideRetry, hsuccess, Bool.false_eq_true, ↓reduceIte] at h
  split at h <;> exact absurd h (by simp)

end Outboxy
