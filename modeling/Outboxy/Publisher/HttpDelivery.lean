import Outboxy.Library.Fanout
import Outboxy.Publisher.HttpPublisher

/-!
# One request and one result

`PublishesBatch` says that `publish` makes one request for each destination,
with the events for it, and returns one result for each event, which only the
outcome of its own request decides.

`publishesBatch_iff` shows that two things stand in the way of this.  A header
that is forwarded can be another spelling of a header that the publisher sets,
and then the request has both.  And the body is read before the status is
looked at, so that an answer whose body cannot be read is retried whatever its
status.
-/

namespace Outboxy

open Transition

/-- The request has the header, and no other header of this name, in whatever
spelling. -/
def HttpRequest.Carries (r : HttpRequest) (name value : String) : Prop :=
  r.headers.entries.filter (fun field => toLowerCase field.1 = toLowerCase name) = [(name, value)]

/-- The status of the answer, if there was one. -/
def RequestOutcome.statusCode? : RequestOutcome → Option Nat
  | .answer statusCode _ | .bodyError statusCode _ => some statusCode
  | .requestError _ => none

namespace HttpPublisher

/-- The events for a destination. -/
def eventsFor (events : List OutboxEvent) (url : String) : List OutboxEvent :=
  events.filter fun event => event.destinationUrl = url

/-- The request of each destination settles once. -/
structure Settles (events : List OutboxEvent) (settled : List (String × RequestOutcome)) :
    Prop where
  nodup : (settled.map Prod.fst).Nodup
  covers : ∀ url, url ∈ settled.map Prod.fst ↔ url ∈ events.map OutboxEvent.destinationUrl

/-- The requests partition the batch, and their headers describe their
events. -/
structure RequestsBatch (publisher : HttpPublisher) (events : List OutboxEvent) : Prop where
  nodup : ((publisher.requests events).map HttpRequest.url).Nodup
  destinations : ∀ url, url ∈ (publisher.requests events).map HttpRequest.url ↔
    url ∈ events.map OutboxEvent.destinationUrl
  inOrder : ∀ r ∈ publisher.requests events,
    r.body.events = (eventsFor events r.url).map payloadEvent
  once : ∀ event ∈ events,
    ∃! r, r ∈ publisher.requests events ∧ event.id ∈ r.body.events.map PayloadEvent.eventId
  own : ∀ event ∈ events, ∀ r ∈ publisher.requests events,
    event.id ∈ r.body.events.map PayloadEvent.eventId → r.url = event.destinationUrl
  size : ∀ r ∈ publisher.requests events,
    r.Carries "X-Outbox-Batch-Size" (toString r.body.events.length)
  eventIds : ∀ r ∈ publisher.requests events,
    r.Carries "X-Outbox-Event-IDs"
      (String.intercalate "," (r.body.events.map PayloadEvent.eventId))

/-- The results have the keys of the batch.  The result of an event depends on
the outcome of its own request alone, and it is a failure, retryable or not,
if that is an answer with another status than a success. -/
structure ResultsOf (js : JsonRuntime) (events : List OutboxEvent)
    (settled : List (String × RequestOutcome)) (results : OrderedMap EventId PublishResult) :
    Prop where
  keys : (results.entries.map Prod.fst).Perm (events.map OutboxEvent.id)
  isolated : ∀ other results', Settles events other → publish js events other = some results' →
    ∀ event ∈ events, ∀ outcome, (event.destinationUrl, outcome) ∈ settled →
      (event.destinationUrl, outcome) ∈ other → results.get? event.id = results'.get? event.id
  refused : ∀ event ∈ events, ∀ outcome statusCode,
    (event.destinationUrl, outcome) ∈ settled → outcome.statusCode? = some statusCode →
    ¬(200 ≤ statusCode ∧ statusCode < 300) →
    ∃ result, results.get? event.id = some result ∧ result.success = false ∧
      (result.retryable = true ↔ 500 ≤ statusCode ∨ statusCode = 408 ∨ statusCode = 429)

/-- One request for each destination, and one result for each event. -/
def PublishesBatch (publisher : HttpPublisher) (js : JsonRuntime) (events : List OutboxEvent)
    (settled : List (String × RequestOutcome)) : Prop :=
  RequestsBatch publisher events ∧
    ∃ results, publish js events settled = some results ∧ ResultsOf js events settled results

/-- The event forwards no header next to the header `name`. -/
def Agrees (event : OutboxEvent) (name : String) : Prop :=
  ∀ field ∈ (extractForwardableHeaders event.headers).entries,
    toLowerCase field.1 = toLowerCase name → field.1 = name

/-- The first event for each destination forwards no other size and no other
ids. -/
def HeadersAgree (events : List OutboxEvent) : Prop :=
  ∀ url, ∀ first ∈ (eventsFor events url).head?,
    Agrees first "X-Outbox-Batch-Size" ∧ Agrees first "X-Outbox-Event-IDs"

/-- An answer whose body cannot be read is a success or retryable by its
status. -/
def BodiesRead (settled : List (String × RequestOutcome)) : Prop :=
  ∀ url statusCode error, (url, RequestOutcome.bodyError statusCode error) ∈ settled →
    200 ≤ statusCode ∧ statusCode < 300 ∨ retryableStatus statusCode = true

/-! ## Groups -/

variable {publisher : HttpPublisher} {js : JsonRuntime} {events : List OutboxEvent}
  {event : OutboxEvent} {url : String} {r : HttpRequest} {eventIds : List EventId}

theorem mem_groupByDestination_iff {group : List OutboxEvent} :
    (url, group) ∈ (groupByDestination events).entries ↔
      url ∈ events.map OutboxEvent.destinationUrl ∧ group = eventsFor events url :=
  OrderedMap.mem_entries_groupBy_iff _

theorem mem_eventsFor_iff :
    event ∈ eventsFor events url ↔ event ∈ events ∧ event.destinationUrl = url := by
  rw [eventsFor, List.mem_filter, decide_eq_true_eq]

/-- A destination of the batch has a first event. -/
theorem exists_head?_eventsFor (hurl : url ∈ events.map OutboxEvent.destinationUrl) :
    ∃ first, (eventsFor events url).head? = some first := by
  obtain ⟨event, hevent, rfl⟩ := List.mem_map.mp hurl
  have hgroup : event ∈ eventsFor events event.destinationUrl :=
    mem_eventsFor_iff.mpr ⟨hevent, rfl⟩
  exact Option.isSome_iff_exists.mp (List.isSome_head?.mpr (List.ne_nil_of_mem hgroup))

/-- The ids of the events for a destination are distinct, if all ids are. -/
theorem nodup_eventsFor (hids : (events.map OutboxEvent.id).Nodup) (url : String) :
    ((eventsFor events url).map OutboxEvent.id).Nodup :=
  hids.sublist (List.filter_sublist.map _)

/-! ## Requests -/

theorem mem_requests_iff :
    r ∈ publisher.requests events ↔
      ∃ url ∈ events.map OutboxEvent.destinationUrl,
        publisher.request url (eventsFor events url) = r := by
  rw [requests, List.mem_map]
  constructor
  · intro hr
    obtain ⟨⟨url, group⟩, hgroup, rfl⟩ := hr
    obtain ⟨hurl, rfl⟩ := mem_groupByDestination_iff.mp hgroup
    exact ⟨url, hurl, rfl⟩
  · intro hr
    obtain ⟨url, hurl, rfl⟩ := hr
    exact ⟨(url, eventsFor events url), mem_groupByDestination_iff.mpr ⟨hurl, rfl⟩, rfl⟩

theorem map_url_requests :
    (publisher.requests events).map HttpRequest.url =
      (groupByDestination events).entries.map Prod.fst := by
  rw [requests, List.map_map]
  rfl

theorem map_eventId_payloadEvent (group : List OutboxEvent) :
    (group.map payloadEvent).map PayloadEvent.eventId = group.map OutboxEvent.id := by
  rw [List.map_map]
  rfl

/-- The request that has an event is the one for its destination. -/
theorem mem_request_iff (hids : (events.map OutboxEvent.id).Nodup) (hevent : event ∈ events) :
    event.id ∈ (publisher.request url (eventsFor events url)).body.events.map PayloadEvent.eventId ↔
      url = event.destinationUrl := by
  show event.id ∈ ((eventsFor events url).map payloadEvent).map PayloadEvent.eventId ↔ _
  rw [map_eventId_payloadEvent, List.mem_map]
  constructor
  · intro hid
    obtain ⟨found, hfound, heq⟩ := hid
    obtain ⟨hmem, rfl⟩ := mem_eventsFor_iff.mp hfound
    rw [List.inj_on_of_nodup_map hids hmem hevent heq]
  · intro hurl
    subst hurl
    exact ⟨event, mem_eventsFor_iff.mpr ⟨hevent, rfl⟩, rfl⟩

/-! ## Headers -/

/-- No header that the publisher sets is another spelling of one. -/
theorem nodup_systemHeaders (publisher : HttpPublisher) (group : List OutboxEvent) :
    ((publisher.systemHeaders group).map fun field => toLowerCase field.1).Nodup := by
  show [toLowerCase "Content-Type", toLowerCase "User-Agent", toLowerCase "X-Outbox-Batch",
    toLowerCase "X-Outbox-Batch-Size", toLowerCase "X-Outbox-Event-IDs"].Nodup
  decide

/-- The headers of a request are those of the publisher, and those that the
first event forwards under other names. -/
theorem mem_headers_iff {group : List OutboxEvent} {first : OutboxEvent}
    (hfirst : group.head? = some first) {field : String × String} :
    field ∈ (publisher.request url group).headers.entries ↔
      field ∈ publisher.systemHeaders group ∨
        field ∈ (extractForwardableHeaders first.headers).entries ∧
          field.1 ∉ (publisher.systemHeaders group).map Prod.fst := by
  have hnames : ((publisher.systemHeaders group).map Prod.fst).Nodup :=
    List.Nodup.of_map toLowerCase (by
      rw [List.map_map]
      exact nodup_systemHeaders publisher group)
  have hheaders : (publisher.request url group).headers =
      (extractForwardableHeaders first.headers).setAll (publisher.systemHeaders group) := by
    simp only [request, hfirst, Option.elim_some]
  rw [hheaders, OrderedMap.mem_entries_setAll_iff hnames]

theorem nodup_keys_headers (publisher : HttpPublisher) (url : String)
    (group : List OutboxEvent) :
    ((publisher.request url group).headers.entries.map Prod.fst).Nodup := by
  refine OrderedMap.nodup_keys_setAll _ ?_
  cases group.head? with
  | none => exact List.nodup_nil
  | some first =>
    show ((extractForwardableHeaders first.headers).entries.map Prod.fst).Nodup
    cases first.headers with
    | obj members => exact OrderedMap.nodup_keys_foldl_set _ _ _ _ List.nodup_nil
    | _ => exact List.nodup_nil

/-- A request carries a header of the publisher unless the first event forwards
another spelling of it. -/
theorem carries_iff {group : List OutboxEvent} {first : OutboxEvent} {name value : String}
    (hfirst : group.head? = some first) (hmem : (name, value) ∈ publisher.systemHeaders group) :
    (publisher.request url group).Carries name value ↔ Agrees first name := by
  have hlower := nodup_systemHeaders publisher group
  rw [HttpRequest.Carries, OrderedMap.filter_entries_eq_singleton_iff
    (nodup_keys_headers publisher url group)]
  constructor
  · intro h field hfield hspells
    by_cases hset : field.1 ∈ (publisher.systemHeaders group).map Prod.fst
    · obtain ⟨set, hset, heq⟩ := List.mem_map.mp hset
      rw [← heq] at hspells
      obtain rfl := List.inj_on_of_nodup_map hlower hset hmem hspells
      exact heq.symm
    · have hforwarded : field ∈ (publisher.request url group).headers.entries :=
        (mem_headers_iff hfirst).mpr (Or.inr ⟨hfield, hset⟩)
      exact congrArg Prod.fst (h.2.2 field hforwarded (decide_eq_true hspells))
  · intro hagrees
    refine ⟨(mem_headers_iff hfirst).mpr (Or.inl hmem), decide_eq_true rfl,
      fun field hfield hspells => ?_⟩
    have hspells' := of_decide_eq_true hspells
    rcases (mem_headers_iff hfirst).mp hfield with hset | ⟨hforwarded, hnot⟩
    · exact List.inj_on_of_nodup_map hlower hset hmem hspells'
    · have hname : field.1 = name := hagrees field hforwarded hspells'
      rw [hname] at hnot
      exact absurd (List.mem_map_of_mem hmem) hnot

/-! ## Results of a request -/

theorem keys_buildUniformResults (result : PublishResult) (h : eventIds.Nodup) :
    (buildUniformResults eventIds result).entries.map Prod.fst = eventIds := by
  rw [buildUniformResults, OrderedMap.entries_ofList _ (by rwa [List.map_id]), List.map_map]
  exact List.map_id _

theorem get?_buildUniformResults (result : PublishResult) (h : eventIds.Nodup)
    (hevent : event.id ∈ eventIds) :
    (buildUniformResults eventIds result).get? event.id = some result := by
  show (OrderedMap.ofList id _ eventIds).get? (id event.id) = some result
  exact OrderedMap.get?_ofList (fun _ => result) (by rwa [List.map_id]) hevent

theorem keys_parseIndividualResults {responseBody : String}
    {results : OrderedMap EventId PublishResult} (h : eventIds.Nodup)
    (hparse : parseIndividualResults js responseBody eventIds = some results) :
    results.entries.map Prod.fst = eventIds := by
  obtain ⟨parsed, -, hparse⟩ := Option.bind_eq_some_iff.mp hparse
  obtain ⟨members, -, hparse⟩ := Option.bind_eq_some_iff.mp hparse
  have hloop : ∃ pairs, (eventIds.mapM fun eventId =>
      (individualResult js members eventId).map fun result => (eventId, result)) = some pairs ∧
      OrderedMap.ofList Prod.fst Prod.snd pairs = results := by
    split at hparse
    · obtain ⟨pairs, hpairs, hresults⟩ := Option.bind_eq_some_iff.mp hparse
      exact ⟨pairs, hpairs, Option.some.inj hresults⟩
    · obtain ⟨pairs, hpairs, hresults⟩ := Option.bind_eq_some_iff.mp hparse
      exact ⟨pairs, hpairs, Option.some.inj hresults⟩
    · cases hparse
  obtain ⟨pairs, hpairs, rfl⟩ := hloop
  have hkeys := OrderedMap.keys_of_mapM hpairs
  rw [OrderedMap.entries_ofList _ (hkeys ▸ h), List.map_map]
  exact hkeys

/-- Whatever comes of a request, each of its events gets a result. -/
theorem keys_batchResults (js : JsonRuntime) (h : eventIds.Nodup) (outcome : RequestOutcome) :
    (batchResults js eventIds outcome).entries.map Prod.fst = eventIds := by
  cases outcome with
  | answer statusCode responseBody =>
    rw [batchResults]
    split
    · cases hparse : parseIndividualResults js responseBody eventIds with
      | none => exact keys_buildUniformResults _ h
      | some results => exact keys_parseIndividualResults h hparse
    · exact keys_buildUniformResults _ h
  | bodyError statusCode error => exact keys_buildUniformResults _ h
  | requestError error => exact keys_buildUniformResults _ h

/-! ## The result of the call -/

/-- The results of a request, for its events. -/
def groupResults (js : JsonRuntime) (group : List OutboxEvent) (outcome : RequestOutcome) :
    OrderedMap EventId PublishResult :=
  batchResults js (group.map OutboxEvent.id) outcome

/-- `publish` makes one request for each destination, and merges their
results. -/
theorem publish_eq_gather (js : JsonRuntime) (events : List OutboxEvent)
    (settled : List (String × RequestOutcome)) :
    publish js events settled =
      Fanout.gather OutboxEvent.destinationUrl (groupResults js) events settled := by
  let forget (s : Publishing) : Fanout String OutboxEvent EventId PublishResult :=
    ⟨s.inFlight, s.results⟩
  have hstep : ∀ s a, ((publishing js events).step s a).map forget =
      Fanout.settle (groupResults js) (forget s) a := by
    intro s a
    show (Publishing.settle js s a).map forget = _
    rw [Publishing.settle, Fanout.settle, Option.map_map]
    rfl
  have hrun := (publishing js events).run_map
    (Fanout.calling OutboxEvent.destinationUrl (groupResults js) events) forget hstep
    (.start events) settled
  rw [publish, Fanout.gather]
  show _ = (System.run _ (forget (.start events)) settled).bind _
  rw [← hrun, Option.bind_map]
  rfl

theorem Settles.fanout {settled : List (String × RequestOutcome)} (h : Settles events settled) :
    Fanout.Settles OutboxEvent.destinationUrl events settled :=
  ⟨h.nodup, h.covers⟩

variable {settled : List (String × RequestOutcome)} {outcome : RequestOutcome}
  {results : OrderedMap EventId PublishResult}

/-- The results are merged from those of the requests. -/
abbrev Gathered (js : JsonRuntime) (events : List OutboxEvent)
    (settled : List (String × RequestOutcome)) (results : OrderedMap EventId PublishResult) :
    Prop :=
  Fanout.Gathered OutboxEvent.destinationUrl (groupResults js) OutboxEvent.id events settled results

/-- `publish` returns when each request has settled, with the results of each
request. -/
theorem exists_publish (js : JsonRuntime) (hids : (events.map OutboxEvent.id).Nodup)
    (h : Settles events settled) :
    ∃ results, publish js events settled = some results ∧ Gathered js events settled results := by
  rw [publish_eq_gather]
  exact Fanout.exists_gather hids (fun _ outcome hnodup => keys_batchResults js hnodup outcome)
    h.fanout

/-- The result of an event is the one that its own request leads to. -/
theorem get?_results (hs : Gathered js events settled results) (hevent : event ∈ events)
    (hsettled : (event.destinationUrl, outcome) ∈ settled) :
    results.get? event.id =
      (batchResults js ((eventsFor events event.destinationUrl).map OutboxEvent.id) outcome).get?
        event.id :=
  hs.get? event hevent outcome hsettled

/-- An answer that is not a success makes its events fail.  They are retried
for their status, or because the body could not be read. -/
theorem get?_batchResults_of_refused (js : JsonRuntime) {statusCode : Nat} (h : eventIds.Nodup)
    (hevent : event.id ∈ eventIds) (hstatus : outcome.statusCode? = some statusCode)
    (hnot : ¬(200 ≤ statusCode ∧ statusCode < 300)) :
    ∃ result, (batchResults js eventIds outcome).get? event.id = some result ∧
      result.success = false ∧
      (result.retryable = true ↔
        retryableStatus statusCode = true ∨ ∃ error, outcome = .bodyError statusCode error) := by
  cases outcome with
  | answer code responseBody =>
    obtain rfl := Option.some.inj hstatus
    rw [batchResults, if_neg hnot]
    refine ⟨_, get?_buildUniformResults _ h hevent, rfl, ?_⟩
    simp
  | bodyError code error =>
    obtain rfl := Option.some.inj hstatus
    refine ⟨_, get?_buildUniformResults _ h hevent, rfl, ?_⟩
    simp
  | requestError error => cases hstatus

/-! ## The batch -/

/-- The request for the destination of an event. -/
theorem request_mem_requests (publisher : HttpPublisher) (hevent : event ∈ events) :
    publisher.request event.destinationUrl (eventsFor events event.destinationUrl) ∈
      publisher.requests events :=
  mem_requests_iff.mpr ⟨_, List.mem_map_of_mem hevent, rfl⟩

/-- The size and the ids of a request describe its events unless the first of
them forwards a size or ids as well. -/
theorem request_carries_iff {first : OutboxEvent}
    (hfirst : first ∈ (eventsFor events url).head?) :
    ((publisher.request url (eventsFor events url)).Carries "X-Outbox-Batch-Size"
        (toString (publisher.request url (eventsFor events url)).body.events.length) ∧
      (publisher.request url (eventsFor events url)).Carries "X-Outbox-Event-IDs"
        (String.intercalate ","
          ((publisher.request url (eventsFor events url)).body.events.map
            PayloadEvent.eventId))) ↔
      Agrees first "X-Outbox-Batch-Size" ∧ Agrees first "X-Outbox-Event-IDs" := by
  have hbody : (publisher.request url (eventsFor events url)).body.events =
      (eventsFor events url).map payloadEvent := rfl
  rw [hbody, List.length_map, map_eventId_payloadEvent,
    carries_iff hfirst (by simp [systemHeaders]), carries_iff hfirst (by simp [systemHeaders])]

/-- The headers of all requests describe their events unless an event that
comes first forwards something else. -/
theorem forall_carries_iff (publisher : HttpPublisher) :
    (∀ r ∈ publisher.requests events,
      r.Carries "X-Outbox-Batch-Size" (toString r.body.events.length) ∧
      r.Carries "X-Outbox-Event-IDs"
        (String.intercalate "," (r.body.events.map PayloadEvent.eventId))) ↔
      HeadersAgree events := by
  constructor
  · intro h url first hfirst
    obtain ⟨hmem, rfl⟩ := mem_eventsFor_iff.mp (List.mem_of_head? hfirst)
    exact (request_carries_iff hfirst).mp (h _ (request_mem_requests publisher hmem))
  · intro h r hr
    obtain ⟨url, hurl, rfl⟩ := mem_requests_iff.mp hr
    obtain ⟨first, hfirst⟩ := exists_head?_eventsFor hurl
    exact (request_carries_iff hfirst).mpr (h _ first hfirst)

/-- There is a request for each destination of the batch. -/
theorem mem_map_url_requests_iff :
    url ∈ (publisher.requests events).map HttpRequest.url ↔
      url ∈ events.map OutboxEvent.destinationUrl := by
  rw [List.mem_map]
  constructor
  · intro h
    obtain ⟨r, hr, rfl⟩ := h
    obtain ⟨url, hurl, rfl⟩ := mem_requests_iff.mp hr
    exact hurl
  · intro hurl
    exact ⟨_, mem_requests_iff.mpr ⟨url, hurl, rfl⟩, rfl⟩

/-- A request that has an event is the one for its destination. -/
theorem eq_request_of_mem (hids : (events.map OutboxEvent.id).Nodup) (hevent : event ∈ events)
    (hr : r ∈ publisher.requests events)
    (hid : event.id ∈ r.body.events.map PayloadEvent.eventId) :
    r = publisher.request event.destinationUrl (eventsFor events event.destinationUrl) := by
  obtain ⟨url, -, rfl⟩ := mem_requests_iff.mp hr
  rw [(mem_request_iff hids hevent).mp hid]

/-- The requests partition the batch.  Their headers describe their events if
the events forward nothing else under the same names. -/
theorem requestsBatch_iff (hids : (events.map OutboxEvent.id).Nodup) :
    RequestsBatch publisher events ↔ HeadersAgree events := by
  constructor
  · intro h
    exact (forall_carries_iff publisher).mp fun r hr => ⟨h.size r hr, h.eventIds r hr⟩
  · intro h
    have hcarries := (forall_carries_iff publisher).mpr h
    refine ⟨?_, fun url => mem_map_url_requests_iff, ?_, ?_, ?_,
      fun r hr => (hcarries r hr).1, fun r hr => (hcarries r hr).2⟩
    · rw [map_url_requests]
      exact OrderedMap.nodup_keys_groupBy _ events
    · intro r hr
      obtain ⟨url, -, rfl⟩ := mem_requests_iff.mp hr
      rfl
    · intro event hevent
      refine ⟨_, ⟨request_mem_requests publisher hevent, (mem_request_iff hids hevent).mpr rfl⟩,
        ?_⟩
      exact fun r hr => eq_request_of_mem hids hevent hr.1 hr.2
    · intro event hevent r hr hid
      rw [eq_request_of_mem hids hevent hr hid]
      rfl

/-- Each event has the result of its own request, which is as its status says
if the bodies that have to be are read. -/
theorem resultsOf_iff (hids : (events.map OutboxEvent.id).Nodup) (h : Settles events settled)
    (hs : Gathered js events settled results) :
    ResultsOf js events settled results ↔ BodiesRead settled := by
  constructor
  · intro hresults url statusCode error hmem
    by_cases hsuccess : 200 ≤ statusCode ∧ statusCode < 300
    · exact Or.inl hsuccess
    · right
      obtain ⟨event, hevent, rfl⟩ := List.mem_map.mp
        ((h.covers url).mp (List.mem_map_of_mem hmem))
      obtain ⟨result, hresult, -, hretryable⟩ :=
        hresults.refused event hevent _ statusCode hmem rfl hsuccess
      rw [get?_results hs hevent hmem] at hresult
      have hretried := get?_buildUniformResults
        { success := false, error, retryable := true, durationMs := some .elapsed }
        (nodup_eventsFor hids event.destinationUrl)
        (List.mem_map_of_mem (mem_eventsFor_iff.mpr ⟨hevent, rfl⟩))
      obtain rfl := Option.some.inj (hretried.symm.trans hresult)
      exact decide_eq_true (hretryable.mp rfl)
  · intro hread
    refine ⟨hs.keys, ?_, ?_⟩
    · intro other results' hother hpublish event hevent outcome hmem hmem'
      obtain ⟨results'', hpublish', hs'⟩ := exists_publish js hids hother
      obtain rfl := Option.some.inj (hpublish'.symm.trans hpublish)
      rw [get?_results hs hevent hmem, get?_results hs' hevent hmem']
    · intro event hevent outcome statusCode hmem hstatus hnot
      obtain ⟨result, hresult, hfails, hretryable⟩ := get?_batchResults_of_refused js
        (nodup_eventsFor hids event.destinationUrl)
        (List.mem_map_of_mem (mem_eventsFor_iff.mpr ⟨hevent, rfl⟩)) hstatus hnot
      refine ⟨result, (get?_results hs hevent hmem).trans hresult, hfails, ?_⟩
      rw [hretryable]
      constructor
      · intro hcase
        rcases hcase with hcase | ⟨error, rfl⟩
        · exact of_decide_eq_true hcase
        · exact of_decide_eq_true ((hread _ _ _ hmem).resolve_left hnot)
      · exact fun hcase => Or.inl (decide_eq_true hcase)

/-- `publish` makes one request for each destination and returns one result
for each event, up to two exceptions: headers under another spelling, and
bodies that are not read. -/
theorem publishesBatch_iff (publisher : HttpPublisher) (js : JsonRuntime)
    (events : List OutboxEvent) (settled : List (String × RequestOutcome))
    (hids : (events.map OutboxEvent.id).Nodup) (hsettles : Settles events settled) :
    PublishesBatch publisher js events settled ↔ HeadersAgree events ∧ BodiesRead settled := by
  obtain ⟨results, hpublish, hs⟩ := exists_publish js hids hsettles
  rw [PublishesBatch, requestsBatch_iff hids]
  constructor
  · intro h
    obtain ⟨hheaders, results', hpublish', hresults⟩ := h
    obtain rfl := Option.some.inj (hpublish'.symm.trans hpublish)
    exact ⟨hheaders, (resultsOf_iff hids hsettles hs).mp hresults⟩
  · intro h
    exact ⟨h.1, results, hpublish, (resultsOf_iff hids hsettles hs).mpr h.2⟩

namespace Sample

/-- `JSON.parse` of an empty object. -/
def runtime : JsonRuntime where
  parse text := if text = "{}" then some (.obj []) else none
  numberText n := toString n

def posted (id : EventId) (destinationUrl : String) (headers : Json) : OutboxEvent :=
  InsertValues.row
    { aggregateType := "order"
      aggregateId := "1"
      eventType := "created"
      eventVersion := 1
      payload := .null
      headers
      destinationUrl
      destinationType := .http
      idempotencyKey := none
      maxRetries := 5
      metadata := .obj [] } id 0

/-- Three events for two destinations. -/
def batch : List OutboxEvent :=
  [posted "1" "http://a" .null, posted "2" "http://b" (.obj [("x-correlation-id", .str "7")]),
    posted "3" "http://a" .null]

/-- The second destination answers first, and refuses its event. -/
def outcomes : List (String × RequestOutcome) :=
  [("http://b", .answer 404 "Not Found"), ("http://a", .answer 200 "{}")]

/-- An event that forwards a size, as an event made from a received request
does. -/
def forwarded : List OutboxEvent :=
  [posted "1" "http://a" (.obj [("x-outbox-batch-size", .str "99")])]

def answered : List (String × RequestOutcome) := [("http://a", .answer 200 "{}")]

def single : List OutboxEvent := [posted "1" "http://a" .null]

/-- The connection breaks in the body of an answer. -/
def cut : List (String × RequestOutcome) :=
  [("http://a", .bodyError 404 (.truthy (some (.text "other side closed"))))]

end Sample

/-- A batch for two destinations, one of which refuses its event. -/
theorem publishesBatch_refused :
    PublishesBatch ⟨{}⟩ Sample.runtime Sample.batch Sample.outcomes := by
  refine (publishesBatch_iff ⟨{}⟩ Sample.runtime Sample.batch Sample.outcomes (by decide)
    ⟨by decide, fun url => ?_⟩).mpr ⟨fun url first hfirst => ?_, fun url statusCode error h => ?_⟩
  · have hsame : ∀ a b : Prop, a ∨ b ↔ b ∨ a ∨ b := fun a b => by tauto
    simpa [Sample.outcomes, Sample.batch, Sample.posted, InsertValues.row] using hsame _ _
  · have hmem := (mem_eventsFor_iff.mp (List.mem_of_head? hfirst)).1
    have hplain : ∀ event ∈ Sample.batch, ∀ field ∈
        (extractForwardableHeaders event.headers).entries,
        toLowerCase field.1 = "x-correlation-id" := by decide
    constructor
    · intro field hfield hspells
      rw [hplain first hmem field hfield] at hspells
      exact absurd hspells (by decide)
    · intro field hfield hspells
      rw [hplain first hmem field hfield] at hspells
      exact absurd hspells (by decide)
  · simp [Sample.outcomes] at h

/-- A request can carry two sizes, and a refusal whose body breaks off is
retried. -/
theorem not_publishesBatch :
    (Settles Sample.forwarded Sample.answered ∧
      ¬PublishesBatch ⟨{}⟩ Sample.runtime Sample.forwarded Sample.answered) ∧
    (Settles Sample.single Sample.cut ∧
      ¬PublishesBatch ⟨{}⟩ Sample.runtime Sample.single Sample.cut) := by
  refine ⟨⟨⟨by decide, fun _ => Iff.rfl⟩, ?_⟩, ⟨⟨by decide, fun _ => Iff.rfl⟩, ?_⟩⟩
  · intro h
    have hrequest := h.1.size (HttpPublisher.request ⟨{}⟩ "http://a" Sample.forwarded)
      (List.mem_singleton_self _)
    rw [HttpRequest.Carries] at hrequest
    exact absurd hrequest (by decide)
  · intro h
    obtain ⟨-, results, hpublish, hresults⟩ := h
    obtain rfl := Option.some.inj hpublish
    obtain ⟨result, hresult, -, hretryable⟩ :=
      hresults.refused _ (List.mem_singleton_self _) _ 404 (List.mem_singleton_self _) rfl
        (by decide)
    obtain rfl := Option.some.inj hresult
    exact absurd (hretryable.mp rfl) (by decide)

end HttpPublisher

end Outboxy
