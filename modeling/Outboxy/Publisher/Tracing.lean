import Outboxy.Publisher.HttpDelivery
import Outboxy.Publisher.KafkaPublisher

/-!
# Tracing

`wrapPublisher` puts a span around the `publish` of any publisher.  The span
continues the trace that the SDK has stored in the headers of the first event.
The trace headers of all events are then taken off, since the request gets a
new one from the instrumentation, and two of them are invalid.

`delivers_stripped` says that nothing else changes: the requests are the same up
to the trace headers, and so are the results in whatever order they settle.
What the span is used for, and how a context is read from headers, is left out.
-/

namespace Outboxy

/-! ## The code -/

def TRACE_HEADERS : List String := ["traceparent", "tracestate"]

def isTraceHeader (key : String) : Bool := decide (toLowerCase key ∈ TRACE_HEADERS)

/-- The headers without those of a trace.  Where there are none, the object
stays; a new one is filled by assignments, and one to `__proto__` adds no
member. -/
def stripHeaders : Json → Json
  | .obj members =>
    if members.any fun member => isTraceHeader member.1 then
      .obj (members.filter fun member => !isTraceHeader member.1 && member.1 != "__proto__")
    else .obj members
  | headers => headers

def stripEvent (event : OutboxEvent) : OutboxEvent :=
  { event with headers := stripHeaders event.headers }

def stripTraceHeaders (events : List OutboxEvent) : List OutboxEvent := events.map stripEvent

/-- A span with its attributes.  `parent` are the headers from which its
context is read, if not the active one. -/
structure Span (ε : Type) where
  name : String
  batchSize : Nat
  destinationUrl : String
  eventTypes : String
  parent : Option Json
  error : Option ε

/-- `extractStoredContext` -/
def extractStoredContext (event : OutboxEvent) : Option Json :=
  match event.headers with
  | .obj members => some (.obj members)
  | _ => none

/-- The wrapped `publish`, with the span that it has ended. -/
def wrapPublisher {ε β : Type} (publish : List OutboxEvent → Except ε β) :
    List OutboxEvent → Except ε β × Option (Span ε)
  | [] => (publish [], none)
  | first :: events =>
    let eventTypes := String.intercalate ","
      ((first :: events).map OutboxEvent.eventType).eraseDups
    let outcome := publish (stripTraceHeaders (first :: events))
    (outcome, some
      { name := "outbox.deliver " ++ eventTypes
        batchSize := (first :: events).length
        destinationUrl := first.destinationUrl
        eventTypes := eventTypes
        parent := extractStoredContext first
        error := match outcome with
          | .ok _ => none
          | .error error => some error })

theorem wrapPublisher_fst {ε β : Type} (publish : List OutboxEvent → Except ε β)
    (events : List OutboxEvent) :
    (wrapPublisher publish events).1 = publish (stripTraceHeaders events) := by
  cases events <;> rfl

/-! ## The requests -/

namespace HttpPublisher

/-- The request without the headers of a trace. -/
def withoutTrace (r : HttpRequest) : HttpRequest :=
  { r with headers := r.headers.filterKeys fun key => !isTraceHeader key }

theorem key_of_forwardable {member : String × Json} {field : String × String}
    (h : forwardable member = some field) : field.1 = member.1 ∧ member.1 ≠ "__proto__" := by
  obtain ⟨key, value⟩ := member
  cases value with
  | str text =>
    rw [forwardable] at h
    split at h
    · exact absurd h (by simp)
    · next hnot =>
      obtain rfl := Option.some.inj h
      exact ⟨rfl, fun hproto => hnot (.inr hproto)⟩
  | _ => exact absurd h (by simp [forwardable])

/-- What is taken off is not forwarded, except for the headers of a trace. -/
theorem filterMap_forwardable (members : List (String × Json)) :
    (members.filter fun member => !isTraceHeader member.1 && member.1 != "__proto__").filterMap
        forwardable =
      (members.filterMap forwardable).filter fun field => !isTraceHeader field.1 := by
  induction members with
  | nil => rfl
  | cons member members ih =>
    rw [List.filter_cons, List.filterMap_cons]
    cases hforward : forwardable member with
    | none =>
      dsimp only
      split
      · rw [List.filterMap_cons, hforward]
        exact ih
      · exact ih
    | some field =>
      obtain ⟨hfield, hproto⟩ := key_of_forwardable hforward
      dsimp only
      rw [List.filter_cons, hfield, bne_iff_ne.mpr hproto, Bool.and_true]
      split
      · rw [List.filterMap_cons, hforward, ih]
      · exact ih

/-- The headers that are forwarded lack those of a trace, and no others. -/
theorem extractForwardableHeaders_stripHeaders (headers : Json) :
    extractForwardableHeaders (stripHeaders headers) =
      (extractForwardableHeaders headers).filterKeys fun key => !isTraceHeader key := by
  cases headers with
  | obj members =>
    rw [stripHeaders]
    split
    · rw [extractForwardableHeaders, extractForwardableHeaders, filterMap_forwardable,
        OrderedMap.filterKeys_ofList]
    · next hnone =>
      have hkept : ((members.filterMap forwardable).filter fun field => !isTraceHeader field.1) =
          members.filterMap forwardable := by
        refine List.filter_eq_self.mpr fun field hfield => ?_
        obtain ⟨member, hmember, hforward⟩ := List.mem_filterMap.mp hfield
        rw [(key_of_forwardable hforward).1]
        cases htrace : isTraceHeader member.1 with
        | false => rfl
        | true => exact absurd (List.any_eq_true.mpr ⟨member, hmember, htrace⟩) hnone
      rw [extractForwardableHeaders, OrderedMap.filterKeys_ofList, hkept]
  | _ => rfl

theorem systemHeaders_stripTraceHeaders (publisher : HttpPublisher) (group : List OutboxEvent) :
    publisher.systemHeaders (stripTraceHeaders group) = publisher.systemHeaders group := by
  have hids : (stripTraceHeaders group).map OutboxEvent.id = group.map OutboxEvent.id := by
    rw [stripTraceHeaders, List.map_map]
    rfl
  rw [systemHeaders, systemHeaders, hids, stripTraceHeaders, List.length_map]

/-- No header of the publisher is one of a trace. -/
theorem not_isTraceHeader_of_system {publisher : HttpPublisher} {group : List OutboxEvent}
    {field : String × String} (h : field ∈ publisher.systemHeaders group) :
    isTraceHeader field.1 = false := by
  have hnames : ∀ name ∈ (publisher.systemHeaders group).map Prod.fst,
      isTraceHeader name = false := by
    show ∀ name ∈ ["Content-Type", "User-Agent", "X-Outbox-Batch", "X-Outbox-Batch-Size",
      "X-Outbox-Event-IDs"], _
    decide
  exact hnames field.1 (List.mem_map_of_mem h)

theorem headers_request (publisher : HttpPublisher) (url : String) (group : List OutboxEvent) :
    (publisher.request url group).headers =
      (group.head?.elim .empty fun event => extractForwardableHeaders event.headers).setAll
        (publisher.systemHeaders group) := by
  rw [request]

theorem body_request (publisher : HttpPublisher) (url : String) (group : List OutboxEvent) :
    (publisher.request url group).body = ⟨true, group.length, group.map payloadEvent⟩ := by
  rw [request]

theorem headers_request_stripTraceHeaders (publisher : HttpPublisher) (url : String)
    (group : List OutboxEvent) :
    (publisher.request url (stripTraceHeaders group)).headers =
      (publisher.request url group).headers.filterKeys fun key => !isTraceHeader key := by
  have hsystem : ∀ field ∈ publisher.systemHeaders group, (!isTraceHeader field.1) = true := by
    intro field hfield
    rw [not_isTraceHeader_of_system hfield]
    rfl
  rw [headers_request, headers_request, systemHeaders_stripTraceHeaders,
    OrderedMap.filterKeys_setAll hsystem]
  refine congrArg (OrderedMap.setAll · _) ?_
  cases group with
  | nil => rfl
  | cons first group => exact extractForwardableHeaders_stripHeaders first.headers

theorem body_request_stripTraceHeaders (publisher : HttpPublisher) (url : String)
    (group : List OutboxEvent) :
    (publisher.request url (stripTraceHeaders group)).body =
      (publisher.request url group).body := by
  have hevents : (stripTraceHeaders group).map payloadEvent = group.map payloadEvent := by
    rw [stripTraceHeaders, List.map_map]
    rfl
  rw [body_request, body_request, hevents, stripTraceHeaders, List.length_map]

theorem request_stripTraceHeaders (publisher : HttpPublisher) (url : String)
    (group : List OutboxEvent) :
    publisher.request url (stripTraceHeaders group) =
      withoutTrace (publisher.request url group) := by
  have hheaders := headers_request_stripTraceHeaders publisher url group
  have hbody := body_request_stripTraceHeaders publisher url group
  rw [withoutTrace, ← hheaders]
  rw [body_request, body_request] at hbody
  simp only [request, hbody]

/-- The requests of a wrapped publisher are those of the plain one, without the
headers of a trace. -/
theorem requests_stripTraceHeaders (publisher : HttpPublisher) (events : List OutboxEvent) :
    publisher.requests (stripTraceHeaders events) =
      (publisher.requests events).map withoutTrace := by
  have hdestination : ∀ event, (stripEvent event).destinationUrl = event.destinationUrl :=
    fun _ => rfl
  unfold requests groupByDestination
  rw [stripTraceHeaders, OrderedMap.entries_groupBy_map hdestination, List.map_map, List.map_map]
  exact List.map_congr_left fun group _ => request_stripTraceHeaders publisher group.1 group.2

theorem publish_stripTraceHeaders (js : JsonRuntime) (events : List OutboxEvent)
    (settled : List (String × RequestOutcome)) :
    publish js (stripTraceHeaders events) settled = publish js events settled := by
  rw [publish_eq_gather, publish_eq_gather]
  refine Fanout.gather_map (f := stripEvent) (fun _ => rfl) (fun group outcome => ?_) events settled
  rw [groupResults, List.map_map]
  rfl

end HttpPublisher

namespace KafkaPublisher

/-- Kafka gets no headers of the events. -/
theorem sends_stripTraceHeaders (publisher : KafkaPublisher) (events : List OutboxEvent) :
    publisher.sends (stripTraceHeaders events) = publisher.sends events := by
  have htopic : ∀ event, topicOf (stripEvent event) = topicOf event := fun _ => rfl
  unfold sends groupByTopic
  rw [stripTraceHeaders, OrderedMap.entries_groupBy_map htopic, List.map_map]
  refine congrArg _ (funext fun _ => congrArg pure ?_)
  refine List.map_congr_left fun group _ => ?_
  show KafkaSend.mk _ _ _ = KafkaSend.mk _ _ _
  rw [List.map_map]
  rfl

theorem publish_stripTraceHeaders (publisher : KafkaPublisher) (events : List OutboxEvent)
    (settled : List (String × SendOutcome)) :
    publisher.publish (stripTraceHeaders events) settled = publisher.publish events settled := by
  have hresults : ∀ group outcome,
      topicResults (group.map stripEvent) outcome = topicResults group outcome := by
    intro group outcome
    rw [topicResults, OrderedMap.ofList, List.foldl_map]
    rfl
  have htopic : ∀ event, topicOf (stripEvent event) = topicOf event := fun _ => rfl
  unfold publish
  rw [stripTraceHeaders, Fanout.gather_map htopic hresults]

end KafkaPublisher

/-! ## The wrapped publishers -/

/-- A wrapped publisher delivers what the plain one does. -/
structure DeliversStripped (events : List OutboxEvent) : Prop where
  requests : ∀ publisher : HttpPublisher, publisher.requests (stripTraceHeaders events) =
    (publisher.requests events).map HttpPublisher.withoutTrace
  /-- No request has a trace header of an event, in whatever spelling. -/
  untraced : ∀ publisher : HttpPublisher, ∀ r ∈ publisher.requests (stripTraceHeaders events),
    ∀ field ∈ r.headers.entries, toLowerCase field.1 ∉ TRACE_HEADERS
  httpResults : ∀ (js : JsonRuntime) (settled : List (String × RequestOutcome)),
    (wrapPublisher (fun events => (.ok (HttpPublisher.publish js events settled) :
      Except ErrorValue _)) events).1 = .ok (HttpPublisher.publish js events settled)
  sends : ∀ publisher : KafkaPublisher,
    publisher.sends (stripTraceHeaders events) = publisher.sends events
  kafkaResults : ∀ (publisher : KafkaPublisher) (settled : List (String × SendOutcome)),
    (wrapPublisher (publisher.publish · settled) events).1 = publisher.publish events settled

/-- Whatever a batch and its headers, the span around `publish` changes nothing
but the trace headers of the requests. -/
theorem delivers_stripped (events : List OutboxEvent) : DeliversStripped events where
  requests publisher := publisher.requests_stripTraceHeaders events
  untraced publisher r hr field hfield := by
    rw [publisher.requests_stripTraceHeaders] at hr
    obtain ⟨plain, _, rfl⟩ := List.mem_map.mp hr
    have hkept : (!isTraceHeader field.1) = true := (List.mem_filter.mp hfield).2
    intro htrace
    have htraced : isTraceHeader field.1 = true := decide_eq_true htrace
    rw [htraced] at hkept
    exact absurd hkept (by simp)
  httpResults js settled := by
    rw [wrapPublisher_fst, HttpPublisher.publish_stripTraceHeaders]
  sends publisher := publisher.sends_stripTraceHeaders events
  kafkaResults publisher settled := by
    rw [wrapPublisher_fst, KafkaPublisher.publish_stripTraceHeaders]

/-- A trace header goes, in whatever spelling; what is no text is not looked
at. -/
example : stripHeaders (.obj [("TraceParent", .num 1), ("x-tenant", .str "a")]) =
    .obj [("x-tenant", .str "a")] := by
  rfl

end Outboxy
