import Outboxy.Publisher.KafkaPublisher

/-!
# One send and one result

`publishesBatch_of_initialized` says what `publish` does with a batch: the
sends partition it by topic and keep its order, the events of one aggregate
have one key, and each event has the result of the send for its topic.
-/

namespace Outboxy

/-- The message of the event with this id. -/
def KafkaMessage.Carries (m : KafkaMessage) (id : EventId) : Prop :=
  ("x-outbox-event-id", id) ∈ m.headers

namespace KafkaPublisher

/-- A topic in the form of a URL is the topic. -/
def TopicsMerge : Prop :=
  ∀ topic, extractTopicFromUrl ("kafka://" ++ topic) = topic ∧
    (¬"kafka://".toList <+: topic.toList → extractTopicFromUrl topic = topic)

/-- The sends partition the batch by topic.  A message has the id of its
aggregate for a key, if that is not empty, and two events of one aggregate on
one topic are sent under one key in the order of the batch. -/
structure SendsBatch (events : List OutboxEvent) (sends : List KafkaSend) : Prop where
  nodup : (sends.map KafkaSend.topic).Nodup
  topics : ∀ topic, topic ∈ sends.map KafkaSend.topic ↔ topic ∈ events.map topicOf
  inOrder : ∀ s ∈ sends,
    s.messages = (events.filter fun event => topicOf event = s.topic).map message
  once : ∀ event ∈ events, ∃! s, s ∈ sends ∧ ∃ m ∈ s.messages, m.Carries event.id
  own : ∀ event ∈ events, ∀ s ∈ sends, (∃ m ∈ s.messages, m.Carries event.id) →
    s.topic = topicOf event
  keyed : ∀ event ∈ events, ∀ s ∈ sends, ∀ m ∈ s.messages, m.Carries event.id →
    m.key = if event.aggregateId = "" then none else some event.aggregateId
  perAggregate : ∀ first second, [first, second].Sublist events →
    topicOf first = topicOf second → first.aggregateId = second.aggregateId →
    ∃ s ∈ sends, s.topic = topicOf first ∧ ∃ m m', [m, m'].Sublist s.messages ∧
      m.Carries first.id ∧ m'.Carries second.id ∧ m.key = m'.key

/-- The results have the keys of the batch, and the result of an event depends
on the outcome of the send for its topic alone: it is retried after a failure
just when the error is retryable. -/
structure ResultsOf (publisher : KafkaPublisher) (events : List OutboxEvent)
    (settled : List (String × SendOutcome)) (results : OrderedMap EventId PublishResult) :
    Prop where
  keys : (results.entries.map Prod.fst).Perm (events.map OutboxEvent.id)
  isolated : ∀ other results', Fanout.Settles topicOf events other →
    publisher.publish events other = .ok (some results') →
    ∀ event ∈ events, ∀ outcome, (topicOf event, outcome) ∈ settled →
      (topicOf event, outcome) ∈ other → results.get? event.id = results'.get? event.id
  sent : ∀ event ∈ events, (topicOf event, .sent) ∈ settled →
    ∃ result, results.get? event.id = some result ∧ result.success = true
  failed : ∀ event ∈ events, ∀ error, (topicOf event, .failed error) ∈ settled →
    ∃ result, results.get? event.id = some result ∧ result.success = false ∧
      result.error = error.value ∧ result.retryable = isRetryableKafkaError error

/-- One send for each topic, and one result for each event. -/
def PublishesBatch (publisher : KafkaPublisher) (events : List OutboxEvent)
    (settled : List (String × SendOutcome)) : Prop :=
  TopicsMerge ∧
    (∃ sends, publisher.sends events = .ok sends ∧ SendsBatch events sends) ∧
    ∃ results, publisher.publish events settled = .ok (some results) ∧
      ResultsOf publisher events settled results

/-! ## Topics -/

theorem topicsMerge : TopicsMerge := by
  intro topic
  have hprefix : "kafka://".toList <+: ("kafka://" ++ topic).toList := by
    rw [String.toList_append]
    exact List.prefix_append _ _
  refine ⟨?_, fun hnot => if_neg hnot⟩
  rw [extractTopicFromUrl, if_pos hprefix, String.toList_append]
  show String.ofList topic.toList = topic
  exact String.ofList_toList

/-! ## Sends -/

variable {publisher : KafkaPublisher} {events : List OutboxEvent} {event : OutboxEvent}
  {topic : String} {id : EventId}

/-- The events for a topic. -/
abbrev topicEvents (events : List OutboxEvent) (topic : String) : List OutboxEvent :=
  Fanout.groupOf topicOf events topic

theorem message_carries_iff : (message event).Carries id ↔ event.id = id := by
  show ("x-outbox-event-id", id) ∈ [("x-outbox-event-id", event.id),
    ("x-outbox-event-type", event.eventType), ("x-outbox-aggregate-type", event.aggregateType)] ↔ _
  simp [eq_comm]

theorem key_message (event : OutboxEvent) :
    (message event).key = if event.aggregateId = "" then none else some event.aggregateId := rfl

/-- The sends of a batch: one for each topic, with its events. -/
def sendsOf (publisher : KafkaPublisher) (events : List OutboxEvent) : List KafkaSend :=
  (groupByTopic events).entries.map fun group => publisher.send group.1 group.2

theorem mem_sendsOf_iff {s : KafkaSend} :
    s ∈ publisher.sendsOf events ↔
      ∃ topic ∈ events.map topicOf, publisher.send topic (topicEvents events topic) = s := by
  rw [sendsOf, List.mem_map]
  constructor
  · intro hs
    obtain ⟨⟨topic, group⟩, hgroup, rfl⟩ := hs
    obtain ⟨htopic, rfl⟩ := (OrderedMap.mem_entries_groupBy_iff _).mp hgroup
    exact ⟨topic, htopic, rfl⟩
  · intro hs
    obtain ⟨topic, htopic, rfl⟩ := hs
    exact ⟨(topic, topicEvents events topic),
      (OrderedMap.mem_entries_groupBy_iff _).mpr ⟨htopic, rfl⟩, rfl⟩

/-- The send for the topic of an event. -/
theorem send_mem_sendsOf (publisher : KafkaPublisher) (hevent : event ∈ events) :
    publisher.send (topicOf event) (topicEvents events (topicOf event)) ∈
      publisher.sendsOf events :=
  mem_sendsOf_iff.mpr ⟨_, List.mem_map_of_mem hevent, rfl⟩

/-- The message of a send that has the id of an event is the message of this
event, and the send is the one for its topic. -/
theorem eq_message_of_carries (hids : (events.map OutboxEvent.id).Nodup) (hevent : event ∈ events)
    {m : KafkaMessage} (hm : m ∈ (publisher.send topic (topicEvents events topic)).messages)
    (hid : m.Carries event.id) : m = message event ∧ topic = topicOf event := by
  obtain ⟨found, hfound, rfl⟩ := List.mem_map.mp hm
  obtain ⟨hmem, rfl⟩ := Fanout.mem_groupOf_iff.mp hfound
  obtain rfl := List.inj_on_of_nodup_map hids hmem hevent (message_carries_iff.mp hid)
  exact ⟨rfl, rfl⟩

theorem sendsBatch (publisher : KafkaPublisher) (hids : (events.map OutboxEvent.id).Nodup) :
    SendsBatch events (publisher.sendsOf events) := by
  have htopics : (publisher.sendsOf events).map KafkaSend.topic =
      (groupByTopic events).entries.map Prod.fst := by
    rw [sendsOf, List.map_map]
    rfl
  have hcarried : ∀ event ∈ events,
      ∃ m ∈ (publisher.send (topicOf event) (topicEvents events (topicOf event))).messages,
        m.Carries event.id := by
    intro event hevent
    exact ⟨message event, List.mem_map_of_mem (Fanout.mem_groupOf_iff.mpr ⟨hevent, rfl⟩),
      message_carries_iff.mpr rfl⟩
  refine ⟨?_, ?_, ?_, ?_, ?_, ?_, ?_⟩
  · rw [htopics]
    exact OrderedMap.nodup_keys_groupBy _ events
  · intro topic
    rw [List.mem_map]
    constructor
    · intro h
      obtain ⟨s, hs, rfl⟩ := h
      obtain ⟨topic, htopic, rfl⟩ := mem_sendsOf_iff.mp hs
      exact htopic
    · intro htopic
      exact ⟨_, mem_sendsOf_iff.mpr ⟨topic, htopic, rfl⟩, rfl⟩
  · intro s hs
    obtain ⟨topic, -, rfl⟩ := mem_sendsOf_iff.mp hs
    rfl
  · intro event hevent
    refine ⟨_, ⟨send_mem_sendsOf publisher hevent, hcarried event hevent⟩, fun s hs => ?_⟩
    obtain ⟨hs, m, hm, hid⟩ := hs
    obtain ⟨topic, -, rfl⟩ := mem_sendsOf_iff.mp hs
    obtain ⟨-, rfl⟩ := eq_message_of_carries hids hevent hm hid
    rfl
  · intro event hevent s hs hm
    obtain ⟨m, hm, hid⟩ := hm
    obtain ⟨topic, -, rfl⟩ := mem_sendsOf_iff.mp hs
    exact (eq_message_of_carries hids hevent hm hid).2
  · intro event hevent s hs m hm hid
    obtain ⟨topic, -, rfl⟩ := mem_sendsOf_iff.mp hs
    rw [(eq_message_of_carries hids hevent hm hid).1, key_message]
  · intro first second hsublist htopic haggregate
    have hfirst : first ∈ events := hsublist.subset List.mem_cons_self
    refine ⟨_, send_mem_sendsOf publisher hfirst, rfl, message first, message second, ?_,
      message_carries_iff.mpr rfl, message_carries_iff.mpr rfl, ?_⟩
    · have hgroup := (hsublist.filter fun event => topicOf event = topicOf first).map message
      rwa [List.filter_eq_self.mpr (by simp [htopic])] at hgroup
    · rw [key_message, key_message, haggregate]

/-! ## Results -/

theorem keyedBy_topicResults : Fanout.KeyedBy topicResults OutboxEvent.id := by
  intro group outcome hnodup
  rw [topicResults, OrderedMap.entries_ofList _ hnodup, List.map_map]
  rfl

/-- An event has the result of the send for its topic. -/
theorem get?_topicResults (hids : (events.map OutboxEvent.id).Nodup) (hevent : event ∈ events)
    (outcome : SendOutcome) :
    (topicResults (topicEvents events (topicOf event)) outcome).get? event.id =
      some (sendResult outcome) :=
  OrderedMap.get?_ofList (fun _ => sendResult outcome) (Fanout.nodup_groupOf _ hids _)
    (Fanout.mem_groupOf_iff.mpr ⟨hevent, rfl⟩)

/-- With a producer, `publish` sends a batch by topic and returns one result
for each event. -/
theorem publishesBatch_of_initialized (publisher : KafkaPublisher) (events : List OutboxEvent)
    (settled : List (String × SendOutcome)) (hproducer : publisher.producer = true)
    (hids : (events.map OutboxEvent.id).Nodup)
    (hsettles : Fanout.Settles topicOf events settled) :
    PublishesBatch publisher events settled := by
  have hrequire : publisher.requireProducer = .ok () := if_pos hproducer
  have hpublish : ∀ settled, publisher.publish events settled =
      .ok (Fanout.gather topicOf topicResults events settled) := by
    intro settled
    rw [publish, hrequire]
    rfl
  obtain ⟨results, hgather, hresults⟩ := Fanout.exists_gather hids keyedBy_topicResults hsettles
  have hget : ∀ event ∈ events, ∀ outcome, (topicOf event, outcome) ∈ settled →
      results.get? event.id = some (sendResult outcome) := by
    intro event hevent outcome hmem
    rw [hresults.get? event hevent outcome hmem]
    exact get?_topicResults hids hevent outcome
  refine ⟨topicsMerge, ⟨_, by rw [sends, hrequire]; rfl, sendsBatch publisher hids⟩, results,
    by rw [hpublish, hgather], hresults.keys, ?_, ?_, ?_⟩
  · intro other results' hother hreturns event hevent outcome hmem hmem'
    obtain ⟨results'', hgather', hresults'⟩ :=
      Fanout.exists_gather hids keyedBy_topicResults hother
    rw [hpublish, hgather'] at hreturns
    obtain rfl := Option.some.inj (Except.ok.inj hreturns)
    rw [hget event hevent outcome hmem, hresults'.get? event hevent outcome hmem']
    exact (get?_topicResults hids hevent outcome).symm
  · exact fun event hevent hmem => ⟨_, hget event hevent _ hmem, rfl⟩
  · exact fun event hevent error hmem => ⟨_, hget event hevent _ hmem, rfl, rfl, rfl⟩

namespace Sample

def initialized : KafkaPublisher := ⟨{ brokers := "localhost:9092" }, true⟩

def sent (id : EventId) (aggregateId destinationUrl : String) : OutboxEvent :=
  InsertValues.row
    { aggregateType := "order"
      aggregateId
      eventType := "created"
      eventVersion := 1
      payload := .null
      headers := .obj []
      destinationUrl
      destinationType := .kafka
      idempotencyKey := none
      maxRetries := 5
      metadata := .obj [] } id 0

/-- Two events for one topic, and one for another. -/
def batch : List OutboxEvent :=
  [sent "1" "7" "kafka://orders", sent "2" "7" "bills", sent "3" "7" "orders"]

/-- The second topic is refused. -/
def outcomes : List (String × SendOutcome) :=
  [("bills", .failed (.error "Topic authorization failed")), ("orders", .sent)]

end Sample

/-- A batch for two topics, one of which is refused. -/
theorem publishesBatch_unauthorized :
    PublishesBatch Sample.initialized Sample.batch Sample.outcomes := by
  have htopics : Sample.batch.map topicOf = ["orders", "bills", "orders"] := by decide
  refine publishesBatch_of_initialized Sample.initialized Sample.batch Sample.outcomes rfl
    (by decide) ⟨by decide, fun topic => ?_⟩
  rw [htopics]
  show topic ∈ ["bills", "orders"] ↔ _
  simp only [List.mem_cons, List.not_mem_nil, or_false]
  tauto

end KafkaPublisher

end Outboxy
