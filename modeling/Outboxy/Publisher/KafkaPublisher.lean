import Outboxy.Library.Fanout
import Outboxy.Publisher.HttpPublisher

/-!
# The Kafka publisher

`KafkaPublisher.publish` groups a batch by topic, makes one `send` for each
topic and merges what each `send` leads to into one map.  All are made before
the first one settles, and they settle in any order.

A message says where it goes by its key: messages with one key are for one
partition, in the order in which they are sent.
-/

namespace Outboxy

/-- `compressionType` of the configuration. -/
inductive CompressionType where
  | gzip
  | snappy
  | lz4
  | zstd
  | none

/-- The codecs of `kafkajs`. -/
inductive CompressionTypes where
  | None
  | GZIP
  | Snappy
  | LZ4
  | ZSTD

structure KafkaPublisherConfig where
  brokers : String
  clientId : String := "outboxy-publisher"
  compressionType : CompressionType := .gzip
  maxRetries : Nat := 3
  requestTimeoutMs : Nat := 30000

/-- The object whose JSON text is the value of a message. -/
structure KafkaValue where
  eventType : String
  aggregateType : String
  aggregateId : String
  payload : Json
  createdAt : Int

structure KafkaMessage where
  key : Option String
  value : KafkaValue
  headers : List (String × String)

/-- A call of `send`. -/
structure KafkaSend where
  topic : String
  compression : CompressionTypes
  messages : List KafkaMessage

/-- What `send` can throw: an `Error`, whose message is a text, or something
else. -/
inductive SendError where
  | error (message : String)
  | other (value : ErrorValue)

/-- The value that was thrown. -/
def SendError.value : SendError → ErrorValue
  | .error message => .truthy (some (.text message))
  | .other value => value

/-- How a `send` ends. -/
inductive SendOutcome where
  | sent
  | failed (error : SendError)

/-- `this.producer` is an object or `null`. -/
structure KafkaPublisher where
  config : KafkaPublisherConfig
  producer : Bool

namespace KafkaPublisher

/-- A prefix `kafka://` is taken off. -/
def extractTopicFromUrl (url : String) : String :=
  if "kafka://".toList <+: url.toList then String.ofList (url.toList.drop "kafka://".length)
  else url

def generatePartitionKey : Option String → Option String
  | none => none
  | some aggregateId => if aggregateId = "" then none else some aggregateId

def NON_RETRYABLE_PATTERNS : List String :=
  ["unknown topic", "invalid topic", "authorization failed", "authentication failed",
    "invalid message", "topic marked for deletion", "unsupported version"]

def isRetryableKafkaError : SendError → Bool
  | .other _ => false
  | .error message => !NON_RETRYABLE_PATTERNS.any (includes (toLowerCase message))

/-- The topic of an event. -/
def topicOf (event : OutboxEvent) : String := extractTopicFromUrl event.destinationUrl

def groupByTopic (events : List OutboxEvent) : OrderedMap String (List OutboxEvent) :=
  OrderedMap.groupBy topicOf events

def getCompressionType (publisher : KafkaPublisher) : CompressionTypes :=
  match publisher.config.compressionType with
  | .gzip => .GZIP
  | .snappy => .Snappy
  | .lz4 => .LZ4
  | .zstd => .ZSTD
  | .none => .None

/-- The message of an event. -/
def message (event : OutboxEvent) : KafkaMessage where
  key := generatePartitionKey (some event.aggregateId)
  value :=
    { eventType := event.eventType
      aggregateType := event.aggregateType
      aggregateId := event.aggregateId
      payload := event.payload
      createdAt := event.createdAt }
  headers :=
    [("x-outbox-event-id", event.id),
      ("x-outbox-event-type", event.eventType),
      ("x-outbox-aggregate-type", event.aggregateType)]

/-- The `send` for a topic. -/
def send (publisher : KafkaPublisher) (topic : String) (topicEvents : List OutboxEvent) :
    KafkaSend where
  topic
  compression := publisher.getCompressionType
  messages := topicEvents.map message

/-- There is no producer before `initialize` and after `shutdown`. -/
def requireProducer (publisher : KafkaPublisher) : Except String Unit :=
  if publisher.producer then .ok ()
  else .error "Kafka producer not initialized. Call initialize() first."

/-- The calls of `send` that `publish` makes. -/
def sends (publisher : KafkaPublisher) (events : List OutboxEvent) :
    Except String (List KafkaSend) := do
  publisher.requireProducer
  return (groupByTopic events).entries.map fun group => publisher.send group.1 group.2

/-- The result of each event of a `send`. -/
def sendResult : SendOutcome → PublishResult
  | .sent => { success := true, error := .nullish, retryable := false, durationMs := none }
  | .failed error =>
    { success := false
      error := error.value
      retryable := isRetryableKafkaError error
      durationMs := none }

/-- What a `send` puts into the results, once it has settled. -/
def topicResults (topicEvents : List OutboxEvent) (outcome : SendOutcome) :
    OrderedMap EventId PublishResult :=
  OrderedMap.ofList OutboxEvent.id (fun _ => sendResult outcome) topicEvents

/-- What `publish` returns when its sends have settled in this order. -/
def publish (publisher : KafkaPublisher) (events : List OutboxEvent)
    (settled : List (String × SendOutcome)) :
    Except String (Option (OrderedMap EventId PublishResult)) := do
  publisher.requireProducer
  return Fanout.gather topicOf topicResults events settled

end KafkaPublisher

end Outboxy
