import Outboxy.Library.Transition
import Outboxy.Text
import Outboxy.Worker

/-!
# The HTTP publisher

`HttpPublisher.publish` groups a batch by destination, makes one request for
each destination and merges what each request leads to into one map.  All
requests are made before the first one settles, and they settle in any order.

The value of a response body is what `JSON.parse` makes of it, a parameter
here.  How long a request takes is left out.
-/

namespace Outboxy

open Transition

/-! ## Values of the language -/

/-- What the publisher uses of the language: `JSON.parse`, which throws for a
text that is not JSON, and the text of a number. -/
structure JsonRuntime where
  parse : String → Option Json
  numberText : ℚ → String

namespace Json

/-- The value as a condition. -/
def truthy : Json → Bool
  | .null => false
  | .bool value => value
  | .num value => decide (value ≠ 0)
  | .str value => decide (value ≠ "")
  | .arr _ | .obj _ => true

/-- `value[name]`.  The names that are asked for are those of
`parseIndividualResults` and event ids, which are UUIDs: only an object can
have such a member. -/
def member? (name : String) : Json → Option Json
  | .obj members => members.lookup name
  | _ => none

mutual

/-- `String(value)`.  It throws for an object with a member `toString`, which
is not a function. -/
def toText (js : JsonRuntime) : Json → Option String
  | .null => some "null"
  | .bool value => some (toString value)
  | .num value => some (js.numberText value)
  | .str value => some value
  | .arr items => (itemTexts js items).map (String.intercalate ",")
  | .obj members => if (members.lookup "toString").isSome then none else some "[object Object]"

/-- The texts that `join` puts together: `null` has none. -/
def itemTexts (js : JsonRuntime) : List Json → Option (List String)
  | [] => some []
  | .null :: items => (itemTexts js items).map ("" :: ·)
  | item :: items => do return (← toText js item) :: (← itemTexts js items)

end

end Json

/-! ## Requests -/

structure HttpPublisherConfig where
  timeoutMs : Nat := 30000
  userAgent : String := "Outboxy-Worker/1.0"

structure HttpPublisher where
  config : HttpPublisherConfig

/-- One event in the body of a request. -/
structure PayloadEvent where
  eventId : EventId
  eventType : String
  aggregateType : String
  aggregateId : String
  payload : Json
  createdAt : Int

/-- The object whose JSON text is the body of a request. -/
structure BatchPayload where
  batch : Bool
  count : Nat
  events : List PayloadEvent

/-- A call of `request`. -/
structure HttpRequest where
  url : String
  method : String
  headers : OrderedMap String String
  body : BatchPayload
  bodyTimeout : Nat
  headersTimeout : Nat

/-- How a request ends: with a status and a body, with a status and an error
while its body is read, or with an error before that. -/
inductive RequestOutcome where
  | answer (statusCode : Nat) (responseBody : String)
  | bodyError (statusCode : Nat) (error : ErrorValue)
  | requestError (error : ErrorValue)

namespace HttpPublisher

def BLOCKED_HEADERS : List String :=
  -- Transport and framing, then credentials, then proxies and forwarding.
  ["host", "content-length", "content-type", "transfer-encoding", "connection", "user-agent",
    "authorization", "cookie", "proxy-authorization",
    "x-forwarded-for", "x-forwarded-host", "x-forwarded-proto", "x-real-ip"]

/-- A member of the headers of an event that is forwarded.  An assignment of a
text to `__proto__` has no effect. -/
def forwardable : String × Json → Option (String × String)
  | (key, .str value) =>
    if toLowerCase key ∈ BLOCKED_HEADERS ∨ key = "__proto__" then none else some (key, value)
  | _ => none

def extractForwardableHeaders : Json → OrderedMap String String
  | .obj members => OrderedMap.ofList Prod.fst Prod.snd (members.filterMap forwardable)
  | _ => .empty

def groupByDestination (events : List OutboxEvent) : OrderedMap String (List OutboxEvent) :=
  OrderedMap.groupBy OutboxEvent.destinationUrl events

/-- The event in the body. -/
def payloadEvent (event : OutboxEvent) : PayloadEvent where
  eventId := event.id
  eventType := event.eventType
  aggregateType := event.aggregateType
  aggregateId := event.aggregateId
  payload := event.payload
  createdAt := event.createdAt

/-- The headers that the publisher sets on a request. -/
def systemHeaders (publisher : HttpPublisher) (events : List OutboxEvent) :
    List (String × String) :=
  [("Content-Type", "application/json"),
    ("User-Agent", publisher.config.userAgent),
    ("X-Outbox-Batch", "true"),
    ("X-Outbox-Batch-Size", toString events.length),
    ("X-Outbox-Event-IDs", String.intercalate "," (events.map OutboxEvent.id))]

/-- The request of `publishToDestination`.  The headers that are forwarded are
those of the first event. -/
def request (publisher : HttpPublisher) (destinationUrl : String) (events : List OutboxEvent) :
    HttpRequest where
  url := destinationUrl
  method := "POST"
  headers :=
    (events.head?.elim .empty fun event => extractForwardableHeaders event.headers).setAll
      (publisher.systemHeaders events)
  body := { batch := true, count := events.length, events := events.map payloadEvent }
  bodyTimeout := publisher.config.timeoutMs
  headersTimeout := publisher.config.timeoutMs

/-- The requests that `publish` makes. -/
def requests (publisher : HttpPublisher) (events : List OutboxEvent) : List HttpRequest :=
  (groupByDestination events).entries.map fun group => publisher.request group.1 group.2

/-! ## Results

Each result has the duration of its request as `durationMs`. -/

def buildUniformResults (eventIds : List EventId) (result : PublishResult) :
    OrderedMap EventId PublishResult :=
  OrderedMap.ofList id (fun _ => result) eventIds

/-- The result of an event that was delivered. -/
def delivered : PublishResult where
  success := true
  error := .nullish
  retryable := false
  durationMs := some .elapsed

/-- The result of one event in the loop of `parseIndividualResults`, which
may throw.  The worker reads `retryable` as a condition. -/
def individualResult (js : JsonRuntime) (results : Json) (eventId : EventId) :
    Option PublishResult :=
  match (results.member? eventId).filter Json.truthy with
  | none => some delivered
  | some eventResult =>
    if (eventResult.member? "success").any Json.truthy then some delivered
    else do
      let message ← match (eventResult.member? "error").filter Json.truthy with
        | none => some "Unknown error"
        | some error => error.toText js
      let retryable := match eventResult.member? "retryable" with
        | none | some .null => true
        | some value => value.truthy
      let error := ErrorValue.truthy (some (.text message))
      return { success := false, error, retryable, durationMs := some .elapsed }

/-- The results that the body has for the events.  There are none if the body
has no object of results, or if something throws. -/
def parseIndividualResults (js : JsonRuntime) (responseBody : String) (eventIds : List EventId) :
    Option (OrderedMap EventId PublishResult) := do
  let parsed ← js.parse responseBody
  let results ← parsed.member? "results"
  match results with
  | .obj _ | .arr _ =>
    let entries ← eventIds.mapM fun eventId =>
      (individualResult js results eventId).map fun result => (eventId, result)
    return OrderedMap.ofList Prod.fst Prod.snd entries
  | _ => none

/-- `retryable` of an answer that is not a success. -/
def retryableStatus (statusCode : Nat) : Bool :=
  decide (500 ≤ statusCode ∨ statusCode = 408 ∨ statusCode = 429)

/-- The results of `publishToDestination`, once its request has settled. -/
def batchResults (js : JsonRuntime) (eventIds : List EventId) :
    RequestOutcome → OrderedMap EventId PublishResult
  | .answer statusCode responseBody =>
    if 200 ≤ statusCode ∧ statusCode < 300 then
      (parseIndividualResults js responseBody eventIds).getD
        (buildUniformResults eventIds delivered)
    else
      buildUniformResults eventIds
        { success := false
          error := .truthy (some (.text ("HTTP " ++ toString statusCode)))
          retryable := retryableStatus statusCode
          durationMs := some .elapsed }
  | .bodyError _ error | .requestError error =>
    buildUniformResults eventIds
      { success := false, error, retryable := true, durationMs := some .elapsed }

/-! ## The batch -/

/-- A `publish` in progress: the destinations whose requests have not settled,
with their events, and the results so far. -/
structure Publishing where
  inFlight : List (String × List OutboxEvent)
  results : OrderedMap EventId PublishResult

/-- The request to a destination settles. -/
def Publishing.settle (js : JsonRuntime) (s : Publishing) (settled : String × RequestOutcome) :
    Option Publishing :=
  (s.inFlight.lookup settled.1).map fun events =>
    { inFlight := s.inFlight.filter fun group => group.1 ≠ settled.1
      results := s.results.setAll
        (batchResults js (events.map OutboxEvent.id) settled.2).entries }

/-- The call with all its requests made. -/
def Publishing.start (events : List OutboxEvent) : Publishing where
  inFlight := (groupByDestination events).entries
  results := .empty

/-- `publish(events)` while its requests settle. -/
def publishing (js : JsonRuntime) (events : List OutboxEvent) :
    System Publishing (String × RequestOutcome) where
  init s := s = .start events
  step := Publishing.settle js

/-- What `publish` returns when its requests have settled in this order. -/
def publish (js : JsonRuntime) (events : List OutboxEvent)
    (settled : List (String × RequestOutcome)) : Option (OrderedMap EventId PublishResult) :=
  ((publishing js events).run (.start events) settled).bind fun s =>
    if s.inFlight.isEmpty then some s.results else none

end HttpPublisher

end Outboxy
