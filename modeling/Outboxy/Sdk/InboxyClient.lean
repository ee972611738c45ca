import Outboxy.Sdk.OutboxyClient

/-!
# The inbox client

`InboxyClient` with the rows of `inbox_events` and the statements that the two
inbox dialects build.

* `receive` inserts one row unless its key is taken, and learns from the
  result of the statement whether it was.
* `receiveBatch` inserts slices of a list of events, each with one multi-row
  statement that skips taken keys, and then reads the rows back by their keys
  to see which ids are its own.

The table is indexed by `collate key`, where `collate` is how the column
compares texts.
-/

namespace Outboxy

/-! ## The inbox table -/

/-- The values that the CHECK constraint of the `status` column admits. -/
inductive InboxStatus where
  | processed
  | failed
deriving DecidableEq, Repr

/-- A row of `inbox_events`. -/
structure InboxEvent where
  id : EventId
  idempotencyKey : String
  source : Option String
  aggregateType : String
  aggregateId : String
  eventType : String
  eventVersion : Int
  payload : Json
  headers : Json
  metadata : Json
  status : InboxStatus
  error : Option String
  receivedAt : Int
  processedAt : Option Int

/-- The key of `idx_inbox_idempotency`. -/
def InboxEvent.index (collate : String → String) (row : InboxEvent) : Option String :=
  some (collate row.idempotencyKey)

/-- `inbox_events` with its primary key and its unique index. -/
abbrev InboxTable (collate : String → String) := Table InboxEvent.id (InboxEvent.index collate)

/-- How the databases compare keys: PostgreSQL exactly, MySQL under
`utf8mb4_unicode_ci`. -/
def Adapter.collate : Adapter → String → String
  | .postgres, key => key
  | .mysql, key => unicodeCi key

/-! ## Statements -/

variable {collate : String → String}

namespace PostgreSqlInboxDialect

/-- `INSERT ... ON CONFLICT (idempotency_key) DO NOTHING RETURNING id` -/
def buildInboxInsert (row : InboxEvent) (table : InboxTable collate) :
    Option (List QueryRow × InboxTable collate) :=
  match table.conflict row with
  | some _ => some ([], table)
  | none => (table.insert row).map fun table => ([⟨row.id, none⟩], table)

/-- The same statement with several rows, which are inserted in order. -/
def buildInboxBulkInsert :
    List InboxEvent → InboxTable collate → Option (List QueryRow × InboxTable collate)
  | [], table => some ([], table)
  | row :: rows, table =>
    (buildInboxInsert row table).bind fun first =>
      (buildInboxBulkInsert rows first.2).map fun rest => (first.1 ++ rest.1, rest.2)

end PostgreSqlInboxDialect

namespace MySqlInboxDialect

/-- `INSERT IGNORE`, which skips a row with a taken id or key. -/
def buildInboxInsert (row : InboxEvent) (table : InboxTable collate) :
    Mysql2Result × InboxTable collate :=
  match table.insert row with
  | some table => (.resultSetHeader 1, table)
  | none => (.resultSetHeader 0, table)

/-- The rows that remain of the same statement with several rows, and how many
of them it inserted. -/
def insertIgnore : List InboxEvent → InboxTable collate → Nat × InboxTable collate
  | [], table => (0, table)
  | row :: rows, table =>
    match table.insert row with
    | some table => (insertIgnore rows table).map (· + 1) id
    | none => insertIgnore rows table

def buildInboxBulkInsert (rows : List InboxEvent) (table : InboxTable collate) :
    Mysql2Result × InboxTable collate :=
  (insertIgnore rows table).map .resultSetHeader id

end MySqlInboxDialect

/-- `SELECT id, idempotency_key ... WHERE idempotency_key IN (keys)` -/
def findByIdempotencyKeys (keys : List String) (table : InboxTable collate) : List QueryRow :=
  (table.rows.filter fun row => decide (collate row.idempotencyKey ∈ keys.map collate)).map
    fun row => ⟨row.id, some row.idempotencyKey⟩

/-- `buildMarkFailed`, which both dialects write identically. -/
def buildMarkFailed (eventId : EventId) (error : String) : Update InboxEvent.id where
  guard row := decide (row.id = eventId)
  assign row := { row with status := .failed, error := some error }
  assign_pk _ := rfl

namespace Adapter

/-- The rows that the query function of the application's adapter returns for
`buildInboxInsert`. -/
def inboxInsert (a : Adapter) (row : InboxEvent) : Sdk (InboxTable collate) (List QueryRow) :=
  match a with
  | .postgres => query (PostgreSqlInboxDialect.buildInboxInsert row)
  | .mysql =>
    createMysql2Adapter <$> query fun table => some (MySqlInboxDialect.buildInboxInsert row table)

def inboxBulkInsert (a : Adapter) (rows : List InboxEvent) :
    Sdk (InboxTable collate) (List QueryRow) :=
  match a with
  | .postgres => query (PostgreSqlInboxDialect.buildInboxBulkInsert rows)
  | .mysql =>
    createMysql2Adapter <$>
      query fun table => some (MySqlInboxDialect.buildInboxBulkInsert rows table)

/-- `buildFindByIdempotencyKeys` refuses an empty list. -/
def inboxFind (a : Adapter) (keys : List String) : Sdk (InboxTable collate) (List QueryRow) :=
  if keys.isEmpty then
    throw (.unexpected "buildFindByIdempotencyKeys requires at least one key")
  else
    match a with
    | .postgres => query fun table => some (findByIdempotencyKeys keys table, table)
    | .mysql =>
      createMysql2Adapter <$>
        query fun table => some (.rows (findByIdempotencyKeys keys table), table)

/-- The parameters that one row of an inbox insert binds. -/
def inboxParameters (a : Adapter) : Nat := if a.supportsReturning then 10 else 11

end Adapter

/-- The limit that an inbox dialect puts on the parameters of a statement.  It
has room for one row. -/
structure InboxSqlDialect (a : Adapter) where
  maxParameters : Nat
  room : a.inboxParameters ≤ maxParameters

/-- `maxParameters` of both dialects. -/
def InboxSqlDialect.default (a : Adapter) : InboxSqlDialect a where
  maxParameters := 65535
  room := by cases a <;> decide

/-! ## The client -/

structure InboxReceiveEventInput where
  idempotencyKey : String
  aggregateType : String
  aggregateId : String
  eventType : String
  payload : JsValue
  source : Option String := none
  eventVersion : Option ℚ := none
  headers : Option JsValue := none
  metadata : Option JsValue := none

inductive ReceiveStatus where
  | processed
  | duplicate
deriving DecidableEq, Repr

structure InboxReceiveResult where
  eventId : Option EventId
  status : ReceiveStatus
deriving DecidableEq, Repr

structure InboxyConfig (a : Adapter) where
  dialect : InboxSqlDialect a
  defaultHeaders : Option JsValue := none
  defaultMetadata : Option JsValue := none

structure InboxyClient (a : Adapter) where
  dialect : InboxSqlDialect a
  defaultHeaders : JsValue
  defaultMetadata : JsValue

/-- An event with its defaults filled in. -/
structure ValidatedInboxEvent where
  idempotencyKey : String
  aggregateType : String
  aggregateId : String
  eventType : String
  eventVersion : Int
  payload : JsValue
  source : Option String
  headers : JsValue
  metadata : JsValue

/-- The row that an insert stores for an event.  Its values are bound in this
order, and the first that is not serializable throws. -/
def ValidatedInboxEvent.row (event : ValidatedInboxEvent) (stamp : Stamp) :
    Except SdkError InboxEvent := do
  let payload ← safeStringify event.payload "payload"
  let headers ← safeStringify event.headers "headers"
  let metadata ← safeStringify event.metadata "metadata"
  return {
    id := stamp.id
    idempotencyKey := event.idempotencyKey
    source := event.source
    aggregateType := event.aggregateType
    aggregateId := event.aggregateId
    eventType := event.eventType
    eventVersion := event.eventVersion
    payload := payload
    headers := headers
    metadata := metadata
    status := .processed
    error := none
    receivedAt := stamp.now
    processedAt := some stamp.now }

namespace InboxyClient

variable {a : Adapter}

/-- The constructor. -/
def create (config : InboxyConfig a) : InboxyClient a where
  dialect := config.dialect
  defaultHeaders := config.defaultHeaders.getD (.json (.obj []))
  defaultMetadata := config.defaultMetadata.getD (.json (.obj []))

/-- The checks that `receive` makes on its event, and `receiveBatch` on each
of its events.  `missing` is the text of the error for a missing key. -/
def validate (client : InboxyClient a) (missing : String) (event : InboxReceiveEventInput) :
    Except SdkError ValidatedInboxEvent := do
  if event.idempotencyKey = "" then .error (.validation missing "idempotencyKey")
  else
    validateIdempotencyKey event.idempotencyKey
    validateFields event.eventVersion
    return {
      idempotencyKey := event.idempotencyKey
      aggregateType := event.aggregateType
      aggregateId := event.aggregateId
      eventType := event.eventType
      -- An integer by now.
      eventVersion := (event.eventVersion.getD 1).num
      payload := event.payload
      source := event.source
      headers := event.headers.getD client.defaultHeaders
      metadata := event.metadata.getD client.defaultMetadata }

/-- `receive` after its checks. -/
def insertEvent (_client : InboxyClient a) (stamp : Stamp) (event : ValidatedInboxEvent) :
    Sdk (InboxTable collate) InboxReceiveResult := do
  let row ← event.row stamp
  let rows ← a.inboxInsert row
  if a.supportsReturning then
    match rows with
    | [] => return ⟨none, .duplicate⟩
    | row :: _ => return ⟨some row.id, .processed⟩
  else if rows.isEmpty then return ⟨some stamp.id, .duplicate⟩
  else return ⟨some stamp.id, .processed⟩

/-- The text of `receive` for an event without a key. -/
def missingIdempotencyKey : String := "idempotencyKey is required for inbox.receive()"

def receive (client : InboxyClient a) (stamp : Stamp) (event : InboxReceiveEventInput) :
    Sdk (InboxTable collate) InboxReceiveResult := do
  let validated ← client.validate missingIdempotencyKey event
  client.insertEvent stamp validated

/-- What `receiveBatch` answers for one event of a slice, from the ids that the
insert returned and the ids found under the keys. -/
def batchResult (a : Adapter) (insertedIds : List EventId)
    (keyToId : OrderedMap (Option String) EventId) (stamp : Stamp)
    (event : ValidatedInboxEvent) : InboxReceiveResult :=
  let dbId := keyToId.get? (some event.idempotencyKey)
  if a.supportsReturning then
    match dbId with
    | none => ⟨none, .duplicate⟩
    | some id => ⟨some id, if id ∈ insertedIds then .processed else .duplicate⟩
  else
    ⟨some (dbId.getD stamp.id), if dbId = some stamp.id then .processed else .duplicate⟩

/-- The rows of one slice of a batch. -/
def bulkRows (events : List (Stamp × ValidatedInboxEvent)) : Except SdkError (List InboxEvent) :=
  events.mapM fun event => event.2.row event.1

/-- `bulkInsert` of at most `MAX_EVENTS_PER_BATCH` events. -/
def insertSlice (_client : InboxyClient a) (events : List (Stamp × ValidatedInboxEvent)) :
    Sdk (InboxTable collate) (List InboxReceiveResult) := do
  let rows ← bulkRows events
  let resultRows ← a.inboxBulkInsert rows
  let checkRows ← a.inboxFind (events.map fun event => event.2.idempotencyKey)
  let keyToId := OrderedMap.ofList QueryRow.idempotencyKey QueryRow.id checkRows
  return events.map fun event => batchResult a (resultRows.map QueryRow.id) keyToId event.1 event.2

/-- `MAX_EVENTS_PER_BATCH` -/
def maxEventsPerBatch (client : InboxyClient a) : Nat :=
  client.dialect.maxParameters / a.inboxParameters

theorem maxEventsPerBatch_pos (client : InboxyClient a) : 0 < client.maxEventsPerBatch :=
  Nat.div_pos client.dialect.room (by cases a <;> decide)

/-- A recursive call is made on a slice, which is short enough to be inserted
at once. -/
def bulkInsert (client : InboxyClient a) (events : List (Stamp × ValidatedInboxEvent)) :
    Sdk (InboxTable collate) (List InboxReceiveResult) := do
  if events.length > client.maxEventsPerBatch then
    let results ←
      (events.slices client.maxEventsPerBatch client.maxEventsPerBatch_pos).mapM client.insertSlice
    return results.flatten
  else client.insertSlice events

/-- The checks of `receiveBatch` on the events from an index on. -/
def validateBatch (client : InboxyClient a) :
    Nat → List (Stamp × InboxReceiveEventInput) →
      Except SdkError (List (Stamp × ValidatedInboxEvent))
  | _, [] => pure []
  | index, (stamp, event) :: events => do
    let validated ←
      client.validate ("idempotencyKey is required for event at index " ++ toString index) event
    let validatedEvents ← client.validateBatch (index + 1) events
    return (stamp, validated) :: validatedEvents

def receiveBatch (client : InboxyClient a) (events : List (Stamp × InboxReceiveEventInput)) :
    Sdk (InboxTable collate) (List InboxReceiveResult) := do
  if events.isEmpty then return []
  let validatedEvents ← client.validateBatch 0 events
  let keysInBatch := validatedEvents.map fun event => event.2.idempotencyKey
  -- `uniqueKeys` has as many elements as `keysInBatch` when no key repeats.
  if keysInBatch.Nodup then client.bulkInsert validatedEvents
  else
    throw (.validation "Duplicate idempotency keys within batch are not allowed" "idempotencyKey")

/-- `markFailed` -/
def markFailed (_client : InboxyClient a) (eventId : EventId) (error : String) :
    Sdk (InboxTable collate) Unit :=
  query fun table =>
    (table.update (buildMarkFailed eventId (truncateError error))).map fun table => ((), table)

/-! ### Valid events -/

/-- What a passed check says, and the event with its defaults. -/
theorem validate_cases {client : InboxyClient a} {m : String} {event : InboxReceiveEventInput}
    {v : ValidatedInboxEvent} (h : client.validate m event = .ok v) :
    ValidKey event.idempotencyKey ∧ validateFields event.eventVersion = .ok () ∧
      v =
        { idempotencyKey := event.idempotencyKey
          aggregateType := event.aggregateType
          aggregateId := event.aggregateId
          eventType := event.eventType
          eventVersion := (event.eventVersion.getD 1).num
          payload := event.payload
          source := event.source
          headers := event.headers.getD client.defaultHeaders
          metadata := event.metadata.getD client.defaultMetadata } := by
  unfold validate at h
  split at h
  · exact absurd h (by simp)
  · obtain ⟨_, hkey, h⟩ := bind_eq_ok.mp h
    obtain ⟨_, hfields, h⟩ := bind_eq_ok.mp h
    exact ⟨hkey, hfields, (Except.ok.inj h).symm⟩

/-- The text of an error decides nothing. -/
theorem validate_eq_ok {client : InboxyClient a} {m m' : String} {event : InboxReceiveEventInput}
    {v : ValidatedInboxEvent} (h : client.validate m event = .ok v) :
    client.validate m' event = .ok v := by
  unfold validate at h ⊢
  split at h
  · exact absurd h (by simp)
  · rename_i hne
    rwa [if_neg hne]

/-- `receive` of a checked event goes on with its insert. -/
theorem receive_eq_insertEvent {client : InboxyClient a} {m : String}
    {event : InboxReceiveEventInput} {v : ValidatedInboxEvent}
    (h : client.validate m event = .ok v) (stamp : Stamp) :
    (client.receive stamp event : Sdk (InboxTable collate) InboxReceiveResult) =
      client.insertEvent stamp v := by
  unfold receive
  rw [validate_eq_ok h]
  rfl

/-- The row that a call inserts for a valid event. -/
def RowOf (client : InboxyClient a) (event : Stamp × InboxReceiveEventInput) (row : InboxEvent) :
    Prop :=
  ∃ v, client.validate missingIdempotencyKey event.2 = .ok v ∧ v.row event.1 = .ok row

/-- The event passes the checks, and its values are serializable. -/
def ValidEvent (client : InboxyClient a) (event : InboxReceiveEventInput) : Prop :=
  ∀ stamp, ∃ row, client.RowOf (stamp, event) row

end InboxyClient

/-! ## Sample data -/

namespace Sample

def inboxyClient (a : Adapter) : InboxyClient a := .create { dialect := .default a }

def received (key : String) : InboxReceiveEventInput where
  idempotencyKey := key
  aggregateType := "order"
  aggregateId := "1"
  eventType := "created"
  payload := .json .null

theorem rowOf_received {a : Adapter} {key : String} (h : ValidKey key) (stamp : Stamp) :
    (inboxyClient a).RowOf (stamp, received key)
      { id := stamp.id
        idempotencyKey := key
        source := none
        aggregateType := "order"
        aggregateId := "1"
        eventType := "created"
        eventVersion := 1
        payload := .null
        headers := .obj []
        metadata := .obj []
        status := .processed
        error := none
        receivedAt := stamp.now
        processedAt := some stamp.now } := by
  refine ⟨⟨key, "order", "1", "created", 1, .json .null, none, .json (.obj []), .json (.obj [])⟩,
    ?_, rfl⟩
  unfold InboxyClient.validate
  refine (if_neg h.ne_empty).trans ?_
  show (validateIdempotencyKey key).bind _ = _
  rw [h]
  rfl

theorem validEvent_received {a : Adapter} {key : String} (h : ValidKey key) :
    (inboxyClient a).ValidEvent (received key) :=
  fun stamp => ⟨_, rowOf_received h stamp⟩

end Sample

end Outboxy
