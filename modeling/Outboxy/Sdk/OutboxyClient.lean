import Outboxy.System
import Outboxy.Library.Slices
import Outboxy.Sdk.Utilities

/-!
# The outbox client

`OutboxyClient` with the statements that the two SQL dialects build for it.

* `publish` inserts one row.  The PostgreSQL statement has an `ON CONFLICT`
  clause and returns an id; the MySQL statement has an `ON DUPLICATE KEY`
  clause and returns nothing, so the client answers with the id it generated.
* `publishBatch` inserts slices of a list of events, each with one multi-row
  statement, which has no conflict clause on either database.

`publish_postgres` and `publish_mysql` are the specifications of `publish`
that the rest of the development uses.
-/

namespace Outboxy

/-! ## Statements -/

/-- What `conn.execute` of the `mysql2` driver returns. -/
inductive Mysql2Result where
  | resultSetHeader (affectedRows : Nat)
  | rows (rows : List QueryRow)

def createMysql2Adapter : Mysql2Result → List QueryRow
  | .resultSetHeader affectedRows => if affectedRows > 0 then [⟨"", none⟩] else []
  | .rows rows => rows

namespace PostgreSqlDialect

/-- `INSERT ... ON CONFLICT (idempotency_key) WHERE ... DO UPDATE ...
RETURNING id` -/
def buildInsert (row : OutboxEvent) (table : OutboxTable .postgres) :
    Option (List QueryRow × OutboxTable .postgres) :=
  match table.conflict row with
  | some existing =>
    (table.update (onConflict existing.id)).map fun table => ([⟨existing.id, none⟩], table)
  | none => (table.insert row).map fun table => ([⟨row.id, none⟩], table)

/-- `INSERT ... VALUES ... RETURNING id`, which returns the rows in `VALUES`
order. -/
def buildBulkInsert (rows : List OutboxEvent) (table : OutboxTable .postgres) :
    Option (List QueryRow × OutboxTable .postgres) :=
  (table.insertAll rows).map fun table => (rows.map fun row => ⟨row.id, none⟩, table)

end PostgreSqlDialect

namespace MySqlDialect

/-- `INSERT ... ON DUPLICATE KEY UPDATE ...`.  The row in the way has the
primary key or the idempotency key of the new one, whose `created_at` is
`NOW()`. -/
def buildInsert (row : OutboxEvent) (table : OutboxTable .mysql) :
    Option (Mysql2Result × OutboxTable .mysql) :=
  match (table.lookup row.id).or (table.conflict row) with
  | some existing =>
    (table.update (onDuplicateKey row.createdAt existing.id)).map fun table =>
      (.resultSetHeader 2, table)
  | none => (table.insert row).map fun table => (.resultSetHeader 1, table)

/-- `INSERT ... VALUES ...` -/
def buildBulkInsert (rows : List OutboxEvent) (table : OutboxTable .mysql) :
    Option (Mysql2Result × OutboxTable .mysql) :=
  (table.insertAll rows).map fun table => (.resultSetHeader rows.length, table)

end MySqlDialect

namespace Adapter

def supportsReturning : Adapter → Bool
  | .postgres => true
  | .mysql => false

/-- The rows that the query function of the application's adapter returns for
`buildInsert`: those of the `pg` driver, or those of `createMysql2Adapter`. -/
def insert (a : Adapter) (row : OutboxEvent) : Sdk (OutboxTable a) (List QueryRow) :=
  match a with
  | .postgres => query (PostgreSqlDialect.buildInsert row)
  | .mysql => createMysql2Adapter <$> query (MySqlDialect.buildInsert row)

def bulkInsert (a : Adapter) (rows : List OutboxEvent) : Sdk (OutboxTable a) (List QueryRow) :=
  match a with
  | .postgres => query (PostgreSqlDialect.buildBulkInsert rows)
  | .mysql => createMysql2Adapter <$> query (MySqlDialect.buildBulkInsert rows)

/-- The parameters that one row of an insert binds. -/
def insertParameters (a : Adapter) : Nat := if a.supportsReturning then 12 else 13

end Adapter

/-- The limit that a dialect puts on the parameters of a statement.  It has
room for one row. -/
structure SqlDialect (a : Adapter) where
  maxParameters : Nat
  room : a.insertParameters ≤ maxParameters

/-- `maxParameters` of both dialects. -/
def SqlDialect.default (a : Adapter) : SqlDialect a where
  maxParameters := 65535
  room := by cases a <;> decide

/-! ## The client -/

structure PublishEventInput where
  aggregateType : String
  aggregateId : String
  eventType : String
  payload : JsValue
  destinationUrl : Option String := none
  destinationType : Option String := none
  idempotencyKey : Option String := none
  maxRetries : Option Int := none
  eventVersion : Option ℚ := none
  headers : Option JsValue := none
  metadata : Option JsValue := none

structure OutboxyConfig (a : Adapter) where
  dialect : SqlDialect a
  defaultDestinationUrl : Option String := none
  defaultDestinationType : Option String := none
  defaultMaxRetries : Option Int := none
  defaultHeaders : Option JsValue := none
  defaultMetadata : Option JsValue := none

/-- The client's fields.  `inject` is what `propagation.inject` makes of the
headers in the active trace context. -/
structure OutboxyClient (a : Adapter) where
  dialect : SqlDialect a
  defaultDestinationUrl : Option String
  defaultDestinationType : DestinationType
  defaultMaxRetries : Int
  defaultHeaders : JsValue
  defaultMetadata : JsValue
  inject : JsValue → JsValue

/-- An event with its defaults filled in. -/
structure ValidatedEvent where
  aggregateType : String
  aggregateId : String
  eventType : String
  eventVersion : Int
  payload : JsValue
  headers : JsValue
  destinationUrl : String
  destinationType : DestinationType
  idempotencyKey : Option String
  maxRetries : Int
  metadata : JsValue

namespace OutboxyClient

variable {a : Adapter}

/-- The constructor. -/
def create (config : OutboxyConfig a) (inject : JsValue → JsValue) :
    Except SdkError (OutboxyClient a) := do
  let destinationType ←
    validateDestinationType (config.defaultDestinationType.getD DestinationType.http.name)
  return {
    dialect := config.dialect
    defaultDestinationUrl := config.defaultDestinationUrl
    defaultDestinationType := destinationType
    defaultMaxRetries := config.defaultMaxRetries.getD 5
    defaultHeaders := config.defaultHeaders.getD (.json (.obj []))
    defaultMetadata := config.defaultMetadata.getD (.json (.obj []))
    inject := inject }

/-- `event.destinationUrl || this.defaultDestinationUrl`, which must not be
falsy; the empty text is. -/
def destinationUrl (client : OutboxyClient a) (missing : String) (event : PublishEventInput) :
    Except SdkError String :=
  match ((event.destinationUrl.filter (· ≠ "")).or client.defaultDestinationUrl).filter
      (· ≠ "") with
  | some url => .ok url
  | none => .error (.validation missing "destinationUrl")

/-- The checks that `publish` makes on its event, and `publishBatch` on each
of its events.  `missing` is the text of the error for a missing URL. -/
def validate (client : OutboxyClient a) (missing : String) (event : PublishEventInput) :
    Except SdkError ValidatedEvent := do
  let destinationUrl ← client.destinationUrl missing event
  let destinationType ←
    validateDestinationType (event.destinationType.getD client.defaultDestinationType.name)
  validateFields event.eventVersion
  event.idempotencyKey.forM validateIdempotencyKey
  return {
    aggregateType := event.aggregateType
    aggregateId := event.aggregateId
    eventType := event.eventType
    -- An integer by now.
    eventVersion := (event.eventVersion.getD 1).num
    payload := event.payload
    headers := event.headers.getD client.defaultHeaders
    destinationUrl := destinationUrl
    destinationType := destinationType
    idempotencyKey := event.idempotencyKey
    maxRetries := event.maxRetries.getD client.defaultMaxRetries
    metadata := event.metadata.getD client.defaultMetadata }

/-- The values that an insert binds for an event. -/
def baseValues (client : OutboxyClient a) (event : ValidatedEvent) :
    Except SdkError InsertValues := do
  let payload ← safeStringify event.payload "payload"
  let headers ← safeStringify (client.inject event.headers) "headers"
  let metadata ← safeStringify event.metadata "metadata"
  return {
    aggregateType := event.aggregateType
    aggregateId := event.aggregateId
    eventType := event.eventType
    eventVersion := event.eventVersion
    payload := payload
    headers := headers
    destinationUrl := event.destinationUrl
    destinationType := event.destinationType
    -- `event.idempotencyKey || null`
    idempotencyKey := event.idempotencyKey.filter (· ≠ "")
    maxRetries := event.maxRetries
    metadata := metadata }

/-- `publish` after its checks. -/
def insertEvent (client : OutboxyClient a) (stamp : Stamp) (event : ValidatedEvent) :
    Sdk (OutboxTable a) EventId := do
  let values ← client.baseValues event
  let rows ← a.insert (values.row stamp.id stamp.now)
  if a.supportsReturning then
    match rows with
    | row :: _ => return row.id
    | [] =>
      throw (.unexpected "INSERT with RETURNING produced no rows — unexpected conflict state")
  else return stamp.id

/-- The text of `publish` for an event without a destination. -/
def missingDestinationUrl : String :=
  "destinationUrl is required (provide in event or set defaultDestinationUrl in config)"

def publish (client : OutboxyClient a) (stamp : Stamp) (event : PublishEventInput) :
    Sdk (OutboxTable a) EventId := do
  let validated ← client.validate missingDestinationUrl event
  client.insertEvent stamp validated

/-- What `publish` binds for an event, unless it throws before the insert. -/
def insertValues (client : OutboxyClient a) (event : PublishEventInput) :
    Except SdkError InsertValues := do
  let validated ← client.validate missingDestinationUrl event
  client.baseValues validated

/-- The rows of one slice of a batch. -/
def bulkRows (client : OutboxyClient a) (events : List (Stamp × ValidatedEvent)) :
    Except SdkError (List OutboxEvent) :=
  events.mapM fun event => do
    let values ← client.baseValues event.2
    return values.row event.1.id event.1.now

/-- `MAX_EVENTS_PER_BATCH` -/
def maxEventsPerBatch (client : OutboxyClient a) : Nat :=
  client.dialect.maxParameters / a.insertParameters

theorem maxEventsPerBatch_pos (client : OutboxyClient a) : 0 < client.maxEventsPerBatch :=
  Nat.div_pos client.dialect.room (by cases a <;> decide)

/-- `bulkInsert` of at most `MAX_EVENTS_PER_BATCH` events. -/
def insertSlice (client : OutboxyClient a) (events : List (Stamp × ValidatedEvent)) :
    Sdk (OutboxTable a) (List EventId) := do
  let rows ← client.bulkRows events
  let resultRows ← a.bulkInsert rows
  if a.supportsReturning then return resultRows.map QueryRow.id
  else return events.map fun event => event.1.id

/-- A recursive call is made on a slice, which is short enough to be inserted
at once. -/
def bulkInsert (client : OutboxyClient a) (events : List (Stamp × ValidatedEvent)) :
    Sdk (OutboxTable a) (List EventId) := do
  if events.length > client.maxEventsPerBatch then
    let results ←
      (events.slices client.maxEventsPerBatch client.maxEventsPerBatch_pos).mapM client.insertSlice
    return results.flatten
  else client.insertSlice events

/-- The checks of `publishBatch` on the events from an index on. -/
def validateBatch (client : OutboxyClient a) :
    Nat → List (Stamp × PublishEventInput) → Except SdkError (List (Stamp × ValidatedEvent))
  | _, [] => pure []
  | index, (stamp, event) :: events => do
    let validated ←
      client.validate ("destinationUrl is required for event at index " ++ toString index) event
    let validatedEvents ← client.validateBatch (index + 1) events
    return (stamp, validated) :: validatedEvents

def publishBatch (client : OutboxyClient a) (events : List (Stamp × PublishEventInput)) :
    Sdk (OutboxTable a) (List EventId) := do
  if events.isEmpty then return []
  let validatedEvents ← client.validateBatch 0 events
  let keysInBatch :=
    (validatedEvents.filterMap fun event => event.2.idempotencyKey).filter (· ≠ "")
  -- `uniqueKeys` has as many elements as `keysInBatch` when no key repeats.
  if keysInBatch.Nodup then client.bulkInsert validatedEvents
  else
    throw (.validation "Duplicate idempotency keys within batch are not allowed" "idempotencyKey")

/-! ### Valid events -/

section Valid

variable {client : OutboxyClient a} {event : PublishEventInput} {values : InsertValues}

/-- What a passed check says, and the event with its defaults. -/
theorem validate_cases {m : String} {v : ValidatedEvent} (h : client.validate m event = .ok v) :
    ∃ url type, client.destinationUrl m event = .ok url ∧
      validateDestinationType (event.destinationType.getD client.defaultDestinationType.name) =
        .ok type ∧
      validateFields event.eventVersion = .ok () ∧ (∀ k ∈ event.idempotencyKey, ValidKey k) ∧
      v =
        { aggregateType := event.aggregateType
          aggregateId := event.aggregateId
          eventType := event.eventType
          eventVersion := (event.eventVersion.getD 1).num
          payload := event.payload
          headers := event.headers.getD client.defaultHeaders
          destinationUrl := url
          destinationType := type
          idempotencyKey := event.idempotencyKey
          maxRetries := event.maxRetries.getD client.defaultMaxRetries
          metadata := event.metadata.getD client.defaultMetadata } := by
  unfold validate at h
  obtain ⟨url, hurl, h⟩ := bind_eq_ok.mp h
  obtain ⟨type, htype, h⟩ := bind_eq_ok.mp h
  obtain ⟨_, hfields, h⟩ := bind_eq_ok.mp h
  obtain ⟨_, hkey, h⟩ := bind_eq_ok.mp h
  refine ⟨url, type, hurl, htype, hfields, fun k hk => ?_, (Except.ok.inj h).symm⟩
  rw [hk] at hkey
  exact hkey

/-- What is bound for an event with its defaults. -/
theorem baseValues_cases {v : ValidatedEvent} (h : client.baseValues v = .ok values) :
    ∃ payload headers metadata, v.payload = .json payload ∧
      client.inject v.headers = .json headers ∧ v.metadata = .json metadata ∧
      values =
        { aggregateType := v.aggregateType
          aggregateId := v.aggregateId
          eventType := v.eventType
          eventVersion := v.eventVersion
          payload := payload
          headers := headers
          destinationUrl := v.destinationUrl
          destinationType := v.destinationType
          idempotencyKey := v.idempotencyKey.filter (· ≠ "")
          maxRetries := v.maxRetries
          metadata := metadata } := by
  unfold baseValues at h
  obtain ⟨payload, hpayload, h⟩ := bind_eq_ok.mp h
  obtain ⟨headers, hheaders, h⟩ := bind_eq_ok.mp h
  obtain ⟨metadata, hmetadata, h⟩ := bind_eq_ok.mp h
  exact ⟨payload, headers, metadata, eq_json_of_safeStringify hpayload,
    eq_json_of_safeStringify hheaders, eq_json_of_safeStringify hmetadata,
    (Except.ok.inj h).symm⟩

/-- The text of an error decides nothing. -/
theorem validate_eq_ok {m m' : String} {v : ValidatedEvent} (h : client.validate m event = .ok v) :
    client.validate m' event = .ok v := by
  unfold validate destinationUrl at h ⊢
  cases hurl : ((event.destinationUrl.filter (· ≠ "")).or client.defaultDestinationUrl).filter
      (· ≠ "") with
  | some url =>
    rw [hurl] at h
    exact h
  | none =>
    rw [hurl] at h
    obtain ⟨_, herror, _⟩ := bind_eq_ok.mp h
    exact absurd herror (by simp)

/-- The key of a valid event is bound as it is. -/
theorem key_of_insertValues (h : client.insertValues event = .ok values) :
    values.idempotencyKey = event.idempotencyKey ∧ ∀ k ∈ event.idempotencyKey, ValidKey k := by
  obtain ⟨v, hv, hvalues⟩ := bind_eq_ok.mp h
  obtain ⟨url, type, _, _, _, hvalid, rfl⟩ := validate_cases hv
  obtain ⟨payload, headers, metadata, _, _, _, rfl⟩ := baseValues_cases hvalues
  refine ⟨?_, hvalid⟩
  cases hk : event.idempotencyKey with
  | none => rfl
  | some k => simpa using (hvalid k hk).ne_empty

/-- A valid event passes the checks of a batch as well. -/
theorem validate_of_insertValues (m : String) (h : client.insertValues event = .ok values) :
    ∃ v, client.validate m event = .ok v ∧ client.baseValues v = .ok values := by
  obtain ⟨v, hv, hvalues⟩ := bind_eq_ok.mp h
  exact ⟨v, validate_eq_ok hv, hvalues⟩

end Valid

/-! ### One event -/

section InsertEvent

variable {event : ValidatedEvent} {values : InsertValues} {stamp : Stamp}

/-- On PostgreSQL the answer is the id that the `INSERT` returns. -/
theorem insertEvent_postgres {client : OutboxyClient .postgres}
    {table table' : OutboxTable .postgres} {row : QueryRow}
    (h : client.baseValues event = .ok values)
    (hinsert : PostgreSqlDialect.buildInsert (values.row stamp.id stamp.now) table =
      some ([row], table')) :
    (client.insertEvent stamp event).run table = .ok (row.id, table') := by
  have hrows : (Adapter.postgres.insert (values.row stamp.id stamp.now)).run table =
      .ok ([row], table') := by
    simp [Adapter.insert, query, StateT.run, hinsert]
  unfold insertEvent
  rw [run_bind_ok (run_liftM h), run_bind_ok hrows]
  rfl

/-- On MySQL it is the generated id. -/
theorem insertEvent_mysql {client : OutboxyClient .mysql} {table table' : OutboxTable .mysql}
    {result : Mysql2Result} (h : client.baseValues event = .ok values)
    (hinsert : MySqlDialect.buildInsert (values.row stamp.id stamp.now) table =
      some (result, table')) :
    (client.insertEvent stamp event).run table = .ok (stamp.id, table') := by
  have hrows : (Adapter.mysql.insert (values.row stamp.id stamp.now)).run table =
      .ok (createMysql2Adapter result, table') := by
    simp [Adapter.insert, query, StateT.run, StateT.map, Functor.map, hinsert, bind, Except.bind]
    rfl
  unfold insertEvent
  rw [run_bind_ok (run_liftM h), run_bind_ok hrows]
  rfl

end InsertEvent

/-- `publish` of a checked event goes on with its insert. -/
theorem publish_eq_insertEvent {client : OutboxyClient a} {event : PublishEventInput}
    {v : ValidatedEvent} {m : String} (h : client.validate m event = .ok v) (stamp : Stamp) :
    client.publish stamp event = client.insertEvent stamp v := by
  unfold publish
  rw [validate_eq_ok h]
  rfl

theorem publish_postgres {client : OutboxyClient .postgres} {event : PublishEventInput}
    {values : InsertValues} (h : client.insertValues event = .ok values) (stamp : Stamp)
    (row : QueryRow) {table table' : OutboxTable .postgres}
    (hinsert : PostgreSqlDialect.buildInsert (values.row stamp.id stamp.now) table =
      some ([row], table')) :
    (client.publish stamp event).run table = .ok (row.id, table') := by
  obtain ⟨v, hv, hvalues⟩ := bind_eq_ok.mp h
  rw [publish_eq_insertEvent hv, insertEvent_postgres hvalues hinsert]

theorem publish_mysql {client : OutboxyClient .mysql} {event : PublishEventInput}
    {values : InsertValues} (h : client.insertValues event = .ok values) (stamp : Stamp)
    (result : Mysql2Result) {table table' : OutboxTable .mysql}
    (hinsert : MySqlDialect.buildInsert (values.row stamp.id stamp.now) table =
      some (result, table')) :
    (client.publish stamp event).run table = .ok (stamp.id, table') := by
  obtain ⟨v, hv, hvalues⟩ := bind_eq_ok.mp h
  rw [publish_eq_insertEvent hv, insertEvent_mysql hvalues hinsert]

end OutboxyClient

/-! ## The conflict clauses -/

namespace PostgreSqlDialect

variable {row existing : OutboxEvent} {table table' : OutboxTable .postgres}

/-- The `DO UPDATE` assigns a column to itself. -/
theorem buildInsert_of_conflict (h : table.conflict row = some existing) :
    buildInsert row table = some ([⟨existing.id, none⟩], table) := by
  have hself : table.update (onConflict existing.id) = some table :=
    Table.update_eq_self fun _ => rfl
  simp [buildInsert, h, hself]

theorem buildInsert_of_insert (hfree : table.conflict row = none)
    (h : table.insert row = some table') :
    buildInsert row table = some ([⟨row.id, none⟩], table') := by
  simp [buildInsert, hfree, h]

end PostgreSqlDialect

/-! ## Sample data -/

namespace Sample

def outboxyClient (a : Adapter) : OutboxyClient a where
  dialect := .default a
  defaultDestinationUrl := some "http://localhost"
  defaultDestinationType := .http
  defaultMaxRetries := 5
  defaultHeaders := .json (.obj [])
  defaultMetadata := .json (.obj [])
  inject headers := headers

def keyed (key : String) : PublishEventInput where
  aggregateType := "order"
  aggregateId := "1"
  eventType := "created"
  payload := .json .null
  idempotencyKey := some key

/-- What the sample client binds for `keyed key`. -/
def keyedValues (key : String) : InsertValues :=
  { values 5 with idempotencyKey := some key }

end Sample

end Outboxy
