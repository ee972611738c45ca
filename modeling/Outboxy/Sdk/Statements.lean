import Outboxy.Sdk.InboxyClient

/-!
# The statements of a batch

The texts and parameters that the dialects build for `publishBatch` and
`receiveBatch`.  `OutboxStatement` and `InboxStatement` say what a statement is
for; `OutboxStatement.build` and `InboxStatement.build` are the statements as
they are sent.

`length_params_build`: how many parameters a statement binds.
-/

namespace Outboxy

/-- A value that a statement binds.  A serialized value is bound as its
text. -/
inductive SqlValue where
  | null
  | text (value : String)
  | number (value : Int)
  | json (value : Json)

structure SqlStatement where
  sql : String
  params : List SqlValue

/-- `items.join(", ")` -/
def joinComma (items : List String) : String := ", ".intercalate items

/-- The `VALUES` clauses with the placeholders of each row. -/
def valuesClauses (placeholders : List (List String)) : String :=
  joinComma (placeholders.map fun row => "(" ++ joinComma row ++ ")")

/-! ## Placeholders -/

/-- `this.placeholder(rowIdx * params.columns.length + colIdx + 1)` for each
value. -/
def PostgreSqlDialect.placeholders (columns : Nat) (rows : List (List SqlValue)) :
    List (List String) :=
  rows.zipIdx.map fun row =>
    row.1.zipIdx.map fun value => "$" ++ toString (row.2 * columns + value.2 + 1)

def MySqlDialect.placeholders (rows : List (List SqlValue)) : List (List String) :=
  rows.map fun row => row.map fun _ => "?"

def Adapter.placeholders (a : Adapter) (columns : Nat) (rows : List (List SqlValue)) :
    List (List String) :=
  match a with
  | .postgres => PostgreSqlDialect.placeholders columns rows
  | .mysql => MySqlDialect.placeholders rows

/-! ## Columns and values -/

/-- The columns of `bulkInsert`, without `id`. -/
def outboxBaseColumns : List String :=
  ["aggregate_type", "aggregate_id", "event_type", "event_version", "payload", "headers",
    "destination_url", "destination_type", "idempotency_key", "max_retries", "metadata", "status"]

def EventStatus.name : EventStatus → String
  | .pending => "pending"
  | .processing => "processing"
  | .succeeded => "succeeded"
  | .failed => "failed"
  | .dlq => "dlq"
  | .cancelled => "cancelled"

def SqlValue.ofOption (value : Option String) : SqlValue := value.elim .null .text

/-- What a row binds for these columns. -/
def OutboxEvent.baseValues (row : OutboxEvent) : List SqlValue :=
  [.text row.aggregateType, .text row.aggregateId, .text row.eventType, .number row.eventVersion,
    .json row.payload, .json row.headers, .text row.destinationUrl, .text row.destinationType.name,
    .ofOption row.idempotencyKey, .number row.maxRetries, .json row.metadata,
    .text row.status.name]

/-- `INBOX_BASE_COLUMNS` -/
def inboxBaseColumns : List String :=
  ["idempotency_key", "source", "aggregate_type", "aggregate_id", "event_type", "event_version",
    "payload", "headers", "metadata", "status"]

def InboxStatus.name : InboxStatus → String
  | .processed => "processed"
  | .failed => "failed"

def InboxEvent.baseValues (row : InboxEvent) : List SqlValue :=
  [.text row.idempotencyKey, .ofOption row.source, .text row.aggregateType, .text row.aggregateId,
    .text row.eventType, .number row.eventVersion, .json row.payload, .json row.headers,
    .json row.metadata, .text row.status.name]

/-- The client puts `id` in front where the database does not return it. -/
def Adapter.withId {α : Type} (a : Adapter) (id : α) (base : List α) : List α :=
  if a.supportsReturning then base else id :: base

/-! ## Statements -/

/-- `buildBulkInsert` -/
def Adapter.buildBulkInsert (a : Adapter) (columns : List String) (rows : List (List SqlValue)) :
    SqlStatement where
  sql := "INSERT INTO outbox_events (" ++ joinComma columns ++ ")\n      VALUES " ++
    valuesClauses (a.placeholders columns.length rows) ++
      (if a.supportsReturning then "\n      RETURNING id" else "")
  params := rows.flatten

/-- `buildInboxBulkInsert` -/
def Adapter.buildInboxBulkInsert (a : Adapter) (columns : List String)
    (rows : List (List SqlValue)) : SqlStatement where
  sql := (if a.supportsReturning then "INSERT INTO" else "INSERT IGNORE INTO") ++
    " inbox_events (" ++ joinComma columns ++ ")\n      VALUES " ++
      valuesClauses (a.placeholders columns.length rows) ++
        (if a.supportsReturning then
          "\n      ON CONFLICT (idempotency_key) DO NOTHING\n      RETURNING id" else "")
  params := rows.flatten

/-- `buildFindByIdempotencyKeys` for at least one key. -/
def Adapter.buildFindByIdempotencyKeys (a : Adapter) (keys : List String) : SqlStatement where
  sql := "SELECT id, idempotency_key FROM inbox_events WHERE idempotency_key IN " ++
    valuesClauses (a.placeholders keys.length [keys.map SqlValue.text])
  params := keys.map SqlValue.text

/-- The statement of `publishBatch`, which inserts rows. -/
structure OutboxStatement where
  rows : List OutboxEvent

def OutboxStatement.build (a : Adapter) (statement : OutboxStatement) : SqlStatement :=
  a.buildBulkInsert (a.withId "id" outboxBaseColumns)
    (statement.rows.map fun row => a.withId (.text row.id) row.baseValues)

/-- The statements of `receiveBatch`. -/
inductive InboxStatement where
  | bulkInsert (rows : List InboxEvent)
  | findByIdempotencyKeys (keys : List String)

def InboxStatement.build (a : Adapter) : InboxStatement → SqlStatement
  | .bulkInsert rows =>
    a.buildInboxBulkInsert (a.withId "id" inboxBaseColumns)
      (rows.map fun row => a.withId (.text row.id) row.baseValues)
  | .findByIdempotencyKeys keys => a.buildFindByIdempotencyKeys keys

/-- The rows that a statement inserts. -/
def InboxStatement.rows : InboxStatement → List InboxEvent
  | .bulkInsert rows => rows
  | .findByIdempotencyKeys _ => []

/-! ## Parameters -/

theorem length_flatten_map {α : Type} {columns : Nat} {values : α → List SqlValue}
    (h : ∀ row, (values row).length = columns) (rows : List α) :
    (rows.map values).flatten.length = columns * rows.length := by
  induction rows with
  | nil => rfl
  | cons row rows ih =>
    rw [List.map_cons, List.flatten_cons, List.length_append, h, ih, List.length_cons]
    rw [Nat.mul_succ, Nat.add_comm]

/-- An insert binds as many values for a row as it has columns. -/
theorem OutboxStatement.length_params_build (a : Adapter) (statement : OutboxStatement) :
    (statement.build a).params.length = a.insertParameters * statement.rows.length :=
  length_flatten_map (fun _ => by cases a <;> rfl) statement.rows

theorem InboxStatement.length_params_bulkInsert (a : Adapter) (rows : List InboxEvent) :
    ((InboxStatement.bulkInsert rows).build a).params.length = a.inboxParameters * rows.length :=
  length_flatten_map (fun _ => by cases a <;> rfl) rows

/-- A lookup binds its keys. -/
theorem InboxStatement.length_params_find (a : Adapter) (keys : List String) :
    ((InboxStatement.findByIdempotencyKeys keys).build a).params.length = keys.length :=
  List.length_map _

end Outboxy
