import Mathlib.Data.Rat.Defs
import Outboxy.Library.OrderedMap
import Outboxy.Library.Table

/-!
# The outbox table

The rows of `outbox_events` and the values that the two databases compute
with.  The table is the same on PostgreSQL and on MySQL except for three
things, which `Adapter` selects: the resolution of `NOW()`, the scope of the
unique idempotency index, and how that index compares keys.

A column of type JSON holds a `Json` value.  The columns
`backoff_multiplier` and `created_date` are left out: no statement of the
repository reads or writes them after the insert.
-/

namespace Outboxy

/-- Event ids are UUIDs in their text form. -/
abbrev EventId := String

/-! Times are microseconds, the resolution of a PostgreSQL `timestamp`. -/

namespace Time

def second : Int := 1000000

def millisecond : Int := 1000

def day : Int := 86400 * second

end Time

/-- A JSON value. -/
inductive Json where
  | null
  | bool (value : Bool)
  | num (value : Rat)
  | str (value : String)
  | arr (items : List Json)
  | obj (members : List (String × Json))

/-- The values that the CHECK constraint of the `status` column admits. -/
inductive EventStatus where
  | pending
  | processing
  | succeeded
  | failed
  | dlq
  | cancelled
deriving DecidableEq, Repr

/-- The values that the CHECK constraint of `destination_type` admits. -/
inductive DestinationType where
  | http
  | kafka
  | sqs
  | rabbitmq
  | pubsub
deriving DecidableEq, Repr

/-- Longest error text that a repository stores. -/
def MAX_ERROR_MESSAGE_LENGTH : Nat := 1000

/-- A row of `outbox_events`.  `mapRowToEvent` only renames the columns, so
the row is also the event that the worker sees.  The CHECK constraint on
`retry_count` is the type `Nat`; `max_retries` has no such constraint. -/
structure OutboxEvent where
  id : EventId
  aggregateType : String
  aggregateId : String
  eventType : String
  eventVersion : Int
  payload : Json
  headers : Json
  destinationUrl : String
  destinationType : DestinationType
  idempotencyKey : Option String
  status : EventStatus
  retryCount : Nat
  maxRetries : Int
  nextRetryAt : Option Int
  lastError : Option String
  errorDetails : Option Json
  createdAt : Int
  updatedAt : Int
  processingStartedAt : Option Int
  processedAt : Option Int
  metadata : Json
  processedByWorker : Option String
  deletedAt : Option Int

/-- A statement on `outbox_events`. -/
abbrev OutboxUpdate := Update OutboxEvent.id

/-! ## Comparisons with NULL

A comparison with a NULL column is unknown, and no `WHERE` accepts it. -/

/-- `column <= value` -/
def sqlLe (column : Option Int) (value : Int) : Bool := column.any fun t => decide (t ≤ value)

/-- `column < value` -/
def sqlLt (column : Option Int) (value : Int) : Bool := column.any fun t => decide (t < value)

@[simp] theorem sqlLe_none (value : Int) : sqlLe none value = false := rfl

@[simp] theorem sqlLe_some (t value : Int) : sqlLe (some t) value = decide (t ≤ value) := rfl

@[simp] theorem sqlLt_none (value : Int) : sqlLt none value = false := rfl

@[simp] theorem sqlLt_some (t value : Int) : sqlLt (some t) value = decide (t < value) := rfl

/-! ## Ids -/

def isHexDigit (c : Char) : Bool :=
  c.isDigit || (decide ('a' ≤ c) && decide (c ≤ 'f')) || (decide ('A' ≤ c) && decide (c ≤ 'F'))

/-- `UUID_REGEX`: five groups of 8, 4, 4, 4 and 12 hexadecimal digits. -/
def isUuid (id : EventId) : Bool :=
  let groups := id.toList.splitOn '-'
  decide (groups.map List.length = [8, 4, 4, 4, 12]) && groups.all fun group => group.all isHexDigit

/-! ## The two databases -/

inductive Adapter where
  | postgres
  | mysql
deriving DecidableEq, Repr

/-- What `NOW()` returns when the clock shows `clock`.  A MySQL `TIMESTAMP`
without a precision and `NOW()` without an argument hold whole seconds. -/
def Adapter.now : Adapter → Int → Int
  | .postgres, clock => clock
  | .mysql, clock => clock - clock % Time.second

/-- The key under which `utf8mb4_unicode_ci` compares an ASCII text. -/
def unicodeCi (text : String) : String := String.ofList (text.toList.map Char.toLower)

/-- The key of `idx_outbox_idempotency`.  PostgreSQL indexes the rows that
are not `succeeded`; MySQL has no partial index and indexes every row. -/
def Adapter.idempotencyIndex : Adapter → OutboxEvent → Option String
  | .postgres, row => if row.status = .succeeded then none else row.idempotencyKey
  | .mysql, row => row.idempotencyKey.map unicodeCi

/-- `outbox_events` with its primary key and its unique index. -/
abbrev OutboxTable (a : Adapter) := Table OutboxEvent.id a.idempotencyIndex

/-! ## Inserted rows -/

/-- The column values that an `INSERT` of a new event binds. -/
structure InsertValues where
  aggregateType : String
  aggregateId : String
  eventType : String
  eventVersion : Int
  payload : Json
  headers : Json
  destinationUrl : String
  destinationType : DestinationType
  idempotencyKey : Option String
  maxRetries : Int
  metadata : Json

/-- The row that an `INSERT` with status `pending` stores: the bound values,
and the column defaults for the rest. -/
def InsertValues.row (values : InsertValues) (id : EventId) (createdAt : Int) : OutboxEvent where
  id := id
  aggregateType := values.aggregateType
  aggregateId := values.aggregateId
  eventType := values.eventType
  eventVersion := values.eventVersion
  payload := values.payload
  headers := values.headers
  destinationUrl := values.destinationUrl
  destinationType := values.destinationType
  idempotencyKey := values.idempotencyKey
  status := .pending
  retryCount := 0
  maxRetries := values.maxRetries
  nextRetryAt := none
  lastError := none
  errorDetails := none
  createdAt := createdAt
  updatedAt := createdAt
  processingStartedAt := none
  processedAt := none
  metadata := values.metadata
  processedByWorker := none
  deletedAt := none

/-! ## Error texts -/

/-- `text.substring(0, n)`, which counts UTF-16 code units.  A surrogate pair
that the cut splits leaves one lone surrogate, which the driver encodes as
U+FFFD. -/
def takeCodeUnits : Nat → List Char → List Char
  | _, [] => []
  | 0, _ => []
  | n + 1, c :: cs =>
    if c.toNat < 0x10000 then c :: takeCodeUnits n cs
    else match n with
      | 0 => [Char.ofNat 0xFFFD]
      | m + 1 => c :: takeCodeUnits m cs

/-- The error text bound for an event, cut to the column's length. -/
def truncateError (message : String) : String :=
  String.ofList (takeCodeUnits MAX_ERROR_MESSAGE_LENGTH message.toList)

/-- `CASE id WHEN k1 THEN v1 ... END`, NULL when no branch matches. -/
def caseId (branches : List (EventId × String)) (id : EventId) : Option String :=
  branches.lookup id

end Outboxy
