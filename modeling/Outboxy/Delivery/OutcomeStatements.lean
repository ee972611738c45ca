import Outboxy.Adapter
import Outboxy.Library.SqlStatements
import Outboxy.Sdk.Statements

/-!
# The statements of the outcome writes

The texts and parameters that `markSucceeded`, `scheduleRetry` and `moveToDLQ`
send, and what a database reads in them.  `Adapter.statement` is what is sent;
`Adapter.readUpdate` makes an update of a text and its parameters, without
knowing the call that they were built for.
-/

namespace Outboxy

/-- A value that an event repository binds. -/
inductive BoundValue where
  | text (value : String)
  | number (value : ℚ)
deriving DecidableEq

/-- A text and its parameters. -/
structure BoundStatement where
  sql : String
  params : List BoundValue

/-- `[...eventIds, ...]` and the like. -/
def texts (values : List String) : List BoundValue := values.map .text

/-! ## PostgreSQL -/

namespace PgEventRepository

/-- `eventIds.map((_, i) => "$" + (i + 1)).join(", ")` -/
def placeholders (events : Nat) : String :=
  joinComma ((List.range events).map fun i => "$" ++ toString (i + 1))

/-- The `CASE` over `events` ids, whose results are the parameters behind
them. -/
def caseStatement (events : Nat) : String :=
  "CASE id" ++ String.join ((List.range events).map fun i =>
    " WHEN $" ++ toString (i + 1) ++ (" THEN $" ++ toString (events + i + 1))) ++ " END"

def markSucceededStatement (results : List (EventId × String)) : BoundStatement where
  sql := "
          UPDATE outbox_events
          SET status = 'succeeded',
              processed_at = NOW(),
              updated_at = NOW(),
              processed_by_worker = " ++ caseStatement results.length ++ "
          WHERE id IN (" ++ placeholders results.length ++ ")
          "
  params := texts (results.map Prod.fst) ++ texts (results.map Prod.snd)

def scheduleRetryStatement (eventIds : List EventId) (errorMessages : OrderedMap EventId String)
    (config : BackoffConfig) : BoundStatement where
  sql := "
          UPDATE outbox_events
          SET status = 'failed',
              retry_count = retry_count + 1,
              last_error = " ++ caseStatement eventIds.length ++ ",
              updated_at = NOW(),
              next_retry_at = NOW() + ($" ++ toString (2 * eventIds.length + 1) ++ (" * power($" ++
    toString (2 * eventIds.length + 2)) ++ ", retry_count)) * interval '1 millisecond'
          WHERE id IN (" ++ placeholders eventIds.length ++ ")
            AND retry_count < max_retries
          "
  params := texts eventIds ++ texts (eventIds.map (errorText errorMessages)) ++
    [.number config.backoffBaseMs, .number config.backoffMultiplier]

def moveToDLQStatement (eventIds : List EventId) (errorMessages : OrderedMap EventId String) :
    BoundStatement where
  sql := "
          UPDATE outbox_events
          SET status = 'dlq',
              last_error = " ++ caseStatement eventIds.length ++ ",
              processed_at = NOW(),
              updated_at = NOW()
          WHERE id IN (" ++ placeholders eventIds.length ++ ")
          "
  params := texts eventIds ++ texts (eventIds.map (errorText errorMessages))

end PgEventRepository

/-! ## MySQL -/

namespace MySQLEventRepository

/-- `ids.map(() => "?").join(",")` -/
def placeholders (ids : List EventId) : String := ",".intercalate (ids.map fun _ => "?")

/-- ``ids.map(() => `WHEN ? THEN ?`).join(" ")`` -/
def cases (ids : List EventId) : String := " ".intercalate (ids.map fun _ => "WHEN ? THEN ?")

/-- `branches.flatMap(([id, result]) => [id, result])` -/
def caseParams (branches : List (EventId × String)) : List BoundValue :=
  branches.flatMap fun branch => [.text branch.1, .text branch.2]

def markSucceededStatement (results : List (EventId × String)) : BoundStatement :=
  let ids := results.map Prod.fst
  { sql := "
        UPDATE outbox_events
        SET status = 'succeeded',
            processed_at = NOW(),
            processed_by_worker = CASE id " ++ cases ids ++ " END,
            updated_at = NOW()
        WHERE id IN (" ++ placeholders ids ++ ")
        "
    params := caseParams results ++ texts ids }

def scheduleRetryStatement (eventIds : List EventId) (errorMessages : OrderedMap EventId String)
    (config : BackoffConfig) : BoundStatement where
  sql := "
        UPDATE outbox_events
        SET status = 'failed',
            retry_count = retry_count + 1,
            next_retry_at = DATE_ADD(NOW(), INTERVAL CEIL((? * POW(?, retry_count)) / 1000) SECOND),
            last_error = CASE id " ++ cases eventIds ++ " END,
            processing_started_at = NULL,
            updated_at = NOW()
        WHERE id IN (" ++ placeholders eventIds ++ ")
          AND retry_count < max_retries
        "
  params := [.number config.backoffBaseMs, .number config.backoffMultiplier] ++
    caseParams (errorCase "Unknown error" eventIds errorMessages) ++ texts eventIds

def moveToDLQStatement (eventIds : List EventId) (errorMessages : OrderedMap EventId String) :
    BoundStatement where
  sql := "
        UPDATE outbox_events
        SET status = 'dlq',
            last_error = CASE id " ++ cases eventIds ++ " END,
            updated_at = NOW()
        WHERE id IN (" ++ placeholders eventIds ++ ")
        "
  params := caseParams (errorCase "Moved to DLQ" eventIds errorMessages) ++ texts eventIds

end MySQLEventRepository

namespace Adapter

variable (a : Adapter)

/-- The statement of a call on at least one event. -/
def callStatement : RepositoryCall String → BoundStatement
  | .markSucceeded results =>
    match a with
    | .postgres => PgEventRepository.markSucceededStatement results
    | .mysql => MySQLEventRepository.markSucceededStatement results
  | .scheduleRetry eventIds errorMessages config =>
    match a with
    | .postgres => PgEventRepository.scheduleRetryStatement eventIds errorMessages config
    | .mysql => MySQLEventRepository.scheduleRetryStatement eventIds errorMessages config
  | .moveToDLQ eventIds errorMessages =>
    match a with
    | .postgres => PgEventRepository.moveToDLQStatement eventIds errorMessages
    | .mysql => MySQLEventRepository.moveToDLQStatement eventIds errorMessages

/-- What is sent for a call: nothing for no events, and on MySQL nothing when
an id is not a UUID. -/
def statement (call : RepositoryCall String) : Option BoundStatement :=
  if call.ids = [] then none
  else
    match a with
    | .postgres => some (a.callStatement call)
    | .mysql =>
      if MySQLEventRepository.validateIds call.ids then some (a.callStatement call) else none

end Adapter

/-! ## What a database reads -/

def EventStatus.ofName : String → Option EventStatus
  | "pending" => some .pending
  | "processing" => some .processing
  | "succeeded" => some .succeeded
  | "failed" => some .failed
  | "dlq" => some .dlq
  | "cancelled" => some .cancelled
  | _ => none

def BoundValue.text? : BoundValue → Option String
  | .text value => some value
  | .number _ => none

/-- An expression, whose values are in their places. -/
abbrev Expression := List (Sql.Token BoundValue)

/-- The expression is this text, but for the values that are bound. -/
def Expression.reads (expression : Expression) (text : String) : Bool :=
  decide (expression.map (Sql.Token.map fun _ => ()) =
    (Sql.tokens text.toList).map (Sql.Token.map fun _ => ()))

/-- What an assignment writes to a row when it reads the columns of `old`. -/
structure ColumnWrite where
  set : OutboxEvent → OutboxEvent → OutboxEvent
  set_id : ∀ old row, (set old row).id = row.id

namespace ColumnWrite

def status (status : EventStatus) : ColumnWrite :=
  ⟨fun _ row => { row with status := status }, fun _ _ => rfl⟩

def incrementRetryCount : ColumnWrite :=
  ⟨fun old row => { row with retryCount := old.retryCount + 1 }, fun _ _ => rfl⟩

def nextRetryAt (time : Nat → Int) : ColumnWrite :=
  ⟨fun old row => { row with nextRetryAt := some (time old.retryCount) }, fun _ _ => rfl⟩

def lastError (text : EventId → Option String) : ColumnWrite :=
  ⟨fun old row => { row with lastError := text old.id }, fun _ _ => rfl⟩

def updatedAt (time : Int) : ColumnWrite :=
  ⟨fun _ row => { row with updatedAt := time }, fun _ _ => rfl⟩

def processingStartedAt (time : Option Int) : ColumnWrite :=
  ⟨fun _ row => { row with processingStartedAt := time }, fun _ _ => rfl⟩

def processedAt (time : Option Int) : ColumnWrite :=
  ⟨fun _ row => { row with processedAt := time }, fun _ _ => rfl⟩

def processedByWorker (worker : EventId → Option String) : ColumnWrite :=
  ⟨fun old row => { row with processedByWorker := worker old.id }, fun _ _ => rfl⟩

end ColumnWrite

/-- A column of times that may be NULL. -/
def readTime (now : Int) (expression : Expression) : Option (Option Int) :=
  if expression.reads "NOW()" then some (some now)
  else if expression.reads "NULL" then some none
  else none

/-- `CASE id WHEN ... END`, NULL when no branch matches. -/
def readCaseId (expression : Expression) : Option (EventId → Option String) :=
  match Sql.readCase expression with
  | some ("id", branches) =>
    some fun id => (branches.lookup (.text id)).bind BoundValue.text?
  | _ => none

namespace Adapter

variable (a : Adapter)

/-- How the time of the next retry is computed. -/
def delayText : String :=
  match a with
  | .postgres => "NOW() + (? * power(?, retry_count)) * interval '1 millisecond'"
  | .mysql => "DATE_ADD(NOW(), INTERVAL CEIL((? * POW(?, retry_count)) / 1000) SECOND)"

def delay (config : BackoffConfig) (retryCount : Nat) : Int :=
  match a with
  | .postgres => PgEventRepository.backoffDelay config retryCount
  | .mysql => MySQLEventRepository.backoffDelay config retryCount

def readDelay (expression : Expression) : Option BackoffConfig :=
  if expression.reads a.delayText then
    match expression.filterMap Sql.Token.param? with
    | [.number base, .number multiplier] => some ⟨base, multiplier⟩
    | _ => none
  else none

/-- `column = expression` -/
def columnWrite (now : Int) (column : String) (expression : Expression) : Option ColumnWrite :=
  match column with
  | "status" =>
    match expression with
    | [.quoted name] => (EventStatus.ofName name).map .status
    | _ => none
  | "retry_count" =>
    if expression.reads "retry_count + 1" then some .incrementRetryCount else none
  | "next_retry_at" => (a.readDelay expression).map fun config =>
    .nextRetryAt fun retryCount => now + a.delay config retryCount
  | "last_error" => (readCaseId expression).map .lastError
  | "updated_at" => if expression.reads "NOW()" then some (.updatedAt now) else none
  | "processing_started_at" => (readTime now expression).map .processingStartedAt
  | "processed_at" => (readTime now expression).map .processedAt
  | "processed_by_worker" => (readCaseId expression).map .processedByWorker
  | _ => none

/-- On PostgreSQL every assignment reads the old row, on MySQL the row that
the assignments before it have left. -/
def assignColumns (writes : List ColumnWrite) (row : OutboxEvent) : OutboxEvent :=
  match a with
  | .postgres => writes.foldl (fun new write => write.set row new) row
  | .mysql => writes.foldl (fun new write => write.set new new) row

theorem assignColumns_id (writes : List ColumnWrite) (row : OutboxEvent) :
    (a.assignColumns writes row).id = row.id := by
  have hkeeps : ∀ (read : OutboxEvent → OutboxEvent) (new : OutboxEvent),
      (writes.foldl (fun new (write : ColumnWrite) => write.set (read new) new) new).id =
        new.id := by
    intro read
    induction writes with
    | nil => exact fun _ => rfl
    | cons write writes ih => exact fun new => (ih _).trans (write.set_id _ new)
  cases a with
  | postgres => exact hkeeps (fun _ => row) row
  | mysql => exact hkeeps id row

end Adapter

/-- A part of a `WHERE`. -/
def readCondition (expression : Expression) : Option (OutboxEvent → Bool) :=
  if expression.reads "retry_count < max_retries" then
    some fun row => decide ((row.retryCount : Int) < row.maxRetries)
  else
    match Sql.readIn expression with
    | some ("id", values) => some fun row => decide (BoundValue.text row.id ∈ values)
    | _ => none

/-- The update that a database makes of a statement, if it understands it. -/
def Adapter.readUpdate (a : Adapter) (now : Int) (statement : BoundStatement) :
    Option OutboxUpdate := do
  let tokens ← Sql.bound statement.sql statement.params
  let update ← Sql.readUpdate tokens
  let writes ← update.assignments.mapM fun assignment =>
    a.columnWrite now assignment.1 assignment.2
  let conditions ← update.conditions.mapM readCondition
  if update.table = "outbox_events" then
    some
      { guard := fun row => conditions.all fun condition => condition row
        assign := a.assignColumns writes
        assign_pk := a.assignColumns_id writes }
  else none

end Outboxy
