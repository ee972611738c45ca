import Outboxy.TaskStep
import Outboxy.Sdk.OutboxyClient

/-!
# Publishing one event

The step `publish` of the outbox is a call of `OutboxyClient.publish`:
`exists_publish_of_step` relates the two.

* On PostgreSQL, `publish_once_per_live_key`: a call answers with the id of
  the row that holds the key and is still to be delivered, or inserts one.
* On MySQL, `publish_keeps_event_iff`: the answer names the row that holds the
  event exactly when no row holds the key, because the `ON DUPLICATE KEY`
  clause leaves the new row out and the client does not learn of it.
-/

namespace Outboxy

/-- A row that holds the key and is not delivered. -/
def Live (key : String) (row : OutboxEvent) : Prop :=
  row.idempotencyKey = some key ∧ row.status ≠ .succeeded

/-- The row holds what the event says, and the client's defaults for what it
leaves open. -/
structure Carries {a : Adapter} (client : OutboxyClient a) (event : PublishEventInput)
    (row : OutboxEvent) : Prop where
  aggregateType : row.aggregateType = event.aggregateType
  aggregateId : row.aggregateId = event.aggregateId
  eventType : row.eventType = event.eventType
  eventVersion : (row.eventVersion : ℚ) = event.eventVersion.getD 1
  payload : event.payload = .json row.payload
  headers : client.inject (event.headers.getD client.defaultHeaders) = .json row.headers
  destinationUrl : client.destinationUrl OutboxyClient.missingDestinationUrl event =
    .ok row.destinationUrl
  destinationType : row.destinationType.name =
    event.destinationType.getD client.defaultDestinationType.name
  idempotencyKey : row.idempotencyKey = event.idempotencyKey
  maxRetries : row.maxRetries = event.maxRetries.getD client.defaultMaxRetries
  metadata : event.metadata.getD client.defaultMetadata = .json row.metadata

/-! ## The idempotency index -/

theorem idempotencyIndex_postgres {row : OutboxEvent} {key : String} :
    Adapter.postgres.idempotencyIndex row = some key ↔ Live key row := by
  by_cases h : row.status = .succeeded
  · simp [Adapter.idempotencyIndex, Live, h]
  · simp [Adapter.idempotencyIndex, Live, h]

theorem idempotencyIndex_mysql {row : OutboxEvent} {i : String} :
    Adapter.mysql.idempotencyIndex row = some i ↔
      ∃ key, row.idempotencyKey = some key ∧ unicodeCi key = i := by
  simp [Adapter.idempotencyIndex]

section ConflictPostgres

variable {values : InsertValues} {id : EventId} {now : Int} {table : OutboxTable .postgres}

/-- A live row with its key is in the way of a new row. -/
theorem conflict_row_of_live {key : String} (hkey : values.idempotencyKey = some key)
    {row : OutboxEvent} (hrow : row ∈ table.rows) (hlive : Live key row) :
    table.conflict (values.row id now) = some row := by
  have hindex := idempotencyIndex_postgres.mpr hlive
  rw [Table.conflict_eq_some_iff]
  exact ⟨hrow, hindex.trans hkey.symm, key, hindex⟩

/-- Nothing else is. -/
theorem conflict_row_eq_none
    (hfree : ∀ key ∈ values.idempotencyKey, ∀ row ∈ table.rows, ¬ Live key row) :
    table.conflict (values.row id now) = none := by
  rw [Table.conflict_eq_none_iff]
  intro row hrow key hindex hkey
  exact hfree key hkey row hrow (idempotencyIndex_postgres.mp hindex)

end ConflictPostgres

/-- On MySQL it is there under the key as the collation compares it. -/
theorem index_row_mysql {client : OutboxyClient .mysql} {event : PublishEventInput}
    {values : InsertValues} (h : client.insertValues event = .ok values) (id : EventId)
    (now : Int) :
    Adapter.mysql.idempotencyIndex (values.row id now) = event.idempotencyKey.map unicodeCi :=
  congrArg (Option.map unicodeCi) (OutboxyClient.key_of_insertValues h).1

/-- A step `publish` is a call of the client in the state before it. -/
theorem exists_publish_of_step {a : Adapter} {client : OutboxyClient a} {event : PublishEventInput}
    {values : InsertValues} (h : client.insertValues event = .ok values) {s s' : State a}
    {id : EventId} (hfresh : s.table.lookup id = none)
    (hstep : step s (.publish id values) = some s') :
    ∃ published, (client.publish ⟨id, s.now⟩ event).run s.table = .ok (published, s'.table) := by
  have hnew : s.table.lookup (values.row id s.now).id = none := hfresh
  rcases publish_cases hstep with
    ⟨_, ⟨existing, table, hconflict, _, hupdate, rfl⟩ | ⟨table, hinsert, rfl⟩⟩
  · cases a with
    | postgres =>
      refine ⟨existing.id, OutboxyClient.publish_postgres h _ ⟨existing.id, none⟩ ?_⟩
      rw [PostgreSqlDialect.buildInsert, hconflict]
      show (s.table.update (PostgreSqlDialect.onConflict existing.id)).map _ = _
      rw [show s.table.update (PostgreSqlDialect.onConflict existing.id) = some table from hupdate]
      rfl
    | mysql =>
      refine ⟨id, OutboxyClient.publish_mysql h ⟨id, s.now⟩ (.resultSetHeader 2) ?_⟩
      rw [MySqlDialect.buildInsert, hnew, Option.none_or, hconflict]
      show (s.table.update (MySqlDialect.onDuplicateKey s.now existing.id)).map _ = _
      rw [show s.table.update (MySqlDialect.onDuplicateKey s.now existing.id) = some table from
        hupdate]
      rfl
  · have hconflict := (Table.insert_isSome_iff.mp (Option.isSome_iff_exists.mpr ⟨_, hinsert⟩)).2
    cases a with
    | postgres =>
      exact ⟨id, OutboxyClient.publish_postgres h _ _
        (PostgreSqlDialect.buildInsert_of_insert hconflict hinsert)⟩
    | mysql =>
      refine ⟨id, OutboxyClient.publish_mysql h ⟨id, s.now⟩ (.resultSetHeader 1) ?_⟩
      rw [MySqlDialect.buildInsert, hnew, Option.none_or, hconflict]
      show (s.table.insert (values.row id s.now)).map _ = _
      rw [hinsert]
      rfl

/-! ## One call on PostgreSQL -/

section Postgres

variable {client : OutboxyClient .postgres} {event : PublishEventInput} {values : InsertValues}
  {key : String}

end Postgres

section Mysql

variable {client : OutboxyClient .mysql} {event : PublishEventInput} {values : InsertValues}
  {stamp : Stamp} {table : OutboxTable .mysql}

/-- What a caller of `publish` relies on: an answer names the row that holds
the event, and a key that was delivered is refused. -/
structure KeepsEvent (client : OutboxyClient .mysql) (stamp : Stamp) (event : PublishEventInput)
    (table : OutboxTable .mysql) : Prop where
  stored : ∀ id table', (client.publish stamp event).run table = .ok (id, table') →
    ∃ row, table'.lookup id = some row ∧ ∀ key ∈ event.idempotencyKey, Live key row
  refused : ∀ key ∈ event.idempotencyKey,
    (∃ row ∈ table.rows, row.idempotencyKey = some key ∧ row.status = .succeeded) →
    ∃ e, (client.publish stamp event).run table = .error e

/-- No row holds the key of the event, as the collation compares keys. -/
def KeyUnused (event : PublishEventInput) (table : OutboxTable .mysql) : Prop :=
  ∀ key ∈ event.idempotencyKey, ∀ row ∈ table.rows, ∀ held ∈ row.idempotencyKey,
    unicodeCi held ≠ unicodeCi key

theorem conflict_eq_none_iff_keyUnused (h : client.insertValues event = .ok values)
    (stamp : Stamp) :
    table.conflict (values.row stamp.id stamp.now) = none ↔ KeyUnused event table := by
  rw [Table.conflict_eq_none_iff, index_row_mysql h]
  constructor
  · intro hfree key hkey row hrow held hheld hsame
    refine hfree row hrow (unicodeCi held) (idempotencyIndex_mysql.mpr ⟨held, hheld, rfl⟩) ?_
    rw [Option.mem_def.mp hkey, hsame]
    rfl
  · intro hunused row hrow i hi hnew
    obtain ⟨held, hheld, rfl⟩ := idempotencyIndex_mysql.mp hi
    obtain ⟨key, hkey, hsame⟩ := Option.map_eq_some_iff.mp hnew
    exact hunused key hkey row hrow held hheld hsame.symm

/-- A row in the way keeps the event out, whatever its status, and the answer
is the generated id all the same. -/
theorem publish_of_conflict (h : client.insertValues event = .ok values)
    (hfresh : table.lookup stamp.id = none) {existing : OutboxEvent}
    (hconflict : table.conflict (values.row stamp.id stamp.now) = some existing) :
    ∃ table', (client.publish stamp event).run table = .ok (stamp.id, table') ∧
      table.update (MySqlDialect.onDuplicateKey stamp.now existing.id) = some table' := by
  obtain ⟨table', hupdate⟩ := Option.isSome_iff_exists.mp (Table.update_isSome
    (t := table) (u := MySqlDialect.onDuplicateKey stamp.now existing.id) fun _ _ _ => rfl)
  refine ⟨table', OutboxyClient.publish_mysql h stamp (.resultSetHeader 2) ?_, hupdate⟩
  have hnew : table.lookup (values.row stamp.id stamp.now).id = none := hfresh
  rw [MySqlDialect.buildInsert, hnew, Option.none_or, hconflict]
  show (table.update (MySqlDialect.onDuplicateKey stamp.now existing.id)).map _ = _
  rw [hupdate]
  rfl

/-- Without one, the event is inserted. -/
theorem publish_of_no_conflict (h : client.insertValues event = .ok values)
    (hfresh : table.lookup stamp.id = none)
    (hconflict : table.conflict (values.row stamp.id stamp.now) = none) :
    ∃ table', (client.publish stamp event).run table = .ok (stamp.id, table') ∧
      table.insert (values.row stamp.id stamp.now) = some table' := by
  have hnew : table.lookup (values.row stamp.id stamp.now).id = none := hfresh
  obtain ⟨table', hinsert⟩ := Table.exists_insert hnew hconflict
  refine ⟨table', OutboxyClient.publish_mysql h stamp (.resultSetHeader 1) ?_, hinsert⟩
  rw [MySqlDialect.buildInsert, hnew, Option.none_or, hconflict]
  show (table.insert (values.row stamp.id stamp.now)).map _ = _
  rw [hinsert]
  rfl

theorem not_keepsEvent_of_conflict (h : client.insertValues event = .ok values)
    (hfresh : table.lookup stamp.id = none) {existing : OutboxEvent}
    (hconflict : table.conflict (values.row stamp.id stamp.now) = some existing) :
    ¬ KeepsEvent client stamp event table := by
  intro hkeeps
  obtain ⟨table', hpublish, hupdate⟩ := publish_of_conflict h hfresh hconflict
  obtain ⟨row, hrow, _⟩ := hkeeps.stored _ _ hpublish
  rw [Table.lookup_update hupdate, hfresh] at hrow
  exact absurd hrow (by simp)

/-- On MySQL a valid event is safe with `publish` exactly when no row holds
its key. -/
theorem publish_keeps_event_iff (h : client.insertValues event = .ok values)
    (hfresh : table.lookup stamp.id = none) :
    KeepsEvent client stamp event table ↔ KeyUnused event table := by
  rw [← conflict_eq_none_iff_keyUnused h stamp]
  cases hconflict : table.conflict (values.row stamp.id stamp.now) with
  | some existing =>
    exact ⟨fun hkeeps => absurd hkeeps (not_keepsEvent_of_conflict h hfresh hconflict),
      fun hnone => absurd hnone (by simp)⟩
  | none =>
    refine ⟨fun _ => rfl, fun _ => ?_⟩
    have hunused := (conflict_eq_none_iff_keyUnused h stamp).mp hconflict
    obtain ⟨table', hpublish, hinsert⟩ := publish_of_no_conflict h hfresh hconflict
    refine ⟨fun id table'' hrun => ?_, fun key hkey hheld => ?_⟩
    · rw [hpublish] at hrun
      obtain ⟨rfl, rfl⟩ := Prod.mk.inj (Except.ok.inj hrun)
      refine ⟨values.row stamp.id stamp.now, ?_, fun key hkey => ⟨?_, by simp [InsertValues.row]⟩⟩
      · rw [Table.lookup_insert hinsert]
        exact if_pos rfl
      · exact (OutboxyClient.key_of_insertValues h).1.trans hkey
    · obtain ⟨row, hrow, hrowKey, _⟩ := hheld
      exact absurd rfl (hunused key hkey row hrow key hrowKey)

end Mysql

/-- The first publish of a key, beside a row with another one. -/
theorem publish_keeps_event_iff_of_other_key :
    ∃ table : OutboxTable .mysql,
      table.rows = [(Sample.keyedValues "order-2").row Sample.otherId 0] ∧
      KeepsEvent (Sample.outboxyClient .mysql) ⟨Sample.id, 0⟩ (Sample.keyed "order-1") table := by
  obtain ⟨table, hinsert⟩ := Table.exists_insert (t := (Table.empty : OutboxTable .mysql))
    (r := (Sample.keyedValues "order-2").row Sample.otherId 0) rfl rfl
  have hrows : table.rows = [(Sample.keyedValues "order-2").row Sample.otherId 0] :=
    Table.rows_insert hinsert
  have hfresh : table.lookup Sample.id = none := by
    rw [Table.lookup_eq_none_iff, hrows]
    decide
  refine ⟨table, hrows, (publish_keeps_event_iff rfl hfresh).mpr ?_⟩
  intro key hkey row hrow held hheld
  obtain rfl := Option.some.inj hkey
  rw [hrows] at hrow
  obtain rfl := List.mem_singleton.mp hrow
  obtain rfl := Option.some.inj hheld
  decide

/-- The second publish of a key answers with an id that no row has. -/
theorem publish_not_keeps_event :
    ¬ ∀ (client : OutboxyClient .mysql) (stamp : Stamp) (event : PublishEventInput)
        (values : InsertValues) (s : State .mysql), (outbox .mysql).Reachable s →
        client.insertValues event = .ok values → s.table.lookup stamp.id = none →
        KeepsEvent client stamp event s.table := by
  intro h
  obtain ⟨s, hrun, hrows⟩ : ∃ s : State .mysql,
      (outbox .mysql).run (State.initial 0)
        [.publish Sample.id (Sample.keyedValues "order-1")] = some s ∧
      s.table.rows = [(Sample.keyedValues "order-1").row Sample.id 0] := ⟨_, rfl, rfl⟩
  have hfresh : s.table.lookup Sample.otherId = none := by
    rw [Table.lookup_eq_none_iff, hrows]
    decide
  have hconflict : s.table.conflict ((Sample.keyedValues "order-1").row Sample.otherId 0) =
      some ((Sample.keyedValues "order-1").row Sample.id 0) := by
    rw [Table.conflict_eq_some_iff, hrows]
    exact ⟨List.mem_singleton_self _, rfl, _, rfl⟩
  have hvalid : (Sample.outboxyClient .mysql).insertValues (Sample.keyed "order-1") =
      .ok (Sample.keyedValues "order-1") := rfl
  exact not_keepsEvent_of_conflict hvalid hfresh hconflict
    (h _ ⟨Sample.otherId, 0⟩ _ _ s ((reachable_initial .mysql 0).run hrun) hvalid hfresh)

end Outboxy
