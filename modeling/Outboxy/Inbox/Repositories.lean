import Outboxy.Sdk.ReceiveBatch

/-!
# The inbox repositories of the two adapters

`PgInboxRepository` and `MySqlInboxRepository` receive single events and
batches, with the statements that the dialects build as well.  A batch is one
`INSERT` and one `SELECT` of the keys, from which the statuses are derived.

* `run_receive`: `receive` stores the event unless its key is taken.
* `receiveBatch_postgres` and `receiveBatch_mysql`: the answer of a batch,
  event by event, from the id that is found under the key.
* `batchAsSequential_iff`: when a batch is answered as its events would be one
  after the other.

Both paths leave the table `insertFree rows`; what can differ is how a row of
the batch is classified.
-/

namespace Outboxy

/-! ## Input -/

/-- `InboxEventInput`, whose schema restricts the key as `receive` of the
client does. -/
structure InboxEventInput where
  idempotencyKey : String
  validKey : ValidKey idempotencyKey
  aggregateType : String
  aggregateId : String
  eventType : String
  payload : JsValue
  source : Option String := none
  eventVersion : Option Int := none
  headers : Option JsValue := none
  metadata : Option JsValue := none

/-- `JSON.stringify`.  The text of its error is the engine's. -/
def jsonStringify : JsValue → Except SdkError Json
  | .json value => .ok value
  | .unserializable => .error (.unexpected "JSON.stringify")

/-- The row that an insert stores for an event. -/
def InboxEventInput.row (event : InboxEventInput) (stamp : Stamp) :
    Except SdkError InboxEvent := do
  let payload ← jsonStringify event.payload
  let headers ← jsonStringify (event.headers.getD (.json (.obj [])))
  let metadata ← jsonStringify (event.metadata.getD (.json (.obj [])))
  return {
    id := stamp.id
    idempotencyKey := event.idempotencyKey
    source := event.source
    aggregateType := event.aggregateType
    aggregateId := event.aggregateId
    eventType := event.eventType
    eventVersion := event.eventVersion.getD 1
    payload := payload
    headers := headers
    metadata := metadata
    status := .processed
    error := none
    receivedAt := stamp.now
    processedAt := some stamp.now }

/-- How many parameters a statement can bind, in the protocol of either
database. -/
def boundParameters : Nat := 65535

/-- A statement with its number of parameters. -/
def queryWith {τ β : Type} (parameters : Nat) (statement : τ → Option (β × τ)) : Sdk τ β :=
  if parameters ≤ boundParameters then query statement
  else throw (.unexpected "too many parameters")

variable {collate : String → String}

/-! ## The repositories -/

namespace PgInboxRepository

def receive (stamp : Stamp) (event : InboxEventInput) :
    Sdk (InboxTable collate) InboxReceiveResult := do
  let row ← event.row stamp
  let rows ← queryWith 10 (PostgreSqlInboxDialect.buildInboxInsert row)
  match rows with
  | [] => return ⟨none, .duplicate⟩
  | row :: _ => return ⟨some row.id, .processed⟩

/-- The result for one event.  An id is a UUID, so `!eventId` says that no id
was found. -/
def batchResult (insertedIds : List EventId) (keyToId : OrderedMap (Option String) EventId)
    (event : InboxEventInput) : Except SdkError InboxReceiveResult :=
  match keyToId.get? (some event.idempotencyKey) with
  | none =>
    .error (.unexpected ("Inbox event with idempotency_key '" ++ event.idempotencyKey ++
      "' not found after INSERT ON CONFLICT DO NOTHING"))
  | some eventId =>
    .ok ⟨some eventId, if eventId ∈ insertedIds then .processed else .duplicate⟩

def receiveBatch (events : List (Stamp × InboxEventInput)) :
    Sdk (InboxTable collate) (List InboxReceiveResult) := do
  if events.isEmpty then return []
  let rows ← (events.mapM fun event => event.2.row event.1 : Except SdkError (List InboxEvent))
  let result ←
    queryWith (10 * events.length) (PostgreSqlInboxDialect.buildInboxBulkInsert rows)
  let insertedIds := result.map QueryRow.id
  let idempotencyKeys := events.map fun event => event.2.idempotencyKey
  -- `= ANY($1)` binds the list of keys as one parameter.
  let checkResult ← queryWith 1 fun table =>
    some (findByIdempotencyKeys idempotencyKeys table, table)
  let keyToId := OrderedMap.ofList QueryRow.idempotencyKey QueryRow.id checkResult
  (events.mapM fun event => batchResult insertedIds keyToId event.2 :
    Except SdkError (List InboxReceiveResult))

end PgInboxRepository

namespace MySqlInboxRepository

def receive (stamp : Stamp) (event : InboxEventInput) :
    Sdk (InboxTable collate) InboxReceiveResult := do
  let row ← event.row stamp
  let result ← queryWith 11 fun table => some (MySqlInboxDialect.buildInboxInsert row table)
  match result with
  | .resultSetHeader 0 => return ⟨none, .duplicate⟩
  | _ => return ⟨some stamp.id, .processed⟩

/-- The result for one event, whose row was to be stored under the stamp's
id. -/
def batchResult (keyToId : OrderedMap (Option String) EventId)
    (event : Stamp × InboxEventInput) : Except SdkError InboxReceiveResult :=
  match keyToId.get? (some event.2.idempotencyKey) with
  | none =>
    .error (.unexpected ("Inbox event with idempotency_key '" ++ event.2.idempotencyKey ++
      "' not found after INSERT IGNORE"))
  | some existingId =>
    .ok ⟨some existingId, if existingId = event.1.id then .processed else .duplicate⟩

def receiveBatch (events : List (Stamp × InboxEventInput)) :
    Sdk (InboxTable collate) (List InboxReceiveResult) := do
  if events.isEmpty then return []
  let rows ← (events.mapM fun event => event.2.row event.1 : Except SdkError (List InboxEvent))
  let _ ← queryWith (11 * events.length) fun table =>
    some (MySqlInboxDialect.buildInboxBulkInsert rows table)
  let idempotencyKeys := events.map fun event => event.2.idempotencyKey
  let existingRows ← queryWith idempotencyKeys.length fun table =>
    some (findByIdempotencyKeys idempotencyKeys table, table)
  let keyToId := OrderedMap.ofList QueryRow.idempotencyKey QueryRow.id existingRows
  (events.mapM (batchResult keyToId) : Except SdkError (List InboxReceiveResult))

end MySqlInboxRepository

/-! `InboxRepository`, as either adapter implements it. -/

namespace Adapter

def receive (a : Adapter) (stamp : Stamp) (event : InboxEventInput) :
    Sdk (InboxTable collate) InboxReceiveResult :=
  match a with
  | .postgres => PgInboxRepository.receive stamp event
  | .mysql => MySqlInboxRepository.receive stamp event

def receiveBatch (a : Adapter) (events : List (Stamp × InboxEventInput)) :
    Sdk (InboxTable collate) (List InboxReceiveResult) :=
  match a with
  | .postgres => PgInboxRepository.receiveBatch events
  | .mysql => MySqlInboxRepository.receiveBatch events

end Adapter

/-! ## One event after the other -/

/-- `JSON.stringify` gives every part of the event a text. -/
structure InboxEventInput.Serializable (event : InboxEventInput) : Prop where
  payload : ∃ value, event.payload = .json value
  headers : ∃ value, event.headers.getD (.json (.obj [])) = .json value
  metadata : ∃ value, event.metadata.getD (.json (.obj [])) = .json value

theorem jsonStringify_eq_ok {value : JsValue} {json : Json} :
    jsonStringify value = .ok json ↔ value = .json json := by
  cases value <;> simp [jsonStringify]

/-- What an event is stored as, if it is. -/
structure InboxEventInput.IsRow (event : Stamp × InboxEventInput) (row : InboxEvent) : Prop where
  built : event.2.row event.1 = .ok row
  serializable : event.2.Serializable
  id : row.id = event.1.id
  idempotencyKey : row.idempotencyKey = event.2.idempotencyKey

theorem InboxEventInput.isRow_of_row {event : InboxEventInput} {stamp : Stamp} {row : InboxEvent}
    (h : event.row stamp = .ok row) : IsRow (stamp, event) row := by
  have hbuilt := h
  unfold InboxEventInput.row at h
  obtain ⟨payload, hpayload, h⟩ := bind_eq_ok.mp h
  obtain ⟨headers, hheaders, h⟩ := bind_eq_ok.mp h
  obtain ⟨metadata, hmetadata, h⟩ := bind_eq_ok.mp h
  obtain rfl := Except.ok.inj h
  exact ⟨hbuilt, ⟨⟨_, jsonStringify_eq_ok.mp hpayload⟩, ⟨_, jsonStringify_eq_ok.mp hheaders⟩,
    ⟨_, jsonStringify_eq_ok.mp hmetadata⟩⟩, rfl, rfl⟩

theorem InboxEventInput.Serializable.exists_row {event : InboxEventInput} (h : event.Serializable)
    (stamp : Stamp) : ∃ row, event.row stamp = .ok row := by
  obtain ⟨⟨payload, hpayload⟩, ⟨headers, hheaders⟩, ⟨metadata, hmetadata⟩⟩ := h
  unfold InboxEventInput.row
  rw [hpayload, hheaders, hmetadata]
  exact ⟨_, rfl⟩

/-- The rows of a list of events. -/
abbrev StoredAs (events : List (Stamp × InboxEventInput)) (rows : List InboxEvent) : Prop :=
  List.Forall₂ InboxEventInput.IsRow events rows

/-- The UUIDs generated for the events are new. -/
structure NewStamps (events : List (Stamp × InboxEventInput)) (table : InboxTable collate) :
    Prop where
  distinct : (events.map fun event => event.1.id).Nodup
  fresh : ∀ event ∈ events, table.lookup event.1.id = none

section Stored

variable {events events' : List (Stamp × InboxEventInput)} {rows rows' : List InboxEvent}
  {table : InboxTable collate}

theorem exists_storedAs (h : ∀ event ∈ events, event.2.Serializable) :
    ∃ rows, StoredAs events rows := by
  induction events with
  | nil => exact ⟨[], .nil⟩
  | cons event events ih =>
    obtain ⟨row, hrow⟩ := (h event List.mem_cons_self).exists_row event.1
    obtain ⟨rows, hrows⟩ := ih fun e he => h e (List.mem_cons_of_mem _ he)
    exact ⟨row :: rows, .cons (InboxEventInput.isRow_of_row hrow) hrows⟩

theorem StoredAs.ids (h : StoredAs events rows) :
    rows.map InboxEvent.id = events.map fun event => event.1.id := by
  induction h with
  | nil => rfl
  | cons hrow _ ih => rw [List.map_cons, List.map_cons, hrow.id, ih]

theorem StoredAs.keys (h : StoredAs events rows) :
    rows.map InboxEvent.idempotencyKey = events.map fun event => event.2.idempotencyKey := by
  induction h with
  | nil => rfl
  | cons hrow _ ih => rw [List.map_cons, List.map_cons, hrow.idempotencyKey, ih]

theorem StoredAs.mapM_row (h : StoredAs events rows) :
    (events.mapM fun event => event.2.row event.1) = .ok rows :=
  List.mapM_eq_ok_iff.mpr (h.imp fun _ _ hrow => hrow.built)

theorem StoredAs.fresh (h : StoredAs events rows) (hnew : NewStamps events table) :
    table.Fresh rows := by
  refine ⟨fun row hrow => ?_, h.ids ▸ hnew.distinct⟩
  have hmem : row.id ∈ events.map fun event => event.1.id := h.ids ▸ List.mem_map_of_mem hrow
  obtain ⟨event, hevent, heq⟩ := List.mem_map.mp hmem
  exact heq ▸ hnew.fresh event hevent

/-- The same events give rows that say the same. -/
theorem StoredAs.sameContent (h : StoredAs events rows) (h' : StoredAs events' rows')
    (hsame : events.map Prod.snd = events'.map Prod.snd) : List.Forall₂ SameContent rows rows' := by
  induction h generalizing events' rows' with
  | nil =>
    cases h' with
    | nil => exact .nil
    | cons => exact absurd hsame (by simp)
  | cons hrow _ ih =>
    cases h' with
    | nil => exact absurd hsame (by simp)
    | cons hrow' hrows' =>
      obtain ⟨hevent, hevents⟩ := List.cons.inj hsame
      refine .cons ⟨?_, ?_⟩ (ih hrows' hevents)
      · obtain ⟨payload, hpayload⟩ := hrow.serializable.payload
        obtain ⟨headers, hheaders⟩ := hrow.serializable.headers
        obtain ⟨metadata, hmetadata⟩ := hrow.serializable.metadata
        have hbuilt := hrow.built
        have hbuilt' := hrow'.built
        rw [← hevent] at hbuilt'
        unfold InboxEventInput.row at hbuilt hbuilt'
        rw [hpayload, hheaders, hmetadata] at hbuilt hbuilt'
        obtain rfl := Except.ok.inj hbuilt
        obtain rfl := Except.ok.inj hbuilt'
        rfl
      · rw [hrow.idempotencyKey, hrow'.idempotencyKey, hevent]

end Stored

theorem queryWith_of_le {τ β : Type} {parameters : Nat} {statement : τ → Option (β × τ)}
    (h : parameters ≤ boundParameters) : queryWith parameters statement = query statement :=
  if_pos h

/-- `receive` stores the event unless its key is taken, and says whether it
was. -/
theorem run_receive (a : Adapter) {event : Stamp × InboxEventInput} {row : InboxEvent}
    {table : InboxTable collate} (hrow : InboxEventInput.IsRow event row)
    (h : table.Fresh [row]) :
    ∃ result, (a.receive event.1 event.2).run table = .ok (result, table.insertFree [row]) ∧
      result.status = receiveStatus (table.insertFree [row]) row := by
  have hnew := h.new row (List.mem_singleton_self _)
  have hsmall : 10 ≤ boundParameters ∧ 11 ≤ boundParameters := by decide
  rw [receiveStatus_head h]
  cases a with
  | postgres =>
    unfold Adapter.receive PgInboxRepository.receive
    rw [run_bind_ok (run_liftM hrow.built), queryWith_of_le hsmall.1]
    cases hconflict : table.conflict row with
    | some held =>
      have hquery : (query (PostgreSqlInboxDialect.buildInboxInsert row)).run table =
          .ok ([], table) := by
        simp [query, StateT.run, PostgreSqlInboxDialect.buildInboxInsert, hconflict]
      rw [run_bind_ok hquery, Table.insertFree_cons_of_conflict hconflict]
      exact ⟨_, rfl, rfl⟩
    | none =>
      obtain ⟨table', hinsert⟩ := Table.exists_insert hnew hconflict
      have hquery : (query (PostgreSqlInboxDialect.buildInboxInsert row)).run table =
          .ok ([⟨row.id, none⟩], table') := by
        simp [query, StateT.run, PostgreSqlInboxDialect.buildInboxInsert, hconflict, hinsert]
      rw [run_bind_ok hquery, Table.insertFree_cons_of_insert hinsert]
      exact ⟨_, rfl, rfl⟩
  | mysql =>
    unfold Adapter.receive MySqlInboxRepository.receive
    rw [run_bind_ok (run_liftM hrow.built), queryWith_of_le hsmall.2]
    cases hconflict : table.conflict row with
    | some held =>
      have hquery : (query fun table => some (MySqlInboxDialect.buildInboxInsert row table)).run
          table = .ok (.resultSetHeader 0, table) := by
        simp [query, StateT.run, MySqlInboxDialect.buildInboxInsert,
          Table.insert_of_conflict hconflict]
      rw [run_bind_ok hquery, Table.insertFree_cons_of_conflict hconflict]
      exact ⟨_, rfl, rfl⟩
    | none =>
      obtain ⟨table', hinsert⟩ := Table.exists_insert hnew hconflict
      have hquery : (query fun table => some (MySqlInboxDialect.buildInboxInsert row table)).run
          table = .ok (.resultSetHeader 1, table') := by
        simp [query, StateT.run, MySqlInboxDialect.buildInboxInsert, hinsert]
      rw [run_bind_ok hquery, Table.insertFree_cons_of_insert hinsert]
      exact ⟨_, rfl, rfl⟩

/-- One event after the other. -/
theorem run_receive_loop (a : Adapter) {events : List (Stamp × InboxEventInput)}
    {rows : List InboxEvent} {table : InboxTable collate} (hrows : StoredAs events rows)
    (h : table.Fresh rows) :
    ∃ results, (events.mapM fun event => a.receive event.1 event.2).run table =
        .ok (results, table.insertFree rows) ∧
      results.map InboxReceiveResult.status = rows.map (receiveStatus (table.insertFree rows)) :=
  run_mapM_of_fresh (fun _ _ _ hrow hfirst => run_receive a hrow hfirst) hrows h

/-! ## A batch -/

/-- Element by element, a loop answers with the wanted statuses. -/
theorem statuses_mapM_iff {α : Type} {R : α → InboxEvent → Prop}
    {f : α → Except SdkError InboxReceiveResult} {status : InboxEvent → ReceiveStatus}
    {P : InboxEvent → Prop} {xs : List α} {rows : List InboxEvent} (hrows : List.Forall₂ R xs rows)
    (hone : ∀ x row, R x row → x ∈ xs → row ∈ rows →
      ((f x).toOption.map InboxReceiveResult.status = some (status row) ↔ P row)) :
    (xs.mapM f).toOption.map (List.map InboxReceiveResult.status) = some (rows.map status) ↔
      ∀ row ∈ rows, P row := by
  induction hrows with
  | nil => simp [pure, Except.pure, Except.toOption]
  | @cons x row xs rows hrow _ ih =>
    have hfirst := hone x row hrow List.mem_cons_self List.mem_cons_self
    have hrest := ih fun y row' h hy hrow' =>
      hone y row' h (List.mem_cons_of_mem _ hy) (List.mem_cons_of_mem _ hrow')
    rw [List.forall_mem_cons, ← hfirst, ← hrest, List.mapM_cons]
    cases f x with
    | error e => simp [bind, Except.bind, Except.toOption]
    | ok result =>
      cases xs.mapM f with
      | error e => simp [bind, Except.bind, Except.toOption]
      | ok results => simp [bind, Except.bind, Except.toOption, pure, Except.pure]

theorem run_find (keys : List String) {parameters : Nat} (h : parameters ≤ boundParameters)
    (table : InboxTable collate) :
    (queryWith parameters fun table => some (findByIdempotencyKeys keys table, table)).run table =
      .ok (findByIdempotencyKeys keys table, table) := by
  rw [queryWith_of_le h]
  rfl

theorem run_liftM_eq_map {τ β : Type} (x : Except SdkError β) (s : τ) :
    (liftM x : Sdk τ β).run s = x.map fun b => (b, s) := by
  cases x <;> rfl

section Batch

variable {events : List (Stamp × InboxEventInput)} {rows : List InboxEvent}
  {table : InboxTable collate}

theorem receiveBatch_postgres (hrows : StoredAs events rows) (h : table.Fresh rows)
    (hfits : 10 * events.length ≤ boundParameters) :
    ∃ insertedIds, (∀ id, id ∈ insertedIds ↔
        ∃ row ∈ rows, row.id = id ∧ ((table.insertFree rows).lookup id).isSome) ∧
      (PgInboxRepository.receiveBatch events).run table =
        (events.mapM fun event => PgInboxRepository.batchResult insertedIds
          (keyToId (events.map fun event => event.2.idempotencyKey) (table.insertFree rows))
            event.2).map fun results => (results, table.insertFree rows) := by
  obtain ⟨inserted, hinsert, hids⟩ := buildInboxBulkInsert_postgres h
  refine ⟨inserted.map QueryRow.id, hids, ?_⟩
  unfold PgInboxRepository.receiveBatch
  split
  · rename_i hempty
    obtain rfl := List.isEmpty_iff.mp hempty
    cases hrows
    rfl
  · have hquery : (query (PostgreSqlInboxDialect.buildInboxBulkInsert rows)).run table =
        .ok (inserted, table.insertFree rows) := by
      simp [query, StateT.run, hinsert]
    rw [run_bind_ok (run_liftM hrows.mapM_row), queryWith_of_le hfits, run_bind_ok hquery]
    exact (run_bind_ok (run_find _ (by decide) _)).trans (run_liftM_eq_map _ _)

theorem receiveBatch_mysql (hrows : StoredAs events rows)
    (hfits : 11 * events.length ≤ boundParameters) :
    (MySqlInboxRepository.receiveBatch events).run table =
      (events.mapM (MySqlInboxRepository.batchResult
        (keyToId (events.map fun event => event.2.idempotencyKey) (table.insertFree rows)))).map
          fun results => (results, table.insertFree rows) := by
  unfold MySqlInboxRepository.receiveBatch
  split
  · rename_i hempty
    obtain rfl := List.isEmpty_iff.mp hempty
    cases hrows
    rfl
  · have hquery : (query fun table =>
        some (MySqlInboxDialect.buildInboxBulkInsert rows table)).run table =
          .ok (.resultSetHeader (MySqlInboxDialect.insertIgnore rows table).1,
            table.insertFree rows) := by
      rw [← insertIgnore_mysql rows table]
      rfl
    have hfits' : (events.map fun event => event.2.idempotencyKey).length ≤ boundParameters := by
      rw [List.length_map]
      omega
    rw [run_bind_ok (run_liftM hrows.mapM_row), queryWith_of_le hfits, run_bind_ok hquery]
    exact (run_bind_ok (run_find _ hfits' _)).trans (run_liftM_eq_map _ _)

/-- The row is found under its key, and the adapter's test says that it was
stored only if it was: PostgreSQL looks for the id that was found among those
of all rows that were stored. -/
def Classified (a : Adapter) (table : InboxTable collate) (rows : List InboxEvent)
    (row : InboxEvent) : Prop :=
  ∃ id, foundId table row = some id ∧
    (a = .postgres → (∃ r ∈ rows, r.id = id ∧ (table.lookup id).isSome) → id = row.id)

theorem receiveStatus_eq_of_foundId (h : table.Fresh rows) {row : InboxEvent} (hrow : row ∈ rows)
    {id : EventId} (hfound : foundId (table.insertFree rows) row = some id) :
    receiveStatus (table.insertFree rows) row =
      if id = row.id then .processed else .duplicate := by
  rw [← sliceResult_status (a := .postgres) h hrow, sliceResult, hfound]

/-- What the lookup by key finds for an event of the batch. -/
theorem get?_keyToId_of_isRow {event : Stamp × InboxEventInput} {row : InboxEvent}
    (hrow : InboxEventInput.IsRow event row) (hevent : event ∈ events) :
    (keyToId (events.map fun event => event.2.idempotencyKey) (table.insertFree rows)).get?
      (some event.2.idempotencyKey) = foundId (table.insertFree rows) row := by
  rw [← hrow.idempotencyKey]
  exact get?_keyToId_eq_foundId (List.mem_map.mpr ⟨event, hevent, hrow.idempotencyKey.symm⟩)

/-- On PostgreSQL the answer for an event is right exactly when its row is
classified. -/
theorem status_batchResult_postgres_iff {insertedIds : List EventId} (h : table.Fresh rows)
    (hids : ∀ id, id ∈ insertedIds ↔
      ∃ row ∈ rows, row.id = id ∧ ((table.insertFree rows).lookup id).isSome)
    {event : Stamp × InboxEventInput} {row : InboxEvent}
    (hrow : InboxEventInput.IsRow event row) (hevent : event ∈ events) (hmem : row ∈ rows) :
    (PgInboxRepository.batchResult insertedIds
      (keyToId (events.map fun event => event.2.idempotencyKey) (table.insertFree rows))
        event.2).toOption.map InboxReceiveResult.status =
        some (receiveStatus (table.insertFree rows) row) ↔
      Classified .postgres (table.insertFree rows) rows row := by
  rw [PgInboxRepository.batchResult, get?_keyToId_of_isRow hrow hevent]
  cases hid : foundId (table.insertFree rows) row with
  | none => simp [Classified, hid, Except.toOption]
  | some id =>
    have hown : id = row.id → id ∈ insertedIds := by
      intro heq
      obtain ⟨held, hheld, _, rfl⟩ := foundId_eq_some_iff.mp hid
      exact (hids _).mpr ⟨row, hmem, heq.symm, by rw [Table.lookup_of_mem hheld]; rfl⟩
    have hclassified : Classified .postgres (table.insertFree rows) rows row ↔
        (id ∈ insertedIds → id = row.id) := by
      constructor
      · rintro ⟨id', hid', honly⟩ hinserted
        obtain rfl := Option.some.inj (hid.symm.trans hid')
        exact honly rfl ((hids id).mp hinserted)
      · intro honly
        exact ⟨id, hid, fun _ hstored => honly ((hids id).mpr hstored)⟩
    rw [receiveStatus_eq_of_foundId h hmem hid, hclassified]
    by_cases hinserted : id ∈ insertedIds
    · simp [hinserted, Except.toOption, eq_comm]
    · have hother : ¬id = row.id := mt hown hinserted
      simp [hinserted, hother, Except.toOption]

/-- On MySQL the answer is right exactly when the key finds a row. -/
theorem status_batchResult_mysql_iff (h : table.Fresh rows)
    {event : Stamp × InboxEventInput} {row : InboxEvent}
    (hrow : InboxEventInput.IsRow event row) (hevent : event ∈ events) (hmem : row ∈ rows) :
    (MySqlInboxRepository.batchResult
      (keyToId (events.map fun event => event.2.idempotencyKey) (table.insertFree rows))
        event).toOption.map InboxReceiveResult.status =
        some (receiveStatus (table.insertFree rows) row) ↔
      Classified .mysql (table.insertFree rows) rows row := by
  rw [MySqlInboxRepository.batchResult, get?_keyToId_of_isRow hrow hevent, ← hrow.id]
  cases hid : foundId (table.insertFree rows) row with
  | none => simp [Classified, hid, Except.toOption]
  | some id =>
    rw [receiveStatus_eq_of_foundId h hmem hid]
    simp [Classified, hid, Except.toOption]

/-- A batch is answered with the right statuses when each of its rows is
classified as it should be. -/
theorem statuses_receiveBatch_iff (a : Adapter) (hrows : StoredAs events rows)
    (h : table.Fresh rows) (hfits : a.inboxParameters * events.length ≤ boundParameters) :
    ((a.receiveBatch events).run table).toOption.map
        (fun answer => answer.1.map InboxReceiveResult.status) =
        some (rows.map (receiveStatus (table.insertFree rows))) ↔
      ∀ row ∈ rows, Classified a (table.insertFree rows) rows row := by
  cases a with
  | postgres =>
    obtain ⟨insertedIds, hids, hrun⟩ := receiveBatch_postgres hrows h hfits
    rw [← statuses_mapM_iff hrows (f := fun event => PgInboxRepository.batchResult insertedIds
      (keyToId (events.map fun event => event.2.idempotencyKey) (table.insertFree rows)) event.2)]
    · show ((PgInboxRepository.receiveBatch events).run table).toOption.map _ = _ ↔ _
      rw [hrun]
      cases events.mapM fun event => PgInboxRepository.batchResult _ _ event.2 <;> rfl
    · exact fun event row hrow hevent hmem =>
        status_batchResult_postgres_iff h hids hrow hevent hmem
  | mysql =>
    rw [← statuses_mapM_iff hrows (f := MySqlInboxRepository.batchResult
      (keyToId (events.map fun event => event.2.idempotencyKey) (table.insertFree rows)))]
    · show ((MySqlInboxRepository.receiveBatch events).run table).toOption.map _ = _ ↔ _
      rw [receiveBatch_mysql hrows hfits]
      cases events.mapM (MySqlInboxRepository.batchResult _) <;> rfl
    · exact fun event row hrow hevent hmem =>
        status_batchResult_mysql_iff h hrow hevent hmem

end Batch

/-! ## Which batches are classified -/

def storedKeys (table : InboxTable collate) : List String :=
  table.rows.map InboxEvent.idempotencyKey

/-- Keys that the index takes for one are one text. -/
def OneText (collate : String → String) (stored keys : List String) : Prop :=
  ∀ key ∈ keys, ∀ other ∈ stored ++ keys, collate other = collate key → other = key

instance (collate : String → String) (stored keys : List String) :
    Decidable (OneText collate stored keys) :=
  inferInstanceAs (Decidable (∀ key ∈ keys, ∀ other ∈ stored ++ keys,
    collate other = collate key → other = key))

/-- The keys that repeat are stored. -/
def RepeatsStored (stored keys : List String) : Prop :=
  (keys.filter fun key => key ∉ stored).Nodup

section Classified

variable {table : InboxTable collate} {rows : List InboxEvent}

/-- Two rows in one slot of the index are one row. -/
theorem eq_of_collate_eq {row row' : InboxEvent} (hrow : row ∈ table.rows)
    (hrow' : row' ∈ table.rows)
    (h : collate row.idempotencyKey = collate row'.idempotencyKey) : row = row' :=
  Table.eq_of_ix_eq hrow hrow' (i := collate row'.idempotencyKey)
    (congrArg some h) rfl

/-- Every row of the batch is found under its key exactly when no other text
took its slot. -/
theorem forall_found_iff (h : table.Fresh rows) :
    (∀ row ∈ rows, ∃ id, foundId (table.insertFree rows) row = some id) ↔
      OneText collate (storedKeys table) (rows.map InboxEvent.idempotencyKey) := by
  constructor
  · intro hfound key hkey other hother hsame
    obtain ⟨row, hrow, rfl⟩ := List.mem_map.mp hkey
    obtain ⟨id, hid⟩ := hfound row hrow
    obtain ⟨held, hheld, hheldKey, -⟩ := foundId_eq_some_iff.mp hid
    -- The key of either list is the key of a row in the slot.
    have hholder : ∃ holder ∈ (table.insertFree rows).rows, holder.idempotencyKey = other := by
      rcases List.mem_append.mp hother with hstored | hlisted
      · obtain ⟨r, hr, rfl⟩ := List.mem_map.mp hstored
        exact ⟨r, Table.mem_insertFree_of_mem hr rows, rfl⟩
      · obtain ⟨r, hr, rfl⟩ := List.mem_map.mp hlisted
        obtain ⟨id', hid'⟩ := hfound r hr
        obtain ⟨holder, hmem, hkey', -⟩ := foundId_eq_some_iff.mp hid'
        exact ⟨holder, hmem, hkey'⟩
    obtain ⟨holder, hmem, rfl⟩ := hholder
    rw [eq_of_collate_eq hmem hheld (by rw [hsame, hheldKey]), hheldKey]
  · intro htext row hrow
    obtain ⟨held, hheld⟩ := h.exists_conflict hrow (i := collate row.idempotencyKey) rfl
    obtain ⟨hmem, hslot, -⟩ := Table.conflict_eq_some_iff.mp hheld
    have hlisted : held.idempotencyKey ∈
        storedKeys table ++ rows.map InboxEvent.idempotencyKey := by
      rw [storedKeys, ← List.map_append]
      exact List.mem_map_of_mem (List.mem_append.mpr (Table.mem_of_mem_insertFree hmem))
    have hsame := htext _ (List.mem_map_of_mem hrow) _ hlisted (Option.some.inj hslot)
    exact ⟨held.id, foundId_eq_some_iff.mpr ⟨held, hmem, hsame, rfl⟩⟩

/-- A row that the batch stored holds a key that was not stored. -/
theorem not_mem_storedKeys (h : table.Fresh rows) {row : InboxEvent} (hrow : row ∈ rows)
    (hstored : row ∈ (table.insertFree rows).rows) :
    row.idempotencyKey ∉ storedKeys table := by
  intro hmem
  obtain ⟨r, hr, hkey⟩ := List.mem_map.mp hmem
  have heq := eq_of_collate_eq (Table.mem_insertFree_of_mem hr rows) hstored
    (congrArg collate hkey)
  exact Table.lookup_eq_none_iff.mp (h.new row hrow) r hr (congrArg InboxEvent.id heq)

/-- The ids that are found tell the rows of a batch apart exactly when the
repeated keys are stored. -/
theorem forall_stored_iff (h : table.Fresh rows)
    (hfound : ∀ row ∈ rows, ∃ id, foundId (table.insertFree rows) row = some id) :
    (∀ row ∈ rows, ∀ id, foundId (table.insertFree rows) row = some id →
        (∃ r ∈ rows, r.id = id ∧ ((table.insertFree rows).lookup id).isSome) → id = row.id) ↔
      RepeatsStored (storedKeys table) (rows.map InboxEvent.idempotencyKey) := by
  have hnodup : rows.Nodup := List.Nodup.of_map _ h.distinct
  unfold RepeatsStored
  rw [List.filter_map]
  constructor
  · intro hown
    -- The row that is found under a new key is the only one with that key.
    have hid : ∀ row ∈ rows, row.idempotencyKey ∉ storedKeys table →
        foundId (table.insertFree rows) row = some row.id := by
      intro row hrow hnew
      obtain ⟨id, hid⟩ := hfound row hrow
      obtain ⟨held, hheld, hkey, rfl⟩ := foundId_eq_some_iff.mp hid
      have hbatch : held ∈ rows := by
        rcases Table.mem_of_mem_insertFree hheld with hold | hlisted
        · exact absurd (hkey ▸ List.mem_map_of_mem hold) hnew
        · exact hlisted
      rw [hid, hown row hrow held.id hid
        ⟨held, hbatch, rfl, by rw [Table.lookup_of_mem hheld]; rfl⟩]
    refine List.Nodup.map_on (fun row hrow row' hrow' hsame => ?_) (hnodup.filter _)
    rw [List.mem_filter] at hrow hrow'
    have hrowId := hid row hrow.1 (by simpa using hrow.2)
    have hrowId' := hid row' hrow'.1 (by simpa using hrow'.2)
    obtain ⟨held, hheld, hkey, hheldId⟩ := foundId_eq_some_iff.mp hrowId
    have hshared : foundId (table.insertFree rows) row' = some row.id :=
      foundId_eq_some_iff.mpr ⟨held, hheld, hkey.trans hsame, hheldId⟩
    exact List.inj_on_of_nodup_map h.distinct hrow.1 hrow'.1
      (Option.some.inj (hshared.symm.trans hrowId'))
  · rintro hrepeats row hrow id hid ⟨r, hr, rfl, -⟩
    obtain ⟨held, hheld, hkey, heldId⟩ := foundId_eq_some_iff.mp hid
    obtain rfl : held = r := h.eq_of_lookup hr (heldId ▸ Table.lookup_of_mem hheld)
    have hnew := not_mem_storedKeys h hr hheld
    have hmem : held ∈ rows.filter
        ((fun key => decide (key ∉ storedKeys table)) ∘ InboxEvent.idempotencyKey) :=
      List.mem_filter.mpr ⟨hr, by simpa using hnew⟩
    have hmem' : row ∈ rows.filter
        ((fun key => decide (key ∉ storedKeys table)) ∘ InboxEvent.idempotencyKey) :=
      List.mem_filter.mpr ⟨hrow, by simpa [← hkey] using hnew⟩
    rw [List.inj_on_of_nodup_map hrepeats hmem hmem' hkey]

end Classified

/-! ## The batch against the events one after the other -/

/-- The statuses that a call returns, if it returns. -/
def returnedStatuses (call : Sdk (InboxTable collate) (List InboxReceiveResult))
    (table : InboxTable collate) : Option (List ReceiveStatus) :=
  (call.run table).toOption.map fun answer => answer.1.map InboxReceiveResult.status

/-- `receiveBatch` of `batch` against `receive` of the events of `single` in
order. -/
structure BatchAsSequential (a : Adapter) (table : InboxTable collate)
    (batch single : List (Stamp × InboxEventInput)) : Prop where
  statuses : returnedStatuses (a.receiveBatch batch) table =
    returnedStatuses (single.mapM fun event => a.receive event.1 event.2) table
  atMostOnce : ∀ results table', (a.receiveBatch batch).run table = .ok (results, table') →
    ∀ key, ((batch.map fun event => event.2.idempotencyKey).zip
      (results.map InboxReceiveResult.status)).count (key, .processed) ≤ 1
  inserted : ∀ results table', (a.receiveBatch batch).run table = .ok (results, table') →
    table'.rows.length =
      table.rows.length + (results.map InboxReceiveResult.status).count .processed

/-- What a batch must satisfy to be classified: its statement fits the
protocol, no key of it meets another text in its slot, and on PostgreSQL the
keys that it repeats are stored before. -/
structure Classifiable (a : Adapter) (table : InboxTable collate)
    (events : List InboxEventInput) : Prop where
  fits : a.inboxParameters * events.length ≤ boundParameters
  oneText : OneText collate (storedKeys table) (events.map InboxEventInput.idempotencyKey)
  repeatsStored : a = .postgres →
    RepeatsStored (storedKeys table) (events.map InboxEventInput.idempotencyKey)

section Stored

variable {table : InboxTable collate} {rows : List InboxEvent}

theorem receiveStatus_eq_processed_iff (h : table.Fresh rows) {row : InboxEvent}
    (hrow : row ∈ rows) :
    receiveStatus (table.insertFree rows) row = .processed ↔
      row ∈ (table.insertFree rows).rows := by
  unfold receiveStatus
  cases hlookup : (table.insertFree rows).lookup row.id with
  | none =>
    have hnot : row ∉ (table.insertFree rows).rows := fun hmem =>
      Table.lookup_eq_none_iff.mp hlookup row hmem rfl
    simpa using hnot
  | some r =>
    obtain rfl := h.eq_of_lookup hrow hlookup
    simpa using Table.mem_of_lookup hlookup

/-- At most one row of a batch is stored for a key. -/
theorem count_processed_le_one (h : table.Fresh rows) (key : String) :
    ((rows.map InboxEvent.idempotencyKey).zip
      (rows.map (receiveStatus (table.insertFree rows)))).count (key, .processed) ≤ 1 := by
  have hnodup : rows.Nodup := List.Nodup.of_map _ h.distinct
  have hkeys : ((rows.filter fun row =>
      receiveStatus (table.insertFree rows) row = .processed).map
        InboxEvent.idempotencyKey).Nodup := by
    refine List.Nodup.map_on (fun row hrow row' hrow' hsame => ?_) (hnodup.filter _)
    simp only [List.mem_filter, decide_eq_true_eq] at hrow hrow'
    exact eq_of_collate_eq ((receiveStatus_eq_processed_iff h hrow.1).mp hrow.2)
      ((receiveStatus_eq_processed_iff h hrow'.1).mp hrow'.2) (congrArg collate hsame)
  have hcount := List.nodup_iff_count_le_one.mp hkeys key
  rw [List.zip_map', List.count_eq_countP, List.countP_map]
  rw [List.count_eq_countP, List.countP_map, List.countP_filter] at hcount
  refine le_of_eq_of_le (List.countP_congr fun row _ => ?_) hcount
  simp [Prod.ext_iff]

/-- As many rows are new as are answered with `processed`. -/
theorem length_insertFree (h : table.Fresh rows) :
    (table.insertFree rows).rows.length = table.rows.length +
      (rows.map (receiveStatus (table.insertFree rows))).count .processed := by
  obtain ⟨new, hsub, hrows⟩ := Table.exists_rows_insertFree table rows
  have hnodup : rows.Nodup := List.Nodup.of_map _ h.distinct
  have hperm : new.Perm (rows.filter fun row =>
      receiveStatus (table.insertFree rows) row = .processed) := by
    refine (List.perm_ext_iff_of_nodup (hnodup.sublist hsub) (hnodup.filter _)).mpr
      fun row => ?_
    rw [List.mem_filter, decide_eq_true_iff]
    constructor
    · intro hnew
      have hrow := hsub.subset hnew
      exact ⟨hrow, (receiveStatus_eq_processed_iff h hrow).mpr
        (hrows ▸ List.mem_append_right _ hnew)⟩
    · intro hrow
      have hmem := (receiveStatus_eq_processed_iff h hrow.1).mp hrow.2
      rw [hrows] at hmem
      rcases List.mem_append.mp hmem with hold | hnew
      · exact absurd rfl (Table.lookup_eq_none_iff.mp (h.new row hrow.1) row hold)
      · exact hnew
  rw [hrows, List.length_append, hperm.length_eq, List.count_eq_countP, List.countP_map,
    List.countP_eq_length_filter]
  rfl

end Stored

theorem forall_classified_iff (a : Adapter) {table : InboxTable collate} {rows : List InboxEvent}
    (h : table.Fresh rows) :
    (∀ row ∈ rows, Classified a (table.insertFree rows) rows row) ↔
      OneText collate (storedKeys table) (rows.map InboxEvent.idempotencyKey) ∧
        (a = .postgres →
          RepeatsStored (storedKeys table) (rows.map InboxEvent.idempotencyKey)) := by
  constructor
  · intro hall
    have hfound : ∀ row ∈ rows, ∃ id, foundId (table.insertFree rows) row = some id := by
      intro row hrow
      obtain ⟨id, hid, -⟩ := hall row hrow
      exact ⟨id, hid⟩
    refine ⟨(forall_found_iff h).mp hfound, fun ha => (forall_stored_iff h hfound).mp ?_⟩
    intro row hrow id hid hstored
    obtain ⟨id', hid', honly⟩ := hall row hrow
    obtain rfl := Option.some.inj (hid.symm.trans hid')
    exact honly ha hstored
  · rintro ⟨htext, hrepeats⟩ row hrow
    have hfound := (forall_found_iff h).mpr htext
    obtain ⟨id, hid⟩ := hfound row hrow
    exact ⟨id, hid, fun ha hstored =>
      (forall_stored_iff h hfound).mpr (hrepeats ha) row hrow id hid hstored⟩

section Throws

variable {events : List (Stamp × InboxEventInput)} {table : InboxTable collate}

theorem le_of_queryWith {τ β : Type} {parameters : Nat} {statement : τ → Option (β × τ)} {s : τ}
    {answer : β × τ} (h : (queryWith parameters statement).run s = .ok answer) :
    parameters ≤ boundParameters := by
  by_contra hlarge
  unfold queryWith at h
  rw [if_neg hlarge] at h
  exact absurd h (by simp [throw, throwThe, MonadExceptOf.throw])

/-- A batch that returns has serialized all of its events, and its statement
was small enough. -/
theorem receiveBatch_eq_ok {a : Adapter} {answer : List InboxReceiveResult × InboxTable collate}
    (h : (a.receiveBatch events).run table = .ok answer) :
    (∃ rows, StoredAs events rows) ∧ a.inboxParameters * events.length ≤ boundParameters := by
  by_cases hempty : events = []
  · subst hempty
    exact ⟨⟨[], .nil⟩, Nat.zero_le _⟩
  · have hne : ¬events.isEmpty := by simpa using hempty
    have hstored : ∀ rows, (events.mapM fun event => event.2.row event.1) = .ok rows →
        StoredAs events rows := fun rows hrows =>
      (List.mapM_eq_ok_iff.mp hrows).imp fun _ _ => InboxEventInput.isRow_of_row
    cases a with
    | postgres =>
      change (PgInboxRepository.receiveBatch events).run table = _ at h
      unfold PgInboxRepository.receiveBatch at h
      rw [if_neg hne] at h
      obtain ⟨rows, _, hrows, h⟩ := run_bind_eq_ok.mp h
      obtain ⟨result, _, hquery, -⟩ := run_bind_eq_ok.mp h
      exact ⟨⟨rows, hstored rows (eq_ok_of_run_liftM hrows)⟩, le_of_queryWith hquery⟩
    | mysql =>
      change (MySqlInboxRepository.receiveBatch events).run table = _ at h
      unfold MySqlInboxRepository.receiveBatch at h
      rw [if_neg hne] at h
      obtain ⟨rows, _, hrows, h⟩ := run_bind_eq_ok.mp h
      obtain ⟨result, _, hquery, -⟩ := run_bind_eq_ok.mp h
      exact ⟨⟨rows, hstored rows (eq_ok_of_run_liftM hrows)⟩, le_of_queryWith hquery⟩

/-- A loop over `receive` that returns has serialized them, too. -/
theorem exists_storedAs_of_receive_loop {a : Adapter}
    {answer : List InboxReceiveResult × InboxTable collate}
    (h : (events.mapM fun event => a.receive event.1 event.2).run table = .ok answer) :
    ∃ rows, StoredAs events rows := by
  induction events generalizing table answer with
  | nil => exact ⟨[], .nil⟩
  | cons event events ih =>
    obtain ⟨result, table', results, hfirst, hrest, -⟩ := List.run_mapM_cons_eq_ok h
    obtain ⟨rows, hrows⟩ := ih hrest
    have hrow : ∃ row, event.2.row event.1 = .ok row := by
      cases a with
      | postgres =>
        unfold Adapter.receive PgInboxRepository.receive at hfirst
        obtain ⟨row, _, hrow, -⟩ := run_bind_eq_ok.mp hfirst
        exact ⟨row, eq_ok_of_run_liftM hrow⟩
      | mysql =>
        unfold Adapter.receive MySqlInboxRepository.receive at hfirst
        obtain ⟨row, _, hrow, -⟩ := run_bind_eq_ok.mp hfirst
        exact ⟨row, eq_ok_of_run_liftM hrow⟩
    obtain ⟨row, hrow⟩ := hrow
    exact ⟨row :: rows, .cons (InboxEventInput.isRow_of_row hrow) hrows⟩

theorem StoredAs.serializable {rows : List InboxEvent} (h : StoredAs events rows) :
    ∀ event ∈ events, event.2.Serializable := by
  induction h with
  | nil => simp
  | cons hrow _ ih => exact List.forall_mem_cons.mpr ⟨hrow.serializable, ih⟩

end Throws

/-- A batch that returns leaves the rows with free keys. -/
theorem table_of_receiveBatch {a : Adapter} {events : List (Stamp × InboxEventInput)}
    {rows : List InboxEvent} {table table' : InboxTable collate}
    {results : List InboxReceiveResult} (hrows : StoredAs events rows) (h : table.Fresh rows)
    (hrun : (a.receiveBatch events).run table = .ok (results, table')) :
    table' = table.insertFree rows := by
  have hfits := (receiveBatch_eq_ok hrun).2
  have hmap : ∃ x : Except SdkError (List InboxReceiveResult), (a.receiveBatch events).run table =
      x.map fun results => (results, table.insertFree rows) := by
    cases a with
    | postgres =>
      obtain ⟨_, _, hpostgres⟩ := receiveBatch_postgres hrows h hfits
      exact ⟨_, hpostgres⟩
    | mysql => exact ⟨_, receiveBatch_mysql hrows hfits⟩
  obtain ⟨x, hx⟩ := hmap
  rw [hx] at hrun
  cases x with
  | error e => exact absurd hrun (by simp [Except.map])
  | ok results => exact (Prod.mk.inj (Except.ok.inj hrun)).2.symm

section Sequential

variable {a : Adapter} {table : InboxTable collate} {rows rows' : List InboxEvent}
  {batch single : List (Stamp × InboxEventInput)}

theorem serializable_of_map_snd_eq (hsame : batch.map Prod.snd = single.map Prod.snd)
    (h : ∀ event ∈ batch, event.2.Serializable) : ∀ event ∈ single, event.2.Serializable := by
  intro event hevent
  have hmem : event.2 ∈ batch.map Prod.snd := hsame ▸ List.mem_map_of_mem hevent
  obtain ⟨other, hother, heq⟩ := List.mem_map.mp hmem
  exact heq ▸ h other hother

/-- Statuses are those of an answer. -/
theorem exists_ok_of_returnedStatuses
    {call : Sdk (InboxTable collate) (List InboxReceiveResult)} {statuses : List ReceiveStatus}
    (h : returnedStatuses call table = some statuses) : ∃ answer, call.run table = .ok answer := by
  cases hrun : call.run table with
  | ok answer => exact ⟨answer, rfl⟩
  | error e => simp [returnedStatuses, hrun, Except.toOption] at h

theorem returnedStatuses_eq_none
    {call : Sdk (InboxTable collate) (List InboxReceiveResult)}
    (h : ∀ answer, call.run table ≠ .ok answer) : returnedStatuses call table = none := by
  cases hstatuses : returnedStatuses call table with
  | none => rfl
  | some statuses =>
    obtain ⟨answer, hanswer⟩ := exists_ok_of_returnedStatuses hstatuses
    exact absurd hanswer (h answer)

/-- The statuses of the events one after the other, by the rows of the batch. -/
theorem returnedStatuses_receive_loop (a : Adapter) (hrows : StoredAs batch rows)
    (hrows' : StoredAs single rows') (hsame : batch.map Prod.snd = single.map Prod.snd)
    (h : table.Fresh rows) (h' : table.Fresh rows') :
    returnedStatuses (single.mapM fun event => a.receive event.1 event.2) table =
      some (rows.map (receiveStatus (table.insertFree rows))) := by
  obtain ⟨results, hloop, hstatus⟩ := run_receive_loop a hrows' h'
  rw [(insertFree_of_sameContent (hrows.sameContent hrows' hsame) h h' fun _ => Iff.rfl).1,
    ← hstatus, returnedStatuses, hloop]
  rfl

/-- If an event cannot be serialized, neither way returns. -/
theorem batchAsSequential_of_not_serializable
    (hsame : batch.map Prod.snd = single.map Prod.snd)
    (h : ¬∀ event ∈ batch, event.2.Serializable) : BatchAsSequential a table batch single := by
  have hbatch : ∀ answer, (a.receiveBatch batch).run table ≠ .ok answer := by
    intro answer hrun
    obtain ⟨⟨rows, hrows⟩, -⟩ := receiveBatch_eq_ok hrun
    exact h hrows.serializable
  have hsingle : ∀ answer,
      (single.mapM fun event => a.receive event.1 event.2).run table ≠ .ok answer := by
    intro answer hrun
    obtain ⟨rows, hrows⟩ := exists_storedAs_of_receive_loop hrun
    exact h (serializable_of_map_snd_eq hsame.symm hrows.serializable)
  refine ⟨?_, ?_, ?_⟩
  · rw [returnedStatuses_eq_none hbatch, returnedStatuses_eq_none hsingle]
  · exact fun results table' hrun => absurd hrun (hbatch _)
  · exact fun results table' hrun => absurd hrun (hbatch _)

/-- A classified batch stores one row for each `processed`, at most one for a
key. -/
theorem batchAsSequential_of_classified (hrows : StoredAs batch rows) (h : table.Fresh rows)
    (hfits : a.inboxParameters * batch.length ≤ boundParameters)
    (hall : ∀ row ∈ rows, Classified a (table.insertFree rows) rows row)
    (hsingle : returnedStatuses (single.mapM fun event => a.receive event.1 event.2) table =
      some (rows.map (receiveStatus (table.insertFree rows)))) :
    BatchAsSequential a table batch single := by
  have hreturned := (statuses_receiveBatch_iff a hrows h hfits).mpr hall
  have hanswer : ∀ results table', (a.receiveBatch batch).run table = .ok (results, table') →
      results.map InboxReceiveResult.status =
        rows.map (receiveStatus (table.insertFree rows)) := by
    intro results table' hrun
    rw [hrun] at hreturned
    exact Option.some.inj hreturned
  refine ⟨hreturned.trans hsingle.symm, ?_, ?_⟩
  · intro results table' hrun key
    rw [hanswer results table' hrun, ← hrows.keys]
    exact count_processed_le_one h key
  · intro results table' hrun
    rw [hanswer results table' hrun, table_of_receiveBatch hrows h hrun]
    exact length_insertFree h

end Sequential

/-- A batch is answered as its events one after the other exactly when one of
them cannot be serialized, and neither returns, or all are classified. -/
theorem batchAsSequential_iff (a : Adapter) (table : InboxTable collate)
    (batch single : List (Stamp × InboxEventInput))
    (hsame : batch.map Prod.snd = single.map Prod.snd) (hbatch : NewStamps batch table)
    (hsingle : NewStamps single table) :
    BatchAsSequential a table batch single ↔
      (∃ event ∈ batch, ¬event.2.Serializable) ∨ Classifiable a table (batch.map Prod.snd) := by
  by_cases hserial : ∀ event ∈ batch, event.2.Serializable
  · obtain ⟨rows, hrows⟩ := exists_storedAs hserial
    obtain ⟨rows', hrows'⟩ := exists_storedAs (serializable_of_map_snd_eq hsame hserial)
    have hfresh := hrows.fresh hbatch
    have hsingleStatuses :=
      returnedStatuses_receive_loop a hrows hrows' hsame hfresh (hrows'.fresh hsingle)
    have hkeys : rows.map InboxEvent.idempotencyKey =
        (batch.map Prod.snd).map InboxEventInput.idempotencyKey := by
      rw [hrows.keys, List.map_map]
      rfl
    have hclassified := forall_classified_iff a hfresh
    rw [hkeys] at hclassified
    constructor
    · intro h
      right
      have hreturned := h.statuses.trans hsingleStatuses
      obtain ⟨answer, hanswer⟩ := exists_ok_of_returnedStatuses hreturned
      have hfits := (receiveBatch_eq_ok hanswer).2
      have hall := (statuses_receiveBatch_iff a hrows hfresh hfits).mp hreturned
      obtain ⟨htext, hrepeats⟩ := hclassified.mp hall
      exact ⟨by rwa [List.length_map], htext, hrepeats⟩
    · intro h
      rcases h with ⟨event, hevent, hnot⟩ | h
      · exact absurd (hserial event hevent) hnot
      · have hfits := h.fits
        rw [List.length_map] at hfits
        exact batchAsSequential_of_classified hrows hfresh hfits
          (hclassified.mpr ⟨h.oneText, h.repeatsStored⟩) hsingleStatuses
  · exact iff_of_true (batchAsSequential_of_not_serializable hsame hserial)
      (.inl (by simpa using hserial))

/-! ## Sample data -/

namespace Sample

def inboxInput (key : String) (h : ValidKey key) : InboxEventInput where
  idempotencyKey := key
  validKey := h
  aggregateType := "order"
  aggregateId := "1"
  eventType := "created"
  payload := .json .null

/-- The same event twice. -/
def repeated : List (Stamp × InboxEventInput) :=
  [(⟨"1", 0⟩, inboxInput "order-1" (by decide)), (⟨"2", 0⟩, inboxInput "order-1" (by decide))]

/-- Two events whose keys differ in their case. -/
def recased : List (Stamp × InboxEventInput) :=
  [(⟨"1", 0⟩, inboxInput "order-1" (by decide)), (⟨"2", 0⟩, inboxInput "ORDER-1" (by decide))]

end Sample

/-- On MySQL an event that is listed twice is processed once. -/
theorem batchAsSequential_repeated :
    BatchAsSequential .mysql (Table.empty : InboxTable (Adapter.mysql.collate)) Sample.repeated
      Sample.repeated :=
  (batchAsSequential_iff .mysql _ _ _ rfl ⟨by decide, fun _ _ => rfl⟩
    ⟨by decide, fun _ _ => rfl⟩).mpr (.inr ⟨by decide, by decide, fun h => absurd h (by decide)⟩)

/-- On PostgreSQL the batch reports both as processed, and on MySQL a batch
whose keys differ in their case throws. -/
theorem not_batchAsSequential :
    (¬BatchAsSequential .postgres (Table.empty : InboxTable Adapter.postgres.collate)
        Sample.repeated Sample.repeated ∧
      returnedStatuses (Adapter.postgres.receiveBatch Sample.repeated)
        (Table.empty : InboxTable Adapter.postgres.collate) = some [.processed, .processed] ∧
      returnedStatuses (Sample.repeated.mapM fun event =>
          Adapter.postgres.receive event.1 event.2)
        (Table.empty : InboxTable Adapter.postgres.collate) = some [.processed, .duplicate]) ∧
    (¬BatchAsSequential .mysql (Table.empty : InboxTable Adapter.mysql.collate)
        Sample.recased Sample.recased ∧
      returnedStatuses (Adapter.mysql.receiveBatch Sample.recased)
        (Table.empty : InboxTable Adapter.mysql.collate) = none ∧
      returnedStatuses (Sample.recased.mapM fun event => Adapter.mysql.receive event.1 event.2)
        (Table.empty : InboxTable Adapter.mysql.collate) = some [.processed, .duplicate]) :=
  ⟨⟨fun h => absurd h.statuses (by decide), by decide, by decide⟩,
    ⟨fun h => absurd h.statuses (by decide), by decide, by decide⟩⟩

end Outboxy
