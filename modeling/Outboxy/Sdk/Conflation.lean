import Outboxy.Sdk.PublishBatch
import Outboxy.Sdk.ReceiveBatch

/-!
# Different keys

Whether rows with one key make a difference to an event with another key.
`NeverConflated` compares each call on a table with the same call on the table
without the rows of the first key: the answer for the event and the row that
is stored for it have to be the same.

The checks of the SDK tell keys apart by their characters, and so does the
map in which a batch looks up its ids; the unique indexes tell them apart as
the column compares texts, and under `utf8mb4_unicode_ci` letters are equal
regardless of their case.  `neverConflated_iff` is what follows.
-/

namespace Outboxy

/-! ## Outcomes -/

/-- What a call answers, and the row that it leaves under the generated id. -/
def outcome {ρ ι β : Type} {pk : ρ → EventId} {ix : ρ → Option ι} (call : Sdk (Table pk ix) β)
    (id : EventId) (table : Table pk ix) : Except SdkError (β × Option ρ) :=
  (call.run table).map fun result => (result.1, result.2.lookup id)

/-- What `receiveBatch` answers for the events with one key, and the rows that
it leaves under their generated ids. -/
def InboxyClient.batchOutcome {collate : String → String} {a : Adapter} (client : InboxyClient a)
    (events : List (Stamp × InboxReceiveEventInput)) (key : String) (table : InboxTable collate) :
    Except SdkError (List (InboxReceiveResult × Option InboxEvent)) :=
  ((client.receiveBatch events).run table).map fun result =>
    (events.zip result.1).filterMap fun answer =>
      if answer.1.2.idempotencyKey = key then some (answer.2, result.2.lookup answer.1.1.id)
      else none

/-- Events under `k₁` make no difference to a valid event under `k₂`: not
those received or published before, and not those in the same batch. -/
structure NeverConflated (a : Adapter) (k₁ k₂ : String) : Prop where
  receive : ∀ (client : InboxyClient a) (table : InboxTable a.collate) (stamp : Stamp)
    (event : InboxReceiveEventInput), client.ValidEvent event → event.idempotencyKey = k₂ →
    table.lookup stamp.id = none →
    outcome (client.receive stamp event) stamp.id table =
      outcome (client.receive stamp event) stamp.id
        (table.delete fun row => row.idempotencyKey = k₁)
  receiveBatch : ∀ (client : InboxyClient a) (table : InboxTable a.collate)
    (events : List (Stamp × InboxReceiveEventInput)),
    (∀ event ∈ events, client.ValidEvent event.2) →
    (events.map fun event => event.2.idempotencyKey).Nodup → NewIds events table →
    client.batchOutcome events k₂ table =
      client.batchOutcome (events.filter fun event => event.2.idempotencyKey ≠ k₁) k₂
        (table.delete fun row => row.idempotencyKey = k₁)
  publish : ∀ (client : OutboxyClient a) (table : OutboxTable a) (stamp : Stamp)
    (event : PublishEventInput), (∃ values, client.insertValues event = .ok values) →
    event.idempotencyKey = some k₂ → table.lookup stamp.id = none →
    outcome (client.publish stamp event) stamp.id table =
      outcome (client.publish stamp event) stamp.id
        (table.delete fun row => row.idempotencyKey = some k₁)
  publishBatch : ∀ (client : OutboxyClient a) (table : OutboxTable a) (stamp : Stamp)
    (event : PublishEventInput), (∃ values, client.insertValues event = .ok values) →
    event.idempotencyKey = some k₂ → table.lookup stamp.id = none →
    outcome (client.publishBatch [(stamp, event)]) stamp.id table =
      outcome (client.publishBatch [(stamp, event)]) stamp.id
        (table.delete fun row => row.idempotencyKey = some k₁)

/-! ## Receiving -/

section Inbox

variable {collate : String → String} {a : Adapter} {client : InboxyClient a} {k₁ k₂ : String}

/-- A row is left under its id when it is what holds its key. -/
theorem lookup_insertFree_eq_some_iff {rows : List InboxEvent} {table : InboxTable collate}
    {row r : InboxEvent} (h : table.Fresh rows) (hrow : row ∈ rows) :
    (table.insertFree rows).lookup row.id = some r ↔
      r = row ∧ (table.insertFree rows).conflict row = some r := by
  constructor
  · intro hlookup
    obtain rfl := h.eq_of_lookup hrow hlookup
    exact ⟨rfl, Table.conflict_eq_some_iff.mpr ⟨Table.mem_of_lookup hlookup, rfl, _, rfl⟩⟩
  · intro hstored
    obtain ⟨rfl, hconflict⟩ := hstored
    exact Table.lookup_of_mem (Table.conflict_eq_some_iff.mp hconflict).1

/-- What is in the way of the row decides about it. -/
theorem outcome_receive {event : Stamp × InboxReceiveEventInput} {row : InboxEvent}
    {table : InboxTable collate} (hrow : client.RowOf event row)
    (hfresh : table.lookup event.1.id = none) :
    outcome (client.receive event.1 event.2) event.1.id table =
      .ok (insertResult a table row, if (table.conflict row).isNone then some row else none) := by
  have hid := hrow.id_key.1
  have hone : table.Fresh [row] := ⟨by simpa [hid] using hfresh, List.nodup_singleton _⟩
  unfold outcome
  rw [run_receive_of_rowOf hrow hone, ← hid]
  refine congrArg Except.ok (congrArg (Prod.mk _) ?_)
  have hhead := hone.lookup_head
  cases hlookup : (table.insertFree [row]).lookup row.id with
  | some r =>
    obtain rfl := hone.eq_of_lookup (List.mem_singleton_self _) hlookup
    rw [hlookup] at hhead
    rw [← hhead]
    rfl
  | none =>
    rw [hlookup] at hhead
    rw [← hhead]
    rfl

/-- The two tables have the same row in the way of each row whose key compares
different from `key`. -/
def AgreeOff (key : String) (table table' : InboxTable collate) : Prop :=
  ∀ row, collate row.idempotencyKey ≠ collate key → table.conflict row = table'.conflict row

namespace AgreeOff

variable {key : String} {row : InboxEvent} {rows : List InboxEvent}
  {table table' table₁ table₁' : InboxTable collate}

theorem symm (h : AgreeOff key table table') : AgreeOff key table' table :=
  fun row hrow => (h row hrow).symm

theorem trans {table'' : InboxTable collate} (h : AgreeOff key table table')
    (h' : AgreeOff key table' table'') : AgreeOff key table table'' :=
  fun row hrow => (h row hrow).trans (h' row hrow)

/-- A row under `key` itself changes nothing. -/
theorem insertFree_same (table : InboxTable collate)
    (hkey : collate row.idempotencyKey = collate key) (hfresh : table.Fresh [row]) :
    AgreeOff key (table.insertFree [row]) table := by
  intro r hr
  cases hconflict : table.conflict row with
  | some held => rw [Table.insertFree_cons_of_conflict hconflict]; rfl
  | none =>
    obtain ⟨table', hinsert⟩ :=
      Table.exists_insert (hfresh.new row (List.mem_singleton_self _)) hconflict
    rw [Table.insertFree_cons_of_insert hinsert]
    refine Table.conflict_insert_of_ne hinsert fun heq => hr ?_
    rw [← hkey]
    exact (Option.some.inj heq).symm

/-- A row under another key is stored in both tables, or in neither. -/
theorem insertFree_other (h : AgreeOff key table table')
    (hkey : collate row.idempotencyKey ≠ collate key) (hfresh : table.Fresh [row])
    (hfresh' : table'.Fresh [row]) :
    AgreeOff key (table.insertFree [row]) (table'.insertFree [row]) := by
  have hsame := h row hkey
  cases hconflict : table.conflict row with
  | some held =>
    rw [Table.insertFree_cons_of_conflict hconflict,
      Table.insertFree_cons_of_conflict (hsame ▸ hconflict)]
    exact h
  | none =>
    obtain ⟨table₁, hinsert⟩ :=
      Table.exists_insert (hfresh.new row (List.mem_singleton_self _)) hconflict
    obtain ⟨table₁', hinsert'⟩ :=
      Table.exists_insert (hfresh'.new row (List.mem_singleton_self _)) (hsame ▸ hconflict)
    rw [Table.insertFree_cons_of_insert hinsert, Table.insertFree_cons_of_insert hinsert']
    intro r hr
    by_cases hix : collate row.idempotencyKey = collate r.idempotencyKey
    · have hixr : InboxEvent.index collate r = some (collate row.idempotencyKey) :=
        congrArg some hix.symm
      exact (Table.conflict_insert_of_eq hinsert rfl hixr).trans
        (Table.conflict_insert_of_eq hinsert' rfl hixr).symm
    · have hne : InboxEvent.index collate row ≠ InboxEvent.index collate r :=
        fun heq => hix (Option.some.inj heq)
      exact (Table.conflict_insert_of_ne hinsert hne).trans
        ((h r hr).trans (Table.conflict_insert_of_ne hinsert' hne).symm)

/-- Rows with the text `key` may be left out. -/
theorem insertFree (h : AgreeOff key table table') (hfresh : table.Fresh rows)
    (hfresh' : table'.Fresh rows) :
    AgreeOff key (table.insertFree rows)
      (table'.insertFree (rows.filter fun row => row.idempotencyKey ≠ key)) := by
  induction rows generalizing table table' with
  | nil => exact h
  | cons row rows ih =>
    have hone : table.Fresh [row] := hfresh.head
    have hone' : table'.Fresh [row] := hfresh'.head
    have hrest := hfresh.rest
    have hrest' := hfresh'.rest
    by_cases htext : row.idempotencyKey = key
    · rw [List.filter_cons_of_neg (by simpa using htext)]
      have hsame := insertFree_same table (congrArg collate htext) hone
      exact ih (hsame.trans h) hrest hfresh'.tail
    · rw [List.filter_cons_of_pos (by simpa using htext)]
      by_cases hkey : collate row.idempotencyKey = collate key
      · have hsame := insertFree_same table hkey hone
        have hsame' := insertFree_same table' hkey hone'
        exact ih ((hsame.trans h).trans hsame'.symm) hrest hrest'
      · exact ih (h.insertFree_other hkey hone hone') hrest hrest'

end AgreeOff

theorem agreeOff_delete (table : InboxTable collate) (key : String) :
    AgreeOff key table (table.delete fun row => row.idempotencyKey = key) := by
  intro row hrow
  refine (Table.conflict_delete fun r _ hr heq => hrow ?_).symm
  have hkey : r.idempotencyKey = key := by simpa using hr
  rw [← hkey]
  exact (Option.some.inj heq).symm

theorem fresh_delete {table : InboxTable collate} {rows : List InboxEvent} (h : table.Fresh rows)
    (p : InboxEvent → Bool) : (table.delete p).Fresh rows :=
  ⟨fun r hr => Table.lookup_delete_of_none (h.new r hr), h.distinct⟩

/-- The rows of the events with one key, with what the batch answers. -/
theorem batchOutcome_of_rows {events : List (Stamp × InboxReceiveEventInput)}
    {rows : List InboxEvent} {table : InboxTable collate} (key : String)
    (hrows : List.Forall₂ client.RowOf events rows)
    (hkeys : (events.map fun event => event.2.idempotencyKey).Nodup) (hids : NewIds events table) :
    client.batchOutcome events key table =
      .ok ((rows.filter fun row => row.idempotencyKey = key).map fun row =>
        (sliceResult a (table.insertFree rows) row, (table.insertFree rows).lookup row.id)) := by
  have hbatch :=
    receiveBatch_of_receivable hrows hkeys (receivable_of_rows hrows hkeys hids)
  unfold InboxyClient.batchOutcome
  rw [hbatch]
  refine congrArg Except.ok ?_
  show (events.zip (rows.map (sliceResult a (table.insertFree rows)))).filterMap _ = _
  generalize table.insertFree rows = final
  clear hbatch hkeys hids
  induction hrows with
  | nil => rfl
  | @cons event row events rows hrow _ ih =>
    obtain ⟨hid, hkey⟩ := hrow.id_key
    rw [List.map_cons, List.zip_cons_cons, List.filterMap_cons, List.filter_cons, ← hkey]
    by_cases hsame : row.idempotencyKey = key
    · simp [hsame, hid, ih]
    · simp [hsame, ih]

/-- The rows of the events that remain. -/
theorem rows_filter {events : List (Stamp × InboxReceiveEventInput)} {rows : List InboxEvent}
    (hrows : List.Forall₂ client.RowOf events rows) (key : String) :
    List.Forall₂ client.RowOf (events.filter fun event => event.2.idempotencyKey ≠ key)
      (rows.filter fun row => row.idempotencyKey ≠ key) := by
  induction hrows with
  | nil => exact .nil
  | @cons event row events rows hrow _ ih =>
    rw [List.filter_cons, List.filter_cons, hrow.id_key.2]
    split
    · exact .cons hrow ih
    · exact ih

theorem newIds_filter {events : List (Stamp × InboxReceiveEventInput)}
    {table : InboxTable collate} (h : NewIds events table)
    (keep : Stamp × InboxReceiveEventInput → Bool) (p : InboxEvent → Bool) :
    NewIds (events.filter keep) (table.delete p) :=
  ⟨h.distinct.sublist (List.filter_sublist.map _),
    fun event hevent => Table.lookup_delete_of_none (h.fresh event (List.mem_of_mem_filter hevent))⟩

/-- A batch answers and stores the same for the events with another key. -/
theorem batchOutcome_delete (hne : k₁ ≠ k₂) (hcollate : collate k₁ ≠ collate k₂)
    {events : List (Stamp × InboxReceiveEventInput)} {table : InboxTable collate}
    (hvalid : ∀ event ∈ events, client.ValidEvent event.2)
    (hkeys : (events.map fun event => event.2.idempotencyKey).Nodup) (hids : NewIds events table) :
    client.batchOutcome events k₂ table =
      client.batchOutcome (events.filter fun event => event.2.idempotencyKey ≠ k₁) k₂
        (table.delete fun row => row.idempotencyKey = k₁) := by
  obtain ⟨rows, hrows⟩ := exists_rows hvalid
  have hfresh := fresh_of_rows hrows hids
  have hids' := newIds_filter hids (fun event => event.2.idempotencyKey ≠ k₁)
    (fun row => row.idempotencyKey = k₁)
  have hfresh' := fresh_of_rows (rows_filter hrows k₁) hids'
  rw [batchOutcome_of_rows k₂ hrows hkeys hids, batchOutcome_of_rows k₂ (rows_filter hrows k₁)
    (hkeys.sublist (List.filter_sublist.map _)) hids']
  have hfilter : ((rows.filter fun row => row.idempotencyKey ≠ k₁).filter
      fun row => row.idempotencyKey = k₂) = rows.filter fun row => row.idempotencyKey = k₂ := by
    rw [List.filter_filter]
    refine List.filter_congr fun row _ => ?_
    by_cases hrow : row.idempotencyKey = k₂
    · simp [hrow, hne.symm]
    · simp [hrow]
  rw [hfilter]
  have hagree := (agreeOff_delete table k₁).insertFree hfresh (fresh_delete hfresh _)
  refine congrArg Except.ok (List.map_congr_left fun row hrow => ?_)
  have hkey : row.idempotencyKey = k₂ := by simpa using (List.mem_filter.mp hrow).2
  have hmem := List.mem_of_mem_filter hrow
  have hmem' : row ∈ rows.filter fun row => row.idempotencyKey ≠ k₁ :=
    List.mem_filter.mpr ⟨hmem, by simpa [hkey] using hne.symm⟩
  have hconflict := hagree row (by rw [hkey]; exact hcollate.symm)
  have hlookup : (table.insertFree rows).lookup row.id =
      ((table.delete fun row => row.idempotencyKey = k₁).insertFree
        (rows.filter fun row => row.idempotencyKey ≠ k₁)).lookup row.id := by
    refine Option.ext fun r => ?_
    rw [lookup_insertFree_eq_some_iff hfresh hmem, lookup_insertFree_eq_some_iff hfresh' hmem',
      hconflict]
  rw [hlookup, sliceResult, sliceResult, foundId, foundId, hconflict]

end Inbox

/-! ## Publishing -/

section Outbox

variable {a : Adapter} {client : OutboxyClient a} {event : PublishEventInput}
  {values : InsertValues} {stamp : Stamp} {k₁ k₂ : String}

/-- The answer of `publish`, and the row it stores, from the row in the way. -/
def publishOutcome (a : Adapter) (row : OutboxEvent) :
    Option OutboxEvent → EventId × Option OutboxEvent
  | some existing => (if a.supportsReturning then existing.id else row.id, none)
  | none => (row.id, some row)

theorem outcome_publish {table : OutboxTable a} (h : client.insertValues event = .ok values)
    (hfresh : table.lookup stamp.id = none) :
    outcome (client.publish stamp event) stamp.id table =
      .ok (publishOutcome a (values.row stamp.id stamp.now)
        (table.conflict (values.row stamp.id stamp.now))) := by
  unfold outcome
  cases hconflict : table.conflict (values.row stamp.id stamp.now) with
  | some existing =>
    cases a with
    | postgres =>
      rw [OutboxyClient.publish_postgres h _ _
        (PostgreSqlDialect.buildInsert_of_conflict hconflict)]
      exact congrArg (fun row => Except.ok (existing.id, row)) hfresh
    | mysql =>
      obtain ⟨table', hpublish, hupdate⟩ := publish_of_conflict h hfresh hconflict
      rw [hpublish]
      refine congrArg (fun row => Except.ok (stamp.id, row)) ?_
      rw [Table.lookup_update hupdate, hfresh]
      rfl
  | none =>
    cases a with
    | postgres =>
      obtain ⟨table', hinsert⟩ := Table.exists_insert
        (r := values.row stamp.id stamp.now) hfresh hconflict
      rw [OutboxyClient.publish_postgres h _ _
        (PostgreSqlDialect.buildInsert_of_insert hconflict hinsert)]
      refine congrArg (fun row => Except.ok (stamp.id, row)) ?_
      rw [Table.lookup_insert hinsert]
      exact if_pos rfl
    | mysql =>
      obtain ⟨table', hpublish, hinsert⟩ := publish_of_no_conflict h hfresh hconflict
      rw [hpublish]
      refine congrArg (fun row => Except.ok (stamp.id, row)) ?_
      rw [Table.lookup_insert hinsert]
      exact if_pos rfl

/-- The rows of one key are not in the way of a row with another. -/
theorem conflict_delete_key {table : OutboxTable a} (h : client.insertValues event = .ok values)
    (hkey : event.idempotencyKey = some k₂) (hcollate : a.collate k₁ ≠ a.collate k₂) :
    (table.delete fun row => row.idempotencyKey = some k₁).conflict
        (values.row stamp.id stamp.now) =
      table.conflict (values.row stamp.id stamp.now) := by
  refine Table.conflict_delete fun row _ hrow heq => ?_
  have hrowKey : row.idempotencyKey = some k₁ := by simpa using hrow
  have hvalues := (OutboxyClient.key_of_insertValues h).1.trans hkey
  cases a with
  | postgres =>
    have hnew : Adapter.postgres.idempotencyIndex (values.row stamp.id stamp.now) = some k₂ :=
      hvalues
    have hlive := idempotencyIndex_postgres.mp (heq.trans hnew)
    exact hcollate (Option.some.inj (hrowKey.symm.trans hlive.1))
  | mysql =>
    rw [index_row_mysql h, hkey] at heq
    obtain ⟨held, hheld, hsame⟩ := idempotencyIndex_mysql.mp heq
    obtain rfl := Option.some.inj (hrowKey.symm.trans hheld)
    exact hcollate hsame

/-- A batch of one event inserts its row, or fails. -/
theorem run_publishBatch_singleton {table : OutboxTable a}
    (h : client.insertValues event = .ok values) :
    (client.publishBatch [(stamp, event)]).run table =
      match table.insert (values.row stamp.id stamp.now) with
      | some table' => .ok ([stamp.id], table')
      | none => .error .uniqueViolation := by
  obtain ⟨v, hv, hvalues⟩ := OutboxyClient.validate_of_insertValues
    ("destinationUrl is required for event at index " ++ toString 0) h
  have hbatch : client.validateBatch 0 [(stamp, event)] = .ok [(stamp, v)] := by
    rw [OutboxyClient.validateBatch, hv]
    rfl
  have hrows : client.bulkRows [(stamp, v)] = .ok [values.row stamp.id stamp.now] := by
    rw [OutboxyClient.bulkRows, List.mapM_cons, hvalues]
    rfl
  have hkeys : (([(stamp, v)].filterMap fun event => event.2.idempotencyKey).filter
      (· ≠ "")).Nodup := by
    refine List.Nodup.filter _ ?_
    cases hkey : v.idempotencyKey <;> simp [hkey]
  have hall : table.insertAll [values.row stamp.id stamp.now] =
      table.insert (values.row stamp.id stamp.now) := by
    simp [Table.insertAll]
  have hshort : ¬ [(stamp, v)].length > client.maxEventsPerBatch :=
    Nat.not_lt.mpr client.maxEventsPerBatch_pos
  unfold OutboxyClient.publishBatch OutboxyClient.bulkInsert
  rw [if_neg (by simp), run_bind_ok (run_liftM hbatch), if_pos hkeys, if_neg hshort, ← hall]
  cases a with
  | postgres =>
    rw [run_insertSlice hrows]
    cases table.insertAll [values.row stamp.id stamp.now] <;> rfl
  | mysql =>
    unfold OutboxyClient.insertSlice
    rw [run_bind_ok (run_liftM hrows)]
    cases hinsert : table.insertAll [values.row stamp.id stamp.now] with
    | some table' =>
      have hquery : (Adapter.mysql.bulkInsert [values.row stamp.id stamp.now]).run table =
          .ok ([⟨"", none⟩], table') := by
        simp [Adapter.bulkInsert, query, StateT.run, StateT.map, Functor.map, bind, Except.bind,
          MySqlDialect.buildBulkInsert, hinsert]
        rfl
      rw [run_bind_ok hquery]
      rfl
    | none =>
      refine run_bind_error ?_
      simp [Adapter.bulkInsert, query, StateT.run, StateT.map, Functor.map, bind, Except.bind,
        MySqlDialect.buildBulkInsert, hinsert]

theorem outcome_publishBatch {table : OutboxTable a} (h : client.insertValues event = .ok values)
    (hfresh : table.lookup stamp.id = none) :
    outcome (client.publishBatch [(stamp, event)]) stamp.id table =
      match table.conflict (values.row stamp.id stamp.now) with
      | some _ => .error .uniqueViolation
      | none => .ok ([stamp.id], some (values.row stamp.id stamp.now)) := by
  unfold outcome
  rw [run_publishBatch_singleton h]
  cases hconflict : table.conflict (values.row stamp.id stamp.now) with
  | some existing =>
    rw [Table.insert_of_conflict hconflict]
    rfl
  | none =>
    obtain ⟨table', hinsert⟩ := Table.exists_insert
      (r := values.row stamp.id stamp.now) hfresh hconflict
    rw [hinsert]
    refine congrArg (fun row => Except.ok ([stamp.id], row)) ?_
    rw [Table.lookup_insert hinsert]
    exact if_pos rfl

end Outbox

/-! ## The condition -/

theorem neverConflated_of_collate {a : Adapter} {k₁ k₂ : String} (hne : k₁ ≠ k₂)
    (hcollate : a.collate k₁ ≠ a.collate k₂) : NeverConflated a k₁ k₂ where
  receive client table stamp event hvalid hkey hfresh := by
    obtain ⟨row, hrow⟩ := hvalid stamp
    rw [outcome_receive hrow hfresh, outcome_receive hrow (Table.lookup_delete_of_none hfresh)]
    have hrowKey := hrow.id_key.2.trans hkey
    have hconflict := agreeOff_delete table k₁ row (by rw [hrowKey]; exact hcollate.symm)
    rw [insertResult, insertResult, hconflict]
  receiveBatch _ _ _ hvalid hkeys hids := batchOutcome_delete hne hcollate hvalid hkeys hids
  publish client table stamp event hvalid hkey hfresh := by
    obtain ⟨values, hvalues⟩ := hvalid
    rw [outcome_publish hvalues hfresh,
      outcome_publish hvalues (Table.lookup_delete_of_none hfresh),
      conflict_delete_key hvalues hkey hcollate]
  publishBatch client table stamp event hvalid hkey hfresh := by
    obtain ⟨values, hvalues⟩ := hvalid
    rw [outcome_publishBatch hvalues hfresh,
      outcome_publishBatch hvalues (Table.lookup_delete_of_none hfresh),
      conflict_delete_key hvalues hkey hcollate]

/-- A key that compares equal is answered as a duplicate. -/
theorem not_neverConflated_of_collate {k₁ k₂ : String} (h₂ : ValidKey k₂)
    (hcollate : unicodeCi k₁ = unicodeCi k₂) : ¬ NeverConflated .mysql k₁ k₂ := by
  intro h
  have hrow := Sample.rowOf_received (a := .mysql) h₂ ⟨"2", 0⟩
  generalize hnew : InboxEvent.mk _ _ _ _ _ _ _ _ _ _ _ _ _ _ = new at hrow
  have hkey : new.idempotencyKey = k₂ := hrow.id_key.2
  -- A table with one row, which differs from the new one in its id and its key.
  obtain ⟨table, htable⟩ := Table.exists_insert
    (t := (Table.empty : InboxTable Adapter.mysql.collate))
    (r := { new with id := "1", idempotencyKey := k₁ }) rfl rfl
  have hrows := Table.rows_insert htable
  have hfresh : table.lookup "2" = none := by
    rw [Table.lookup_eq_none_iff, hrows]
    simp [Table.empty]
  have hconflict : (table.conflict new).isNone = false := by
    have hnewIx : InboxEvent.index Adapter.mysql.collate new = some (unicodeCi k₁) := by
      rw [hcollate, ← hkey]
      rfl
    rw [Table.conflict_insert_of_eq htable rfl hnewIx]
    rfl
  have hfree : ((table.delete fun row => row.idempotencyKey = k₁).conflict new).isNone = true := by
    rw [Option.isNone_iff_eq_none, Table.conflict_eq_none_iff]
    intro r hr
    rw [Table.mem_delete, hrows] at hr
    obtain ⟨hr, hother⟩ := hr
    obtain rfl := List.mem_singleton.mp hr
    exact absurd rfl (of_decide_eq_false hother)
  have hreceive := h.receive (Sample.inboxyClient .mysql) table ⟨"2", 0⟩ (Sample.received k₂)
    (Sample.validEvent_received h₂) rfl hfresh
  rw [outcome_receive hrow hfresh, outcome_receive hrow (Table.lookup_delete_of_none hfresh),
    hconflict, hfree] at hreceive
  exact absurd (Prod.mk.inj (Except.ok.inj hreceive)).2 (by simp)

/-- Different keys are kept apart on PostgreSQL, and on MySQL exactly when they
differ in more than the case of their letters. -/
theorem neverConflated_iff {a : Adapter} {k₁ k₂ : String} (h₂ : ValidKey k₂) (hne : k₁ ≠ k₂) :
    NeverConflated a k₁ k₂ ↔ a = .postgres ∨ unicodeCi k₁ ≠ unicodeCi k₂ := by
  cases a with
  | postgres => exact ⟨fun _ => .inl rfl, fun _ => neverConflated_of_collate hne hne⟩
  | mysql =>
    constructor
    · intro h
      exact .inr fun hcollate => not_neverConflated_of_collate h₂ hcollate h
    · intro h
      rcases h with h | h
      · exact absurd h (by simp)
      · exact neverConflated_of_collate hne h

/-- Two keys that differ in a digit. -/
theorem neverConflated_iff_of_digits :
    NeverConflated .mysql "order-1" "order-2" ↔
      Adapter.mysql = .postgres ∨ unicodeCi "order-1" ≠ unicodeCi "order-2" :=
  neverConflated_iff (by decide) (by decide)

/-- Two keys that differ in the case of a letter. -/
theorem not_neverConflated :
    ¬ ∀ (a : Adapter) (k₁ k₂ : String), ValidKey k₁ → ValidKey k₂ → k₁ ≠ k₂ →
        NeverConflated a k₁ k₂ := by
  intro h
  exact not_neverConflated_of_collate (by decide) (by decide)
    (h .mysql "Order-1" "order-1" (by decide) (by decide) (by decide))

end Outboxy
