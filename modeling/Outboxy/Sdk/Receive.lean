import Outboxy.Sdk.InboxyClient

/-!
# What the inbox statements do

Inserting rows with new ids leaves the table with the rows whose key was free
(`Table.insertFree`), whether they come in one statement or in several, and on
both databases.  What a call has to answer can then be read off that table:
`receiveStatus` says whether a row was stored, and `foundId` is the id that is
found under its key.
-/

namespace Outboxy

variable {collate : String → String}

/-! ## Rows -/

/-- The row of an event that can be inserted. -/
structure IsRow (event : Stamp × ValidatedInboxEvent) (row : InboxEvent) : Prop where
  built : event.2.row event.1 = .ok row
  id : row.id = event.1.id
  idempotencyKey : row.idempotencyKey = event.2.idempotencyKey
  status : row.status = .processed
  processedAt : row.processedAt = some event.1.now

theorem isRow_of_row {stamp : Stamp} {event : ValidatedInboxEvent} {row : InboxEvent}
    (h : event.row stamp = .ok row) : IsRow (stamp, event) row := by
  have hbuilt := h
  unfold ValidatedInboxEvent.row at h
  obtain ⟨payload, -, h⟩ := bind_eq_ok.mp h
  obtain ⟨headers, -, h⟩ := bind_eq_ok.mp h
  obtain ⟨metadata, -, h⟩ := bind_eq_ok.mp h
  obtain rfl := Except.ok.inj h
  exact ⟨hbuilt, rfl, rfl, rfl, rfl⟩

/-- What a call has to answer for the row of its event, in the table that it
leaves. -/
def receiveStatus (table : InboxTable collate) (row : InboxEvent) : ReceiveStatus :=
  if (table.lookup row.id).isSome then .processed else .duplicate

/-- The first row of a list is stored unless its key is taken. -/
theorem receiveStatus_head {table : InboxTable collate} {row : InboxEvent}
    {rows : List InboxEvent} (h : table.Fresh (row :: rows)) :
    receiveStatus (table.insertFree (row :: rows)) row =
      if (table.conflict row).isNone then .processed else .duplicate := by
  unfold receiveStatus
  rw [h.lookup_head]

/-! ## Multi-row inserts -/

/-- On PostgreSQL the ids of the stored rows are returned. -/
theorem buildInboxBulkInsert_postgres {rows : List InboxEvent} {table : InboxTable collate}
    (h : table.Fresh rows) :
    ∃ inserted, PostgreSqlInboxDialect.buildInboxBulkInsert rows table =
        some (inserted, table.insertFree rows) ∧
      ∀ id, id ∈ inserted.map QueryRow.id ↔
        ∃ row ∈ rows, row.id = id ∧ ((table.insertFree rows).lookup id).isSome := by
  induction h using Table.Fresh.induction with
  | nil table => exact ⟨[], rfl, by simp⟩
  | skip table row existing rows h hconflict ih =>
    obtain ⟨inserted, hbulk, hids⟩ := ih
    rw [Table.insertFree_cons_of_conflict hconflict]
    refine ⟨inserted, ?_, fun id => (hids id).trans ⟨?_, ?_⟩⟩
    · simp [PostgreSqlInboxDialect.buildInboxBulkInsert, PostgreSqlInboxDialect.buildInboxInsert,
        hconflict, hbulk]
    · intro hid
      obtain ⟨r, hr, hid⟩ := hid
      exact ⟨r, List.mem_cons_of_mem _ hr, hid⟩
    · intro hid
      obtain ⟨r, hr, rfl, hstored⟩ := hid
      rcases List.mem_cons.mp hr with rfl | hr
      · have hhead := h.lookup_head
        rw [Table.insertFree_cons_of_conflict hconflict, hstored, hconflict] at hhead
        exact absurd hhead (by simp)
      · exact ⟨r, hr, rfl, hstored⟩
  | insert table table' row rows h hconflict hinsert ih =>
    obtain ⟨inserted, hbulk, hids⟩ := ih
    have hhead := h.lookup_head
    rw [Table.insertFree_cons_of_insert hinsert, hconflict] at hhead
    rw [Table.insertFree_cons_of_insert hinsert]
    refine ⟨⟨row.id, none⟩ :: inserted, ?_, fun id => ?_⟩
    · simp [PostgreSqlInboxDialect.buildInboxBulkInsert, PostgreSqlInboxDialect.buildInboxInsert,
        hconflict, hinsert, hbulk]
    · rw [List.map_cons, List.mem_cons, hids, List.exists_mem_cons_iff]
      refine or_congr_left ⟨?_, fun hid => hid.1.symm⟩
      rintro rfl
      exact ⟨rfl, hhead⟩

/-- On MySQL they are counted. -/
theorem insertIgnore_mysql (rows : List InboxEvent) (table : InboxTable collate) :
    (MySqlInboxDialect.insertIgnore rows table).2 = table.insertFree rows := by
  induction rows generalizing table with
  | nil => rfl
  | cons row rows ih =>
    unfold MySqlInboxDialect.insertIgnore
    cases hinsert : table.insert row with
    | some table' => rw [Table.insertFree_cons_of_insert hinsert, ← ih table']; rfl
    | none =>
      rw [Table.insertFree, List.foldl_cons, hinsert]
      exact ih table

/-! ## One event -/

/-- The answer to one event. -/
def insertResult (a : Adapter) (table : InboxTable collate) (row : InboxEvent) :
    InboxReceiveResult :=
  if (table.conflict row).isSome then
    ⟨if a.supportsReturning then none else some row.id, .duplicate⟩
  else ⟨some row.id, .processed⟩

theorem insertResult_status {a : Adapter} {table : InboxTable collate} {row : InboxEvent}
    (h : table.Fresh [row]) :
    (insertResult a table row).status = receiveStatus (table.insertFree [row]) row := by
  unfold insertResult
  rw [receiveStatus_head h]
  cases table.conflict row <;> rfl

/-- `receive` after its checks, on both databases. -/
theorem insertEvent_of_fresh {a : Adapter} {client : InboxyClient a}
    {event : Stamp × ValidatedInboxEvent} {row : InboxEvent} {table : InboxTable collate}
    (hrow : IsRow event row) (h : table.Fresh [row]) :
    (client.insertEvent event.1 event.2).run table =
      .ok (insertResult a table row, table.insertFree [row]) := by
  unfold InboxyClient.insertEvent insertResult
  rw [run_bind_ok (run_liftM hrow.built)]
  have hnew := h.new row (List.mem_singleton_self _)
  cases a with
  | postgres =>
    cases hconflict : table.conflict row with
    | some existing =>
      have hquery : ((Adapter.postgres.inboxInsert row).run table : Except SdkError _) =
          .ok ([], table) := by
        simp [Adapter.inboxInsert, query, StateT.run, PostgreSqlInboxDialect.buildInboxInsert,
          hconflict]
      rw [run_bind_ok hquery, Table.insertFree_cons_of_conflict hconflict]
      rfl
    | none =>
      obtain ⟨table', hinsert⟩ := Table.exists_insert hnew hconflict
      have hquery : ((Adapter.postgres.inboxInsert row).run table : Except SdkError _) =
          .ok ([⟨row.id, none⟩], table') := by
        simp [Adapter.inboxInsert, query, StateT.run, PostgreSqlInboxDialect.buildInboxInsert,
          hconflict, hinsert]
      rw [run_bind_ok hquery, Table.insertFree_cons_of_insert hinsert]
      rfl
  | mysql =>
    rw [hrow.id]
    cases hconflict : table.conflict row with
    | some existing =>
      have hquery : ((Adapter.mysql.inboxInsert row).run table : Except SdkError _) =
          .ok ([], table) := by
        simp [Adapter.inboxInsert, query, StateT.run, StateT.map, Functor.map, bind, Except.bind,
          MySqlInboxDialect.buildInboxInsert, Table.insert_of_conflict hconflict]
        rfl
      rw [run_bind_ok hquery, Table.insertFree_cons_of_conflict hconflict]
      rfl
    | none =>
      obtain ⟨table', hinsert⟩ := Table.exists_insert hnew hconflict
      have hquery : ((Adapter.mysql.inboxInsert row).run table : Except SdkError _) =
          .ok ([⟨"", none⟩], table') := by
        simp [Adapter.inboxInsert, query, StateT.run, StateT.map, Functor.map, bind, Except.bind,
          MySqlInboxDialect.buildInboxInsert, hinsert]
        rfl
      rw [run_bind_ok hquery, Table.insertFree_cons_of_insert hinsert]
      rfl

/-! ## Reading the ids back -/

/-- The keys of a table differ, also as texts. -/
theorem nodup_keys (table : InboxTable collate) :
    (table.rows.map InboxEvent.idempotencyKey).Nodup := by
  have hix : table.rows.filterMap (InboxEvent.index collate) =
      (table.rows.map InboxEvent.idempotencyKey).map collate := by
    rw [List.map_map]
    exact congrFun List.filterMap_eq_map table.rows
  exact List.Nodup.of_map collate (hix ▸ table.ix_nodup)

/-- The texts of the keys that a slice reads back. -/
theorem nodup_findByIdempotencyKeys (keys : List String) (table : InboxTable collate) :
    ((findByIdempotencyKeys keys table).map QueryRow.idempotencyKey).Nodup := by
  unfold findByIdempotencyKeys
  rw [List.map_map]
  have hsome : (table.rows.map fun row => some row.idempotencyKey).Nodup := by
    have hmap := (nodup_keys table).map (f := some) fun _ _ h => Option.some.inj h
    rwa [List.map_map] at hmap
  exact hsome.sublist (List.filter_sublist.map _)

/-- The map from keys to ids of a slice. -/
def keyToId (keys : List String) (table : InboxTable collate) :
    OrderedMap (Option String) EventId :=
  OrderedMap.ofList QueryRow.idempotencyKey QueryRow.id (findByIdempotencyKeys keys table)

/-- A row whose key is asked for is found under it. -/
theorem get?_keyToId {keys : List String} {table : InboxTable collate} {row : InboxEvent}
    (hrow : row ∈ table.rows) (hkey : row.idempotencyKey ∈ keys) :
    (keyToId keys table).get? (some row.idempotencyKey) = some row.id := by
  refine OrderedMap.get?_ofList (x := ⟨row.id, some row.idempotencyKey⟩) QueryRow.id
    (nodup_findByIdempotencyKeys keys table) ?_
  exact List.mem_map.mpr ⟨row, List.mem_filter.mpr ⟨hrow, by simpa using ⟨_, hkey, rfl⟩⟩, rfl⟩

/-- A key that no row has as its text is not found. -/
theorem get?_keyToId_eq_none {keys : List String} {table : InboxTable collate} {key : String}
    (h : ∀ row ∈ table.rows, row.idempotencyKey ≠ key) :
    (keyToId keys table).get? (some key) = none := by
  refine OrderedMap.get?_ofList_of_not_mem QueryRow.id (nodup_findByIdempotencyKeys keys table)
    fun hmem => ?_
  obtain ⟨found, hfound, heq⟩ := List.mem_map.mp hmem
  obtain ⟨row, hrow, rfl⟩ := List.mem_map.mp hfound
  exact h row (List.mem_of_mem_filter hrow) (Option.some.inj heq)

theorem exists_of_get?_keyToId {keys : List String} {table : InboxTable collate} {key : String}
    {id : EventId} (hkey : key ∈ keys) (h : (keyToId keys table).get? (some key) = some id) :
    ∃ row ∈ table.rows, row.idempotencyKey = key ∧ row.id = id := by
  by_cases hrow : ∃ row ∈ table.rows, row.idempotencyKey = key
  · obtain ⟨row, hrow, rfl⟩ := hrow
    exact ⟨row, hrow, rfl, Option.some.inj ((get?_keyToId hrow hkey).symm.trans h)⟩
  · rw [get?_keyToId_eq_none fun row hmem heq => hrow ⟨row, hmem, heq⟩] at h
    exact absurd h (by simp)

/-- The id that is found under the key of a row.  A row that holds the key
under another text is not found. -/
def foundId (table : InboxTable collate) (row : InboxEvent) : Option EventId :=
  match table.conflict row with
  | some held => if held.idempotencyKey = row.idempotencyKey then some held.id else none
  | none => none

theorem foundId_eq_some_iff {table : InboxTable collate} {row : InboxEvent} {id : EventId} :
    foundId table row = some id ↔
      ∃ held, held ∈ table.rows ∧ held.idempotencyKey = row.idempotencyKey ∧ held.id = id := by
  unfold foundId
  constructor
  · intro h
    split at h
    · rename_i held hconflict
      split at h
      · rename_i hkey
        exact ⟨held, (Table.conflict_eq_some_iff.mp hconflict).1, hkey, Option.some.inj h⟩
      · exact absurd h (by simp)
    · exact absurd h (by simp)
  · intro h
    obtain ⟨held, hheld, hkey, rfl⟩ := h
    have hconflict : table.conflict row = some held := by
      rw [Table.conflict_eq_some_iff]
      exact ⟨hheld, congrArg (some ∘ collate) hkey, _, rfl⟩
    rw [hconflict]
    exact if_pos hkey

theorem get?_keyToId_eq_foundId {keys : List String} {table : InboxTable collate}
    {row : InboxEvent} (hkey : row.idempotencyKey ∈ keys) :
    (keyToId keys table).get? (some row.idempotencyKey) = foundId table row := by
  cases hfound : foundId table row with
  | some id =>
    obtain ⟨held, hheld, hsame, rfl⟩ := foundId_eq_some_iff.mp hfound
    rw [← hsame]
    exact get?_keyToId hheld (hsame ▸ hkey)
  | none =>
    refine get?_keyToId_eq_none fun held hheld hsame => ?_
    rw [foundId_eq_some_iff.mpr ⟨held, hheld, hsame, rfl⟩] at hfound
    exact absurd hfound (by simp)

end Outboxy
