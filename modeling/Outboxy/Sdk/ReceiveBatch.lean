import Outboxy.Sdk.Receive

/-!
# Receiving a batch

`receiveBatch` against one `receive` after the other.  Both leave the table
with the rows whose key was free, and both answer for each event whether its
row was stored: `insertEvents_of_fresh` for the loop, and
`bulkInsert_of_receivable` for the slices, however they cut the batch.  The
ids and times may differ, so `receiveBatch_eq_receive` compares what the rows
say (`InboxEvent.content`).
-/

namespace Outboxy

variable {collate : String → String} {a : Adapter} {client : InboxyClient a}

/-- What a slice answers for one of its rows, in the table that the batch
leaves. -/
def sliceResult (a : Adapter) (table : InboxTable collate) (row : InboxEvent) :
    InboxReceiveResult :=
  match foundId table row with
  | some id => ⟨some id, if id = row.id then .processed else .duplicate⟩
  | none => ⟨if a.supportsReturning then none else some row.id, .duplicate⟩

/-- The status says whether the row was stored. -/
theorem sliceResult_status {table : InboxTable collate} {rows : List InboxEvent}
    {row : InboxEvent} (h : table.Fresh rows) (hrow : row ∈ rows) :
    (sliceResult a (table.insertFree rows) row).status =
      receiveStatus (table.insertFree rows) row := by
  unfold sliceResult receiveStatus
  cases hlookup : (table.insertFree rows).lookup row.id with
  | some r =>
    obtain rfl := h.eq_of_lookup hrow hlookup
    rw [foundId_eq_some_iff.mpr ⟨r, Table.mem_of_lookup hlookup, rfl, rfl⟩]
    simp
  | none =>
    cases hfound : foundId (table.insertFree rows) row with
    | none => rfl
    | some id =>
      obtain ⟨held, hheld, _, rfl⟩ := foundId_eq_some_iff.mp hfound
      simp [Table.lookup_eq_none_iff.mp hlookup held hheld]

theorem batchResult_eq_sliceResult {event : Stamp × ValidatedInboxEvent} {row : InboxEvent}
    {table : InboxTable collate} {insertedIds : List EventId}
    {ids : OrderedMap (Option String) EventId} (hrow : IsRow event row)
    (hfound : ids.get? (some row.idempotencyKey) = foundId table row)
    (hinserted : a = .postgres →
      ∀ id, foundId table row = some id → (id ∈ insertedIds ↔ id = row.id)) :
    InboxyClient.batchResult a insertedIds ids event.1 event.2 = sliceResult a table row := by
  unfold InboxyClient.batchResult sliceResult
  rw [← hrow.idempotencyKey, hfound, ← hrow.id]
  cases hid : foundId table row with
  | some id =>
    cases a with
    | postgres => simp [Adapter.supportsReturning, hinserted rfl id hid]
    | mysql => simp [Adapter.supportsReturning]
  | none =>
    cases a with
    | postgres => rfl
    | mysql => simp [Adapter.supportsReturning]

/-! ## Slices -/

/-- Rows with new ids and different keys. -/
structure Receivable (rows : List InboxEvent) (table : InboxTable collate) : Prop where
  fresh : table.Fresh rows
  keys : (rows.map InboxEvent.idempotencyKey).Nodup

namespace Receivable

variable {row : InboxEvent} {rows rows' rest : List InboxEvent} {table : InboxTable collate}

theorem left (h : Receivable (rows ++ rows') table) : Receivable rows table :=
  ⟨h.fresh.left, h.keys.sublist ((List.sublist_append_left _ _).map _)⟩

theorem right (h : Receivable (rows ++ rows') table) :
    Receivable rows' (table.insertFree rows) :=
  ⟨h.fresh.right, h.keys.sublist ((List.sublist_append_right _ _).map _)⟩

/-- The id found under the key of a row is its own exactly when a row of the
batch was stored under that id. -/
theorem stored_iff (h : Receivable rows table) (hrow : row ∈ rows) {id : EventId}
    (hfound : foundId (table.insertFree rows) row = some id) :
    (∃ r ∈ rows, r.id = id ∧ ((table.insertFree rows).lookup id).isSome) ↔ id = row.id := by
  obtain ⟨held, hheld, hkey, rfl⟩ := foundId_eq_some_iff.mp hfound
  have hlookup := Table.lookup_of_mem hheld
  constructor
  · intro hstored
    obtain ⟨r, hr, hid, _⟩ := hstored
    obtain rfl := h.fresh.eq_of_lookup hr (hid ▸ hlookup)
    rw [List.inj_on_of_nodup_map h.keys hr hrow hkey]
  · intro hid
    exact ⟨row, hrow, hid.symm, by rw [hlookup]; rfl⟩

end Receivable

/-- The later rows make no difference to the id that is found. -/
theorem foundId_insertFree {table : InboxTable collate} {rows : List InboxEvent}
    {row : InboxEvent} (h : table.Fresh rows) (hrow : row ∈ rows) (rest : List InboxEvent) :
    foundId ((table.insertFree rows).insertFree rest) row =
      foundId (table.insertFree rows) row := by
  obtain ⟨held, hheld⟩ := h.exists_conflict hrow (i := collate row.idempotencyKey) rfl
  unfold foundId
  rw [hheld, Table.conflict_insertFree hheld rest]

theorem map_sliceResult_insertFree {table : InboxTable collate} {rows : List InboxEvent}
    (h : table.Fresh rows) (rest : List InboxEvent) :
    rows.map (sliceResult a ((table.insertFree rows).insertFree rest)) =
      rows.map (sliceResult a (table.insertFree rows)) :=
  List.map_congr_left fun row hrow => by
    rw [sliceResult, sliceResult, foundId_insertFree h hrow rest]

/-- The rows of a list of events. -/
abbrev AreRows (events : List (Stamp × ValidatedInboxEvent)) (rows : List InboxEvent) : Prop :=
  List.Forall₂ IsRow events rows

section AreRows

variable {events : List (Stamp × ValidatedInboxEvent)} {rows : List InboxEvent}

theorem bulkRows_of_areRows (h : AreRows events rows) :
    InboxyClient.bulkRows events = .ok rows := by
  unfold InboxyClient.bulkRows
  induction h with
  | nil => rfl
  | cons hrow _ ih =>
    rw [List.mapM_cons, hrow.built, ih]
    rfl

theorem keys_of_areRows (h : AreRows events rows) :
    (events.map fun event => event.2.idempotencyKey) = rows.map InboxEvent.idempotencyKey := by
  induction h with
  | nil => rfl
  | cons hrow _ ih => rw [List.map_cons, List.map_cons, hrow.idempotencyKey, ih]

theorem results_of_areRows {result : Stamp × ValidatedInboxEvent → InboxReceiveResult}
    {rowResult : InboxEvent → InboxReceiveResult} (h : AreRows events rows)
    (hresult : ∀ event row, IsRow event row → row ∈ rows → result event = rowResult row) :
    events.map result = rows.map rowResult := by
  induction h with
  | nil => rfl
  | cons hrow _ ih =>
    rw [List.map_cons, List.map_cons, hresult _ _ hrow List.mem_cons_self,
      ih fun event row hrow hmem => hresult event row hrow (List.mem_cons_of_mem _ hmem)]

end AreRows

theorem run_inboxFind {keys : List String} (hkeys : keys ≠ []) (table : InboxTable collate) :
    ((a.inboxFind keys).run table : Except SdkError _) =
      .ok (findByIdempotencyKeys keys table, table) := by
  unfold Adapter.inboxFind
  rw [if_neg (by simpa using hkeys)]
  cases a <;> rfl

theorem run_inboxBulkInsert_postgres {rows : List InboxEvent} {table table' : InboxTable collate}
    {inserted : List QueryRow}
    (h : PostgreSqlInboxDialect.buildInboxBulkInsert rows table = some (inserted, table')) :
    ((Adapter.postgres.inboxBulkInsert rows).run table : Except SdkError _) =
      .ok (inserted, table') := by
  simp [Adapter.inboxBulkInsert, query, StateT.run, h]

/-- A slice is answered from what its `INSERT` returns and from the table that
it leaves. -/
theorem run_inboxInsertSlice (client : InboxyClient a)
    {events : List (Stamp × ValidatedInboxEvent)} {rows : List InboxEvent}
    {table table' : InboxTable collate} {inserted : List QueryRow} (hrows : AreRows events rows)
    (hne : events ≠ [])
    (hinsert : ((a.inboxBulkInsert rows).run table : Except SdkError _) = .ok (inserted, table')) :
    (client.insertSlice events).run table =
      .ok (events.map fun event => InboxyClient.batchResult a (inserted.map QueryRow.id)
        (keyToId (events.map fun event => event.2.idempotencyKey) table') event.1 event.2,
        table') := by
  have hkeys : (events.map fun event => event.2.idempotencyKey) ≠ [] := by simpa using hne
  unfold InboxyClient.insertSlice
  rw [run_bind_ok (run_liftM (bulkRows_of_areRows hrows)), run_bind_ok hinsert,
    run_bind_ok (run_inboxFind hkeys _)]
  rfl

/-- A slice stores the rows with free keys. -/
theorem insertSlice_of_receivable (client : InboxyClient a)
    {events : List (Stamp × ValidatedInboxEvent)}
    {rows : List InboxEvent} {table : InboxTable collate} (hrows : AreRows events rows)
    (hne : events ≠ []) (h : Receivable rows table) :
    (client.insertSlice events).run table =
      .ok (rows.map (sliceResult a (table.insertFree rows)), table.insertFree rows) := by
  have hresults : ∀ insertedIds, (a = .postgres → ∀ id, id ∈ insertedIds ↔
        ∃ r ∈ rows, r.id = id ∧ ((table.insertFree rows).lookup id).isSome) →
      (events.map fun event => InboxyClient.batchResult a insertedIds
        (keyToId (events.map fun event => event.2.idempotencyKey) (table.insertFree rows))
          event.1 event.2) = rows.map (sliceResult a (table.insertFree rows)) := by
    intro insertedIds hinserted
    refine results_of_areRows hrows fun event row hrow hmem => ?_
    refine batchResult_eq_sliceResult hrow ?_ fun ha id hid => ?_
    · rw [keys_of_areRows hrows]
      exact get?_keyToId_eq_foundId (List.mem_map_of_mem hmem)
    · rw [hinserted ha]
      exact h.stored_iff hmem hid
  cases a with
  | postgres =>
    obtain ⟨inserted, hbulk, hids⟩ := buildInboxBulkInsert_postgres h.fresh
    rw [run_inboxInsertSlice client hrows hne (run_inboxBulkInsert_postgres hbulk),
      hresults _ fun _ => hids]
  | mysql =>
    have hinsert : ((Adapter.mysql.inboxBulkInsert rows).run table : Except SdkError _) =
        .ok (createMysql2Adapter
          (.resultSetHeader (MySqlInboxDialect.insertIgnore rows table).1),
          table.insertFree rows) := by
      rw [← insertIgnore_mysql rows table]
      rfl
    rw [run_inboxInsertSlice client hrows hne hinsert, hresults _ fun ha => absurd ha (by simp)]

/-- Slice after slice does the same for the whole list. -/
theorem slices_of_receivable {n : Nat} {hn : 0 < n}
    {events : List (Stamp × ValidatedInboxEvent)} {rows : List InboxEvent}
    {table : InboxTable collate} (hrows : AreRows events rows) (h : Receivable rows table) :
    ∃ results, ((events.slices n hn).mapM client.insertSlice).run table =
        .ok (results, table.insertFree rows) ∧
      results.flatten = rows.map (sliceResult a (table.insertFree rows)) := by
  induction events using List.slices.induct n hn generalizing rows table with
  | case1 =>
    cases hrows
    rw [List.slices]
    exact ⟨[], rfl, rfl⟩
  | case2 event events ih =>
    have hne : (event :: events).take n ≠ [] := by
      rw [Ne, List.take_eq_nil_iff]
      simp [Nat.ne_of_gt hn]
    rw [← List.take_append_drop n rows] at h ⊢
    have hslice :=
      insertSlice_of_receivable client (List.forall₂_take n hrows) hne h.left
    obtain ⟨results, hslices, hresults⟩ := ih (List.forall₂_drop n hrows) h.right
    refine ⟨(rows.take n).map (sliceResult a (table.insertFree (rows.take n))) :: results,
      ?_, ?_⟩
    · rw [List.slices, Table.insertFree_append]
      exact List.run_mapM_cons hslice hslices
    · rw [List.flatten_cons, hresults, Table.insertFree_append, List.map_append,
        map_sliceResult_insertFree h.left.fresh]

theorem bulkInsert_of_receivable {events : List (Stamp × ValidatedInboxEvent)}
    {rows : List InboxEvent} {table : InboxTable collate} (hrows : AreRows events rows)
    (hne : events ≠ []) (h : Receivable rows table) :
    (client.bulkInsert events).run table =
      .ok (rows.map (sliceResult a (table.insertFree rows)), table.insertFree rows) := by
  unfold InboxyClient.bulkInsert
  split
  · obtain ⟨results, hslices, hresults⟩ := slices_of_receivable hrows h
    rw [run_bind_ok hslices, ← hresults]
    rfl
  · exact insertSlice_of_receivable client hrows hne h

/-! ## The loop -/

/-- A loop whose body stores one row unless its key is taken, and says whether
it was. -/
theorem run_mapM_of_fresh {α : Type} {R : α → InboxEvent → Prop}
    {f : α → Sdk (InboxTable collate) InboxReceiveResult}
    (hone : ∀ x row table, R x row → table.Fresh [row] → ∃ result,
      (f x).run table = .ok (result, table.insertFree [row]) ∧
        result.status = receiveStatus (table.insertFree [row]) row)
    {xs : List α} {rows : List InboxEvent} {table : InboxTable collate}
    (hrows : List.Forall₂ R xs rows) (h : table.Fresh rows) :
    ∃ results, (xs.mapM f).run table = .ok (results, table.insertFree rows) ∧
      results.map InboxReceiveResult.status =
        rows.map (receiveStatus (table.insertFree rows)) := by
  induction hrows generalizing table with
  | nil => exact ⟨[], rfl, rfl⟩
  | @cons x row xs rows hrow _ ih =>
    obtain ⟨result, hfirst, hresult⟩ := hone x row table hrow h.head
    obtain ⟨results, hloop, hstatus⟩ := ih h.rest
    rw [← Table.insertFree_append] at hloop hstatus
    refine ⟨result :: results, List.run_mapM_cons hfirst hloop, ?_⟩
    rw [List.map_cons, List.map_cons, hstatus, hresult]
    refine congrArg₂ _ ?_ rfl
    show receiveStatus _ row = receiveStatus (table.insertFree ([row] ++ rows)) row
    rw [receiveStatus, receiveStatus, Table.insertFree_append,
      Table.lookup_insertFree_of_not_mem (List.nodup_cons.mp h.distinct).1]

/-- One event after the other stores the same rows, and answers whether each
was. -/
theorem insertEvents_of_fresh {events : List (Stamp × ValidatedInboxEvent)}
    {rows : List InboxEvent} {table : InboxTable collate} (hrows : AreRows events rows)
    (h : table.Fresh rows) :
    ∃ results, (events.mapM fun event => client.insertEvent event.1 event.2).run table =
        .ok (results, table.insertFree rows) ∧
      results.map InboxReceiveResult.status =
        rows.map (receiveStatus (table.insertFree rows)) :=
  run_mapM_of_fresh
    (fun _ row table hrow hfirst =>
      ⟨insertResult a table row, insertEvent_of_fresh hrow hfirst, insertResult_status hfirst⟩)
    hrows h

/-! ## The two ways to receive -/

/-- What a row says, without the generated id and the times. -/
def InboxEvent.content (row : InboxEvent) : InboxEvent :=
  { row with id := "", receivedAt := 0, processedAt := none }

/-- Two rows that say the same. -/
structure SameContent (row row' : InboxEvent) : Prop where
  content : row.content = row'.content
  key : row.idempotencyKey = row'.idempotencyKey

/-- The UUIDs generated for the events are new. -/
structure NewIds (events : List (Stamp × InboxReceiveEventInput)) (table : InboxTable collate) :
    Prop where
  distinct : (events.map fun event => event.1.id).Nodup
  fresh : ∀ event ∈ events, table.lookup event.1.id = none

section Rows

variable {events events' : List (Stamp × InboxReceiveEventInput)} {rows rows' : List InboxEvent}

theorem exists_rows (hvalid : ∀ event ∈ events, client.ValidEvent event.2) :
    ∃ rows, List.Forall₂ client.RowOf events rows := by
  induction events with
  | nil => exact ⟨[], .nil⟩
  | cons event events ih =>
    obtain ⟨row, hrow⟩ := hvalid event List.mem_cons_self event.1
    obtain ⟨rows, hrows⟩ := ih fun e he => hvalid e (List.mem_cons_of_mem _ he)
    exact ⟨row :: rows, .cons hrow hrows⟩

/-- The id and the key of a row are those of its event. -/
theorem InboxyClient.RowOf.id_key {event : Stamp × InboxReceiveEventInput} {row : InboxEvent}
    (h : client.RowOf event row) :
    row.id = event.1.id ∧ row.idempotencyKey = event.2.idempotencyKey := by
  obtain ⟨v, hv, hrow⟩ := h
  have hisRow := isRow_of_row hrow
  obtain ⟨_, _, rfl⟩ := InboxyClient.validate_cases hv
  exact ⟨hisRow.id, hisRow.idempotencyKey⟩

/-- A call that returns has built the row of its event. -/
theorem exists_rowOf_of_receive {stamp : Stamp} {event : InboxReceiveEventInput}
    {table : InboxTable collate} {answer : InboxReceiveResult × InboxTable collate}
    (h : (client.receive stamp event).run table = .ok answer) :
    ∃ row, client.RowOf (stamp, event) row := by
  unfold InboxyClient.receive at h
  obtain ⟨v, table₁, hv, h⟩ := run_bind_eq_ok.mp h
  unfold InboxyClient.insertEvent at h
  obtain ⟨row, table₂, hrow, _⟩ := run_bind_eq_ok.mp h
  exact ⟨row, v, eq_ok_of_run_liftM hv, eq_ok_of_run_liftM hrow⟩

/-- What `receive` answers and leaves. -/
theorem run_receive_of_rowOf {event : Stamp × InboxReceiveEventInput} {row : InboxEvent}
    {table : InboxTable collate} (hrow : client.RowOf event row) (h : table.Fresh [row]) :
    (client.receive event.1 event.2).run table =
      .ok (insertResult a table row, table.insertFree [row]) := by
  obtain ⟨v, hv, hbuilt⟩ := hrow
  rw [InboxyClient.receive_eq_insertEvent hv]
  exact insertEvent_of_fresh (isRow_of_row hbuilt) h

/-- The rows of one event at two times. -/
theorem InboxyClient.RowOf.sameContent {event event' : Stamp × InboxReceiveEventInput}
    {row row' : InboxEvent} (h : client.RowOf event row) (h' : client.RowOf event' row')
    (hsame : event.2 = event'.2) :
    SameContent row row' := by
  refine ⟨?_, by rw [h.id_key.2, h'.id_key.2, hsame]⟩
  obtain ⟨v, hv, hrow⟩ := h
  obtain ⟨v', hv', hrow'⟩ := h'
  obtain rfl := Except.ok.inj ((hsame ▸ hv).symm.trans hv')
  unfold ValidatedInboxEvent.row at hrow hrow'
  obtain ⟨payload, hpayload, hrow⟩ := bind_eq_ok.mp hrow
  obtain ⟨headers, hheaders, hrow⟩ := bind_eq_ok.mp hrow
  obtain ⟨metadata, hmetadata, hrow⟩ := bind_eq_ok.mp hrow
  rw [hpayload, hheaders, hmetadata] at hrow'
  obtain rfl := Except.ok.inj hrow
  obtain rfl := Except.ok.inj hrow'
  rfl

theorem fresh_of_rows (hrows : List.Forall₂ client.RowOf events rows)
    {table : InboxTable collate} (hids : NewIds events table) : table.Fresh rows := by
  have hids' : rows.map InboxEvent.id = events.map fun event => event.1.id := by
    clear hids
    induction hrows with
    | nil => rfl
    | cons hrow _ ih => rw [List.map_cons, List.map_cons, hrow.id_key.1, ih]
  refine ⟨fun row hrow => ?_, hids' ▸ hids.distinct⟩
  have hmem : row.id ∈ events.map fun event => event.1.id := hids' ▸ List.mem_map_of_mem hrow
  obtain ⟨event, hevent, heq⟩ := List.mem_map.mp hmem
  exact heq ▸ hids.fresh event hevent

theorem keys_of_rowOf (hrows : List.Forall₂ client.RowOf events rows) :
    rows.map InboxEvent.idempotencyKey = events.map fun event => event.2.idempotencyKey := by
  induction hrows with
  | nil => rfl
  | cons hrow _ ih => rw [List.map_cons, List.map_cons, hrow.id_key.2, ih]

theorem receivable_of_rows (hrows : List.Forall₂ client.RowOf events rows)
    (hkeys : (events.map fun event => event.2.idempotencyKey).Nodup)
    {table : InboxTable collate} (hids : NewIds events table) : Receivable rows table :=
  ⟨fresh_of_rows hrows hids, keys_of_rowOf hrows ▸ hkeys⟩

/-- The checks of a batch pass on valid events, and `receive` goes on from
there as the slices do. -/
theorem exists_validated (collate : String → String)
    (hrows : List.Forall₂ client.RowOf events rows) (index : Nat) :
    ∃ validated, client.validateBatch index events = .ok validated ∧ AreRows validated rows ∧
      List.Forall₂ (fun event v => (client.receive event.1 event.2 :
        Sdk (InboxTable collate) InboxReceiveResult) = client.insertEvent v.1 v.2)
        events validated ∧
      (validated.map fun v => v.2.idempotencyKey) = events.map fun event => event.2.idempotencyKey
      := by
  induction hrows generalizing index with
  | nil => exact ⟨[], rfl, .nil, .nil, rfl⟩
  | @cons event row events rows hrow _ ih =>
    obtain ⟨validated, hvalidated, hareRows, hreceive, hkeys⟩ := ih (index + 1)
    obtain ⟨v, hv, hbuilt⟩ := hrow
    refine ⟨(event.1, v) :: validated, ?_, .cons (isRow_of_row hbuilt) hareRows,
      .cons (InboxyClient.receive_eq_insertEvent hv event.1) hreceive, ?_⟩
    · rw [InboxyClient.validateBatch, InboxyClient.validate_eq_ok hv, hvalidated]
      rfl
    · obtain ⟨_, _, rfl⟩ := InboxyClient.validate_cases hv
      rw [List.map_cons, List.map_cons, hkeys]

/-- Rows of the same events at two times. -/
theorem sameContent_of_rows (hrows : List.Forall₂ client.RowOf events rows)
    (hrows' : List.Forall₂ client.RowOf events' rows')
    (hsame : events.map Prod.snd = events'.map Prod.snd) :
    List.Forall₂ SameContent rows rows' := by
  induction hrows generalizing events' rows' with
  | nil =>
    cases hrows' with
    | nil => exact .nil
    | cons => exact absurd hsame (by simp)
  | cons hrow _ ih =>
    cases hrows' with
    | nil => exact absurd hsame (by simp)
    | cons hrow' hrows' =>
      obtain ⟨hhead, htail⟩ := List.cons.inj hsame
      exact .cons (hrow.sameContent hrow' hhead) (ih hrows' htail)

end Rows

/-- The two tables hold the same keys. -/
def SameKeys (table table' : InboxTable collate) : Prop :=
  ∀ key, (∃ row ∈ table.rows, collate row.idempotencyKey = collate key) ↔
    ∃ row ∈ table'.rows, collate row.idempotencyKey = collate key

namespace SameKeys

variable {row row' : InboxEvent} {table table' table₁ table₁' : InboxTable collate}

theorem conflict (h : SameKeys table table') (hsame : SameContent row row') :
    (table.conflict row).isNone = (table'.conflict row').isNone := by
  have hheld : ∀ (table : InboxTable collate) (row : InboxEvent),
      (table.conflict row).isNone = true ↔
        ¬ ∃ r ∈ table.rows, collate r.idempotencyKey = collate row.idempotencyKey := by
    intro table row
    rw [Option.isNone_iff_eq_none, Table.conflict_eq_none_iff]
    constructor
    · intro hfree hheld
      obtain ⟨r, hr, hkey⟩ := hheld
      exact hfree r hr _ rfl (congrArg some hkey.symm)
    · intro hfree r hr i hi hrow
      exact hfree ⟨r, hr, Option.some.inj (hi.trans hrow.symm)⟩
  rw [Bool.eq_iff_iff, hheld, hheld, h row.idempotencyKey, hsame.key]

theorem insert (h : SameKeys table table') (hsame : SameContent row row')
    (hinsert : table.insert row = some table₁) (hinsert' : table'.insert row' = some table₁') :
    SameKeys table₁ table₁' := by
  intro key
  simp only [Table.rows_insert hinsert, Table.rows_insert hinsert', List.mem_append, or_and_right,
    exists_or, List.mem_singleton, exists_eq_left, hsame.key]
  exact or_congr_left (h key)

end SameKeys

/-- Rows that say the same are stored together, or are not. -/
theorem insertFree_of_sameContent {rows rows' : List InboxEvent}
    {table table' : InboxTable collate} (hrows : List.Forall₂ SameContent rows rows')
    (h : table.Fresh rows) (h' : table'.Fresh rows') (hkeys : SameKeys table table') :
    rows.map (receiveStatus (table.insertFree rows)) =
        rows'.map (receiveStatus (table'.insertFree rows')) ∧
      ∃ new new', (table.insertFree rows).rows = table.rows ++ new ∧
        (table'.insertFree rows').rows = table'.rows ++ new' ∧
        new.map InboxEvent.content = new'.map InboxEvent.content := by
  induction hrows generalizing table table' with
  | nil => exact ⟨rfl, [], [], (List.append_nil _).symm, (List.append_nil _).symm, rfl⟩
  | @cons row row' rows rows' hrow _ ih =>
    have hconflict := hkeys.conflict hrow
    rw [List.map_cons, List.map_cons, receiveStatus_head h, receiveStatus_head h', hconflict]
    cases hfree : table'.conflict row' with
    | some held' =>
      rw [hfree] at hconflict
      obtain ⟨held, hheld⟩ := Option.isSome_iff_exists.mp (Option.isNone_eq_false_iff.mp hconflict)
      obtain ⟨hstatus, hnew⟩ := ih h.tail h'.tail hkeys
      rw [Table.insertFree_cons_of_conflict hheld, Table.insertFree_cons_of_conflict hfree, hstatus]
      exact ⟨rfl, hnew⟩
    | none =>
      rw [hfree] at hconflict
      have hfree' := Option.isNone_iff_eq_none.mp hconflict
      obtain ⟨table₁, hinsert⟩ := Table.exists_insert (h.new row List.mem_cons_self) hfree'
      obtain ⟨table₁', hinsert'⟩ := Table.exists_insert (h'.new row' List.mem_cons_self) hfree
      obtain ⟨hstatus, new, new', happended, happended', hcontent⟩ :=
        ih (h.insert hinsert) (h'.insert hinsert') (hkeys.insert hrow hinsert hinsert')
      rw [Table.insertFree_cons_of_insert hinsert, Table.insertFree_cons_of_insert hinsert',
        hstatus]
      refine ⟨rfl, row :: new, row' :: new', ?_, ?_, ?_⟩
      · rw [happended, Table.rows_insert hinsert, List.append_assoc]
        rfl
      · rw [happended', Table.rows_insert hinsert', List.append_assoc]
        rfl
      · rw [List.map_cons, List.map_cons, hrow.content, hcontent]

/-- A valid batch stores the rows with free keys. -/
theorem receiveBatch_of_receivable {events : List (Stamp × InboxReceiveEventInput)}
    {rows : List InboxEvent} {table : InboxTable collate}
    (hrows : List.Forall₂ client.RowOf events rows)
    (hkeys : (events.map fun event => event.2.idempotencyKey).Nodup) (h : Receivable rows table) :
    (client.receiveBatch events).run table =
      .ok (rows.map (sliceResult a (table.insertFree rows)), table.insertFree rows) := by
  unfold InboxyClient.receiveBatch
  split
  · rename_i hempty
    obtain rfl := List.isEmpty_iff.mp hempty
    cases hrows
    rfl
  · rename_i hne
    obtain ⟨validated, hvalidated, hareRows, _, hvalidatedKeys⟩ :=
      exists_validated collate hrows 0
    have hne' : validated ≠ [] := by
      intro hnil
      subst hnil
      exact hne (by simpa using hvalidatedKeys)
    rw [run_bind_ok (run_liftM hvalidated), if_pos (hvalidatedKeys ▸ hkeys),
      bulkInsert_of_receivable hareRows hne' h]

/-- A batch of valid events with different keys is answered as its events one
after the other, and leaves the same table up to the generated ids and
times. -/
theorem receiveBatch_eq_receive {table : InboxTable collate}
    {batch single : List (Stamp × InboxReceiveEventInput)}
    (hsame : batch.map Prod.snd = single.map Prod.snd)
    (hvalid : ∀ event ∈ batch, client.ValidEvent event.2)
    (hkeys : (batch.map fun event => event.2.idempotencyKey).Nodup)
    (hbatch : NewIds batch table) (hsingle : NewIds single table) :
    ∃ results table₁ results' table₂,
      (client.receiveBatch batch).run table = .ok (results, table₁) ∧
      (single.mapM fun event => client.receive event.1 event.2).run table = .ok (results', table₂) ∧
      results.map InboxReceiveResult.status = results'.map InboxReceiveResult.status ∧
      ∃ new new', table₁.rows = table.rows ++ new ∧ table₂.rows = table.rows ++ new' ∧
        new.map InboxEvent.content = new'.map InboxEvent.content := by
  have hvalid' : ∀ event ∈ single, client.ValidEvent event.2 := by
    intro event hevent
    have hmem : event.2 ∈ batch.map Prod.snd := hsame ▸ List.mem_map_of_mem hevent
    obtain ⟨other, hother, heq⟩ := List.mem_map.mp hmem
    exact heq ▸ hvalid other hother
  obtain ⟨rows, hrows⟩ := exists_rows hvalid
  obtain ⟨rows', hrows'⟩ := exists_rows hvalid'
  have hfresh := fresh_of_rows hrows hbatch
  have hfresh' := fresh_of_rows hrows' hsingle
  have hrun := receiveBatch_of_receivable hrows hkeys (receivable_of_rows hrows hkeys hbatch)
  obtain ⟨validated', _, hareRows', hreceive, _⟩ := exists_validated collate hrows' 0
  obtain ⟨results', hloop, hstatus'⟩ := insertEvents_of_fresh hareRows' hfresh'
  obtain ⟨hstatus, hnew⟩ := insertFree_of_sameContent
    (sameContent_of_rows hrows hrows' hsame) hfresh hfresh' fun _ => Iff.rfl
  refine ⟨_, _, results', _, hrun, ?_, ?_, hnew⟩
  · rw [List.mapM_eq_of_forall₂ hreceive]
    exact hloop
  · rw [hstatus', ← hstatus, List.map_map]
    exact List.map_congr_left fun row hrow => sliceResult_status hfresh hrow

/-- Two events, one of which was received before, with other ids in the batch
than one after the other. -/
theorem receiveBatch_eq_receive_of_held_key :
    ∃ (row : InboxEvent) (table : InboxTable fun key => key),
      row.idempotencyKey = "order-1" ∧ table.rows = [row] ∧
      ∃ results table₁ results' table₂,
        ((Sample.inboxyClient .mysql).receiveBatch
          [(⟨"1", 0⟩, Sample.received "order-1"),
            (⟨"2", 0⟩, Sample.received "order-2")]).run table = .ok (results, table₁) ∧
        ([(⟨"3", 5⟩, Sample.received "order-1"), (⟨"4", 6⟩, Sample.received "order-2")].mapM
          fun event : Stamp × InboxReceiveEventInput =>
            (Sample.inboxyClient .mysql).receive event.1 event.2).run table =
              .ok (results', table₂) ∧
        results.map InboxReceiveResult.status = results'.map InboxReceiveResult.status ∧
        ∃ new new', table₁.rows = table.rows ++ new ∧ table₂.rows = table.rows ++ new' ∧
          new.map InboxEvent.content = new'.map InboxEvent.content := by
  have hkey : ValidKey "order-1" := by decide
  obtain ⟨row, hrow⟩ := Sample.validEvent_received (a := .mysql) hkey ⟨"0", 0⟩
  obtain ⟨hrowId, hrowKey⟩ := hrow.id_key
  obtain ⟨table, hinsert⟩ := Table.exists_insert
    (t := (Table.empty : InboxTable fun key => key)) (r := row) rfl rfl
  have hrows : table.rows = [row] := Table.rows_insert hinsert
  have hnew : ∀ id ≠ "0", table.lookup id = none := by
    intro id hid
    rw [Table.lookup_eq_none_iff, hrows]
    intro held hheld
    obtain rfl := List.mem_singleton.mp hheld
    exact fun heq => hid (heq.symm.trans hrowId)
  refine ⟨row, table, hrowKey, hrows, ?_⟩
  refine receiveBatch_eq_receive rfl (fun event hevent => ?_) (by decide)
    ⟨by decide, fun event hevent => ?_⟩ ⟨by decide, fun event hevent => ?_⟩
  · rcases List.mem_pair.mp hevent with rfl | rfl
    · exact Sample.validEvent_received (by decide)
    · exact Sample.validEvent_received (by decide)
  · rcases List.mem_pair.mp hevent with rfl | rfl <;> exact hnew _ (by decide)
  · rcases List.mem_pair.mp hevent with rfl | rfl <;> exact hnew _ (by decide)

end Outboxy
