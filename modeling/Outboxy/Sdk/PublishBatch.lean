import Outboxy.Sdk.Publish

/-!
# Publishing a batch on PostgreSQL

`publishBatch` against one `publish` after the other, from the same table and
with the same ids and times.  The two agree while no key of the batch is held
by a live row (`bulkInsert_of_free`).  A held key makes the multi-row statement
fail, which has no conflict clause, where the single statement would answer
with the live row (`free_of_bulkInsert`).
`publishBatch_eq_publish_iff` puts the two together.
-/

namespace Outboxy

variable {client : OutboxyClient .postgres}

/-- A checked event with the environment's values for its row. -/
abbrev BatchEvent := Stamp × ValidatedEvent

/-- Events that can be inserted: their values are serializable, their ids are
new and their keys differ. -/
structure Insertable (client : OutboxyClient .postgres) (events : List BatchEvent)
    (table : OutboxTable .postgres) : Prop where
  bound : ∀ event ∈ events, ∃ values, client.baseValues event.2 = .ok values ∧
    values.idempotencyKey = event.2.idempotencyKey
  fresh : ∀ event ∈ events, table.lookup event.1.id = none
  ids : (events.map fun event => event.1.id).Nodup
  keys : (events.filterMap fun event => event.2.idempotencyKey).Nodup

/-- No live row holds a key of the events. -/
def KeysFree (events : List BatchEvent) (table : OutboxTable .postgres) : Prop :=
  ∀ event ∈ events, ∀ key ∈ event.2.idempotencyKey, ∀ row ∈ table.rows, ¬ Live key row

theorem bulkRows_cons_eq_ok {event : BatchEvent} {events : List BatchEvent}
    {rows : List OutboxEvent} :
    client.bulkRows (event :: events) = .ok rows ↔
      ∃ values rows', client.baseValues event.2 = .ok values ∧
        client.bulkRows events = .ok rows' ∧
        rows = values.row event.1.id event.1.now :: rows' := by
  have hcons : client.bulkRows (event :: events) = do
      let row ← (do
        let values ← client.baseValues event.2
        return values.row event.1.id event.1.now)
      let rows ← client.bulkRows events
      return row :: rows := List.mapM_cons
  rw [hcons]
  constructor
  · intro h
    obtain ⟨row, hrow, h⟩ := bind_eq_ok.mp h
    obtain ⟨values, hvalues, hrow⟩ := bind_eq_ok.mp hrow
    obtain ⟨rows', hrows', h⟩ := bind_eq_ok.mp h
    obtain rfl := Except.ok.inj hrow
    exact ⟨values, rows', hvalues, hrows', (Except.ok.inj h).symm⟩
  · intro h
    obtain ⟨values, rows', hvalues, hrows', rfl⟩ := h
    rw [hvalues, hrows']
    rfl

/-! ## Free keys -/

/-- Inserting the first event leaves the others insertable. -/
theorem insertable_tail {event : BatchEvent} {events : List BatchEvent}
    {table table' : OutboxTable .postgres} {values : InsertValues}
    (h : Insertable client (event :: events) table)
    (hkey : values.idempotencyKey = event.2.idempotencyKey)
    (hinsert : table.insert (values.row event.1.id event.1.now) = some table') :
    Insertable client events table' ∧
      (KeysFree (event :: events) table → KeysFree events table') := by
  have hids := List.nodup_cons.mp h.ids
  refine ⟨⟨fun e he => h.bound e (List.mem_cons_of_mem _ he), fun e he => ?_, hids.2, ?_⟩, ?_⟩
  · rw [Table.lookup_insert hinsert, if_neg]
    · exact h.fresh e (List.mem_cons_of_mem _ he)
    · intro heq
      exact hids.1 (List.mem_map.mpr ⟨e, he, heq.symm⟩)
  · exact h.keys.sublist ((List.sublist_cons_self _ _).filterMap _)
  · intro hfree e he key hekey row hrow hlive
    rw [Table.rows_insert hinsert, List.mem_append, List.mem_singleton] at hrow
    rcases hrow with hrow | rfl
    · exact hfree e (List.mem_cons_of_mem _ he) key hekey row hrow hlive
    · -- The new row is live under another key of the batch.
      have heventKey : event.2.idempotencyKey = some key := hkey.symm.trans hlive.1
      have hkeys := h.keys
      rw [List.filterMap_cons_some (f := fun event : BatchEvent => event.2.idempotencyKey)
        heventKey, List.nodup_cons] at hkeys
      exact hkeys.1 (List.mem_filterMap.mpr ⟨e, he, hekey⟩)

/-- A slice with free keys is inserted by its multi-row statement as by single
statements. -/
theorem insertSlice_of_free {piece rest : List BatchEvent} {table : OutboxTable .postgres}
    (h : Insertable client (piece ++ rest) table) (hfree : KeysFree (piece ++ rest) table) :
    ∃ rows table', client.bulkRows piece = .ok rows ∧
      rows.map OutboxEvent.id = piece.map (fun event => event.1.id) ∧
      table.insertAll rows = some table' ∧
      (piece.mapM fun event => client.insertEvent event.1 event.2).run table =
        .ok (piece.map fun event => event.1.id, table') ∧
      Insertable client rest table' ∧ KeysFree rest table' := by
  induction piece generalizing table with
  | nil => exact ⟨[], table, rfl, rfl, rfl, rfl, h, hfree⟩
  | cons event piece ih =>
    obtain ⟨values, hvalues, hkey⟩ := h.bound event List.mem_cons_self
    have hconflict : table.conflict (values.row event.1.id event.1.now) = none :=
      conflict_row_eq_none fun key hvaluesKey =>
        hfree event List.mem_cons_self key (hkey ▸ hvaluesKey)
    obtain ⟨table₁, hinsert⟩ := Table.exists_insert
      (r := values.row event.1.id event.1.now) (h.fresh event List.mem_cons_self) hconflict
    have hevent := OutboxyClient.insertEvent_postgres hvalues
      (PostgreSqlDialect.buildInsert_of_insert hconflict hinsert)
    obtain ⟨htail, hfreeTail⟩ := insertable_tail h hkey hinsert
    obtain ⟨rows, table', hrows, hids, hall, hloop, hrest, hfreeRest⟩ := ih htail (hfreeTail hfree)
    refine ⟨values.row event.1.id event.1.now :: rows, table', ?_, ?_, ?_, ?_, hrest, hfreeRest⟩
    · exact bulkRows_cons_eq_ok.mpr ⟨values, rows, hvalues, hrows, rfl⟩
    · rw [List.map_cons, List.map_cons, hids]
      rfl
    · rw [Table.insertAll, List.foldlM_cons, hinsert]
      exact hall
    · exact List.run_mapM_cons hevent hloop

/-- The statement of a slice, once its rows are built. -/
theorem run_insertSlice {piece : List BatchEvent} {rows : List OutboxEvent}
    {table : OutboxTable .postgres} (hrows : client.bulkRows piece = .ok rows) :
    (client.insertSlice piece).run table =
      match table.insertAll rows with
      | some table' => .ok (rows.map OutboxEvent.id, table')
      | none => .error .uniqueViolation := by
  unfold OutboxyClient.insertSlice
  rw [run_bind_ok (run_liftM hrows)]
  cases hall : table.insertAll rows with
  | some table' =>
    have hquery : (Adapter.postgres.bulkInsert rows).run table =
        .ok (rows.map fun row => ⟨row.id, none⟩, table') := by
      simp [Adapter.bulkInsert, query, PostgreSqlDialect.buildBulkInsert, StateT.run, hall]
    rw [run_bind_ok hquery]
    show Except.ok ((rows.map fun row => (⟨row.id, none⟩ : QueryRow)).map QueryRow.id, table') = _
    rw [List.map_map]
    rfl
  | none =>
    have hquery : (Adapter.postgres.bulkInsert rows).run table = .error .uniqueViolation := by
      simp [Adapter.bulkInsert, query, PostgreSqlDialect.buildBulkInsert, StateT.run, hall]
    rw [run_bind_error hquery]

/-- Events with free keys are inserted in slices as one by one. -/
theorem bulkInsert_of_free {events : List BatchEvent} {table : OutboxTable .postgres}
    (h : Insertable client events table) (hfree : KeysFree events table) :
    ∃ result, (client.bulkInsert events).run table = .ok result ∧
      (events.mapM fun event => client.insertEvent event.1 event.2).run table = .ok result := by
  have hpiece : ∀ piece rest table, Insertable client (piece ++ rest) table →
      KeysFree (piece ++ rest) table →
      ∃ ids table', (client.insertSlice piece).run table = .ok (ids, table') ∧
        (piece.mapM fun event => client.insertEvent event.1 event.2).run table =
          .ok (ids, table') ∧ Insertable client rest table' ∧ KeysFree rest table' := by
    intro piece rest table h hfree
    obtain ⟨rows, table', hrows, hids, hall, hloop, hrest⟩ := insertSlice_of_free h hfree
    refine ⟨_, table', ?_, hloop, hrest⟩
    rw [run_insertSlice hrows, hall, ← hids]
  unfold OutboxyClient.bulkInsert
  split
  · obtain ⟨idss, table', ids, _, hslices, hloop, hids, rfl, _⟩ := List.slices_simulate
      (n := client.maxEventsPerBatch)
      (R := fun rest table table' => table = table' ∧ Insertable client rest table ∧
        KeysFree rest table) (Q := Eq)
      (fun piece rest table _ _ hR => by
        obtain ⟨rfl, h, hfree⟩ := hR
        obtain ⟨ids, table', hslice, hloop, hrest⟩ := hpiece piece rest table h hfree
        exact ⟨ids, table', ids, table', hslice, hloop, List.forall₂_same.mpr fun _ _ => rfl,
          rfl, hrest⟩)
      ⟨rfl, h, hfree⟩
    rw [List.forall₂_eq_eq_eq] at hids
    refine ⟨(ids, table'), ?_, hloop⟩
    rw [run_bind_ok hslices, ← hids]
    rfl
  · obtain ⟨ids, table', hslice, hloop, _⟩ := hpiece events [] table (by rwa [List.append_nil])
      (by rwa [List.append_nil])
    exact ⟨(ids, table'), hslice, hloop⟩

/-! ## Held keys -/

/-- A slice whose statement succeeds had free keys, and the rest can still be
inserted. -/
theorem free_of_insertAll {piece rest : List BatchEvent} {rows : List OutboxEvent}
    {table table' : OutboxTable .postgres} (h : Insertable client (piece ++ rest) table)
    (hrows : client.bulkRows piece = .ok rows) (hall : table.insertAll rows = some table') :
    KeysFree piece table ∧ (∀ row ∈ table.rows, row ∈ table'.rows) ∧
      Insertable client rest table' := by
  induction piece generalizing rows table with
  | nil =>
    obtain rfl : [] = rows := Except.ok.inj hrows
    obtain rfl : table = table' := Option.some.inj hall
    exact ⟨fun _ hmem => absurd hmem List.not_mem_nil, fun _ hrow => hrow, h⟩
  | cons event piece ih =>
    obtain ⟨values, rows', hvalues, hrows', rfl⟩ := bulkRows_cons_eq_ok.mp hrows
    have hkey : values.idempotencyKey = event.2.idempotencyKey := by
      obtain ⟨values', hvalues', hkey⟩ := h.bound event List.mem_cons_self
      obtain rfl := Except.ok.inj (hvalues.symm.trans hvalues')
      exact hkey
    rw [Table.insertAll, List.foldlM_cons] at hall
    obtain ⟨table₁, hinsert, hall⟩ := Option.bind_eq_some_iff.mp hall
    obtain ⟨hfree, hkept, hrest⟩ := ih (insertable_tail h hkey hinsert).1 hrows' hall
    have hgrown : ∀ row ∈ table.rows, row ∈ table₁.rows := fun row hrow => by
      rw [Table.rows_insert hinsert]
      exact List.mem_append_left _ hrow
    refine ⟨fun e he key hekey row hrow hlive => ?_,
      fun row hrow => hkept row (hgrown row hrow), hrest⟩
    rcases List.mem_cons.mp he with rfl | he
    · have hconflict := (Table.insert_isSome_iff.mp (Option.isSome_iff_exists.mpr ⟨_, hinsert⟩)).2
      rw [conflict_row_of_live (hkey.trans hekey) hrow hlive] at hconflict
      exact absurd hconflict (by simp)
    · exact hfree e he key hekey row (hgrown row hrow) hlive

/-- A slice that is inserted had free keys. -/
theorem free_of_insertSlice {piece rest : List BatchEvent} {table table' : OutboxTable .postgres}
    {ids : List EventId} (h : Insertable client (piece ++ rest) table)
    (hrun : (client.insertSlice piece).run table = .ok (ids, table')) :
    KeysFree piece table ∧ (∀ row ∈ table.rows, row ∈ table'.rows) ∧
      Insertable client rest table' := by
  have hslice := hrun
  unfold OutboxyClient.insertSlice at hslice
  obtain ⟨rows, table₀, hlift, _⟩ := run_bind_eq_ok.mp hslice
  have hrows := eq_ok_of_run_liftM hlift
  rw [run_insertSlice hrows] at hrun
  cases hall : table.insertAll rows with
  | none =>
    rw [hall] at hrun
    exact absurd hrun (by simp)
  | some table₁ =>
    rw [hall] at hrun
    obtain ⟨_, rfl⟩ := Prod.mk.inj (Except.ok.inj hrun)
    exact free_of_insertAll h hrows hall

/-- So have the slices of a batch. -/
theorem free_of_slices {n : Nat} {hn : 0 < n} {events : List BatchEvent}
    {table table' : OutboxTable .postgres} {idss : List (List EventId)}
    (h : Insertable client events table)
    (hrun : ((events.slices n hn).mapM client.insertSlice).run table = .ok (idss, table')) :
    KeysFree events table := by
  induction events using List.slices.induct n hn generalizing table idss with
  | case1 => exact fun _ hmem => absurd hmem List.not_mem_nil
  | case2 event events ih =>
    rw [List.slices] at hrun
    obtain ⟨ids, table₁, idss', hslice, hslices, rfl⟩ := List.run_mapM_cons_eq_ok hrun
    rw [← List.take_append_drop n (event :: events)] at h
    obtain ⟨hfree, hkept, hrest⟩ := free_of_insertSlice h hslice
    have hfreeRest := ih hrest hslices
    intro e he key hekey row hrow
    rw [← List.take_append_drop n (event :: events), List.mem_append] at he
    rcases he with he | he
    · exact hfree e he key hekey row hrow
    · exact hfreeRest e he key hekey row (hkept row hrow)

theorem free_of_bulkInsert {events : List BatchEvent} {table table' : OutboxTable .postgres}
    {ids : List EventId} (h : Insertable client events table)
    (hrun : (client.bulkInsert events).run table = .ok (ids, table')) :
    KeysFree events table := by
  unfold OutboxyClient.bulkInsert at hrun
  split at hrun
  · obtain ⟨idss, table₁, hslices, _⟩ := run_bind_eq_ok.mp hrun
    exact free_of_slices h hslices
  · exact (free_of_insertSlice (by rwa [List.append_nil]) hrun).1

/-- One by one, insertable events are inserted whatever their keys. -/
theorem exists_insertEvents {events : List BatchEvent} {table : OutboxTable .postgres}
    (h : Insertable client events table) :
    ∃ result, (events.mapM fun event => client.insertEvent event.1 event.2).run table =
      .ok result := by
  induction events generalizing table with
  | nil => exact ⟨([], table), rfl⟩
  | cons event events ih =>
    obtain ⟨values, hvalues, hkey⟩ := h.bound event List.mem_cons_self
    cases hconflict : table.conflict (values.row event.1.id event.1.now) with
    | none =>
      obtain ⟨table₁, hinsert⟩ := Table.exists_insert
        (r := values.row event.1.id event.1.now) (h.fresh event List.mem_cons_self) hconflict
      obtain ⟨result, hloop⟩ := ih (insertable_tail h hkey hinsert).1
      exact ⟨_, List.run_mapM_cons (OutboxyClient.insertEvent_postgres hvalues
        (PostgreSqlDialect.buildInsert_of_insert hconflict hinsert)) hloop⟩
    | some existing =>
      have htail : Insertable client events table :=
        ⟨fun e he => h.bound e (List.mem_cons_of_mem _ he),
          fun e he => h.fresh e (List.mem_cons_of_mem _ he), (List.nodup_cons.mp h.ids).2,
          h.keys.sublist ((List.sublist_cons_self _ _).filterMap _)⟩
      obtain ⟨result, hloop⟩ := ih htail
      exact ⟨_, List.run_mapM_cons (OutboxyClient.insertEvent_postgres hvalues
        (PostgreSqlDialect.buildInsert_of_conflict hconflict)) hloop⟩

/-! ## The two ways to publish -/

/-- A batch that `publishBatch` accepts, with new ids. -/
structure ValidBatch (client : OutboxyClient .postgres) (events : List (Stamp × PublishEventInput))
    (table : OutboxTable .postgres) : Prop where
  valid : ∀ event ∈ events, ∃ values, client.insertValues event.2 = .ok values
  keys : (events.filterMap fun event => event.2.idempotencyKey).Nodup
  ids : (events.map fun event => event.1.id).Nodup
  fresh : ∀ event ∈ events, table.lookup event.1.id = none

/-- The same event before and after the checks. -/
structure Checked (client : OutboxyClient .postgres) (event : Stamp × PublishEventInput)
    (validated : BatchEvent) : Prop where
  stamp : validated.1 = event.1
  key : validated.2.idempotencyKey = event.2.idempotencyKey
  bound : ∃ values, client.baseValues validated.2 = .ok values ∧
    values.idempotencyKey = validated.2.idempotencyKey
  publish : client.publish event.1 event.2 = client.insertEvent validated.1 validated.2

/-- The checks pass on valid events. -/
theorem exists_validateBatch {events : List (Stamp × PublishEventInput)}
    (hvalid : ∀ event ∈ events, ∃ values, client.insertValues event.2 = .ok values) (index : Nat) :
    ∃ validated, client.validateBatch index events = .ok validated ∧
      List.Forall₂ (Checked client) events validated := by
  induction events generalizing index with
  | nil => exact ⟨[], rfl, .nil⟩
  | cons event events ih =>
    obtain ⟨values, hvalues⟩ := hvalid event List.mem_cons_self
    obtain ⟨v, hv, hbound⟩ := OutboxyClient.validate_of_insertValues
      ("destinationUrl is required for event at index " ++ toString index) hvalues
    obtain ⟨validated, hvalidated, hchecked⟩ :=
      ih (fun e he => hvalid e (List.mem_cons_of_mem _ he)) (index + 1)
    have hkey := (OutboxyClient.key_of_insertValues hvalues).1
    have hvkey : v.idempotencyKey = event.2.idempotencyKey := by
      obtain ⟨_, _, _, _, _, _, rfl⟩ := OutboxyClient.validate_cases hv
      rfl
    refine ⟨(event.1, v) :: validated, ?_, .cons ?_ hchecked⟩
    · rw [OutboxyClient.validateBatch, hv, hvalidated]
      rfl
    · exact ⟨rfl, hvkey, ⟨values, hbound, hkey.trans hvkey.symm⟩,
        OutboxyClient.publish_eq_insertEvent hv event.1⟩

section Checked

variable {events : List (Stamp × PublishEventInput)} {validated : List BatchEvent}
  {table : OutboxTable .postgres}

theorem exists_of_mem_validated (h : List.Forall₂ (Checked client) events validated)
    {v : BatchEvent} (hv : v ∈ validated) : ∃ event ∈ events, Checked client event v := by
  induction h with
  | nil => exact absurd hv List.not_mem_nil
  | cons hchecked _ ih =>
    rcases List.mem_cons.mp hv with rfl | hv
    · exact ⟨_, List.mem_cons_self, hchecked⟩
    · obtain ⟨event, hevent, hcheck⟩ := ih hv
      exact ⟨event, List.mem_cons_of_mem _ hevent, hcheck⟩

theorem exists_validated_of_mem (h : List.Forall₂ (Checked client) events validated)
    {event : Stamp × PublishEventInput} (hevent : event ∈ events) :
    ∃ v ∈ validated, Checked client event v := by
  induction h with
  | nil => exact absurd hevent List.not_mem_nil
  | cons hchecked _ ih =>
    rcases List.mem_cons.mp hevent with rfl | hevent
    · exact ⟨_, List.mem_cons_self, hchecked⟩
    · obtain ⟨v, hv, hcheck⟩ := ih hevent
      exact ⟨v, List.mem_cons_of_mem _ hv, hcheck⟩

/-- The checks keep the ids and the keys. -/
theorem ids_keys_of_checked (h : List.Forall₂ (Checked client) events validated) :
    (validated.map fun v => v.1.id) = (events.map fun event => event.1.id) ∧
      (validated.filterMap fun v => v.2.idempotencyKey) =
        events.filterMap fun event => event.2.idempotencyKey := by
  induction h with
  | nil => exact ⟨rfl, rfl⟩
  | cons hchecked _ ih =>
    refine ⟨?_, ?_⟩
    · rw [List.map_cons, List.map_cons, ih.1, hchecked.stamp]
    · rw [List.filterMap_cons, List.filterMap_cons, ih.2, hchecked.key]

theorem insertable_of_checked (h : List.Forall₂ (Checked client) events validated)
    (hbatch : ValidBatch client events table) : Insertable client validated table := by
  obtain ⟨hids, hkeys⟩ := ids_keys_of_checked h
  refine ⟨fun v hv => ?_, fun v hv => ?_, hids ▸ hbatch.ids, hkeys ▸ hbatch.keys⟩
  · obtain ⟨event, _, hchecked⟩ := exists_of_mem_validated h hv
    exact hchecked.bound
  · obtain ⟨event, hevent, hchecked⟩ := exists_of_mem_validated h hv
    rw [hchecked.stamp]
    exact hbatch.fresh event hevent

/-- `publishBatch` of a valid batch gets to the inserts. -/
theorem publishBatch_eq_bulkInsert (hbatch : ValidBatch client events table) :
    ∃ validated, List.Forall₂ (Checked client) events validated ∧
      (client.publishBatch events).run table = (client.bulkInsert validated).run table := by
  obtain ⟨validated, hvalidated, hchecked⟩ := exists_validateBatch hbatch.valid 0
  refine ⟨validated, hchecked, ?_⟩
  unfold OutboxyClient.publishBatch
  split
  · rename_i hempty
    obtain rfl := List.isEmpty_iff.mp hempty
    cases hchecked
    rfl
  · have hkeys : ((validated.filterMap fun v => v.2.idempotencyKey).filter (· ≠ "")).Nodup := by
      rw [(ids_keys_of_checked hchecked).2]
      exact hbatch.keys.filter _
    rw [run_bind_ok (run_liftM hvalidated), if_pos hkeys]

end Checked

/-- A batch leaves the table, and answers, as one `publish` after the other
exactly when no live row holds a key of the batch. -/
theorem publishBatch_eq_publish_iff {events : List (Stamp × PublishEventInput)}
    {table : OutboxTable .postgres} (hbatch : ValidBatch client events table) :
    (client.publishBatch events).run table =
        (events.mapM fun event => client.publish event.1 event.2).run table ↔
      ∀ event ∈ events, ∀ key ∈ event.2.idempotencyKey, ∀ row ∈ table.rows, ¬ Live key row := by
  obtain ⟨validated, hchecked, hbulk⟩ := publishBatch_eq_bulkInsert hbatch
  have hinsertable := insertable_of_checked hchecked hbatch
  have hloop : (events.mapM fun event => client.publish event.1 event.2) =
      validated.mapM fun v => client.insertEvent v.1 v.2 :=
    List.mapM_eq_of_forall₂ (hchecked.imp fun _ _ h => h.publish)
  rw [hbulk, hloop]
  constructor
  · intro heq event hevent key hkey
    obtain ⟨⟨ids, table'⟩, hresult⟩ := exists_insertEvents hinsertable
    obtain ⟨v, hv, hcheck⟩ := exists_validated_of_mem hchecked hevent
    exact free_of_bulkInsert hinsertable (heq.trans hresult) v hv key (hcheck.key.trans hkey)
  · intro hfree
    have hfreeChecked : KeysFree validated table := fun v hv key hkey => by
      obtain ⟨event, hevent, hcheck⟩ := exists_of_mem_validated hchecked hv
      exact hfree event hevent key (hcheck.key.symm.trans hkey)
    obtain ⟨result, hresult, hresult'⟩ := bulkInsert_of_free hinsertable hfreeChecked
    rw [hresult, hresult']

/-- Two new keys. -/
theorem publishBatch_eq_publish_iff_of_new_keys :
    ((Sample.outboxyClient .postgres).publishBatch
        [(⟨Sample.id, 0⟩, Sample.keyed "order-1"),
          (⟨Sample.otherId, 0⟩, Sample.keyed "order-2")]).run Table.empty =
      ([(⟨Sample.id, 0⟩, Sample.keyed "order-1"),
        (⟨Sample.otherId, 0⟩, Sample.keyed "order-2")].mapM fun event : Stamp × PublishEventInput =>
          (Sample.outboxyClient .postgres).publish event.1 event.2).run Table.empty ↔
      ∀ event ∈ ([(⟨Sample.id, 0⟩, Sample.keyed "order-1"),
          (⟨Sample.otherId, 0⟩, Sample.keyed "order-2")] : List (Stamp × PublishEventInput)),
        ∀ key ∈ event.2.idempotencyKey,
          ∀ row ∈ (Table.empty : OutboxTable .postgres).rows, ¬ Live key row := by
  refine publishBatch_eq_publish_iff ⟨fun event hevent => ?_, by decide, by decide, fun _ _ => rfl⟩
  rcases List.mem_pair.mp hevent with rfl | rfl
  · exact ⟨Sample.keyedValues "order-1", rfl⟩
  · exact ⟨Sample.keyedValues "order-2", rfl⟩

/-- A batch with one key that a pending row holds: `publishBatch` throws, and
`publish` answers. -/
theorem publishBatch_ne_publish :
    ¬ ∀ (client : OutboxyClient .postgres) (events : List (Stamp × PublishEventInput))
        (table : OutboxTable .postgres), ValidBatch client events table →
        (client.publishBatch events).run table =
          (events.mapM fun event => client.publish event.1 event.2).run table := by
  intro h
  obtain ⟨table, hrows⟩ : ∃ table : OutboxTable .postgres,
      table.rows = [(Sample.keyedValues "order-1").row Sample.id 0] :=
    ⟨⟨[(Sample.keyedValues "order-1").row Sample.id 0], by simp, by decide⟩, rfl⟩
  have hbatch : ValidBatch (Sample.outboxyClient .postgres)
      [(⟨Sample.otherId, 0⟩, Sample.keyed "order-1")] table := by
    refine ⟨fun event hevent => ?_, by decide, by decide, fun event hevent => ?_⟩
    · obtain rfl := List.mem_singleton.mp hevent
      exact ⟨Sample.keyedValues "order-1", rfl⟩
    · obtain rfl := List.mem_singleton.mp hevent
      rw [Table.lookup_eq_none_iff, hrows]
      decide
  obtain ⟨validated, hchecked, hbulk⟩ := publishBatch_eq_bulkInsert hbatch
  obtain ⟨⟨ids, table'⟩, hloop⟩ := exists_insertEvents (insertable_of_checked hchecked hbatch)
  have heq := h _ _ table hbatch
  rw [hbulk, List.mapM_eq_of_forall₂ (hchecked.imp fun _ _ h => h.publish), hloop] at heq
  obtain ⟨v, hv, hcheck⟩ := exists_validated_of_mem hchecked (List.mem_singleton_self _)
  refine free_of_bulkInsert (insertable_of_checked hchecked hbatch) heq v hv "order-1" hcheck.key
    ((Sample.keyedValues "order-1").row Sample.id 0) ?_ ⟨rfl, by decide⟩
  rw [hrows]
  exact List.mem_singleton_self _

end Outboxy
