import Outboxy.Inbox.Repositories

/-!
# The ids that the inbox client returns

An id that `receive` or `receiveBatch` returns is meant for `markFailed`.  It
is real if it is the id of the stored row with the event's key; then
`markFailed` updates that row and no other (`marksOnly_of_mem`).

* On PostgreSQL every id comes from the table.
* On MySQL `receive` returns the UUID that it generated, also for a duplicate,
  and `receiveBatch` does so where it finds no row under the key.

`realIds_iff` says which ids are real.
-/

namespace Outboxy

variable {collate : String → String} {a : Adapter} {client : InboxyClient a}

/-- `markFailed` with the id updates the row with the key, and no other. -/
def MarksOnly (client : InboxyClient a) (table : InboxTable collate) (key : String)
    (id : EventId) : Prop :=
  ∀ error, ∃ table', (client.markFailed id error).run table = .ok ((), table') ∧
    table'.rows = table.rows.map fun row =>
      if row.idempotencyKey = key then
        { row with status := .failed, error := some (truncateError error) }
      else row

/-- The id of a result, if it has one, is that of the stored row with the
key. -/
def RealId (client : InboxyClient a) (table : InboxTable collate) (key : String)
    (result : InboxReceiveResult) : Prop :=
  ∀ id, result.eventId = some id →
    (∃ row ∈ table.rows, row.idempotencyKey = key ∧ row.id = id) ∧ MarksOnly client table key id

/-! ## A stored row -/

/-- The id and the key of a stored row select the same row. -/
theorem id_eq_iff_key_eq {table : InboxTable collate} {row row' : InboxEvent}
    (hrow : row ∈ table.rows) (hrow' : row' ∈ table.rows) :
    row'.id = row.id ↔ row'.idempotencyKey = row.idempotencyKey := by
  constructor
  · intro hid
    rw [List.inj_on_of_nodup_map table.pk_nodup hrow' hrow hid]
  · intro hkey
    rw [eq_of_collate_eq hrow' hrow (congrArg collate hkey)]

theorem marksOnly_of_mem {table : InboxTable collate} {row : InboxEvent}
    (hrow : row ∈ table.rows) : MarksOnly client table row.idempotencyKey row.id := by
  intro error
  obtain ⟨table', hupdate⟩ := Option.isSome_iff_exists.mp
    (Table.update_isSome (t := table) (u := buildMarkFailed row.id (truncateError error))
      fun _ _ _ => rfl)
  refine ⟨table', ?_, ?_⟩
  · simp [InboxyClient.markFailed, query, StateT.run, hupdate]
  · rw [Table.rows_update hupdate]
    refine List.map_congr_left fun other hother => ?_
    simp only [Update.apply, buildMarkFailed, decide_eq_true_iff, id_eq_iff_key_eq hrow hother]

theorem realId_iff {table : InboxTable collate} {key : String} {result : InboxReceiveResult} :
    RealId client table key result ↔ ∀ id, result.eventId = some id →
      ∃ row ∈ table.rows, row.idempotencyKey = key ∧ row.id = id := by
  constructor
  · exact fun h id hid => (h id hid).1
  · intro h id hid
    have hexists := h id hid
    obtain ⟨row, hrow, rfl, rfl⟩ := h id hid
    exact ⟨hexists, marksOnly_of_mem hrow⟩

/-! ## One event -/

/-- The id that an insert answers with is real on PostgreSQL, and elsewhere if
the row was stored. -/
theorem realId_insertResult_iff {table : InboxTable collate} {row : InboxEvent}
    (h : table.Fresh [row]) :
    RealId client (table.insertFree [row]) row.idempotencyKey (insertResult a table row) ↔
      a = .postgres ∨ table.conflict row = none := by
  have hnew := h.new row (List.mem_singleton_self _)
  rw [realId_iff]
  unfold insertResult
  cases hconflict : table.conflict row with
  | none =>
    obtain ⟨table', hinsert⟩ := Table.exists_insert hnew hconflict
    refine iff_of_true (fun id hid => ?_) (.inr rfl)
    obtain rfl : row.id = id := Option.some.inj hid
    rw [Table.insertFree_cons_of_insert hinsert]
    exact ⟨row, by show row ∈ table'.rows; rw [Table.rows_insert hinsert]; simp, rfl, rfl⟩
  | some held =>
    rw [Table.insertFree_cons_of_conflict hconflict]
    cases a with
    | postgres =>
      refine iff_of_true (fun id hid => ?_) (.inl rfl)
      exact absurd hid (Option.some_ne_none id).symm
    | mysql =>
      refine iff_of_false (fun hreal => ?_) (by simp)
      obtain ⟨other, hother, -, hid⟩ := hreal row.id rfl
      exact Table.lookup_eq_none_iff.mp hnew other hother hid

theorem conflict_eq_none_iff_collate {table : InboxTable collate} {row : InboxEvent} :
    table.conflict row = none ↔ collate row.idempotencyKey ∉ (storedKeys table).map collate := by
  rw [Table.conflict_eq_none_iff, storedKeys, List.map_map, List.mem_map, not_exists]
  constructor
  · rintro h held ⟨hheld, hsame⟩
    exact h held hheld _ rfl (congrArg some hsame.symm)
  · rintro h held hheld i hi hrow
    exact h held ⟨hheld, Option.some.inj (hi.trans hrow.symm)⟩

/-! ## A batch -/

/-- The id that a slice answers with is real on PostgreSQL, and elsewhere if it
was found in the table. -/
theorem realId_sliceResult_iff {table : InboxTable collate} {row : InboxEvent} :
    RealId client table row.idempotencyKey (sliceResult a table row) ↔
      a = .postgres ∨ ∃ id, foundId table row = some id := by
  rw [realId_iff]
  unfold sliceResult
  cases hfound : foundId table row with
  | some id =>
    refine iff_of_true (fun id' hid => ?_) (.inr ⟨id, rfl⟩)
    obtain rfl : id = id' := Option.some.inj hid
    exact foundId_eq_some_iff.mp hfound
  | none =>
    cases a with
    | postgres =>
      refine iff_of_true (fun id hid => ?_) (.inl rfl)
      exact absurd hid (Option.some_ne_none id).symm
    | mysql =>
      refine iff_of_false (fun hreal => ?_) (by simp)
      obtain ⟨other, hother, hkey, hid⟩ := hreal row.id rfl
      have hfound' := foundId_eq_some_iff.mpr ⟨other, hother, hkey, hid⟩
      rw [hfound] at hfound'
      cases hfound'

/-- What `validateBatch` accepts, `receive` accepts event by event. -/
theorem forall₂_of_validateBatch {index : Nat} {events : List (Stamp × InboxReceiveEventInput)}
    {validated : List (Stamp × ValidatedInboxEvent)}
    (h : client.validateBatch index events = .ok validated) :
    List.Forall₂ (fun event v => v.1 = event.1 ∧
      client.validate InboxyClient.missingIdempotencyKey event.2 = .ok v.2) events validated := by
  induction events generalizing index validated with
  | nil =>
    obtain rfl := Except.ok.inj h
    exact .nil
  | cons event events ih =>
    unfold InboxyClient.validateBatch at h
    obtain ⟨v, hv, h⟩ := bind_eq_ok.mp h
    obtain ⟨vs, hvs, h⟩ := bind_eq_ok.mp h
    obtain rfl := Except.ok.inj h
    exact .cons ⟨rfl, InboxyClient.validate_eq_ok hv⟩ (ih hvs)

theorem areRows_of_insertSlice {events : List (Stamp × ValidatedInboxEvent)}
    {table : InboxTable collate} {answer : List InboxReceiveResult × InboxTable collate}
    (h : (client.insertSlice events).run table = .ok answer) : ∃ rows, AreRows events rows := by
  unfold InboxyClient.insertSlice at h
  obtain ⟨rows, _, hrows, -⟩ := run_bind_eq_ok.mp h
  have hforall := List.mapM_eq_ok_iff.mp (eq_ok_of_run_liftM hrows)
  exact ⟨rows, hforall.imp fun _ _ => isRow_of_row⟩

theorem areRows_of_slices {n : Nat} {hn : 0 < n} {events : List (Stamp × ValidatedInboxEvent)}
    {table : InboxTable collate}
    {answer : List (List InboxReceiveResult) × InboxTable collate}
    (h : ((events.slices n hn).mapM client.insertSlice).run table = .ok answer) :
    ∃ rows, AreRows events rows := by
  induction events using List.slices.induct n hn generalizing table answer with
  | case1 => exact ⟨[], .nil⟩
  | case2 event events ih =>
    rw [List.slices] at h
    obtain ⟨result, table₁, results, hslice, hrest, -⟩ := List.run_mapM_cons_eq_ok h
    obtain ⟨rows, hrows⟩ := areRows_of_insertSlice hslice
    obtain ⟨rows', hrows'⟩ := ih hrest
    refine ⟨rows ++ rows', ?_⟩
    rw [← List.take_append_drop n (event :: events)]
    exact List.rel_append hrows hrows'

/-- A bulk insert that returns has serialized all of its events. -/
theorem areRows_of_bulkInsert {events : List (Stamp × ValidatedInboxEvent)}
    {table : InboxTable collate} {answer : List InboxReceiveResult × InboxTable collate}
    (h : (client.bulkInsert events).run table = .ok answer) : ∃ rows, AreRows events rows := by
  unfold InboxyClient.bulkInsert at h
  split at h
  · obtain ⟨results, table', hslices, -⟩ := run_bind_eq_ok.mp h
    exact areRows_of_slices hslices
  · exact areRows_of_insertSlice h

theorem rowOf_of_areRows {events : List (Stamp × InboxReceiveEventInput)}
    {validated : List (Stamp × ValidatedInboxEvent)} {rows : List InboxEvent}
    (hchecked : List.Forall₂ (fun event v => v.1 = event.1 ∧
      client.validate InboxyClient.missingIdempotencyKey event.2 = .ok v.2) events validated)
    (hrows : AreRows validated rows) : List.Forall₂ client.RowOf events rows := by
  induction hchecked generalizing rows with
  | nil =>
    cases hrows
    exact .nil
  | @cons event v _ _ hv _ ih =>
    cases hrows with
    | cons hrow hrows =>
      refine .cons ⟨v.2, hv.2, ?_⟩ (ih hrows)
      rw [← hv.1]
      exact hrow.built

/-- A batch that is accepted has valid events and different keys. -/
theorem exists_rows_of_receiveBatch {events : List (Stamp × InboxReceiveEventInput)}
    {table : InboxTable collate} {answer : List InboxReceiveResult × InboxTable collate}
    (h : (client.receiveBatch events).run table = .ok answer) :
    ∃ rows, List.Forall₂ client.RowOf events rows ∧
      (events.map fun event => event.2.idempotencyKey).Nodup := by
  unfold InboxyClient.receiveBatch at h
  split at h
  · rename_i hempty
    rw [List.isEmpty_iff.mp hempty]
    exact ⟨[], .nil, List.nodup_nil⟩
  · obtain ⟨validated, table', hvalidated, h⟩ := run_bind_eq_ok.mp h
    simp only at h
    split at h
    · rename_i hnodup
      obtain ⟨rows, hrows⟩ := areRows_of_bulkInsert h
      have hrowOf := rowOf_of_areRows
        (forall₂_of_validateBatch (eq_ok_of_run_liftM hvalidated)) hrows
      exact ⟨rows, hrowOf, keys_of_rowOf hrowOf ▸ keys_of_areRows hrows ▸ hnodup⟩
    · exact absurd (show Except.error _ = Except.ok answer from h) (by simp)

/-! ## Which ids are real -/

/-- The ids that the inbox client returns are real on PostgreSQL.  On MySQL
those of `receive` are real unless the key is a duplicate, and those of
`receiveBatch` unless a key meets another text in its slot. -/
theorem realIds_iff (client : InboxyClient a) (table : InboxTable collate) :
    (∀ stamp event result table', table.lookup stamp.id = none →
      (client.receive stamp event).run table = .ok (result, table') →
      (RealId client table' event.idempotencyKey result ↔
        a = .postgres ∨
          collate event.idempotencyKey ∉ (storedKeys table).map collate)) ∧
    (∀ events results table', NewIds events table →
      (client.receiveBatch events).run table = .ok (results, table') →
      (List.Forall₂ (fun event => RealId client table' event.2.idempotencyKey) events results ↔
        a = .postgres ∨
          OneText collate (storedKeys table)
            (events.map fun event => event.2.idempotencyKey))) := by
  constructor
  · intro stamp event result table' hfresh hrun
    obtain ⟨row, hrow⟩ := exists_rowOf_of_receive hrun
    obtain ⟨hid, hkey⟩ := hrow.id_key
    have hnew : table.Fresh [row] :=
      ⟨fun r hr => by rw [List.mem_singleton.mp hr, hid]; exact hfresh, List.nodup_singleton _⟩
    have hanswer := (run_receive_of_rowOf hrow hnew).symm.trans hrun
    obtain ⟨rfl, rfl⟩ := Prod.mk.inj (Except.ok.inj hanswer)
    rw [← hkey, realId_insertResult_iff hnew, conflict_eq_none_iff_collate]
  · intro events results table' hids hrun
    obtain ⟨rows, hrows, hnodup⟩ := exists_rows_of_receiveBatch hrun
    have hreceivable := receivable_of_rows hrows hnodup hids
    have hanswer := (receiveBatch_of_receivable hrows hnodup hreceivable).symm.trans hrun
    obtain ⟨rfl, rfl⟩ := Prod.mk.inj (Except.ok.inj hanswer)
    have hone : ∀ event row, client.RowOf event row → row ∈ rows →
        (RealId client (table.insertFree rows) event.2.idempotencyKey
            (sliceResult a (table.insertFree rows) row) ↔
          a = .postgres ∨ ∃ id, foundId (table.insertFree rows) row = some id) := by
      intro event row hrow _
      rw [← hrow.id_key.2]
      exact realId_sliceResult_iff
    rw [List.forall₂_map_right_iff, List.forall₂_iff_forall hrows hone, ← keys_of_rowOf hrows,
      ← forall_found_iff hreceivable.fresh]
    by_cases ha : a = .postgres
    · exact iff_of_true (fun _ _ => .inl ha) (.inl ha)
    · simp only [ha, false_or]

/-- A first delivery on MySQL, alone and in a batch. -/
theorem realIds_first_delivery :
    (∃ result table',
      ((Sample.inboxyClient .mysql).receive ⟨"1", 0⟩ (Sample.received "order-1")).run
        (Table.empty : InboxTable Adapter.mysql.collate) = .ok (result, table') ∧
      RealId (Sample.inboxyClient .mysql) table' "order-1" result) ∧
    ∃ results table',
      ((Sample.inboxyClient .mysql).receiveBatch [(⟨"1", 0⟩, Sample.received "order-1")]).run
        (Table.empty : InboxTable Adapter.mysql.collate) = .ok (results, table') ∧
      List.Forall₂ (fun event => RealId (Sample.inboxyClient .mysql) table'
        event.2.idempotencyKey)
        [((⟨"1", 0⟩ : Stamp), Sample.received "order-1")] results := by
  have hids : NewIds [((⟨"1", 0⟩ : Stamp), Sample.received "order-1")]
      (Table.empty : InboxTable Adapter.mysql.collate) := ⟨by decide, fun _ _ => rfl⟩
  obtain ⟨result, table', hreceive⟩ : ∃ result table',
      ((Sample.inboxyClient .mysql).receive ⟨"1", 0⟩ (Sample.received "order-1")).run
        (Table.empty : InboxTable Adapter.mysql.collate) = .ok (result, table') := ⟨_, _, rfl⟩
  obtain ⟨results, table'', hbatch⟩ : ∃ results table'',
      ((Sample.inboxyClient .mysql).receiveBatch [(⟨"1", 0⟩, Sample.received "order-1")]).run
        (Table.empty : InboxTable Adapter.mysql.collate) = .ok (results, table'') := ⟨_, _, rfl⟩
  exact ⟨⟨result, table', hreceive,
      ((realIds_iff _ _).1 _ _ _ _ rfl hreceive).mpr (.inr (by decide))⟩,
    ⟨results, table'', hbatch, ((realIds_iff _ _).2 _ _ _ hids hbatch).mpr (.inr (by decide))⟩⟩

/-- On MySQL a second delivery answers with the id of no row. -/
theorem not_realId_second_delivery :
    ∃ first table,
      ((Sample.inboxyClient .mysql).receive ⟨"1", 0⟩ (Sample.received "order-1")).run
        (Table.empty : InboxTable Adapter.mysql.collate) = .ok (first, table) ∧
      ((Sample.inboxyClient .mysql).receive ⟨"2", 0⟩ (Sample.received "order-1")).run table =
        .ok (⟨some "2", .duplicate⟩, table) ∧
      ¬RealId (Sample.inboxyClient .mysql) table "order-1" ⟨some "2", .duplicate⟩ := by
  refine ⟨_, _, rfl, rfl, fun hreal => ?_⟩
  obtain ⟨row, hrow, -, hid⟩ := (hreal "2" rfl).1
  obtain rfl := List.mem_singleton.mp hrow
  exact absurd hid (by decide)

end Outboxy
