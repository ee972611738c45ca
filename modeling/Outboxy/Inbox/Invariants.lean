import Outboxy.Inbox.Steps

/-!
# Invariants of the inbox

* An open transaction keeps the rows that it has inserted: no other
  transaction and no cleanup takes them away (`keeps_of_change`).
* An answer `processed` of an open transaction stands for such a row, and no
  key has two of them (`TransactionInv`).
* What a step makes of a committed row (`committed_of_change`): it may be
  marked as failed, and only a cleanup at which it is expired deletes it.
-/

namespace Outboxy.Inbox

variable {s s' : State} {tx : TransactionId} {t : Transaction} {a : Action}

/-! ## Owners -/

theorem uncommitted_iff {row : InboxEvent} :
    s.uncommitted row = true ↔ ∃ tx, (tx, row.id) ∈ s.inserted := by
  unfold State.uncommitted
  rw [List.any_eq_true]
  constructor
  · intro h
    obtain ⟨⟨tx, id⟩, hentry, hid⟩ := h
    obtain rfl : id = row.id := by simpa using hid
    exact ⟨tx, hentry⟩
  · intro h
    obtain ⟨tx, hentry⟩ := h
    exact ⟨_, hentry, by simp⟩

theorem hidden_iff {row : InboxEvent} :
    s.hidden tx row = true ↔ ∃ tx', tx' ≠ tx ∧ (tx', row.id) ∈ s.inserted := by
  unfold State.hidden
  rw [List.any_eq_true]
  constructor
  · intro h
    obtain ⟨⟨tx', id⟩, hentry, hid⟩ := h
    obtain ⟨rfl, hne⟩ : id = row.id ∧ tx' ≠ tx := by simpa using hid
    exact ⟨tx', hne, hentry⟩
  · intro h
    obtain ⟨tx', hne, hentry⟩ := h
    exact ⟨_, hentry, by simpa using hne⟩

theorem owns_iff {row : InboxEvent} : s.owns tx row = true ↔ (tx, row.id) ∈ s.inserted := by
  unfold State.owns
  rw [List.any_eq_true]
  constructor
  · intro h
    obtain ⟨⟨tx', id⟩, hentry, hid⟩ := h
    obtain ⟨rfl, rfl⟩ : id = row.id ∧ tx' = tx := by simpa using hid
    exact hentry
  · intro h
    exact ⟨_, h, by simp⟩

theorem mem_store_inserted {table : InboxTable Adapter.postgres.collate} {ids : List EventId}
    {entry : TransactionId × EventId} :
    entry ∈ (s.store tx table ids).inserted ↔
      (entry.1 = tx ∧ entry.2 ∈ ids ∧ (table.lookup entry.2).isSome) ∨ entry ∈ s.inserted := by
  obtain ⟨tx', id⟩ := entry
  unfold State.store
  simp only [List.mem_append, List.mem_map, List.mem_filter, Prod.mk.injEq]
  refine or_congr_left ⟨?_, ?_⟩
  · intro h
    obtain ⟨_, ⟨hid, hstored⟩, rfl, rfl⟩ := h
    exact ⟨rfl, hid, hstored⟩
  · intro h
    obtain ⟨rfl, hid, hstored⟩ := h
    exact ⟨id, ⟨hid, hstored⟩, rfl, rfl⟩

theorem mem_finish_inserted {table : InboxTable Adapter.postgres.collate}
    {entry : TransactionId × EventId} :
    entry ∈ (s.finish tx table).inserted ↔ entry ∈ s.inserted ∧ entry.1 ≠ tx := by
  unfold State.finish
  simp [List.mem_filter]

/-! ## Marks -/

/-- Marking rows keeps their keys, and leaves them failed or as they were. -/
structure MarkedRow (row row' : InboxEvent) : Prop where
  idempotencyKey : row'.idempotencyKey = row.idempotencyKey
  status : row'.status = row.status ∨ row'.status = .failed

theorem markedRow_refl (row : InboxEvent) : MarkedRow row row := ⟨rfl, .inl rfl⟩

theorem MarkedRow.trans {row row' row'' : InboxEvent} (h : MarkedRow row row')
    (h' : MarkedRow row' row'') : MarkedRow row row'' := by
  refine ⟨h'.idempotencyKey.trans h.idempotencyKey, ?_⟩
  rcases h'.status with hsame | hfailed
  · rw [hsame]
    exact h.status
  · exact .inr hfailed

theorem markedRow_buildMarkFailed (id : EventId) (error : String) (row : InboxEvent) :
    MarkedRow row ((buildMarkFailed id error).apply row) := by
  unfold Update.apply
  split
  · exact ⟨rfl, .inr rfl⟩
  · exact markedRow_refl row

/-- The statements of a list of marks, on the row with one id. -/
theorem lookup_foldlM_marks {marks : List (TransactionId × EventId × String)}
    {table table' : InboxTable Adapter.postgres.collate} {id : EventId}
    (h : marks.foldlM (fun table mark => table.update (buildMarkFailed mark.2.1 mark.2.2)) table =
      some table') :
    (∀ row, table.lookup id = some row → ∃ row', table'.lookup id = some row' ∧ MarkedRow row row' ∧
      ((∃ mark ∈ marks, mark.2.1 = id) → row'.status = .failed)) ∧
      (table.lookup id = none → table'.lookup id = none) := by
  induction marks generalizing table with
  | nil =>
    obtain rfl := Option.some.inj h
    exact ⟨fun row hrow => ⟨row, hrow, markedRow_refl row, by simp⟩, fun hnone => hnone⟩
  | cons mark marks ih =>
    rw [List.foldlM_cons] at h
    obtain ⟨table₁, hupdate, h⟩ := Option.bind_eq_some_iff.mp h
    obtain ⟨hsome, hnone⟩ := ih h
    have hlookup := Table.lookup_update hupdate id
    refine ⟨fun row hrow => ?_, fun hmissing => hnone ?_⟩
    · rw [hrow, Option.map_some] at hlookup
      obtain ⟨row', hrow', hmarked, hfailed⟩ := hsome _ hlookup
      refine ⟨row', hrow', (markedRow_buildMarkFailed _ _ row).trans hmarked, fun hmark => ?_⟩
      obtain ⟨m, hm, hid⟩ := hmark
      rcases List.mem_cons.mp hm with rfl | hm
      · -- Failed by the first mark, and never anything else again.
        have hguard : (buildMarkFailed m.2.1 m.2.2).guard row = true := by
          simpa [buildMarkFailed, hid] using Table.pk_of_lookup hrow
        have hfirst : ((buildMarkFailed m.2.1 m.2.2).apply row).status = .failed := by
          rw [Update.apply_of_guard hguard]
          rfl
        rcases hmarked.status with hsame | hstatus
        · exact hsame.trans hfirst
        · exact hstatus
      · exact hfailed ⟨m, hm, hid⟩
    · rw [hlookup, hmissing]
      rfl

theorem lookup_applyMarks {marks : List (TransactionId × EventId × String)}
    {table table' : InboxTable Adapter.postgres.collate} {id : EventId} {row : InboxEvent}
    (h : State.applyMarks marks tx table = some table') (hrow : table.lookup id = some row) :
    ∃ row', table'.lookup id = some row' ∧ MarkedRow row row' ∧
      ∀ error, (tx, id, error) ∈ marks → row'.status = .failed := by
  obtain ⟨row', hrow', hmarked, hfailed⟩ := (lookup_foldlM_marks h).1 row hrow
  refine ⟨row', hrow', hmarked, fun error hmark =>
    hfailed ⟨_, List.mem_filter.mpr ⟨hmark, ?_⟩, rfl⟩⟩
  simp

theorem lookup_of_applyMarks {marks : List (TransactionId × EventId × String)}
    {table table' : InboxTable Adapter.postgres.collate} {id : EventId} {row' : InboxEvent}
    (h : State.applyMarks marks tx table = some table') (hrow' : table'.lookup id = some row') :
    ∃ row, table.lookup id = some row ∧ MarkedRow row row' := by
  cases hrow : table.lookup id with
  | none =>
    rw [(lookup_foldlM_marks h).2 hrow] at hrow'
    exact absurd hrow' (by simp)
  | some row =>
    obtain ⟨row'', hrow'', hmarked, _⟩ := lookup_applyMarks h hrow
    obtain rfl := Option.some.inj (hrow'.symm.trans hrow'')
    exact ⟨row, rfl, hmarked⟩

/-! ## The invariant -/

/-- What the calls of an open transaction have found out. -/
structure TransactionInv (s : State) (tx : TransactionId) (t : Transaction) : Prop where
  stored : ∀ answer ∈ t.given, answer.2.status = .processed →
    ∃ row, answer.2.eventId = some row.id ∧ row.idempotencyKey = answer.1 ∧
      s.table.lookup row.id = some row ∧ (tx, row.id) ∈ s.inserted
  once : t.given.Pairwise fun answer answer' =>
    answer.1 = answer'.1 → answer.2.status = .processed → answer'.2.status ≠ .processed
  inserting : ∀ chunks results, t.call = .inserting chunks results →
    ∀ chunk ∈ chunks, DistinctKeys chunk
  finding : ∀ chunk chunks insertedIds results, t.call = .finding chunk chunks insertedIds results →
    (∀ c ∈ chunk :: chunks, DistinctKeys c) ∧ ∀ id ∈ insertedIds, (tx, id) ∈ s.inserted ∧
      ∀ answer ∈ t.given, answer.2.status = .processed → answer.2.eventId ≠ some id

structure Inv (s : State) : Prop where
  isOpen : ∀ entry ∈ s.inserted, (s.transactions entry.1).isSome
  stored : ∀ entry ∈ s.inserted, (s.table.lookup entry.2).isSome
  owner : ∀ entry ∈ s.inserted, ∀ entry' ∈ s.inserted, entry.2 = entry'.2 → entry.1 = entry'.1
  marks : ∀ mark ∈ s.marks, (s.transactions mark.1).isSome ∧ (s.table.lookup mark.2.1).isSome ∧
    ∀ entry ∈ s.inserted, entry.2 = mark.2.1 → entry.1 = mark.1
  transactions : ∀ tx t, s.transactions tx = some t → TransactionInv s tx t

/-- A new id belongs to no transaction. -/
theorem Inv.not_mem_inserted (h : Inv s) {id : EventId} (hfresh : s.table.lookup id = none)
    (tx : TransactionId) : (tx, id) ∉ s.inserted := by
  intro hentry
  have hstored := h.stored _ hentry
  rw [hfresh] at hstored
  exact absurd hstored (by simp)

/-- The rows that a transaction has inserted are still there. -/
def Keeps (s s' : State) (tx : TransactionId) : Prop :=
  ∀ id, (tx, id) ∈ s.inserted → (tx, id) ∈ s'.inserted ∧
    ∀ row, s.table.lookup id = some row →
      ∃ row', s'.table.lookup id = some row' ∧ row'.idempotencyKey = row.idempotencyKey

theorem keeps_refl (s : State) (tx : TransactionId) : Keeps s s tx :=
  fun _ hentry => ⟨hentry, fun row hrow => ⟨row, hrow, rfl⟩⟩

theorem keeps_store (s : State) (tx : TransactionId) (rows : List InboxEvent)
    (ids : List EventId) (tx' : TransactionId) :
    Keeps s (s.store tx (s.table.insertFree rows) ids) tx' :=
  fun _ hentry => ⟨mem_store_inserted.mpr (.inr hentry),
    fun row hrow => ⟨row, Table.lookup_insertFree_of_some hrow rows, rfl⟩⟩

/-- Only the end of a transaction takes its rows away. -/
theorem keeps_of_change (h : Change s a s') (hinv : Inv s) {tx' : TransactionId}
    (hcommit : a ≠ .commit tx') (hrollback : a ≠ .rollback tx') : Keeps s s' tx' := by
  cases h with
  | unchanged => exact keeps_refl s tx'
  | ticked => exact keeps_refl s tx'
  | began => exact keeps_refl s tx'
  | called => exact keeps_refl s tx'
  | foundChunk => exact keeps_refl s tx'
  | marked => exact keeps_refl s tx'
  | received => exact keeps_store s _ _ _ tx'
  | insertedChunk => exact keeps_store s _ _ _ tx'
  | committed tx t table _ _ htable =>
    intro id hentry
    have hne : tx' ≠ tx := fun heq => hcommit (by rw [heq])
    refine ⟨mem_finish_inserted.mpr ⟨hentry, hne⟩, fun row hrow => ?_⟩
    obtain ⟨row', hrow', hmarked, _⟩ := lookup_applyMarks htable hrow
    exact ⟨row', hrow', hmarked.idempotencyKey⟩
  | rolledBack tx t _ =>
    intro id hentry
    have hne : tx' ≠ tx := fun heq => hrollback (by rw [heq])
    refine ⟨mem_finish_inserted.mpr ⟨hentry, hne⟩, fun row hrow => ⟨row, ?_, rfl⟩⟩
    refine Table.lookup_delete_of_some hrow ?_
    rw [Bool.eq_false_iff, Ne, owns_iff]
    intro howns
    exact hne (hinv.owner _ hentry _ howns (Table.pk_of_lookup hrow).symm)
  | cleaned retentionDays =>
    intro id hentry
    refine ⟨hentry, fun row hrow => ⟨row, ?_, rfl⟩⟩
    refine Table.lookup_delete_of_some hrow ?_
    have huncommitted : s.uncommitted row = true :=
      uncommitted_iff.mpr ⟨tx', by rw [Table.pk_of_lookup hrow]; exact hentry⟩
    simp [State.expired, huncommitted]

theorem TransactionInv.transfer (h : TransactionInv s tx t) (hkeeps : Keeps s s' tx) :
    TransactionInv s' tx t := by
  refine ⟨fun answer hanswer hstatus => ?_, h.once, h.inserting,
    fun chunk chunks ids results hcall => ⟨(h.finding _ _ _ _ hcall).1, fun id hid => ?_⟩⟩
  · obtain ⟨row, heventId, hkey, hrow, hentry⟩ := h.stored answer hanswer hstatus
    obtain ⟨hentry', hlookup⟩ := hkeeps _ hentry
    obtain ⟨row', hrow', hkey'⟩ := hlookup row hrow
    have hid := Table.pk_of_lookup hrow'
    exact ⟨row', heventId.trans (congrArg some hid.symm), hkey'.trans hkey, hid ▸ hrow',
      hid ▸ hentry'⟩
  · obtain ⟨hentry, hnew⟩ := (h.finding _ _ _ _ hcall).2 id hid
    exact ⟨(hkeeps id hentry).1, hnew⟩

/-! ### The answers of a chunk -/

/-- A chunk answers `processed` for a row that the transaction sees under the
key, and that the chunk has inserted. -/
theorem exists_row_of_chunkAnswers {chunk : List (Stamp × ValidatedInboxEvent)}
    {insertedIds : List EventId} {answer : Answer}
    (hanswer : answer ∈ s.chunkAnswers tx chunk insertedIds)
    (hstatus : answer.2.status = .processed) :
    ∃ row ∈ (s.view tx).rows, row.idempotencyKey = answer.1 ∧ answer.2.eventId = some row.id ∧
      row.id ∈ insertedIds := by
  obtain ⟨event, hevent, rfl⟩ := List.mem_map.mp hanswer
  change (InboxyClient.batchResult .postgres insertedIds
    (keyToId (chunk.map fun event => event.2.idempotencyKey) (s.view tx)) event.1 event.2).status =
      .processed at hstatus
  show ∃ row ∈ (s.view tx).rows, row.idempotencyKey = event.2.idempotencyKey ∧
    (InboxyClient.batchResult .postgres insertedIds
      (keyToId (chunk.map fun event => event.2.idempotencyKey) (s.view tx)) event.1
        event.2).eventId = some row.id ∧ row.id ∈ insertedIds
  have hkey : event.2.idempotencyKey ∈ chunk.map fun event => event.2.idempotencyKey :=
    List.mem_map.mpr ⟨event, hevent, rfl⟩
  unfold InboxyClient.batchResult at hstatus ⊢
  cases hfound : (keyToId (chunk.map fun event => event.2.idempotencyKey) (s.view tx)).get?
      (some event.2.idempotencyKey) with
  | none =>
    rw [hfound] at hstatus
    exact absurd hstatus (by simp [Adapter.supportsReturning])
  | some id =>
    rw [hfound] at hstatus
    by_cases hid : id ∈ insertedIds
    · obtain ⟨row, hrow, hrowKey, rfl⟩ := exists_of_get?_keyToId hkey hfound
      exact ⟨row, hrow, hrowKey, rfl, hid⟩
    · exact absurd hstatus (by simp [Adapter.supportsReturning, hid])

theorem map_fst_chunkAnswers (s : State) (tx : TransactionId)
    (chunk : List (Stamp × ValidatedInboxEvent)) (insertedIds : List EventId) :
    (s.chunkAnswers tx chunk insertedIds).map Prod.fst =
      chunk.map fun event => event.2.idempotencyKey := by
  unfold State.chunkAnswers
  rw [List.map_map]
  rfl

/-! ### One transaction -/

/-- Two rows with one key are one row. -/
theorem eq_of_key_eq {table : InboxTable Adapter.postgres.collate} {row row' : InboxEvent}
    (hrow : row ∈ table.rows) (hrow' : row' ∈ table.rows)
    (hkey : row.idempotencyKey = row'.idempotencyKey) : row = row' :=
  Table.eq_of_ix_eq (i := row'.idempotencyKey) hrow hrow' (congrArg some hkey) rfl

theorem insertResult_processed {table : InboxTable Adapter.postgres.collate} {row : InboxEvent}
    (h : (insertResult .postgres table row).status = .processed) :
    table.conflict row = none ∧ (insertResult .postgres table row).eventId = some row.id := by
  unfold insertResult at h ⊢
  cases hconflict : table.conflict row with
  | none => exact ⟨rfl, rfl⟩
  | some held =>
    rw [hconflict] at h
    exact absurd h (by simp)

namespace TransactionInv

/-- `receive` answers `processed` only for a key that no answer stands for. -/
theorem received {row : InboxEvent} (h : TransactionInv s tx t) (hcall : t.call = .none)
    (hfresh : s.table.Fresh [row]) :
    TransactionInv (s.store tx (s.table.insertFree [row]) [row.id]) tx
      { t with answers := t.answers ++
          [(row.idempotencyKey, insertResult .postgres s.table row)] } := by
  have hkeeps := h.transfer (keeps_store s tx [row] [row.id] tx)
  have hgiven : ({ t with answers := t.answers ++
        [(row.idempotencyKey, insertResult .postgres s.table row)] } : Transaction).given =
      t.given ++ [(row.idempotencyKey, insertResult .postgres s.table row)] := by
    simp [Transaction.given, hcall, BatchCall.results]
  refine ⟨?_, ?_, fun chunks results hcall' => ?_, fun _ _ _ _ hcall' => ?_⟩
  · rw [hgiven]
    intro answer hanswer hstatus
    rcases List.mem_append.mp hanswer with hold | hnew
    · exact hkeeps.stored answer hold hstatus
    · obtain rfl := List.mem_singleton.mp hnew
      obtain ⟨hconflict, heventId⟩ := insertResult_processed hstatus
      have hstored := hfresh.lookup_head
      rw [hconflict] at hstored
      obtain ⟨r, hr⟩ := Option.isSome_iff_exists.mp hstored
      obtain rfl := hfresh.eq_of_lookup (List.mem_singleton_self _) hr
      exact ⟨r, heventId, rfl, hr, mem_store_inserted.mpr (.inl ⟨rfl, by simp, hstored⟩)⟩
  · rw [hgiven, List.pairwise_append]
    refine ⟨h.once, List.pairwise_singleton _ _,
      fun answer hanswer answer' hanswer' hkey hold => ?_⟩
    obtain rfl := List.mem_singleton.mp hanswer'
    intro hnew
    obtain ⟨held, _, hheldKey, hheld, _⟩ := h.stored answer hanswer hold
    have hfree := Table.conflict_eq_none_iff.mp (insertResult_processed hnew).1
    exact hfree held (Table.mem_of_lookup hheld) _ rfl (congrArg some (hheldKey.trans hkey).symm)
  · change t.call = _ at hcall'
    rw [hcall] at hcall'
    exact absurd hcall' (by simp)
  · change t.call = _ at hcall'
    rw [hcall] at hcall'
    exact absurd hcall' (by simp)

/-- The `INSERT` of a chunk changes no answer. -/
theorem insertedChunk {chunk : List (Stamp × ValidatedInboxEvent)}
    {chunks : List (List (Stamp × ValidatedInboxEvent))} {results : List Answer}
    {rows : List InboxEvent} {insertedIds : List EventId} (h : TransactionInv s tx t)
    (hcall : t.call = .inserting (chunk :: chunks) results) (hfresh : s.table.Fresh rows)
    (hreturned : Returned rows (s.table.insertFree rows) insertedIds) :
    TransactionInv (s.store tx (s.table.insertFree rows) (rows.map InboxEvent.id)) tx
      { t with call := .finding chunk chunks insertedIds results } := by
  have hkeeps := h.transfer (keeps_store s tx rows (rows.map InboxEvent.id) tx)
  have hgiven : ({ t with call := .finding chunk chunks insertedIds results } : Transaction).given =
      t.given := by
    simp [Transaction.given, hcall, BatchCall.results]
  refine ⟨hgiven ▸ hkeeps.stored, hgiven ▸ h.once, fun _ _ hcall' => absurd hcall' (by simp),
    fun chunk' chunks' ids' results' hcall' => ?_⟩
  obtain ⟨rfl, rfl, rfl, rfl⟩ := BatchCall.finding.inj hcall'
  refine ⟨h.inserting _ _ hcall, fun id hid => ?_⟩
  obtain ⟨row, hrow, rfl, hstored⟩ := (hreturned id).mp hid
  refine ⟨mem_store_inserted.mpr (.inl ⟨rfl, List.mem_map_of_mem hrow, hstored⟩), ?_⟩
  rw [hgiven]
  intro answer hanswer hstatus heventId
  obtain ⟨held, hheldId, _, hheld, _⟩ := h.stored answer hanswer hstatus
  obtain hsame : held.id = row.id := Option.some.inj (hheldId.symm.trans heventId)
  rw [hsame, hfresh.new row hrow] at hheld
  exact absurd hheld (by simp)

/-- The `SELECT` after it answers `processed` for the rows that it has
inserted. -/
theorem foundChunk {t' : Transaction} {chunk : List (Stamp × ValidatedInboxEvent)}
    {chunks : List (List (Stamp × ValidatedInboxEvent))} {results : List Answer}
    {insertedIds : List EventId} (h : TransactionInv s tx t)
    (hcall : t.call = .finding chunk chunks insertedIds results)
    (hgiven : t'.given = t.given ++ s.chunkAnswers tx chunk insertedIds)
    (hcall' : t'.call = .none ∨ ∃ results', t'.call = .inserting chunks results') :
    TransactionInv s tx t' := by
  obtain ⟨hkeys, hinserted⟩ := h.finding _ _ _ _ hcall
  refine ⟨?_, ?_, fun chunks' results' hinserting => ?_, fun _ _ _ _ hfinding => ?_⟩
  · rw [hgiven]
    intro answer hanswer hstatus
    rcases List.mem_append.mp hanswer with hold | hnew
    · exact h.stored answer hold hstatus
    · obtain ⟨row, hrow, hkey, heventId, hid⟩ := exists_row_of_chunkAnswers hnew hstatus
      exact ⟨row, heventId, hkey, Table.lookup_of_mem (Table.mem_delete.mp hrow).1,
        (hinserted _ hid).1⟩
  · rw [hgiven, List.pairwise_append]
    refine ⟨h.once, ?_, fun answer hanswer answer' hanswer' hkey hold hnew => ?_⟩
    · have hdistinct : ((s.chunkAnswers tx chunk insertedIds).map Prod.fst).Nodup :=
        map_fst_chunkAnswers s tx chunk insertedIds ▸ hkeys chunk List.mem_cons_self
      exact (List.pairwise_map.mp hdistinct).imp fun hne heq => absurd heq hne
    · obtain ⟨held, hheldId, hheldKey, hheld, _⟩ := h.stored answer hanswer hold
      obtain ⟨row, hrow, hrowKey, _, hid⟩ := exists_row_of_chunkAnswers hanswer' hnew
      obtain rfl := eq_of_key_eq (Table.mem_of_lookup hheld) (Table.mem_delete.mp hrow).1
        (hheldKey.trans (hkey.trans hrowKey.symm))
      exact (hinserted _ hid).2 answer hanswer hold hheldId
  · rcases hcall' with hnone | ⟨results'', hnext⟩
    · rw [hnone] at hinserting
      exact absurd hinserting (by simp)
    · rw [hnext] at hinserting
      obtain ⟨rfl, rfl⟩ := BatchCall.inserting.inj hinserting
      exact fun c hc => hkeys c (List.mem_cons_of_mem _ hc)
  · rcases hcall' with hnone | ⟨results'', hnext⟩
    · rw [hnone] at hfinding
      exact absurd hfinding (by simp)
    · rw [hnext] at hfinding
      exact absurd hfinding (by simp)

/-- A call starts with no results, and its results are lost when it throws. -/
theorem called {call : BatchCall} (h : TransactionInv s tx t)
    (hcall : call = .none ∨ ∃ chunks, call = .inserting chunks [] ∧ ∀ chunk ∈ chunks,
      DistinctKeys chunk) :
    TransactionInv s tx { t with call := call } := by
  have hgiven : ({ t with call := call } : Transaction).given = t.answers := by
    rcases hcall with rfl | ⟨chunks, rfl, _⟩
    · exact List.append_nil _
    · exact List.append_nil _
  have hsublist : t.answers.Sublist t.given := List.sublist_append_left _ _
  refine ⟨?_, ?_, fun chunks' results' hinserting => ?_, fun _ _ _ _ hfinding => ?_⟩
  · rw [hgiven]
    exact fun answer hanswer => h.stored answer (hsublist.subset hanswer)
  · rw [hgiven]
    exact h.once.sublist hsublist
  · rcases hcall with rfl | ⟨chunks, rfl, hkeys⟩
    · exact absurd hinserting (by simp)
    · obtain ⟨rfl, rfl⟩ := BatchCall.inserting.inj hinserting
      exact hkeys
  · rcases hcall with rfl | ⟨chunks, rfl, _⟩
    · exact absurd hfinding (by simp)
    · exact absurd hfinding (by simp)

end TransactionInv

/-! ### Every step -/

theorem inv_setTransaction {t' : Transaction} (h : Inv s) (ht' : TransactionInv s tx t') :
    Inv (s.setTransaction tx (some t')) := by
  have hopen : ∀ tx', (s.transactions tx').isSome →
      ((s.setTransaction tx (some t')).transactions tx').isSome := by
    intro tx' hsome
    by_cases heq : tx' = tx
    · rw [heq, State.setTransaction_self]
      rfl
    · rwa [State.setTransaction_of_ne s heq]
  refine ⟨fun entry hentry => hopen _ (h.isOpen entry hentry), h.stored, h.owner,
    fun mark hmark => ⟨hopen _ (h.marks mark hmark).1, (h.marks mark hmark).2⟩,
    fun tx' t'' hsome => ?_⟩
  by_cases heq : tx' = tx
  · subst heq
    rw [State.setTransaction_self] at hsome
    obtain rfl := Option.some.inj hsome
    exact ⟨ht'.stored, ht'.once, ht'.inserting, ht'.finding⟩
  · rw [State.setTransaction_of_ne s heq] at hsome
    have hother := h.transactions tx' t'' hsome
    exact ⟨hother.stored, hother.once, hother.inserting, hother.finding⟩

theorem inv_store {rows : List InboxEvent} (h : Inv s) (ht : s.transactions tx = some t)
    (hfresh : s.table.Fresh rows) :
    Inv (s.store tx (s.table.insertFree rows) (rows.map InboxEvent.id)) := by
  have hnew : ∀ id ∈ rows.map InboxEvent.id, s.table.lookup id = none := by
    intro id hid
    obtain ⟨row, hrow, rfl⟩ := List.mem_map.mp hid
    exact hfresh.new row hrow
  have hlookup : ∀ id, (s.table.lookup id).isSome →
      ((s.table.insertFree rows).lookup id).isSome := by
    intro id hsome
    obtain ⟨row, hrow⟩ := Option.isSome_iff_exists.mp hsome
    rw [Table.lookup_insertFree_of_some hrow rows]
    rfl
  refine ⟨fun entry hentry => ?_, fun entry hentry => ?_, fun entry hentry entry' hentry' hid => ?_,
    fun mark hmark => ⟨(h.marks mark hmark).1, hlookup _ (h.marks mark hmark).2.1,
      fun entry hentry hid => ?_⟩,
    fun tx' t' ht' => (h.transactions tx' t' ht').transfer (keeps_store s tx rows _ tx')⟩
  · rcases mem_store_inserted.mp hentry with ⟨htx, _⟩ | hold
    · show (s.transactions entry.1).isSome
      rw [htx, ht]
      rfl
    · exact h.isOpen entry hold
  · rcases mem_store_inserted.mp hentry with ⟨_, _, hstored⟩ | hold
    · exact hstored
    · exact hlookup _ (h.stored entry hold)
  · rcases mem_store_inserted.mp hentry with ⟨htx, hmem, _⟩ | hold
    · rcases mem_store_inserted.mp hentry' with ⟨htx', _⟩ | hold'
      · rw [htx, htx']
      · exact absurd hold' (h.not_mem_inserted (hid ▸ hnew _ hmem) entry'.1)
    · rcases mem_store_inserted.mp hentry' with ⟨_, hmem', _⟩ | hold'
      · exact absurd hold (h.not_mem_inserted (hid ▸ hnew _ hmem') entry.1)
      · exact h.owner entry hold entry' hold' hid
  · rcases mem_store_inserted.mp hentry with ⟨_, hmem, _⟩ | hold
    · have hmarked := (h.marks mark hmark).2.1
      rw [← hid, hnew _ hmem] at hmarked
      exact absurd hmarked (by simp)
    · exact (h.marks mark hmark).2.2 entry hold hid

theorem inv_finish {table : InboxTable Adapter.postgres.collate} (h : Inv s)
    (hkeeps : ∀ tx', tx' ≠ tx → Keeps s (s.finish tx table) tx')
    (hmarked : ∀ mark ∈ s.marks, mark.1 ≠ tx → (table.lookup mark.2.1).isSome) :
    Inv (s.finish tx table) := by
  have hopen : ∀ tx', tx' ≠ tx → (s.transactions tx').isSome →
      ((s.finish tx table).transactions tx').isSome := by
    intro tx' hne hsome
    rwa [State.finish_of_ne s hne]
  refine ⟨fun entry hentry => ?_, fun entry hentry => ?_, fun entry hentry entry' hentry' => ?_,
    fun mark hmark => ?_, fun tx' t' ht' => ?_⟩
  · obtain ⟨hold, hne⟩ := mem_finish_inserted.mp hentry
    exact hopen _ hne (h.isOpen entry hold)
  · obtain ⟨hold, hne⟩ := mem_finish_inserted.mp hentry
    obtain ⟨row, hrow⟩ := Option.isSome_iff_exists.mp (h.stored entry hold)
    obtain ⟨row', hrow', _⟩ := (hkeeps entry.1 hne entry.2 hold).2 row hrow
    rw [hrow']
    rfl
  · exact h.owner entry (mem_finish_inserted.mp hentry).1 entry' (mem_finish_inserted.mp hentry').1
  · obtain ⟨hold, hne⟩ : mark ∈ s.marks ∧ mark.1 ≠ tx := by
      simpa [State.finish, List.mem_filter] using hmark
    obtain ⟨hsome, _, howner⟩ := h.marks mark hold
    exact ⟨hopen _ hne hsome, hmarked mark hold hne,
      fun entry hentry => howner entry (mem_finish_inserted.mp hentry).1⟩
  · by_cases heq : tx' = tx
    · rw [heq, State.finish_self] at ht'
      exact absurd ht' (by simp)
    · rw [State.finish_of_ne s heq] at ht'
      exact (h.transactions tx' t' ht').transfer (hkeeps tx' heq)

theorem inv_of_change (h : Change s a s') (hinv : Inv s) : Inv s' := by
  have hkeeps : ∀ tx', a ≠ .commit tx' → a ≠ .rollback tx' → Keeps s s' tx' :=
    fun _ => keeps_of_change h hinv
  cases h with
  | unchanged => exact hinv
  | ticked =>
    exact ⟨hinv.isOpen, hinv.stored, hinv.owner, hinv.marks, fun tx t ht =>
      (hinv.transactions tx t ht).transfer (keeps_refl s tx)⟩
  | began tx hnone =>
    refine inv_setTransaction hinv ⟨by simp [Transaction.given, BatchCall.results],
      by simp [Transaction.given, BatchCall.results], fun _ _ hcall => absurd hcall (by simp),
      fun _ _ _ _ hcall => absurd hcall (by simp)⟩
  | received tx client id event t row ht hcall hrow hfresh =>
    refine inv_setTransaction (inv_store hinv ht hfresh) ?_
    rw [← show row.idempotencyKey = event.idempotencyKey from hrow.id_key.2]
    exact (hinv.transactions tx t ht).received hcall hfresh
  | called a tx t call _ ht hcall =>
    exact inv_setTransaction hinv ((hinv.transactions tx t ht).called hcall)
  | insertedChunk tx t chunk chunks results rows insertedIds ht hcall _ hfresh _ hreturned =>
    exact inv_setTransaction (inv_store hinv ht hfresh)
      ((hinv.transactions tx t ht).insertedChunk hcall hfresh hreturned)
  | foundChunk tx t t' chunk chunks insertedIds results ht hcall hgiven hcall' =>
    exact inv_setTransaction hinv ((hinv.transactions tx t ht).foundChunk hcall hgiven hcall')
  | marked tx t id error row ht hrow =>
    refine ⟨hinv.isOpen, hinv.stored, hinv.owner, fun mark hmark => ?_, fun tx' t' ht' =>
      (hinv.transactions tx' t' ht').transfer (keeps_refl s tx')⟩
    rcases List.mem_append.mp hmark with hold | hnew
    · exact hinv.marks mark hold
    · obtain rfl := List.mem_singleton.mp hnew
      obtain ⟨hlookup, hvisible⟩ := Table.of_lookup_delete hrow
      refine ⟨by rw [ht]; rfl, by rw [hlookup]; rfl, fun entry hentry hid => ?_⟩
      -- A row of another transaction would not be visible.
      by_contra hne
      have hrowId : entry.2 = row.id := hid.trans (Table.pk_of_lookup hlookup).symm
      have hhidden : s.hidden tx row = true := hidden_iff.mpr ⟨entry.1, hne, hrowId ▸ hentry⟩
      rw [hvisible] at hhidden
      exact absurd hhidden (by simp)
  | committed tx t table ht hcall htable =>
    refine inv_finish hinv (fun tx' hne => hkeeps tx' (by simpa using hne.symm) (by simp))
      fun mark hmark _ => ?_
    obtain ⟨row, hrow⟩ := Option.isSome_iff_exists.mp (hinv.marks mark hmark).2.1
    obtain ⟨row', hrow', _⟩ := lookup_applyMarks htable hrow
    rw [hrow']
    rfl
  | rolledBack tx t ht =>
    refine inv_finish hinv (fun tx' hne => hkeeps tx' (by simp) (by simpa using hne.symm))
      fun mark hmark hne => ?_
    obtain ⟨_, hlookup, howner⟩ := hinv.marks mark hmark
    obtain ⟨row, hrow⟩ := Option.isSome_iff_exists.mp hlookup
    have hid : row.id = mark.2.1 := Table.pk_of_lookup hrow
    rw [Table.lookup_delete_of_some hrow]
    · rfl
    · rw [Bool.eq_false_iff, Ne, owns_iff]
      exact fun howns => hne (howner (tx, row.id) howns hid).symm
  | cleaned retentionDays hdays hlocked =>
    refine ⟨hinv.isOpen, fun entry hentry => ?_, hinv.owner, fun mark hmark => ?_, fun tx t ht =>
      (hinv.transactions tx t ht).transfer (hkeeps tx (by simp) (by simp))⟩
    · obtain ⟨row, hrow⟩ := Option.isSome_iff_exists.mp (hinv.stored entry hentry)
      obtain ⟨row', hrow', _⟩ := (hkeeps entry.1 (by simp) (by simp) entry.2 hentry).2 row hrow
      rw [hrow']
      rfl
    · obtain ⟨hsome, hlookup, howner⟩ := hinv.marks mark hmark
      obtain ⟨row, hrow⟩ := Option.isSome_iff_exists.mp hlookup
      refine ⟨hsome, ?_, howner⟩
      rw [Table.lookup_delete_of_some hrow]
      · rfl
      · rw [Bool.eq_false_iff]
        exact fun hexpired => hlocked row (Table.mem_of_lookup hrow) hexpired mark hmark
          (Table.pk_of_lookup hrow).symm

theorem reachable_inv (h : inbox.Reachable s) : Inv s := by
  refine h.induct (fun s hinit => ?_) fun s a s' _ hinv _ (hstep : step s a = some s') =>
    inv_of_change (change_of_step hstep) hinv
  obtain ⟨clock, table, rfl⟩ := hinit
  exact ⟨by simp [State.initial], by simp [State.initial], by simp [State.initial],
    by simp [State.initial], fun tx t ht => absurd ht (by simp [State.initial])⟩

theorem reachable_step (h : inbox.Reachable s) (hstep : step s a = some s') :
    inbox.Reachable s' :=
  .step h trivial (show inbox.step s a = some s' from hstep)

/-! ## Committed rows -/

/-- The row is in the table, and no open transaction has inserted it. -/
structure Committed (s : State) (row : InboxEvent) : Prop where
  lookup : s.table.lookup row.id = some row
  visible : ∀ tx, (tx, row.id) ∉ s.inserted

/-- A commit leaves the rows of the transaction committed, and those that it
has marked failed. -/
theorem committed_of_commit {row : InboxEvent}
    (hstep : step s (.commit tx) = some s') (hrow : s.table.lookup row.id = some row)
    (hvisible : ∀ tx', tx' ≠ tx → (tx', row.id) ∉ s.inserted) :
    ∃ row', Committed s' row' ∧ row'.id = row.id ∧ MarkedRow row row' ∧
      ∀ error, (tx, row.id, error) ∈ s.marks → row'.status = .failed := by
  obtain ⟨t, table, ht, _, htable, rfl⟩ := commit_cases hstep
  obtain ⟨row', hrow', hmarked, hfailed⟩ := lookup_applyMarks htable hrow
  have hid := Table.pk_of_lookup hrow'
  refine ⟨row', ⟨hid ▸ hrow', fun tx' hentry => ?_⟩, hid, hmarked, hfailed⟩
  obtain ⟨hentry, hne⟩ := mem_finish_inserted.mp hentry
  exact hvisible tx' hne (hid ▸ hentry)

/-- A committed row stays unless a cleanup finds it expired. -/
theorem committed_of_change {row : InboxEvent} (h : Change s a s') (hrow : Committed s row) :
    (∃ row', Committed s' row' ∧ row'.id = row.id ∧ MarkedRow row row') ∨
      ∃ retentionDays : ℚ, a = .cleanupProcessedInboxEvents retentionDays ∧
        (retentionDays.den = 1 ∧ 1 ≤ retentionDays) ∧ s.expired retentionDays row = true ∧
        s'.table.lookup row.id = none := by
  have hstored : ∀ rows : List InboxEvent, s.table.Fresh rows →
      ∀ tx, Committed (s.store tx (s.table.insertFree rows) (rows.map InboxEvent.id)) row := by
    intro rows hfresh tx
    refine ⟨Table.lookup_insertFree_of_some hrow.lookup rows, fun tx' hentry => ?_⟩
    rcases mem_store_inserted.mp hentry with ⟨_, hmem, _⟩ | hold
    · obtain ⟨r, hr, hid⟩ := List.mem_map.mp hmem
      have hnew := hfresh.new r hr
      rw [hid, hrow.lookup] at hnew
      exact absurd hnew (by simp)
    · exact hrow.visible tx' hold
  cases h with
  | unchanged => exact .inl ⟨row, hrow, rfl, markedRow_refl row⟩
  | ticked => exact .inl ⟨row, ⟨hrow.lookup, hrow.visible⟩, rfl, markedRow_refl row⟩
  | began => exact .inl ⟨row, ⟨hrow.lookup, hrow.visible⟩, rfl, markedRow_refl row⟩
  | called => exact .inl ⟨row, ⟨hrow.lookup, hrow.visible⟩, rfl, markedRow_refl row⟩
  | foundChunk => exact .inl ⟨row, ⟨hrow.lookup, hrow.visible⟩, rfl, markedRow_refl row⟩
  | marked => exact .inl ⟨row, ⟨hrow.lookup, hrow.visible⟩, rfl, markedRow_refl row⟩
  | received tx client id event t new ht _ _ hfresh =>
    obtain ⟨hlookup, hvisible⟩ := hstored [new] hfresh tx
    exact .inl ⟨row, ⟨hlookup, hvisible⟩, rfl, markedRow_refl row⟩
  | insertedChunk tx t chunk chunks results rows insertedIds ht _ _ hfresh =>
    obtain ⟨hlookup, hvisible⟩ := hstored rows hfresh tx
    exact .inl ⟨row, ⟨hlookup, hvisible⟩, rfl, markedRow_refl row⟩
  | committed tx t table ht _ htable =>
    obtain ⟨row', hrow', hmarked, _⟩ := lookup_applyMarks htable hrow.lookup
    have hid := Table.pk_of_lookup hrow'
    refine .inl ⟨row', ⟨hid ▸ hrow', fun tx' hentry => ?_⟩, hid, hmarked⟩
    exact hrow.visible tx' (hid ▸ (mem_finish_inserted.mp hentry).1)
  | rolledBack tx t ht =>
    refine .inl ⟨row, ⟨Table.lookup_delete_of_some hrow.lookup ?_, fun tx' hentry =>
      hrow.visible tx' (mem_finish_inserted.mp hentry).1⟩, rfl, markedRow_refl row⟩
    rw [Bool.eq_false_iff, Ne, owns_iff]
    exact hrow.visible tx
  | cleaned retentionDays hdays hlocked =>
    cases hexpired : s.expired retentionDays row with
    | false =>
      exact .inl ⟨row, ⟨Table.lookup_delete_of_some hrow.lookup hexpired, hrow.visible⟩, rfl,
        markedRow_refl row⟩
    | true =>
      refine .inr ⟨retentionDays, rfl, hdays, hexpired, ?_⟩
      rw [Option.eq_none_iff_forall_ne_some]
      intro r hr
      obtain ⟨hlookup, hkept⟩ := Table.of_lookup_delete hr
      obtain rfl := Option.some.inj (hrow.lookup.symm.trans hlookup)
      rw [hexpired] at hkept
      exact absurd hkept (by simp)

/-- While a row is committed, no open transaction has an answer `processed`
for its key. -/
theorem duplicate_of_committed {row : InboxEvent} (hinv : Inv s) (hrow : Committed s row)
    (ht : s.transactions tx = some t) {answer : Answer} (hanswer : answer ∈ t.given)
    (hkey : answer.1 = row.idempotencyKey) : answer.2.status = .duplicate := by
  cases hstatus : answer.2.status with
  | duplicate => rfl
  | processed =>
    obtain ⟨held, _, hheldKey, hheld, hentry⟩ :=
      (hinv.transactions tx t ht).stored answer hanswer hstatus
    obtain rfl := eq_of_key_eq (Table.mem_of_lookup hheld) (Table.mem_of_lookup hrow.lookup)
      (hheldKey.trans hkey)
    exact absurd hentry (hrow.visible tx)

end Outboxy.Inbox
