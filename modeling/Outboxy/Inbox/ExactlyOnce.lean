import Outboxy.Inbox.Invariants

/-!
# Exactly once

What the inbox promises over whole histories of transactions, in every
reachable state (`ExactlyOnce`):

* an answer `processed` that was committed is followed by another one for the
  same key only after a cleanup at which the first row was still `processed`
  and past its retention (`exists_cleanup_of_processed`);
* a row that was marked as failed keeps answering `duplicate`
  (`stays_failed`);
* a transaction changes the committed rows only by its commit, and after a
  rollback its keys are free again (`free_of_rollback`, `accepts_of_free`).
-/

namespace Outboxy.Inbox

variable {s s' u v : State} {tx : TransactionId} {t : Transaction} {a : Action} {as : List Action}
  {key : String}

/-- The calls of the transaction have answered `processed` for the key. -/
def Processed (t : Transaction) (key : String) : Prop :=
  ∃ answer ∈ t.given, answer.1 = key ∧ answer.2.status = .processed

/-- The step inserts the key, unless it is taken. -/
def Receives (key : String) (s : State) : Action → Prop
  | .receive _ _ _ event => event.idempotencyKey = key
  | .insertChunk tx => ∃ t chunk chunks results, s.transactions tx = some t ∧
      t.call = .inserting (chunk :: chunks) results ∧
      key ∈ chunk.map fun event => event.2.idempotencyKey
  | _ => False

/-! ## Runs -/

/-- A committed row goes only in a cleanup at which it is expired. -/
theorem exists_cleanup {row : InboxEvent} (hrow : Committed s row) (hrun : inbox.run s as = some u)
    (hgone : ¬ ∃ row', Committed u row' ∧ row'.id = row.id ∧
      row'.idempotencyKey = row.idempotencyKey) :
    ∃ v retentionDays v' row',
      inbox.TakesStep s as v (.cleanupProcessedInboxEvents retentionDays) v' ∧
      (retentionDays.den = 1 ∧ 1 ≤ retentionDays) ∧ Committed v row' ∧ row'.id = row.id ∧
      row'.idempotencyKey = row.idempotencyKey ∧ v.expired retentionDays row' = true := by
  obtain ⟨pre, a, post, v, v', rfl, hpre, hstep, hthere, hnot, _⟩ :=
    Transition.System.exists_step_establishing
      (Q := fun s => ¬ ∃ row', Committed s row' ∧ row'.id = row.id ∧
        row'.idempotencyKey = row.idempotencyKey)
      hrun (not_not.mpr ⟨row, hrow, rfl, rfl⟩) hgone
  obtain ⟨row', hrow', hid, hkey⟩ := not_not.mp hthere
  rcases committed_of_change (change_of_step hstep) hrow' with
    ⟨row'', hrow'', hid', hmarked⟩ | ⟨retentionDays, rfl, hdays, hexpired, _⟩
  · exact absurd ⟨row'', hrow'', hid'.trans hid, hmarked.idempotencyKey.trans hkey⟩ hnot
  · exact ⟨v, retentionDays, v', row', ⟨pre, post, rfl, hpre, hstep⟩, hdays, hrow', hid, hkey,
      hexpired⟩

/-- A committed row that is failed stays. -/
theorem stays_failed {row : InboxEvent} (hrow : Committed s row) (hfailed : row.status = .failed)
    (hrun : inbox.run s as = some u) :
    ∃ row', Committed u row' ∧ row'.id = row.id ∧ row'.idempotencyKey = row.idempotencyKey ∧
      row'.status = .failed := by
  refine Transition.System.run_keeps
    (P := fun s => ∃ row', Committed s row' ∧ row'.id = row.id ∧
      row'.idempotencyKey = row.idempotencyKey ∧ row'.status = .failed)
    (fun v a v' hstep hv => ?_) hrun ⟨row, hrow, rfl, rfl, hfailed⟩
  obtain ⟨row', hrow', hid, hkey, hstatus⟩ := hv
  rcases committed_of_change (change_of_step hstep.step_eq) hrow' with
    ⟨row'', hrow'', hid', hmarked⟩ | ⟨retentionDays, _, _, hexpired, _⟩
  · refine ⟨row'', hrow'', hid'.trans hid, hmarked.idempotencyKey.trans hkey, ?_⟩
    rcases hmarked.status with hsame | hfailed'
    · rw [hsame, hstatus]
    · exact hfailed'
  · simp [State.expired, PgMaintenance.processedInboxEvent, hstatus] at hexpired

/-- The row that an answer `processed` stands for, once it is committed. -/
theorem committed_of_processed (hinv : Inv s) (ht : s.transactions tx = some t)
    {answer : Answer} (hanswer : answer ∈ t.given) (hstatus : answer.2.status = .processed)
    (hstep : step s (.commit tx) = some s') :
    ∃ row, answer.2.eventId = some row.id ∧ row.idempotencyKey = answer.1 ∧ Committed s' row := by
  obtain ⟨row, heventId, hkey, hrow, hentry⟩ :=
    (hinv.transactions tx t ht).stored answer hanswer hstatus
  obtain ⟨row', hrow', hid, hmarked, _⟩ := committed_of_commit hstep hrow
    fun tx' hne hentry' => hne (hinv.owner _ hentry' _ hentry rfl)
  exact ⟨row', heventId.trans (congrArg some hid.symm), hmarked.idempotencyKey.trans hkey, hrow'⟩

/-- Two answers `processed` for one key, the first one committed: in between,
a cleanup has deleted the first row. -/
theorem exists_cleanup_of_processed (hs : inbox.Reachable s) (ht : s.transactions tx = some t)
    {answer : Answer} (hanswer : answer ∈ t.given) (hstatus : answer.2.status = .processed)
    (hstep : step s (.commit tx) = some s') (hrun : inbox.run s' as = some u)
    {tx' : TransactionId} {t' : Transaction} (ht' : u.transactions tx' = some t')
    (hprocessed : Processed t' answer.1) :
    ∃ v retentionDays v' row,
      inbox.TakesStep s' as v (.cleanupProcessedInboxEvents retentionDays) v' ∧
      (retentionDays.den = 1 ∧ 1 ≤ retentionDays) ∧ answer.2.eventId = some row.id ∧
      v.table.lookup row.id = some row ∧ row.idempotencyKey = answer.1 ∧
      row.status = .processed ∧ ∃ processedAt, row.processedAt = some processedAt ∧
        processedAt < v.clock - retentionDays.num * Time.day := by
  obtain ⟨row, heventId, hkey, hrow⟩ :=
    committed_of_processed (reachable_inv hs) ht hanswer hstatus hstep
  have hu : inbox.Reachable u :=
    Transition.System.Reachable.run (reachable_step hs hstep) hrun
  obtain ⟨v, retentionDays, v', row', htakes, hdays, hrow', hid, hkey', hexpired⟩ :=
    exists_cleanup hrow hrun fun hthere => by
      obtain ⟨row', hrow', _, hkey'⟩ := hthere
      obtain ⟨answer', hanswer', hsame, hstatus'⟩ := hprocessed
      have hduplicate := duplicate_of_committed (reachable_inv hu) hrow' ht' hanswer'
        (hsame.trans (hkey.symm.trans hkey'.symm))
      rw [hstatus'] at hduplicate
      exact absurd hduplicate (by simp)
  refine ⟨v, retentionDays, v', row', htakes, hdays, heventId.trans (congrArg some hid.symm),
    hrow'.lookup, hkey'.trans hkey, ?_⟩
  simp only [State.expired, PgMaintenance.processedInboxEvent, Bool.and_eq_true,
    decide_eq_true_eq] at hexpired
  refine ⟨hexpired.1.1, ?_⟩
  cases hprocessedAt : row'.processedAt with
  | none =>
    rw [hprocessedAt] at hexpired
    exact absurd hexpired.1.2 (by simp)
  | some processedAt =>
    rw [hprocessedAt, sqlLt_some, decide_eq_true_eq] at hexpired
    exact ⟨processedAt, rfl, hexpired.1.2⟩

/-! ## Marked rows -/

/-- The transaction is still open, and has marked a row with the key. -/
structure Marking (s : State) (tx : TransactionId) (id : EventId) (error key : String) : Prop where
  mark : (tx, id, error) ∈ s.marks
  stored : ∃ row, s.table.lookup id = some row ∧ row.idempotencyKey = key

theorem marking_of_change {id : EventId} {error : String} (h : Change s a s') (hinv : Inv s)
    (hcommit : a ≠ .commit tx) (hrollback : a ≠ .rollback tx)
    (hmarking : Marking s tx id error key) :
    Marking s' tx id error key := by
  obtain ⟨hmark, row, hrow, hkey⟩ := hmarking
  obtain ⟨_, _, howner⟩ := hinv.marks _ hmark
  cases h with
  | unchanged => exact ⟨hmark, row, hrow, hkey⟩
  | ticked => exact ⟨hmark, row, hrow, hkey⟩
  | began => exact ⟨hmark, row, hrow, hkey⟩
  | called => exact ⟨hmark, row, hrow, hkey⟩
  | foundChunk => exact ⟨hmark, row, hrow, hkey⟩
  | marked => exact ⟨List.mem_append_left _ hmark, row, hrow, hkey⟩
  | received => exact ⟨hmark, row, Table.lookup_insertFree_of_some hrow _, hkey⟩
  | insertedChunk => exact ⟨hmark, row, Table.lookup_insertFree_of_some hrow _, hkey⟩
  | committed tx' t table _ _ htable =>
    have hne : tx ≠ tx' := fun heq => hcommit (by rw [heq])
    obtain ⟨row', hrow', hmarked, _⟩ := lookup_applyMarks htable hrow
    exact ⟨List.mem_filter.mpr ⟨hmark, by simpa using hne⟩, row', hrow',
      hmarked.idempotencyKey.trans hkey⟩
  | rolledBack tx' t _ =>
    have hne : tx ≠ tx' := fun heq => hrollback (by rw [heq])
    refine ⟨List.mem_filter.mpr ⟨hmark, by simpa using hne⟩, row, ?_, hkey⟩
    refine Table.lookup_delete_of_some hrow ?_
    rw [Bool.eq_false_iff, Ne, owns_iff]
    have hid : row.id = id := Table.pk_of_lookup hrow
    exact fun howns => hne (howner (tx', row.id) howns hid).symm
  | cleaned retentionDays _ hlocked =>
    refine ⟨hmark, row, Table.lookup_delete_of_some hrow ?_, hkey⟩
    rw [Bool.eq_false_iff]
    exact fun hexpired => hlocked row (Table.mem_of_lookup hrow) hexpired _ hmark
      (Table.pk_of_lookup hrow).symm

/-- A row that a transaction marks is failed when the transaction commits. -/
theorem failed_of_markFailed (hs : inbox.Reachable s) {id : EventId} {error : String}
    {row : InboxEvent} (hrow : (s.view tx).lookup id = some row)
    (hmark : step s (.markFailed tx id error) = some s')
    (hopen : ∀ a ∈ as, a ≠ .commit tx ∧ a ≠ .rollback tx) (hrun : inbox.run s' as = some u)
    (hcommit : step u (.commit tx) = some v) :
    ∃ row', Committed v row' ∧ row'.id = id ∧ row'.idempotencyKey = row.idempotencyKey ∧
      row'.status = .failed := by
  have hlookup := (Table.of_lookup_delete hrow).1
  have hmarking : Marking s' tx id (truncateError error) row.idempotencyKey := by
    obtain ⟨t, _, hmark⟩ := Option.bind_eq_some_iff.mp hmark
    unfold State.markFailed at hmark
    rw [hrow] at hmark
    split at hmark
    · split at hmark
      · exact absurd hmark (by simp)
      · obtain rfl := Option.some.inj hmark
        exact ⟨by simp, row, hlookup, rfl⟩
    · rename_i hnone
      exact absurd hnone (by simp)
    · exact absurd hmark (by simp)
  have hs' := reachable_step hs hmark
  have hu := Transition.System.Reachable.run hs' hrun
  obtain ⟨hmark', held, hheld, hkey⟩ :
      Marking u tx id (truncateError error) row.idempotencyKey := by
    refine Transition.System.run_keeps
      (P := fun s => Marking s tx id (truncateError error) row.idempotencyKey)
      (fun w a w' hstep hw => ?_) hrun hmarking
    have hreach := Transition.System.Reachable.takesStep hs' hstep
    obtain ⟨pre, post, rfl, _, hstep⟩ := hstep
    obtain ⟨hnotCommit, hnotRollback⟩ := hopen a (by simp)
    exact marking_of_change (change_of_step hstep) (reachable_inv hreach) hnotCommit hnotRollback hw
  obtain ⟨_, _, howner⟩ := (reachable_inv hu).marks _ hmark'
  have hid : held.id = id := Table.pk_of_lookup hheld
  obtain ⟨row', hrow', hid', hmarked, hfailed⟩ := committed_of_commit hcommit (hid.symm ▸ hheld)
    fun tx' hne hentry => hne (howner (tx', held.id) hentry hid)
  exact ⟨row', hrow', hid'.trans hid, hmarked.idempotencyKey.trans hkey,
    hfailed _ (hid.symm ▸ hmark')⟩

/-! ## Rolled back transactions -/

/-- No row has the key. -/
def Free (key : String) (s : State) : Prop := ∀ row ∈ s.table.rows, row.idempotencyKey ≠ key

theorem free_of_rollback (hinv : Inv s) (ht : s.transactions tx = some t)
    (hprocessed : Processed t key) (hstep : step s (.rollback tx) = some s') : Free key s' := by
  obtain ⟨answer, hanswer, rfl, hstatus⟩ := hprocessed
  obtain ⟨held, _, hheldKey, hheld, hentry⟩ :=
    (hinv.transactions tx t ht).stored answer hanswer hstatus
  obtain ⟨_, _, rfl⟩ := rollback_cases hstep
  intro row hrow hkey
  obtain ⟨hrow, hother⟩ := Table.mem_delete.mp hrow
  obtain rfl := eq_of_key_eq hrow (Table.mem_of_lookup hheld) (hkey.trans hheldKey.symm)
  rw [owns_iff.mpr hentry] at hother
  exact absurd hother (by simp)

theorem free_of_change (h : Change s a s') (hfree : Free key s) (hnot : ¬ Receives key s a) :
    Free key s' := by
  have hstored : ∀ rows : List InboxEvent, (∀ row ∈ rows, row.idempotencyKey ≠ key) →
      ∀ row ∈ (s.table.insertFree rows).rows, row.idempotencyKey ≠ key := by
    intro rows hrows row hrow
    rcases Table.mem_of_mem_insertFree hrow with hold | hnew
    · exact hfree row hold
    · exact hrows row hnew
  cases h with
  | unchanged => exact hfree
  | ticked => exact hfree
  | began => exact hfree
  | called => exact hfree
  | foundChunk => exact hfree
  | marked => exact hfree
  | received tx client id event t row _ _ hrow =>
    refine hstored [row] fun r hr hkey => hnot ?_
    obtain rfl := List.mem_singleton.mp hr
    exact hrow.id_key.2.symm.trans hkey
  | insertedChunk tx t chunk chunks results rows _ ht hcall hrows =>
    refine hstored rows fun row hrow hkey => hnot ⟨t, chunk, chunks, results, ht, hcall, ?_⟩
    rw [keys_of_areRows hrows]
    exact hkey ▸ List.mem_map_of_mem hrow
  | committed tx t table _ _ htable =>
    intro row' hrow' hkey
    obtain ⟨row, hrow, hmarked⟩ := lookup_of_applyMarks htable (Table.lookup_of_mem hrow')
    exact hfree row (Table.mem_of_lookup hrow) (hmarked.idempotencyKey.symm.trans hkey)
  | rolledBack => exact fun row hrow => hfree row (Table.mem_delete.mp hrow).1
  | cleaned => exact fun row hrow => hfree row (Table.mem_delete.mp hrow).1

/-- A free key stays free until it is received. -/
theorem free_of_run (hfree : Free key s) (hrun : inbox.run s as = some u)
    (hnot : ∀ v a v', inbox.TakesStep s as v a v' → ¬ Receives key v a) : Free key u := by
  refine Transition.System.run_keeps (P := Free key) (fun v a v' hstep hv => ?_)
    hrun hfree
  exact free_of_change (change_of_step hstep.step_eq) hv (hnot v a v' hstep)

/-- `receive` of a free key answers `processed`. -/
theorem receive_of_free (hfree : Free key s) (ht : s.transactions tx = some t)
    (hcall : t.call = .none) {client : InboxyClient .postgres} {id : EventId}
    {event : InboxReceiveEventInput} (hid : s.table.lookup id = none)
    (hvalid : client.ValidEvent event) (hkey : event.idempotencyKey = key) :
    ∃ s', step s (.receive tx client id event) = some s' ∧
      s'.transactions tx =
        some { t with answers := t.answers ++ [(key, ⟨some id, .processed⟩)] } := by
  obtain ⟨row, hrow⟩ := hvalid ⟨id, t.startedAt⟩
  obtain ⟨hrowId, hrowKey⟩ := hrow.id_key
  have hfresh : s.table.Fresh [row] :=
    ⟨by simpa [show row.id = id from hrowId] using hid, List.nodup_singleton _⟩
  have hconflict : s.table.conflict row = none := by
    rw [Table.conflict_eq_none_iff]
    intro held hheld i hi hrowIx
    refine hfree held hheld ?_
    have hsame := Option.some.inj (hi.trans hrowIx.symm)
    exact hsame.trans (hrowKey.trans hkey)
  have hresult : insertResult .postgres s.table row = ⟨some id, .processed⟩ := by
    unfold insertResult
    rw [hconflict, hrowId]
    rfl
  have hwaits : s.waits tx event.idempotencyKey = false := by
    rw [Bool.eq_false_iff, Ne, State.waits, List.any_eq_true]
    intro hwaiting
    obtain ⟨held, hheld, hhidden⟩ := hwaiting
    simp only [Bool.and_eq_true, decide_eq_true_eq] at hhidden
    exact hfree held hheld (hhidden.1.trans hkey)
  have hreceive := run_receive_of_rowOf hrow hfresh
  refine ⟨_, ?_, State.setTransaction_self (s.store tx (s.table.insertFree [row]) [id]) tx _⟩
  show (s.transactions tx).bind _ = _
  rw [ht, Option.bind_some, State.receive, hcall, hid, hreceive, hresult]
  show (if s.waits tx event.idempotencyKey then none else _) = _
  rw [hwaits, hkey]
  rfl

/-- A transaction that takes no step stays as it is. -/
theorem transactions_of_change (h : Change s a s') (ha : a.transaction ≠ some tx) :
    s'.transactions tx = s.transactions tx := by
  have hne : ∀ tx', a.transaction = some tx' → tx ≠ tx' := fun tx' htx' heq => ha (heq ▸ htx')
  cases h with
  | unchanged => rfl
  | ticked => rfl
  | marked => rfl
  | cleaned => rfl
  | began tx' => exact State.setTransaction_of_ne _ (hne tx' rfl) _
  | received tx' => exact State.setTransaction_of_ne _ (hne tx' rfl) _
  | called a tx' t call ha => exact State.setTransaction_of_ne _ (hne tx' ha) _
  | insertedChunk tx' => exact State.setTransaction_of_ne _ (hne tx' rfl) _
  | foundChunk tx' => exact State.setTransaction_of_ne _ (hne tx' rfl) _
  | committed tx' => exact State.finish_of_ne _ (hne tx' rfl) _
  | rolledBack tx' => exact State.finish_of_ne _ (hne tx' rfl) _

/-- The transaction has inserted the row of a key of its chunk, and has not
yet looked it up. -/
def Inserted (s : State) (tx : TransactionId) (key : String) : Prop :=
  ∃ t chunk chunks insertedIds results, s.transactions tx = some t ∧
    t.call = .finding chunk chunks insertedIds results ∧
    key ∈ (chunk.map fun event => event.2.idempotencyKey) ∧
    ∃ row, s.table.lookup row.id = some row ∧ row.idempotencyKey = key ∧ row.id ∈ insertedIds ∧
      (tx, row.id) ∈ s.inserted

/-- The `INSERT` of a chunk stores the rows with free keys. -/
theorem inserted_of_free (hinv : Inv s) (hfree : Free key s)
    {chunk : List (Stamp × ValidatedInboxEvent)}
    {chunks : List (List (Stamp × ValidatedInboxEvent))} {results : List Answer}
    (ht : s.transactions tx = some t) (hcall : t.call = .inserting (chunk :: chunks) results)
    (hkey : key ∈ chunk.map fun event => event.2.idempotencyKey) {rows : List InboxEvent}
    (hbuilt : InboxyClient.bulkRows chunk = .ok rows)
    (hstep : step s (.insertChunk tx) = some s') : Inserted s' tx key := by
  have hdistinct : DistinctKeys chunk :=
    (hinv.transactions tx t ht).inserting _ _ hcall chunk List.mem_cons_self
  obtain ⟨t', ht', hinsert⟩ := Option.bind_eq_some_iff.mp hstep
  obtain rfl := Option.some.inj (ht.symm.trans ht')
  obtain ⟨chunk', chunks', results', hcall', ⟨⟨e, herror⟩, _⟩ |
    ⟨rows', insertedIds, hrows, hfresh, _, hreturned, rfl⟩⟩ := insertChunk_cases hinsert
  · obtain ⟨hchunks, _⟩ := BatchCall.inserting.inj (hcall.symm.trans hcall')
    obtain ⟨rfl, _⟩ := List.cons.inj hchunks
    rw [hbuilt] at herror
    exact absurd herror (by simp)
  · obtain ⟨hchunks, rfl⟩ := BatchCall.inserting.inj (hcall.symm.trans hcall')
    obtain ⟨rfl, rfl⟩ := List.cons.inj hchunks
    have hkeys := keys_of_areRows hrows
    obtain ⟨row, hrow, rfl⟩ := List.mem_map.mp (hkeys ▸ hkey)
    -- Nothing but the row itself can hold its key.
    obtain ⟨held, hheld⟩ := hfresh.exists_conflict hrow (i := row.idempotencyKey) rfl
    obtain ⟨hmem, hsame, _⟩ := Table.conflict_eq_some_iff.mp hheld
    have hheldKey : held.idempotencyKey = row.idempotencyKey := Option.some.inj hsame
    rcases Table.mem_of_mem_insertFree hmem with hold | hnew
    · exact absurd hheldKey (hfree held hold)
    · have hnodup : (rows'.map InboxEvent.idempotencyKey).Nodup := hkeys ▸ hdistinct
      obtain rfl := List.inj_on_of_nodup_map hnodup hnew hrow hheldKey
      have hlookup := Table.lookup_of_mem hmem
      have hstored : ((s.table.insertFree rows').lookup held.id).isSome := by
        rw [hlookup]
        rfl
      exact ⟨_, chunk, chunks, insertedIds, results, State.setTransaction_self _ _ _, rfl, hkey,
        held, hlookup, rfl, (hreturned held.id).mpr ⟨held, hrow, rfl, hstored⟩,
        mem_store_inserted.mpr (.inl ⟨rfl, List.mem_map_of_mem hrow, hstored⟩)⟩

theorem inserted_of_run (hs : inbox.Reachable s) (hinserted : Inserted s tx key)
    (hothers : ∀ a ∈ as, a.transaction ≠ some tx) (hrun : inbox.run s as = some u) :
    Inserted u tx key := by
  refine Transition.System.run_keeps (P := fun s => Inserted s tx key)
    (fun v a v' hstep hv => ?_) hrun hinserted
  have hinv := reachable_inv (Transition.System.Reachable.takesStep hs hstep)
  obtain ⟨pre, post, rfl, _, hstep⟩ := hstep
  have hother := hothers a (by simp)
  have hchange := change_of_step hstep
  obtain ⟨t, chunk, chunks, insertedIds, results, ht, hcall, hkey, row, hrow, hrowKey, hid,
    hentry⟩ := hv
  obtain ⟨hentry', hlookup⟩ := keeps_of_change hchange hinv
    (fun heq => hother (by rw [heq]; rfl)) (fun heq => hother (by rw [heq]; rfl)) _ hentry
  obtain ⟨row', hrow', hkey'⟩ := hlookup row hrow
  have hrowId := Table.pk_of_lookup hrow'
  exact ⟨t, chunk, chunks, insertedIds, results, (transactions_of_change hchange hother).trans ht,
    hcall, hkey, row', hrowId ▸ hrow', hkey'.trans hrowKey, hrowId ▸ hid, hrowId ▸ hentry'⟩

/-- The `SELECT` finds the row, and the key is answered as processed. -/
theorem processed_of_inserted (hinv : Inv s) (hinserted : Inserted s tx key)
    (hstep : step s (.findChunk tx) = some s') :
    ∃ t, s'.transactions tx = some t ∧ Processed t key := by
  obtain ⟨t, chunk, chunks, insertedIds, results, ht, hcall, hkey, row, hrow, rfl, hid, hentry⟩ :=
    hinserted
  have hvisible : row ∈ (s.view tx).rows := by
    refine Table.mem_delete.mpr ⟨Table.mem_of_lookup hrow, ?_⟩
    rw [Bool.eq_false_iff, Ne, hidden_iff]
    intro hhidden
    obtain ⟨tx', hne, hentry'⟩ := hhidden
    exact hne (hinv.owner _ hentry' _ hentry rfl)
  have hanswer : (row.idempotencyKey, (⟨some row.id, .processed⟩ : InboxReceiveResult)) ∈
      s.chunkAnswers tx chunk insertedIds := by
    obtain ⟨event, hevent, heventKey⟩ := List.mem_map.mp hkey
    refine List.mem_map.mpr ⟨event, hevent, ?_⟩
    have hfound := get?_keyToId hvisible hkey
    show (event.2.idempotencyKey, InboxyClient.batchResult .postgres insertedIds
      (keyToId (chunk.map fun event => event.2.idempotencyKey) (s.view tx)) event.1 event.2) = _
    unfold InboxyClient.batchResult
    rw [heventKey, hfound]
    simp [Adapter.supportsReturning, hid]
  obtain ⟨t', ht', hfind⟩ := Option.bind_eq_some_iff.mp hstep
  obtain rfl := Option.some.inj (ht.symm.trans ht')
  obtain ⟨t', hgiven, _, rfl⟩ := findChunk_cases hcall hfind
  exact ⟨t', State.setTransaction_self _ _ _, _, hgiven ▸ List.mem_append_right _ hanswer, rfl, rfl⟩

/-- A transaction shows nothing to the others before its commit, and takes
everything with it when it is rolled back. -/
theorem committed_rows_of_change (h : Change s a s') (ha : a.transaction = some tx)
    (hcommit : a ≠ .commit tx) : s'.committed.rows = s.committed.rows := by
  have hstored : ∀ (rows : List InboxEvent), s.table.Fresh rows → ∀ tx,
      (s.store tx (s.table.insertFree rows) (rows.map InboxEvent.id)).committed.rows =
        s.committed.rows := by
    intro rows hfresh tx
    obtain ⟨new, hsub, happended⟩ := Table.exists_rows_insertFree s.table rows
    have hold : ∀ row ∈ s.table.rows,
        (!(s.store tx (s.table.insertFree rows) (rows.map InboxEvent.id)).uncommitted row) =
          !s.uncommitted row := by
      intro row hrow
      rw [Bool.not_inj_iff, Bool.eq_iff_iff, uncommitted_iff, uncommitted_iff]
      refine exists_congr fun tx' => mem_store_inserted.trans (or_iff_right ?_)
      intro hnew
      obtain ⟨_, hmem, _⟩ := hnew
      obtain ⟨r, hr, hid⟩ := List.mem_map.mp hmem
      exact Table.lookup_eq_none_iff.mp (hfresh.new r hr) row hrow hid.symm
    have hnew : ∀ row ∈ new,
        (!(s.store tx (s.table.insertFree rows) (rows.map InboxEvent.id)).uncommitted row) =
          false := by
      intro row hrow
      have hmem : row ∈ (s.table.insertFree rows).rows := happended ▸ List.mem_append_right _ hrow
      rw [Bool.not_eq_false', uncommitted_iff]
      refine ⟨tx, mem_store_inserted.mpr (.inl ⟨rfl, List.mem_map_of_mem (hsub.subset hrow), ?_⟩)⟩
      rw [Table.lookup_of_mem hmem]
      rfl
    show (s.table.insertFree rows).rows.filter _ = s.table.rows.filter _
    have hnil := List.filter_eq_nil_iff.mpr fun row hrow => Bool.eq_false_iff.mp (hnew row hrow)
    rw [happended, List.filter_append, List.filter_congr hold, hnil, List.append_nil]
  cases h with
  | unchanged => rfl
  | ticked => exact absurd ha (by simp [Action.transaction])
  | cleaned => exact absurd ha (by simp [Action.transaction])
  | began => rfl
  | called => rfl
  | foundChunk => rfl
  | marked => rfl
  | received tx' client id event t row _ _ _ hfresh => exact hstored [row] hfresh tx'
  | insertedChunk tx' t chunk chunks results rows _ _ _ _ hfresh => exact hstored rows hfresh tx'
  | committed tx' => exact absurd ha fun heq => hcommit (by rw [Option.some.inj heq])
  | rolledBack tx' t _ =>
    show (s.table.rows.filter _).filter _ = s.table.rows.filter _
    rw [List.filter_filter]
    refine List.filter_congr fun row _ => ?_
    rw [Bool.eq_iff_iff, Bool.and_eq_true, Bool.not_eq_true', Bool.not_eq_true', Bool.not_eq_true',
      Bool.eq_false_iff, Bool.eq_false_iff, Bool.eq_false_iff, Ne, Ne, Ne, uncommitted_iff,
      uncommitted_iff, owns_iff]
    constructor
    · intro hcommitted huncommitted
      obtain ⟨tx'', hentry⟩ := huncommitted
      by_cases heq : tx'' = tx'
      · exact hcommitted.2 (heq ▸ hentry)
      · exact hcommitted.1 ⟨tx'', mem_finish_inserted.mpr ⟨hentry, heq⟩⟩
    · intro hcommitted
      refine ⟨fun huncommitted => ?_, fun howns => hcommitted ⟨tx', howns⟩⟩
      obtain ⟨tx'', hentry⟩ := huncommitted
      exact hcommitted ⟨tx'', (mem_finish_inserted.mp hentry).1⟩

/-! ## The promise -/

/-- `receive` and `receiveBatch` answer `processed` for the key. -/
structure Accepts (s : State) (key : String) : Prop where
  receive : ∀ tx t (client : InboxyClient .postgres) id event, s.transactions tx = some t →
    t.call = .none → s.table.lookup id = none → client.ValidEvent event →
    event.idempotencyKey = key →
    ∃ s', step s (.receive tx client id event) = some s' ∧
      s'.transactions tx = some { t with answers := t.answers ++ [(key, ⟨some id, .processed⟩)] }
  /-- The call has looked its ids up when `findChunk` follows `insertChunk`. -/
  receiveBatch : ∀ tx t chunk chunks results rows s', s.transactions tx = some t →
    t.call = .inserting (chunk :: chunks) results →
    key ∈ (chunk.map fun event => event.2.idempotencyKey) →
    InboxyClient.bulkRows chunk = .ok rows → step s (.insertChunk tx) = some s' →
    ∀ as u u', (∀ a ∈ as, a.transaction ≠ some tx) → inbox.run s' as = some u →
      step u (.findChunk tx) = some u' → ∃ t', u'.transactions tx = some t' ∧ Processed t' key

theorem accepts_of_free (hs : inbox.Reachable s) (hfree : Free key s) : Accepts s key where
  receive _ _ _ _ _ ht hcall hid hvalid hkey := receive_of_free hfree ht hcall hid hvalid hkey
  receiveBatch _ _ _ _ _ _ _ ht hcall hkey hbuilt hstep _ _ _ hothers hrun hfind :=
    have hinserted := inserted_of_free (reachable_inv hs) hfree ht hcall hkey hbuilt hstep
    have hs' := reachable_step hs hstep
    processed_of_inserted (reachable_inv (Transition.System.Reachable.run hs' hrun))
      (inserted_of_run hs' hinserted hothers hrun) hfind

/-- What the inbox promises from a state on. -/
structure ExactlyOnce (s : State) : Prop where
  /-- The calls of one transaction answer `processed` at most once for a
  key. -/
  once : ∀ tx t, s.transactions tx = some t → t.given.Pairwise fun answer answer' =>
    answer.1 = answer'.1 → answer.2.status = .processed → answer'.2.status ≠ .processed
  /-- Between a committed answer `processed` and another one for its key, a
  cleanup has run at which the first row was still `processed` and more than
  `retentionDays` old. -/
  cleaned : ∀ tx t answer s', s.transactions tx = some t → answer ∈ t.given →
    answer.2.status = .processed → step s (.commit tx) = some s' →
    ∀ as u tx' t', inbox.run s' as = some u → u.transactions tx' = some t' →
      Processed t' answer.1 →
      ∃ v retentionDays v' row,
        inbox.TakesStep s' as v (.cleanupProcessedInboxEvents retentionDays) v' ∧
        (retentionDays.den = 1 ∧ 1 ≤ retentionDays) ∧ answer.2.eventId = some row.id ∧
        v.table.lookup row.id = some row ∧ row.idempotencyKey = answer.1 ∧
        row.status = .processed ∧ ∃ processedAt, row.processedAt = some processedAt ∧
          processedAt < v.clock - retentionDays.num * Time.day
  /-- A row that a transaction has marked and committed stays failed, and every
  answer for its key is `duplicate`. -/
  failed : ∀ tx id error row s', (s.view tx).lookup id = some row →
    step s (.markFailed tx id error) = some s' →
    ∀ as u u', (∀ a ∈ as, a ≠ .commit tx ∧ a ≠ .rollback tx) → inbox.run s' as = some u →
      step u (.commit tx) = some u' →
      ∀ bs v, inbox.run u' bs = some v →
        (∃ row', Committed v row' ∧ row'.id = id ∧ row'.idempotencyKey = row.idempotencyKey ∧
          row'.status = .failed) ∧
        ∀ tx' t, v.transactions tx' = some t → ∀ answer ∈ t.given,
          answer.1 = row.idempotencyKey → answer.2.status = .duplicate
  /-- A transaction changes the committed rows by its commit only. -/
  noTrace : ∀ tx a s', a.transaction = some tx → a ≠ .commit tx → step s a = some s' →
    s'.committed.rows = s.committed.rows
  /-- After a rollback the next receive of a key that the transaction had
  processed is `processed` again. -/
  retried : ∀ tx t key s', s.transactions tx = some t → Processed t key →
    step s (.rollback tx) = some s' →
    ∀ as u, inbox.run s' as = some u →
      (∀ v a v', inbox.TakesStep s' as v a v' → ¬ Receives key v a) → Accepts u key

/-- The PostgreSQL inbox delivers each key once, as far as its cleanup lets
it. -/
theorem exactlyOnce (hs : inbox.Reachable s) : ExactlyOnce s where
  once tx t ht := ((reachable_inv hs).transactions tx t ht).once
  cleaned _ _ _ _ ht hanswer hstatus hstep _ _ _ _ hrun ht' hprocessed :=
    exists_cleanup_of_processed hs ht hanswer hstatus hstep hrun ht' hprocessed
  failed tx id error row s' hrow hmark as u u' hopen hrun hcommit bs v hrun' := by
    obtain ⟨row', hrow', hid, hkey, hfailed⟩ :=
      failed_of_markFailed hs hrow hmark hopen hrun hcommit
    obtain ⟨row'', hrow'', hid', hkey', hfailed'⟩ := stays_failed hrow' hfailed hrun'
    refine ⟨⟨row'', hrow'', hid'.trans hid, hkey'.trans hkey, hfailed'⟩,
      fun tx' t ht answer hanswer hsame => ?_⟩
    have hu := Transition.System.Reachable.run (reachable_step hs hmark) hrun
    have hv := Transition.System.Reachable.run (reachable_step hu hcommit) hrun'
    exact duplicate_of_committed (reachable_inv hv) hrow'' ht hanswer
      (hsame.trans (hkey'.trans hkey).symm)
  noTrace _ _ _ ha hcommit hstep :=
    committed_rows_of_change (change_of_step hstep) ha hcommit
  retried _ _ _ _ ht hprocessed hstep _ _ hrun hnot :=
    accepts_of_free (Transition.System.Reachable.run (reachable_step hs hstep) hrun)
      (free_of_run (free_of_rollback (reachable_inv hs) ht hprocessed hstep) hrun hnot)

/-- The event of a committed transaction is received again, and is a
duplicate. -/
theorem exactlyOnce_of_receive :
    ∃ s, inbox.run (State.initial 0 Table.empty)
        [.begin 0,
          .receive 0 (Sample.inboxyClient .postgres) Sample.id (Sample.received "order-1"),
          .commit 0, .begin 1,
          .receive 1 (Sample.inboxyClient .postgres) Sample.otherId (Sample.received "order-1")] =
        some s ∧
      (∃ t, s.transactions 1 = some t ∧ t.given = [("order-1", ⟨none, .duplicate⟩)]) ∧
      (∃ row, s.committed.rows = [row] ∧ row.id = Sample.id) ∧ ExactlyOnce s := by
  obtain ⟨s, hrun, hduplicate, hrow⟩ : ∃ s, inbox.run (State.initial 0 Table.empty)
        [.begin 0,
          .receive 0 (Sample.inboxyClient .postgres) Sample.id (Sample.received "order-1"),
          .commit 0, .begin 1,
          .receive 1 (Sample.inboxyClient .postgres) Sample.otherId (Sample.received "order-1")] =
        some s ∧
      (∃ t, s.transactions 1 = some t ∧ t.given = [("order-1", ⟨none, .duplicate⟩)]) ∧
      ∃ row, s.committed.rows = [row] ∧ row.id = Sample.id :=
    ⟨_, rfl, ⟨_, rfl, rfl⟩, _, rfl, rfl⟩
  exact ⟨s, hrun, hduplicate, hrow,
    exactlyOnce (Transition.System.Reachable.run (.init ⟨0, Table.empty, rfl⟩) hrun)⟩

end Outboxy.Inbox
