import Outboxy.Inbox.System
import Outboxy.Sdk.ReceiveBatch

/-!
# What a step of the inbox can do

`Change` lists the effects that a step can have, with what it checked; the
inversion lemma is `change_of_step`.  No later module unfolds a step again.
-/

namespace Outboxy.Inbox

variable {s s' : State} {tx : TransactionId} {t : Transaction}

/-- The ids that an `INSERT` returned are those of its rows that are in the
table. -/
def Returned (rows : List InboxEvent) (table : InboxTable Adapter.postgres.collate)
    (insertedIds : List EventId) : Prop :=
  ∀ id, id ∈ insertedIds ↔ ∃ row ∈ rows, row.id = id ∧ (table.lookup id).isSome

/-- No two events have one key. -/
def DistinctKeys (events : List (Stamp × ValidatedInboxEvent)) : Prop :=
  (events.map fun event => event.2.idempotencyKey).Nodup

inductive Change (s : State) : Action → State → Prop
  /-- The call returns without a statement, or throws before it. -/
  | unchanged (a : Action) : Change s a s
  | ticked (micros : Nat) : Change s (.tick micros) { s with clock := s.clock + micros }
  | began (tx : TransactionId) (hnone : s.transactions tx = none) :
      Change s (.begin tx) (s.setTransaction tx (some { startedAt := s.clock }))
  | received (tx : TransactionId) (client : InboxyClient .postgres) (id : EventId)
      (event : InboxReceiveEventInput) (t : Transaction) (row : InboxEvent)
      (ht : s.transactions tx = some t) (hcall : t.call = .none)
      (hrow : client.RowOf (⟨id, t.startedAt⟩, event) row) (hfresh : s.table.Fresh [row])
      (hwaits : s.waits tx event.idempotencyKey = false) :
      Change s (.receive tx client id event)
        ((s.store tx (s.table.insertFree [row]) [row.id]).setTransaction tx
          (some { t with
            answers := t.answers ++
              [(event.idempotencyKey, insertResult .postgres s.table row)] }))
  /-- A call of `receiveBatch` starts, or throws. -/
  | called (a : Action) (tx : TransactionId) (t : Transaction) (call : BatchCall)
      (ha : a.transaction = some tx) (ht : s.transactions tx = some t)
      (hcall : call = .none ∨ ∃ chunks, call = .inserting chunks [] ∧ ∀ chunk ∈ chunks,
        DistinctKeys chunk) :
      Change s a (s.setTransaction tx (some { t with call := call }))
  | insertedChunk (tx : TransactionId) (t : Transaction)
      (chunk : List (Stamp × ValidatedInboxEvent))
      (chunks : List (List (Stamp × ValidatedInboxEvent))) (results : List Answer)
      (rows : List InboxEvent) (insertedIds : List EventId)
      (ht : s.transactions tx = some t) (hcall : t.call = .inserting (chunk :: chunks) results)
      (hrows : AreRows chunk rows) (hfresh : s.table.Fresh rows)
      (hwaits : ∀ row ∈ rows, s.waits tx row.idempotencyKey = false)
      (hreturned : Returned rows (s.table.insertFree rows) insertedIds) :
      Change s (.insertChunk tx)
        ((s.store tx (s.table.insertFree rows) (rows.map InboxEvent.id)).setTransaction tx
          (some { t with call := .finding chunk chunks insertedIds results }))
  /-- The call goes on with the next chunk, or returns. -/
  | foundChunk (tx : TransactionId) (t t' : Transaction)
      (chunk : List (Stamp × ValidatedInboxEvent))
      (chunks : List (List (Stamp × ValidatedInboxEvent))) (insertedIds : List EventId)
      (results : List Answer) (ht : s.transactions tx = some t)
      (hcall : t.call = .finding chunk chunks insertedIds results)
      (hgiven : t'.given = t.given ++ s.chunkAnswers tx chunk insertedIds)
      (hcall' : t'.call = .none ∨ ∃ results', t'.call = .inserting chunks results') :
      Change s (.findChunk tx) (s.setTransaction tx (some t'))
  | marked (tx : TransactionId) (t : Transaction) (id : EventId) (error : String)
      (row : InboxEvent) (ht : s.transactions tx = some t) (hrow : (s.view tx).lookup id = some row)
      (hlocked : s.locked tx id = false) :
      Change s (.markFailed tx id error)
        { s with marks := s.marks ++ [(tx, id, truncateError error)] }
  | committed (tx : TransactionId) (t : Transaction)
      (table : InboxTable Adapter.postgres.collate) (ht : s.transactions tx = some t)
      (hcall : t.call = .none) (htable : State.applyMarks s.marks tx s.table = some table) :
      Change s (.commit tx) (s.finish tx table)
  | rolledBack (tx : TransactionId) (t : Transaction) (ht : s.transactions tx = some t) :
      Change s (.rollback tx) (s.finish tx (s.table.delete (s.owns tx)))
  | cleaned (retentionDays : ℚ) (hdays : retentionDays.den = 1 ∧ 1 ≤ retentionDays)
      (hlocked : ∀ row ∈ s.table.rows, s.expired retentionDays row = true →
        ∀ mark ∈ s.marks, mark.2.1 ≠ row.id) :
      Change s (.cleanupProcessedInboxEvents retentionDays)
        { s with table := s.table.delete (s.expired retentionDays) }

/-! ## Inversion -/

theorem receive_change {client : InboxyClient .postgres} {id : EventId}
    {event : InboxReceiveEventInput} (ht : s.transactions tx = some t)
    (h : s.receive tx t client id event = some s') :
    Change s (.receive tx client id event) s' := by
  unfold State.receive at h
  split at h
  · rename_i result table hcall hlookup hrun
    split at h
    · exact absurd h (by simp)
    · rename_i hwaits
      obtain rfl := Option.some.inj h
      obtain ⟨row, hrow⟩ := exists_rowOf_of_receive hrun
      have hid : row.id = id := hrow.id_key.1
      have hfresh : s.table.Fresh [row] := ⟨by simpa [hid] using hlookup, List.nodup_singleton _⟩
      have hreceive := run_receive_of_rowOf hrow hfresh
      rw [hrun] at hreceive
      obtain ⟨rfl, rfl⟩ := Prod.mk.inj (Except.ok.inj hreceive)
      rw [← hid]
      rw [← hid] at hrow
      exact .received tx client row.id event t row ht hcall hrow hfresh (by simpa using hwaits)
  · obtain rfl := Option.some.inj h
    exact .unchanged _
  · exact absurd h (by simp)

theorem distinctKeys_of_mem_chunks {client : InboxyClient .postgres}
    {events chunk : List (Stamp × ValidatedInboxEvent)} (h : DistinctKeys events)
    (hchunk : chunk ∈ client.chunks events) : DistinctKeys chunk := by
  unfold InboxyClient.chunks at hchunk
  split at hchunk
  · exact h.sublist ((List.sublist_of_mem_slices hchunk).map _)
  · obtain rfl := List.mem_singleton.mp hchunk
    exact h

theorem receiveBatch_change {client : InboxyClient .postgres}
    {events : List (EventId × InboxReceiveEventInput)} (ht : s.transactions tx = some t)
    (h : s.receiveBatch tx t client events = some s') :
    Change s (.receiveBatch tx client events) s' := by
  unfold State.receiveBatch at h
  split at h
  · split at h
    · obtain rfl := Option.some.inj h
      exact .unchanged _
    · split at h
      · rename_i validatedEvents _
        split at h
        · rename_i hkeys
          obtain rfl := Option.some.inj h
          exact .called _ tx t _ rfl ht
            (.inr ⟨_, rfl, fun chunk hchunk => distinctKeys_of_mem_chunks hkeys hchunk⟩)
        · obtain rfl := Option.some.inj h
          exact .unchanged _
      · obtain rfl := Option.some.inj h
        exact .unchanged _
  · exact absurd h (by simp)

theorem areRows_of_bulkRows {events : List (Stamp × ValidatedInboxEvent)} {rows : List InboxEvent}
    (h : InboxyClient.bulkRows events = .ok rows) : AreRows events rows := by
  unfold InboxyClient.bulkRows at h
  induction events generalizing rows with
  | nil =>
    obtain rfl := Except.ok.inj h
    exact .nil
  | cons event events ih =>
    rw [List.mapM_cons] at h
    obtain ⟨row, hrow, h⟩ := bind_eq_ok.mp h
    obtain ⟨rows, hrows, h⟩ := bind_eq_ok.mp h
    obtain rfl := Except.ok.inj h
    exact .cons (isRow_of_row hrow) (ih hrows)

/-- The `INSERT` of a chunk, unless one of its values is not serializable. -/
theorem insertChunk_cases (h : s.insertChunk tx t = some s') :
    ∃ chunk chunks results, t.call = .inserting (chunk :: chunks) results ∧
      (((∃ e, InboxyClient.bulkRows chunk = .error e) ∧
          s' = s.setTransaction tx (some { t with call := .none })) ∨
        ∃ rows insertedIds, AreRows chunk rows ∧ s.table.Fresh rows ∧
          (∀ row ∈ rows, s.waits tx row.idempotencyKey = false) ∧
          Returned rows (s.table.insertFree rows) insertedIds ∧
          s' = (s.store tx (s.table.insertFree rows) (rows.map InboxEvent.id)).setTransaction tx
            (some { t with call := .finding chunk chunks insertedIds results })) := by
  unfold State.insertChunk at h
  split at h
  · rename_i chunk chunks results hcall
    refine ⟨chunk, chunks, results, hcall, ?_⟩
    split at h
    · rename_i rows hrows
      split at h
      · exact absurd h (by simp)
      · rename_i hguard
        obtain ⟨hany, hids⟩ := not_or.mp hguard
        have hrow : ∀ row ∈ rows, s.table.lookup row.id = none ∧
            s.waits tx row.idempotencyKey = false := by
          intro row hrow
          rw [List.any_eq_true] at hany
          have hnot := fun hbad => hany ⟨row, hrow, hbad⟩
          simpa using hnot
        have hfresh : s.table.Fresh rows :=
          ⟨fun row hmem => (hrow row hmem).1, not_not.mp hids⟩
        obtain ⟨inserted, hbulk, hreturned⟩ := buildInboxBulkInsert_postgres hfresh
        rw [hbulk] at h
        exact .inr ⟨rows, _, areRows_of_bulkRows hrows, hfresh, fun row hmem => (hrow row hmem).2,
          hreturned, (Option.some.inj h).symm⟩
    · rename_i e herror
      exact .inl ⟨⟨e, herror⟩, (Option.some.inj h).symm⟩
  · exact absurd h (by simp)

theorem insertChunk_change (ht : s.transactions tx = some t)
    (h : s.insertChunk tx t = some s') : Change s (.insertChunk tx) s' := by
  obtain ⟨chunk, chunks, results, hcall, ⟨_, rfl⟩ |
    ⟨rows, insertedIds, hrows, hfresh, hwaits, hreturned, rfl⟩⟩ := insertChunk_cases h
  · exact .called _ tx t .none rfl ht (.inl rfl)
  · exact .insertedChunk tx t chunk chunks results rows insertedIds ht hcall hrows hfresh hwaits
      hreturned

/-- The `SELECT` of a chunk, which adds its answers. -/
theorem findChunk_cases {chunk : List (Stamp × ValidatedInboxEvent)}
    {chunks : List (List (Stamp × ValidatedInboxEvent))} {insertedIds : List EventId}
    {results : List Answer} (hcall : t.call = .finding chunk chunks insertedIds results)
    (h : s.findChunk tx t = some s') :
    ∃ t', t'.given = t.given ++ s.chunkAnswers tx chunk insertedIds ∧
      (t'.call = .none ∨ ∃ results', t'.call = .inserting chunks results') ∧
      s' = s.setTransaction tx (some t') := by
  unfold State.findChunk at h
  rw [hcall] at h
  cases chunks with
  | nil =>
    refine ⟨_, ?_, .inl rfl, (Option.some.inj h).symm⟩
    simp [Transaction.given, hcall, BatchCall.results]
  | cons next chunks =>
    refine ⟨_, ?_, .inr ⟨_, rfl⟩, (Option.some.inj h).symm⟩
    simp [Transaction.given, hcall, BatchCall.results]

theorem findChunk_change (ht : s.transactions tx = some t)
    (h : s.findChunk tx t = some s') : Change s (.findChunk tx) s' := by
  cases hcall : t.call with
  | finding chunk chunks insertedIds results =>
    obtain ⟨t', hgiven, hcall', rfl⟩ := findChunk_cases hcall h
    exact .foundChunk tx t t' chunk chunks insertedIds results ht hcall hgiven hcall'
  | none =>
    rw [State.findChunk, hcall] at h
    exact absurd h (by simp)
  | inserting chunks results =>
    rw [State.findChunk, hcall] at h
    exact absurd h (by simp)

theorem markFailed_change {id : EventId} {error : String} (ht : s.transactions tx = some t)
    (h : s.markFailed tx t id error = some s') : Change s (.markFailed tx id error) s' := by
  unfold State.markFailed at h
  split at h
  · rename_i row _ hrow
    split at h
    · exact absurd h (by simp)
    · rename_i hlocked
      obtain rfl := Option.some.inj h
      exact .marked tx t id error row ht hrow (by simpa using hlocked)
  · obtain rfl := Option.some.inj h
    exact .unchanged _
  · exact absurd h (by simp)

theorem cleanup_change {retentionDays : ℚ}
    (h : s.cleanupProcessedInboxEvents retentionDays = some s') :
    Change s (.cleanupProcessedInboxEvents retentionDays) s' := by
  unfold State.cleanupProcessedInboxEvents at h
  split at h
  · obtain rfl := Option.some.inj h
    exact .unchanged _
  · rename_i hdays
    obtain ⟨hden, hpos⟩ := not_or.mp hdays
    split at h
    · exact absurd h (by simp)
    · rename_i hlocked
      obtain rfl := Option.some.inj h
      refine .cleaned retentionDays ⟨not_not.mp hden, Rat.not_lt.mp hpos⟩ ?_
      intro row hrow hexpired mark hmark hid
      refine hlocked (List.any_eq_true.mpr ⟨row, hrow, ?_⟩)
      rw [hexpired, Bool.true_and]
      exact List.any_eq_true.mpr ⟨mark, hmark, by simpa using hid⟩

theorem commit_cases (h : step s (.commit tx) = some s') :
    ∃ t table, s.transactions tx = some t ∧ t.call = .none ∧
      State.applyMarks s.marks tx s.table = some table ∧ s' = s.finish tx table := by
  obtain ⟨t, ht, h⟩ := Option.bind_eq_some_iff.mp h
  unfold State.commit at h
  split at h
  · rename_i hcall
    obtain ⟨table, htable, rfl⟩ := Option.map_eq_some_iff.mp h
    exact ⟨t, table, ht, hcall, htable, rfl⟩
  · exact absurd h (by simp)

theorem rollback_cases (h : step s (.rollback tx) = some s') :
    ∃ t, s.transactions tx = some t ∧ s' = s.finish tx (s.table.delete (s.owns tx)) := by
  obtain ⟨t, ht, rfl⟩ := Option.map_eq_some_iff.mp h
  exact ⟨t, ht, rfl⟩

theorem change_of_step {a : Action} (h : step s a = some s') : Change s a s' := by
  cases a with
  | tick micros =>
    obtain rfl := Option.some.inj h
    exact .ticked micros
  | begin tx =>
    change s.begin tx = some s' at h
    unfold State.begin at h
    split at h
    · rename_i hnone
      obtain rfl := Option.some.inj h
      exact .began tx hnone
    · exact absurd h (by simp)
  | receive tx client id event =>
    obtain ⟨t, ht, h⟩ := Option.bind_eq_some_iff.mp h
    exact receive_change ht h
  | receiveBatch tx client events =>
    obtain ⟨t, ht, h⟩ := Option.bind_eq_some_iff.mp h
    exact receiveBatch_change ht h
  | insertChunk tx =>
    obtain ⟨t, ht, h⟩ := Option.bind_eq_some_iff.mp h
    exact insertChunk_change ht h
  | findChunk tx =>
    obtain ⟨t, ht, h⟩ := Option.bind_eq_some_iff.mp h
    exact findChunk_change ht h
  | markFailed tx eventId error =>
    obtain ⟨t, ht, h⟩ := Option.bind_eq_some_iff.mp h
    exact markFailed_change ht h
  | commit tx =>
    obtain ⟨t, table, ht, hcall, htable, rfl⟩ := commit_cases h
    exact .committed tx t table ht hcall htable
  | rollback tx =>
    obtain ⟨t, ht, rfl⟩ := rollback_cases h
    exact .rolledBack tx t ht
  | cleanupProcessedInboxEvents retentionDays => exact cleanup_change h

end Outboxy.Inbox
