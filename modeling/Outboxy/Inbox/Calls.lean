import Outboxy.Inbox.Invariants

/-!
# The steps of a batch call

`receiveBatch_run`: while no other transaction has inserted rows, the steps of
a call of `receiveBatch` leave the table and the answers that the client's
`receiveBatch` computes.
-/

namespace Outboxy.Inbox

variable {s : State} {tx : TransactionId} {t : Transaction} {client : InboxyClient .postgres}

/-- No other transaction has inserted a row. -/
def Alone (s : State) (tx : TransactionId) : Prop := ∀ entry ∈ s.inserted, entry.1 = tx

theorem hidden_of_alone (h : Alone s tx) (row : InboxEvent) : s.hidden tx row = false := by
  rw [Bool.eq_false_iff, Ne, hidden_iff]
  intro hhidden
  obtain ⟨tx', hne, hentry⟩ := hhidden
  exact hne (h _ hentry)

theorem view_of_alone (h : Alone s tx) : s.view tx = s.table := by
  have hrows : (s.view tx).rows = s.table.rows :=
    List.filter_eq_self.mpr fun row _ => by rw [hidden_of_alone h row]; rfl
  generalize s.view tx = view at hrows
  cases view
  cases htable : s.table
  rw [htable] at hrows
  cases hrows
  rfl

theorem waits_of_alone (h : Alone s tx) (key : String) : s.waits tx key = false := by
  rw [Bool.eq_false_iff, Ne, State.waits, List.any_eq_true]
  intro hwaits
  obtain ⟨row, _, hwait⟩ := hwaits
  rw [hidden_of_alone h row, Bool.and_false] at hwait
  exact absurd hwait (by simp)

theorem alone_store (h : Alone s tx) (table : InboxTable Adapter.postgres.collate)
    (ids : List EventId) : Alone (s.store tx table ids) tx := by
  intro entry hentry
  rcases mem_store_inserted.mp hentry with ⟨htx, _⟩ | hold
  · exact htx
  · exact h entry hold

/-- The results for a list of events, under their keys. -/
def answersFor (events : List (Stamp × ValidatedInboxEvent)) (results : List InboxReceiveResult) :
    List Answer :=
  (events.map fun event => event.2.idempotencyKey).zip results

theorem answersFor_append {events events' : List (Stamp × ValidatedInboxEvent)}
    {results results' : List InboxReceiveResult} (h : results.length = events.length) :
    answersFor (events ++ events') (results ++ results') =
      answersFor events results ++ answersFor events' results' := by
  unfold answersFor
  rw [List.map_append, List.zip_append (by rw [List.length_map, h])]

/-- The `INSERT` of a chunk stores its rows. -/
theorem step_insertChunk {chunk : List (Stamp × ValidatedInboxEvent)}
    {chunks : List (List (Stamp × ValidatedInboxEvent))} {results : List Answer}
    {rows : List InboxEvent} {inserted : List QueryRow} (ht : s.transactions tx = some t)
    (hcall : t.call = .inserting (chunk :: chunks) results) (halone : Alone s tx)
    (hrows : AreRows chunk rows) (hfresh : s.table.Fresh rows)
    (hbulk : PostgreSqlInboxDialect.buildInboxBulkInsert rows s.table =
      some (inserted, s.table.insertFree rows)) :
    step s (.insertChunk tx) =
      some ((s.store tx (s.table.insertFree rows) (rows.map InboxEvent.id)).setTransaction tx
        (some { t with call := .finding chunk chunks (inserted.map QueryRow.id) results })) := by
  show (s.transactions tx).bind _ = _
  have hguard : ¬ ((rows.any fun row => (s.table.lookup row.id).isSome ||
      s.waits tx row.idempotencyKey) ∨ ¬ (rows.map InboxEvent.id).Nodup) := by
    refine not_or.mpr ⟨?_, not_not.mpr hfresh.distinct⟩
    rw [List.any_eq_true]
    intro hbad
    obtain ⟨row, hrow, hbad⟩ := hbad
    rw [hfresh.new row hrow, waits_of_alone halone] at hbad
    exact absurd hbad (by simp)
  rw [ht, Option.bind_some, State.insertChunk, hcall]
  simp only [bulkRows_of_areRows hrows]
  rw [if_neg hguard, hbulk]
  rfl

/-- The two steps of a chunk do what `insertSlice` does. -/
theorem run_chunk {chunk : List (Stamp × ValidatedInboxEvent)}
    {chunks : List (List (Stamp × ValidatedInboxEvent))} {results : List Answer}
    {rows : List InboxEvent} (ht : s.transactions tx = some t)
    (hcall : t.call = .inserting (chunk :: chunks) results) (halone : Alone s tx)
    (hrows : AreRows chunk rows) (hne : chunk ≠ []) (hfresh : s.table.Fresh rows) :
    ∃ chunkResults s₁ s₂,
      (client.insertSlice chunk).run s.table = .ok (chunkResults, s.table.insertFree rows) ∧
      chunkResults.length = chunk.length ∧ step s (.insertChunk tx) = some s₁ ∧
      step s₁ (.findChunk tx) = some s₂ ∧ s₂.table = s.table.insertFree rows ∧ Alone s₂ tx ∧
      s₂.transactions tx = some (match chunks with
        | [] => { t with
            call := .none
            answers := t.answers ++ (results ++ answersFor chunk chunkResults) }
        | _ =>
          { t with call := .inserting chunks (results ++ answersFor chunk chunkResults) }) := by
  obtain ⟨inserted, hbulk, _⟩ := buildInboxBulkInsert_postgres hfresh
  let final := s.store tx (s.table.insertFree rows) (rows.map InboxEvent.id)
  let finding : Transaction :=
    { t with call := .finding chunk chunks (inserted.map QueryRow.id) results }
  let s₁ := final.setTransaction tx (some finding)
  have hinsertStep : step s (.insertChunk tx) = some s₁ :=
    step_insertChunk ht hcall halone hrows hfresh hbulk
  have halone₁ : Alone s₁ tx := alone_store halone _ _
  have hview : s₁.view tx = s.table.insertFree rows := view_of_alone halone₁
  refine ⟨chunk.map fun event => InboxyClient.batchResult .postgres (inserted.map QueryRow.id)
    (keyToId (chunk.map fun event => event.2.idempotencyKey) (s.table.insertFree rows))
      event.1 event.2, s₁, ?_⟩
  have hanswers : s₁.chunkAnswers tx chunk (inserted.map QueryRow.id) = answersFor chunk
      (chunk.map fun event => InboxyClient.batchResult .postgres (inserted.map QueryRow.id)
        (keyToId (chunk.map fun event => event.2.idempotencyKey) (s.table.insertFree rows))
          event.1 event.2) := by
    unfold State.chunkAnswers answersFor
    rw [hview, List.zip_map']
    rfl
  have hslice := run_inboxInsertSlice client hrows hne (run_inboxBulkInsert_postgres hbulk)
  have hfindStep : ∀ t', s₁.findChunk tx finding = some (s₁.setTransaction tx (some t')) →
      step s₁ (.findChunk tx) = some (s₁.setTransaction tx (some t')) := by
    intro t' hfind
    show (s₁.transactions tx).bind _ = _
    rw [State.setTransaction_self, Option.bind_some]
    exact hfind
  rw [← hanswers]
  cases chunks with
  | nil =>
    exact ⟨_, hslice, List.length_map _, hinsertStep, hfindStep _ rfl, rfl, halone₁,
      State.setTransaction_self _ _ _⟩
  | cons next chunks =>
    exact ⟨_, hslice, List.length_map _, hinsertStep, hfindStep _ rfl, rfl, halone₁,
      State.setTransaction_self _ _ _⟩

/-- Chunk after chunk. -/
theorem run_chunks {chunks : List (List (Stamp × ValidatedInboxEvent))} {results : List Answer}
    {rows : List InboxEvent} (ht : s.transactions tx = some t)
    (hcall : t.call = .inserting chunks results) (hne : chunks ≠ []) (halone : Alone s tx)
    (hrows : AreRows chunks.flatten rows) (hchunks : ∀ chunk ∈ chunks, chunk ≠ [])
    (hfresh : s.table.Fresh rows) :
    ∃ resultss s', (chunks.mapM client.insertSlice).run s.table = .ok (resultss, s'.table) ∧
      inbox.run s (chunks.flatMap fun _ => [.insertChunk tx, .findChunk tx]) = some s' ∧
      s'.transactions tx = some { t with
        call := .none
        answers := t.answers ++ (results ++ answersFor chunks.flatten resultss.flatten) } := by
  induction chunks generalizing s t results rows with
  | nil => exact absurd rfl hne
  | cons chunk chunks ih =>
    obtain ⟨first, rest, hfirst, hrest, rfl⟩ :
        ∃ first rest, AreRows chunk first ∧ AreRows chunks.flatten rest ∧ rows = first ++ rest := by
      have htake := List.forall₂_take chunk.length hrows
      have hdrop := List.forall₂_drop chunk.length hrows
      rw [List.flatten_cons, List.take_left] at htake
      rw [List.flatten_cons, List.drop_left] at hdrop
      exact ⟨_, _, htake, hdrop, (List.take_append_drop _ _).symm⟩
    obtain ⟨chunkResults, s₁, s₂, hslice, hlength, hinsertStep, hfindStep, htable, halone₂, ht₂⟩ :=
      run_chunk ht hcall halone hfirst (hchunks chunk List.mem_cons_self)
        hfresh.left
    have htwo : inbox.run s [.insertChunk tx, .findChunk tx] = some s₂ := by
      have hinsert : inbox.step s (.insertChunk tx) = some s₁ := hinsertStep
      rw [Transition.System.run_cons, hinsert, Option.bind_some, Transition.System.run_singleton]
      exact hfindStep
    cases chunks with
    | nil =>
      refine ⟨[chunkResults], s₂, ?_, htwo, ?_⟩
      · rw [htable]
        exact List.run_mapM_cons hslice rfl
      · rw [ht₂]
        simp
    | cons next chunks =>
      obtain ⟨resultss, s', hslices, hrun, ht'⟩ := ih (t := { t with
          call := .inserting (next :: chunks) (results ++ answersFor chunk chunkResults) })
        ht₂ rfl (by simp) halone₂ hrest (fun c hc => hchunks c (List.mem_cons_of_mem _ hc))
        (htable ▸ hfresh.right)
      refine ⟨chunkResults :: resultss, s', List.run_mapM_cons hslice (htable ▸ hslices), ?_, ?_⟩
      · rw [List.flatMap_cons]
        exact Transition.System.run_append_eq_some inbox htwo hrun
      · rw [ht']
        simp only [List.flatten_cons, answersFor_append hlength, List.append_assoc]

/-- The chunks of a call hold its events. -/
theorem flatten_chunks (client : InboxyClient .postgres)
    (events : List (Stamp × ValidatedInboxEvent)) :
    (client.chunks events).flatten = events := by
  unfold InboxyClient.chunks
  split
  · exact List.flatten_slices events
  · exact List.append_nil _

/-- Inserting them is `bulkInsert`. -/
theorem bulkInsert_of_chunks {events : List (Stamp × ValidatedInboxEvent)}
    {table table' : InboxTable Adapter.postgres.collate} {resultss : List (List InboxReceiveResult)}
    (h : ((client.chunks events).mapM client.insertSlice).run table = .ok (resultss, table')) :
    (client.bulkInsert events).run table = .ok (resultss.flatten, table') := by
  unfold InboxyClient.chunks at h
  unfold InboxyClient.bulkInsert
  split at h
  · rename_i hlong
    rw [if_pos hlong, run_bind_ok h]
    rfl
  · rename_i hshort
    rw [if_neg hshort]
    obtain ⟨results, table₁, rest, hslice, hrest, rfl⟩ := List.run_mapM_cons_eq_ok h
    obtain ⟨rfl, rfl⟩ := Prod.mk.inj (Except.ok.inj hrest)
    rw [hslice]
    simp

theorem ne_nil_of_mem_chunks {events chunk : List (Stamp × ValidatedInboxEvent)}
    (hne : events ≠ []) (hchunk : chunk ∈ client.chunks events) : chunk ≠ [] := by
  unfold InboxyClient.chunks at hchunk
  split at hchunk
  · exact List.ne_nil_of_mem_slices hchunk
  · obtain rfl := List.mem_singleton.mp hchunk
    exact hne

/-- A call of `receiveBatch` by steps: it answers, and leaves the table, as the
client's `receiveBatch` does at once. -/
theorem receiveBatch_run (ht : s.transactions tx = some t) (hcall : t.call = .none)
    (halone : Alone s tx) {events : List (EventId × InboxReceiveEventInput)}
    {stamped : List (Stamp × InboxReceiveEventInput)}
    (hstamped : stamped = events.map fun event => (⟨event.1, t.startedAt⟩, event.2))
    (hvalid : ∀ event ∈ stamped, client.ValidEvent event.2)
    (hkeys : (stamped.map fun event => event.2.idempotencyKey).Nodup)
    (hids : NewIds stamped s.table) :
    ∃ results as s', (client.receiveBatch stamped).run s.table = .ok (results, s'.table) ∧
      inbox.run s (.receiveBatch tx client events :: as) = some s' ∧
      s'.transactions tx = some { t with
        answers := t.answers ++
          (stamped.map fun event => event.2.idempotencyKey).zip results } := by
  obtain ⟨rows, hrows⟩ := exists_rows hvalid
  have hfresh := fresh_of_rows hrows hids
  obtain ⟨validated, hvalidated, hareRows, _, hvalidatedKeys⟩ :=
    exists_validated Adapter.postgres.collate hrows 0
  cases stamped with
  | nil =>
    obtain rfl := List.map_eq_nil_iff.mp hstamped.symm
    refine ⟨[], [], s, rfl, ?_, ?_⟩
    · rw [Transition.System.run_singleton]
      show (s.transactions tx).bind _ = _
      rw [ht, Option.bind_some, State.receiveBatch, hcall]
      rfl
    · rw [ht, List.zip_nil_right, List.append_nil]
  | cons event stamped =>
    have hne : validated ≠ [] := by
      rintro rfl
      exact absurd hvalidatedKeys (by simp)
    have hchunks : client.chunks validated ≠ [] := by
      intro hnil
      have hflatten := flatten_chunks client validated
      rw [hnil] at hflatten
      exact hne hflatten.symm
    have hstep : step s (.receiveBatch tx client events) = some (s.setTransaction tx
        (some { t with call := .inserting (client.chunks validated) [] })) := by
      show (s.transactions tx).bind _ = _
      have hevents : events.isEmpty = false := by
        cases events with
        | nil => exact absurd hstamped (by simp)
        | cons => rfl
      rw [ht, Option.bind_some, State.receiveBatch, hcall, ← hstamped, hvalidated, hevents]
      exact if_pos (hvalidatedKeys ▸ hkeys)
    obtain ⟨resultss, s', hslices, hrun, ht'⟩ := run_chunks
      (s := s.setTransaction tx (some { t with call := .inserting (client.chunks validated) [] }))
      (State.setTransaction_self _ _ _) rfl hchunks halone
      ((flatten_chunks client validated).symm ▸ hareRows)
      (fun chunk hchunk => ne_nil_of_mem_chunks hne hchunk) hfresh
    refine ⟨resultss.flatten, (client.chunks validated).flatMap fun _ => [.insertChunk tx,
      .findChunk tx], s', ?_, ?_, ?_⟩
    · unfold InboxyClient.receiveBatch
      rw [if_neg (by simp), run_bind_ok (run_liftM hvalidated),
        if_pos (hvalidatedKeys ▸ hkeys)]
      exact bulkInsert_of_chunks hslices
    · rw [Transition.System.run_cons]
      exact (congrArg (Option.bind · _) hstep).trans hrun
    · rw [ht', flatten_chunks, answersFor, hvalidatedKeys, hcall]
      rfl

end Outboxy.Inbox
