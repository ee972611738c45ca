import Outboxy.Sdk.AtomicValidation

/-!
# What a bulk insert executes

`bulkInsert` of either client with an arbitrary query function.

* `ensures_inChunks_covers` is the rule for a recursion over slices: what the
  statements of the slices insert is, one behind the other, what the events are
  stored as.
* `bulkInsert_covers`: every statement fits `maxParameters`, the inserts hold
  the rows of the events in order, each once, and the list that is returned has
  one entry for each event in order.  The entries of the inbox client are
  `Answers`: for each slice, its events mapped to what the insert and the lookup
  of this slice say of them.
-/

namespace Outboxy

open Session

variable {α β ι ρ σ : Type} {a : Adapter}

/-! ## Slices -/

/-- The statements that a computation adds are bounded, and the rows that they
insert are those of the events in order. -/
def Adds (bounded : ι → Prop) (rows : ι → List ρ) (IsRow : α → ρ → Prop) (events : List α)
    (before after : List ι) : Prop :=
  ∃ new, after = before ++ new ∧ (∀ statement ∈ new, bounded statement) ∧
    List.Forall₂ IsRow events (new.flatMap rows)

section Slices

variable {bounded : ι → Prop} {rows : ι → List ρ} {IsRow : α → ρ → Prop}

theorem Adds.nil (statements : List ι) : Adds bounded rows IsRow [] statements statements :=
  ⟨[], (List.append_nil _).symm, by simp, .nil⟩

theorem Adds.append {events events' : List α} {before between after : List ι}
    (h : Adds bounded rows IsRow events before between)
    (h' : Adds bounded rows IsRow events' between after) :
    Adds bounded rows IsRow (events ++ events') before after := by
  obtain ⟨new, rfl, hbounded, hrows⟩ := h
  obtain ⟨new', rfl, hbounded', hrows'⟩ := h'
  refine ⟨new ++ new', List.append_assoc _ _ _, ?_, ?_⟩
  · exact fun statement hmem => (List.mem_append.mp hmem).elim (hbounded _) (hbounded' _)
  · rw [List.flatMap_append]
    exact List.rel_append hrows hrows'

/-- The slices together handle all events in order.  When one of them throws,
the statements so far handle a part of the events from the front. -/
theorem ensures_inChunks_covers
    {Answers : List α → List β → Recorded σ ι → Recorded σ ι → Prop} {n : Nat} {hn : 0 < n}
    {slice : List α → EStateM SdkError (Recorded σ ι) (List β)} (hnil : ∀ s, Answers [] [] s s)
    (happend : ∀ xs ys bs cs s s' s'', Answers xs bs s s' → Answers ys cs s' s'' →
      Answers (xs ++ ys) (bs ++ cs) s s'')
    (hslice : ∀ piece s, piece.length ≤ n → Ensures (slice piece) s
      (fun bs s' => Adds bounded rows IsRow piece s.statements s'.statements ∧
        Answers piece bs s s')
      (fun _ s' => ∃ done, done <+: piece ∧
        Adds bounded rows IsRow done s.statements s'.statements))
    (events : List α) (s : Recorded σ ι) :
    Ensures (List.inChunks n hn slice events) s
      (fun bs s' => Adds bounded rows IsRow events s.statements s'.statements ∧
        Answers events bs s s')
      (fun _ s' => ∃ done, done <+: events ∧
        Adds bounded rows IsRow done s.statements s'.statements) := by
  rw [List.inChunks_eq]
  split
  · apply ensures_bind
    -- The slices before `rest` are handled.
    refine (ensures_mapM (fun rest results s' => ∃ handled, handled ++ rest.flatten = events ∧
      (∀ piece ∈ rest, piece.length ≤ n) ∧
        Adds bounded rows IsRow handled s.statements s'.statements ∧
          Answers handled results.flatten s s') ?_ (events.slices n hn) [] ?_).mono
            ?_ (fun _ _ h => h)
    · rintro piece rest results s' ⟨handled, hevents, hlength, hadds, hanswers⟩
      rw [List.flatten_cons, ← List.append_assoc] at hevents
      refine (hslice piece s' (hlength piece List.mem_cons_self)).mono ?_ ?_
      · rintro bs s'' ⟨hadds', hanswers'⟩
        refine ⟨handled ++ piece, hevents, fun p hp => hlength p (List.mem_cons_of_mem _ hp),
          hadds.append hadds', ?_⟩
        rw [List.flatten_append, List.flatten_singleton]
        exact happend _ _ _ _ _ _ _ hanswers hanswers'
      · rintro _ s'' ⟨done, hdone, hadds'⟩
        refine ⟨handled ++ done, ?_, hadds.append hadds'⟩
        rw [← hevents]
        exact ((List.prefix_append_right_inj handled).mpr hdone).trans (List.prefix_append _ _)
    · exact ⟨[], List.flatten_slices events, fun _ => List.length_le_of_mem_slices, .nil _, hnil s⟩
    · rintro results s' ⟨handled, hevents, -, hadds, hanswers⟩
      rw [List.flatten_nil, List.append_nil] at hevents
      subst hevents
      exact ensures_pure ⟨hadds, hanswers⟩
  · rename_i hshort
    exact hslice events s (Nat.not_lt.mp hshort)

/-- Slices that all return make a call that returns. -/
theorem ensures_inChunks_returns {serializes : α → Prop} {n : Nat} {hn : 0 < n}
    {slice : List α → EStateM SdkError (Recorded σ ι) (List β)}
    (hslice : ∀ piece s, piece ≠ [] → (∀ x ∈ piece, serializes x) →
      Ensures (slice piece) s (fun _ _ => True) (fun _ _ => False))
    {events : List α} (hne : events ≠ []) (hall : ∀ event ∈ events, serializes event)
    (s : Recorded σ ι) :
    Ensures (List.inChunks n hn slice events) s (fun _ _ => True) (fun _ _ => False) := by
  rw [List.inChunks_eq]
  split
  · apply ensures_bind
    refine (ensures_mapM (fun rest _ _ => ∀ piece ∈ rest, piece ≠ [] ∧ ∀ x ∈ piece, serializes x)
      ?_ (events.slices n hn) [] ?_).mono (fun _ _ _ => ensures_pure trivial) (fun _ _ h => h)
    · intro piece rest _ s hrest
      rw [List.forall_mem_cons] at hrest
      exact (hslice piece s hrest.1.1 hrest.1.2).mono (fun _ _ _ => hrest.2) (fun _ _ h => h)
    · intro piece hpiece
      exact ⟨List.ne_nil_of_mem_slices hpiece,
        fun x hx => hall x ((List.sublist_of_mem_slices hpiece).subset hx)⟩
  · exact hslice events s hne hall

end Slices

/-- The database answers every statement. -/
def AnswersAll (query : QueryFn ι σ) : Prop :=
  ∀ statement s, ∃ answer, (query statement).run s = .ok answer

theorem AnswersAll.not_error {query : QueryFn ι σ} (h : AnswersAll query) :
    ∀ statement s e, (query statement).run s = .error e → False := by
  intro statement s e herror
  obtain ⟨answer, hanswer⟩ := h statement s
  exact absurd (herror.symm.trans hanswer) (by simp)

/-! ## The outbox client -/

/-- The row that a bulk insert binds for an event. -/
def OutboxyClient.InsertsRow (client : OutboxyClient a) (event : Stamp × ValidatedEvent)
    (row : OutboxEvent) : Prop :=
  ∃ values, client.baseValues event.2 = .ok values ∧ values.row event.1.id event.1.now = row

/-- The database answers an insert with one row for each inserted row, in
order. -/
def ReturnsRows (query : QueryFn OutboxStatement σ) : Prop :=
  ∀ rows s answer s', (query ⟨rows⟩).run s = .ok (answer, s') →
    answer.map QueryRow.id = rows.map OutboxEvent.id

/-- The statement binds no more parameters than the dialect allows. -/
def OutboxyClient.Fits (client : OutboxyClient a) (statement : OutboxStatement) : Prop :=
  (statement.build a).params.length ≤ client.dialect.maxParameters

/-- The statements of a bulk insert for the events. -/
abbrev OutboxyClient.Inserts (client : OutboxyClient a) :
    List (Stamp × ValidatedEvent) → List OutboxStatement → List OutboxStatement → Prop :=
  Adds client.Fits OutboxStatement.rows client.InsertsRow

section Outbox

variable {client : OutboxyClient a}

theorem insertsRow_of_bulkRows {events : List (Stamp × ValidatedEvent)} {rows : List OutboxEvent}
    (h : client.bulkRows events = .ok rows) : List.Forall₂ client.InsertsRow events rows := by
  refine (List.mapM_eq_ok_iff.mp h).imp fun event row hrow => ?_
  obtain ⟨values, hvalues, hrow⟩ := bind_eq_ok.mp hrow
  exact ⟨values, hvalues, Except.ok.inj hrow⟩

theorem id_of_insertsRow {events : List (Stamp × ValidatedEvent)} {rows : List OutboxEvent}
    (h : List.Forall₂ client.InsertsRow events rows) :
    rows.map OutboxEvent.id = events.map fun event => event.1.id := by
  induction h with
  | nil => rfl
  | cons hrow _ ih =>
    obtain ⟨values, -, rfl⟩ := hrow
    rw [List.map_cons, List.map_cons, ih]
    rfl

/-- A slice is one statement, which fits. -/
theorem ensures_outbox_slice (query : QueryFn OutboxStatement σ)
    (piece : List (Stamp × ValidatedEvent)) (s : Recorded σ OutboxStatement)
    (hlength : piece.length ≤ client.maxEventsPerBatch) :
    Ensures (client.insertSliceWith query piece) s
      (fun ids s' => client.Inserts piece s.statements s'.statements ∧
        ((a = .postgres → ReturnsRows query) → ids = piece.map fun event => event.1.id))
      (fun _ s' => ∃ done, done <+: piece ∧ client.Inserts done s.statements s'.statements) := by
  unfold OutboxyClient.insertSliceWith
  apply ensures_bind
  apply ensures_ofExcept
  · intro rows hrows
    have hrow := insertsRow_of_bulkRows hrows
    have hinserts : client.Inserts piece s.statements (s.statements ++ [⟨rows⟩]) := by
      refine ⟨[⟨rows⟩], rfl, fun statement hstatement => ?_, by simpa using hrow⟩
      obtain rfl := List.mem_singleton.mp hstatement
      rw [OutboxyClient.Fits, OutboxStatement.length_params_build, ← hrow.length_eq]
      rw [Nat.mul_comm]
      exact Nat.mul_le_of_le_div _ _ _ hlength
    apply ensures_bind
    apply ensures_record
    · intro answer state hanswer
      split
      · rename_i hreturning
        refine ensures_pure ⟨hinserts, fun hreturns => ?_⟩
        have ha : a = .postgres := by
          cases a with
          | postgres => rfl
          | mysql => exact absurd hreturning (by simp [Adapter.supportsReturning])
        rw [hreturns ha rows _ _ _ hanswer, id_of_insertsRow hrow]
      · exact ensures_pure ⟨hinserts, fun _ => rfl⟩
    · exact fun e _ => ⟨piece, List.prefix_rfl, hinserts⟩
  · exact fun e _ => ⟨[], List.nil_prefix, .nil _⟩

end Outbox

/-! ## The inbox client -/

/-- The row that a bulk insert binds for an event. -/
def InboxyClient.InsertsRow (event : Stamp × ValidatedInboxEvent) (row : InboxEvent) : Prop :=
  event.2.row event.1 = .ok row

/-- The statement binds no more parameters than the dialect allows. -/
def InboxyClient.Fits (client : InboxyClient a) (statement : InboxStatement) : Prop :=
  (statement.build a).params.length ≤ client.dialect.maxParameters

/-- The statements of a bulk insert for the events. -/
abbrev InboxyClient.Inserts (client : InboxyClient a) :
    List (Stamp × ValidatedInboxEvent) → List InboxStatement → List InboxStatement → Prop :=
  Adds client.Fits InboxStatement.rows InboxyClient.InsertsRow

/-- The slice was inserted and its keys were looked up, and the results are the
answers for its events in order, from the ids that the insert returned and the
rows that the lookup found. -/
def InboxyClient.AnswersSlice (a : Adapter) (query : QueryFn InboxStatement σ)
    (piece : List (Stamp × ValidatedInboxEvent)) (results : List InboxReceiveResult)
    (before after : Recorded σ InboxStatement) : Prop :=
  ∃ rows resultRows checkRows state,
    bulkRows piece = .ok rows ∧
    (query (.bulkInsert rows)).run before.state = .ok (resultRows, state) ∧
    (query (.findByIdempotencyKeys (piece.map fun event => event.2.idempotencyKey))).run state =
      .ok (checkRows, after.state) ∧
    after.statements = before.statements ++ [.bulkInsert rows,
      .findByIdempotencyKeys (piece.map fun event => event.2.idempotencyKey)] ∧
    results = piece.map fun event =>
      batchResult a (resultRows.map QueryRow.id)
        (OrderedMap.ofList QueryRow.idempotencyKey QueryRow.id checkRows) event.1 event.2

/-- The results are those of slices that make up the events. -/
inductive InboxyClient.Answers (a : Adapter) (query : QueryFn InboxStatement σ) :
    List (Stamp × ValidatedInboxEvent) → List InboxReceiveResult →
      Recorded σ InboxStatement → Recorded σ InboxStatement → Prop where
  | nil (s : Recorded σ InboxStatement) : Answers a query [] [] s s
  | snoc {events piece : List (Stamp × ValidatedInboxEvent)}
    {results answers : List InboxReceiveResult} {s s' s'' : Recorded σ InboxStatement}
    (hevents : Answers a query events results s s')
    (hpiece : InboxyClient.AnswersSlice a query piece answers s' s'') :
    Answers a query (events ++ piece) (results ++ answers) s s''

namespace InboxyClient.Answers

variable {query : QueryFn InboxStatement σ} {events events' : List (Stamp × ValidatedInboxEvent)}
  {results results' : List InboxReceiveResult} {s s' s'' : Recorded σ InboxStatement}

theorem of_slice (h : AnswersSlice a query events results s s') :
    Answers a query events results s s' :=
  (Answers.nil s).snoc h

theorem append (h : Answers a query events results s s')
    (h' : Answers a query events' results' s' s'') :
    Answers a query (events ++ events') (results ++ results') s s'' := by
  induction h' with
  | nil => rwa [List.append_nil, List.append_nil]
  | snoc _ hpiece ih =>
    rw [← List.append_assoc, ← List.append_assoc]
    exact (ih h).snoc hpiece

/-- There is one result for each event. -/
theorem length_eq (h : Answers a query events results s s') :
    results.length = events.length := by
  induction h with
  | nil => rfl
  | snoc _ hpiece ih =>
    obtain ⟨_, _, _, _, _, _, _, _, rfl⟩ := hpiece
    rw [List.length_append, List.length_append, List.length_map, ih]

end InboxyClient.Answers

section Inbox

variable {client : InboxyClient a}

theorem fits_of_length {piece : List (Stamp × ValidatedInboxEvent)}
    (hlength : piece.length ≤ client.maxEventsPerBatch) :
    a.inboxParameters * piece.length ≤ client.dialect.maxParameters := by
  rw [Nat.mul_comm]
  exact Nat.mul_le_of_le_div _ _ _ hlength

/-- The insert of a slice fits, and inserts it. -/
theorem inserts_bulkInsert {piece : List (Stamp × ValidatedInboxEvent)} {rows : List InboxEvent}
    (hlength : piece.length ≤ client.maxEventsPerBatch)
    (hrow : List.Forall₂ InboxyClient.InsertsRow piece rows) (old : List InboxStatement) :
    client.Inserts piece old (old ++ [.bulkInsert rows]) := by
  have hinsertFits : client.Fits (.bulkInsert rows) := by
    rw [InboxyClient.Fits, InboxStatement.length_params_bulkInsert, ← hrow.length_eq]
    exact fits_of_length hlength
  refine ⟨[.bulkInsert rows], rfl, by simpa using hinsertFits, ?_⟩
  simpa [InboxStatement.rows] using hrow

/-- The lookup of the keys of a slice fits, and inserts nothing. -/
theorem inserts_findByIdempotencyKeys {piece : List (Stamp × ValidatedInboxEvent)}
    (hlength : piece.length ≤ client.maxEventsPerBatch) (old : List InboxStatement) :
    client.Inserts [] old
      (old ++ [.findByIdempotencyKeys (piece.map fun event => event.2.idempotencyKey)]) := by
  refine ⟨[_], rfl, fun statement hstatement => ?_, .nil⟩
  obtain rfl := List.mem_singleton.mp hstatement
  rw [InboxyClient.Fits, InboxStatement.length_params_find, List.length_map]
  refine Nat.le_trans (Nat.le_mul_of_pos_left _ ?_) (fits_of_length hlength)
  cases a <;> decide

/-- A slice is an insert and a lookup, which fit. -/
theorem ensures_inbox_slice (query : QueryFn InboxStatement σ)
    (piece : List (Stamp × ValidatedInboxEvent)) (s : Recorded σ InboxStatement)
    (hlength : piece.length ≤ client.maxEventsPerBatch) :
    Ensures (client.insertSliceWith query piece) s
      (fun results s' => client.Inserts piece s.statements s'.statements ∧
        InboxyClient.Answers a query piece results s s')
      (fun _ s' => ∃ done, done <+: piece ∧ client.Inserts done s.statements s'.statements) := by
  unfold InboxyClient.insertSliceWith
  apply ensures_bind
  apply ensures_ofExcept
  · intro rows hrows
    have hinsert := inserts_bulkInsert hlength (List.mapM_eq_ok_iff.mp hrows) s.statements
    have hboth := hinsert.append (inserts_findByIdempotencyKeys hlength _)
    rw [List.append_nil] at hboth
    apply ensures_bind
    apply ensures_record
    · intro answer state hanswer
      apply ensures_bind
      unfold InboxyClient.findWith
      split
      · exact ensures_throw ⟨piece, List.prefix_rfl, hinsert⟩
      · refine ensures_record (fun checkRows state' hfound => ?_) (fun e _ => ?_)
        · refine ensures_pure ⟨hboth, .of_slice ?_⟩
          exact ⟨rows, answer, checkRows, state, hrows, hanswer, hfound,
            List.append_assoc _ _ _, rfl⟩
        · exact ⟨piece, List.prefix_rfl, hboth⟩
    · exact fun e _ => ⟨piece, List.prefix_rfl, hinsert⟩
  · exact fun e _ => ⟨[], List.nil_prefix, .nil _⟩

end Inbox

/-! ## Both bulk inserts -/

/-- What a bulk insert executes, and what it returns.  It returns when the
database answers its statements and its events can be serialized. -/
theorem bulkInsert_covers :
    (∀ a (client : OutboxyClient a) σ (query : QueryFn OutboxStatement σ) (s : σ)
        (events : List (Stamp × ValidatedEvent)),
      Ensures (client.bulkInsertWith query events) ⟨s, []⟩
        (fun ids s' => client.Inserts events [] s'.statements ∧
          ((a = .postgres → ReturnsRows query) → ids = events.map fun event => event.1.id))
        (fun _ s' => ∃ done, done <+: events ∧ client.Inserts done [] s'.statements) ∧
      (AnswersAll query → events ≠ [] → (∀ event ∈ events, client.Serializes event) →
        succeeds (client.bulkInsertWith query events) ⟨s, []⟩ = true)) ∧
    (∀ a (client : InboxyClient a) σ (query : QueryFn InboxStatement σ) (s : σ)
        (events : List (Stamp × ValidatedInboxEvent)),
      Ensures (client.bulkInsertWith query events) ⟨s, []⟩
        (fun results s' => client.Inserts events [] s'.statements ∧
          InboxyClient.Answers a query events results ⟨s, []⟩ s')
        (fun _ s' => ∃ done, done <+: events ∧ client.Inserts done [] s'.statements) ∧
      (AnswersAll query → events ≠ [] → (∀ event ∈ events, InboxyClient.Serializes event) →
        succeeds (client.bulkInsertWith query events) ⟨s, []⟩ = true)) := by
  constructor
  · intro a client σ query s events
    constructor
    · refine ensures_inChunks_covers (fun _ _ => rfl) ?_ (ensures_outbox_slice query) events _
      intro xs ys bs cs _ _ _ hxs hys hreturns
      rw [hxs hreturns, hys hreturns, List.map_append]
    · intro hanswers hne hall
      refine succeeds_of_ensures (ensures_inChunks_returns (fun piece s _ hpiece => ?_) hne hall _)
      exact (ensures_answered_outbox hanswers.not_error s hpiece).mono (fun _ _ _ => trivial)
        (fun _ _ h => h)
  · intro a client σ query s events
    constructor
    · refine ensures_inChunks_covers .nil ?_ (ensures_inbox_slice query) events _
      exact fun xs ys bs cs _ _ _ hxs hys => hxs.append hys
    · intro hanswers hne hall
      refine succeeds_of_ensures (ensures_inChunks_returns (fun piece s hpiece hserial => ?_) hne
        hall _)
      exact (ensures_answered_inbox hanswers.not_error s hpiece hserial).mono
        (fun _ _ _ => trivial) (fun _ _ h => h)

namespace Sample

def validated (key : String) : ValidatedEvent :=
  ⟨"order", "1", "created", 1, .json .null, .json (.obj []), "http://localhost", .http, some key, 5,
    .json (.obj [])⟩

def validatedReceived (key : String) : ValidatedInboxEvent :=
  ⟨key, "order", "1", "created", 1, .json .null, none, .json (.obj []), .json (.obj [])⟩

/-- A database that stores nothing and returns the ids. -/
def echo : QueryFn OutboxStatement Unit := fun statement =>
  pure (statement.rows.map fun row => ⟨row.id, none⟩)

end Sample

/-- Two events in slices of one. -/
theorem bulkInsert_covers_small :
    (∃ ids s', (Sample.smallOutboxyClient.bulkInsertWith Sample.echo
        [(⟨"1", 0⟩, Sample.validated "order-1"), (⟨"2", 0⟩, Sample.validated "order-2")]).run
          ⟨(), []⟩ = .ok ids s' ∧ ids = ["1", "2"] ∧
        ∀ statement ∈ s'.statements, (statement.build .postgres).params.length ≤ 12) ∧
    ∃ results s', (Sample.smallInboxyClient.bulkInsertWith (fun _ => pure [])
        [(⟨"1", 0⟩, Sample.validatedReceived "order-1"),
          (⟨"2", 0⟩, Sample.validatedReceived "order-2")]).run
          ⟨(), []⟩ = .ok results s' ∧ results.length = 2 ∧
        ∀ statement ∈ s'.statements, (statement.build .postgres).params.length ≤ 10 := by
  constructor
  · obtain ⟨hcovers, hreturns⟩ := bulkInsert_covers.1 .postgres Sample.smallOutboxyClient Unit
      Sample.echo () [(⟨"1", 0⟩, Sample.validated "order-1"),
        (⟨"2", 0⟩, Sample.validated "order-2")]
    obtain ⟨ids, s', hrun⟩ := exists_ok_of_succeeds (hreturns (fun _ _ => ⟨_, rfl⟩) (by simp)
      (by simp [Sample.validated, Sample.smallOutboxyClient, Sample.outboxyClient,
        OutboxyClient.Serializes, JsValue.Serializable]))
    obtain ⟨⟨new, hnew, hfits, -⟩, hids⟩ := hcovers.of_ok hrun
    refine ⟨ids, s', hrun, hids fun _ rows s answer s' hanswer => ?_, ?_⟩
    · obtain ⟨rfl, rfl⟩ := Prod.mk.inj (Except.ok.inj hanswer)
      rw [List.map_map]
      rfl
    · rw [hnew]
      exact hfits
  · obtain ⟨hcovers, hreturns⟩ := bulkInsert_covers.2 .postgres Sample.smallInboxyClient Unit
      (fun _ => pure []) () [(⟨"1", 0⟩, Sample.validatedReceived "order-1"),
        (⟨"2", 0⟩, Sample.validatedReceived "order-2")]
    obtain ⟨results, s', hrun⟩ := exists_ok_of_succeeds (hreturns (fun _ _ => ⟨_, rfl⟩) (by simp)
      (by simp [Sample.validatedReceived, InboxyClient.Serializes, JsValue.Serializable]))
    obtain ⟨⟨new, hnew, hfits, -⟩, hanswers⟩ := hcovers.of_ok hrun
    refine ⟨results, s', hrun, hanswers.length_eq, ?_⟩
    rw [hnew]
    exact hfits

end Outboxy
