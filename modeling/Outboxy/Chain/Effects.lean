import Outboxy.Chain.Steps
import Outboxy.Inbox.ExactlyOnce

/-!
# What the inbox remembers of the chain

The inbox of the consumer remembers exactly the keys whose events have taken
effect since their last cleanup (`InboxInv.effects`).  The invariant is proved
for the handler that takes a step and, by `Frame`, for all the others.
-/

namespace Outboxy.Chain

open Inbox (TransactionId)

variable {consumer : Consumer} {s s' : State} {tx : TransactionId} {a : Action}

/-! ## What happened -/

/-- An event with the key has taken effect. -/
def TookEffect (s : State) (key : String) : Prop :=
  ∃ event published, .committed event published ∈ s.history ∧ event.idempotencyKey = key

theorem exists_committed_of_effectsSince {key : String} {history : List Entry}
    (h : 0 < effectsSince key history) :
    ∃ event published, .committed event published ∈ history ∧ event.idempotencyKey = key := by
  induction history with
  | nil => exact absurd h (by simp [effectsSince])
  | cons entry history ih =>
    have hlater : 0 < effectsSince key history → ∃ event published,
        .committed event published ∈ entry :: history ∧ event.idempotencyKey = key := by
      intro hpos
      obtain ⟨event, published, hmem, hkey⟩ := ih hpos
      exact ⟨event, published, List.mem_cons_of_mem _ hmem, hkey⟩
    cases entry with
    | committed event published =>
      by_cases hkey : event.idempotencyKey = key
      · exact ⟨event, published, List.mem_cons_self, hkey⟩
      · rw [effectsSince, if_neg hkey] at h
        exact hlater h
    | produced rows => exact hlater h
    | cleaned rows =>
      rw [effectsSince] at h
      split at h
      · exact absurd h (by simp)
      · exact hlater h

/-- The entry is an effect of an event with the key. -/
def Entry.takesEffect (key : String) : Entry → Bool
  | .committed event _ => decide (event.idempotencyKey = key)
  | _ => false

/-- No cleanup has deleted the key. -/
def Uncleaned (key : String) (history : List Entry) : Prop :=
  ∀ rows, .cleaned rows ∈ history → ∀ row ∈ rows, row.idempotencyKey ≠ key

/-- Without a cleanup, all effects count. -/
theorem effectsSince_of_uncleaned {key : String} {history : List Entry}
    (h : Uncleaned key history) :
    effectsSince key history = history.countP (Entry.takesEffect key) := by
  induction history with
  | nil => rfl
  | cons entry history ih =>
    have ih := ih fun rows hrows => h rows (List.mem_cons_of_mem _ hrows)
    rw [List.countP_cons]
    cases entry with
    | committed event published =>
      rw [effectsSince, ih]
      by_cases hkey : event.idempotencyKey = key <;> simp [Entry.takesEffect, hkey]
    | produced rows =>
      rw [effectsSince, ih]
      simp [Entry.takesEffect]
    | cleaned rows =>
      have hnone : (rows.any fun row => decide (row.idempotencyKey = key)) = false := by
        rw [List.any_eq_false]
        intro row hrow
        simpa using h rows List.mem_cons_self row hrow
      rw [effectsSince, hnone, ih]
      simp [Entry.takesEffect]

/-- Without a cleanup, an event that took effect did so once. -/
theorem countP_takesEffect {key : String} (huncleaned : Uncleaned key s.history)
    (heffect : TookEffect s key) (hatMost : effectsSince key s.history ≤ 1) :
    s.history.countP (Entry.takesEffect key) = 1 := by
  rw [effectsSince_of_uncleaned huncleaned] at hatMost
  obtain ⟨event, published, hmem, hkey⟩ := heffect
  have hpos : 0 < s.history.countP (Entry.takesEffect key) :=
    List.countP_pos_iff.mpr ⟨_, hmem, by simp [Entry.takesEffect, hkey]⟩
  omega

/-- The rows are what `publish` inserts for the events. -/
def Published (consumer : Consumer) (inputs : List PublishEventInput) (rows : List OutboxEvent) :
    Prop :=
  List.Forall₂ (fun input row => ∃ values id now,
    consumer.clients.outbox.insertValues input = .ok values ∧ row = values.row id now) inputs rows

/-- A committed row of the inbox has the key. -/
def State.remembers (s : State) (key : String) : Bool :=
  s.inbox.committed.rows.any fun row => row.idempotencyKey = key

theorem mem_committed_rows {inbox : Inbox.State} {row : InboxEvent} :
    row ∈ inbox.committed.rows ↔ Inbox.Committed inbox row := by
  unfold Inbox.State.committed
  rw [Table.mem_delete, Bool.eq_false_iff, Ne, Inbox.uncommitted_iff, not_exists]
  constructor
  · intro h
    exact ⟨Table.lookup_of_mem h.1, h.2⟩
  · intro h
    exact ⟨Table.mem_of_lookup h.lookup, h.visible⟩

theorem remembers_iff {key : String} :
    s.remembers key = true ↔ ∃ row, Inbox.Committed s.inbox row ∧ row.idempotencyKey = key := by
  unfold State.remembers
  simp only [List.any_eq_true, mem_committed_rows, decide_eq_true_eq]

/-! ## The invariant -/

/-- What holds of an open handler in each phase. -/
def PhaseOk (consumer : Consumer) (s : State) (tx : TransactionId)
    (event : InboxReceiveEventInput) : Phase → Prop
  | .receiving => (∀ id, (tx, id) ∉ s.inbox.inserted) ∧ s.rowsOf tx = [] ∧
      ∀ t, s.inbox.transactions tx = some t → t.answers = []
  | .duplicate => (∀ id, (tx, id) ∉ s.inbox.inserted) ∧ TookEffect s event.idempotencyKey
  | .processing rest =>
      (∃ row, s.inbox.table.lookup row.id = some row ∧ (tx, row.id) ∈ s.inbox.inserted ∧
        row.idempotencyKey = event.idempotencyKey) ∧
      ∃ done, consumer.publishes event = done ++ rest ∧ Published consumer done (s.rowsOf tx)
  | .failed => True

/-- A handler and its transaction.  All rows that it has inserted have the key
of its event. -/
structure HandlerOk (consumer : Consumer) (s : State) (tx : TransactionId) : Prop where
  isOpen : (s.handlers tx).isSome ↔ (s.inbox.transactions tx).isSome
  owners : ∀ id, (tx, id) ∈ s.inbox.inserted → ∃ handler row, s.handlers tx = some handler ∧
    s.inbox.table.lookup id = some row ∧ row.idempotencyKey = handler.event.idempotencyKey
  closed : s.handlers tx = none → s.rowsOf tx = []
  phase : ∀ event phase, s.handlers tx = some ⟨event, phase⟩ → PhaseOk consumer s tx event phase

structure InboxInv (consumer : Consumer) (s : State) : Prop where
  reachable : Inbox.inbox.Reachable s.inbox
  unmarked : s.inbox.marks = []
  handlers : ∀ tx, HandlerOk consumer s tx
  effects : ∀ key, effectsSince key s.history = (s.remembers key).toNat
  answered : ∀ key ∈ s.answered, TookEffect s key

/-! ## The other handlers -/

/-- The handler that takes the step. -/
def Action.transaction : Action → Option TransactionId
  | .begin tx _ => some tx
  | .receive tx _ => some tx
  | .publish tx _ => some tx
  | .commit tx => some tx
  | .rollback tx => some tx
  | _ => none

/-- What a step leaves of the handlers that do not take it. -/
structure Frame (s s' : State) (tx : TransactionId) : Prop where
  handler : s'.handlers tx = s.handlers tx
  transaction : s'.inbox.transactions tx = s.inbox.transactions tx
  inserted : ∀ id, (tx, id) ∈ s'.inbox.inserted ↔ (tx, id) ∈ s.inbox.inserted
  keeps : Inbox.Keeps s.inbox s'.inbox tx
  rows : s'.rowsOf tx = s.rowsOf tx

/-- The rows that a transaction has inserted are its own business. -/
theorem inserted_of_change {inbox inbox' : Inbox.State} {action : Inbox.Action}
    (h : Inbox.Change inbox action inbox') (ha : action.transaction ≠ some tx) (id : EventId) :
    (tx, id) ∈ inbox'.inserted ↔ (tx, id) ∈ inbox.inserted := by
  have hne : ∀ tx', action.transaction = some tx' → tx ≠ tx' := fun tx' htx' heq => ha (heq ▸ htx')
  cases h with
  | unchanged => rfl
  | ticked => rfl
  | began => rfl
  | called => rfl
  | foundChunk => rfl
  | marked => rfl
  | cleaned => rfl
  | received tx' =>
    exact Inbox.mem_store_inserted.trans (or_iff_right fun hnew => hne tx' rfl hnew.1)
  | insertedChunk tx' =>
    exact Inbox.mem_store_inserted.trans (or_iff_right fun hnew => hne tx' rfl hnew.1)
  | committed tx' => exact Inbox.mem_finish_inserted.trans (and_iff_left (hne tx' rfl))
  | rolledBack tx' => exact Inbox.mem_finish_inserted.trans (and_iff_left (hne tx' rfl))

/-- Only `markFailed` marks rows. -/
theorem unmarked_of_change {inbox inbox' : Inbox.State} {action : Inbox.Action}
    (h : Inbox.Change inbox action inbox') (ha : ∀ tx id error, action ≠ .markFailed tx id error)
    (hmarks : inbox.marks = []) : inbox'.marks = [] := by
  cases h with
  | marked tx t id error => exact absurd rfl (ha tx id error)
  | committed tx => exact (congrArg (List.filter _) hmarks).trans List.filter_nil
  | rolledBack tx => exact (congrArg (List.filter _) hmarks).trans List.filter_nil
  | _ => exact hmarks

/-- The frame of the inbox, for a step that it takes by itself. -/
theorem frame_of_inbox {inbox : Inbox.State} {action : Inbox.Action} (hinv : InboxInv consumer s)
    (hinbox : Inbox.step s.inbox action = some inbox) (ha : action.transaction ≠ some tx)
    (heq : s'.inbox = inbox) (hhandler : s'.handlers tx = s.handlers tx)
    (hrows : s'.rowsOf tx = s.rowsOf tx) : Frame s s' tx := by
  have hchange := Inbox.change_of_step hinbox
  refine ⟨hhandler, ?_, ?_, ?_, hrows⟩ <;> rw [heq]
  · exact Inbox.transactions_of_change hchange ha
  · exact inserted_of_change hchange ha
  · exact Inbox.keeps_of_change hchange (Inbox.reachable_inv hinv.reachable)
      (fun hcommit => ha (hcommit ▸ rfl)) (fun hrollback => ha (hrollback ▸ rfl))

theorem rowsOf_finish {tx' : TransactionId} (h : tx' ≠ tx) (inbox : Inbox.State) :
    (s.finish tx inbox).rowsOf tx' = s.rowsOf tx' := by
  unfold State.rowsOf State.finish
  rw [List.filter_filter]
  congr 1
  refine List.filter_congr fun entry _ => ?_
  by_cases heq : entry.1 = tx'
  · simp [heq, h]
  · simp [heq]

theorem rowsOf_append {tx' : TransactionId} (row : OutboxEvent) :
    ({ s with written := s.written ++ [(tx, row)] } : State).rowsOf tx' =
      s.rowsOf tx' ++ if tx = tx' then [row] else [] := by
  unfold State.rowsOf
  rw [List.filter_append, List.map_append]
  by_cases heq : tx = tx'
  · simp [heq]
  · simp [heq]

theorem frame_of_change (h : Change consumer s a s') (hinv : InboxInv consumer s)
    (ha : a.transaction ≠ some tx) : Frame s s' tx := by
  have hne : ∀ tx', a.transaction = some tx' → tx ≠ tx' := fun tx' htx' heq => ha (heq ▸ htx')
  have hsame : Inbox.Keeps s.inbox s.inbox tx := Inbox.keeps_refl _ _
  cases h with
  | ticked => exact ⟨rfl, rfl, fun _ => Iff.rfl, hsame, rfl⟩
  | outbox => exact ⟨rfl, rfl, fun _ => Iff.rfl, hsame, rfl⟩
  | cleaned retentionDays inbox hinbox =>
    exact frame_of_inbox hinv hinbox (by simp [Inbox.Action.transaction]) rfl rfl rfl
  | began tx' event _ _ =>
    exact ⟨State.setHandler_of_ne _ (hne tx' rfl) _,
      Inbox.State.setTransaction_of_ne _ (hne tx' rfl) _, fun _ => Iff.rfl, hsame, rfl⟩
  | received tx' id event inbox _ hinbox =>
    exact frame_of_inbox hinv hinbox (by simpa [Inbox.Action.transaction] using (hne tx' rfl).symm)
      rfl (State.setHandler_of_ne _ (hne tx' rfl) _) rfl
  | published tx' id event input rest t values =>
    refine ⟨State.setHandler_of_ne _ (hne tx' rfl) _, rfl, fun _ => Iff.rfl, hsame, ?_⟩
    refine (rowsOf_append _).trans ?_
    rw [if_neg (hne tx' rfl).symm, List.append_nil]
  | refused tx' =>
    exact ⟨State.setHandler_of_ne _ (hne tx' rfl) _, rfl, fun _ => Iff.rfl, hsame, rfl⟩
  | answered tx' event inbox _ hinbox =>
    exact frame_of_inbox hinv hinbox (by simpa [Inbox.Action.transaction] using (hne tx' rfl).symm)
      rfl (State.finish_of_ne _ (hne tx' rfl) inbox) (rowsOf_finish (hne tx' rfl) inbox)
  | committed tx' event inbox outbox _ hinbox =>
    exact frame_of_inbox hinv hinbox (by simpa [Inbox.Action.transaction] using (hne tx' rfl).symm)
      rfl (State.finish_of_ne _ (hne tx' rfl) inbox) (rowsOf_finish (hne tx' rfl) inbox)
  | rolledBack tx' handler inbox _ hinbox =>
    exact frame_of_inbox hinv hinbox (by simpa [Inbox.Action.transaction] using (hne tx' rfl).symm)
      rfl (State.finish_of_ne _ (hne tx' rfl) inbox) (rowsOf_finish (hne tx' rfl) inbox)

theorem history_subset_of_change (h : Change consumer s a s') : s.history ⊆ s'.history := by
  cases h with
  | committed => exact List.subset_cons_self _ _
  | cleaned => exact List.subset_cons_self _ _
  | outbox => exact List.subset_cons_self _ _
  | _ => exact List.Subset.refl _

theorem TookEffect.mono {key : String} (h : TookEffect s key) (hhistory : s.history ⊆ s'.history) :
    TookEffect s' key := by
  obtain ⟨event, published, hmem, hkey⟩ := h
  exact ⟨event, published, hhistory hmem, hkey⟩

theorem PhaseOk.frame {event : InboxReceiveEventInput} {phase : Phase}
    (h : PhaseOk consumer s tx event phase) (hframe : Frame s s' tx)
    (hhistory : s.history ⊆ s'.history) : PhaseOk consumer s' tx event phase := by
  cases phase with
  | receiving =>
    obtain ⟨hinserted, hrows, hanswers⟩ := h
    refine ⟨fun id hentry => hinserted id ((hframe.inserted id).mp hentry), hframe.rows.trans hrows,
      fun t ht => hanswers t (hframe.transaction.symm.trans ht)⟩
  | duplicate =>
    obtain ⟨hinserted, heffect⟩ := h
    exact ⟨fun id hentry => hinserted id ((hframe.inserted id).mp hentry), heffect.mono hhistory⟩
  | processing rest =>
    obtain ⟨⟨row, hrow, hentry, hkey⟩, done, hdone, hpublished⟩ := h
    obtain ⟨hentry', hlookup⟩ := hframe.keeps _ hentry
    obtain ⟨row', hrow', hkey'⟩ := hlookup row hrow
    have hid := Table.pk_of_lookup hrow'
    refine ⟨⟨row', hid ▸ hrow', hid ▸ hentry', hkey'.trans hkey⟩, done, hdone, ?_⟩
    rw [hframe.rows]
    exact hpublished
  | failed => trivial

theorem HandlerOk.frame (h : HandlerOk consumer s tx) (hframe : Frame s s' tx)
    (hhistory : s.history ⊆ s'.history) : HandlerOk consumer s' tx := by
  refine ⟨?_, fun id hentry => ?_, fun hnone => ?_, fun event phase hhandler => ?_⟩
  · rw [hframe.handler, hframe.transaction]
    exact h.isOpen
  · have hentry := (hframe.inserted id).mp hentry
    obtain ⟨handler, row, hhandler, hrow, hkey⟩ := h.owners id hentry
    obtain ⟨row', hrow', hkey'⟩ := (hframe.keeps id hentry).2 row hrow
    exact ⟨handler, row', hframe.handler.trans hhandler, hrow', hkey'.trans hkey⟩
  · rw [hframe.rows]
    exact h.closed (hframe.handler.symm.trans hnone)
  · exact (h.phase event phase (hframe.handler.symm.trans hhandler)).frame hframe hhistory

/-! ## What a step makes of the inbox -/

theorem remembers_congr (h : s'.inbox.committed.rows = s.inbox.committed.rows) (key : String) :
    s'.remembers key = s.remembers key := by
  unfold State.remembers
  rw [h]

/-- A commit makes the rows of its transaction known. -/
theorem remembers_commit (hinv : InboxInv consumer s)
    (hinbox : Inbox.step s.inbox (.commit tx) = some s'.inbox) (key : String) :
    s'.remembers key = true ↔ s.remembers key = true ∨
      ∃ row, s.inbox.table.lookup row.id = some row ∧ (tx, row.id) ∈ s.inbox.inserted ∧
        row.idempotencyKey = key := by
  have hinboxInv := Inbox.reachable_inv hinv.reachable
  have hcommit : ∀ row, s.inbox.table.lookup row.id = some row →
      (∀ tx', tx' ≠ tx → (tx', row.id) ∉ s.inbox.inserted) → s'.remembers row.idempotencyKey := by
    intro row hrow hvisible
    obtain ⟨row', hrow', _, hmarked, _⟩ := Inbox.committed_of_commit hinbox hrow hvisible
    exact remembers_iff.mpr ⟨row', hrow', hmarked.idempotencyKey⟩
  constructor
  · intro h
    obtain ⟨row', hrow', rfl⟩ := remembers_iff.mp h
    obtain ⟨t, table, _, _, htable, heq⟩ := Inbox.commit_cases hinbox
    rw [heq] at hrow'
    obtain ⟨row, hrow, hmarked⟩ := Inbox.lookup_of_applyMarks htable hrow'.lookup
    have hid : row.id = row'.id := Table.pk_of_lookup hrow
    rw [← hid] at hrow
    by_cases hentry : (tx, row.id) ∈ s.inbox.inserted
    · exact Or.inr ⟨row, hrow, hentry, hmarked.idempotencyKey.symm⟩
    · refine Or.inl (remembers_iff.mpr ⟨row, ⟨hrow, fun tx' hentry' => ?_⟩,
        hmarked.idempotencyKey.symm⟩)
      by_cases htx : tx' = tx
      · exact hentry (htx ▸ hentry')
      · exact hrow'.visible tx' (Inbox.mem_finish_inserted.mpr ⟨hid ▸ hentry', htx⟩)
  · intro h
    rcases h with hold | ⟨row, hrow, hentry, rfl⟩
    · obtain ⟨row, hrow, rfl⟩ := remembers_iff.mp hold
      exact hcommit row hrow.lookup fun tx' _ => hrow.visible tx'
    · refine hcommit row hrow fun tx' hne hentry' => hne ?_
      exact hinboxInv.owner _ hentry' _ hentry rfl

/-- The committed rows that a cleanup leaves are those that it does not
delete. -/
theorem committed_of_cleanup {inbox : Inbox.State} {retentionDays : ℚ}
    (h : Inbox.step s.inbox (.cleanupProcessedInboxEvents retentionDays) = some inbox)
    (row : InboxEvent) :
    Inbox.Committed inbox row ↔
      Inbox.Committed s.inbox row ∧ (inbox.table.lookup row.id).isSome := by
  have hchange := Inbox.change_of_step h
  cases hchange with
  | unchanged => exact ⟨fun hrow => ⟨hrow, by rw [hrow.lookup]; rfl⟩, And.left⟩
  | called _ tx t call ha => exact absurd ha (by simp [Inbox.Action.transaction])
  | cleaned _ _ =>
    constructor
    · intro hrow
      exact ⟨⟨(Table.of_lookup_delete hrow.lookup).1, hrow.visible⟩, by rw [hrow.lookup]; rfl⟩
    · intro hrow
      obtain ⟨hcommitted, hsome⟩ := hrow
      obtain ⟨row', hrow'⟩ := Option.isSome_iff_exists.mp hsome
      have hlookup := (Table.of_lookup_delete hrow').1
      obtain rfl := Option.some.inj (hcommitted.lookup.symm.trans hlookup)
      exact ⟨hrow', hcommitted.visible⟩

/-- A cleanup makes the inbox forget the keys of the rows that it deletes. -/
theorem remembers_cleanup {retentionDays : ℚ}
    (h : Inbox.step s.inbox (.cleanupProcessedInboxEvents retentionDays) = some s'.inbox)
    (key : String) :
    s'.remembers key = (s.remembers key &&
      !(s.inbox.table.rows.filter fun row => (s'.inbox.table.lookup row.id).isNone).any
        fun row => row.idempotencyKey = key) := by
  rw [Bool.eq_iff_iff, Bool.and_eq_true, Bool.not_eq_true', Bool.eq_false_iff, Ne,
    List.any_eq_true, remembers_iff, remembers_iff]
  constructor
  · intro hkey
    obtain ⟨row, hrow, rfl⟩ := hkey
    obtain ⟨hcommitted, hsome⟩ := (committed_of_cleanup h row).mp hrow
    refine ⟨⟨row, hcommitted, rfl⟩, fun hdeleted => ?_⟩
    obtain ⟨deleted, hmem, hsame⟩ := hdeleted
    obtain ⟨hmem, hnone⟩ := List.mem_filter.mp hmem
    obtain rfl := Inbox.eq_of_key_eq hmem (Table.mem_of_lookup hcommitted.lookup)
      (of_decide_eq_true hsame)
    rw [Option.isNone_iff_eq_none] at hnone
    rw [hnone] at hsome
    exact absurd hsome (by simp)
  · intro hkey
    obtain ⟨⟨row, hrow, rfl⟩, hnot⟩ := hkey
    refine ⟨row, (committed_of_cleanup h row).mpr ⟨hrow, ?_⟩, rfl⟩
    rw [Option.isSome_iff_ne_none]
    intro hnone
    refine hnot ⟨row, List.mem_filter.mpr ⟨Table.mem_of_lookup hrow.lookup, ?_⟩, by simp⟩
    rw [hnone]
    rfl

/-! ## The handler that takes the step -/

/-- Before its commit, the key of a handler that processes an event is not
known. -/
theorem remembers_processing {event : InboxReceiveEventInput} {rest : List PublishEventInput}
    (hinv : InboxInv consumer s) (hhandler : s.handlers tx = some ⟨event, .processing rest⟩) :
    s.remembers event.idempotencyKey = false := by
  obtain ⟨⟨row, hrow, hentry, hkey⟩, _⟩ := (hinv.handlers tx).phase event _ hhandler
  rw [Bool.eq_false_iff, Ne, remembers_iff]
  intro hremembers
  obtain ⟨held, hheld, hheldKey⟩ := hremembers
  obtain rfl := Inbox.eq_of_key_eq (Table.mem_of_lookup hheld.lookup) (Table.mem_of_lookup hrow)
    (hheldKey.trans hkey.symm)
  exact hheld.visible tx hentry

/-- The commit of a handler makes the key of its event known, and no other. -/
theorem remembers_committed {event : InboxReceiveEventInput} {phase : Phase}
    (hinv : InboxInv consumer s) (hhandler : s.handlers tx = some ⟨event, phase⟩)
    (hinbox : Inbox.step s.inbox (.commit tx) = some s'.inbox) {key : String}
    (hne : event.idempotencyKey ≠ key) : s'.remembers key = s.remembers key := by
  rw [Bool.eq_iff_iff, remembers_commit hinv hinbox]
  refine or_iff_left fun hrow => ?_
  obtain ⟨row, hrow, hentry, rfl⟩ := hrow
  obtain ⟨handler, row', hhandler', hrow', hkey⟩ := (hinv.handlers tx).owners _ hentry
  obtain rfl := Option.some.inj (hhandler.symm.trans hhandler')
  obtain rfl := Option.some.inj (hrow.symm.trans hrow')
  exact hne hkey.symm

/-- A handler with a taken key finds an event that took effect. -/
theorem tookEffect_of_conflict (hinv : InboxInv consumer s) {row held : InboxEvent}
    (hnone : ∀ id, (tx, id) ∉ s.inbox.inserted)
    (hconflict : s.inbox.table.conflict row = some held)
    (hwaits : s.inbox.waits tx row.idempotencyKey = false) : TookEffect s row.idempotencyKey := by
  obtain ⟨hheld, hsame, _⟩ := Table.conflict_eq_some_iff.mp hconflict
  have hkey : held.idempotencyKey = row.idempotencyKey := Option.some.inj hsame
  refine exists_committed_of_effectsSince ?_
  rw [hinv.effects,
    remembers_iff.mpr ⟨held, ⟨Table.lookup_of_mem hheld, fun tx' hentry => ?_⟩, hkey⟩]
  · exact Nat.one_pos
  · -- Another owner of the row would make the statement wait.
    have hne : tx' ≠ tx := fun heq => hnone _ (heq ▸ hentry)
    have hhidden := Inbox.hidden_iff.mpr ⟨tx', hne, hentry⟩
    rw [Inbox.State.waits, List.any_eq_false] at hwaits
    exact hwaits held hheld (by simp [hkey, hhidden])

/-- A handler that is over leaves nothing behind. -/
theorem handlerOk_finish {table : InboxTable Adapter.postgres.collate}
    (hinbox : s'.inbox = s.inbox.finish tx table) (hhandler : s'.handlers tx = none)
    (hwritten : s'.written = s.written.filter fun entry => entry.1 ≠ tx) :
    HandlerOk consumer s' tx := by
  refine ⟨?_, fun id hentry => ?_, fun _ => ?_, fun event phase hsome => ?_⟩
  · rw [hhandler, hinbox, Inbox.State.finish_self]
    simp
  · rw [hinbox] at hentry
    exact absurd rfl (Inbox.mem_finish_inserted.mp hentry).2
  · unfold State.rowsOf
    rw [hwritten, List.filter_filter, List.map_eq_nil_iff, List.filter_eq_nil_iff]
    simp
  · rw [hhandler] at hsome
    exact absurd hsome (by simp)

/-- A handler that goes on. -/
theorem handlerOk_setHandler {event : InboxReceiveEventInput} {phase : Phase}
    {t : Inbox.Transaction} (ht : s.inbox.transactions tx = some t)
    (howners : ∀ id, (tx, id) ∈ s.inbox.inserted → ∃ row, s.inbox.table.lookup id = some row ∧
      row.idempotencyKey = event.idempotencyKey)
    (hphase : PhaseOk consumer s tx event phase) :
    HandlerOk consumer (s.setHandler tx (some ⟨event, phase⟩)) tx := by
  have hself := State.setHandler_self s tx (some ⟨event, phase⟩)
  refine ⟨?_, fun id hentry => ?_, fun hnone => absurd (hself.symm.trans hnone) (by simp),
    fun event' phase' hsome => ?_⟩
  · rw [hself]
    refine iff_of_true rfl ?_
    show (s.inbox.transactions tx).isSome
    rw [ht]
    rfl
  · obtain ⟨row, hrow, hkey⟩ := howners id hentry
    exact ⟨_, row, hself, hrow, hkey⟩
  · obtain ⟨rfl, rfl⟩ := Handler.mk.inj (Option.some.inj (hself.symm.trans hsome))
    cases phase with
    | receiving => exact hphase
    | duplicate => exact hphase
    | processing rest => exact hphase
    | failed => trivial

/-- What a handler knows after its `receive`. -/
theorem handlerOk_received {id : EventId} {event : InboxReceiveEventInput} {inbox : Inbox.State}
    (hinv : InboxInv consumer s) (hhandler : s.handlers tx = some ⟨event, .receiving⟩)
    (hinbox : Inbox.step s.inbox (.receive tx consumer.clients.inbox id event) = some inbox) :
    HandlerOk consumer (({ s with inbox := inbox } : State).setHandler tx
      (some ⟨event, State.received consumer event (inbox.transactions tx)⟩)) tx := by
  obtain ⟨hinserted, hrows, hanswers⟩ := (hinv.handlers tx).phase _ _ hhandler
  obtain ⟨t, ht⟩ : ∃ t, s.inbox.transactions tx = some t := by
    rw [← Option.isSome_iff_exists, ← (hinv.handlers tx).isOpen, hhandler]
    rfl
  rcases receive_step_cases ht (hanswers t ht) hinbox with
    rfl | ⟨row, hkey, hnew, hwaits, ⟨held, hconflict, rfl⟩ | ⟨hconflict, rfl⟩⟩
  · -- The call has thrown.
    refine handlerOk_setHandler ht (fun id hentry => absurd hentry (hinserted id)) ?_
    rw [ht, State.received, hanswers t ht]
    trivial
  · have htransaction := Inbox.State.setTransaction_self s.inbox tx
      (some { t with answers := [(event.idempotencyKey, ⟨none, .duplicate⟩)] })
    refine handlerOk_setHandler htransaction (fun id hentry => absurd hentry (hinserted id)) ?_
    rw [htransaction, State.received]
    have heffect := tookEffect_of_conflict hinv hinserted hconflict (hkey ▸ hwaits)
    exact ⟨hinserted, hkey ▸ heffect⟩
  · have htransaction := Inbox.State.setTransaction_self
      (s.inbox.store tx (s.inbox.table.insertFree [row]) [row.id]) tx
      (some { t with answers := [(event.idempotencyKey, ⟨some row.id, .processed⟩)] })
    have hfresh : s.inbox.table.Fresh [row] := ⟨by simpa using hnew, List.nodup_singleton _⟩
    have hstored : (s.inbox.table.insertFree [row]).lookup row.id = some row := by
      obtain ⟨row', hrow'⟩ := Option.isSome_iff_exists.mp (hfresh.lookup_head.trans (by
        rw [hconflict]
        rfl))
      obtain rfl := hfresh.eq_of_lookup (List.mem_singleton_self _) hrow'
      exact hrow'
    have hentry : (tx, row.id) ∈
        (s.inbox.store tx (s.inbox.table.insertFree [row]) [row.id]).inserted :=
      Inbox.mem_store_inserted.mpr (.inl ⟨rfl, List.mem_singleton_self _, by rw [hstored]; rfl⟩)
    refine handlerOk_setHandler htransaction (fun id' hentry' => ?_) ?_
    · rcases Inbox.mem_store_inserted.mp hentry' with ⟨_, hid, _⟩ | hold
      · obtain rfl := List.mem_singleton.mp hid
        exact ⟨row, hstored, hkey⟩
      · exact absurd hold (hinserted id')
    · rw [htransaction, State.received]
      refine ⟨⟨row, hstored, hentry, hkey⟩, [], rfl, ?_⟩
      show Published consumer [] (s.rowsOf tx)
      rw [hrows]
      exact .nil

/-- What a `publish` adds to the rows of its transaction. -/
theorem handlerOk_published {id : EventId} {event : InboxReceiveEventInput}
    {input : PublishEventInput} {rest : List PublishEventInput} {t : Inbox.Transaction}
    {values : InsertValues} (hinv : InboxInv consumer s) (ht : s.inbox.transactions tx = some t)
    (hhandler : s.handlers tx = some ⟨event, .processing (input :: rest)⟩)
    (hvalues : consumer.clients.outbox.insertValues input = .ok values) :
    HandlerOk consumer (({ s with
      written := s.written ++ [(tx, values.row id t.startedAt)] } : State).setHandler tx
        (some ⟨event, .processing rest⟩)) tx := by
  obtain ⟨hrow, done, hdone, hpublished⟩ := (hinv.handlers tx).phase _ _ hhandler
  refine handlerOk_setHandler ht (fun id hentry => ?_) ⟨hrow, done ++ [input], ?_, ?_⟩
  · obtain ⟨handler, row, hhandler', hlookup, hkey⟩ := (hinv.handlers tx).owners id hentry
    obtain rfl := Option.some.inj (hhandler.symm.trans hhandler')
    exact ⟨row, hlookup, hkey⟩
  · rw [hdone, List.append_assoc]
    rfl
  · rw [rowsOf_append, if_pos rfl]
    exact List.rel_append hpublished
      (.cons ⟨values, id, t.startedAt, hvalues, rfl⟩ .nil)

theorem handlerOk_of_change (h : Change consumer s a s') (hinv : InboxInv consumer s)
    (ha : a.transaction = some tx) : HandlerOk consumer s' tx := by
  cases h with
  | ticked => exact absurd ha (by simp [Action.transaction])
  | cleaned => exact absurd ha (by simp [Action.transaction])
  | outbox => exact absurd ha (by simp [Action.transaction])
  | began tx' event hhandler hnone =>
    obtain rfl : tx' = tx := Option.some.inj ha
    have hinserted : ∀ id, (tx', id) ∉ s.inbox.inserted := by
      intro id hentry
      obtain ⟨handler, _, hsome, _⟩ := (hinv.handlers tx').owners id hentry
      rw [hhandler] at hsome
      exact absurd hsome (by simp)
    have htransaction := Inbox.State.setTransaction_self s.inbox tx'
      (some { startedAt := s.inbox.clock })
    refine handlerOk_setHandler htransaction (fun id hentry => absurd hentry (hinserted id))
      ⟨hinserted, (hinv.handlers tx').closed hhandler, fun t ht => ?_⟩
    obtain rfl := Option.some.inj (htransaction.symm.trans ht)
    rfl
  | received tx' id event inbox hhandler hinbox =>
    obtain rfl : tx' = tx := Option.some.inj ha
    exact handlerOk_received hinv hhandler hinbox
  | published tx' id event input rest t values ht hhandler hvalues =>
    obtain rfl : tx' = tx := Option.some.inj ha
    exact handlerOk_published hinv ht hhandler hvalues
  | refused tx' id event rest hhandler =>
    obtain rfl : tx' = tx := Option.some.inj ha
    obtain ⟨t, ht⟩ : ∃ t, s.inbox.transactions tx' = some t := by
      rw [← Option.isSome_iff_exists, ← (hinv.handlers tx').isOpen, hhandler]
      rfl
    refine handlerOk_setHandler ht (fun id' hentry => ?_) trivial
    obtain ⟨handler, row, hhandler', hlookup, hkey⟩ := (hinv.handlers tx').owners id' hentry
    obtain rfl := Option.some.inj (hhandler.symm.trans hhandler')
    exact ⟨row, hlookup, hkey⟩
  | answered tx' event inbox hhandler hinbox =>
    obtain rfl : tx' = tx := Option.some.inj ha
    obtain ⟨_, table, _, _, _, rfl⟩ := Inbox.commit_cases hinbox
    exact handlerOk_finish rfl (State.finish_self s tx' (s.inbox.finish tx' table)) rfl
  | committed tx' event inbox outbox hhandler hinbox =>
    obtain rfl : tx' = tx := Option.some.inj ha
    obtain ⟨_, table, _, _, _, rfl⟩ := Inbox.commit_cases hinbox
    exact handlerOk_finish rfl (State.finish_self s tx' (s.inbox.finish tx' table)) rfl
  | rolledBack tx' handler inbox hhandler hinbox =>
    obtain rfl : tx' = tx := Option.some.inj ha
    obtain ⟨_, _, rfl⟩ := Inbox.rollback_cases hinbox
    exact handlerOk_finish rfl (State.finish_self s tx' _) rfl

/-! ## Every step -/

/-- The steps of the chain are steps of its inbox. -/
theorem reachable_inbox_of_change (h : Change consumer s a s')
    (hs : Inbox.inbox.Reachable s.inbox) : Inbox.inbox.Reachable s'.inbox := by
  rcases inbox_of_change h with heq | ⟨action, hstep, _⟩
  · rw [heq]
    exact hs
  · exact Inbox.reachable_step hs hstep

theorem unmarked_inbox_of_change (h : Change consumer s a s') (hs : s.inbox.marks = []) :
    s'.inbox.marks = [] := by
  rcases inbox_of_change h with heq | ⟨action, hstep, hofChain, _⟩
  · rw [heq]
    exact hs
  · refine unmarked_of_change (Inbox.change_of_step hstep) (fun tx id error haction => ?_) hs
    rw [haction] at hofChain
    exact hofChain

/-- A step of a transaction, other than its commit, changes nothing that the
inbox remembers. -/
theorem remembers_of_inbox {action : Inbox.Action}
    (hinbox : Inbox.step s.inbox action = some s'.inbox)
    (ha : action.transaction = some tx) (hcommit : action ≠ .commit tx) (key : String) :
    s'.remembers key = s.remembers key :=
  remembers_congr (Inbox.committed_rows_of_change (Inbox.change_of_step hinbox) ha hcommit) key

theorem effects_of_change (h : Change consumer s a s') (hinv : InboxInv consumer s) (key : String) :
    effectsSince key s'.history = (s'.remembers key).toNat := by
  have hsame : s'.history = s.history → s'.remembers key = s.remembers key →
      effectsSince key s'.history = (s'.remembers key).toNat := by
    intro hhistory hremembers
    rw [hhistory, hremembers, hinv.effects]
  cases h with
  | ticked => exact hsame rfl rfl
  | began => exact hsame rfl rfl
  | published => exact hsame rfl rfl
  | refused => exact hsame rfl rfl
  | outbox => exact hinv.effects key
  | received tx id event inbox _ hinbox =>
    refine hsame rfl (remembers_of_inbox hinbox rfl ?_ key)
    simp
  | rolledBack tx handler inbox _ hinbox =>
    refine hsame rfl (remembers_of_inbox hinbox rfl ?_ key)
    simp
  | answered tx event inbox hhandler hinbox =>
    -- The transaction has inserted nothing.
    refine hsame rfl ?_
    rw [Bool.eq_iff_iff, remembers_commit hinv hinbox]
    refine or_iff_left fun hrow => ?_
    obtain ⟨row, _, hentry, _⟩ := hrow
    exact ((hinv.handlers tx).phase _ _ hhandler).1 _ hentry
  | committed tx event inbox outbox hhandler hinbox =>
    show (if event.idempotencyKey = key then effectsSince key s.history + 1
      else effectsSince key s.history) = ((s.finish tx inbox).remembers key).toNat
    rw [hinv.effects]
    by_cases hkey : event.idempotencyKey = key
    · subst hkey
      obtain ⟨hrow, _⟩ := (hinv.handlers tx).phase _ _ hhandler
      have hknown : (s.finish tx inbox).remembers event.idempotencyKey = true :=
        (remembers_commit hinv hinbox _).mpr (.inr hrow)
      rw [if_pos rfl, remembers_processing hinv hhandler, hknown]
      rfl
    · have hother : (s.finish tx inbox).remembers key = s.remembers key :=
        remembers_committed hinv hhandler hinbox hkey
      rw [if_neg hkey, hother]
  | cleaned retentionDays inbox hinbox =>
    have hremembers : ({ s with inbox := inbox } : State).remembers key =
        (s.remembers key && !(s.inbox.table.rows.filter fun row =>
          (inbox.table.lookup row.id).isNone).any fun row => row.idempotencyKey = key) :=
      remembers_cleanup hinbox key
    show (if (s.inbox.table.rows.filter fun row => (inbox.table.lookup row.id).isNone).any
        fun row => row.idempotencyKey = key then 0 else effectsSince key s.history) =
      (({ s with inbox := inbox } : State).remembers key).toNat
    rw [hinv.effects, hremembers]
    cases (s.inbox.table.rows.filter fun row => (inbox.table.lookup row.id).isNone).any
        fun row => row.idempotencyKey = key with
    | false => simp
    | true => simp

theorem answered_of_change (h : Change consumer s a s') (hinv : InboxInv consumer s) :
    ∀ key ∈ s'.answered, TookEffect s' key := by
  have hhistory := history_subset_of_change h
  have hold : ∀ key ∈ s.answered, TookEffect s' key :=
    fun key hkey => (hinv.answered key hkey).mono hhistory
  cases h with
  | answered tx event inbox hhandler =>
    intro key hkey
    rcases List.mem_cons.mp hkey with rfl | hkey
    · exact ((hinv.handlers tx).phase _ _ hhandler).2.mono hhistory
    · exact hold key hkey
  | committed tx event inbox outbox hhandler =>
    intro key hkey
    rcases List.mem_cons.mp hkey with rfl | hkey
    · exact ⟨event, _, List.mem_cons_self, rfl⟩
    · exact hold key hkey
  | _ => exact hold

theorem inboxInv_of_change (h : Change consumer s a s') (hinv : InboxInv consumer s) :
    InboxInv consumer s' := by
  refine ⟨reachable_inbox_of_change h hinv.reachable, unmarked_inbox_of_change h hinv.unmarked,
    fun tx => ?_, effects_of_change h hinv, answered_of_change h hinv⟩
  by_cases ha : a.transaction = some tx
  · exact handlerOk_of_change h hinv ha
  · exact (hinv.handlers tx).frame (frame_of_change h hinv ha) (history_subset_of_change h)

theorem inboxInv_initial (clock : Int) : InboxInv consumer (State.initial clock) := by
  refine ⟨.init ⟨clock, Table.empty, rfl⟩, rfl, fun tx => ?_, fun key => rfl, by
    simp [State.initial]⟩
  refine ⟨by simp [State.initial, Inbox.State.initial], fun id hentry => ?_, fun _ => rfl,
    fun event phase hhandler => absurd hhandler (by simp [State.initial])⟩
  exact absurd hentry (by simp [State.initial, Inbox.State.initial])

theorem reachable_inboxInv (h : (chain consumer).Reachable s) : InboxInv consumer s := by
  refine h.induct (fun s hinit => ?_) fun s a s' _ hinv _
    (hstep : step consumer s a = some s') => inboxInv_of_change (change_of_step hstep) hinv
  obtain ⟨clock, rfl⟩ := hinit
  exact inboxInv_initial clock

end Outboxy.Chain
