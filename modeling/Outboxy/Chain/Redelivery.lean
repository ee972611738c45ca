import Outboxy.Chain.Promise

/-!
# A redelivered event gets through

Whatever handlers are open, and wherever they are stuck, one more delivery of
an event can be answered with success: at most one other handler has to be
rolled back, the one that holds the key.
-/

namespace Outboxy.Chain

open Inbox (TransactionId)

variable {consumer : Consumer} {s s' : State} {tx : TransactionId}
  {event : InboxReceiveEventInput}

/-! ## The parts of a delivery -/

theorem reachable_of_run {acts : List Action} (hs : (chain consumer).Reachable s)
    (hrun : (chain consumer).run s acts = some s') : (chain consumer).Reachable s' :=
  Transition.System.Reachable.run hs hrun

/-- Only finitely many handlers are open. -/
theorem exists_forall_closed (hs : (chain consumer).Reachable s) :
    ∃ n : Nat, ∀ tx : Nat, n ≤ tx → s.handlers tx = none := by
  refine hs.induct (P := fun s => ∃ n : Nat, ∀ tx : Nat, n ≤ tx → s.handlers tx = none)
    (fun s hinit => ?_) fun s a s' hs hclosed _ (hstep : step consumer s a = some s') => ?_
  · obtain ⟨clock, rfl⟩ := hinit
    exact ⟨0, fun _ _ => rfl⟩
  · obtain ⟨n, hn⟩ := hclosed
    have hframe := fun (tx : Nat) (ha : a.transaction ≠ some tx) =>
      frame_of_change (change_of_step hstep) (reachable_inboxInv hs) ha
    cases ha : a.transaction with
    | none =>
      exact ⟨n, fun tx htx => ((hframe tx (by simp [ha])).handler).trans (hn tx htx)⟩
    | some actor =>
      have hactor : ∀ tx : Nat, Nat.succ actor ≤ tx → a.transaction ≠ some tx := by
        intro tx htx heq
        obtain rfl := Option.some.inj (ha.symm.trans heq)
        exact absurd htx (Nat.not_succ_le_self _)
      refine ⟨max n (Nat.succ actor), fun tx htx => ?_⟩
      rw [(hframe tx (hactor tx (le_trans (Nat.le_max_right _ _) htx))).handler]
      exact hn tx (le_trans (Nat.le_max_left _ _) htx)

/-- Ids for the rows that are to be published. -/
structure NewIds (s : State) (ids : List EventId) : Prop where
  uuid : ∀ id ∈ ids, isUuid id = true
  distinct : ids.Nodup
  free : ∀ id ∈ ids, s.outbox.table.lookup id = none
  unwritten : ∀ id ∈ ids, ∀ entry ∈ s.written, entry.2.id ≠ id

/-- The consumer can publish what follows from the event. -/
def Publishable (consumer : Consumer) (inputs : List PublishEventInput) : Prop :=
  ∀ input ∈ inputs, ∃ values, consumer.clients.outbox.insertValues input = .ok values

/-- The transaction is open and has inserted the row with the key. -/
def State.HoldsKey (s : State) (key : String) (tx : TransactionId) : Prop :=
  ∃ row ∈ s.inbox.table.rows, row.idempotencyKey = key ∧ (tx, row.id) ∈ s.inbox.inserted

/-- What the publishes of a handler leave alone. -/
structure Publishing (s s' : State) : Prop where
  inbox : s'.inbox = s.inbox
  history : s'.history = s.history

theorem exists_publish {input : PublishEventInput} {inputs : List PublishEventInput}
    {id : EventId} {ids : List EventId} {t : Inbox.Transaction}
    (ht : s.inbox.transactions tx = some t)
    (hhandler : s.handlers tx = some ⟨event, .processing (input :: inputs)⟩)
    (hinput : ∃ values, consumer.clients.outbox.insertValues input = .ok values)
    (hids : NewIds s (id :: ids)) :
    ∃ s', step consumer s (.publish tx id) = some s' ∧
      s'.handlers tx = some ⟨event, .processing inputs⟩ ∧ Publishing s s' ∧ NewIds s' ids := by
  obtain ⟨values, hvalues⟩ := hinput
  obtain ⟨hnot, hdistinct⟩ := List.nodup_cons.mp hids.distinct
  refine ⟨_, ?_, State.setHandler_self
    ({ s with written := s.written ++ [(tx, values.row id t.startedAt)] } : State) tx _,
    ⟨rfl, rfl⟩, ?_⟩
  · show s.publish consumer tx id = _
    unfold State.publish
    rw [hhandler, ht]
    simp only [hvalues]
    exact if_pos ⟨hids.uuid id List.mem_cons_self, hids.free id List.mem_cons_self,
      hids.unwritten id List.mem_cons_self⟩
  · refine ⟨fun id' hmem => hids.uuid id' (List.mem_cons_of_mem _ hmem), hdistinct,
      fun id' hmem => hids.free id' (List.mem_cons_of_mem _ hmem), fun id' hmem entry hentry => ?_⟩
    rcases List.mem_append.mp hentry with hold | hnew
    · exact hids.unwritten id' (List.mem_cons_of_mem _ hmem) entry hold
    · obtain rfl := List.mem_singleton.mp hnew
      exact fun heq : id = id' => hnot (heq ▸ hmem)

/-- The publishes of a handler, one after the other. -/
theorem exists_publishes {inputs : List PublishEventInput} {ids : List EventId}
    {t : Inbox.Transaction} (ht : s.inbox.transactions tx = some t)
    (hhandler : s.handlers tx = some ⟨event, .processing inputs⟩)
    (hinputs : Publishable consumer inputs) (hids : NewIds s ids)
    (hlength : ids.length = inputs.length) :
    ∃ s', (chain consumer).run s (ids.map (.publish tx)) = some s' ∧
      s'.handlers tx = some ⟨event, .processing []⟩ ∧ Publishing s s' := by
  induction ids generalizing s inputs with
  | nil =>
    obtain rfl : inputs = [] := List.length_eq_zero_iff.mp hlength.symm
    exact ⟨s, rfl, hhandler, rfl, rfl⟩
  | cons id ids ih =>
    cases inputs with
    | nil => exact absurd hlength (by simp)
    | cons input inputs =>
      obtain ⟨s₁, hstep, hhandler₁, hframe₁, hids₁⟩ :=
        exists_publish ht hhandler (hinputs input List.mem_cons_self) hids
      obtain ⟨s', hrun, hhandler', hframe⟩ := ih (hframe₁.inbox ▸ ht) hhandler₁
        (fun input' hmem => hinputs input' (List.mem_cons_of_mem _ hmem)) hids₁
        (Nat.succ.inj hlength)
      exact ⟨s', Transition.System.run_cons_eq_some _ hstep hrun, hhandler',
        hframe.inbox.trans hframe₁.inbox, hframe.history.trans hframe₁.history⟩

/-- Rows without keys and with new ids find room in the outbox. -/
theorem exists_foldlM_insert {rows : List OutboxEvent} {outbox : Outboxy.State .postgres}
    (hkeys : ∀ row ∈ rows, row.idempotencyKey = none)
    (hdistinct : (rows.map OutboxEvent.id).Nodup)
    (hfree : ∀ row ∈ rows, outbox.table.lookup row.id = none) :
    ∃ outbox', rows.foldlM Outboxy.State.insert outbox = some outbox' := by
  induction rows generalizing outbox with
  | nil => exact ⟨outbox, rfl⟩
  | cons row rows ih =>
    obtain ⟨hnot, hdistinct⟩ := List.nodup_cons.mp hdistinct
    have hindex : Adapter.postgres.idempotencyIndex row = none := by
      simp [Adapter.idempotencyIndex, hkeys row List.mem_cons_self]
    have hconflict : outbox.table.conflict row = none := by
      rw [Table.conflict_eq_none_iff]
      intro held _ i _ hrow
      rw [hindex] at hrow
      exact absurd hrow (by simp)
    obtain ⟨table, htable⟩ := Table.exists_insert (hfree row List.mem_cons_self) hconflict
    have hrest : ∀ r ∈ rows, (({ outbox with table := table } : Outboxy.State .postgres).record
        (.inserted row.id)).table.lookup r.id = none := by
      intro r hr
      have hne : r.id ≠ row.id := fun heq => hnot (heq ▸ List.mem_map_of_mem hr)
      rw [Outboxy.State.record_table, Table.lookup_insert htable, if_neg hne.symm]
      exact hfree r (List.mem_cons_of_mem _ hr)
    obtain ⟨outbox', hrest⟩ := ih (fun r hr => hkeys r (List.mem_cons_of_mem _ hr)) hdistinct hrest
    refine ⟨outbox', ?_⟩
    rw [List.foldlM_cons, Outboxy.State.insert, htable]
    exact hrest

/-- What a handler publishes has no keys. -/
theorem idempotencyKey_of_published {inputs : List PublishEventInput} {rows : List OutboxEvent}
    (hunkeyed : ∀ input ∈ inputs, input.idempotencyKey = none)
    (h : Published consumer inputs rows) : ∀ row ∈ rows, row.idempotencyKey = none := by
  induction h with
  | nil => simp
  | cons hrow _ ih =>
    obtain ⟨values, id, now, hvalues, rfl⟩ := hrow
    intro r hr
    rcases List.mem_cons.mp hr with rfl | hr
    · exact (OutboxyClient.key_of_insertValues hvalues).1.trans
        (hunkeyed _ List.mem_cons_self)
    · exact ih (fun input' hmem => hunkeyed input' (List.mem_cons_of_mem _ hmem)) r hr

/-- A transaction without marks can commit. -/
theorem exists_inbox_commit {inbox : Inbox.State} {t : Inbox.Transaction}
    (ht : inbox.transactions tx = some t) (hcall : t.call = .none) (hmarks : inbox.marks = []) :
    Inbox.step inbox (.commit tx) = some (inbox.finish tx inbox.table) := by
  show (inbox.transactions tx).bind _ = _
  rw [ht, Option.bind_some, Inbox.State.commit, hcall]
  show (Inbox.State.applyMarks inbox.marks tx inbox.table).map _ = _
  rw [hmarks]
  rfl

/-- What the commit of a handler leaves. -/
theorem commit_eq_some {inbox : Inbox.State} {outbox : Outboxy.State .postgres}
    (hhandler : s.handlers tx = some ⟨event, .processing []⟩)
    (hinbox : Inbox.step s.inbox (.commit tx) = some inbox)
    (houtbox : (s.rowsOf tx).foldlM Outboxy.State.insert s.outbox = some outbox) :
    step consumer s (.commit tx) =
      some (({ s.finish tx inbox with
        outbox := outbox
        answered := event.idempotencyKey :: s.answered } : State).record
          (.committed event (s.rowsOf tx))) := by
  show s.commit tx = _
  unfold State.commit
  rw [hhandler]
  show (Inbox.step s.inbox (.commit tx)).bind _ = _
  rw [hinbox, Option.bind_some, houtbox]
  rfl

/-- A handler that has published everything can commit. -/
theorem exists_commit (hs : (chain consumer).Reachable s) {t : Inbox.Transaction}
    (ht : s.inbox.transactions tx = some t) (hcall : t.call = .none)
    (hhandler : s.handlers tx = some ⟨event, .processing []⟩) :
    ∃ s', step consumer s (.commit tx) = some s' ∧ event.idempotencyKey ∈ s'.answered ∧
      0 < effectsSince event.idempotencyKey s'.history := by
  have hinv := reachable_inboxInv hs
  obtain ⟨hstored, hdistinct⟩ := reachable_outboxInv hs
  obtain ⟨_, done, hdone, hpublished⟩ := (hinv.handlers tx).phase _ _ hhandler
  rw [List.append_nil] at hdone
  have hids : ((s.rowsOf tx).map OutboxEvent.id).Sublist s.writtenIds := by
    rw [State.rowsOf, List.map_map]
    exact List.filter_sublist.map _
  obtain ⟨_, hnodup, hdisjoint⟩ := List.nodup_append'.mp hdistinct
  have hfree : ∀ row ∈ s.rowsOf tx, s.outbox.table.lookup row.id = none := by
    intro row hrow
    rw [← Option.not_isSome_iff_eq_none, hstored]
    exact fun hmem => hdisjoint hmem (hids.subset (List.mem_map_of_mem hrow))
  obtain ⟨outbox, houtbox⟩ := exists_foldlM_insert
    (idempotencyKey_of_published (hdone ▸ consumer.unkeyed event) hpublished)
    (hnodup.sublist hids) hfree
  have hcommit := exists_inbox_commit ht hcall hinv.unmarked
  refine ⟨_, commit_eq_some hhandler hcommit houtbox, List.mem_cons_self, ?_⟩
  show 0 < effectsSince _ (.committed event _ :: s.history)
  rw [effectsSince, if_pos rfl]
  exact Nat.succ_pos _

/-! ## The delivery -/

/-- A handler starts. -/
theorem exists_begin (hinv : InboxInv consumer s) (hclosed : s.handlers tx = none)
    (event : InboxReceiveEventInput) :
    ∃ s', step consumer s (.begin tx event) = some s' ∧
      s'.handlers tx = some ⟨event, .receiving⟩ ∧
      s'.inbox = s.inbox.setTransaction tx (some { startedAt := s.inbox.clock }) ∧
      s'.outbox = s.outbox ∧ s'.written = s.written ∧ s'.history = s.history := by
  have hnone : s.inbox.transactions tx = none := by
    have hopen := (hinv.handlers tx).isOpen
    rw [hclosed] at hopen
    exact Option.not_isSome_iff_eq_none.mp fun hsome => absurd (hopen.mpr hsome) (by simp)
  refine ⟨({ s with inbox := s.inbox.setTransaction tx (some { startedAt := s.inbox.clock }) } :
    State).setHandler tx (some ⟨event, .receiving⟩), ?_, State.setHandler_self _ _ _, rfl, rfl, rfl,
    rfl⟩
  show s.begin tx event = _
  unfold State.begin
  rw [hclosed]
  show (s.inbox.begin tx).map _ = _
  rw [Inbox.State.begin, hnone]
  rfl

/-- `receive` of a key that is known answers `duplicate`. -/
theorem exists_receive_known {id : EventId} {t : Inbox.Transaction}
    (hhandler : s.handlers tx = some ⟨event, .receiving⟩)
    (ht : s.inbox.transactions tx = some t) (hcall : t.call = .none) (hanswers : t.answers = [])
    (hvalid : consumer.clients.inbox.ValidEvent event) (hid : s.inbox.table.lookup id = none)
    (hknown : s.remembers event.idempotencyKey = true) :
    ∃ s', step consumer s (.receive tx id) = some s' ∧
      s'.handlers tx = some ⟨event, .duplicate⟩ ∧ s'.history = s.history ∧
      s'.inbox.transactions tx =
        some { t with answers := [(event.idempotencyKey, ⟨none, .duplicate⟩)] } ∧
      s'.inbox.marks = s.inbox.marks := by
  obtain ⟨held, hheld, hkey⟩ := remembers_iff.mp hknown
  obtain ⟨row, hrow⟩ := hvalid ⟨id, t.startedAt⟩
  obtain ⟨hrowId, hrowKey⟩ := hrow.id_key
  have hrowId : row.id = id := hrowId
  have hnew : s.inbox.table.lookup row.id = none := by rw [hrowId]; exact hid
  have hfresh : s.inbox.table.Fresh [row] := ⟨by simpa using hnew, List.nodup_singleton _⟩
  have hheldMem := Table.mem_of_lookup hheld.lookup
  obtain ⟨conflict, hconflict⟩ : ∃ conflict, s.inbox.table.conflict row = some conflict := by
    refine ⟨held, Table.conflict_eq_some_iff.mpr ⟨hheldMem, congrArg some ?_,
      held.idempotencyKey, rfl⟩⟩
    exact hkey.trans hrowKey.symm
  have hwaits : s.inbox.waits tx event.idempotencyKey = false := by
    rw [Inbox.State.waits, List.any_eq_false]
    intro other hother
    simp only [Bool.and_eq_true, decide_eq_true_eq, not_and]
    intro hotherKey hhidden
    obtain rfl := Inbox.eq_of_key_eq hother hheldMem (hotherKey.trans hkey.symm)
    obtain ⟨tx', _, hentry⟩ := Inbox.hidden_iff.mp hhidden
    exact hheld.visible tx' hentry
  have hreceive := run_receive_of_rowOf hrow hfresh
  have hstep : Inbox.step s.inbox (.receive tx consumer.clients.inbox id event) =
      some (s.inbox.setTransaction tx
        (some { t with answers := [(event.idempotencyKey, ⟨none, .duplicate⟩)] })) := by
    show (s.inbox.transactions tx).bind _ = _
    rw [ht, Option.bind_some, Inbox.State.receive, hcall, hid, hreceive]
    show (if s.inbox.waits tx event.idempotencyKey then none else _) = _
    rw [hwaits, hanswers, ← hrowId, store_of_conflict hconflict hnew]
    simp [insertResult, hconflict, Adapter.supportsReturning]
  refine ⟨({ s with inbox := s.inbox.setTransaction tx (some { t with
    answers := [(event.idempotencyKey, ⟨none, .duplicate⟩)] }) } : State).setHandler tx
      (some ⟨event, .duplicate⟩), ?_, State.setHandler_self _ _ _, rfl,
    Inbox.State.setTransaction_self _ _ _, rfl⟩
  show s.receive consumer tx id = _
  unfold State.receive
  rw [hhandler]
  show (Inbox.step s.inbox _).map _ = _
  rw [hstep, Option.map_some, Inbox.State.setTransaction_self]
  rfl

/-- `receive` of a key that no row has answers `processed`. -/
theorem exists_receive_free {id : EventId} {t : Inbox.Transaction}
    (hhandler : s.handlers tx = some ⟨event, .receiving⟩)
    (ht : s.inbox.transactions tx = some t) (hcall : t.call = .none) (hanswers : t.answers = [])
    (hvalid : consumer.clients.inbox.ValidEvent event) (hid : s.inbox.table.lookup id = none)
    (hfree : Inbox.Free event.idempotencyKey s.inbox) :
    ∃ s' t', step consumer s (.receive tx id) = some s' ∧
      s'.handlers tx = some ⟨event, .processing (consumer.publishes event)⟩ ∧
      s'.inbox.transactions tx = some t' ∧ t'.call = .none ∧ s'.outbox = s.outbox ∧
      s'.written = s.written := by
  obtain ⟨inbox, hstep, htransaction⟩ := Inbox.receive_of_free hfree ht hcall hid hvalid rfl
  refine ⟨({ s with inbox := inbox } : State).setHandler tx
    (some ⟨event, .processing (consumer.publishes event)⟩), _, ?_, State.setHandler_self _ _ _,
    htransaction, hcall, rfl, rfl⟩
  show s.receive consumer tx id = _
  unfold State.receive
  rw [hhandler]
  show (Inbox.step s.inbox _).map _ = _
  rw [hstep, Option.map_some, htransaction, hanswers]
  rfl

/-- The whole delivery of an event whose key no row has. -/
theorem exists_delivery_free (hs : (chain consumer).Reachable s)
    (hvalid : consumer.clients.inbox.ValidEvent event)
    (hpublishable : Publishable consumer (consumer.publishes event)) {id : EventId}
    (hid : s.inbox.table.lookup id = none) {ids : List EventId} (hids : NewIds s ids)
    (hlength : ids.length = (consumer.publishes event).length)
    (hfree : Inbox.Free event.idempotencyKey s.inbox) :
    ∃ tx s', (chain consumer).run s ([.begin tx event, .receive tx id] ++
        (ids.map (.publish tx) ++ [.commit tx])) = some s' ∧
      event.idempotencyKey ∈ s'.answered ∧ 0 < effectsSince event.idempotencyKey s'.history := by
  obtain ⟨tx, hclosed⟩ := exists_forall_closed hs
  obtain ⟨s₁, hbegin, hhandler₁, hinbox₁, houtbox₁, hwritten₁, _⟩ :=
    exists_begin (reachable_inboxInv hs) (hclosed tx (le_refl tx)) event
  have ht₁ : s₁.inbox.transactions tx = some { startedAt := s.inbox.clock } := by
    rw [hinbox₁]
    exact Inbox.State.setTransaction_self _ _ _
  obtain ⟨s₂, t₂, hreceive, hhandler₂, ht₂, hcall₂, houtbox₂, hwritten₂⟩ :=
    exists_receive_free hhandler₁ ht₁ rfl rfl hvalid (by rw [hinbox₁]; exact hid)
      (by rw [hinbox₁]; exact hfree)
  have hids₂ : NewIds s₂ ids := by
    refine ⟨hids.uuid, hids.distinct, ?_, ?_⟩
    · rw [houtbox₂, houtbox₁]
      exact hids.free
    · rw [hwritten₂, hwritten₁]
      exact hids.unwritten
  obtain ⟨s₃, hpublish, hhandler₃, hinbox₃, _⟩ :=
    exists_publishes ht₂ hhandler₂ hpublishable hids₂ hlength
  have hrun₂ : (chain consumer).run s [.begin tx event, .receive tx id] = some s₂ := by
    refine Transition.System.run_cons_eq_some _ hbegin ?_
    exact (Transition.System.run_singleton _ _ _).trans hreceive
  have hrun₃ := Transition.System.run_append_eq_some _ hrun₂ hpublish
  obtain ⟨s', hcommit, hanswered, heffects⟩ :=
    exists_commit (reachable_of_run hs hrun₃) (hinbox₃ ▸ ht₂) hcall₂ hhandler₃
  refine ⟨tx, s', ?_, hanswered, heffects⟩
  rw [← List.append_assoc]
  exact Transition.System.run_append_eq_some _ hrun₃
    ((Transition.System.run_singleton _ _ _).trans hcommit)

/-- The whole delivery of an event that has taken effect. -/
theorem exists_delivery_known (hs : (chain consumer).Reachable s)
    (hvalid : consumer.clients.inbox.ValidEvent event) {id : EventId}
    (hid : s.inbox.table.lookup id = none) (hknown : s.remembers event.idempotencyKey = true) :
    ∃ tx s', (chain consumer).run s [.begin tx event, .receive tx id, .commit tx] = some s' ∧
      event.idempotencyKey ∈ s'.answered ∧ 0 < effectsSince event.idempotencyKey s'.history := by
  have hinv := reachable_inboxInv hs
  obtain ⟨tx, hclosed⟩ := exists_forall_closed hs
  obtain ⟨s₁, hbegin, hhandler₁, hinbox₁, _, _, hhistory₁⟩ :=
    exists_begin hinv (hclosed tx (le_refl tx)) event
  have ht₁ : s₁.inbox.transactions tx = some { startedAt := s.inbox.clock } := by
    rw [hinbox₁]
    exact Inbox.State.setTransaction_self _ _ _
  have hknown₁ : s₁.remembers event.idempotencyKey = true := by
    rw [← hknown]
    exact remembers_congr (by rw [hinbox₁]; rfl) _
  obtain ⟨s₂, hreceive, hhandler₂, hhistory₂, ht₂, hmarks₂⟩ :=
    exists_receive_known hhandler₁ ht₁ rfl rfl hvalid (by rw [hinbox₁]; exact hid) hknown₁
  have hunmarked : s₂.inbox.marks = [] := by
    rw [hmarks₂, hinbox₁]
    exact hinv.unmarked
  have hcommit : step consumer s₂ (.commit tx) =
      some { s₂.finish tx (s₂.inbox.finish tx s₂.inbox.table) with
        answered := event.idempotencyKey :: s₂.answered } := by
    show s₂.commit tx = _
    unfold State.commit
    rw [hhandler₂]
    show (Inbox.step s₂.inbox (.commit tx)).map _ = _
    rw [exists_inbox_commit ht₂ rfl hunmarked]
    rfl
  refine ⟨tx, { s₂.finish tx (s₂.inbox.finish tx s₂.inbox.table) with
    answered := event.idempotencyKey :: s₂.answered }, ?_, List.mem_cons_self, ?_⟩
  · refine Transition.System.run_cons_eq_some _ hbegin ?_
    refine Transition.System.run_cons_eq_some _ hreceive ?_
    exact (Transition.System.run_singleton _ _ _).trans hcommit
  · show 0 < effectsSince _ s₂.history
    rw [hhistory₂, hhistory₁, hinv.effects, hknown]
    exact Nat.one_pos

/-- After the rollback of the handler that holds a key, no row has it. -/
theorem exists_rollback (hinv : InboxInv consumer s) {row : InboxEvent}
    (hrow : row ∈ s.inbox.table.rows) (hentry : (tx, row.id) ∈ s.inbox.inserted) :
    ∃ s', step consumer s (.rollback tx) = some s' ∧ s'.outbox = s.outbox ∧
      Inbox.Free row.idempotencyKey s'.inbox ∧ (∀ entry ∈ s'.written, entry ∈ s.written) ∧
      ∀ id, s.inbox.table.lookup id = none → s'.inbox.table.lookup id = none := by
  obtain ⟨handler, _, hhandler, _⟩ := (hinv.handlers tx).owners _ hentry
  obtain ⟨t, ht⟩ : ∃ t, s.inbox.transactions tx = some t := by
    rw [← Option.isSome_iff_exists, ← (hinv.handlers tx).isOpen, hhandler]
    rfl
  have hinbox : Inbox.step s.inbox (.rollback tx) = some (s.inbox.rollback tx) := by
    show (s.inbox.transactions tx).map _ = _
    rw [ht]
    rfl
  refine ⟨s.finish tx (s.inbox.rollback tx), ?_, rfl, fun held hheld hkey => ?_,
    fun entry hmem => (List.mem_filter.mp hmem).1, fun id hid => Table.lookup_delete_of_none hid⟩
  · show s.rollback tx = _
    unfold State.rollback
    rw [hhandler]
    show (Inbox.step s.inbox (.rollback tx)).map _ = _
    rw [hinbox]
    rfl
  · obtain ⟨hheld, hother⟩ := Table.mem_delete.mp hheld
    obtain rfl := Inbox.eq_of_key_eq hheld hrow hkey
    rw [Inbox.owns_iff.mpr hentry] at hother
    exact absurd hother (by simp)

/-- From every reachable state, one more delivery of a valid event is answered
with success, after the rollback of at most one handler, which is the one that
has inserted the key.  The event has then taken effect exactly once since the
last cleanup of its key. -/
theorem exists_redelivery (hs : (chain consumer).Reachable s)
    (hvalid : consumer.clients.inbox.ValidEvent event)
    (hpublishable : Publishable consumer (consumer.publishes event)) {id : EventId}
    (hid : s.inbox.table.lookup id = none) {ids : List EventId} (hids : NewIds s ids)
    (hlength : ids.length = (consumer.publishes event).length) :
    ∃ (blocked : List TransactionId) (tx : TransactionId) (acts : List Action) (s' : State),
      blocked.length ≤ 1 ∧ (∀ holder ∈ blocked, s.HoldsKey event.idempotencyKey holder) ∧
      (∀ act ∈ acts, act.transaction = some tx) ∧
      (chain consumer).run s (blocked.map .rollback ++ acts) = some s' ∧
      event.idempotencyKey ∈ s'.answered ∧ effectsSince event.idempotencyKey s'.history = 1 := by
  have hinv := reachable_inboxInv hs
  have honce : ∀ s', (chain consumer).Reachable s' →
      0 < effectsSince event.idempotencyKey s'.history →
      effectsSince event.idempotencyKey s'.history = 1 := by
    intro s' hs' hpos
    have heffects := (reachable_inboxInv hs').effects event.idempotencyKey
    have hle := Bool.toNat_le (s'.remembers event.idempotencyKey)
    omega
  have hsteps : ∀ tx : TransactionId, ∀ act ∈ ([.begin tx event, .receive tx id] ++
      (ids.map (.publish tx) ++ [.commit tx]) : List Action), act.transaction = some tx := by
    intro tx act hact
    simp only [List.cons_append, List.nil_append, List.mem_cons, List.mem_append, List.mem_map,
      List.not_mem_nil, or_false] at hact
    rcases hact with rfl | rfl | ⟨_, _, rfl⟩ | rfl <;> rfl
  cases hknown : s.remembers event.idempotencyKey with
  | true =>
    obtain ⟨tx, s', hrun, hanswered, heffects⟩ := exists_delivery_known hs hvalid hid hknown
    refine ⟨[], tx, _, s', Nat.zero_le _, by simp, fun act hact => ?_, hrun, hanswered,
      honce s' (reachable_of_run hs hrun) heffects⟩
    simp only [List.mem_cons, List.not_mem_nil, or_false] at hact
    rcases hact with rfl | rfl | rfl <;> rfl
  | false =>
    by_cases htaken : ∃ row ∈ s.inbox.table.rows, row.idempotencyKey = event.idempotencyKey
    · -- The row belongs to a handler that is still open.
      obtain ⟨row, hrow, hkey⟩ := htaken
      obtain ⟨blocked, hentry⟩ : ∃ tx, (tx, row.id) ∈ s.inbox.inserted := by
        by_contra hnone
        rw [Bool.eq_false_iff] at hknown
        exact hknown (remembers_iff.mpr ⟨row, ⟨Table.lookup_of_mem hrow,
          fun tx hentry => hnone ⟨tx, hentry⟩⟩, hkey⟩)
      obtain ⟨s₁, hrollback, houtbox, hfree, hwritten, hlookup⟩ := exists_rollback hinv hrow hentry
      have hrun₁ : (chain consumer).run s [.rollback blocked] = some s₁ :=
        (Transition.System.run_singleton _ _ _).trans hrollback
      have hids₁ : NewIds s₁ ids := ⟨hids.uuid, hids.distinct, by rw [houtbox]; exact hids.free,
        fun id' hmem entry hentry' => hids.unwritten id' hmem entry (hwritten entry hentry')⟩
      obtain ⟨tx, s', hrun, hanswered, heffects⟩ := exists_delivery_free
        (reachable_of_run hs hrun₁) hvalid hpublishable (hlookup id hid) hids₁ hlength
        (hkey ▸ hfree)
      have hwhole := Transition.System.run_append_eq_some _ hrun₁ hrun
      have hholds : ∀ holder ∈ [blocked], s.HoldsKey event.idempotencyKey holder := by
        intro holder hmem
        obtain rfl := List.mem_singleton.mp hmem
        exact ⟨row, hrow, hkey, hentry⟩
      exact ⟨[blocked], tx, _, s', le_refl 1, hholds, hsteps tx, hwhole, hanswered,
        honce s' (reachable_of_run hs hwhole) heffects⟩
    · have hfree : Inbox.Free event.idempotencyKey s.inbox :=
        fun row hrow hkey => htaken ⟨row, hrow, hkey⟩
      obtain ⟨tx, s', hrun, hanswered, heffects⟩ :=
        exists_delivery_free hs hvalid hpublishable hid hids hlength hfree
      exact ⟨[], tx, _, s', Nat.zero_le _, by simp, hsteps tx, hrun, hanswered,
        honce s' (reachable_of_run hs hrun) heffects⟩

/-- The handler of the first delivery holds the key and never returns. -/
theorem exists_redelivery_blocked :
    ∃ s, (chain Sample.orders).run (State.initial 0)
        [.begin 0 (Outboxy.Sample.received "order-1"), .receive 0 Outboxy.Sample.id] = some s ∧
      ∃ (blocked : List TransactionId) (tx : TransactionId) (acts : List Action) (s' : State),
        blocked.length ≤ 1 ∧ (∀ holder ∈ blocked, s.HoldsKey "order-1" holder) ∧
          (∀ act ∈ acts, act.transaction = some tx) ∧
          (chain Sample.orders).run s (blocked.map .rollback ++ acts) = some s' ∧
          "order-1" ∈ s'.answered ∧ effectsSince "order-1" s'.history = 1 := by
  obtain ⟨s, hrun, hinbox, houtbox, hwritten⟩ : ∃ s, (chain Sample.orders).run (State.initial 0)
        [.begin 0 (Outboxy.Sample.received "order-1"), .receive 0 Outboxy.Sample.id] = some s ∧
      s.inbox.table.lookup Outboxy.Sample.otherId = none ∧
      s.outbox.table.lookup Outboxy.Sample.otherId = none ∧ s.written = [] :=
    ⟨_, rfl, rfl, rfl, rfl⟩
  have hids : NewIds s [Outboxy.Sample.otherId] :=
    ⟨by decide, List.nodup_singleton _, by simpa using houtbox, by simp [hwritten]⟩
  refine ⟨s, hrun, exists_redelivery (reachable_of_run (.init ⟨0, rfl⟩) hrun)
    (Outboxy.Sample.validEvent_received rfl) (fun input hinput => ?_) hinbox hids rfl⟩
  obtain rfl := List.mem_singleton.mp hinput
  exact ⟨_, rfl⟩

end Outboxy.Chain
