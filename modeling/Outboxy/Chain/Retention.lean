import Outboxy.Chain.Effects

/-!
# The retention window

A cleanup of the inbox forgets keys, and a forgotten event takes effect once
more when it is delivered again.  `retention` says when that can be: not before
the retention time has passed since the first handler of the event began.

The rows of an open transaction are stamped with its `BEGIN` (`Stamped`), and a
committed row keeps its stamp until a cleanup finds it expired
(`kept_of_change`).
-/

namespace Outboxy.Chain

open Inbox (TransactionId)

variable {consumer : Consumer} {s s' u : State} {tx tx' : TransactionId} {a : Action}
  {inbox inbox' : Inbox.State} {action : Inbox.Action}

/-! ## The stamps of open transactions -/

/-- The rows of an open transaction are stamped with its `BEGIN`. -/
def Stamped (inbox : Inbox.State) : Prop :=
  ∀ tx t row, inbox.transactions tx = some t → (tx, row.id) ∈ inbox.inserted →
    inbox.table.lookup row.id = some row → row.processedAt = some t.startedAt

theorem processedAt_of_rowOf {client : InboxyClient .postgres} {stamp : Stamp}
    {event : InboxReceiveEventInput} {row : InboxEvent} (h : client.RowOf (stamp, event) row) :
    row.processedAt = some stamp.now := by
  obtain ⟨_, _, hrow⟩ := h
  exact (isRow_of_row hrow).processedAt

/-- A transaction that is not new to the inbox. -/
theorem Stamped.setTransaction (h : Stamped inbox) {t t' : Inbox.Transaction}
    (ht : inbox.transactions tx = some t) (hstart : t'.startedAt = t.startedAt) :
    Stamped (inbox.setTransaction tx (some t')) := by
  intro tx' u row hu hentry hrow
  by_cases heq : tx' = tx
  · subst heq
    obtain rfl := Option.some.inj ((inbox.setTransaction_self tx' _).symm.trans hu)
    rw [hstart]
    exact h tx' t row ht hentry hrow
  · rw [inbox.setTransaction_of_ne heq] at hu
    exact h tx' u row hu hentry hrow

/-- A transaction that inserts rows. -/
theorem Stamped.store (h : Stamped inbox) (hinv : Inbox.Inv inbox) {t : Inbox.Transaction}
    {rows : List InboxEvent} (ht : inbox.transactions tx = some t) (hfresh : inbox.table.Fresh rows)
    (hrows : ∀ row ∈ rows, row.processedAt = some t.startedAt) :
    Stamped (inbox.store tx (inbox.table.insertFree rows) (rows.map InboxEvent.id)) := by
  intro tx' u row hu hentry hrow
  rcases Inbox.mem_store_inserted.mp hentry with ⟨heq, hmem, _⟩ | hold
  · obtain rfl : tx' = tx := heq
    obtain ⟨new, hnew, hid⟩ : ∃ new ∈ rows, new.id = row.id := List.mem_map.mp hmem
    obtain rfl : row = new := hfresh.eq_of_lookup hnew (by rw [hid]; exact hrow)
    obtain rfl := Option.some.inj (ht.symm.trans hu)
    exact hrows row hnew
  · obtain ⟨held, hheld⟩ := Option.isSome_iff_exists.mp (hinv.stored _ hold)
    obtain rfl := Option.some.inj
      (hrow.symm.trans (Table.lookup_insertFree_of_some hheld rows))
    exact h tx' u row hu hold hheld

/-- The end of another transaction. -/
theorem Stamped.finish (h : Stamped inbox) {table : InboxTable Adapter.postgres.collate}
    (htable : ∀ id row, table.lookup id = some row → inbox.table.lookup id = some row) :
    Stamped (inbox.finish tx table) := by
  intro tx' u row hu hentry hrow
  obtain ⟨hold, hne⟩ := Inbox.mem_finish_inserted.mp hentry
  rw [inbox.finish_of_ne hne] at hu
  exact h tx' u row hu hold (htable _ row hrow)

theorem applyMarks_nil {table table' : InboxTable Adapter.postgres.collate}
    (h : Inbox.State.applyMarks [] tx table = some table') : table' = table :=
  (Option.some.inj h).symm

theorem stamped_of_change (h : Inbox.Change inbox action inbox') (hinv : Inbox.Inv inbox)
    (hmarks : inbox.marks = []) (haction : ofChain action) (hstamped : Stamped inbox) :
    Stamped inbox' := by
  cases h with
  | unchanged => exact hstamped
  | ticked => exact hstamped
  | began tx hnone =>
    intro tx' u row hu hentry hrow
    have hne : tx' ≠ tx := by
      rintro rfl
      have hopen := hinv.isOpen _ hentry
      rw [hnone] at hopen
      exact absurd hopen (by simp)
    rw [inbox.setTransaction_of_ne hne] at hu
    exact hstamped tx' u row hu hentry hrow
  | called _ tx t call _ ht => exact hstamped.setTransaction ht rfl
  | received tx client id event t row ht _ hrow hfresh =>
    refine (hstamped.store hinv ht hfresh fun new hnew => ?_).setTransaction ht rfl
    obtain rfl := List.mem_singleton.mp hnew
    exact processedAt_of_rowOf hrow
  | insertedChunk => exact absurd haction id
  | foundChunk => exact absurd haction id
  | marked => exact absurd haction id
  | committed tx t table _ _ htable =>
    rw [hmarks] at htable
    obtain rfl := applyMarks_nil htable
    exact hstamped.finish fun _ _ hrow => hrow
  | rolledBack => exact hstamped.finish fun _ _ hrow => (Table.of_lookup_delete hrow).1
  | cleaned =>
    intro tx' u row hu hentry hrow
    exact hstamped tx' u row hu hentry (Table.of_lookup_delete hrow).1

theorem stamped_of_reachable (hs : (chain consumer).Reachable s) : Stamped s.inbox := by
  refine hs.induct (P := fun s => Stamped s.inbox) (fun s hinit => ?_) fun s a s' hs hstamped _
    (hstep : step consumer s a = some s') => ?_
  · obtain ⟨clock, rfl⟩ := hinit
    intro tx t row ht
    exact absurd ht (by simp [State.initial, Inbox.State.initial])
  · have hinv := reachable_inboxInv hs
    rcases inbox_of_change (change_of_step hstep) with heq | ⟨action, hinbox, hofChain, _⟩
    · rw [heq]
      exact hstamped
    · exact stamped_of_change (Inbox.change_of_step hinbox) (Inbox.reachable_inv hinv.reachable)
        hinv.unmarked hofChain hstamped

/-! ## The stamps of committed rows -/

/-- A committed row stays as it is, unless a cleanup finds it expired. -/
theorem kept_of_change {row : InboxEvent} (h : Inbox.Change inbox action inbox')
    (hmarks : inbox.marks = []) (hrow : Inbox.Committed inbox row) :
    Inbox.Committed inbox' row ∨ ∃ retentionDays : ℚ,
      action = .cleanupProcessedInboxEvents retentionDays ∧ retentionDays.den = 1 ∧
        inbox.expired retentionDays row = true := by
  rcases Inbox.committed_of_change h hrow with
    ⟨row', hrow', hid, _⟩ | ⟨retentionDays, heq, hdays, hexpired, _⟩
  · refine .inl ?_
    have hlookup : inbox'.table.lookup row.id = some row' := hid ▸ hrow'.lookup
    suffices row' = row from this ▸ hrow'
    cases h with
    | received =>
      have hsame := Table.lookup_insertFree_of_some hrow.lookup
      exact Option.some.inj (hlookup.symm.trans (hsame _))
    | insertedChunk =>
      have hsame := Table.lookup_insertFree_of_some hrow.lookup
      exact Option.some.inj (hlookup.symm.trans (hsame _))
    | committed tx t table _ _ htable =>
      rw [hmarks] at htable
      obtain rfl := applyMarks_nil htable
      exact Option.some.inj (hlookup.symm.trans hrow.lookup)
    | rolledBack =>
      exact Option.some.inj ((Table.of_lookup_delete hlookup).1.symm.trans hrow.lookup)
    | cleaned =>
      exact Option.some.inj ((Table.of_lookup_delete hlookup).1.symm.trans hrow.lookup)
    | _ => exact Option.some.inj (hlookup.symm.trans hrow.lookup)
  · exact .inr ⟨retentionDays, heq, hdays.1, hexpired⟩

/-- Time does not run backwards. -/
theorem clock_le_of_change (h : Inbox.Change inbox action inbox') : inbox.clock ≤ inbox'.clock := by
  cases h with
  | ticked micros => exact Int.le_add_of_nonneg_right (Int.natCast_nonneg micros)
  | _ => exact Int.le_refl inbox.clock

/-- An expired row is older than the retention time. -/
theorem lt_clock_of_expired {row : InboxEvent} {retentionDays : ℚ} {days time : Int}
    (hexpired : inbox.expired retentionDays row = true) (hden : retentionDays.den = 1)
    (hdays : days ≤ retentionDays) (htime : row.processedAt = some time) :
    time + days * Time.day < inbox.clock := by
  have hnum : days ≤ retentionDays.num := by
    rw [← Rat.coe_int_num_of_den_eq_one hden] at hdays
    exact_mod_cast hdays
  have hday : days * Time.day ≤ retentionDays.num * Time.day :=
    Int.mul_le_mul_of_nonneg_right hnum (by decide)
  have hprocessed := ((Bool.and_eq_true _ _).mp hexpired).1
  have hlt := ((Bool.and_eq_true _ _).mp hprocessed).2
  rw [htime, sqlLt_some, decide_eq_true_eq] at hlt
  omega

/-! ## The window -/

/-- A committed row has the key and the stamp. -/
def RemembersSince (s : State) (key : String) (time : Int) : Prop :=
  ∃ row, Inbox.Committed s.inbox row ∧ row.idempotencyKey = key ∧ row.processedAt = some time

theorem remembersSince_of_change {key : String} {time days : Int} (h : Change consumer s a s')
    (hmarks : s.inbox.marks = [])
    (hdays : ∀ retentionDays : ℚ, a = .cleanupProcessedInboxEvents retentionDays →
      days ≤ retentionDays)
    (hs : RemembersSince s key time ∨ time + days * Time.day < s.inbox.clock) :
    RemembersSince s' key time ∨ time + days * Time.day < s'.inbox.clock := by
  rcases inbox_of_change h with heq | ⟨action, hstep, _, hcleanup⟩
  · unfold RemembersSince at hs ⊢
    rw [heq]
    exact hs
  · have hchange := Inbox.change_of_step hstep
    have hclock := clock_le_of_change hchange
    rcases hs with ⟨row, hrow, hkey, htime⟩ | hlater
    · rcases kept_of_change hchange hmarks hrow with hkept | ⟨retentionDays, heq, hden, hexpired⟩
      · exact .inl ⟨row, hkept, hkey, htime⟩
      · have hlater := lt_clock_of_expired hexpired hden (hdays _ (hcleanup _ heq)) htime
        exact .inr (Int.lt_of_lt_of_le hlater hclock)
    · exact .inr (Int.lt_of_lt_of_le hlater hclock)

/-- The commit of a handler leaves the key of its event stamped with its
`BEGIN`. -/
theorem remembersSince_of_commit {event : InboxReceiveEventInput} {t : Inbox.Transaction}
    (hs : (chain consumer).Reachable s) (hhandler : s.handlers tx = some ⟨event, .processing []⟩)
    (ht : s.inbox.transactions tx = some t) (hcommit : step consumer s (.commit tx) = some s') :
    RemembersSince s' event.idempotencyKey t.startedAt := by
  have hinv := reachable_inboxInv hs
  obtain ⟨⟨row, hrow, hentry, hkey⟩, _⟩ := (hinv.handlers tx).phase _ _ hhandler
  have hstamp := stamped_of_reachable hs tx t row ht hentry hrow
  have hinbox : Inbox.step s.inbox (.commit tx) = some s'.inbox := by
    change s.commit tx = some s' at hcommit
    rw [State.commit, hhandler] at hcommit
    obtain ⟨inbox, hinbox, h⟩ := Option.bind_eq_some_iff.mp hcommit
    obtain ⟨outbox, _, rfl⟩ := Option.map_eq_some_iff.mp h
    exact hinbox
  obtain ⟨_, table, _, _, htable, heq⟩ := Inbox.commit_cases hinbox
  rw [hinv.unmarked] at htable
  obtain rfl := applyMarks_nil htable
  refine ⟨row, ?_, hkey, hstamp⟩
  rw [heq]
  refine ⟨hrow, fun tx' hentry' => ?_⟩
  obtain ⟨hold, hne⟩ := Inbox.mem_finish_inserted.mp hentry'
  exact hne ((Inbox.reachable_inv hinv.reachable).owner _ hold _ hentry rfl)

/-- An event that took effect can take effect again only when the retention
time of the cleanups has passed since its first handler began. -/
theorem retention {actions : List Action} {event event' : InboxReceiveEventInput}
    {rest : List PublishEventInput} {t : Inbox.Transaction} {days : Int}
    (hs : (chain consumer).Reachable s) (hhandler : s.handlers tx = some ⟨event, .processing []⟩)
    (ht : s.inbox.transactions tx = some t) (hcommit : step consumer s (.commit tx) = some s')
    (hrun : (chain consumer).run s' actions = some u)
    (hdays : ∀ retentionDays : ℚ, .cleanupProcessedInboxEvents retentionDays ∈ actions →
      days ≤ retentionDays)
    (hhandler' : u.handlers tx' = some ⟨event', .processing rest⟩)
    (hkey : event'.idempotencyKey = event.idempotencyKey) :
    t.startedAt + days * Time.day < u.inbox.clock := by
  have hs' : (chain consumer).Reachable s' := .step (a := .commit tx) hs trivial hcommit
  have hu : (chain consumer).Reachable u := Transition.System.Reachable.run hs' hrun
  have hkept : RemembersSince u event.idempotencyKey t.startedAt ∨
      t.startedAt + days * Time.day < u.inbox.clock := by
    refine Transition.System.run_keeps (P := fun s => (chain consumer).Reachable s ∧
      (RemembersSince s event.idempotencyKey t.startedAt ∨
        t.startedAt + days * Time.day < s.inbox.clock)) ?_ hrun
      ⟨hs', .inl (remembersSince_of_commit hs hhandler ht hcommit)⟩ |>.2
    rintro v action v' ⟨pre, post, rfl, _, hstep⟩ ⟨hv, hwindow⟩
    refine ⟨.step hv trivial hstep, ?_⟩
    refine remembersSince_of_change (change_of_step hstep) (reachable_inboxInv hv).unmarked
      (fun retentionDays haction => hdays retentionDays ?_) hwindow
    simp [haction]
  refine hkept.resolve_left ?_
  rintro ⟨row, hrow, hrowKey, _⟩
  -- The second handler has inserted its key, so no committed row has it.
  have hforgotten := remembers_processing (reachable_inboxInv hu) hhandler'
  rw [Bool.eq_false_iff, Ne, remembers_iff] at hforgotten
  exact hforgotten ⟨row, hrow, hrowKey.trans hkey.symm⟩

namespace Sample

open Outboxy.Sample (id otherId received)

/-- An order, up to the commit of its handler. -/
def delivered : List Action :=
  [.begin 0 (received "order-1"), .receive 0 id, .publish 0 otherId]

/-- The inbox forgets the order after eight days, and it is delivered again. -/
def forgotten : List Action :=
  [.tick (8 * Time.day).toNat, .cleanupProcessedInboxEvents 7, .begin 1 (received "order-1"),
    .receive 1 otherId]

end Sample

/-- With a retention time of seven days, an order takes effect again after
eight. -/
theorem retention_forgotten :
    ∃ s t s' u, (chain Sample.orders).run (.initial 0) Sample.delivered = some s ∧
      s.inbox.transactions 0 = some t ∧ step Sample.orders s (.commit 0) = some s' ∧
      (chain Sample.orders).run s' Sample.forgotten = some u ∧
      (u.handlers 1).isSome ∧ t.startedAt + 7 * Time.day < u.inbox.clock := by
  obtain ⟨s, t, s', u, event, rest, hrun, ht, hhandler, hcommit, hrun', hhandler'⟩ :
      ∃ s t s' u event rest, (chain Sample.orders).run (.initial 0) Sample.delivered = some s ∧
        s.inbox.transactions 0 = some t ∧ s.handlers 0 = some ⟨event, .processing []⟩ ∧
        step Sample.orders s (.commit 0) = some s' ∧
        (chain Sample.orders).run s' Sample.forgotten = some u ∧
        u.handlers 1 = some ⟨event, .processing rest⟩ :=
    ⟨_, _, _, _, _, _, rfl, rfl, rfl, rfl, rfl, rfl⟩
  have hs : (chain Sample.orders).Reachable s :=
    Transition.System.Reachable.run (.init ⟨0, rfl⟩) hrun
  refine ⟨s, t, s', u, hrun, ht, hcommit, hrun', hhandler' ▸ rfl,
    retention hs hhandler ht hcommit hrun' (fun retentionDays hmem => ?_) hhandler' rfl⟩
  obtain rfl : retentionDays = 7 := by simpa [Sample.forgotten] using hmem
  exact_mod_cast le_rfl

end Outboxy.Chain
