import Outboxy.Chain.System
import Outboxy.Inbox.Invariants

/-!
# What a step of the chain can do

`Change` lists the effects that a step can have, with what it checked; the
inversion lemma is `change_of_step`.  A `receive` throws, finds the key taken
or inserts its row, and these are three changes.
-/

namespace Outboxy.Chain

open Inbox (TransactionId)

variable {consumer : Consumer} {s s' : State} {tx : TransactionId} {a : Action}

/-! ## One receive -/

/-- The row that a `receive` inserts is its transaction's. -/
theorem insertFree_singleton_of_conflict {table : InboxTable Adapter.postgres.collate}
    {row held : InboxEvent} (h : table.conflict row = some held) :
    table.insertFree [row] = table :=
  Table.insertFree_cons_of_conflict h []

/-- A transaction whose key is taken inserts nothing. -/
theorem store_of_conflict {inbox : Inbox.State} {row held : InboxEvent}
    (h : inbox.table.conflict row = some held) (hfresh : inbox.table.lookup row.id = none) :
    inbox.store tx (inbox.table.insertFree [row]) [row.id] = inbox := by
  rw [insertFree_singleton_of_conflict h]
  unfold Inbox.State.store
  simp [hfresh]

/-- The first `receive` of a transaction. -/
theorem receive_step_cases {inbox inbox' : Inbox.State} {t : Inbox.Transaction}
    {client : InboxyClient .postgres} {id : EventId} {event : InboxReceiveEventInput}
    (ht : inbox.transactions tx = some t) (hanswers : t.answers = [])
    (h : Inbox.step inbox (.receive tx client id event) = some inbox') :
    inbox' = inbox ∨
      ∃ row : InboxEvent, row.idempotencyKey = event.idempotencyKey ∧
        inbox.table.lookup row.id = none ∧
        inbox.waits tx event.idempotencyKey = false ∧
        ((∃ held, inbox.table.conflict row = some held ∧
            inbox' = inbox.setTransaction tx (some { t with
              answers := [(event.idempotencyKey, ⟨none, .duplicate⟩)] })) ∨
          (inbox.table.conflict row = none ∧
            inbox' = (inbox.store tx (inbox.table.insertFree [row]) [row.id]).setTransaction tx
              (some { t with
                answers := [(event.idempotencyKey, ⟨some row.id, .processed⟩)] }))) := by
  obtain ⟨t', ht', h⟩ := Option.bind_eq_some_iff.mp h
  obtain rfl := Option.some.inj (ht.symm.trans ht')
  unfold Inbox.State.receive at h
  split at h
  · rename_i result table hcall hlookup hrun
    split at h
    · exact absurd h (by simp)
    · rename_i hwaits
      obtain rfl := Option.some.inj h
      obtain ⟨row, hrow⟩ := exists_rowOf_of_receive hrun
      obtain ⟨hid, hkey⟩ := hrow.id_key
      have hid : row.id = id := hid
      have hnew : inbox.table.lookup row.id = none := by rw [hid]; exact hlookup
      have hfresh : inbox.table.Fresh [row] := ⟨by simpa using hnew, List.nodup_singleton _⟩
      have hreceive := run_receive_of_rowOf hrow hfresh
      rw [hrun] at hreceive
      obtain ⟨rfl, rfl⟩ := Prod.mk.inj (Except.ok.inj hreceive)
      refine Or.inr ⟨row, hkey, hnew, by simpa using hwaits, ?_⟩
      rw [← hid, hanswers, List.nil_append]
      cases hconflict : inbox.table.conflict row with
      | some held =>
        refine Or.inl ⟨held, rfl, ?_⟩
        rw [store_of_conflict hconflict hnew]
        simp [insertResult, hconflict, Adapter.supportsReturning]
      | none =>
        refine Or.inr ⟨rfl, ?_⟩
        simp [insertResult, hconflict]
  · exact Or.inl (Option.some.inj h).symm
  · exact absurd h (by simp)

/-! ## Every step -/

inductive Change (consumer : Consumer) (s : State) : Action → State → Prop
  | ticked (micros : Nat) : Change consumer s (.tick micros)
      { s with
        inbox := { s.inbox with clock := s.inbox.clock + micros }
        outbox := { s.outbox with clock := s.outbox.clock + micros } }
  | began (tx : TransactionId) (event : InboxReceiveEventInput) (hhandler : s.handlers tx = none)
      (hnone : s.inbox.transactions tx = none) :
      Change consumer s (.begin tx event)
        (({ s with
          inbox := s.inbox.setTransaction tx (some { startedAt := s.inbox.clock }) } :
            State).setHandler tx (some ⟨event, .receiving⟩))
  /-- What a `receive` makes of the inbox is known to `receive_step_cases`. -/
  | received (tx : TransactionId) (id : EventId) (event : InboxReceiveEventInput)
      (inbox : Inbox.State) (hhandler : s.handlers tx = some ⟨event, .receiving⟩)
      (hinbox : Inbox.step s.inbox (.receive tx consumer.clients.inbox id event) = some inbox) :
      Change consumer s (.receive tx id)
        (({ s with inbox := inbox } : State).setHandler tx
          (some ⟨event, State.received consumer event (inbox.transactions tx)⟩))
  | published (tx : TransactionId) (id : EventId) (event : InboxReceiveEventInput)
      (input : PublishEventInput) (rest : List PublishEventInput) (t : Inbox.Transaction)
      (values : InsertValues) (ht : s.inbox.transactions tx = some t)
      (hhandler : s.handlers tx = some ⟨event, .processing (input :: rest)⟩)
      (hvalues : consumer.clients.outbox.insertValues input = .ok values)
      (huuid : isUuid id = true) (hfree : s.outbox.table.lookup id = none)
      (hnew : ∀ entry ∈ s.written, entry.2.id ≠ id) :
      Change consumer s (.publish tx id)
        (({ s with written := s.written ++ [(tx, values.row id t.startedAt)] } : State).setHandler
          tx (some ⟨event, .processing rest⟩))
  /-- The call throws. -/
  | refused (tx : TransactionId) (id : EventId) (event : InboxReceiveEventInput)
      (rest : List PublishEventInput)
      (hhandler : s.handlers tx = some ⟨event, .processing rest⟩) :
      Change consumer s (.publish tx id) (s.setHandler tx (some ⟨event, .failed⟩))
  | answered (tx : TransactionId) (event : InboxReceiveEventInput) (inbox : Inbox.State)
      (hhandler : s.handlers tx = some ⟨event, .duplicate⟩)
      (hinbox : Inbox.step s.inbox (.commit tx) = some inbox) :
      Change consumer s (.commit tx)
        { s.finish tx inbox with answered := event.idempotencyKey :: s.answered }
  | committed (tx : TransactionId) (event : InboxReceiveEventInput) (inbox : Inbox.State)
      (outbox : Outboxy.State .postgres)
      (hhandler : s.handlers tx = some ⟨event, .processing []⟩)
      (hinbox : Inbox.step s.inbox (.commit tx) = some inbox)
      (houtbox : (s.rowsOf tx).foldlM Outboxy.State.insert s.outbox = some outbox) :
      Change consumer s (.commit tx)
        (({ s.finish tx inbox with
          outbox := outbox
          answered := event.idempotencyKey :: s.answered } : State).record
            (.committed event (s.rowsOf tx)))
  | rolledBack (tx : TransactionId) (handler : Handler) (inbox : Inbox.State)
      (hhandler : s.handlers tx = some handler)
      (hinbox : Inbox.step s.inbox (.rollback tx) = some inbox) :
      Change consumer s (.rollback tx) (s.finish tx inbox)
  | cleaned (retentionDays : ℚ) (inbox : Inbox.State)
      (hinbox : Inbox.step s.inbox (.cleanupProcessedInboxEvents retentionDays) = some inbox) :
      Change consumer s (.cleanupProcessedInboxEvents retentionDays)
        (({ s with inbox := inbox } : State).record
          (.cleaned (s.inbox.table.rows.filter fun row => (inbox.table.lookup row.id).isNone)))
  | outbox (action : Outboxy.Action) (outbox : Outboxy.State .postgres)
      (houtbox : Outboxy.step s.outbox action = some outbox)
      (hwritten : ∀ row ∈ outbox.table.rows, ∀ entry ∈ s.written, entry.2.id ≠ row.id) :
      Change consumer s (.outbox action)
        (({ s with outbox := outbox } : State).record
          (.produced (outbox.table.rows.filter fun row => (s.outbox.table.lookup row.id).isNone)))

theorem begin_change {event : InboxReceiveEventInput} (h : s.begin tx event = some s') :
    Change consumer s (.begin tx event) s' := by
  unfold State.begin at h
  split at h
  · rename_i hhandler
    obtain ⟨inbox, hinbox, rfl⟩ := Option.map_eq_some_iff.mp h
    change s.inbox.begin tx = some inbox at hinbox
    unfold Inbox.State.begin at hinbox
    split at hinbox
    · rename_i hnone
      obtain rfl := Option.some.inj hinbox
      exact .began tx event hhandler hnone
    · exact absurd hinbox (by simp)
  · exact absurd h (by simp)

theorem publish_change {id : EventId} (h : s.publish consumer tx id = some s') :
    Change consumer s (.publish tx id) s' := by
  unfold State.publish at h
  split at h
  · rename_i event input rest t hhandler ht
    split at h
    · rename_i values hvalues
      split at h
      · rename_i hfresh
        obtain rfl := Option.some.inj h
        exact .published tx id event input rest t values ht hhandler hvalues hfresh.1 hfresh.2.1
          hfresh.2.2
      · exact absurd h (by simp)
    · obtain rfl := Option.some.inj h
      exact .refused tx id event _ hhandler
  · exact absurd h (by simp)

theorem commit_change (h : s.commit tx = some s') : Change consumer s (.commit tx) s' := by
  unfold State.commit at h
  split at h
  · rename_i event hhandler
    obtain ⟨inbox, hinbox, rfl⟩ := Option.map_eq_some_iff.mp h
    exact .answered tx event inbox hhandler hinbox
  · rename_i event hhandler
    obtain ⟨inbox, hinbox, h⟩ := Option.bind_eq_some_iff.mp h
    obtain ⟨outbox, houtbox, rfl⟩ := Option.map_eq_some_iff.mp h
    exact .committed tx event inbox outbox hhandler hinbox houtbox
  · exact absurd h (by simp)

theorem outboxStep_change {action : Outboxy.Action} (h : s.outboxStep action = some s') :
    Change consumer s (.outbox action) s' := by
  unfold State.outboxStep at h
  split at h
  · exact absurd h (by simp)
  · obtain ⟨outbox, houtbox, h⟩ := Option.bind_eq_some_iff.mp h
    split at h
    · exact absurd h (by simp)
    · rename_i hwritten
      obtain rfl := Option.some.inj h
      refine .outbox action outbox houtbox fun row hrow entry hentry hid => ?_
      exact hwritten ⟨row, hrow, entry, hentry, hid⟩

theorem change_of_step (h : step consumer s a = some s') : Change consumer s a s' := by
  cases a with
  | tick micros =>
    obtain rfl := Option.some.inj h
    exact .ticked micros
  | begin tx event => exact begin_change h
  | receive tx id =>
    change s.receive consumer tx id = some s' at h
    unfold State.receive at h
    split at h
    · rename_i event hhandler
      obtain ⟨inbox, hinbox, rfl⟩ := Option.map_eq_some_iff.mp h
      exact .received tx id event inbox hhandler hinbox
    · exact absurd h (by simp)
  | publish tx id => exact publish_change h
  | commit tx => exact commit_change h
  | rollback tx =>
    change s.rollback tx = some s' at h
    unfold State.rollback at h
    split at h
    · rename_i handler hhandler
      obtain ⟨inbox, hinbox, rfl⟩ := Option.map_eq_some_iff.mp h
      exact .rolledBack tx handler inbox hhandler hinbox
    · exact absurd h (by simp)
  | cleanupProcessedInboxEvents retentionDays =>
    obtain ⟨inbox, hinbox, rfl⟩ := Option.map_eq_some_iff.mp h
    exact .cleaned retentionDays inbox hinbox
  | outbox action => exact outboxStep_change h

/-! ## The inbox of a step -/

/-- The actions of the inbox that the chain makes use of. -/
def ofChain : Inbox.Action → Prop
  | .receiveBatch .. => False
  | .insertChunk _ => False
  | .findChunk _ => False
  | .markFailed .. => False
  | _ => True

/-- The inbox stays, or takes a step of its own. -/
theorem inbox_of_change (h : Change consumer s a s') :
    s'.inbox = s.inbox ∨ ∃ action, Inbox.step s.inbox action = some s'.inbox ∧ ofChain action ∧
      ∀ retentionDays, action = .cleanupProcessedInboxEvents retentionDays →
        a = .cleanupProcessedInboxEvents retentionDays := by
  cases h with
  | published => exact .inl rfl
  | refused => exact .inl rfl
  | outbox => exact .inl rfl
  | ticked micros => exact .inr ⟨.tick micros, rfl, trivial, by simp⟩
  | began tx event _ hnone =>
    refine .inr ⟨.begin tx, ?_, trivial, by simp⟩
    show s.inbox.begin tx = _
    rw [Inbox.State.begin, hnone]
    rfl
  | received tx id event inbox _ hinbox => exact .inr ⟨_, hinbox, trivial, by simp⟩
  | answered tx event inbox _ hinbox => exact .inr ⟨_, hinbox, trivial, by simp⟩
  | committed tx event inbox outbox _ hinbox => exact .inr ⟨_, hinbox, trivial, by simp⟩
  | rolledBack tx handler inbox _ hinbox => exact .inr ⟨_, hinbox, trivial, by simp⟩
  | cleaned retentionDays inbox hinbox => exact .inr ⟨_, hinbox, trivial, by simp⟩

end Outboxy.Chain
