import Outboxy.Chain.Effects
import Outboxy.RowStep

/-!
# What the atomic chain promises

In every reachable state of the consumer (`Promise`): an event takes effect at
most once between two cleanups of its key, a delivery that was answered with
success has taken effect, and the outbox holds the rows of the events that
took effect, each once, and nothing of a transaction that is still open or
that was rolled back.
-/

namespace Outboxy.Chain

open Inbox (TransactionId)

variable {consumer : Consumer} {s s' : State} {tx : TransactionId} {a : Action}

/-! ## The rows of the outbox -/

/-- The ids of the outbox rows that the entries stand for. -/
def publishedIds (history : List Entry) : List EventId :=
  history.flatMap fun entry => entry.rows.map OutboxEvent.id

theorem publishedIds_cons (entry : Entry) (history : List Entry) :
    publishedIds (entry :: history) = entry.rows.map OutboxEvent.id ++ publishedIds history :=
  List.flatMap_cons

/-- The ids of the rows of open transactions. -/
def State.writtenIds (s : State) : List EventId := s.written.map fun entry => entry.2.id

/-- The rows of the outbox, and those that open transactions will add. -/
structure OutboxInv (s : State) : Prop where
  stored : ∀ id, (s.outbox.table.lookup id).isSome ↔ id ∈ publishedIds s.history
  distinct : (publishedIds s.history ++ s.writtenIds).Nodup

/-- The rows that a commit inserts. -/
theorem lookup_foldlM_insert {rows : List OutboxEvent} {outbox outbox' : Outboxy.State .postgres}
    (h : rows.foldlM Outboxy.State.insert outbox = some outbox') (id : EventId) :
    (outbox'.table.lookup id).isSome ↔
      id ∈ rows.map OutboxEvent.id ∨ (outbox.table.lookup id).isSome := by
  induction rows generalizing outbox with
  | nil =>
    obtain rfl := Option.some.inj h
    simp
  | cons row rows ih =>
    rw [List.foldlM_cons] at h
    obtain ⟨outbox₁, hinsert, h⟩ := Option.bind_eq_some_iff.mp h
    obtain ⟨table, htable, rfl⟩ := insert_cases hinsert
    rw [ih h, State.record_table, Table.lookup_insert htable, List.map_cons, List.mem_cons]
    by_cases hid : id = row.id
    · simp [hid]
    · simp [hid, Ne.symm hid]

theorem writtenIds_perm (s : State) (tx : TransactionId) (inbox : Inbox.State) :
    s.writtenIds.Perm ((s.rowsOf tx).map OutboxEvent.id ++ (s.finish tx inbox).writtenIds) := by
  have hsplit := (List.filter_append_perm (fun entry => decide (entry.1 = tx)) s.written).map
    fun entry => entry.2.id
  rw [List.map_append] at hsplit
  refine hsplit.symm.trans (List.Perm.of_eq (congrArg₂ _ ?_ ?_))
  · rw [State.rowsOf, List.map_map]
    rfl
  · unfold State.writtenIds State.finish
    congr 1
    refine List.filter_congr fun entry _ => ?_
    simp

theorem OutboxInv.finish (h : OutboxInv s) (inbox : Inbox.State)
    (houtbox : s'.outbox = s.outbox) (hhistory : s'.history = s.history)
    (hwritten : s'.writtenIds = (s.finish tx inbox).writtenIds) : OutboxInv s' := by
  refine ⟨?_, ?_⟩
  · rw [houtbox, hhistory]
    exact h.stored
  · rw [hhistory, hwritten]
    refine h.distinct.sublist (List.Sublist.append_left ?_ _)
    exact List.filter_sublist.map _

theorem outboxInv_of_change (h : Change consumer s a s') (hinv : OutboxInv s) : OutboxInv s' := by
  cases h with
  | ticked => exact ⟨hinv.stored, hinv.distinct⟩
  | began => exact ⟨hinv.stored, hinv.distinct⟩
  | received => exact ⟨hinv.stored, hinv.distinct⟩
  | refused => exact ⟨hinv.stored, hinv.distinct⟩
  | cleaned => exact ⟨hinv.stored, hinv.distinct⟩
  | answered tx event inbox => exact hinv.finish inbox rfl rfl rfl
  | rolledBack tx handler inbox => exact hinv.finish inbox rfl rfl rfl
  | published tx id event input rest t values _ _ _ _ hfree hnew =>
    refine ⟨hinv.stored, ?_⟩
    show (publishedIds s.history ++ (s.written ++ [(tx, values.row id t.startedAt)]).map
      fun entry => entry.2.id).Nodup
    rw [List.map_append, ← List.append_assoc, List.nodup_append']
    refine ⟨hinv.distinct, List.nodup_singleton _, fun id' hold hid => ?_⟩
    obtain rfl : id' = id := List.mem_singleton.mp hid
    rcases List.mem_append.mp hold with hstored | hwritten
    · rw [← hinv.stored, hfree] at hstored
      exact absurd hstored (by simp)
    · obtain ⟨entry, hentry, hsame⟩ := List.mem_map.mp hwritten
      exact hnew entry hentry hsame
  | committed tx event inbox outbox _ _ houtbox =>
    refine ⟨fun id => ?_, ?_⟩
    · show (outbox.table.lookup id).isSome ↔
        id ∈ publishedIds (.committed event (s.rowsOf tx) :: s.history)
      rw [lookup_foldlM_insert houtbox, publishedIds_cons, List.mem_append, hinv.stored]
      rfl
    · show (publishedIds (.committed event (s.rowsOf tx) :: s.history) ++
        (s.finish tx inbox).writtenIds).Nodup
      rw [publishedIds_cons]
      refine ((hinv.distinct.perm ((writtenIds_perm s tx inbox).append_left _))).perm ?_
      show (publishedIds s.history ++ ((s.rowsOf tx).map OutboxEvent.id ++
        (s.finish tx inbox).writtenIds)).Perm ((s.rowsOf tx).map OutboxEvent.id ++
          publishedIds s.history ++ (s.finish tx inbox).writtenIds)
      rw [← List.append_assoc]
      exact List.perm_append_comm.append_right _
  | outbox action outbox houtbox hwritten =>
    have hproduced : ∀ id, id ∈ (outbox.table.rows.filter fun row =>
          (s.outbox.table.lookup row.id).isNone).map OutboxEvent.id ↔
        (outbox.table.lookup id).isSome ∧ s.outbox.table.lookup id = none := by
      intro id
      rw [List.mem_map]
      constructor
      · intro h
        obtain ⟨row, hrow, rfl⟩ := h
        obtain ⟨hrow, hnone⟩ := List.mem_filter.mp hrow
        exact ⟨by rw [Table.lookup_of_mem hrow]; rfl, Option.isNone_iff_eq_none.mp hnone⟩
      · intro h
        obtain ⟨row, hrow⟩ := Option.isSome_iff_exists.mp h.1
        have hid : row.id = id := Table.pk_of_lookup hrow
        refine ⟨row, List.mem_filter.mpr ⟨Table.mem_of_lookup hrow, ?_⟩, hid⟩
        rw [hid, h.2]
        rfl
    refine ⟨fun id => ?_, ?_⟩
    · show (outbox.table.lookup id).isSome ↔ id ∈ publishedIds (_ :: s.history)
      rw [publishedIds_cons, List.mem_append, ← hinv.stored]
      refine Iff.trans ?_ (or_congr_left (hproduced id)).symm
      constructor
      · intro hsome
        cases hold : s.outbox.table.lookup id with
        | none => exact Or.inl ⟨hsome, rfl⟩
        | some row => exact Or.inr rfl
      · intro hor
        rcases hor with hnew | hold
        · exact hnew.1
        · exact lookup_isSome_step houtbox hold
    · show (publishedIds (_ :: s.history) ++ s.writtenIds).Nodup
      rw [publishedIds_cons, List.append_assoc, List.nodup_append']
      refine ⟨outbox.table.pk_nodup.sublist (List.filter_sublist.map _), hinv.distinct,
        fun id hnew hold => ?_⟩
      obtain ⟨hsome, hnone⟩ := (hproduced id).mp hnew
      rcases List.mem_append.mp hold with hstored | hwrittenId
      · rw [← hinv.stored, hnone] at hstored
        exact absurd hstored (by simp)
      · obtain ⟨entry, hentry, hid⟩ := List.mem_map.mp hwrittenId
        obtain ⟨row, hrow⟩ := Option.isSome_iff_exists.mp hsome
        exact hwritten row (Table.mem_of_lookup hrow) entry hentry
          (hid.trans (Table.pk_of_lookup hrow).symm)

theorem reachable_outboxInv (h : (chain consumer).Reachable s) : OutboxInv s := by
  refine h.induct (fun s hinit => ?_) fun s a s' _ hinv _
    (hstep : step consumer s a = some s') => outboxInv_of_change (change_of_step hstep) hinv
  obtain ⟨clock, rfl⟩ := hinit
  exact ⟨fun id => by simp [State.initial, Outboxy.State.initial, publishedIds, Table.empty,
    Table.lookup], List.nodup_nil⟩

/-! ## What the handlers have published -/

/-- A handler commits all that its business logic publishes. -/
theorem reachable_published (h : (chain consumer).Reachable s) :
    ∀ event rows, .committed event rows ∈ s.history →
      Published consumer (consumer.publishes event) rows := by
  refine h.induct (P := fun s => ∀ event rows, .committed event rows ∈ s.history →
      Published consumer (consumer.publishes event) rows) (fun s hinit => ?_)
    fun s a s' hs hpublished _ (hstep : step consumer s a = some s') => ?_
  · obtain ⟨clock, rfl⟩ := hinit
    simp [State.initial]
  · have hchange := change_of_step hstep
    cases hchange with
    | committed tx event inbox outbox hhandler =>
      obtain ⟨_, done, hdone, hdonePublished⟩ :=
        ((reachable_inboxInv hs).handlers tx).phase _ _ hhandler
      intro event' rows hmem
      rcases List.mem_cons.mp hmem with heq | hmem
      · obtain ⟨rfl, rfl⟩ := Entry.committed.inj heq
        rw [hdone, List.append_nil]
        exact hdonePublished
      · exact hpublished event' rows hmem
    | cleaned =>
      intro event' rows hmem
      exact hpublished event' rows ((List.mem_cons.mp hmem).resolve_left (by simp))
    | outbox =>
      intro event' rows hmem
      exact hpublished event' rows ((List.mem_cons.mp hmem).resolve_left (by simp))
    | _ => exact hpublished

/-! ## The promise -/

structure Promise (consumer : Consumer) (s : State) : Prop where
  once : ∀ key, effectsSince key s.history ≤ 1
  /-- The inbox knows the events that took effect. -/
  remembered : ∀ key, effectsSince key s.history = 1 ↔
    ∃ row, Inbox.Committed s.inbox row ∧ row.idempotencyKey = key
  answered : ∀ key ∈ s.answered, TookEffect s key
  exactlyOnce : ∀ key ∈ s.answered, Uncleaned key s.history →
    s.history.countP (Entry.takesEffect key) = 1
  published : ∀ event rows, .committed event rows ∈ s.history →
    Published consumer (consumer.publishes event) rows
  stored : ∀ id, (s.outbox.table.lookup id).isSome ↔ id ∈ publishedIds s.history
  distinct : (publishedIds s.history).Nodup
  /-- Nothing of an open transaction is seen. -/
  hidden : ∀ entry ∈ s.written, s.outbox.table.lookup entry.2.id = none

/-- In every reachable state of the atomic chain, each event has taken effect
at most once since the last cleanup of its key.  It has if a delivery of it was
answered with success, and exactly once if its key was never cleaned up.  The
outbox holds exactly what the committed handlers and the other producers have
published. -/
theorem chain_keeps_promise (hs : (chain consumer).Reachable s) : Promise consumer s := by
  have hinbox := reachable_inboxInv hs
  obtain ⟨hstored, hdistinct⟩ := reachable_outboxInv hs
  have hcount : ∀ key, effectsSince key s.history = 1 ↔ s.remembers key = true := by
    intro key
    rw [hinbox.effects]
    cases s.remembers key <;> simp
  have hatMost : ∀ key, effectsSince key s.history ≤ 1 := by
    intro key
    rw [hinbox.effects]
    exact Bool.toNat_le _
  refine ⟨hatMost, fun key => (hcount key).trans remembers_iff, hinbox.answered,
    fun key hkey huncleaned =>
      countP_takesEffect huncleaned (hinbox.answered key hkey) (hatMost key),
    reachable_published hs, hstored, (List.nodup_append'.mp hdistinct).1, fun entry hentry => ?_⟩
  · rw [← Option.not_isSome_iff_eq_none, hstored]
    intro hmem
    exact (List.nodup_append'.mp hdistinct).2.2 hmem (List.mem_map_of_mem hentry)

/-- A redelivered event takes effect once. -/
theorem chain_keeps_promise_redelivered :
    ∃ s, (chain Sample.orders).run (State.initial 0) Sample.redelivered = some s ∧
      s.answered = ["order-1", "order-1"] ∧ effectsSince "order-1" s.history = 1 ∧
      Promise Sample.orders s := by
  obtain ⟨s, hrun, hanswered, heffects⟩ : ∃ s,
      (chain Sample.orders).run (State.initial 0) Sample.redelivered = some s ∧
        s.answered = ["order-1", "order-1"] ∧ effectsSince "order-1" s.history = 1 :=
    ⟨_, rfl, rfl, rfl⟩
  exact ⟨s, hrun, hanswered, heffects,
    chain_keeps_promise (Transition.System.Reachable.run (.init ⟨0, rfl⟩) hrun)⟩

end Outboxy.Chain
