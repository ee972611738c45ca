import Outboxy.Invariants

/-!
# Exclusive claims

In runs without stale recovery and without range replay, a claim is
exclusive until its outcome is written: `Exclusive` is the invariant, and
`inFlight_row_step` is its core, the fact that nobody else touches a row in
flight.

The invariant speaks about the events whose outcome is not written yet.  The
whole batch of a worker is not exclusive: the worker waits for all of its
repository calls, and a failed event whose retry is scheduled early can be
claimed again before the other calls are done.
-/

namespace Outboxy

variable {a : Adapter} {s s' : State a} {act : Action}

/-- The action belongs to a stale recovery or a range replay. -/
def Action.takesOver : Action → Bool
  | .recover _ _ => true
  | .recoverUpdate _ => true
  | .rangeSelect _ _ _ => true
  | .rangeUpdate _ => true
  | _ => false

/-- Reachability without stale recovery and range replay. -/
def ReachableUndisturbed (s : State a) : Prop :=
  (outbox a).ReachableBy (fun _ act => act.takesOver = false) s

/-- The batch that a worker has in flight. -/
def Task.events : Task → List OutboxEvent
  | .claimed _ events => events
  | .writing _ events _ _ => events
  | _ => []

/-- The ids of the claim that a call works on. -/
def Task.batch : Task → List EventId
  | .claimCommitted _ ids => ids
  | .claimed _ events => events.map OutboxEvent.id
  | .writing _ events _ _ => events.map OutboxEvent.id
  | _ => []

/-- The event is in flight at the task and its outcome is not written yet. -/
def InFlight (s : State a) (t : TaskId) (id : EventId) : Prop :=
  id ∈ (s.tasks t).batch ∧ writes t id s.history = 0

instance (s : State a) (t : TaskId) (id : EventId) : Decidable (InFlight s t id) :=
  inferInstanceAs (Decidable (_ ∧ _))

/-- Claims are exclusive. -/
structure Exclusive (s : State a) : Prop where
  holder : ∀ t t' id, InFlight s t id → InFlight s t' id → t = t'
  processing : ∀ t id, InFlight s t id → s.status id = some .processing
  retryCount : ∀ t, ∀ event ∈ (s.tasks t).events, InFlight s t event.id →
    ∃ row, s.table.lookup event.id = some row ∧ row.retryCount = event.retryCount

theorem mem_batch_of_mem_events {task : Task} {event : OutboxEvent} (h : event ∈ task.events) :
    event.id ∈ task.batch := by
  cases task <;> first | exact List.mem_map_of_mem h | exact absurd h List.not_mem_nil

/-! ## What is in flight -/

/-- The step claims the event for the task, from a row that waited for
delivery. -/
def Claims (s : State a) (act : Action) (s' : State a) (t : TaskId) (id : EventId) : Prop :=
  act.task? = some t ∧ s'.status id = some .processing ∧
    (s.status id = some .pending ∨ s.status id = some .failed)

/-- A claim that is complete when the step is over. -/
private theorem claims_of_waiting {t : TaskId} {id : EventId} {row : OutboxEvent}
    {startedAt : Int} (hact : act.task? = some t) (hrow : s.table.lookup id = some row)
    (hwaiting : row.status = .pending ∨ row.status = .failed)
    (hrow' : s'.table.lookup id = some (claimRow startedAt row)) : Claims s act s' t id := by
  refine ⟨hact, ?_, ?_⟩
  · rw [State.status, hrow']
    rfl
  · rw [State.status, hrow, Option.map_some, Option.some.injEq, Option.some.injEq]
    exact hwaiting

/-- An event in flight was in flight before the step, or the step claims
it. -/
theorem inFlight_step (hs : (outbox a).Reachable s) (h : step s act = some s') {t : TaskId}
    {id : EventId} (hin : InFlight s' t id) : InFlight s t id ∨ Claims s act s' t id := by
  obtain ⟨hbatch, hwrites⟩ := hin
  have hnone : writes t id s.history = 0 := by
    have hle := writes_le_step h t id
    omega
  have hlocks := locksOk_of_reachable hs
  have hheld := hlocks.held t id
  have hmove := task_step h t
  unfold InFlight
  generalize s.tasks t = task at hheld hmove ⊢
  generalize s'.tasks t = task' at hbatch hmove
  cases hmove with
  | kept => exact Or.inl ⟨hbatch, hnone⟩
  | claimed worker ids hact _ hselection hrows _ _ =>
    have hid : id ∈ ids := (Table.map_pk_filterMap_lookup_sublist _ _).subset hbatch
    obtain ⟨row, hrow, hclaimable⟩ := hselection.isSelection.lookup hid
    rw [Bool.and_eq_true] at hclaimable
    exact Or.inr (claims_of_waiting (hact ▸ rfl) hrow
      (Adapter.status_of_claimable hclaimable.1).1 (hrows id hid row hrow))
  | committed worker ids startedAt hact hrows _ _ =>
    obtain ⟨row, hrow, hwaiting⟩ := hlocks.waiting t id (hheld.mpr hbatch)
    exact Or.inr (claims_of_waiting (hact ▸ rfl) hrow hwaiting (hrows id hbatch row hrow))
  | reselected =>
    exact Or.inl ⟨(Table.map_pk_filterMap_lookup_sublist _ _).subset hbatch, hnone⟩
  | published => exact Or.inl ⟨hbatch, hnone⟩
  | wrote => exact Or.inl ⟨hbatch, hnone⟩
  | writeFailed => exact Or.inl ⟨hbatch, hnone⟩
  | _ => exact absurd hbatch List.not_mem_nil

/-- An issued call writes events that are in flight. -/
theorem inFlight_of_issued (hs : (outbox a).Reachable s) {t : TaskId} {index : Nat}
    {call : RepositoryCall} (hissued : IssuedCall s t index call) {id : EventId}
    (hid : id ∈ call.ids) : InFlight s t id := by
  obtain ⟨_, _, _, _, event, htask, _, _, hevent, _, rfl⟩ := exists_event_of_issued hs hissued hid
  refine ⟨?_, writes_eq_zero_of_issued hs hissued hid⟩
  rw [htask]
  exact List.mem_map_of_mem hevent

/-! ## Nobody else touches a row in flight -/

/-- A row that is in flight before and after a step is left in its place. -/
theorem inFlight_row_step (hs : (outbox a).Reachable s) (hexclusive : Exclusive s)
    (hallowed : act.takesOver = false) {t : TaskId} {row row' : OutboxEvent}
    (hrow : s.table.lookup row.id = some row) (hin : InFlight s t row.id)
    (hin' : InFlight s' t row.id) (hstep : RowStep s act s' row row') :
    KeepsDelivery row row' := by
  have hstatus : row.status = .processing := by
    have hprocessing := hexclusive.processing t row.id hin
    rw [State.status, hrow, Option.map_some, Option.some.injEq] at hprocessing
    exact hprocessing
  cases hstep with
  | kept hkeep _ => exact hkeep
  | claimed _ _ _ _ _ _ hclaimable _ _ =>
    have hwaiting := (Adapter.status_of_claimable hclaimable).1
    simp [hstatus] at hwaiting
  | committed t' _ _ _ _ htask hid _ =>
    have hwaiting := status_of_claimUpdated hs htask hid hrow
    simp [hstatus] at hwaiting
  | written t' index worker events outcome pending call _ htask hcall hid _ _ _ hhistory =>
    -- Only the holder has a call for the row, and its call is the outcome write.
    have hin'' := inFlight_of_issued hs ⟨worker, events, outcome, pending, htask, hcall⟩ hid
    obtain rfl := hexclusive.holder t t' row.id hin hin''
    have hwrites := hin'.2
    rw [hhistory, writes, List.countP_cons_of_pos (by simp [HistoryEntry.writes, hid])] at hwrites
    exact absurd hwrites (Nat.succ_ne_zero _)
  | recovered _ _ _ hact => exact absurd hallowed (by simp [hact, Action.takesOver])
  | recoveredById _ _ _ _ hact => exact absurd hallowed (by simp [hact, Action.takesOver])
  | replayed _ _ _ _ _ hguard _ _ =>
    have hreplayable := (replayGuard_iff.mp hguard).2.1
    simp [hstatus] at hreplayable
  | rangeReplayed _ _ _ hact => exact absurd hallowed (by simp [hact, Action.takesOver])

/-- A row in flight before and after a step keeps its status and its retry
count. -/
private theorem exists_row_of_inFlight (hs : (outbox a).Reachable s) (hexclusive : Exclusive s)
    (hallowed : act.takesOver = false) (h : step s act = some s') {t : TaskId} {id : EventId}
    (hin : InFlight s t id) (hin' : InFlight s' t id) :
    ∃ row row', s.table.lookup id = some row ∧ s'.table.lookup id = some row' ∧
      row.status = .processing ∧ KeepsDelivery row row' := by
  obtain ⟨row, hrow, hstatus⟩ := State.status_eq_some.mp (hexclusive.processing t id hin)
  obtain ⟨row', hrow', hstep⟩ := row_step h hrow
  obtain rfl := Table.pk_of_lookup hrow
  exact ⟨row, row', hrow, hrow', hstatus,
    inFlight_row_step hs hexclusive hallowed hrow hin hin' hstep⟩

/-- The events of a batch are as they were, or the step reads them from the
table. -/
private theorem mem_events_step (h : step s act = some s') {t : TaskId} {event : OutboxEvent}
    (hevent : event ∈ (s'.tasks t).events) :
    event ∈ (s.tasks t).events ∨ s'.table.lookup event.id = some event := by
  have hmove := task_step h t
  generalize s.tasks t = task at hmove ⊢
  generalize s'.tasks t = task' at hevent hmove
  cases hmove with
  | kept => exact Or.inl hevent
  | claimed =>
    exact Or.inr (Table.lookup_of_mem (Table.mem_filterMap_lookup hevent).1)
  | reselected =>
    exact Or.inr (Table.lookup_of_mem (Table.mem_filterMap_lookup hevent).1)
  | published => exact Or.inl hevent
  | wrote => exact Or.inl hevent
  | writeFailed => exact Or.inl hevent
  | _ => exact absurd hevent List.not_mem_nil

theorem exclusive_step (hs : (outbox a).Reachable s) (hexclusive : Exclusive s)
    (hallowed : act.takesOver = false) (h : step s act = some s') : Exclusive s' := by
  constructor
  case holder =>
    intro t t' id hin hin'
    rcases inFlight_step hs h hin with hold | hclaims <;>
      rcases inFlight_step hs h hin' with hold' | hclaims'
    · exact hexclusive.holder t t' id hold hold'
    · have hprocessing := hexclusive.processing t id hold
      have hwaiting := hclaims'.2.2
      simp [hprocessing] at hwaiting
    · have hprocessing := hexclusive.processing t' id hold'
      have hwaiting := hclaims.2.2
      simp [hprocessing] at hwaiting
    · exact Option.some.inj (hclaims.1.symm.trans hclaims'.1)
  case processing =>
    intro t id hin
    rcases inFlight_step hs h hin with hold | hclaims
    · obtain ⟨row, row', _, hrow', hstatus, hkeep⟩ :=
        exists_row_of_inFlight hs hexclusive hallowed h hold hin
      exact State.status_eq_some.mpr ⟨row', hrow', hkeep.status.trans hstatus⟩
    · exact hclaims.2.1
  case retryCount =>
    intro t event hevent hin
    rcases mem_events_step h hevent with hold | hread
    · have hin' : InFlight s t event.id := by
        refine ⟨mem_batch_of_mem_events hold, ?_⟩
        have hle := writes_le_step h t event.id
        have hzero := hin.2
        omega
      obtain ⟨row₀, hrow₀, hcount⟩ := hexclusive.retryCount t event hold hin'
      obtain ⟨row, row', hrow, hrow', _, hkeep⟩ :=
        exists_row_of_inFlight hs hexclusive hallowed h hin' hin
      rw [hrow] at hrow₀
      obtain rfl := Option.some.inj hrow₀
      exact ⟨row', hrow', hkeep.retryCount.trans hcount⟩
    · exact ⟨event, hread, rfl⟩

theorem exclusive_of_reachable (hs : ReachableUndisturbed s) : Exclusive s := by
  refine Transition.System.ReachableBy.induct ?_ ?_ hs
  · intro s hinit
    obtain ⟨clock, rfl⟩ := hinit
    constructor <;> simp [InFlight, State.initial, Task.batch, Task.events]
  · intro s act s' hs hexclusive hallowed h
    exact exclusive_step hs.reachable hexclusive hallowed h

/-- Without stale recovery and range replay, the events whose outcome is not
written yet are in flight at one task only and in `processing`; a batch has
distinct events and at most `batchSize` of them; and a claim of an event is
followed by at most one outcome write for it. -/
theorem claims_exclusive (hs : ReachableUndisturbed s) :
    (∀ t t' id, InFlight s t id → InFlight s t' id → t = t') ∧
      (∀ t worker events, (s.tasks t = .claimed worker events ∨
          ∃ outcome pending, s.tasks t = .writing worker events outcome pending) →
        (events.map OutboxEvent.id).Nodup ∧ events.length ≤ worker.config.batchSize) ∧
      (∀ t id, InFlight s t id → s.status id = some .processing) ∧
      ∀ t id, writes t id s.history ≤ 1 := by
  have hexclusive := exclusive_of_reachable hs
  have hreachable := Transition.System.ReachableBy.reachable hs
  refine ⟨hexclusive.holder, ?_, hexclusive.processing, ?_⟩
  · intro t worker events htask
    have hok := taskOk_of_reachable hreachable t
    have hbatch : BatchOk s t worker (events.map OutboxEvent.id) := by
      rcases htask with htask | ⟨outcome, pending, htask⟩
      · rw [htask] at hok
        exact hok
      · rw [htask] at hok
        exact hok.1
    exact ⟨hbatch.nodup, by simpa using hbatch.length_le⟩
  · intro t id
    exact (Nat.le_add_right _ _).trans (writes_add_mayWrite_le hreachable t id)

/-- A worker claims two events and fails to publish the first one.  Its retry
is scheduled, but the other repository call of the batch is slow, and a second
worker claims the failed event. -/
def Sample.retriedEarly : List Action :=
  [.publish Sample.id (Sample.values 5), .publish Sample.otherId (Sample.values 5),
    .claim 0 Sample.worker [Sample.id, Sample.otherId],
    .publishBatch 0 (Sample.answers [(Sample.id, false), (Sample.otherId, true)]), .write 0 1,
    .tick 1000000, .claim 1 Sample.worker [Sample.id]]

/-- The state after the run, with a check of what is in flight there. -/
private theorem exists_retriedEarly :
    ∃ s : State .postgres, ReachableUndisturbed s ∧ InFlight s 0 Sample.otherId ∧
      InFlight s 1 Sample.id ∧ Sample.id ∈ (s.tasks 0).batch ∧
      (s.tasks 0).mayWrite Sample.otherId = 1 := by
  have hrun : ((outbox .postgres).run (State.initial 0) Sample.retriedEarly).any (fun s =>
      decide (InFlight s 0 Sample.otherId ∧ InFlight s 1 Sample.id ∧
        Sample.id ∈ (s.tasks 0).batch ∧ (s.tasks 0).mayWrite Sample.otherId = 1)) = true := by
    decide +kernel
  obtain ⟨s, hs, hcheck⟩ := (Option.any_eq_true _ _).mp hrun
  refine ⟨s, ?_, of_decide_eq_true hcheck⟩
  have hallowed : ∀ act ∈ Sample.retriedEarly, act.takesOver = false := by decide
  exact Transition.System.ReachableBy.run (.init ⟨0, rfl⟩) (fun _ => hallowed) hs

/-- After the run, both workers have an exclusive claim. -/
theorem claims_exclusive_retriedEarly :
    ∃ s : State .postgres, InFlight s 0 Sample.otherId ∧ InFlight s 1 Sample.id ∧
      s.status Sample.otherId = some .processing ∧ s.status Sample.id = some .processing ∧
      ¬ InFlight s 0 Sample.id := by
  obtain ⟨s, hs, hother, hid, _, _⟩ := exists_retriedEarly
  obtain ⟨hholder, _, hprocessing, _⟩ := claims_exclusive hs
  refine ⟨s, hother, hid, hprocessing 0 _ hother, hprocessing 1 _ hid, fun hin => ?_⟩
  exact absurd (hholder 0 1 Sample.id hin hid) (by decide)

/-- After the run, the failed event is in the batches of both workers, and
the first one still has a repository call to execute. -/
theorem batches_overlap :
    ∃ s : State .postgres, ReachableUndisturbed s ∧ (s.tasks 0).mayWrite Sample.otherId = 1 ∧
      Sample.id ∈ (s.tasks 0).batch ∧ Sample.id ∈ (s.tasks 1).batch := by
  obtain ⟨s, hs, _, hid, hbatch, hpending⟩ := exists_retriedEarly
  exact ⟨s, hs, hpending, hbatch, hid.1⟩

end Outboxy
