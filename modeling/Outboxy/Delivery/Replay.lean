import Outboxy.Invariants

/-!
# Replays

Both replays read rows in one statement and update them in another.  The
`UPDATE` of `replayEvent` checks the status again.  That of
`replayEventsInRange` names the selected ids only, so it does what it should
if and only if the selection still holds when it executes, and a claim or an
outcome write between the two statements breaks this.
-/

namespace Outboxy

variable {a : Adapter} {s s' : State a} {act : Action}

/-- When the `UPDATE` of a range replay executes, each selected row has the
requested status and is not deleted. -/
def SelectionHolds (s : State a) (act : Action) : Prop :=
  ∀ t input eventIds, act = .rangeUpdate t → s.tasks t = .rangeSelected input eventIds →
    ∀ id ∈ eventIds, ∃ row, s.table.lookup id = some row ∧
      row.status = input.requestedStatus ∧ row.deletedAt = none

/-- The step replays exactly the rows `affected`, which `guard` admits. -/
structure ReplaysExactly (s s' : State a) (affected : List EventId)
    (guard : OutboxEvent → Prop) : Prop where
  replayed : ∀ id ∈ affected, ∃ row, s.table.lookup id = some row ∧ guard row ∧
    s'.table.lookup id = some (replayRow s.now row)
  others : ∀ id, id ∉ affected → s'.table.lookup id = s.table.lookup id

/-- The second statement of a replay touches only rows that may be replayed,
and the replay returns exactly these. -/
structure ReplayGuarded (s : State a) (act : Action) (s' : State a) : Prop where
  event : ∀ t, act = .replayUpdate t → ∃ affected result,
    s'.history = .replayed affected result :: s.history ∧
    ReplaysExactly s s' affected (fun row =>
      (row.status = .failed ∨ row.status = .dlq) ∧ row.deletedAt = none) ∧
    result.toList.map ReplayEventResult.id = affected
  range : ∀ t, act = .rangeUpdate t → ∃ input affected result,
    s'.history = .rangeReplayed input affected result :: s.history ∧
    ReplaysExactly s s' affected (fun row =>
      row.status = input.requestedStatus ∧ row.deletedAt = none) ∧
    result.eventIds.Perm affected ∧ result.replayedCount = affected.length

/-- A replay statement touches exactly its affected rows. -/
theorem replaysExactly_of_update {u : OutboxUpdate} {table : OutboxTable a}
    {guard : OutboxEvent → Prop} (hassign : u.assign = replayRow s.now)
    (htable : s.table.update u = some table) (hs' : s'.table = table)
    (hguard : ∀ row ∈ s.table.rows, u.guard row = true → guard row) :
    ReplaysExactly s s' (s.table.affected u) guard where
  replayed id hid := by
    obtain ⟨row, hrow, hmatch, rfl⟩ := Table.mem_affected.mp hid
    have hlookup := Table.lookup_of_mem hrow
    refine ⟨row, hlookup, hguard row hrow hmatch, ?_⟩
    rw [hs', ← hassign]
    exact Table.lookup_update_of_guard htable hlookup hmatch
  others id hid := by
    rw [hs']
    exact Table.lookup_update_of_not_mem htable hid

/-- `replayEvent` touches one row at most, and returns it. -/
theorem map_id_replayResult (s : State a) (id : EventId) (previousStatus : EventStatus) :
    ((s.replayResult id previousStatus
      (s.table.affected (a.replayEvent s.now id))).toList.map ReplayEventResult.id) =
      s.table.affected (a.replayEvent s.now id) := by
  have hnodup := s.table.nodup_affected (a.replayEvent s.now id)
  have hall : ∀ id' ∈ s.table.affected (a.replayEvent s.now id), id' = id := by
    intro id' hid'
    obtain ⟨row, _, hmatch, rfl⟩ := Table.mem_affected.mp hid'
    rw [Adapter.replayEvent_guard] at hmatch
    exact (replayGuard_iff.mp hmatch).1
  unfold State.replayResult
  generalize s.table.affected (a.replayEvent s.now id) = affected at hnodup hall
  match affected with
  | [] => rfl
  | [id'] => simp [hall id' (by simp)]
  | id' :: id'' :: rest =>
    have heq : id' = id'' := (hall id' (by simp)).trans (hall id'' (by simp)).symm
    exact absurd (by simp [heq]) (List.nodup_cons.mp hnodup).1

/-- `replayEvent` is guarded. -/
theorem replayEvent_guarded {t : TaskId} (h : s.replayUpdate t = some s') :
    ∃ affected result, s'.history = .replayed affected result :: s.history ∧
      ReplaysExactly s s' affected (fun row =>
        (row.status = .failed ∨ row.status = .dlq) ∧ row.deletedAt = none) ∧
      result.toList.map ReplayEventResult.id = affected := by
  obtain ⟨id, previousStatus, table, _, _, htable, rfl⟩ := replayUpdate_cases h
  refine ⟨_, _, rfl, ?_, map_id_replayResult s id previousStatus⟩
  refine replaysExactly_of_update (Adapter.replayEvent_assign _ _) htable rfl fun row _ hmatch => ?_
  rw [Adapter.replayEvent_guard] at hmatch
  exact (replayGuard_iff.mp hmatch).2

/-- The ids that a range replay returns are the rows it touches, when it finds
all selected rows. -/
theorem eventIds_perm_affected {selected affected : List EventId} (hselected : selected.Nodup)
    (haffected : affected.Nodup) (hmem : ∀ id, id ∈ affected ↔ id ∈ selected) :
    (a.replayRangeResult selected affected).eventIds.Perm affected := by
  cases a with
  | postgres => exact List.Perm.refl _
  | mysql => exact ((List.perm_ext_iff_of_nodup haffected hselected).mpr hmem).symm

theorem replayedCount_eq (a : Adapter) (selected affected : List EventId) :
    (a.replayRangeResult selected affected).replayedCount = affected.length := by
  cases a <;> rfl

/-- A range replay touches the selected rows that are there. -/
theorem mem_affected_replayEventsInRange {eventIds : List EventId} {id : EventId} :
    id ∈ s.table.affected (a.replayEventsInRange s.now eventIds) ↔
      id ∈ eventIds ∧ (s.table.lookup id).isSome := by
  rw [Table.mem_affected_iff_lookup, Option.isSome_iff_exists]
  constructor
  · intro h
    obtain ⟨row, hrow, hmatch⟩ := h
    rw [Adapter.replayEventsInRange_guard, idIn_eq_true, Table.pk_of_lookup hrow] at hmatch
    exact ⟨hmatch, row, hrow⟩
  · intro h
    obtain ⟨hid, row, hrow⟩ := h
    refine ⟨row, hrow, ?_⟩
    rw [Adapter.replayEventsInRange_guard, idIn_eq_true, Table.pk_of_lookup hrow]
    exact hid

/-- `replayEventsInRange` is guarded when its selection still holds. -/
theorem replayEventsInRange_guarded {t : TaskId} {input : ReplayRangeInput}
    {eventIds : List EventId} (htask : s.tasks t = .rangeSelected input eventIds)
    (hnodup : eventIds.Nodup)
    (hholds : ∀ id ∈ eventIds, ∃ row, s.table.lookup id = some row ∧
      row.status = input.requestedStatus ∧ row.deletedAt = none)
    (h : s.rangeUpdate t = some s') :
    ∃ input affected result, s'.history = .rangeReplayed input affected result :: s.history ∧
      ReplaysExactly s s' affected (fun row =>
        row.status = input.requestedStatus ∧ row.deletedAt = none) ∧
      result.eventIds.Perm affected ∧ result.replayedCount = affected.length := by
  obtain ⟨_, _, table, htask', _, htable, rfl⟩ := rangeUpdate_cases h
  rw [htask] at htask'
  obtain ⟨rfl, rfl⟩ := Task.rangeSelected.inj htask'
  refine ⟨_, _, _, rfl, ?_, ?_, replayedCount_eq _ _ _⟩
  · refine replaysExactly_of_update (Adapter.replayEventsInRange_assign _ _) htable rfl
      fun row hrow hmatch => ?_
    rw [Adapter.replayEventsInRange_guard, idIn_eq_true] at hmatch
    obtain ⟨row', hrow', hguard⟩ := hholds row.id hmatch
    rw [Table.lookup_of_mem hrow] at hrow'
    exact Option.some.inj hrow' ▸ hguard
  · refine eventIds_perm_affected hnodup (Table.nodup_affected _ _) fun id => ?_
    rw [mem_affected_replayEventsInRange]
    refine and_iff_left_of_imp fun hid => ?_
    obtain ⟨row, hrow, _⟩ := hholds id hid
    rw [hrow]
    rfl

/-- A replay step is guarded if and only if its selection still holds. -/
theorem replayGuarded_step_iff (hs : (outbox a).Reachable s) (h : step s act = some s') :
    SelectionHolds s act ↔ ReplayGuarded s act s' := by
  have hok := taskOk_of_reachable hs
  constructor
  · intro hholds
    constructor
    · intro t hact
      subst hact
      exact replayEvent_guarded h
    · intro t hact
      subst hact
      obtain ⟨input, eventIds, _, htask, _⟩ := rangeUpdate_cases h
      have hselected := hok t
      rw [htask] at hselected
      exact replayEventsInRange_guarded htask hselected.1 (hholds t input eventIds rfl htask) h
  · intro hguarded t input eventIds hact htask id hid
    subst hact
    have hselected := hok t
    rw [htask] at hselected
    obtain ⟨input', affected', _, hhistory, hexactly, _⟩ := hguarded.range t rfl
    obtain ⟨_, _, _, htask', _, _, rfl⟩ := rangeUpdate_cases h
    rw [htask] at htask'
    obtain ⟨rfl, rfl⟩ := Task.rangeSelected.inj htask'
    obtain ⟨rfl, rfl, _⟩ := HistoryEntry.rangeReplayed.inj (List.cons.inj hhistory).1
    have haffected := mem_affected_replayEventsInRange.mpr ⟨hid, hselected.2 id hid⟩
    obtain ⟨row, hrow, hguard, _⟩ := hexactly.replayed id haffected
    exact ⟨row, hrow, hguard⟩

/-- In a run, every replay touches only rows that may be replayed and returns
exactly these, if and only if the selection of every range replay still holds
at its `UPDATE`. -/
theorem replays_guarded_iff (a : Adapter) (clock : Int) (acts : List Action) :
    (∀ s act s', (outbox a).TakesStep (State.initial clock) acts s act s' →
        SelectionHolds s act) ↔
      ∀ s act s', (outbox a).TakesStep (State.initial clock) acts s act s' →
        ReplayGuarded s act s' := by
  have hstep : ∀ s act s', (outbox a).TakesStep (State.initial clock) acts s act s' →
      (SelectionHolds s act ↔ ReplayGuarded s act s') := fun s act s' htakes =>
    replayGuarded_step_iff ((reachable_initial a clock).takesStep htakes) htakes.step_eq
  constructor
  · intro hholds s act s' htakes
    exact (hstep s act s' htakes).mp (hholds s act s' htakes)
  · intro hguarded s act s' htakes
    exact (hstep s act s' htakes).mpr (hguarded s act s' htakes)

/-- A range replay on PostgreSQL selects a failed event, and a worker delivers
it before the `UPDATE`. -/
def Sample.deliveredMeanwhile : List Action :=
  [.publish Sample.id (Sample.values 5), .claim 0 Sample.worker [Sample.id],
    .publishBatch 0 (Sample.answers [(Sample.id, false)]), .write 0 0,
    .rangeSelect 1 ⟨0, 10000000, some .failed, none, none⟩ [Sample.id], .tick 1000000,
    .claim 2 Sample.worker [Sample.id], .publishBatch 2 (Sample.answers [(Sample.id, true)]),
    .write 2 0]

/-- The range replay makes the delivered event `pending` again. -/
theorem replay_resets_delivered :
    ∃ s s' : State .postgres,
      (outbox .postgres).TakesStep (State.initial 0) (Sample.deliveredMeanwhile ++ [.rangeUpdate 1])
        s (.rangeUpdate 1) s' ∧
      s.status Sample.id = some .succeeded ∧ s'.status Sample.id = some .pending := by
  obtain ⟨s, s', htakes, hreset⟩ := Transition.System.exists_takesStep_of_any (outbox .postgres)
    (State.initial 0) Sample.deliveredMeanwhile (.rangeUpdate 1)
    (fun s s' => decide (s.status Sample.id = some .succeeded ∧
      s'.status Sample.id = some .pending)) (by decide +kernel)
  exact ⟨s, s', htakes, of_decide_eq_true hreset⟩

end Outboxy
