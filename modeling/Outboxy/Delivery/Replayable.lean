import Outboxy.Delivery.Replay

/-!
# Replayable events

An event is replayable when it is `failed` or in the DLQ and not deleted.  The
`UPDATE` of `replayEvent` resets a replayable event and no other one.

`replayable_step` says what makes an event replayable: an outcome write or a
recovery, and each of them is recorded as a failure.  So an event can be reset
once, and then once for each of its failures.
-/

namespace Outboxy

variable {a : Adapter} {s s' : State a} {act : Action} {t : TaskId} {id : EventId}

/-- The `UPDATE` of `replayEvent` touches the event. -/
def Replayable (s : State a) (id : EventId) : Prop :=
  ∃ row, s.table.lookup id = some row ∧ replayGuard id row = true

/-- By the entry the event becomes `failed` or goes to the DLQ. -/
def HistoryEntry.fails (id : EventId) : HistoryEntry → Bool
  | .wrote _ call => decide (id ∈ call.ids) && replayableStatus call.status
  | .recovered affected => decide (id ∈ affected)
  | _ => false

/-- How often the event has failed. -/
def failuresOf (id : EventId) (history : List HistoryEntry) : Nat :=
  history.countP (HistoryEntry.fails id)

/-- How often the event may be reset before it fails again. -/
def resetsLeft (s : State a) (id : EventId) : Nat :=
  if (s.table.lookup id).any (replayGuard id) then 1 else 0

theorem replayable_iff_any : Replayable s id ↔ (s.table.lookup id).any (replayGuard id) = true :=
  (Option.any_eq_true _ _).symm

theorem resetsLeft_of_replayable (h : Replayable s id) : resetsLeft s id = 1 :=
  if_pos (replayable_iff_any.mp h)

theorem resetsLeft_of_not_replayable (h : ¬ Replayable s id) : resetsLeft s id = 0 :=
  if_neg fun hany => h (replayable_iff_any.mpr hany)

theorem not_replayable_of_status {row : OutboxEvent} (hrow : s.table.lookup id = some row)
    (hstatus : row.status ≠ .failed ∧ row.status ≠ .dlq) : ¬ Replayable s id := by
  intro h
  obtain ⟨row', hrow', hguard⟩ := h
  obtain rfl := Option.some.inj (hrow.symm.trans hrow')
  obtain ⟨-, hfailed | hdlq, -⟩ := replayGuard_iff.mp hguard
  · exact hstatus.1 hfailed
  · exact hstatus.2 hdlq

/-! ## Deleted events -/

/-- The statement brings no deleted row back. -/
def KeepsDeleted (u : OutboxUpdate) : Prop :=
  ∀ row : OutboxEvent, row.deletedAt ≠ none → (u.assign row).deletedAt ≠ none

theorem keepsDeleted_onConflict (now : Int) (existing : EventId) :
    KeepsDeleted (a.onConflict now existing) := by
  intro row h
  cases a <;> exact h

theorem keepsDeleted_of_repositoryUpdate {now : Int} {call : RepositoryCall} {u : OutboxUpdate}
    (h : a.repositoryUpdate now call = some u) : KeepsDeleted u := by
  intro row hdeleted
  rwa [(repositoryUpdate_assign h row).deletedAt]

/-- A step leaves the table alone, inserts a row or executes one `UPDATE`. -/
theorem table_step (h : step s act = some s') :
    s'.table = s.table ∨ (∃ row, s.table.insert row = some s'.table) ∨
      ∃ u, KeepsDeleted u ∧ s.table.update u = some s'.table := by
  cases act with
  | publish id values =>
    rcases publish_cases h with ⟨_, ⟨_, _, _, _, htable, rfl⟩ | ⟨_, htable, rfl⟩⟩
    · exact .inr (.inr ⟨_, keepsDeleted_onConflict _ _, htable⟩)
    · exact .inr (.inl ⟨_, htable⟩)
  | createEvent id input =>
    obtain ⟨_, _, htable, rfl⟩ := createEvent_cases h
    exact .inr (.inl ⟨_, htable⟩)
  | softDelete id =>
    obtain ⟨_, _, u, _, hassign, htable, rfl⟩ := softDelete_cases h
    exact .inr (.inr ⟨u, fun row _ => by simp [hassign row], htable⟩)
  | cleanupStaleIdempotencyKeys retentionDays =>
    obtain ⟨_, _, htable, rfl⟩ := execute_cases h
    exact .inr (.inr ⟨_, fun _ hdeleted => hdeleted, htable⟩)
  | claim t worker ids =>
    rcases claim_cases h with ⟨_, _, ⟨_, rfl⟩ | ⟨_, _, _, htable, rfl⟩ | ⟨_, _, rfl⟩⟩
    · exact .inl rfl
    · refine .inr (.inr ⟨_, fun _ hdeleted => ?_, htable⟩)
      rwa [Adapter.claimPendingEvents_assign]
    · exact .inl rfl
  | claimCommit t =>
    obtain ⟨_, _, _, _, _, htable, rfl⟩ := claimCommit_cases h
    refine .inr (.inr ⟨_, fun _ hdeleted => ?_, htable⟩)
    rwa [Adapter.claimPendingEvents_assign]
  | write t index =>
    obtain ⟨_, _, _, _, _, _, _, _, _, hu, _, htable, rfl⟩ := write_cases h
    exact .inr (.inr ⟨_, keepsDeleted_of_repositoryUpdate hu, htable⟩)
  | recover t thresholdMs =>
    rcases recover_cases h with ⟨_, ⟨_, _, _, htable, rfl⟩ | ⟨_, rfl | rfl⟩⟩
    · exact .inr (.inr ⟨_, fun _ hdeleted => hdeleted, htable⟩)
    · exact .inl rfl
    · exact .inl rfl
  | recoverUpdate t =>
    obtain ⟨_, _, _, _, _, hu, _, htable, rfl⟩ := recoverUpdate_cases h
    refine .inr (.inr ⟨_, fun _ hdeleted => ?_, htable⟩)
    rwa [(MySQLMaintenance.recoverStaleEvents_eq_some hu).2]
  | replayUpdate t =>
    obtain ⟨_, _, _, _, _, htable, rfl⟩ := replayUpdate_cases h
    refine .inr (.inr ⟨_, fun _ hdeleted => ?_, htable⟩)
    rwa [Adapter.replayEvent_assign]
  | rangeUpdate t =>
    obtain ⟨_, _, _, _, _, htable, rfl⟩ := rangeUpdate_cases h
    refine .inr (.inr ⟨_, fun _ hdeleted => ?_, htable⟩)
    rwa [Adapter.replayEventsInRange_assign]
  | tick micros =>
    obtain rfl := Option.some.inj h
    exact .inl rfl
  | claimUpdate t =>
    obtain ⟨_, _, _, rfl⟩ := claimUpdate_cases h
    exact .inl rfl
  | claimReselect t =>
    obtain ⟨_, _, _, rfl⟩ := claimReselect_cases h
    exact .inl rfl
  | publishBatch t outcome =>
    rcases publishBatch_cases h with ⟨_, _, _, ⟨_, _, rfl⟩ | ⟨_, rfl⟩⟩ <;> exact .inl rfl
  | writeFails t index =>
    obtain ⟨_, _, _, _, _, rfl⟩ := writeFails_cases h
    exact .inl rfl
  | crash t =>
    obtain rfl := Option.some.inj h
    exact .inl rfl
  | replaySelect t id =>
    rcases replaySelect_cases h with ⟨_, rfl | ⟨_, _, rfl⟩⟩ <;> exact .inl rfl
  | rangeSelect t input ids =>
    rcases rangeSelect_cases h with ⟨_, _, rfl | rfl⟩ <;> exact .inl rfl

/-- A deleted event stays deleted. -/
theorem deletedAt_step {row row' : OutboxEvent} (h : step s act = some s')
    (hrow : s.table.lookup id = some row) (hrow' : s'.table.lookup id = some row')
    (hdeleted : row.deletedAt ≠ none) : row'.deletedAt ≠ none := by
  rcases table_step h with hsame | ⟨_, hinsert⟩ | ⟨u, hkeeps, hupdate⟩
  · rw [hsame] at hrow'
    exact Option.some.inj (hrow.symm.trans hrow') ▸ hdeleted
  · rw [Table.lookup_insert_of_some hinsert hrow] at hrow'
    exact Option.some.inj hrow' ▸ hdeleted
  · rw [Table.lookup_update hupdate, hrow] at hrow'
    obtain rfl := Option.some.inj hrow'
    exact Update.apply_keeps (P := fun row : OutboxEvent => row.deletedAt ≠ none)
      (fun _ => hkeeps row) hdeleted

/-! ## Failures -/

theorem failuresOf_mono (h : step s act = some s') :
    failuresOf id s.history ≤ failuresOf id s'.history :=
  (frame_step h).history.sublist.countP_le

theorem failuresOf_cons {entry : HistoryEntry} (h : entry.fails id = true)
    (hhistory : s'.history = entry :: s.history) :
    failuresOf id s.history < failuresOf id s'.history := by
  rw [hhistory, failuresOf, failuresOf, List.countP_cons_of_pos h]
  exact Nat.lt_succ_self _

/-- An event that becomes replayable has failed. -/
theorem replayable_step (h : step s act = some s') (hnot : ¬ Replayable s id)
    (hreplayable : Replayable s' id) :
    failuresOf id s.history < failuresOf id s'.history := by
  obtain ⟨row', hrow', hguard⟩ := hreplayable
  have hguarded := replayGuard_iff.mp hguard
  cases hrow : s.table.lookup id with
  | none =>
    have hpending := (fresh_row_step h hrow hrow').status
    simp [hpending] at hguarded
  | some row =>
    obtain ⟨_, hsame, hstep⟩ := row_step h hrow
    obtain rfl := Option.some.inj (hrow'.symm.trans hsame)
    have hid : row.id = id := Table.pk_of_lookup hrow
    cases hstep with
    | kept hkeep _ =>
      by_cases hdeleted : row.deletedAt = none
      · refine absurd ⟨row, hrow, replayGuard_iff.mpr ⟨hid, ?_, hdeleted⟩⟩ hnot
        exact hkeep.status ▸ hguarded.2.1
      · exact absurd hguarded.2.2 (deletedAt_step h hrow hrow' hdeleted)
    | written t index worker events outcome pending call hact htask hcall hmem _ heffect _
        hhistory =>
      refine failuresOf_cons ?_ hhistory
      have hstatus := hguarded.2.1
      rw [heffect.status] at hstatus
      simp [HistoryEntry.fails, replayableStatus, hid ▸ hmem, hstatus]
    | recovered t thresholdMs affected hact ha hstale _ _ =>
      subst hact
      rcases recover_cases h with ⟨_, ⟨_, _, _, _, rfl⟩ | ⟨hmysql, _⟩⟩
      · refine failuresOf_cons ?_ rfl
        simpa [HistoryEntry.fails] using Table.mem_affected_iff_lookup.mpr ⟨row, hrow, hstale⟩
      · exact absurd ha hmysql
    | recoveredById t thresholdMs eventIds affected hact htask hmem _ _ =>
      subst hact
      obtain ⟨_, _, u, _, htask', hu, _, _, rfl⟩ := recoverUpdate_cases h
      obtain ⟨rfl, rfl⟩ := Task.recoverSelected.inj (htask.symm.trans htask')
      refine failuresOf_cons ?_ rfl
      have hguard : u.guard row = true := by
        rw [(MySQLMaintenance.recoverStaleEvents_eq_some hu).1, idIn_eq_true]
        exact hmem
      simpa [HistoryEntry.fails] using Table.mem_affected_iff_lookup.mpr ⟨row, hrow, hguard⟩
    | claimed | committed | replayed | rangeReplayed =>
      simp [claimRow, replayRow] at hguarded

/-- A step uses up no more resets than it has to, and failures pay for the new
ones. -/
theorem resetsLeft_step (h : step s act = some s') (id : EventId) :
    resetsLeft s' id + failuresOf id s.history ≤ resetsLeft s id + failuresOf id s'.history := by
  have hmono : failuresOf id s.history ≤ failuresOf id s'.history := failuresOf_mono h
  by_cases hafter : Replayable s' id
  · rw [resetsLeft_of_replayable hafter]
    by_cases hbefore : Replayable s id
    · rw [resetsLeft_of_replayable hbefore]
      omega
    · have hfailed := replayable_step h hbefore hafter
      omega
  · rw [resetsLeft_of_not_replayable hafter]
    omega

/-! ## The statements of `replayEvent` -/

/-- The `SELECT` goes on to the `UPDATE` with the status that it has read, or
the event is not replayable. -/
theorem tasks_of_replaySelect (h : s.replaySelect t id = some s') :
    s'.table = s.table ∧
      ((∃ previousStatus, s'.tasks t = .replaySelected id previousStatus ∧
          replayableStatus previousStatus = true) ∨
        (s'.tasks t = .done ∧ ¬ Replayable s id)) := by
  have hguard : ∀ row, s.table.lookup id = some row → replayGuard id row = true →
      selectReplayStatus s.table id = some row.status ∧ replayableStatus row.status = true := by
    intro row hrow hguard
    simp only [replayGuard, Bool.and_eq_true, decide_eq_true_eq] at hguard
    exact ⟨by simp [selectReplayStatus, hrow, hguard.2], hguard.1.2⟩
  unfold State.replaySelect at h
  split at h
  · split at h
    · rename_i previousStatus hstatus
      split at h
      · rename_i hreplayable
        obtain rfl := Option.some.inj h
        exact ⟨rfl, .inl ⟨previousStatus, State.setTask_tasks_self .., hreplayable⟩⟩
      · rename_i hnot
        obtain rfl := Option.some.inj h
        refine ⟨rfl, .inr ⟨State.setTask_tasks_self .., fun hreplayable => ?_⟩⟩
        obtain ⟨row, hrow, hrow'⟩ := hreplayable
        obtain ⟨hread, hrow'⟩ := hguard row hrow hrow'
        exact hnot (Option.some.inj (hstatus.symm.trans hread) ▸ hrow')
    · rename_i hstatus
      obtain rfl := Option.some.inj h
      refine ⟨rfl, .inr ⟨State.setTask_tasks_self .., fun hreplayable => ?_⟩⟩
      obtain ⟨row, hrow, hrow'⟩ := hreplayable
      exact absurd (hstatus.symm.trans (hguard row hrow hrow').1) (by simp)
  · exact absurd h (by simp)

/-- What `replayEvent` returns when its `UPDATE` executes now. -/
def State.replayEventResult (s : State a) (t : TaskId) : Option ReplayEventResult :=
  match s.tasks t with
  | .replaySelected id previousStatus =>
    s.replayResult id previousStatus (s.table.affected (a.replayEvent s.now id))
  | _ => none

theorem replayEventResult_eq {previousStatus : EventStatus}
    (htask : s.tasks t = .replaySelected id previousStatus) :
    s.replayEventResult t =
      s.replayResult id previousStatus (s.table.affected (a.replayEvent s.now id)) := by
  rw [State.replayEventResult, htask]

/-- There is a result if and only if the event is replayable. -/
theorem replayEventResult_cases {previousStatus : EventStatus}
    (htask : s.tasks t = .replaySelected id previousStatus) :
    (Replayable s id ∧ s.replayEventResult t = some ⟨id, previousStatus, .pending, s.clock⟩) ∨
      (¬ Replayable s id ∧ s.replayEventResult t = none) := by
  have haffected : id ∈ s.table.affected (a.replayEvent s.now id) ↔ Replayable s id := by
    rw [Table.mem_affected_iff_lookup, Adapter.replayEvent_guard]
    rfl
  have hmap := map_id_replayResult s id previousStatus
  rw [replayEventResult_eq htask, State.replayResult]
  by_cases hreplayable : Replayable s id
  · refine .inl ⟨hreplayable, if_neg fun hnone => ?_⟩
    rw [← haffected, hnone] at hreplayable
    exact absurd hreplayable List.not_mem_nil
  · refine .inr ⟨hreplayable, if_pos ?_⟩
    rw [← haffected, ← hmap] at hreplayable
    by_contra hsome
    rw [State.replayResult, if_neg hsome] at hreplayable
    exact hreplayable (by simp)

/-- The `UPDATE` resets the event that it returns and touches no other. -/
theorem replaysExactly_of_replayUpdate (h : s.replayUpdate t = some s') :
    ReplaysExactly s s' ((s.replayEventResult t).toList.map ReplayEventResult.id) (fun row =>
      (row.status = .failed ∨ row.status = .dlq) ∧ row.deletedAt = none) := by
  obtain ⟨id, previousStatus, _, htask, _, _, rfl⟩ := replayUpdate_cases h
  obtain ⟨_, _, hhistory, hexactly, hmap⟩ := replayEvent_guarded h
  obtain ⟨rfl, rfl⟩ := HistoryEntry.replayed.inj (List.cons.inj hhistory).1
  rwa [replayEventResult_eq htask, hmap]

/-- After the `UPDATE` the event is not replayable. -/
theorem not_replayable_of_replayUpdate {previousStatus : EventStatus}
    (h : s.replayUpdate t = some s') (htask : s.tasks t = .replaySelected id previousStatus) :
    ¬ Replayable s' id := by
  have hexactly := replaysExactly_of_replayUpdate h
  rcases replayEventResult_cases htask with ⟨_, hresult⟩ | ⟨hnot, hresult⟩
  · obtain ⟨row, _, _, hrow⟩ := hexactly.replayed id (by simp [hresult])
    exact not_replayable_of_status hrow (by simp [replayRow])
  · have hsame := hexactly.others id (by simp [hresult])
    unfold Replayable
    rwa [hsame]

theorem failuresOf_of_replayUpdate (h : s.replayUpdate t = some s') (id : EventId) :
    failuresOf id s'.history = failuresOf id s.history := by
  obtain ⟨_, _, _, _, _, _, rfl⟩ := replayUpdate_cases h
  exact List.countP_cons_of_neg (by simp [HistoryEntry.fails])

end Outboxy
