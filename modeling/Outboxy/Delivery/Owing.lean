import Outboxy.Delivery.Fencing
import Outboxy.Delivery.Recovery
import Outboxy.HistoryStep

/-!
# What a claim owes

A claim moves its events to `processing`, and its call owes an outcome write
for each of them.  `Owing` says that the debt is nowhere forgotten: an event
that a call has claimed is among those that the call still holds, or an
outcome write of the call has listed it.  `owing_step` shows that a step keeps
this unless it `Forgets`, which is the way of a crash, of an exception between
the publisher and the writes, and of a write that fails.

`exhausted_of_written` is about the rows.  A row can stay in `processing`
after the write of its last claim, but only when it has no retry left:
`scheduleRetry` is the one write that checks something, and it checks that.
-/

namespace Outboxy

variable {a : Adapter} {s s' : State a} {act : Action} {t : TaskId} {id : EventId}

/-- The task that claimed the event last. -/
def lastClaim (id : EventId) (history : List HistoryEntry) : Option TaskId :=
  history.findSome? fun entry =>
    match entry with
    | .claimed t ids => if id ∈ ids then some t else none
    | _ => none

/-- The call has not claimed anything yet, or is no claim at all. -/
def Task.unclaimed : Task → Bool
  | .claimCommitted _ _ => false
  | .claimed _ _ => false
  | .writing _ _ _ _ => false
  | .done => false
  | _ => true

/-- The events that the call has claimed are held by it or written. -/
def Owing (s : State a) (t : TaskId) : Prop :=
  ∀ id, HasClaimed s t id → id ∈ (s.tasks t).holds ∨ 0 < writes t id s.history

/-- The step drops events that the call has claimed without writing them. -/
def Forgets (s : State a) (act : Action) (s' : State a) (t : TaskId) : Prop :=
  ((s.tasks t).unclaimed = false ∧ (s.tasks t).holds ≠ [] ∧ s'.tasks t = .done) ∨
    ∃ index, act = .writeFails t index

/-! ## The claims of a step -/

theorem HasClaimed.mono (h : step s act = some s') (hclaimed : HasClaimed s t id) :
    HasClaimed s' t id := by
  obtain ⟨ids, hmem, hid⟩ := hclaimed
  exact ⟨ids, history_subset_step h hmem, hid⟩

theorem hasClaimed_of_lastClaim (h : lastClaim id s.history = some t) : HasClaimed s t id := by
  obtain ⟨entry, hentry, hclaims⟩ := List.exists_of_findSome?_eq_some h
  cases entry with
  | claimed t' ids =>
    simp only [Option.ite_none_right_eq_some, Option.some.injEq] at hclaims
    obtain ⟨hid, rfl⟩ := hclaims
    exact ⟨ids, hentry, hid⟩
  | _ => cases hclaims

/-- The call that records a claim has just made it and holds its events. -/
theorem holds_of_records {ids : List EventId} (h : step s act = some s')
    (hrecords : Records s act s' (.claimed t ids)) :
    act.task? = some t ∧ (s.tasks t).unclaimed = true ∧ (s'.tasks t).unclaimed = false ∧
      ids ⊆ (s'.tasks t).holds := by
  cases hrecords with
  | claimed _ _ _ hact htask hselection htask' =>
    refine ⟨by rw [hact]; rfl, by rw [htask]; rfl, by rw [htask']; rfl, fun id hid => ?_⟩
    obtain ⟨row, hrow, _⟩ := hselection.isSelection.lookup hid
    obtain ⟨row', hrow', _⟩ := row_step h hrow
    rw [htask']
    exact List.mem_map.mpr
      ⟨row', List.mem_filterMap.mpr ⟨id, hid, hrow'⟩, Table.pk_of_lookup hrow'⟩
  | committed _ _ _ _ hact htask htask' =>
    exact ⟨by rw [hact]; rfl, by rw [htask]; rfl, by rw [htask']; rfl, by
      rw [htask']
      exact List.Subset.refl _⟩

/-- What a call has claimed after a step it had claimed before, or it claims it
with the step. -/
theorem hasClaimed_step (h : step s act = some s') (hclaimed : HasClaimed s' t id) :
    HasClaimed s t id ∨ act.task? = some t ∧ (s.tasks t).unclaimed = true ∧
      (s'.tasks t).unclaimed = false ∧ id ∈ (s'.tasks t).holds := by
  obtain ⟨ids, hmem, hid⟩ := hclaimed
  rcases history_step h with heq | ⟨entry, heq, hentry⟩
  · exact Or.inl ⟨ids, heq ▸ hmem, hid⟩
  · rcases List.mem_cons.mp (heq ▸ hmem) with rfl | hmem
    · obtain ⟨hact, hold, hnew, hsubset⟩ := holds_of_records h hentry
      exact Or.inr ⟨hact, hold, hnew, hsubset hid⟩
    · exact Or.inl ⟨ids, hmem, hid⟩

/-- A call that has not claimed yet has not come back to that. -/
theorem unclaimed_of_step (h : step s act = some s') (hnew : (s'.tasks t).unclaimed = true) :
    (s.tasks t).unclaimed = true := by
  have hmove := task_step h t
  generalize s.tasks t = task at hmove ⊢
  generalize s'.tasks t = task' at hnew hmove
  cases hmove with
  | kept => exact hnew
  | selected | updated | recoverSelected | replaySelected | rangeSelected => rfl
  | _ => exact absurd hnew Bool.false_ne_true

/-- A call that has not claimed yet has no claim in the history. -/
theorem not_hasClaimed_of_unclaimed (hs : (outbox a).Reachable s)
    (htask : (s.tasks t).unclaimed = true) : ¬ HasClaimed s t id := by
  refine hs.induct (P := fun s => (s.tasks t).unclaimed = true → ¬ HasClaimed s t id) ?_ ?_ htask
  · rintro s ⟨clock, rfl⟩ _ ⟨ids, hmem, _⟩
    exact absurd hmem List.not_mem_nil
  · intro s act s' _ ih _ h hnew hclaimed
    rcases hasClaimed_step h hclaimed with hold | ⟨_, _, hclaims, _⟩
    · exact ih (unclaimed_of_step h hnew) hold
    · exact absurd (hnew.symm.trans hclaims) (by simp)

/-- Events that were claimed exist. -/
theorem lookup_isSome_of_hasClaimed (hs : (outbox a).Reachable s) (hclaimed : HasClaimed s t id) :
    (s.table.lookup id).isSome := by
  refine hs.induct (P := fun s => HasClaimed s t id → (s.table.lookup id).isSome) ?_ ?_ hclaimed
  · rintro s ⟨clock, rfl⟩ ⟨ids, hmem, _⟩
    exact absurd hmem List.not_mem_nil
  · intro s act s' hs ih _ h hclaimed
    rcases hasClaimed_step h hclaimed with hold | ⟨_, hold, hnew, hholds⟩
    · exact lookup_isSome_step h (ih hold)
    · have hheld := (locksOk_of_reachable hs).held t id
      have hmove := task_step h t
      generalize s.tasks t = task at hold hheld hmove
      generalize s'.tasks t = task' at hnew hholds hmove
      cases hmove with
      | kept => exact absurd (hold.symm.trans hnew) (by simp)
      | claimed worker ids _ _ hselection =>
        have hid := (Table.map_pk_filterMap_lookup_sublist _ _).subset hholds
        obtain ⟨row, hrow, _⟩ := hselection.isSelection.lookup hid
        exact lookup_isSome_step h (by simp [hrow])
      | committed worker ids startedAt =>
        obtain ⟨row, hrow, _⟩ := (locksOk_of_reachable hs).waiting t id (hheld.mpr hholds)
        exact lookup_isSome_step h (by simp [hrow])
      | ended => exact absurd hholds List.not_mem_nil
      | _ => simp [Task.unclaimed] at hold hnew

/-! ## The debt -/

/-- Only a step of the call itself can forget its events. -/
theorem Forgets.task (h : step s act = some s') (hforgets : Forgets s act s' t) :
    act.task? = some t := by
  rcases hforgets with ⟨_, hholds, hdone⟩ | ⟨index, rfl⟩
  · by_contra hact
    rw [← (frame_step h).tasks t hact, hdone] at hholds
    exact hholds rfl
  · rfl

/-- A step that does not forget events of a call leaves them to it or writes
them. -/
theorem owing_step (hs : (outbox a).Reachable s) (h : step s act = some s')
    (hkeeps : ¬ Forgets s act s' t) (howing : Owing s t) : Owing s' t := by
  intro id hclaimed
  rcases hasClaimed_step h hclaimed with hold | ⟨_, _, _, hholds⟩
  case inr => exact Or.inl hholds
  rcases howing id hold with hholds | hwritten
  case inr => exact Or.inr (hwritten.trans_le (writes_le_step h t id))
  have hok := taskOk_of_reachable hs t
  have hsome := lookup_isSome_of_hasClaimed hs hold
  have hclaims : (s.tasks t).unclaimed = false := by
    by_contra hnot
    exact not_hasClaimed_of_unclaimed hs (eq_true_of_ne_false hnot) hold
  have hmove := task_step h t
  obtain ⟨hends, hfails⟩ := not_or.mp hkeeps
  generalize s.tasks t = task at hholds hok hclaims hmove hends
  generalize s'.tasks t = task' at hmove hends ⊢
  cases hmove with
  | kept | updated | committed => exact Or.inl hholds
  | ended => exact absurd ⟨hclaims, List.ne_nil_of_mem hholds, rfl⟩ hends
  | reselected worker ids =>
    obtain ⟨row, hrow⟩ := Option.isSome_iff_exists.mp (lookup_isSome_step h hsome)
    exact Or.inl (List.mem_map.mpr ⟨row, List.mem_filterMap.mpr ⟨id, hholds, hrow⟩,
      Table.pk_of_lookup hrow⟩)
  | published worker events outcome calls _ hcalls =>
    exact Or.inl ((flatMap_ids_calls_perm hok.nodup hcalls).mem_iff.mpr hholds)
  | wrote worker events outcome pending index call _ hcall _ hhistory =>
    have hcount := count_ids_eraseIdx hcall id
    by_cases hid : id ∈ call.ids
    · refine Or.inr (hhistory ▸ ?_)
      rw [writes, List.countP_cons_of_pos (by simp [HistoryEntry.writes, hid])]
      exact Nat.succ_pos _
    · rw [List.count_eq_zero.mpr hid, Nat.zero_add] at hcount
      have hpos : 0 < (pending.flatMap RepositoryCall.ids).count id :=
        List.count_pos_iff.mpr hholds
      exact Or.inl (List.count_pos_iff.mp (hcount ▸ hpos))
  | writeFailed worker events outcome pending index hact =>
    exact absurd ⟨index, hact⟩ hfails
  | _ => exact absurd hholds List.not_mem_nil

/-! ## The rows of a written claim -/

/-- An outcome write that leaves a listed row in `processing` has found no
retry left. -/
theorem exhausted_of_admits {call : RepositoryCall} {row : OutboxEvent}
    (hadmits : ¬ call.admits row) : row.maxRetries ≤ row.retryCount := by
  cases call with
  | scheduleRetry eventIds errorMessages config => exact Int.not_lt.mp hadmits
  | _ => exact absurd trivial hadmits

/-- A step that leaves a row in `processing` without a claim leaves its last
claim. -/
theorem lastClaim_of_claimsSince (h : step s act = some s')
    (hclaims : claimsSince id s'.history = claimsSince id s.history) :
    lastClaim id s'.history = lastClaim id s.history := by
  rcases history_step h with heq | ⟨entry, heq, _⟩
  · rw [heq]
  · rw [heq] at hclaims ⊢
    cases entry with
    | claimed t ids =>
      by_cases hid : id ∈ ids
      · simp [claimsSince, HistoryEntry.resets, HistoryEntry.claims, hid] at hclaims
      · simp [lastClaim, hid]
    | _ => rfl

/-- A claim comes before all writes of its call. -/
theorem not_written_of_mayWrite (hs : (outbox a).Reachable s) (h : step s act = some s')
    (hmay : (s.tasks t).mayWrite id = 1) (hact : ∀ index, act ≠ .write t index) :
    ¬ 0 < writes t id s'.history := by
  have hle := writes_add_mayWrite_le hs t id
  rw [(frame_step h).writes t id hact]
  omega

/-- The row of an event that the call has just written has left `processing`,
or had no retry left. -/
theorem exhausted_of_write {index : Nat} {row row' : OutboxEvent}
    (h : step s (.write t index) = some s') (hrow : s.table.lookup id = some row)
    (hrow' : s'.table.lookup id = some row') (hstatus' : row'.status = .processing)
    (hwritten : writes t id s.history < writes t id s'.history) :
    row'.maxRetries ≤ row'.retryCount := by
  obtain ⟨worker, events, outcome, pending, call, _, _, htask, hcall, _, _, _, hs'⟩ :=
    write_cases h
  by_cases hid : id ∈ call.ids
  · obtain ⟨htouched, hskipped⟩ := touches_of_write h htask hcall hrow hid
    by_cases hadmits : call.admits row
    · obtain ⟨row'', hrow'', heffect⟩ := htouched hadmits
      obtain rfl := Option.some.inj (hrow'.symm.trans hrow'')
      rw [heffect.status] at hstatus'
      cases call <;> exact absurd hstatus' (by simp [RepositoryCall.status])
    · obtain rfl := Option.some.inj (hrow'.symm.trans (hskipped hadmits))
      exact exhausted_of_admits hadmits
  · -- The write does not list the event, so it is not counted.
    have hhistory : s'.history = .wrote t call :: s.history := by rw [hs']; rfl
    rw [hhistory, writes, writes, List.countP_cons_of_neg (by simp [HistoryEntry.writes, hid])]
      at hwritten
    exact absurd hwritten (Nat.lt_irrefl _)

/-- A row in `processing` whose last claim has written its outcome has no retry
left. -/
theorem exhausted_of_written (hs : (outbox a).Reachable s) {row : OutboxEvent}
    (hrow : s.table.lookup id = some row) (hstatus : row.status = .processing)
    (hlast : lastClaim id s.history = some t) (hwritten : 0 < writes t id s.history) :
    row.maxRetries ≤ row.retryCount := by
  refine hs.induct (P := fun s => ∀ row, s.table.lookup id = some row →
    row.status = .processing → lastClaim id s.history = some t →
      0 < writes t id s.history → row.maxRetries ≤ row.retryCount)
    ?_ ?_ row hrow hstatus hlast hwritten
  · rintro s ⟨clock, rfl⟩ row hrow
    exact nomatch hrow
  · intro s act s' hs ih _ h row' hrow' hstatus' hlast hwritten
    cases hlookup : s.table.lookup id with
    | none =>
      have hfresh := fresh_row_step h hlookup hrow'
      exact absurd (hfresh.status.symm.trans hstatus') (by simp)
    | some row =>
      obtain ⟨row'', hrow'', hrowStep⟩ := row_step h hlookup
      obtain rfl := Option.some.inj (hrow''.symm.trans hrow')
      obtain rfl := Table.pk_of_lookup hlookup
      cases hrowStep with
      | kept hkeep hclaims =>
        rw [lastClaim_of_claimsSince h hclaims] at hlast
        by_cases hnew : writes t row.id s.history < writes t row.id s'.history
        · have hwrites : ∃ index, act = .write t index := by
            by_contra hnot
            have hsame := (frame_step h).writes t row.id fun index heq => hnot ⟨index, heq⟩
            exact absurd hnew (hsame ▸ Nat.lt_irrefl _)
          obtain ⟨index, rfl⟩ := hwrites
          exact exhausted_of_write h hlookup hrow' hstatus' hnew
        · rw [hkeep.maxRetries, hkeep.retryCount]
          exact ih row hlookup (hkeep.status ▸ hstatus') hlast
            (hwritten.trans_le (Nat.le_of_not_lt hnew))
      | claimed t' worker ids hact _ hid _ _ hhistory =>
        obtain rfl : t' = t := by simpa [hhistory, lastClaim, hid] using hlast
        obtain ⟨htask, _⟩ := claim_cases (hact ▸ h)
        exact absurd hwritten (not_written_of_mayWrite hs h (by rw [htask]; rfl) (by simp [hact]))
      | committed t' worker ids startedAt hact htask hid hhistory =>
        obtain rfl : t' = t := by simpa [hhistory, lastClaim, hid] using hlast
        exact absurd hwritten (not_written_of_mayWrite hs h (by rw [htask]; rfl) (by simp [hact]))
      | written _ _ _ _ _ _ call _ _ _ _ _ heffect =>
        rw [heffect.status] at hstatus'
        cases call <;> exact absurd hstatus' (by simp [RepositoryCall.status])
      | recovered | recoveredById => exact absurd hstatus' (by simp [recoverRow])
      | replayed | rangeReplayed => exact absurd hstatus' (by simp [replayRow])

end Outboxy
