import Outboxy.Invariants

/-!
# Outcome writes of superseded claims

A claim leaves no token in the row.  The outcome writes name row ids, so they
cannot tell whether the claim that they answer is still the newest one.
`unfenced_outcome_write` says what this comes to: a listed row is written
whoever holds it, and the ways out of `processing` are the outcome writes of
all tasks that ever claimed the row, the recoveries and the range replays.
-/

namespace Outboxy

variable {a : Adapter} {s s' : State a} {act : Action}

/-- The task has claimed the event at some time. -/
def HasClaimed (s : State a) (t : TaskId) (id : EventId) : Prop :=
  ∃ ids, .claimed t ids ∈ s.history ∧ id ∈ ids

/-- The tasks that claimed the event, newest first, with a `none` for each
recovery of the event in between. -/
def claimTrace (id : EventId) (history : List HistoryEntry) : List (Option TaskId) :=
  history.filterMap fun entry =>
    match entry with
    | .claimed t ids => if id ∈ ids then some (some t) else none
    | .recovered affected => if id ∈ affected then some none else none
    | _ => none

/-- A call lists events that its task has claimed. -/
theorem hasClaimed_of_issued (hs : (outbox a).Reachable s) {t : TaskId} {index : Nat}
    {call : RepositoryCall} (hissued : IssuedCall s t index call) {id : EventId}
    (hid : id ∈ call.ids) : HasClaimed s t id := by
  obtain ⟨_, _, _, _, event, _, hbatch, _, hevent, _, rfl⟩ :=
    exists_event_of_issued hs hissued hid
  exact hbatch.claimed event.id (List.mem_map_of_mem hevent)

/-- A row leaves `processing` by an outcome write of a task that claimed it,
by a recovery or by a range replay. -/
theorem leaves_processing (hs : (outbox a).Reachable s) {row row' : OutboxEvent}
    (hstatus : row.status = .processing) (hstatus' : row'.status ≠ .processing)
    (hstep : RowStep s act s' row row') :
    (∃ t index call, act = .write t index ∧ IssuedCall s t index call ∧ row.id ∈ call.ids ∧
        HasClaimed s t row.id) ∨
      (∃ t thresholdMs, act = .recover t thresholdMs) ∨ (∃ t, act = .recoverUpdate t) ∨
        ∃ t, act = .rangeUpdate t := by
  cases hstep with
  | kept hkeep _ => exact absurd (hkeep.status.trans hstatus) hstatus'
  | claimed => exact absurd rfl hstatus'
  | committed => exact absurd rfl hstatus'
  | written t index worker events outcome pending call hact htask hcall hid =>
    have hissued : IssuedCall s t index call := ⟨worker, events, outcome, pending, htask, hcall⟩
    exact Or.inl ⟨t, index, call, hact, hissued, hid, hasClaimed_of_issued hs hissued hid⟩
  | recovered t thresholdMs _ hact => exact Or.inr (Or.inl ⟨t, thresholdMs, hact⟩)
  | recoveredById t _ _ _ hact => exact Or.inr (Or.inr (Or.inl ⟨t, hact⟩))
  | replayed _ _ _ _ _ hguard =>
    have hreplayable := (replayGuard_iff.mp hguard).2.1
    simp [hstatus] at hreplayable
  | rangeReplayed t _ _ hact => exact Or.inr (Or.inr (Or.inr ⟨t, hact⟩))

/-- Outcome writes are not fenced.  An issued call writes each row that it
lists, a `scheduleRetry` if a retry is left, whichever task claimed the row
last; and a row leaves `processing` only by a call of a task that claimed it,
by a recovery or by a range replay. -/
theorem unfenced_outcome_write (hs : (outbox a).Reachable s) (h : step s act = some s')
    {id : EventId} {row : OutboxEvent} (hrow : s.table.lookup id = some row) :
    (∀ t index call, act = .write t index → IssuedCall s t index call → id ∈ call.ids →
        (call.admits row → ∃ row', s'.table.lookup id = some row' ∧ call.Effect row row') ∧
          (¬ call.admits row → s'.table.lookup id = some row)) ∧
      (row.status = .processing → s'.status id ≠ some .processing →
        (∃ t index call, act = .write t index ∧ IssuedCall s t index call ∧ id ∈ call.ids ∧
            HasClaimed s t id) ∨
          (∃ t thresholdMs, act = .recover t thresholdMs) ∨ (∃ t, act = .recoverUpdate t) ∨
            ∃ t, act = .rangeUpdate t) := by
  constructor
  · intro t index call hact hissued hid
    subst hact
    obtain ⟨worker, events, outcome, pending, htask, hcall⟩ := hissued
    exact touches_of_write h htask hcall hrow hid
  · intro hstatus hstatus'
    obtain ⟨row', hrow', hstep⟩ := row_step h hrow
    obtain rfl := Table.pk_of_lookup hrow
    refine leaves_processing hs hstatus (fun hprocessing => hstatus' ?_) hstep
    rw [State.status, hrow', Option.map_some, hprocessing]

/-- The late `scheduleRetry` of the run below is a way out of `processing`. -/
theorem unfenced_outcome_write_superseded :
    ∃ s s' : State .postgres,
      s.status Sample.id = some .processing ∧ s'.status Sample.id = some .failed ∧
      ∃ call, IssuedCall s 0 0 call ∧ Sample.id ∈ call.ids ∧ HasClaimed s 0 Sample.id := by
  obtain ⟨s, s', htakes, hlate⟩ := Transition.System.exists_takesStep_of_any (outbox .postgres)
    (State.initial 0) Sample.superseded (.write 0 0)
    (fun s s' => decide (s.status Sample.id = some .processing ∧
      s'.status Sample.id = some .failed)) (by decide +kernel)
  obtain ⟨hprocessing, hfailed⟩ := of_decide_eq_true hlate
  obtain ⟨row, hrow, hstatus⟩ := State.status_eq_some.mp hprocessing
  have h : step s (.write 0 0) = some s' := htakes.step_eq
  have hways := (unfenced_outcome_write ((reachable_initial .postgres 0).takesStep htakes)
    h hrow).2 hstatus (by simp [hfailed])
  refine ⟨s, s', hprocessing, hfailed, ?_⟩
  simpa using hways

/-- The claim of the first worker is recovered, a second worker claims the
event, and then the late `scheduleRetry` of the first one takes it away. -/
theorem superseded_write_takes_effect :
    ∃ s s' : State .postgres,
      (outbox .postgres).TakesStep (State.initial 0) (Sample.superseded ++ [.write 0 0])
        s (.write 0 0) s' ∧
      claimTrace Sample.id s.history = [some 2, none, some 0] ∧
      s.status Sample.id = some .processing ∧ s'.status Sample.id = some .failed := by
  obtain ⟨s, s', htakes, hlate⟩ := Transition.System.exists_takesStep_of_any (outbox .postgres)
    (State.initial 0) Sample.superseded (.write 0 0)
    (fun s s' => decide (claimTrace Sample.id s.history = [some 2, none, some 0] ∧
      s.status Sample.id = some .processing ∧ s'.status Sample.id = some .failed))
    (by decide +kernel)
  exact ⟨s, s', htakes, of_decide_eq_true hlate⟩

end Outboxy
