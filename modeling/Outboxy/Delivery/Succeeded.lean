import Outboxy.Invariants

/-!
# Delivered events

`succeeded` is meant to be the end of an event's life.  Of the statements
that write a status, the claim, `replayEvent` and the recovery on PostgreSQL
check the status they replace, and `markSucceeded` writes `succeeded` again.
Four statements name row ids only: `scheduleRetry`, `moveToDLQ`, the `UPDATE`
of the MySQL recovery and that of a range replay.  `PutsBack` lists them, and
`status_succeeded_step_iff` says that a step keeps every delivered event
delivered if and only if it is none of them on a delivered row.
-/

namespace Outboxy

variable {a : Adapter} {s s' : State a} {act : Action}

/-- The action is a statement without a status check that is about to touch
the row. -/
inductive PutsBack (s : State a) (row : OutboxEvent) : Action → Prop
  | scheduleRetry (t : TaskId) (index : Nat) (worker : OutboxWorker) (events : List OutboxEvent)
      (outcome : PublishOutcome) (pending : List RepositoryCall) (eventIds : List EventId)
      (errorMessages : OrderedMap EventId ErrorMessage) (config : BackoffConfig)
      (htask : s.tasks t = .writing worker events outcome pending)
      (hcall : pending[index]? = some (.scheduleRetry eventIds errorMessages config))
      (hid : row.id ∈ eventIds) (hretry : (row.retryCount : Int) < row.maxRetries) :
      PutsBack s row (.write t index)
  | moveToDLQ (t : TaskId) (index : Nat) (worker : OutboxWorker) (events : List OutboxEvent)
      (outcome : PublishOutcome) (pending : List RepositoryCall) (eventIds : List EventId)
      (errorMessages : OrderedMap EventId ErrorMessage)
      (htask : s.tasks t = .writing worker events outcome pending)
      (hcall : pending[index]? = some (.moveToDLQ eventIds errorMessages))
      (hid : row.id ∈ eventIds) : PutsBack s row (.write t index)
  | recoverStaleEvents (t : TaskId) (thresholdMs : Nat) (eventIds : List EventId)
      (htask : s.tasks t = .recoverSelected thresholdMs eventIds) (hid : row.id ∈ eventIds) :
      PutsBack s row (.recoverUpdate t)
  | replayEventsInRange (t : TaskId) (input : ReplayRangeInput) (eventIds : List EventId)
      (htask : s.tasks t = .rangeSelected input eventIds) (hid : row.id ∈ eventIds) :
      PutsBack s row (.rangeUpdate t)

/-- The action is not about to put a delivered row back. -/
def SparesSucceeded (s : State a) (act : Action) : Prop :=
  ∀ row ∈ s.table.rows, row.status = .succeeded → ¬ PutsBack s row act

/-- A statement that puts a delivered row back changes its status. -/
theorem status_ne_of_putsBack {row : OutboxEvent} (h : step s act = some s')
    (hrow : s.table.lookup row.id = some row) (hputs : PutsBack s row act) :
    s'.status row.id ≠ some .succeeded := by
  rw [State.status]
  cases hputs with
  | scheduleRetry t index worker events outcome pending eventIds errorMessages config htask hcall
      hid hretry =>
    obtain ⟨row', hrow', heffect⟩ := (touches_of_write h htask hcall hrow hid).1 hretry
    rw [hrow', Option.map_some, heffect.status]
    simp [RepositoryCall.status]
  | moveToDLQ t index worker events outcome pending eventIds errorMessages htask hcall hid =>
    obtain ⟨row', hrow', heffect⟩ := (touches_of_write h htask hcall hrow hid).1 trivial
    rw [hrow', Option.map_some, heffect.status]
    simp [RepositoryCall.status]
  | recoverStaleEvents t thresholdMs eventIds htask hid =>
    rw [touches_of_recoverUpdate h htask hrow hid]
    simp [recoverRow]
  | replayEventsInRange t input eventIds htask hid =>
    rw [touches_of_rangeUpdate h htask hrow hid]
    simp [replayRow]

/-- What a step makes of a delivered row that it does not put back. -/
theorem status_of_rowStep_succeeded (hs : (outbox a).Reachable s) {row row' : OutboxEvent}
    (hrow : s.table.lookup row.id = some row) (hstatus : row.status = .succeeded)
    (hspares : ¬ PutsBack s row act) (hstep : RowStep s act s' row row') :
    row'.status = .succeeded := by
  cases hstep with
  | kept hkeep _ =>
    rw [hkeep.status]
    exact hstatus
  | claimed _ _ _ _ _ _ hclaimable _ _ =>
    have hwaiting := (Adapter.status_of_claimable hclaimable).1
    simp [hstatus] at hwaiting
  | committed t _ _ _ _ htask hid _ =>
    have hwaiting := status_of_claimUpdated hs htask hid hrow
    simp [hstatus] at hwaiting
  | written t index worker events outcome pending call hact htask hcall hid hadmits heffect =>
    subst hact
    cases call with
    | markSucceeded results => exact heffect.status
    | scheduleRetry eventIds errorMessages config =>
      exact absurd (.scheduleRetry t index worker events outcome pending eventIds errorMessages
        config htask hcall hid hadmits) hspares
    | moveToDLQ eventIds errorMessages =>
      exact absurd (.moveToDLQ t index worker events outcome pending eventIds errorMessages htask
        hcall hid) hspares
  | recovered _ _ _ _ _ hstale _ _ =>
    have hprocessing := (PgMaintenance.stale_iff.mp hstale).1
    simp [hstatus] at hprocessing
  | recoveredById t thresholdMs eventIds _ hact htask hid _ _ =>
    subst hact
    exact absurd (.recoverStaleEvents t thresholdMs eventIds htask hid) hspares
  | replayed _ _ _ _ _ hguard _ _ =>
    have hreplayable := (replayGuard_iff.mp hguard).2.1
    simp [hstatus] at hreplayable
  | rangeReplayed t input eventIds hact htask hid _ _ =>
    subst hact
    exact absurd (.replayEventsInRange t input eventIds htask hid) hspares

/-- A step keeps every delivered event delivered if and only if it does not
put one back. -/
theorem status_succeeded_step_iff (hs : (outbox a).Reachable s) (h : step s act = some s') :
    SparesSucceeded s act ↔
      ∀ id, s.status id = some .succeeded → s'.status id = some .succeeded := by
  constructor
  · intro hspares id hid
    obtain ⟨row, hrow, hstatus⟩ := State.status_eq_some.mp hid
    obtain ⟨row', hrow', hstep⟩ := row_step h hrow
    have hspare := hspares row (Table.mem_of_lookup hrow) hstatus
    obtain rfl := Table.pk_of_lookup hrow
    exact State.status_eq_some.mpr
      ⟨row', hrow', status_of_rowStep_succeeded hs hrow hstatus hspare hstep⟩
  · intro hkeeps row hrow hstatus hputs
    have hlookup := Table.lookup_of_mem hrow
    exact status_ne_of_putsBack h hlookup hputs
      (hkeeps row.id (State.status_eq_some.mpr ⟨row, hlookup, hstatus⟩))

/-- In a run, delivered events stay delivered if and only if no step of the
run puts one back. -/
theorem succeeded_staysAlong_iff (a : Adapter) (clock : Int) (acts : List Action) :
    (∀ s act s', (outbox a).TakesStep (State.initial clock) acts s act s' →
        SparesSucceeded s act) ↔
      ∀ id, (outbox a).StaysAlong (fun s => s.status id = some .succeeded)
        (State.initial clock) acts := by
  have hstep : ∀ {s act s'}, (outbox a).TakesStep (State.initial clock) acts s act s' →
      (SparesSucceeded s act ↔
        ∀ id, s.status id = some .succeeded → s'.status id = some .succeeded) := by
    intro s act s' htakes
    exact status_succeeded_step_iff ((reachable_initial a clock).takesStep htakes) htakes.step_eq
  constructor
  · intro hspares id
    exact Transition.System.staysAlong_iff.mpr fun s act s' htakes =>
      (hstep htakes).mp (hspares s act s' htakes) id
  · intro hstays s act s' htakes
    exact (hstep htakes).mpr fun id =>
      Transition.System.staysAlong_iff.mp (hstays id) s act s' htakes

/-- The second worker delivers the event that it took over. -/
def Sample.overtaken : List Action :=
  Sample.superseded ++ [.publishBatch 2 (Sample.answers [(Sample.id, true)]), .write 2 0]

/-- The late `scheduleRetry` of the first worker puts the delivered event
back. -/
theorem succeeded_not_absorbing :
    ¬ ∀ (a : Adapter) (clock : Int) (acts : List Action) (id : EventId),
      (outbox a).StaysAlong (fun s => s.status id = some .succeeded) (State.initial clock)
        acts := by
  intro habsorbing
  obtain ⟨s, s', htakes, hlate⟩ := Transition.System.exists_takesStep_of_any (outbox .postgres)
    (State.initial 0) Sample.overtaken (.write 0 0)
    (fun s s' => decide (s.status Sample.id = some .succeeded) &&
      decide (s'.status Sample.id = some .failed)) (by decide +kernel)
  rw [Bool.and_eq_true, decide_eq_true_eq, decide_eq_true_eq] at hlate
  have hstays := habsorbing .postgres 0 (Sample.overtaken ++ [.write 0 0]) Sample.id
  have hstill := Transition.System.staysAlong_iff.mp hstays s (.write 0 0) s' htakes hlate.1
  rw [hlate.2] at hstill
  exact absurd hstill (by simp)

end Outboxy
