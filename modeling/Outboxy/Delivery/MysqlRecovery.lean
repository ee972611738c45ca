import Outboxy.Delivery.Recovery

/-!
# The MySQL recovery against the atomic one

`recoverStaleEvents` is one guarded `UPDATE` on PostgreSQL.  On MySQL, its
`SELECT` has the guard, and its `UPDATE` names the selected ids.  So it is a
refinement of the atomic one if and only if nobody overtakes it: between the
two statements, no selected row leaves `processing`, unless it is claimed
again and its new claim is stale as well.

* `stale_of_untouched`: a stale row that nobody touches stays stale.
* `untouched_or_reclaimed`: a row that is in `processing` at both ends of a
  run was left alone, or was claimed again in between.
* `Recovers` is one recovery of a run, from its `SELECT` to its `UPDATE`, and
  `staleIn_iff_of_recovers` says what the `UPDATE` finds.
-/

namespace Outboxy

variable {s s' : State .mysql} {act : Action}

/-! ## What happens to a row along a run -/

/-- The step claims the event. -/
def ClaimsEvent (s : State .mysql) (act : Action) (id : EventId) : Prop :=
  ∃ t worker ids startedAt, act = .claimCommit t ∧
    s.tasks t = .claimUpdated worker ids startedAt ∧ id ∈ ids

/-- No step of the run touches the delivery of the event. -/
def Untouched (s : State .mysql) (acts : List Action) (id : EventId) : Prop :=
  ∀ u act u', (outbox .mysql).TakesStep s acts u act u' →
    ∀ row row', u.table.lookup id = some row → u'.table.lookup id = some row' →
      KeepsDelivery row row'

/-- Some step of the run claims the event. -/
def Reclaimed (s : State .mysql) (acts : List Action) (id : EventId) : Prop :=
  ∃ u act u', (outbox .mysql).TakesStep s acts u act u' ∧ ClaimsEvent u act id

theorem now_le_step (h : step s act = some s') : s.now ≤ s'.now := by
  have hclock := (frame_step h).clock
  simp only [State.now, Adapter.now, Time.second]
  omega

/-- A row that is in `processing` after a step was left alone or claimed by
it. -/
theorem keeps_or_claims_of_processing (h : step s act = some s') {id : EventId}
    {row row' : OutboxEvent} (hrow : s.table.lookup id = some row)
    (hrow' : s'.table.lookup id = some row') (hstatus' : row'.status = .processing) :
    KeepsDelivery row row' ∨ ClaimsEvent s act id := by
  obtain ⟨row'', hrow'', hstep⟩ := row_step h hrow
  rw [hrow'] at hrow''
  obtain rfl := Option.some.inj hrow''
  obtain rfl := Table.pk_of_lookup hrow
  cases hstep with
  | kept hkeep _ => exact Or.inl hkeep
  | claimed _ _ _ _ ha => exact absurd ha (by simp)
  | committed t worker ids startedAt hact htask hid =>
    exact Or.inr ⟨t, worker, ids, startedAt, hact, htask, hid⟩
  | written _ _ _ _ _ _ call _ _ _ _ _ heffect =>
    rw [heffect.status] at hstatus'
    cases call <;> exact absurd hstatus' (by simp [RepositoryCall.status])
  | recovered => exact absurd hstatus' (by simp [recoverRow])
  | recoveredById => exact absurd hstatus' (by simp [recoverRow])
  | replayed => exact absurd hstatus' (by simp [replayRow])
  | rangeReplayed => exact absurd hstatus' (by simp [replayRow])

theorem Reclaimed.cons {acts : List Action} {id : EventId} (h : step s act = some s')
    (hreclaimed : Reclaimed s' acts id) : Reclaimed s (act :: acts) id := by
  obtain ⟨u, b, u', htakes, hclaims⟩ := hreclaimed
  exact ⟨u, b, u', htakes.cons h, hclaims⟩

/-- A row that comes to `processing` along a run is claimed by it. -/
theorem reclaimed_of_processing {acts : List Action} (hrun : (outbox .mysql).run s acts = some s')
    {id : EventId} {row row' : OutboxEvent} (hrow : s.table.lookup id = some row)
    (hstatus : row.status ≠ .processing) (hrow' : s'.table.lookup id = some row')
    (hstatus' : row'.status = .processing) : Reclaimed s acts id := by
  induction acts generalizing s row with
  | nil =>
    obtain rfl : s = s' := Option.some.inj hrun
    rw [hrow] at hrow'
    obtain rfl := Option.some.inj hrow'
    exact absurd hstatus' hstatus
  | cons act acts ih =>
    rw [Transition.System.run_cons] at hrun
    obtain ⟨u, hu, hrun⟩ := Option.bind_eq_some_iff.mp hrun
    obtain ⟨rowu, hrowu, _⟩ := row_step hu hrow
    by_cases hstatusu : rowu.status = .processing
    · rcases keeps_or_claims_of_processing hu hrow hrowu hstatusu with hkeep | hclaims
      · exact absurd (hkeep.status.symm.trans hstatusu) hstatus
      · exact ⟨s, act, u, .head hu, hclaims⟩
    · exact (ih hrun hrowu hstatusu).cons hu

/-- A row in `processing` at both ends of a run was left alone, or was claimed
again. -/
theorem untouched_or_reclaimed {acts : List Action}
    (hrun : (outbox .mysql).run s acts = some s') {id : EventId} {row row' : OutboxEvent}
    (hrow : s.table.lookup id = some row) (hrow' : s'.table.lookup id = some row')
    (hstatus' : row'.status = .processing) : Untouched s acts id ∨ Reclaimed s acts id := by
  induction acts generalizing s row with
  | nil =>
    refine Or.inl fun u act u' htakes => ?_
    obtain ⟨pre, post, heq, _⟩ := htakes
    exact absurd heq (by simp)
  | cons act acts ih =>
    rw [Transition.System.run_cons] at hrun
    obtain ⟨u, hu, hrun⟩ := Option.bind_eq_some_iff.mp hrun
    obtain ⟨rowu, hrowu, _⟩ := row_step hu hrow
    -- A row that has left `processing` comes back by a claim only.
    by_cases hstatusu : rowu.status = .processing
    case neg => exact Or.inr ((reclaimed_of_processing hrun hrowu hstatusu hrow' hstatus').cons hu)
    rcases keeps_or_claims_of_processing hu hrow hrowu hstatusu with hkeep | hclaims
    case inr => exact Or.inr ⟨s, act, u, .head hu, hclaims⟩
    refine (ih hrun hrowu).imp (fun hrest => ?_) fun hreclaimed => hreclaimed.cons hu
    intro v b v' htakes rowv rowv' hrowv hrowv'
    rcases Transition.System.takesStep_cons htakes with ⟨rfl, rfl⟩ | ⟨w, hw, htakes'⟩
    · have hv' := htakes.step_eq
      rw [hu] at hv'
      obtain rfl := Option.some.inj hv'
      rw [hrow] at hrowv
      rw [hrowu] at hrowv'
      obtain rfl := Option.some.inj hrowv
      obtain rfl := Option.some.inj hrowv'
      exact hkeep
    · rw [hu] at hw
      obtain rfl := Option.some.inj hw
      exact hrest v b v' htakes' rowv rowv' hrowv hrowv'

/-- The atomic recovery would touch the row. -/
def StaleIn (s : State .mysql) (thresholdMs : Nat) (id : EventId) : Prop :=
  ∃ row, s.table.lookup id = some row ∧ PgMaintenance.stale s.now thresholdMs row = true

/-- A stale row that nobody touches stays stale. -/
theorem stale_of_untouched {acts : List Action} (hrun : (outbox .mysql).run s acts = some s')
    {id : EventId} (huntouched : Untouched s acts id) {thresholdMs : Nat}
    (hstale : StaleIn s thresholdMs id) : StaleIn s' thresholdMs id := by
  refine Transition.System.run_keeps (P := fun u => StaleIn u thresholdMs id) ?_ hrun hstale
  intro u act u' htakes hstale
  obtain ⟨row, hrow, hstale⟩ := hstale
  obtain ⟨row', hrow', _⟩ := row_step htakes.step_eq hrow
  have hkeep := huntouched u act u' htakes row row' hrow hrow'
  have hnow := now_le_step htakes.step_eq
  obtain ⟨hstatus, hstarted, hretry⟩ := PgMaintenance.stale_iff.mp hstale
  refine ⟨row', hrow', PgMaintenance.stale_iff.mpr ⟨hkeep.status.trans hstatus, ?_, ?_⟩⟩
  · rw [hkeep.processingStartedAt]
    cases hcase : row.processingStartedAt with
    | none => simp [hcase] at hstarted
    | some started =>
      rw [hcase, sqlLt_some, decide_eq_true_eq] at hstarted
      rw [sqlLt_some, decide_eq_true_eq]
      omega
  · rw [hkeep.retryCount, hkeep.maxRetries]
    exact hretry

/-! ## The recoveries of a run -/

/-- The run performs a recovery: its `SELECT` executes in `before`, then the
others do `mid`, and its `UPDATE` executes in `after`. -/
def Recovers (s : State .mysql) (acts : List Action) (t : TaskId) (thresholdMs : Nat)
    (before : State .mysql) (mid : List Action) (after : State .mysql) : Prop :=
  ∃ pre post final, acts = pre ++ .recover t thresholdMs :: mid ++ .recoverUpdate t :: post ∧
    (outbox .mysql).run s pre = some before ∧
    (outbox .mysql).run before (.recover t thresholdMs :: mid) = some after ∧
    step after (.recoverUpdate t) = some final

section Recovers

variable {s before after : State .mysql} {acts mid : List Action} {t : TaskId} {thresholdMs : Nat}

theorem Recovers.visits (h : Recovers s acts t thresholdMs before mid after) :
    (outbox .mysql).Visits s acts before := by
  obtain ⟨pre, post, _, rfl, hpre, _⟩ := h
  exact ⟨pre, .recover t thresholdMs :: mid ++ .recoverUpdate t :: post, by simp, hpre⟩

theorem Recovers.run (h : Recovers s acts t thresholdMs before mid after) :
    (outbox .mysql).run before (.recover t thresholdMs :: mid) = some after := by
  obtain ⟨_, _, _, _, _, hrun, _⟩ := h
  exact hrun

/-- The `UPDATE` is a step of the run. -/
theorem Recovers.takesStep (h : Recovers s acts t thresholdMs before mid after) :
    ∃ final, (outbox .mysql).TakesStep s acts after (.recoverUpdate t) final := by
  obtain ⟨pre, post, final, rfl, hpre, hrun, hstep⟩ := h
  exact ⟨final, pre ++ .recover t thresholdMs :: mid, post, rfl,
    Transition.System.run_append_eq_some _ hpre hrun, hstep⟩

/-- The `UPDATE` names the ids that the `SELECT` returned. -/
theorem Recovers.task (h : Recovers s acts t thresholdMs before mid after) :
    after.tasks t = .recoverSelected thresholdMs
      (MySQLMaintenance.staleIds before.table before.now thresholdMs) := by
  obtain ⟨_, _, final, _, _, hrun, hstep⟩ := h
  rw [Transition.System.run_cons] at hrun
  obtain ⟨selected, hselected, hmid⟩ := Option.bind_eq_some_iff.mp hrun
  generalize hids : MySQLMaintenance.staleIds before.table before.now thresholdMs = ids
  -- The call waits with its ids until it ends.
  have hwaits : after.tasks t = .recoverSelected thresholdMs ids ∨ after.tasks t = .done := by
    refine Transition.System.run_keeps
      (P := fun u => u.tasks t = .recoverSelected thresholdMs ids ∨ u.tasks t = .done) ?_ hmid ?_
    · intro u act u' htakes htask
      have hmove := task_step htakes.step_eq t
      generalize u'.tasks t = task' at hmove
      rcases htask with htask | htask <;>
        · rw [htask] at hmove
          cases hmove <;> simp
    · rcases recover_cases hselected with ⟨_, ⟨ha, _⟩ | ⟨_, rfl | rfl⟩⟩
      · exact absurd ha (by simp)
      · exact Or.inr (State.setTask_tasks_self _ _ _)
      · rw [← hids]
        exact Or.inl (State.setTask_tasks_self _ _ _)
  obtain ⟨_, _, _, _, hwaiting, _⟩ := recoverUpdate_cases hstep
  rcases hwaits with htask | htask
  · exact htask
  · rw [htask] at hwaiting
    exact absurd hwaiting (by simp)

end Recovers

/-- Every `UPDATE` of a recovery has its `SELECT` earlier in the run. -/
theorem exists_recovers {clock : Int} {acts : List Action} {t : TaskId}
    (htakes : (outbox .mysql).TakesStep (State.initial clock) acts s (.recoverUpdate t) s') :
    ∃ thresholdMs before mid, Recovers (State.initial clock) acts t thresholdMs before mid s := by
  obtain ⟨pre, post, rfl, hpre, hstep⟩ := htakes
  obtain ⟨thresholdMs, ids, _, _, htask, _⟩ := recoverUpdate_cases hstep
  obtain ⟨pre', act, mid, u, u', rfl, hu, hact, hbefore, hafter, hmid⟩ :=
    Transition.System.exists_step_establishing
      (Q := fun u => u.tasks t = .recoverSelected thresholdMs ids) hpre
      (by simp [State.initial]) htask
  have hmove := task_step hact t
  rw [hafter] at hmove
  generalize htask' : u.tasks t = task at hmove
  cases hmove with
  | kept => exact absurd htask' hbefore
  | recoverSelected _ hselect =>
    subst hselect
    refine ⟨thresholdMs, u, mid, pre', post, s', rfl, hu, ?_, hstep⟩
    rw [Transition.System.run_cons, hact]
    exact hmid

/-! ## Overtaken recoveries -/

/-- Between the two statements of a recovery, nobody touches a row that the
first one selects, but perhaps to claim it again, so long ago that its new
claim is stale as well when the second one executes. -/
def NotOvertaken (s : State .mysql) (acts : List Action) : Prop :=
  ∀ t thresholdMs before mid after, Recovers s acts t thresholdMs before mid after →
    ∀ id ∈ MySQLMaintenance.staleIds before.table before.now thresholdMs,
      Untouched before (.recover t thresholdMs :: mid) id ∨
        Reclaimed before (.recover t thresholdMs :: mid) id ∧ StaleIn after thresholdMs id

/-- The `UPDATE` of a recovery does to each row what the atomic recovery would
do, or nothing. -/
structure RefinesAtomic (s : State .mysql) (thresholdMs : Nat) (s' : State .mysql) : Prop where
  changed : ∀ id row row', s.table.lookup id = some row → s'.table.lookup id = some row' →
    row' ≠ row → PgMaintenance.stale s.now thresholdMs row = true ∧ row' = recoverRow s.now row
  settled : ∀ id row row', s.table.lookup id = some row → s'.table.lookup id = some row' →
    row.status = .succeeded ∨ row.status = .dlq → row' = row
  budget : ∀ id row row', s.table.lookup id = some row → s'.table.lookup id = some row' →
    row' ≠ row → (row'.retryCount : Int) ≤ row'.maxRetries

section Update

variable {t : TaskId} {thresholdMs : Nat} {ids : List EventId}

/-- The recovery changes every row that it touches. -/
theorem recoverRow_ne (now : Int) (row : OutboxEvent) : recoverRow now row ≠ row := by
  intro heq
  have hcount := congrArg OutboxEvent.retryCount heq
  simp [recoverRow] at hcount

theorem refinesAtomic_of_staleIn (h : step s (.recoverUpdate t) = some s')
    (htask : s.tasks t = .recoverSelected thresholdMs ids)
    (hstale : ∀ id ∈ ids, StaleIn s thresholdMs id) : RefinesAtomic s thresholdMs s' := by
  have hchanged : ∀ id row row', s.table.lookup id = some row → s'.table.lookup id = some row' →
      row' ≠ row →
      PgMaintenance.stale s.now thresholdMs row = true ∧ row' = recoverRow s.now row := by
    intro id row row' hrow hrow' hne
    have hid : id ∈ ids := by
      by_contra hid
      rw [untouched_of_recoverUpdate h htask hid, hrow] at hrow'
      exact hne (Option.some.inj hrow').symm
    obtain ⟨row₁, hrow₁, hstale₁⟩ := hstale id hid
    rw [hrow] at hrow₁
    obtain rfl := Option.some.inj hrow₁
    rw [touches_of_recoverUpdate h htask hrow hid] at hrow'
    exact ⟨hstale₁, (Option.some.inj hrow').symm⟩
  refine ⟨hchanged, ?_, ?_⟩
  · intro id row row' hrow hrow' hsettled
    by_contra hne
    have hstatus := (PgMaintenance.stale_iff.mp (hchanged id row row' hrow hrow' hne).1).1
    simp [hstatus] at hsettled
  · intro id row row' hrow hrow' hne
    obtain ⟨hstale, rfl⟩ := hchanged id row row' hrow hrow' hne
    have hretry := (PgMaintenance.stale_iff.mp hstale).2.2
    simp only [recoverRow]
    omega

theorem staleIn_of_refinesAtomic (h : step s (.recoverUpdate t) = some s')
    (htask : s.tasks t = .recoverSelected thresholdMs ids)
    (hrefines : RefinesAtomic s thresholdMs s') {id : EventId} (hid : id ∈ ids)
    (hrow : (s.table.lookup id).isSome) : StaleIn s thresholdMs id := by
  obtain ⟨row, hrow⟩ := Option.isSome_iff_exists.mp hrow
  have hrow' := touches_of_recoverUpdate h htask hrow hid
  exact ⟨row, hrow, (hrefines.changed id row _ hrow hrow' (recoverRow_ne _ _)).1⟩

end Update

/-- A selected row is stale at the `UPDATE` if and only if the recovery was not
overtaken on it. -/
theorem staleIn_iff_of_recovers {clock : Int} {acts mid : List Action} {t : TaskId}
    {thresholdMs : Nat} {before after : State .mysql}
    (h : Recovers (State.initial clock) acts t thresholdMs before mid after) {id : EventId}
    (hid : id ∈ MySQLMaintenance.staleIds before.table before.now thresholdMs) :
    StaleIn after thresholdMs id ↔
      (Untouched before (.recover t thresholdMs :: mid) id ∨
        Reclaimed before (.recover t thresholdMs :: mid) id ∧ StaleIn after thresholdMs id) := by
  obtain ⟨row, hmem, rfl⟩ := List.mem_map.mp hid
  obtain ⟨hmem, hstale⟩ := List.mem_filter.mp hmem
  have hrow := Table.lookup_of_mem hmem
  constructor
  · intro hstale'
    obtain ⟨row', hrow', hstale'⟩ := hstale'
    have hstatus' := (PgMaintenance.stale_iff.mp hstale').1
    exact (untouched_or_reclaimed h.run hrow hrow' hstatus').imp_right
      fun hreclaimed => ⟨hreclaimed, row', hrow', hstale'⟩
  · intro hcases
    rcases hcases with huntouched | ⟨_, hstale'⟩
    · exact stale_of_untouched h.run huntouched
        ⟨row, hrow, PgMaintenance.stale_of_mysql_stale hstale⟩
    · exact hstale'

/-! ## The retry count -/

/-- The step is no `UPDATE` of a recovery, or one that does what the atomic
recovery would do. -/
def RecoversAtomically (s : State .mysql) (act : Action) : Prop :=
  ∀ t thresholdMs ids s', act = .recoverUpdate t → s.tasks t = .recoverSelected thresholdMs ids →
    step s act = some s' → RefinesAtomic s thresholdMs s'

/-- Only an overtaken recovery counts a retry too many.  A fresh row counts
none, even if its `max_retries` is negative. -/
theorem retryCount_le_of_recoversAtomically
    (hs : (outbox .mysql).ReachableBy RecoversAtomically s) :
    ∀ row ∈ s.table.rows, (row.retryCount : Int) ≤ max 0 row.maxRetries := by
  refine reachable_rows
    (P := fun _ row => (row.retryCount : Int) ≤ max 0 row.maxRetries) ?_ ?_ hs
  · intro s act s' row _ _ hfresh
    rw [hfresh.retryCount]
    exact Int.le_max_left _ _
  · intro s act s' row row' _ hallowed h hrow _ hstep hcount
    refine retryCount_le_rowStep hstep (fun t thresholdMs ids hact htask hid => ?_) hcount
    subst hact
    have hchanged := (hallowed t thresholdMs ids s' rfl htask h).changed row.id row _ hrow
      (touches_of_recoverUpdate h htask hrow hid) (recoverRow_ne _ _)
    exact (PgMaintenance.stale_iff.mp hchanged.1).2.2

/-- In a run, every `UPDATE` of a recovery does what the atomic recovery would
do, and no retry count exceeds its limit, if and only if no recovery is
overtaken. -/
theorem mysql_recovery_refines_iff (clock : Int) (acts : List Action) :
    NotOvertaken (State.initial clock) acts ↔
      (∀ s t thresholdMs ids s',
        (outbox .mysql).TakesStep (State.initial clock) acts s (.recoverUpdate t) s' →
        s.tasks t = .recoverSelected thresholdMs ids → RefinesAtomic s thresholdMs s') ∧
      ∀ s, (outbox .mysql).Visits (State.initial clock) acts s →
        ∀ row ∈ s.table.rows, (row.retryCount : Int) ≤ max 0 row.maxRetries := by
  constructor
  · intro hnot
    have hrefines : ∀ s t thresholdMs ids s',
        (outbox .mysql).TakesStep (State.initial clock) acts s (.recoverUpdate t) s' →
        s.tasks t = .recoverSelected thresholdMs ids → RefinesAtomic s thresholdMs s' := by
      intro s t thresholdMs ids s' htakes htask
      obtain ⟨thresholdMs', before, mid, hrecovers⟩ := exists_recovers htakes
      have htask' := hrecovers.task
      rw [htask] at htask'
      obtain ⟨rfl, rfl⟩ := Task.recoverSelected.inj htask'
      exact refinesAtomic_of_staleIn htakes.step_eq htask fun id hid =>
        (staleIn_iff_of_recovers hrecovers hid).mpr (hnot t _ _ _ _ hrecovers id hid)
    refine ⟨hrefines, fun s hvisits => ?_⟩
    refine retryCount_le_of_recoversAtomically
      (Transition.System.ReachableBy.visits (.init ⟨clock, rfl⟩) ?_ hvisits)
    intro u act u' htakes t thresholdMs ids v hact htask hv
    subst hact
    obtain rfl := Option.some.inj (htakes.step_eq.symm.trans hv)
    exact hrefines u t thresholdMs ids u' htakes htask
  · intro hsound t thresholdMs before mid after hrecovers id hid
    obtain ⟨hrefines, _⟩ := hsound
    obtain ⟨final, htakes⟩ := hrecovers.takesStep
    refine (staleIn_iff_of_recovers hrecovers hid).mp ?_
    refine staleIn_of_refinesAtomic htakes.step_eq hrecovers.task
      (hrefines after t _ _ final htakes hrecovers.task) hid ?_
    obtain ⟨row, hmem, rfl⟩ := List.mem_map.mp hid
    refine Transition.System.run_keeps (P := fun u => (u.table.lookup row.id).isSome)
      (fun u act u' htakes hu => lookup_isSome_step htakes.step_eq hu) hrecovers.run ?_
    rw [Table.lookup_of_mem (List.mem_of_mem_filter hmem)]
    rfl

/-- A worker is slow to say that it has delivered an event, and says so
between the two statements of a recovery. -/
def Sample.reportedLate : List Action :=
  [.publish Sample.id (Sample.values 5), .claim 0 Sample.worker [Sample.id], .claimUpdate 0,
    .claimCommit 0, .claimReselect 0, .publishBatch 0 (Sample.answers [(Sample.id, true)]),
    .tick 600000000, .recover 1 300000, .write 0 0]

/-- The recovery takes the delivered event back to `failed`. -/
theorem mysql_recovery_overtaken :
    ∃ s s' : State .mysql,
      (outbox .mysql).TakesStep (State.initial 0) (Sample.reportedLate ++ [.recoverUpdate 1])
        s (.recoverUpdate 1) s' ∧
      s.status Sample.id = some .succeeded ∧ s'.status Sample.id = some .failed := by
  obtain ⟨s, s', htakes, hback⟩ := Transition.System.exists_takesStep_of_any (outbox .mysql)
    (State.initial 0) Sample.reportedLate (.recoverUpdate 1)
    (fun s s' => decide (s.status Sample.id = some .succeeded ∧
      s'.status Sample.id = some .failed)) (by decide +kernel)
  exact ⟨s, s', htakes, of_decide_eq_true hback⟩

end Outboxy
