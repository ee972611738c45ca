import Outboxy.Lifecycle.Deployment

/-!
# Nothing is left behind

A worker that stops waits for its poll loops, so that the events which it has
claimed get their outcome first.  Three faults get in the way: a
`claimPendingEvents` that throws after its claim took effect, an exception
between the publisher and the writes, and a write that fails.  `Faultless`
excludes them and nothing else.  Crashes and faults of other workers, late
answers, timeouts of `stop` and restarts are all allowed.

* `Coherent` relates the poll loops to their calls on the outbox.  Each call is
  held by one loop at most, and a call that no loop holds is done with its
  events.  It is carried through the steps by `Coherent.move`, which is about
  one loop that moves on.
* `exists_live_of_processing` finds the loop that works on an event in
  `processing`.
* `exhausted_of_stopped` is the result: when all loops have ended, the events
  that the worker claimed last and that are still in `processing` are those
  without a retry left, which `scheduleRetry` passes over.
-/

namespace Outboxy.Lifecycle

open Transition

/-- The task is a call of `claimPendingEvents` of the worker, or has ended. -/
def ofClaim (worker : OutboxWorker) : Task → Prop
  | .claimSelected worker' _ => worker' = worker
  | .claimUpdated worker' _ _ => worker' = worker
  | .claimCommitted worker' _ => worker' = worker
  | .claimed worker' _ => worker' = worker
  | .done => True
  | _ => False

namespace Deployment

variable {a : Adapter} {s s' : Deployment a} {loop : LoopId} {t : TaskId}

/-- The call whose events a poll loop works on. -/
def holds (s : Deployment a) (loop : LoopId) : Option TaskId :=
  match s.worker.loops loop with
  | .claiming => s.claims loop
  | phase => phase.batch.bind s.batches

/-- The repository answers what it has done, the publisher's answer gets to the
writes, and no write fails. -/
def Faultless (s : Deployment a) : DeploymentAction → Prop
  | .claimThrows loop => ∀ t, s.claims loop = some t →
      (s.outbox.tasks t).unclaimed = true ∨ (s.outbox.tasks t).holds = []
  | .published loop outcome => ∀ batch events,
      s.worker.loops loop = .publishing batch events →
        (executeBatchProcessing s.worker.worker events outcome).isSome
  | .writeSettled _ ok => ok = true
  | _ => True

/-- The loop and the call that it works on are at the same point. -/
inductive Held (s : Deployment a) (loop : LoopId) (t : TaskId) : Prop
  | claiming (hloop : s.worker.loops loop = .claiming)
    (htask : ofClaim s.worker.worker (s.outbox.tasks t))
  | publishing (batch : BatchId) (events : List OutboxEvent)
    (hloop : s.worker.loops loop = .publishing batch events)
    (htask : s.outbox.tasks t = .claimed s.worker.worker events)
  | writing (batch : BatchId) (events : List OutboxEvent) (outcome : PublishOutcome)
    (pending : List RepositoryCall) (hloop : s.worker.loops loop = .writing batch)
    (htask : s.outbox.tasks t = .writing s.worker.worker events outcome pending)
    (hpending : ∀ call ∈ pending, ⟨loop, batch, call⟩ ∈ s.worker.outstanding)

/-- The loops hold the calls of the worker that are not done with their
events. -/
structure Coherent (s : Deployment a) : Prop where
  held : ∀ loop t, s.holds loop = some t → t ∈ s.begun ∧ s.Held loop t
  claims : ∀ loop t, s.claims loop = some t → s.worker.loops loop = .claiming
  distinct : ∀ loop loop' t, s.holds loop = some t → s.holds loop' = some t → loop = loop'
  owing : ∀ t ∈ s.begun, Owing s.outbox t
  released : ∀ t ∈ s.begun, (∃ loop, s.holds loop = some t) ∨ (s.outbox.tasks t).holds = []

/-! ## The loops that do not move -/

theorem holds_of_claiming (h : s.worker.loops loop = .claiming) :
    s.holds loop = s.claims loop := by
  simp only [holds, h]

theorem holds_of_batch {batch : BatchId} (h : (s.worker.loops loop).batch = some batch) :
    s.holds loop = s.batches batch := by
  unfold holds
  split
  · rename_i hloop
    rw [hloop] at h
    exact nomatch h
  · simp only [h, Option.bind_some]

theorem holds_eq_none (hphase : (s.worker.loops loop).batch = none)
    (hclaims : s.worker.loops loop = .claiming → s.claims loop = none) : s.holds loop = none := by
  unfold holds
  split
  · rename_i hloop
    exact hclaims hloop
  · rw [hphase]
    rfl

theorem live_of_holds (h : s.holds loop = some t) : (s.worker.loops loop).live = true := by
  unfold holds at h
  cases hloop : s.worker.loops loop with
  | claiming | publishing | writing | sleeping => rfl
  | unstarted | ended =>
    rw [hloop] at h
    exact nomatch h

/-- Nothing that a loop awaits has changed. -/
structure Rests (s s' : Deployment a) (loop : LoopId) : Prop where
  loops : s'.worker.loops loop = s.worker.loops loop
  claims : s'.claims loop = s.claims loop
  batches : ∀ batch, (s.worker.loops loop).batch = some batch →
    s'.batches batch = s.batches batch
  outstanding : ∀ batch call, s.worker.loops loop = .writing batch →
    ⟨loop, batch, call⟩ ∈ s.worker.outstanding → ⟨loop, batch, call⟩ ∈ s'.worker.outstanding

theorem Rests.holds (h : Rests s s' loop) : s'.holds loop = s.holds loop := by
  unfold Deployment.holds
  rw [h.loops, h.claims]
  split
  · rfl
  · cases hbatch : (s.worker.loops loop).batch with
    | none => rfl
    | some batch =>
      rw [Option.bind_some, Option.bind_some]
      exact h.batches batch hbatch

theorem Held.of_rests (h : Rests s s' loop) (hworker : s'.worker.worker = s.worker.worker)
    (htask : s'.outbox.tasks t = s.outbox.tasks t) (hheld : s.Held loop t) :
    s'.Held loop t := by
  cases hheld with
  | claiming hloop hclaim =>
    exact .claiming (h.loops.trans hloop) (by rw [htask, hworker]; exact hclaim)
  | publishing batch events hloop hclaimed =>
    exact .publishing batch events (h.loops.trans hloop) (by rw [htask, hworker]; exact hclaimed)
  | writing batch events outcome pending hloop hwriting hpending =>
    exact .writing batch events outcome pending (h.loops.trans hloop)
      (by rw [htask, hworker]; exact hwriting)
      fun call hcall => h.outstanding batch call hloop (hpending call hcall)

/-- One loop moves on, and with it the call that it holds. -/
theorem Coherent.move (inv : Coherent s) (loop : LoopId) (hrests : ∀ l ≠ loop, Rests s s' l)
    (hworker : s'.worker.worker = s.worker.worker)
    (htasks : ∀ t ∈ s.begun, s.holds loop ≠ some t → s'.outbox.tasks t = s.outbox.tasks t)
    (hclaims : ∀ t, s'.claims loop = some t → s'.worker.loops loop = .claiming)
    (hbegun : ∀ t, t ∈ s.begun → t ∈ s'.begun)
    (hheld : ∀ t, s'.holds loop = some t →
      t ∈ s'.begun ∧ s'.Held loop t ∧ (s.holds loop = some t ∨ t ∉ s.begun))
    (hreleased : ∀ t, s.holds loop = some t →
      s'.holds loop = some t ∨ (s'.outbox.tasks t).holds = [])
    (hnew : ∀ t ∈ s'.begun, t ∉ s.begun → s'.holds loop = some t)
    (howing : ∀ t ∈ s'.begun, Owing s'.outbox t) : Coherent s' := by
  -- A call that another loop holds is not the one that moves.
  have hother : ∀ l ≠ loop, ∀ t, s.holds l = some t → s.holds loop ≠ some t :=
    fun l hl t hholds hloop => hl (inv.distinct l loop t hholds hloop)
  refine ⟨fun l t hholds => ?_, fun l t hclaim => ?_, fun l l' t hholds hholds' => ?_, howing,
    fun t ht => ?_⟩
  · by_cases hl : l = loop
    · subst hl
      exact ⟨(hheld t hholds).1, (hheld t hholds).2.1⟩
    · rw [(hrests l hl).holds] at hholds
      obtain ⟨hmem, hold⟩ := inv.held l t hholds
      exact ⟨hbegun t hmem,
        hold.of_rests (hrests l hl) hworker (htasks t hmem (hother l hl t hholds))⟩
  · by_cases hl : l = loop
    · subst hl
      exact hclaims t hclaim
    · rw [(hrests l hl).claims] at hclaim
      rw [(hrests l hl).loops]
      exact inv.claims l t hclaim
  · have hmoved : ∀ k ≠ loop, s'.holds k = some t → s'.holds loop = some t → False := by
      intro k hk hkholds hloop
      rw [(hrests k hk).holds] at hkholds
      rcases (hheld t hloop).2.2 with hold | hnot
      · exact hother k hk t hkholds hold
      · exact hnot (inv.held k t hkholds).1
    by_cases hl : l = loop <;> by_cases hl' : l' = loop
    · exact hl.trans hl'.symm
    · exact (hmoved l' hl' hholds' (hl ▸ hholds)).elim
    · exact (hmoved l hl hholds (hl' ▸ hholds')).elim
    · rw [(hrests l hl).holds] at hholds
      rw [(hrests l' hl').holds] at hholds'
      exact inv.distinct l l' t hholds hholds'
  · by_cases hmem : t ∈ s.begun
    · by_cases hloop : s.holds loop = some t
      · exact (hreleased t hloop).imp_left fun h => ⟨loop, h⟩
      · rcases inv.released t hmem with ⟨l, hl⟩ | hdone
        · have hne : l ≠ loop := fun heq => hloop (heq ▸ hl)
          exact Or.inl ⟨l, (hrests l hne).holds.trans hl⟩
        · rw [htasks t hmem hloop]
          exact Or.inr hdone
    · exact Or.inl ⟨loop, hnew t ht hmem⟩

/-! ## The steps -/

theorem Coherent.initial (worker : OutboxWorker) (clock : Int) :
    Coherent (.initial worker clock : Deployment a) where
  held _ _ h := nomatch h
  claims _ _ h := nomatch h
  distinct _ _ _ h := nomatch h
  owing _ h := absurd h List.not_mem_nil
  released _ h := absurd h List.not_mem_nil

/-- No loop moves, and no call of the worker. -/
theorem Coherent.rest (inv : Coherent s) (hrests : ∀ l, Rests s s' l)
    (hworker : s'.worker.worker = s.worker.worker) (hbegun : s'.begun = s.begun)
    (htasks : ∀ t ∈ s.begun, s'.outbox.tasks t = s.outbox.tasks t)
    (howing : ∀ t ∈ s.begun, Owing s'.outbox t) : Coherent s' := by
  refine inv.move 0 (fun l _ => hrests l) hworker (fun t ht _ => htasks t ht) (fun t hclaim => ?_)
    (fun t ht => hbegun ▸ ht) (fun t hholds => ?_) (fun t hholds => ?_) (fun t ht hnot => ?_)
    (fun t ht => howing t (hbegun ▸ ht))
  · rw [(hrests 0).loops]
    exact inv.claims 0 t ((hrests 0).claims ▸ hclaim)
  · rw [(hrests 0).holds] at hholds
    obtain ⟨hmem, hold⟩ := inv.held 0 t hholds
    exact ⟨hbegun ▸ hmem, hold.of_rests (hrests 0) hworker (htasks t hmem), Or.inl hholds⟩
  · exact Or.inl ((hrests 0).holds.trans hholds)
  · exact absurd (hbegun ▸ ht) hnot

/-- A loop that holds no call moves to a phase in which it holds none. -/
theorem Coherent.idle {worker' : WorkerState} {phase : PollLoop} (inv : Coherent s)
    (hloops : worker'.loops = Function.update s.worker.loops loop phase)
    (hworker : worker'.worker = s.worker.worker)
    (houtstanding : worker'.outstanding = s.worker.outstanding) (hphase : phase.batch = none)
    (hclaims : s.claims loop = none) (hholds : s.holds loop = none) :
    Coherent { s with worker := worker' } := by
  have hnone : ({ s with worker := worker' } : Deployment a).holds loop = none := by
    refine holds_eq_none ?_ fun _ => hclaims
    rw [hloops, Function.update_self]
    exact hphase
  refine inv.move loop (fun l hl => ⟨?_, rfl, fun _ _ => rfl, fun _ _ _ h => ?_⟩) hworker
    (fun _ _ _ => rfl) (fun t hclaim => ?_) (fun t ht => ht) (fun t h => ?_) (fun t h => ?_)
    (fun t ht hnot => absurd ht hnot) inv.owing
  · show worker'.loops l = s.worker.loops l
    rw [hloops, Function.update_of_ne hl]
  · exact houtstanding ▸ h
  · exact absurd (hclaims.symm.trans hclaim) nofun
  · exact absurd (hnone.symm.trans h) nofun
  · exact absurd (hholds.symm.trans h) nofun

/-- A statement that forgets no events keeps the debts of all calls. -/
theorem Coherent.owing_execute {action : Action} {outbox : State a} (inv : Coherent s)
    (hs : (Outboxy.outbox a).Reachable s.outbox)
    (hstep : Outboxy.step s.outbox action = some outbox)
    (hkeeps : ∀ t, action.task? = some t → t ∈ s.begun → ¬ Forgets s.outbox action outbox t) :
    ∀ t ∈ s.begun, Owing outbox t := fun t ht =>
  owing_step hs hstep (fun hforgets => hkeeps t (hforgets.task hstep) ht hforgets)
    (inv.owing t ht)

theorem Coherent.other {action : Action} {outbox : State a} (inv : Coherent s)
    (hs : (Outboxy.outbox a).Reachable s.outbox)
    (hothers : ∀ t ∈ s.begun, action.task? ≠ some t)
    (hstep : Outboxy.step s.outbox action = some outbox) :
    Coherent { s with outbox := outbox } :=
  inv.rest (fun _ => ⟨rfl, rfl, fun _ _ => rfl, fun _ _ _ h => h⟩) rfl rfl
    (fun t ht => (frame_step hstep).tasks t (hothers t ht))
    (inv.owing_execute hs hstep fun t hact ht => absurd hact (hothers t ht))

theorem Coherent.start (inv : Coherent s) (loops : LoopsInv s.worker) :
    Coherent { s with worker := s.worker.start } := by
  have hunstarted := loops.unstarted s.worker.starts (Nat.le_refl _)
  have hclaims : s.claims s.worker.starts = none := by
    cases hclaim : s.claims s.worker.starts with
    | none => rfl
    | some t => exact absurd (hunstarted.symm.trans (inv.claims _ t hclaim)) nofun
  refine inv.idle rfl rfl rfl rfl hclaims (holds_eq_none ?_ fun _ => hclaims)
  rw [hunstarted]
  rfl

theorem Coherent.woke (inv : Coherent s) (hloop : s.worker.loops loop = .sleeping) :
    Coherent { s with worker := s.worker.woke loop } := by
  have hclaims : s.claims loop = none := by
    cases hclaim : s.claims loop with
    | none => rfl
    | some t => exact absurd (hloop.symm.trans (inv.claims _ t hclaim)) nofun
  refine inv.idle rfl rfl rfl ?_ hclaims (holds_eq_none ?_ fun _ => hclaims)
  · split <;> rfl
  · rw [hloop]
    rfl

theorem Coherent.worker {action : WorkerAction} {worker' : WorkerState} (inv : Coherent s)
    (loops : LoopsInv s.worker) (hlocal : action.isLocal = true)
    (hstep : s.worker.step action = some worker') : Coherent { s with worker := worker' } := by
  have hrest : ∀ worker' : WorkerState, worker'.loops = s.worker.loops →
      worker'.worker = s.worker.worker → worker'.outstanding = s.worker.outstanding →
        Coherent { s with worker := worker' } := by
    intro worker' hloops hworker houtstanding
    exact inv.rest (fun l => ⟨congrFun hloops l, rfl, fun _ _ => rfl,
      fun _ _ _ h => houtstanding ▸ h⟩) hworker rfl (fun _ _ => rfl) inv.owing
  cases action with
  | start =>
    obtain rfl := Option.some.inj hstep
    exact inv.start loops
  | stop =>
    obtain rfl := Option.some.inj hstep
    refine hrest _ (loops_stop _) ?_ ?_ <;> (unfold WorkerState.stop; split <;> rfl)
  | event event =>
    cases WorkerState.reacts_of_react hstep with
    | woke hloop => exact inv.woke hloop
    | loopEnded | timedOut => exact hrest _ rfl rfl rfl
    | claimed | claimFailed | published | writeSettled => exact nomatch hlocal

theorem Coherent.claim {ids : List EventId} {outbox : State a} (inv : Coherent s)
    (hs : (Outboxy.outbox a).Reachable s.outbox) (hloop : s.worker.loops loop = .claiming)
    (hclaims : s.claims loop = none) (hnew : t ∉ s.begun)
    (hstep : Outboxy.step s.outbox (.claim t s.worker.worker ids) = some outbox) :
    Coherent { s with
      outbox := outbox
      claims := Function.update s.claims loop (some t)
      begun := t :: s.begun } := by
  have hnone : s.holds loop = none := (holds_of_claiming hloop).trans hclaims
  have hholds : ({ s with
      outbox := outbox
      claims := Function.update s.claims loop (some t)
      begun := t :: s.begun } : Deployment a).holds loop = some t :=
    Eq.trans (b := Function.update s.claims loop (some t) loop) (holds_of_claiming hloop)
      (Function.update_self ..)
  have htasks : ∀ t' ≠ t, outbox.tasks t' = s.outbox.tasks t' := fun t' hne =>
    (frame_step hstep).tasks t' fun hact => hne (Option.some.inj hact).symm
  have hidle := (claim_cases hstep).1
  have htask : ofClaim s.worker.worker (outbox.tasks t) := by
    rcases claim_cases hstep with ⟨_, _, ⟨_, rfl⟩ | ⟨_, _, table, _, rfl⟩ | ⟨_, _, rfl⟩⟩ <;>
      simp [ofClaim]
  refine inv.move loop (fun l hl => ⟨rfl, Function.update_of_ne hl .., fun _ _ => rfl,
    fun _ _ _ h => h⟩) rfl (fun t' ht' _ => htasks t' fun heq => hnew (heq ▸ ht'))
    (fun _ _ => hloop) (fun t' ht' => List.mem_cons_of_mem t ht') (fun t' h => ?_) (fun t' h => ?_)
    (fun t' ht' hnot => ?_) (fun t' ht' => ?_)
  · obtain rfl := Option.some.inj (hholds.symm.trans h)
    exact ⟨List.mem_cons_self, .claiming hloop htask, Or.inr hnew⟩
  · exact absurd (hnone.symm.trans h) (by simp)
  · rcases List.mem_cons.mp ht' with rfl | hmem
    · exact hholds
    · exact absurd hmem hnot
  · have hforgets : ¬ Forgets s.outbox (.claim t s.worker.worker ids) outbox t := by
      rintro (⟨hclaimed, _⟩ | ⟨index, hact⟩)
      · rw [hidle] at hclaimed
        cases hclaimed
      · cases hact
    rcases List.mem_cons.mp ht' with rfl | hmem
    · refine owing_step hs hstep hforgets fun id hclaimed => ?_
      exact absurd hclaimed (not_hasClaimed_of_unclaimed hs (by rw [hidle]; rfl))
    · exact inv.owing_execute hs hstep (fun t'' hact ht'' =>
        absurd (Option.some.inj hact ▸ ht'') hnew) t' hmem

/-- The statements of a claim keep to their call, and to the worker. -/
theorem ofClaim_of_statement {action : Action} {outbox : State a}
    (hclaim : ofClaim s.worker.worker (s.outbox.tasks t))
    (hstatement : statement t (s.outbox.tasks t) = some action)
    (hstep : Outboxy.step s.outbox action = some outbox) :
    action.task? = some t ∧ outbox.tasks t ≠ .done ∧ (∀ index, action ≠ .writeFails t index) ∧
      ofClaim s.worker.worker (outbox.tasks t) := by
  cases htask : s.outbox.tasks t with
  | claimSelected worker ids =>
    rw [htask] at hclaim hstatement
    obtain rfl := Option.some.inj hstatement
    obtain ⟨_, _, htask', rfl⟩ := claimUpdate_cases hstep
    obtain ⟨rfl, rfl⟩ := Task.claimSelected.inj (htask.symm.trans htask')
    exact ⟨rfl, by simp, by simp, by simpa [ofClaim] using hclaim⟩
  | claimUpdated worker ids startedAt =>
    rw [htask] at hclaim hstatement
    obtain rfl := Option.some.inj hstatement
    obtain ⟨_, _, _, _, htask', _, rfl⟩ := claimCommit_cases hstep
    obtain ⟨rfl, rfl, rfl⟩ := Task.claimUpdated.inj (htask.symm.trans htask')
    exact ⟨rfl, by simp, by simp, by simpa [ofClaim] using hclaim⟩
  | claimCommitted worker ids =>
    rw [htask] at hclaim hstatement
    obtain rfl := Option.some.inj hstatement
    obtain ⟨_, _, htask', rfl⟩ := claimReselect_cases hstep
    obtain ⟨rfl, rfl⟩ := Task.claimCommitted.inj (htask.symm.trans htask')
    exact ⟨rfl, by simp, by simp, by simpa [ofClaim] using hclaim⟩
  | _ =>
    rw [htask] at hstatement
    cases hstatement

/-- A call that a claiming loop awaits is a call of the worker. -/
theorem Coherent.ofClaim_of_claims (inv : Coherent s) (hclaims : s.claims loop = some t) :
    s.holds loop = some t ∧ t ∈ s.begun ∧ ofClaim s.worker.worker (s.outbox.tasks t) := by
  have hloop := inv.claims loop t hclaims
  have hholds : s.holds loop = some t := (holds_of_claiming hloop).trans hclaims
  obtain ⟨hmem, hheld⟩ := inv.held loop t hholds
  refine ⟨hholds, hmem, ?_⟩
  cases hheld with
  | claiming _ htask => exact htask
  | publishing _ _ hloop' => exact absurd (hloop.symm.trans hloop') nofun
  | writing _ _ _ _ hloop' => exact absurd (hloop.symm.trans hloop') nofun

theorem Coherent.nextStatement {action : Action} {outbox : State a} (inv : Coherent s)
    (hs : (Outboxy.outbox a).Reachable s.outbox) (hclaims : s.claims loop = some t)
    (hstatement : statement t (s.outbox.tasks t) = some action)
    (hstep : Outboxy.step s.outbox action = some outbox) :
    Coherent { s with outbox := outbox } := by
  obtain ⟨hholds, hmem, hclaim⟩ := inv.ofClaim_of_claims hclaims
  obtain ⟨hact, hends, hfails, hclaim'⟩ := ofClaim_of_statement hclaim hstatement hstep
  have hsame : ({ s with outbox := outbox } : Deployment a).holds loop = some t := hholds
  refine inv.move loop (fun l hl => ⟨rfl, rfl, fun _ _ => rfl, fun _ _ _ h => h⟩) rfl
    (fun t' _ hne => (frame_step hstep).tasks t' fun hact' => hne ?_)
    (fun t' h => inv.claims loop t' h) (fun t' ht' => ht') (fun t' h => ?_) (fun t' h => Or.inl h)
    (fun t' ht' hnot => absurd ht' hnot)
    (inv.owing_execute hs hstep fun t' hact' _ hforgets => ?_)
  · rw [hholds, ← hact, hact']
  · obtain rfl := Option.some.inj (hsame.symm.trans h)
    exact ⟨hmem, .claiming (inv.claims loop t hclaims) hclaim', Or.inl hholds⟩
  · obtain rfl := Option.some.inj (hact.symm.trans hact')
    rcases hforgets with ⟨_, _, hdone⟩ | ⟨index, hindex⟩
    · exact hends hdone
    · exact hfails index hindex

theorem claimAnswer_cases {worker : OutboxWorker} {task : Task} {events : List OutboxEvent}
    (hclaim : ofClaim worker task) (hanswer : claimAnswer task = some events) :
    task = .claimed worker events ∨ task = .done ∧ events = [] := by
  cases task with
  | claimed worker' events' =>
    obtain rfl := Option.some.inj hanswer
    obtain rfl : worker' = worker := hclaim
    exact Or.inl rfl
  | done => exact Or.inr ⟨rfl, (Option.some.inj hanswer).symm⟩
  | _ => exact nomatch hanswer

theorem Coherent.claimReturns {events : List OutboxEvent} (inv : Coherent s)
    (loops : LoopsInv s.worker) (hclaims : s.claims loop = some t)
    (hanswer : claimAnswer (s.outbox.tasks t) = some events) :
    Coherent { s with
      worker := s.worker.claimed loop events
      claims := Function.update s.claims loop none
      batches := Function.update s.batches s.worker.batches (some t) } := by
  obtain ⟨hholds, hmem, hclaim⟩ := inv.ofClaim_of_claims hclaims
  have hphase : (s.worker.claimed loop events).loops =
      Function.update s.worker.loops loop
        (if events = [] then .sleeping else .publishing s.worker.batches events) := by
    unfold WorkerState.claimed
    split <;> rfl
  have hworker : (s.worker.claimed loop events).worker = s.worker.worker := by
    unfold WorkerState.claimed
    split <;> rfl
  have houtstanding : (s.worker.claimed loop events).outstanding = s.worker.outstanding := by
    unfold WorkerState.claimed
    split <;> rfl
  have htask := claimAnswer_cases hclaim hanswer
  have hnow : (s.worker.claimed loop events).loops loop =
      if events = [] then .sleeping else .publishing s.worker.batches events :=
    (congrFun hphase loop).trans (Function.update_self ..)
  refine inv.move loop (fun l hl => ⟨?_, Function.update_of_ne hl .., fun b hb => ?_, ?_⟩) hworker
    (fun _ _ _ => rfl) (fun t' h => ?_) (fun t' ht' => ht') (fun t' h => ?_) (fun t' h => ?_)
    (fun t' ht' hnot => absurd ht' hnot) inv.owing
  · exact (congrFun hphase l).trans (Function.update_of_ne hl ..)
  · exact Function.update_of_ne (Nat.ne_of_lt (loops.fresh l b hb)) ..
  · exact fun _ _ _ h => houtstanding ▸ h
  · exact absurd ((Function.update_self ..).symm.trans h) nofun
  · by_cases hevents : events = []
    · rw [if_pos hevents] at hnow
      refine absurd ((holds_eq_none ?_ fun hclaiming => ?_).symm.trans h) nofun
      · exact congrArg PollLoop.batch hnow
      · exact absurd (hnow.symm.trans hclaiming) (by simp)
    · rw [if_neg hevents] at hnow
      have hbatch : Function.update s.batches s.worker.batches (some t) s.worker.batches =
          some t' := (holds_of_batch (congrArg PollLoop.batch hnow)).symm.trans h
      rw [Function.update_self] at hbatch
      obtain rfl := Option.some.inj hbatch
      refine ⟨hmem, .publishing s.worker.batches events hnow ?_, Or.inl hholds⟩
      rw [hworker]
      exact htask.resolve_right fun hdone => hevents hdone.2
  · obtain rfl := Option.some.inj (hholds.symm.trans h)
    by_cases hevents : events = []
    · rcases htask with htask | ⟨htask, _⟩
      · refine Or.inr ?_
        show (s.outbox.tasks t).holds = []
        rw [htask, hevents]
        rfl
      · refine Or.inr ?_
        show (s.outbox.tasks t).holds = []
        rw [htask]
        rfl
    · rw [if_neg hevents] at hnow
      refine Or.inl ((holds_of_batch (congrArg PollLoop.batch hnow)).trans ?_)
      exact Function.update_self ..

/-- A loop goes to sleep, and its call is done with its events. -/
theorem Coherent.release {outbox : State a} {worker' : WorkerState}
    {claims' : LoopId → Option TaskId} (inv : Coherent s)
    (hloops : worker'.loops = Function.update s.worker.loops loop .sleeping)
    (hworker : worker'.worker = s.worker.worker)
    (houtstanding : ∀ l ≠ loop, ∀ batch call, ⟨l, batch, call⟩ ∈ s.worker.outstanding →
      ⟨l, batch, call⟩ ∈ worker'.outstanding)
    (hclaims : claims' = Function.update s.claims loop none)
    (htasks : ∀ t ∈ s.begun, s.holds loop ≠ some t → outbox.tasks t = s.outbox.tasks t)
    (hdone : ∀ t, s.holds loop = some t → (outbox.tasks t).holds = [])
    (howing : ∀ t ∈ s.begun, Owing outbox t) :
    Coherent { s with outbox := outbox, worker := worker', claims := claims' } := by
  have hsleeps : worker'.loops loop = .sleeping := by rw [hloops, Function.update_self]
  have hnone : claims' loop = none := by rw [hclaims, Function.update_self]
  refine inv.move loop (fun l hl => ⟨?_, ?_, fun _ _ => rfl, fun batch call _ h => ?_⟩) hworker
    htasks (fun t h => ?_) (fun t ht => ht) (fun t h => ?_) (fun t h => Or.inr (hdone t h))
    (fun t ht hnot => absurd ht hnot) howing
  · show worker'.loops l = s.worker.loops l
    rw [hloops, Function.update_of_ne hl]
  · show claims' l = s.claims l
    rw [hclaims, Function.update_of_ne hl]
  · exact houtstanding l hl batch call h
  · exact absurd (hnone.symm.trans h) nofun
  · refine absurd ((holds_eq_none ?_ fun _ => hnone).symm.trans h) nofun
    exact congrArg PollLoop.batch hsleeps

theorem Coherent.claimThrows {outbox : State a} (inv : Coherent s)
    (hs : (Outboxy.outbox a).Reachable s.outbox) (hclaims : s.claims loop = some t)
    (hfaultless : (s.outbox.tasks t).unclaimed = true ∨ (s.outbox.tasks t).holds = [])
    (hstep : Outboxy.step s.outbox (.crash t) = some outbox) :
    Coherent { s with
      outbox := outbox
      worker := s.worker.setLoop loop .sleeping
      claims := Function.update s.claims loop none } := by
  obtain ⟨hholds, -, -⟩ := inv.ofClaim_of_claims hclaims
  have hdone : outbox.tasks t = .done := by
    obtain rfl := Option.some.inj hstep
    exact State.setTask_tasks_self ..
  refine inv.release rfl rfl (fun _ _ _ _ h => h) rfl
    (fun t' _ hne => (frame_step hstep).tasks t' fun hact => hne (hholds.trans hact))
    (fun t' h => ?_) (inv.owing_execute hs hstep fun t' hact _ hforgets => ?_)
  · obtain rfl := Option.some.inj (hholds.symm.trans h)
    exact congrArg Task.holds hdone
  · obtain rfl := Option.some.inj hact
    rcases hforgets with ⟨hclaimed, hkept, _⟩ | ⟨index, hindex⟩
    · rcases hfaultless with hunclaimed | hempty
      · exact absurd (hclaimed.symm.trans hunclaimed) (by simp)
      · exact hkept hempty
    · exact nomatch hindex

/-- A loop with a batch awaits no claim. -/
theorem Coherent.claims_eq_none (inv : Coherent s) {batch : BatchId}
    (hbatch : (s.worker.loops loop).batch = some batch) : s.claims loop = none := by
  cases hclaim : s.claims loop with
  | none => rfl
  | some t =>
    rw [inv.claims loop t hclaim] at hbatch
    exact nomatch hbatch

/-- The publisher answers, and the calls that the worker issues are those that
the outbox has to execute. -/
theorem Coherent.published {batch : BatchId} {events : List OutboxEvent}
    {outcome : PublishOutcome} {outbox : State a} (inv : Coherent s)
    (hs : (Outboxy.outbox a).Reachable s.outbox)
    (hloop : s.worker.loops loop = .publishing batch events) (hbatch : s.batches batch = some t)
    (hfaultless : (executeBatchProcessing s.worker.worker events outcome).isSome)
    (hstep : Outboxy.step s.outbox (.publishBatch t outcome) = some outbox) :
    Coherent { s with
      outbox := outbox
      worker := s.worker.published loop batch events outcome } := by
  have hmine : (s.worker.loops loop).batch = some batch := congrArg PollLoop.batch hloop
  have hholds : s.holds loop = some t := (holds_of_batch hmine).trans hbatch
  have hnone := inv.claims_eq_none hmine
  obtain ⟨hmem, hheld⟩ := inv.held loop t hholds
  have htask : s.outbox.tasks t = .claimed s.worker.worker events := by
    cases hheld with
    | publishing _ _ hloop' htask =>
      obtain ⟨_, rfl⟩ := PollLoop.publishing.inj (hloop.symm.trans hloop')
      exact htask
    | claiming hloop' => exact absurd (hloop.symm.trans hloop') nofun
    | writing _ _ _ _ hloop' => exact absurd (hloop.symm.trans hloop') nofun
  obtain ⟨calls, hcalls⟩ := Option.isSome_iff_exists.mp hfaultless
  have hwriting : outbox.tasks t = .writing s.worker.worker events outcome calls := by
    obtain ⟨_, _, htask', ⟨_, hcalls', rfl⟩ | ⟨hthrows, _⟩⟩ := publishBatch_cases hstep
    · obtain ⟨rfl, rfl⟩ := Task.claimed.inj (htask.symm.trans htask')
      obtain rfl := Option.some.inj (hcalls.symm.trans hcalls')
      exact State.setTask_tasks_self ..
    · obtain ⟨rfl, rfl⟩ := Task.claimed.inj (htask.symm.trans htask')
      exact absurd (hcalls.symm.trans hthrows) nofun
  have htasks : ∀ t' ∈ s.begun, s.holds loop ≠ some t' →
      outbox.tasks t' = s.outbox.tasks t' := fun t' _ hne =>
    (frame_step hstep).tasks t' fun hact => hne (hholds.trans hact)
  have howing := inv.owing_execute hs hstep fun t' hact _ hforgets => by
    obtain rfl := Option.some.inj hact
    rcases hforgets with ⟨_, _, hdone⟩ | ⟨index, hindex⟩
    · exact nomatch hwriting.symm.trans hdone
    · exact nomatch hindex
  unfold WorkerState.published
  rw [hcalls]
  cases calls with
  | nil =>
    refine inv.release rfl rfl (fun _ _ _ _ h => h) ?_ htasks (fun t' h => ?_) howing
    · exact (Function.update_eq_self_iff.mpr hnone.symm).symm
    · obtain rfl := Option.some.inj (hholds.symm.trans h)
      exact congrArg Task.holds hwriting
  | cons call calls =>
    have hnow : Function.update s.worker.loops loop (.writing batch) loop = .writing batch :=
      Function.update_self ..
    have hmine' : (Function.update s.worker.loops loop (.writing batch) loop).batch =
        some batch := congrArg PollLoop.batch hnow
    refine inv.move loop (fun l hl => ⟨Function.update_of_ne hl .., rfl, fun _ _ => rfl,
      fun _ _ _ h => List.mem_append_left _ h⟩) rfl htasks
      (fun t' h => absurd (hnone.symm.trans h) nofun) (fun t' ht' => ht') (fun t' h => ?_)
      (fun t' h => Or.inl ?_) (fun t' ht' hnot => absurd ht' hnot) howing
    · rw [holds_of_batch hmine'] at h
      obtain rfl := Option.some.inj (hbatch.symm.trans h)
      refine ⟨hmem, .writing batch events outcome _ hnow hwriting fun call' hcall' => ?_,
        Or.inl hholds⟩
      exact List.mem_append_right _ (List.mem_map_of_mem hcall')
    · obtain rfl := Option.some.inj (hholds.symm.trans h)
      exact (holds_of_batch hmine').trans hbatch

/-- A write executes.  Its call may be done already, as far as the loop goes. -/
theorem Coherent.writeExecutes {index : Nat} {outbox : State a} (inv : Coherent s)
    (hs : (Outboxy.outbox a).Reachable s.outbox)
    (hstep : Outboxy.step s.outbox (.write t index) = some outbox) :
    Coherent { s with outbox := outbox } := by
  obtain ⟨worker, events, outcome, pending, call, _, _, htask, _, _, _, _, houtbox⟩ :=
    write_cases hstep
  have htask' : outbox.tasks t = .writing worker events outcome (pending.eraseIdx index) := by
    rw [houtbox]
    exact State.setTask_tasks_self ..
  have htasks : ∀ t' ≠ t, outbox.tasks t' = s.outbox.tasks t' := fun t' hne =>
    (frame_step hstep).tasks t' fun hact => hne (Option.some.inj hact).symm
  have hrests : ∀ l, Rests s { s with outbox := outbox } l := fun _ =>
    ⟨rfl, rfl, fun _ _ => rfl, fun _ _ _ h => h⟩
  refine ⟨fun l t' hholds => ?_, inv.claims, inv.distinct, ?_, fun t' ht' => ?_⟩
  · obtain ⟨hmem, hheld⟩ := inv.held l t' hholds
    refine ⟨hmem, ?_⟩
    by_cases ht : t' = t
    · subst ht
      cases hheld with
      | claiming _ hclaim =>
        rw [htask] at hclaim
        exact hclaim.elim
      | publishing _ _ _ hclaimed => exact nomatch htask.symm.trans hclaimed
      | writing batch _ _ _ hloop hwriting hpending =>
        obtain ⟨rfl, rfl, rfl, rfl⟩ := Task.writing.inj (htask.symm.trans hwriting)
        exact .writing batch _ _ _ hloop htask' fun call' hcall' =>
          hpending call' (List.mem_of_mem_eraseIdx hcall')
    · exact hheld.of_rests (hrests l) rfl (htasks t' ht)
  · refine inv.owing_execute hs hstep fun t' hact _ hforgets => ?_
    obtain rfl := Option.some.inj hact
    rcases hforgets with ⟨_, _, hdone⟩ | ⟨index', hindex⟩
    · exact nomatch htask'.symm.trans hdone
    · exact nomatch hindex
  · refine (inv.released t' ht').imp_right fun hdone => ?_
    by_cases ht : t' = t
    · subst ht
      rw [htask] at hdone
      show (outbox.tasks t').holds = []
      rw [htask']
      refine List.eq_nil_iff_forall_not_mem.mpr fun id hid => ?_
      refine List.eq_nil_iff_forall_not_mem.mp hdone id ?_
      exact ((List.eraseIdx_sublist pending index).flatMap _).subset hid
    · show (outbox.tasks t').holds = []
      rw [htasks t' ht]
      exact hdone

/-- A write is answered with success.  If it was the last one of its batch,
all calls of the batch have executed. -/
theorem Coherent.writeSettled {index : Nat} {write : Write} (inv : Coherent s)
    (hwrite : s.worker.outstanding[index]? = some write) (hexecuted : s.executed write = true) :
    Coherent { s with worker := s.worker.writeSettled index write true } := by
  have hother : ∀ l ≠ write.loop, ∀ batch call, ⟨l, batch, call⟩ ∈ s.worker.outstanding →
      ⟨l, batch, call⟩ ∈ s.worker.outstanding.eraseIdx index := fun l hl batch call h =>
    WorkerState.mem_eraseIdx_of_ne hwrite h fun heq => hl (congrArg Write.loop heq)
  -- A call that has not executed is not the one that is answered.
  have hpending : ∀ t batch, s.holds write.loop = some t →
      s.worker.loops write.loop = .writing batch → ∀ call ∈ (s.outbox.tasks t).pending,
        ⟨write.loop, batch, call⟩ ∈ s.worker.outstanding →
          ⟨write.loop, batch, call⟩ ∈ s.worker.outstanding.eraseIdx index := by
    intro t batch hholds hloop call hcall h
    refine WorkerState.mem_eraseIdx_of_ne hwrite h fun heq => ?_
    have hbatch : s.batches write.batch = some t := by
      rw [← hholds, holds_of_batch (congrArg PollLoop.batch hloop), ← congrArg Write.batch heq]
    simp only [executed, hbatch, List.all_eq_true, decide_eq_true_eq] at hexecuted
    exact hexecuted call hcall (congrArg (fun w => w.call.decision) heq)
  unfold WorkerState.writeSettled
  simp only
  split
  · rename_i hsettled
    have hwriting := PollLoop.awaitsWrites_iff.mp hsettled.1
    have hlast : ∀ other ∈ s.worker.outstanding.eraseIdx index, other.batch ≠ write.batch :=
      hsettled.2.resolve_left (by simp)
    have hnone := inv.claims_eq_none (congrArg PollLoop.batch hwriting)
    refine inv.release rfl rfl hother (Function.update_eq_self_iff.mpr hnone.symm).symm
      (fun _ _ _ => rfl) (fun t hholds => ?_) inv.owing
    cases (inv.held write.loop t hholds).2 with
    | claiming hloop => exact nomatch hwriting.symm.trans hloop
    | publishing _ _ hloop => exact nomatch hwriting.symm.trans hloop
    | writing batch events outcome pending hloop htask hissued =>
      obtain rfl := PollLoop.writing.inj (hwriting.symm.trans hloop)
      have hnil : pending = [] := List.eq_nil_iff_forall_not_mem.mpr fun call hcall =>
        hlast _ (hpending t write.batch hholds hwriting call (by rw [htask]; exact hcall)
          (hissued call hcall)) rfl
      rw [htask, hnil]
      rfl
  · refine inv.move write.loop (fun l hl => ⟨rfl, rfl, fun _ _ => rfl,
      fun batch call _ h => hother l hl batch call h⟩) rfl (fun _ _ _ => rfl)
      (fun t h => inv.claims _ t h) (fun t ht => ht) (fun t hholds => ?_)
      (fun t h => Or.inl h) (fun t ht hnot => absurd ht hnot) inv.owing
    obtain ⟨hmem, hheld⟩ := inv.held write.loop t hholds
    refine ⟨hmem, ?_, Or.inl hholds⟩
    cases hheld with
    | claiming hloop hclaim => exact .claiming hloop hclaim
    | publishing batch events hloop htask => exact .publishing batch events hloop htask
    | writing batch events outcome pending hloop htask hissued =>
      exact .writing batch events outcome pending hloop htask fun call hcall =>
        hpending t batch hholds hloop call (by rw [htask]; exact hcall) (hissued call hcall)

/-- Every step without a fault keeps the loops and their calls together. -/
theorem Coherent.step {action : DeploymentAction} (inv : Coherent s)
    (hs : (Outboxy.outbox a).Reachable s.outbox) (loops : LoopsInv s.worker)
    (hfaultless : s.Faultless action) (h : s.step action = some s') : Coherent s' := by
  cases moves_of_step h with
  | other hothers hstep => exact inv.other hs hothers hstep
  | worker hlocal hstep => exact inv.worker loops hlocal hstep
  | claim hloop hclaims hnew hstep => exact inv.claim hs hloop hclaims hnew hstep
  | nextStatement hclaims hstatement hstep => exact inv.nextStatement hs hclaims hstatement hstep
  | claimReturns hclaims hanswer _ => exact inv.claimReturns loops hclaims hanswer
  | claimFails hclaims hloop =>
    exact inv.idle rfl rfl rfl rfl hclaims ((holds_of_claiming hloop).trans hclaims)
  | claimThrows hclaims hloop hstep =>
    exact inv.claimThrows hs hclaims (hfaultless _ hclaims) hstep
  | published hloop hbatch hstep =>
    exact inv.published hs hloop hbatch (hfaultless _ _ hloop) hstep
  | writeExecutes hbatch hstep => exact inv.writeExecutes hs hstep
  | writeSettled hwrite hexecuted =>
    obtain rfl : _ = true := hfaultless
    exact inv.writeSettled hwrite (hexecuted rfl)

end Deployment

section Result

variable {a : Adapter} {worker : OutboxWorker} {s : Deployment a}

theorem coherent_of_reachableBy
    (hs : (deployment a worker).ReachableBy Deployment.Faultless s) : s.Coherent := by
  refine hs.induct ?_ ?_
  · rintro _ ⟨clock, rfl⟩
    exact .initial worker clock
  · intro s action s' hs inv hfaultless h
    exact inv.step (outbox_of_reachable hs.reachable)
      (loopsInv_of_reachable (worker_of_reachable hs.reachable)) hfaultless h

/-- An event in `processing` that the worker claimed last, and that has a retry
left, is in the hands of a poll loop that goes on. -/
theorem exists_live_of_processing
    (hs : (deployment a worker).ReachableBy Deployment.Faultless s) {id : EventId}
    {row : OutboxEvent} (hrow : s.outbox.table.lookup id = some row)
    (hstatus : row.status = .processing) (hretry : (row.retryCount : Int) < row.maxRetries)
    {t : TaskId} (hlast : lastClaim id s.outbox.history = some t) (hbegun : t ∈ s.begun) :
    ∃ loop, s.holds loop = some t ∧ (s.worker.loops loop).live = true := by
  have inv := coherent_of_reachableBy hs
  rcases inv.released t hbegun with ⟨loop, hholds⟩ | hdone
  · exact ⟨loop, hholds, Deployment.live_of_holds hholds⟩
  · rcases inv.owing t hbegun id (hasClaimed_of_lastClaim hlast) with hheld | hwritten
    · exact absurd (hdone ▸ hheld) List.not_mem_nil
    · have hexhausted := exhausted_of_written (outbox_of_reachable hs.reachable) hrow hstatus
        hlast hwritten
      omega

/-- When all poll loops of a worker have ended without a fault, the events that
it claimed last have left `processing`, except for those without a retry
left. -/
theorem exhausted_of_stopped
    (hs : (deployment a worker).ReachableBy Deployment.Faultless s)
    (hstopped : ∀ loop, (s.worker.loops loop).live = false) :
    ∀ row ∈ s.outbox.table.rows, row.status = .processing →
      ∀ t, lastClaim row.id s.outbox.history = some t → t ∈ s.begun →
        row.maxRetries ≤ row.retryCount := by
  intro row hrow hstatus t hlast hbegun
  by_contra hretry
  obtain ⟨loop, -, hlive⟩ := exists_live_of_processing hs (Table.lookup_of_mem hrow) hstatus
    (Int.not_le.mp hretry) hlast hbegun
  exact absurd (hlive.symm.trans (hstopped loop)) (by simp)

end Result

/-! ## A stop that leaves an event without a retry -/

/-- A worker keeps its configuration. -/
theorem WorkerState.Reacts.worker_eq {s s' : WorkerState} {event : WorkerEvent}
    (h : s.Reacts event s') : s'.worker = s.worker := by
  cases h with
  | claimed events _ =>
    unfold WorkerState.claimed
    split <;> rfl
  | published outcome _ =>
    unfold WorkerState.published
    split <;> rfl
  | writeSettled ok _ =>
    unfold WorkerState.writeSettled
    simp only
    split <;> rfl
  | claimFailed | woke | loopEnded | timedOut => rfl

theorem worker_eq_of_reachable {worker : OutboxWorker} {s : WorkerState}
    (hs : (outboxWorker worker).Reachable s) : s.worker = worker := by
  refine hs.induct (P := fun s => s.worker = worker) ?_ ?_
  · rintro _ rfl
    rfl
  · intro s action s' _ ih _ h
    refine Eq.trans ?_ ih
    cases action with
    | start =>
      obtain rfl := Option.some.inj h
      rfl
    | stop =>
      obtain rfl := Option.some.inj h
      unfold WorkerState.stop
      split <;> rfl
    | event event => exact (WorkerState.reacts_of_react h).worker_eq

namespace Sample

/-- An event that has no retry is refused, and the worker is stopped. -/
def refusedAndStopped : List DeploymentAction :=
  [.other (.publish Sample.id (Sample.values 0)), .worker .start, .claim 0 0 [Sample.id],
    .claimReturns 0, .published 0 (Sample.answers [(Sample.id, false)]), .writeExecutes 0 0,
    .writeSettled 0 true, .worker .stop, .worker (.event (.woke 0)),
    .worker (.event (.loopEnded 0))]

/-- The publisher's answer gets to the writes, since the worker has no
metrics. -/
theorem faultless_refusedAndStopped {s : Deployment .postgres} {action : DeploymentAction}
    (hs : (deployment .postgres worker).Reachable s) (haction : action ∈ refusedAndStopped) :
    s.Faultless action := by
  simp only [refusedAndStopped, List.mem_cons, List.not_mem_nil, or_false] at haction
  rcases haction with rfl | rfl | rfl | rfl | rfl | rfl | rfl | rfl | rfl | rfl <;>
    try exact trivial
  · intro batch events _
    rw [worker_eq_of_reachable (worker_of_reachable hs)]
    simp [executeBatchProcessing, recordingThrows_of_none, worker]
  · rfl

end Sample

/-- The worker has ended its loop, and `scheduleRetry` has passed over its
event. -/
theorem exhausted_of_stopped_refused :
    ∃ (s : Deployment .postgres) (row : OutboxEvent),
      (∀ loop, (s.worker.loops loop).live = false) ∧ row ∈ s.outbox.table.rows ∧
      row.status = .processing ∧ lastClaim row.id s.outbox.history = some 0 ∧ 0 ∈ s.begun ∧
      row.maxRetries ≤ row.retryCount := by
  have hcheck : (((deployment .postgres Sample.worker).run (.initial Sample.worker 0)
      Sample.refusedAndStopped).any fun s =>
        decide ((s.worker.loops 0).live = false ∧ s.worker.starts = 1 ∧ 0 ∈ s.begun) &&
          s.outbox.table.rows.any fun row => decide (row.status = .processing ∧
            lastClaim row.id s.outbox.history = some 0)) = true := by
    decide +kernel
  obtain ⟨s, hrun, hs⟩ := (Option.any_eq_true _ _).mp hcheck
  rw [Bool.and_eq_true, List.any_eq_true] at hs
  obtain ⟨hended, row, hrow, hstatus⟩ := hs
  obtain ⟨hlive, hstarts, hbegun⟩ := of_decide_eq_true hended
  obtain ⟨hstatus, hlast⟩ := of_decide_eq_true hstatus
  have hinit : (deployment .postgres Sample.worker).Reachable (.initial Sample.worker 0) :=
    .init ⟨0, rfl⟩
  have hreachable := hinit.run hrun
  have hstopped : ∀ loop, (s.worker.loops loop).live = false := by
    intro loop
    cases loop with
    | zero => exact hlive
    | succ loop =>
      have hloops := loopsInv_of_reachable (worker_of_reachable hreachable)
      rw [hloops.unstarted (loop + 1) (by omega)]
      rfl
  have hfaultless : (deployment .postgres Sample.worker).ReachableBy Deployment.Faultless s := by
    refine System.ReachableBy.visits (.init ⟨0, rfl⟩) (fun u action u' htakes => ?_)
      ⟨Sample.refusedAndStopped, [], (List.append_nil _).symm, hrun⟩
    refine Sample.faultless_refusedAndStopped (hinit.takesStep htakes) ?_
    obtain ⟨pre, post, heq, _⟩ := htakes
    simp [heq]
  exact ⟨s, row, hstopped, hrow, hstatus, hlast, hbegun,
    exhausted_of_stopped hfaultless hstopped row hrow hstatus 0 hlast hbegun⟩

end Outboxy.Lifecycle
