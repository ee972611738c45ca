import Outboxy.Lifecycle.PollLoop

/-!
# The writes of a batch

`executeBatchProcessing` awaits the writes of a batch together, and
`inFlightEvents` holds the batch meanwhile.  The batch leaves the set when
`Promise.all` settles, and with a failing write that is before the other
writes of the batch are done.

`NoWriteOutlivesBatch` says of a state that no write is outstanding where
nobody expects it any more.  `noWriteOutlivesBatch_iff` tells the runs in
which it holds throughout: those in which no write fails while another write
of its batch is outstanding, and in which no `stop()` returns as "not started"
while a loop awaits its writes.  The second can only happen after an earlier
`stop()` has dropped the promise of the loop at its timeout.
-/

namespace Outboxy.Lifecycle

open Transition

/-- No repository write is outstanding for a loop that sleeps, claims or has
ended, nor when `stop()` has just reported a complete shutdown, nor while
`inFlightEvents` is empty. -/
structure NoWriteOutlivesBatch (s : WorkerState) : Prop where
  betweenBatches : ∀ loop, (s.loops loop).betweenBatches = true →
    ∀ write ∈ s.outstanding, write.loop ≠ loop
  report : ∀ report, s.report = some report → report.complete = true → s.outstanding = []
  inFlightEvents : s.inFlightEvents = [] → s.outstanding = []

/-- A write does not fail while another write of its batch is outstanding, and
`stop()` does not find `loopPromise` unset while a loop awaits its writes. -/
def WritesAwaited (s : WorkerState) : WorkerAction → Prop
  | .event (.writeSettled index false) =>
    ∀ write, s.outstanding[index]? = some write →
      ∀ other ∈ s.outstanding.eraseIdx index, other.batch ≠ write.batch
  | .stop => s.loopPromise = none → ∀ loop batch, s.loops loop ≠ .writing batch
  | _ => True

/-- Each outstanding write is awaited by its loop, and each batch in progress
is in `inFlightEvents`. -/
structure WritesInv (s : WorkerState) : Prop where
  awaited : ∀ write ∈ s.outstanding, s.loops write.loop = .writing write.batch
  awaiting : ∀ loop batch, s.loops loop = .writing batch →
    ∃ write ∈ s.outstanding, write.loop = loop
  inFlight : ∀ loop batch, (s.loops loop).batch = some batch → batch ∈ s.inFlightEvents
  fresh : ∀ loop batch, (s.loops loop).batch = some batch → batch < s.batches
  distinct : ∀ loop loop' batch, (s.loops loop).batch = some batch →
    (s.loops loop').batch = some batch → loop = loop'
  unstarted : ∀ loop, s.starts ≤ loop → s.loops loop = .unstarted
  report : ∀ report, s.report = some report → report.complete = true → s.outstanding = []

section Invariant

variable {s s' : WorkerState} {loop : LoopId} {batch : BatchId}

theorem writesInv_initial (worker : OutboxWorker) : WritesInv (.initial worker) where
  awaited _ h := absurd h (List.not_mem_nil)
  awaiting _ _ h := nomatch h
  inFlight _ _ h := nomatch h
  fresh _ _ h := nomatch h
  distinct _ _ _ h := nomatch h
  unstarted _ _ := rfl
  report _ h := nomatch h

namespace WritesInv

theorem ne_loop_of_betweenBatches (inv : WritesInv s)
    (h : (s.loops loop).betweenBatches = true) : ∀ write ∈ s.outstanding, write.loop ≠ loop := by
  rintro write hwrite rfl
  rw [inv.awaited write hwrite] at h
  exact Bool.false_ne_true h

theorem ne_loop_of_publishing {events : List OutboxEvent} (inv : WritesInv s)
    (h : s.loops loop = .publishing batch events) :
    ∀ write ∈ s.outstanding, write.loop ≠ loop := by
  rintro write hwrite rfl
  exact absurd (h.symm.trans (inv.awaited write hwrite)) (by simp)

theorem ne_of_starts_le (inv : WritesInv s) (h : s.loops loop ≠ .unstarted) (l : LoopId)
    (hl : s.starts ≤ l) : s.starts ≤ l ∧ l ≠ loop := by
  refine ⟨hl, ?_⟩
  rintro rfl
  exact h (inv.unstarted l hl)

/-- A loop that has no outstanding write moves on, and does not come to await
writes. -/
theorem moveLoop (phase : PollLoop) (inv : WritesInv s)
    (hloops : s'.loops = Function.update s.loops loop phase)
    (hstarts : ∀ l, s'.starts ≤ l → s.starts ≤ l ∧ l ≠ loop)
    (hreport : s'.report = none) (hbatches : s.batches ≤ s'.batches)
    (houtstanding : ∀ write,
      write ∈ s'.outstanding ↔ write ∈ s.outstanding ∧ write.loop ≠ loop)
    (hinFlight : ∀ b ∈ s.inFlightEvents, (s.loops loop).batch ≠ some b → b ∈ s'.inFlightEvents)
    (hwriting : ∀ b, phase ≠ .writing b)
    (hbatch : ∀ b, phase.batch = some b →
      b ∈ s'.inFlightEvents ∧ b < s'.batches ∧ ∀ loop', (s.loops loop').batch ≠ some b) :
    WritesInv s' where
  awaited write hwrite := by
    obtain ⟨hwrite, hne⟩ := (houtstanding write).mp hwrite
    rw [hloops, Function.update_of_ne hne]
    exact inv.awaited write hwrite
  awaiting loop' b h := by
    rw [hloops] at h
    rcases update_eq_cases h with ⟨_, hnew⟩ | ⟨hne, hold⟩
    · exact absurd hnew (hwriting b)
    · obtain ⟨write, hwrite, rfl⟩ := inv.awaiting loop' b hold
      exact ⟨write, (houtstanding write).mpr ⟨hwrite, hne⟩, rfl⟩
  inFlight loop' b h := by
    rw [hloops] at h
    rcases update_cases (P := fun l : PollLoop => l.batch = some b) h with ⟨_, hnew⟩ | ⟨hne, hold⟩
    · exact (hbatch b hnew).1
    · refine hinFlight b (inv.inFlight loop' b hold) fun hb => hne ?_
      exact inv.distinct loop' loop b hold hb
  fresh loop' b h := by
    rw [hloops] at h
    rcases update_cases (P := fun l : PollLoop => l.batch = some b) h with ⟨_, hnew⟩ | ⟨_, hold⟩
    · exact (hbatch b hnew).2.1
    · exact (inv.fresh loop' b hold).trans_le hbatches
  distinct l l' b h h' := by
    rw [hloops] at h h'
    rcases update_cases (P := fun l : PollLoop => l.batch = some b) h with ⟨rfl, hnew⟩ | ⟨_, hold⟩
    · rcases update_cases (P := fun l : PollLoop => l.batch = some b) h' with ⟨rfl, _⟩ | ⟨_, hold'⟩
      · rfl
      · exact absurd hold' ((hbatch b hnew).2.2 l')
    · rcases update_cases (P := fun l : PollLoop => l.batch = some b) h' with
        ⟨rfl, hnew'⟩ | ⟨_, hold'⟩
      · exact absurd hold ((hbatch b hnew').2.2 l)
      · exact inv.distinct l l' b hold hold'
  unstarted loop' h := by
    obtain ⟨hle, hne⟩ := hstarts loop' h
    rw [hloops, Function.update_of_ne hne]
    exact inv.unstarted loop' hle
  report r h := by
    rw [hreport] at h
    exact nomatch h

/-- A loop between two batches sleeps, claims or ends. -/
theorem setLoop {phase : PollLoop} (inv : WritesInv s)
    (h : (s.loops loop).betweenBatches = true) (hphase : phase.betweenBatches = true) :
    WritesInv (s.setLoop loop phase) := by
  have hnone := PollLoop.batch_eq_none_of_betweenBatches hphase
  have hstarted : s.loops loop ≠ .unstarted := by
    intro hunstarted
    rw [hunstarted] at h
    exact Bool.false_ne_true h
  refine inv.moveLoop phase rfl (inv.ne_of_starts_le hstarted) rfl le_rfl
    (fun write => ?_) (fun b hb _ => hb) ?_ ?_
  · exact ⟨fun hwrite => ⟨hwrite, inv.ne_loop_of_betweenBatches h write hwrite⟩, And.left⟩
  · rintro b rfl
    exact Bool.false_ne_true hphase
  · intro b hb
    rw [hnone] at hb
    exact nomatch hb

/-- The batch of a loop is finished, and no write of it is left. -/
theorem finishBatch (inv : WritesInv s) (hbatch : (s.loops loop).batch = some batch)
    (houtstanding : ∀ write,
      write ∈ s'.outstanding ↔ write ∈ s.outstanding ∧ write.loop ≠ loop)
    (hloops : s'.loops = s.loops) (hstarts : s'.starts = s.starts)
    (hinFlight : s'.inFlightEvents = s.inFlightEvents) (hbatches : s'.batches = s.batches) :
    WritesInv (s'.finishBatch loop batch) := by
  have hstarted : s.loops loop ≠ .unstarted := by
    intro hunstarted
    rw [hunstarted] at hbatch
    exact nomatch hbatch
  refine inv.moveLoop .sleeping ?_ ?_ rfl hbatches.ge houtstanding ?_ (fun _ => nofun)
    (fun _ => nofun)
  · rw [← hloops]
    rfl
  · intro l hl
    exact inv.ne_of_starts_le hstarted l (hstarts ▸ hl)
  · intro b hb hne
    refine List.mem_filter.mpr ⟨hinFlight ▸ hb, decide_eq_true ?_⟩
    rintro rfl
    exact hne hbatch

theorem start (inv : WritesInv s) : WritesInv s.start := by
  have hunstarted : s.loops s.starts = .unstarted := inv.unstarted s.starts le_rfl
  refine inv.moveLoop .claiming rfl ?_ rfl le_rfl (fun write => ?_)
    (fun b hb _ => hb) (fun _ => nofun) (fun _ => nofun)
  · intro l hl
    exact ⟨Nat.le_of_succ_le hl, Nat.ne_of_gt hl⟩
  · refine ⟨fun hwrite => ⟨hwrite, ?_⟩, And.left⟩
    intro hloop
    have hawaited := inv.awaited write hwrite
    rw [hloop, hunstarted] at hawaited
    exact nomatch hawaited

/-- `stop()`, `finishStop` and a report change nothing that the writes depend
on. -/
theorem of_report (inv : WritesInv s) (hloops : s'.loops = s.loops) (hstarts : s'.starts = s.starts)
    (hinFlight : s'.inFlightEvents = s.inFlightEvents) (hbatches : s'.batches = s.batches)
    (houtstanding : s'.outstanding = s.outstanding)
    (hreport : ∀ report, s'.report = some report → report.complete = true → s.outstanding = []) :
    WritesInv s' where
  awaited := by rw [houtstanding, hloops]; exact inv.awaited
  awaiting := by rw [houtstanding, hloops]; exact inv.awaiting
  inFlight := by rw [hloops, hinFlight]; exact inv.inFlight
  fresh := by rw [hloops, hbatches]; exact inv.fresh
  distinct := by rw [hloops]; exact inv.distinct
  unstarted := by rw [hloops, hstarts]; exact inv.unstarted
  report := by rw [houtstanding]; exact hreport

/-- Nothing is outstanding while no loop awaits writes. -/
theorem outstanding_eq_nil (inv : WritesInv s) (h : ∀ loop batch, s.loops loop ≠ .writing batch) :
    s.outstanding = [] :=
  List.eq_nil_iff_forall_not_mem.mpr fun write hwrite =>
    h write.loop write.batch (inv.awaited write hwrite)

/-- An empty `inFlightEvents` set implies that no write is outstanding. -/
theorem outstanding_eq_nil_of_inFlight (inv : WritesInv s) (h : s.inFlightEvents = []) :
    s.outstanding = [] := by
  refine inv.outstanding_eq_nil fun loop batch hloop => ?_
  have hmem := inv.inFlight loop batch (by rw [hloop]; rfl)
  rw [h] at hmem
  exact List.not_mem_nil hmem

theorem stop (inv : WritesInv s)
    (h : s.loopPromise = none → ∀ loop batch, s.loops loop ≠ .writing batch) :
    WritesInv s.stop := by
  unfold WorkerState.stop
  split
  · rename_i hnone
    exact inv.of_report rfl rfl rfl rfl rfl fun _ _ _ => inv.outstanding_eq_nil (h hnone)
  · exact inv.of_report rfl rfl rfl rfl rfl fun _ hreport => nomatch hreport

theorem finishStop (inv : WritesInv s) (c : StopId) : WritesInv (s.finishStop c) := by
  refine inv.of_report rfl rfl rfl rfl rfl ?_
  rintro report hreport hcomplete
  obtain rfl := Option.some.inj hreport
  refine inv.outstanding_eq_nil_of_inFlight (List.eq_nil_of_length_eq_zero ?_)
  by_contra hne
  rw [if_pos (Nat.pos_of_ne_zero hne)] at hcomplete
  exact Bool.false_ne_true hcomplete

theorem claimed (inv : WritesInv s) (h : s.loops loop = .claiming) (events : List OutboxEvent) :
    WritesInv (s.claimed loop events) := by
  have hbetween : (s.loops loop).betweenBatches = true := by rw [h]; rfl
  unfold WorkerState.claimed
  split
  · exact inv.setLoop hbetween rfl
  · have hstarted : s.loops loop ≠ .unstarted := by rw [h]; exact nofun
    refine inv.moveLoop (.publishing s.batches events) rfl
      (inv.ne_of_starts_le hstarted) rfl (Nat.le_succ _) (fun write => ?_)
      (fun b hb _ => List.mem_append_left _ hb) (fun _ => nofun) ?_
    · exact ⟨fun hwrite => ⟨hwrite, inv.ne_loop_of_betweenBatches hbetween write hwrite⟩, And.left⟩
    · intro b hb
      obtain rfl := Option.some.inj hb
      refine ⟨List.mem_append_right _ (List.mem_singleton_self _), Nat.lt_succ_self _, ?_⟩
      intro loop' hfresh
      exact Nat.lt_irrefl _ (inv.fresh loop' _ hfresh)

/-- The loop of a batch issues its writes. -/
theorem issue {events : List OutboxEvent} {calls : List RepositoryCall} (inv : WritesInv s)
    (h : s.loops loop = .publishing batch events) (hcalls : calls ≠ []) :
    WritesInv { s.setLoop loop (.writing batch) with
      outstanding := s.outstanding ++ calls.map fun call => ⟨loop, batch, call⟩ } := by
  have hbatch : ∀ l, ((s.setLoop loop (.writing batch)).loops l).batch = (s.loops l).batch := by
    intro l
    show (Function.update s.loops loop (.writing batch) l).batch = (s.loops l).batch
    by_cases heq : l = loop
    · rw [heq, Function.update_self, h]
      rfl
    · rw [Function.update_of_ne heq]
  refine ⟨?_, ?_, ?_, ?_, ?_, ?_, fun _ hreport => nomatch hreport⟩
  · intro write hwrite
    show Function.update s.loops loop (.writing batch) write.loop = .writing write.batch
    rcases List.mem_append.mp hwrite with hwrite | hwrite
    · rw [Function.update_of_ne (inv.ne_loop_of_publishing h write hwrite)]
      exact inv.awaited write hwrite
    · obtain ⟨call, _, rfl⟩ := List.mem_map.mp hwrite
      exact Function.update_self _ _ _
  · intro l b hl
    rcases update_eq_cases hl with ⟨heq, _⟩ | ⟨_, hold⟩
    · obtain ⟨call, hcall⟩ := List.exists_mem_of_ne_nil calls hcalls
      exact ⟨⟨loop, batch, call⟩,
        List.mem_append_right _ (List.mem_map.mpr ⟨call, hcall, rfl⟩), heq.symm⟩
    · obtain ⟨write, hwrite, hloop⟩ := inv.awaiting l b hold
      exact ⟨write, List.mem_append_left _ hwrite, hloop⟩
  · intro l b hl
    exact inv.inFlight l b ((hbatch l).symm.trans hl)
  · intro l b hl
    exact inv.fresh l b ((hbatch l).symm.trans hl)
  · intro l l' b hl hl'
    exact inv.distinct l l' b ((hbatch l).symm.trans hl) ((hbatch l').symm.trans hl')
  · intro l hl
    have hstarted : s.loops loop ≠ .unstarted := by rw [h]; exact nofun
    obtain ⟨hle, hne⟩ := inv.ne_of_starts_le hstarted l hl
    show Function.update s.loops loop (.writing batch) l = .unstarted
    rw [Function.update_of_ne hne]
    exact inv.unstarted l hle

theorem published {events : List OutboxEvent} (inv : WritesInv s)
    (h : s.loops loop = .publishing batch events) (outcome : PublishOutcome) :
    WritesInv (s.published loop batch events outcome) := by
  have hfinish : WritesInv (s.finishBatch loop batch) := by
    refine inv.finishBatch (by rw [h]; rfl) (fun write => ?_) rfl rfl rfl rfl
    exact ⟨fun hwrite => ⟨hwrite, inv.ne_loop_of_publishing h write hwrite⟩, And.left⟩
  unfold WorkerState.published
  split
  · exact hfinish
  · exact hfinish
  · rename_i calls hne _
    exact inv.issue h hne

theorem loop_eq_of_batch_eq (inv : WritesInv s) {write other : Write}
    (hwrite : write ∈ s.outstanding) (hother : other ∈ s.outstanding)
    (h : other.batch = write.batch) : other.loop = write.loop := by
  refine inv.distinct other.loop write.loop write.batch ?_ ?_
  · rw [inv.awaited other hother, ← h]
    rfl
  · rw [inv.awaited write hwrite]
    rfl

theorem writeSettled {index : Nat} {write : Write} {ok : Bool} (inv : WritesInv s)
    (hwrite : s.outstanding[index]? = some write)
    (hlast : ok = false → ∀ other ∈ s.outstanding.eraseIdx index, other.batch ≠ write.batch) :
    WritesInv (s.writeSettled index write ok) := by
  have hmem : write ∈ s.outstanding := List.mem_of_getElem? hwrite
  have hawaited := inv.awaited write hmem
  unfold WorkerState.writeSettled
  simp only
  split
  · rename_i hsettled
    -- `Promise.all` settles with this write, and it is the last one of its batch.
    have hrest : ∀ other ∈ s.outstanding.eraseIdx index, other.batch ≠ write.batch :=
      hsettled.2.elim hlast id
    refine inv.finishBatch (by rw [hawaited]; rfl) (fun other => ?_) rfl rfl rfl rfl
    constructor
    · intro hother
      have hother' := List.mem_of_mem_eraseIdx hother
      refine ⟨hother', fun hloop => hrest other hother ?_⟩
      have hawaited' := inv.awaited other hother'
      rw [hloop, hawaited] at hawaited'
      exact (PollLoop.writing.inj hawaited').symm
    · rintro ⟨hother, hloop⟩
      exact WorkerState.mem_eraseIdx_of_ne hwrite hother fun heq =>
        hloop (congrArg Write.loop heq)
  · rename_i hpending
    have hothers : ∃ other ∈ s.outstanding.eraseIdx index, other.batch = write.batch :=
      WorkerState.exists_mem_of_not_settled hawaited hpending
    refine ⟨fun other hother => inv.awaited other (List.mem_of_mem_eraseIdx hother), ?_,
      inv.inFlight, inv.fresh, inv.distinct, inv.unstarted, fun _ hreport => nomatch hreport⟩
    intro loop' b hloop'
    obtain ⟨other, hother, rfl⟩ := inv.awaiting loop' b hloop'
    by_cases heq : other.loop = write.loop
    · obtain ⟨other', hother', hbatch⟩ := hothers
      refine ⟨other', hother', ?_⟩
      rw [heq]
      exact inv.loop_eq_of_batch_eq hmem (List.mem_of_mem_eraseIdx hother') hbatch
    · refine ⟨other, WorkerState.mem_eraseIdx_of_ne hwrite hother fun hsame => ?_, rfl⟩
      exact heq (congrArg Write.loop hsame)

/-- Each step that awaits the writes keeps the invariant. -/
theorem react {event : WorkerEvent} (inv : WritesInv s)
    (hallowed : WritesAwaited s (.event event)) (h : s.react event = some s') : WritesInv s' := by
  cases WorkerState.reacts_of_react h with
  | claimed events hloop => exact inv.claimed hloop events
  | claimFailed hloop => exact inv.setLoop (by rw [hloop]; rfl) rfl
  | published outcome hloop => exact inv.published hloop outcome
  | writeSettled ok hwrite =>
    refine inv.writeSettled hwrite ?_
    rintro rfl
    exact hallowed _ hwrite
  | woke hloop =>
    refine inv.setLoop (by rw [hloop]; rfl) ?_
    split <;> rfl
  | loopEnded _ _ => exact inv.finishStop _
  | timedOut _ => exact inv.finishStop _

theorem step {action : WorkerAction} (inv : WritesInv s) (hallowed : WritesAwaited s action)
    (h : s.step action = some s') : WritesInv s' := by
  cases action with
  | start =>
    obtain rfl := Option.some.inj h
    exact inv.start
  | stop =>
    obtain rfl := Option.some.inj h
    exact inv.stop hallowed
  | event event => exact inv.react hallowed h

/-- The invariant says what is expected of the writes. -/
theorem noWriteOutlivesBatch (inv : WritesInv s) : NoWriteOutlivesBatch s where
  betweenBatches _ h := inv.ne_loop_of_betweenBatches h
  report := inv.report
  inFlightEvents h := inv.outstanding_eq_nil_of_inFlight h

/-- The first failure of a batch sends its loop to sleep, with the other writes
outstanding. -/
theorem violated_of_writeSettled {index : Nat} {write other : Write}
    (inv : WritesInv s) (hwrite : s.outstanding[index]? = some write)
    (hother : other ∈ s.outstanding.eraseIdx index) (hbatch : other.batch = write.batch) :
    ¬ NoWriteOutlivesBatch (s.writeSettled index write false) := by
  intro hsafe
  have hmem : write ∈ s.outstanding := List.mem_of_getElem? hwrite
  have hawaited : (s.loops write.loop).awaitsWrites write.batch = true :=
    PollLoop.awaitsWrites_iff.mpr (inv.awaited write hmem)
  have hfinished : s.writeSettled index write false =
      WorkerState.finishBatch { s with outstanding := s.outstanding.eraseIdx index, report := none }
        write.loop write.batch :=
    if_pos ⟨hawaited, Or.inl rfl⟩
  rw [hfinished] at hsafe
  refine hsafe.betweenBatches write.loop ?_ other hother ?_
  · show (Function.update s.loops write.loop .sleeping write.loop).betweenBatches = true
    rw [Function.update_self]
    rfl
  · exact inv.loop_eq_of_batch_eq hmem (List.mem_of_mem_eraseIdx hother) hbatch

/-- After any other step a write is outstanding that its loop has left, or
that `stop()` has not waited for. -/
theorem violated_of_step {action : WorkerAction} (inv : WritesInv s)
    (h : s.step action = some s') (hnot : ¬ WritesAwaited s action) :
    ¬ NoWriteOutlivesBatch s' := by
  cases action with
  | start => exact absurd trivial hnot
  | stop =>
    obtain rfl := Option.some.inj h
    unfold WritesAwaited at hnot
    push Not at hnot
    obtain ⟨hnone, loop, batch, hloop⟩ := hnot
    obtain ⟨write, hwrite, _⟩ := inv.awaiting loop batch hloop
    intro hsafe
    unfold WorkerState.stop at hsafe
    rw [hnone] at hsafe
    have hnil : s.outstanding = [] := hsafe.report .notStarted rfl rfl
    rw [hnil] at hwrite
    exact List.not_mem_nil hwrite
  | event event =>
    cases event with
    | writeSettled index ok =>
      cases ok with
      | true => exact absurd trivial hnot
      | false =>
        unfold WritesAwaited at hnot
        push Not at hnot
        obtain ⟨write, hwrite, other, hother, hbatch⟩ := hnot
        have hstep : s.react (.writeSettled index false) = some s' := h
        unfold WorkerState.react at hstep
        simp only [hwrite] at hstep
        obtain rfl := Option.some.inj hstep
        exact inv.violated_of_writeSettled hwrite hother hbatch
    | _ => exact absurd trivial hnot

end WritesInv

end Invariant

theorem writesInv_of_reachableBy {worker : OutboxWorker} {s : WorkerState}
    (hs : (outboxWorker worker).ReachableBy (fun s action => True ∧ WritesAwaited s action) s) :
    WritesInv s := by
  refine hs.induct ?_ ?_
  · rintro _ rfl
    exact writesInv_initial worker
  · intro s action s' _ inv hallowed hstep
    exact inv.step hallowed.2 hstep

/-- No write outlives its batch in a run just when its writes are awaited. -/
theorem noWriteOutlivesBatch_iff (worker : OutboxWorker) (actions : List WorkerAction) :
    (∀ s, (outboxWorker worker).Visits (.initial worker) actions s → NoWriteOutlivesBatch s) ↔
      ∀ s action s', (outboxWorker worker).TakesStep (.initial worker) actions s action s' →
        WritesAwaited s action :=
  System.ReachableBy.forall_visits_iff
    (fun _ hs => (writesInv_of_reachableBy hs).noWriteOutlivesBatch)
    (fun _ _ _ hs hstep _ hnot => (writesInv_of_reachableBy hs).violated_of_step hstep hnot)
    (.init rfl) (fun _ _ _ _ => trivial)

/-! ## A write that outlives its batch -/

namespace Sample

def event (id : EventId) : OutboxEvent where
  id := id
  aggregateType := "order"
  aggregateId := "1"
  eventType := "created"
  eventVersion := 1
  payload := .null
  headers := .obj []
  destinationUrl := "http://localhost"
  destinationType := .http
  idempotencyKey := none
  status := .processing
  retryCount := 0
  maxRetries := 5
  nextRetryAt := none
  lastError := none
  errorDetails := none
  createdAt := 0
  updatedAt := 0
  processingStartedAt := some 0
  processedAt := none
  metadata := .obj []
  processedByWorker := none
  deletedAt := none

def worker : OutboxWorker := ⟨{}, "worker-0", none⟩

/-- The first event was published, and the second one may be retried. -/
def outcome : PublishOutcome :=
  .returned (OrderedMap.ofList Prod.fst (fun result => ⟨result.2, .nullish, true, none⟩)
    [("a", true), ("b", false)])

/-- `scheduleRetry` fails while `markSucceeded` is outstanding, and the worker
is stopped. -/
def failedRetry : List WorkerAction :=
  [.start, .event (.claimed 0 [event "a", event "b"]), .event (.published 0 outcome),
    .event (.writeSettled 1 false), .stop, .event (.woke 0), .event (.loopEnded 0)]

end Sample

/-- `stop()` reports a graceful shutdown with the success write of the batch
outstanding. -/
theorem not_forall_noWriteOutlivesBatch :
    ¬ ∀ (worker : OutboxWorker) (s : WorkerState),
      (outboxWorker worker).Reachable s → NoWriteOutlivesBatch s := by
  intro hsafe
  have hcheck : (((outboxWorker Sample.worker).run (.initial Sample.worker)
      Sample.failedRetry).any fun s =>
        decide (s.report = some .graceful ∧ s.outstanding.length = 1)) = true := by
    decide +kernel
  obtain ⟨s, hrun, hs⟩ := (Option.any_eq_true _ _).mp hcheck
  obtain ⟨hreport, hlength⟩ := of_decide_eq_true hs
  have hreachable : (outboxWorker Sample.worker).Reachable s :=
    System.Reachable.run (.init rfl) hrun
  rw [(hsafe Sample.worker s hreachable).report .graceful hreport rfl] at hlength
  exact absurd hlength (by decide)

end Outboxy.Lifecycle
