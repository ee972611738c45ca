import Outboxy.Lifecycle.Writes

/-!
# One poll loop at a time

`start()` sets `isRunning` and runs a poll loop, whether or not an earlier loop
has ended.  A loop looks at `isRunning` when it wakes up.  If `stop()` has
returned at its timeout by then, and `start()` was called again, the earlier
loop finds the flag set and goes on beside the new one.

`CanStillClaim` says of a loop that it issues a claim in some continuation of
the run.  `canStillClaim_iff_live`: these are the loops that have not ended,
wherever they are suspended.  `oneLoop_iff` tells the runs with at most one such
loop at a time.
-/

namespace Outboxy.Lifecycle

open Transition

/-- The step makes the loop call `claimPendingEvents`. -/
def IssuesClaim (s : WorkerState) (action : WorkerAction) (s' : WorkerState) (loop : LoopId) :
    Prop :=
  s.step action = some s' ∧ s.loops loop ≠ .claiming ∧ s'.loops loop = .claiming

/-- The loop was started, and issues a claim in some continuation. -/
def CanStillClaim (worker : OutboxWorker) (s : WorkerState) (loop : LoopId) : Prop :=
  s.loops loop ≠ .unstarted ∧
    ∃ actions t action t', (outboxWorker worker).run s actions = some t ∧
      IssuesClaim t action t' loop

/-- At most one poll loop can still issue a claim. -/
def OneLoop (worker : OutboxWorker) (s : WorkerState) : Prop :=
  ∀ loop loop', CanStillClaim worker s loop → CanStillClaim worker s loop' → loop = loop'

/-- `start()` is called only when all earlier loops have ended. -/
def StartsAlone (s : WorkerState) : WorkerAction → Prop
  | .start => ∀ loop, (s.loops loop).live = false
  | _ => True

/-! ## What an answer does to the loops -/

section Answers

variable {s s' : WorkerState} {event : WorkerEvent} {loop : LoopId}

/-- An answer moves at most one loop, which was live. -/
theorem WorkerState.Reacts.loops_cases (h : s.Reacts event s') :
    s'.loops = s.loops ∨
      ∃ moved phase, s'.loops = Function.update s.loops moved phase ∧
        (s.loops moved).live = true := by
  cases h with
  | claimed events hloop =>
    rename_i moved
    have hlive : (s.loops moved).live = true := by
      rw [hloop]
      rfl
    unfold WorkerState.claimed
    split
    · exact Or.inr ⟨moved, .sleeping, rfl, hlive⟩
    · exact Or.inr ⟨moved, .publishing s.batches events, rfl, hlive⟩
  | claimFailed hloop => exact Or.inr ⟨_, .sleeping, rfl, by rw [hloop]; rfl⟩
  | published outcome hloop =>
    rename_i moved batch events
    have hlive : (s.loops moved).live = true := by
      rw [hloop]
      rfl
    unfold WorkerState.published
    split
    · exact Or.inr ⟨moved, .sleeping, rfl, hlive⟩
    · exact Or.inr ⟨moved, .sleeping, rfl, hlive⟩
    · exact Or.inr ⟨moved, .writing batch, rfl, hlive⟩
  | writeSettled ok hwrite =>
    unfold WorkerState.writeSettled
    simp only
    split
    · rename_i hsettled
      refine Or.inr ⟨_, .sleeping, rfl, ?_⟩
      rw [PollLoop.awaitsWrites_iff.mp hsettled.1]
      rfl
    · exact Or.inl rfl
  | woke hloop => exact Or.inr ⟨_, _, rfl, by rw [hloop]; rfl⟩
  | loopEnded hstop hloop => exact Or.inl rfl
  | timedOut hstop => exact Or.inl rfl

/-- No answer starts a loop. -/
theorem WorkerState.Reacts.live_of_live (h : s.Reacts event s')
    (hlive : (s'.loops loop).live = true) : (s.loops loop).live = true := by
  rcases h.loops_cases with heq | ⟨moved, phase, heq, hmoved⟩
  · rwa [heq] at hlive
  · rw [heq] at hlive
    rcases update_cases (P := fun l : PollLoop => l.live = true) hlive with ⟨rfl, -⟩ | ⟨-, hold⟩
    · exact hmoved
    · exact hold

@[simp] theorem loops_stop (s : WorkerState) : s.stop.loops = s.loops := by
  unfold WorkerState.stop
  split <;> rfl

end Answers

/-! ## The writes that a loop awaits -/

/-- A loop that awaits the writes of its batch has one outstanding, and no
other loop has the batch. -/
structure LoopsInv (s : WorkerState) : Prop where
  unstarted : ∀ loop, s.starts ≤ loop → s.loops loop = .unstarted
  awaiting : ∀ loop batch, s.loops loop = .writing batch →
    ∃ write ∈ s.outstanding, write.loop = loop ∧ write.batch = batch
  owner : ∀ write ∈ s.outstanding, ∀ loop, (s.loops loop).batch = some write.batch →
    loop = write.loop
  freshWrite : ∀ write ∈ s.outstanding, write.batch < s.batches
  fresh : ∀ loop batch, (s.loops loop).batch = some batch → batch < s.batches
  distinct : ∀ loop loop' batch, (s.loops loop).batch = some batch →
    (s.loops loop').batch = some batch → loop = loop'

namespace LoopsInv

variable {s s' : WorkerState} {loop : LoopId} {batch : BatchId}

theorem initial (worker : OutboxWorker) : LoopsInv (.initial worker) where
  unstarted _ _ := rfl
  awaiting _ _ h := nomatch h
  owner _ h := absurd h List.not_mem_nil
  freshWrite _ h := absurd h List.not_mem_nil
  fresh _ _ h := nomatch h
  distinct _ _ _ h := nomatch h

theorem lt_starts (inv : LoopsInv s) (h : s.loops loop ≠ .unstarted) : loop < s.starts := by
  by_contra hle
  exact h (inv.unstarted loop (Nat.not_lt.mp hle))

/-- A loop moves to a phase without a batch, and the other loops keep their
writes. -/
theorem moveLoop (phase : PollLoop) (inv : LoopsInv s) (hphase : phase.batch = none)
    (hloops : s'.loops = Function.update s.loops loop phase)
    (hstarts : ∀ l, s'.starts ≤ l → s.starts ≤ l ∧ l ≠ loop) (hbatches : s'.batches = s.batches)
    (hsub : ∀ write ∈ s'.outstanding, write ∈ s.outstanding)
    (hkeep : ∀ write ∈ s.outstanding, write.loop ≠ loop → write ∈ s'.outstanding) :
    LoopsInv s' := by
  have hold : ∀ l b, (s'.loops l).batch = some b → (s.loops l).batch = some b := by
    intro l b h
    rw [hloops] at h
    rcases update_cases (P := fun l : PollLoop => l.batch = some b) h with ⟨-, hnew⟩ | ⟨-, hold⟩
    · exact nomatch hphase.symm.trans hnew
    · exact hold
  refine ⟨fun l hl => ?_, fun l b h => ?_, fun write hwrite l h => ?_, fun write hwrite => ?_,
    fun l b h => ?_, fun l l' b h h' => ?_⟩
  · obtain ⟨hle, hne⟩ := hstarts l hl
    rw [hloops, Function.update_of_ne hne]
    exact inv.unstarted l hle
  · rw [hloops] at h
    rcases update_eq_cases h with ⟨-, rfl⟩ | ⟨hne, hwriting⟩
    · exact nomatch hphase
    · obtain ⟨write, hwrite, rfl, hbatch⟩ := inv.awaiting l b hwriting
      exact ⟨write, hkeep write hwrite hne, rfl, hbatch⟩
  · exact inv.owner write (hsub write hwrite) l (hold l _ h)
  · rw [hbatches]
    exact inv.freshWrite write (hsub write hwrite)
  · rw [hbatches]
    exact inv.fresh l b (hold l b h)
  · exact inv.distinct l l' b (hold l b h) (hold l' b h')

theorem setLoop {phase : PollLoop} (inv : LoopsInv s) (hphase : phase.batch = none)
    (h : s.loops loop ≠ .unstarted) : LoopsInv (s.setLoop loop phase) :=
  inv.moveLoop phase hphase rfl
    (fun _ hl => ⟨hl, Nat.ne_of_gt ((inv.lt_starts h).trans_le hl)⟩) rfl
    (fun _ hwrite => hwrite) (fun _ hwrite _ => hwrite)

theorem start (inv : LoopsInv s) : LoopsInv s.start :=
  inv.moveLoop .claiming rfl rfl
    (fun _ hl => ⟨Nat.le_of_succ_le hl, Nat.ne_of_gt hl⟩) rfl
    (fun _ hwrite => hwrite) (fun _ hwrite _ => hwrite)

/-- What `stop()` changes does not matter here. -/
theorem congr (inv : LoopsInv s) (hloops : s'.loops = s.loops) (hstarts : s'.starts = s.starts)
    (hbatches : s'.batches = s.batches) (houtstanding : s'.outstanding = s.outstanding) :
    LoopsInv s' where
  unstarted := by rw [hloops, hstarts]; exact inv.unstarted
  awaiting := by rw [hloops, houtstanding]; exact inv.awaiting
  owner := by rw [hloops, houtstanding]; exact inv.owner
  freshWrite := by rw [houtstanding, hbatches]; exact inv.freshWrite
  fresh := by rw [hloops, hbatches]; exact inv.fresh
  distinct := by rw [hloops]; exact inv.distinct

theorem stop (inv : LoopsInv s) : LoopsInv s.stop := by
  unfold WorkerState.stop
  split <;> exact inv.congr rfl rfl rfl rfl

/-- A claim that returns events gets a batch of its own. -/
theorem claimed (inv : LoopsInv s) (h : s.loops loop = .claiming) (events : List OutboxEvent) :
    LoopsInv (s.claimed loop events) := by
  have hstarted : s.loops loop ≠ .unstarted := by
    rw [h]
    exact nofun
  unfold WorkerState.claimed
  split
  · exact inv.setLoop rfl hstarted
  · have hcases : ∀ l b,
        (Function.update s.loops loop (.publishing s.batches events) l).batch = some b →
          (l = loop ∧ s.batches = b) ∨ (s.loops l).batch = some b := by
      intro l b hl
      rcases update_cases (P := fun l : PollLoop => l.batch = some b) hl
        with ⟨rfl, hnew⟩ | ⟨-, hold⟩
      · exact Or.inl ⟨rfl, Option.some.inj hnew⟩
      · exact Or.inr hold
    refine ⟨fun l hl => ?_, fun l b hl => ?_, fun write hwrite l hl => ?_, fun write hwrite => ?_,
      fun l b hl => ?_, fun l l' b hl hl' => ?_⟩
    · refine (Function.update_of_ne ?_ _ _).trans (inv.unstarted l hl)
      exact Nat.ne_of_gt ((inv.lt_starts hstarted).trans_le hl)
    · rcases update_eq_cases hl with ⟨-, hnew⟩ | ⟨-, hwriting⟩
      · exact nomatch hnew
      · exact inv.awaiting l b hwriting
    · rcases hcases l _ hl with ⟨-, hbatch⟩ | hold
      · exact absurd hbatch (Nat.ne_of_gt (inv.freshWrite write hwrite))
      · exact inv.owner write hwrite l hold
    · exact Nat.lt_succ_of_lt (inv.freshWrite write hwrite)
    · rcases hcases l b hl with ⟨-, rfl⟩ | hold
      · exact Nat.lt_succ_self _
      · exact Nat.lt_succ_of_lt (inv.fresh l b hold)
    · rcases hcases l b hl with ⟨rfl, rfl⟩ | hold
      · rcases hcases l' _ hl' with ⟨rfl, -⟩ | hold'
        · rfl
        · exact absurd (inv.fresh l' _ hold') (Nat.lt_irrefl _)
      · rcases hcases l' b hl' with ⟨rfl, rfl⟩ | hold'
        · exact absurd (inv.fresh l _ hold) (Nat.lt_irrefl _)
        · exact inv.distinct l l' b hold hold'

/-- The loop of a batch issues its writes. -/
theorem issue {events : List OutboxEvent} {calls : List RepositoryCall} (inv : LoopsInv s)
    (h : s.loops loop = .publishing batch events) (hcalls : calls ≠ []) :
    LoopsInv { s.setLoop loop (.writing batch) with
      outstanding := s.outstanding ++ calls.map fun call => ⟨loop, batch, call⟩ } := by
  have hstarted : s.loops loop ≠ .unstarted := by
    rw [h]
    exact nofun
  have hmine : (s.loops loop).batch = some batch := by
    rw [h]
    rfl
  have hbatch : ∀ l, (Function.update s.loops loop (.writing batch) l).batch =
      (s.loops l).batch := by
    intro l
    by_cases heq : l = loop
    · rw [heq, Function.update_self, hmine]
      rfl
    · rw [Function.update_of_ne heq]
  refine ⟨fun l hl => ?_, fun l b hl => ?_, fun write hwrite l hl => ?_, fun write hwrite => ?_,
    fun l b hl => ?_, fun l l' b hl hl' => ?_⟩
  · refine (Function.update_of_ne ?_ _ _).trans (inv.unstarted l hl)
    exact Nat.ne_of_gt ((inv.lt_starts hstarted).trans_le hl)
  · rcases update_eq_cases hl with ⟨rfl, hnew⟩ | ⟨-, hwriting⟩
    · obtain rfl := PollLoop.writing.inj hnew
      obtain ⟨call, hcall⟩ := List.exists_mem_of_ne_nil calls hcalls
      exact ⟨_, List.mem_append_right _ (List.mem_map_of_mem hcall), rfl, rfl⟩
    · obtain ⟨write, hwrite, hloop⟩ := inv.awaiting l b hwriting
      exact ⟨write, List.mem_append_left _ hwrite, hloop⟩
  · have hl' : (s.loops l).batch = some write.batch := (hbatch l).symm.trans hl
    rcases List.mem_append.mp hwrite with hwrite | hwrite
    · exact inv.owner write hwrite l hl'
    · obtain ⟨call, -, rfl⟩ := List.mem_map.mp hwrite
      exact inv.distinct l loop batch hl' hmine
  · rcases List.mem_append.mp hwrite with hwrite | hwrite
    · exact inv.freshWrite write hwrite
    · obtain ⟨call, -, rfl⟩ := List.mem_map.mp hwrite
      exact inv.fresh loop batch hmine
  · exact inv.fresh l b ((hbatch l).symm.trans hl)
  · exact inv.distinct l l' b ((hbatch l).symm.trans hl) ((hbatch l').symm.trans hl')

theorem published {events : List OutboxEvent} (inv : LoopsInv s)
    (h : s.loops loop = .publishing batch events) (outcome : PublishOutcome) :
    LoopsInv (s.published loop batch events outcome) := by
  have hfinish : LoopsInv (s.finishBatch loop batch) := by
    have hslept : LoopsInv (s.setLoop loop .sleeping) := inv.setLoop rfl (by rw [h]; exact nofun)
    exact hslept.congr rfl rfl rfl rfl
  unfold WorkerState.published
  split
  · exact hfinish
  · exact hfinish
  · rename_i calls hne _
    exact inv.issue h hne

theorem writeSettled {index : Nat} {write : Write} (inv : LoopsInv s)
    (hwrite : s.outstanding[index]? = some write) (ok : Bool) :
    LoopsInv (s.writeSettled index write ok) := by
  have hmem : write ∈ s.outstanding := List.mem_of_getElem? hwrite
  unfold WorkerState.writeSettled
  simp only
  split
  · rename_i hsettled
    have hwriting := PollLoop.awaitsWrites_iff.mp hsettled.1
    refine inv.moveLoop .sleeping rfl rfl (fun l hl => ⟨hl, ?_⟩) rfl
      (fun other hother => List.mem_of_mem_eraseIdx hother) (fun other hother hne => ?_)
    · refine Nat.ne_of_gt ((inv.lt_starts ?_).trans_le hl)
      rw [hwriting]
      exact nofun
    · exact WorkerState.mem_eraseIdx_of_ne hwrite hother fun heq =>
        hne (congrArg Write.loop heq)
  · rename_i hpending
    refine ⟨inv.unstarted, fun l b hl => ?_,
      fun other hother => inv.owner other (List.mem_of_mem_eraseIdx hother),
      fun other hother => inv.freshWrite other (List.mem_of_mem_eraseIdx hother),
      inv.fresh, inv.distinct⟩
    obtain ⟨other, hother, rfl, rfl⟩ := inv.awaiting l b hl
    by_cases heq : other = write
    · -- Another write of the batch keeps the loop waiting.
      subst heq
      obtain ⟨rest, hrest, hbatch⟩ := WorkerState.exists_mem_of_not_settled hl hpending
      refine ⟨rest, hrest, (inv.owner rest (List.mem_of_mem_eraseIdx hrest) other.loop ?_).symm,
        hbatch⟩
      rw [show s.loops other.loop = .writing other.batch from hl, hbatch]
      rfl
    · exact ⟨other, WorkerState.mem_eraseIdx_of_ne hwrite hother heq, rfl, rfl⟩

theorem react {event : WorkerEvent} (inv : LoopsInv s) (h : s.Reacts event s') :
    LoopsInv s' := by
  cases h with
  | claimed events hloop => exact inv.claimed hloop events
  | claimFailed hloop => exact inv.setLoop rfl (by rw [hloop]; exact nofun)
  | published outcome hloop => exact inv.published hloop outcome
  | writeSettled ok hwrite => exact inv.writeSettled hwrite ok
  | woke hloop =>
    refine inv.setLoop ?_ (by rw [hloop]; exact nofun)
    split <;> rfl
  | loopEnded _ _ => exact inv.congr rfl rfl rfl rfl
  | timedOut _ => exact inv.congr rfl rfl rfl rfl

theorem step {action : WorkerAction} (inv : LoopsInv s) (h : s.step action = some s') :
    LoopsInv s' := by
  cases action with
  | start =>
    obtain rfl := Option.some.inj h
    exact inv.start
  | stop =>
    obtain rfl := Option.some.inj h
    exact inv.stop
  | event event => exact inv.react (WorkerState.reacts_of_react h)

end LoopsInv

theorem loopsInv_of_reachable {worker : OutboxWorker} {s : WorkerState}
    (hs : (outboxWorker worker).Reachable s) : LoopsInv s := by
  refine hs.induct ?_ ?_
  · rintro _ rfl
    exact LoopsInv.initial worker
  · intro s action s' _ inv _ hstep
    exact inv.step hstep

/-! ## The loops that can still claim -/

section CanStillClaim

variable {worker : OutboxWorker} {s s' : WorkerState} {loop : LoopId}

/-- A loop that has ended stays so. -/
theorem isEnded_step {action : WorkerAction} (inv : LoopsInv s) (h : s.step action = some s')
    (hended : (s.loops loop).isEnded = true) : (s'.loops loop).isEnded = true := by
  cases action with
  | start =>
    obtain rfl := Option.some.inj h
    have hne : loop ≠ s.starts := by
      rintro rfl
      rw [inv.unstarted s.starts le_rfl] at hended
      exact Bool.false_ne_true hended
    show (Function.update s.loops s.starts .claiming loop).isEnded = true
    rwa [Function.update_of_ne hne]
  | stop =>
    obtain rfl := Option.some.inj h
    rwa [loops_stop]
  | event event =>
    rcases (WorkerState.reacts_of_react h).loops_cases with heq | ⟨moved, phase, heq, hmoved⟩
    · rwa [heq]
    · have hne : loop ≠ moved := by
        rintro rfl
        rw [PollLoop.not_isEnded_of_live hmoved] at hended
        exact Bool.false_ne_true hended
      rwa [heq, Function.update_of_ne hne]

theorem not_canStillClaim_of_isEnded (hs : (outboxWorker worker).Reachable s)
    (hended : (s.loops loop).isEnded = true) : ¬CanStillClaim worker s loop := by
  rintro ⟨-, actions, t, action, t', hrun, hstep, -, hclaiming⟩
  have hkept : LoopsInv t ∧ (t.loops loop).isEnded = true :=
    System.run_keeps (P := fun u => LoopsInv u ∧ (u.loops loop).isEnded = true)
      (fun _ _ _ htakes hu => ⟨hu.1.step htakes.step_eq, isEnded_step hu.1 htakes.step_eq hu.2⟩)
      hrun ⟨loopsInv_of_reachable hs, hended⟩
  have hended' := isEnded_step hkept.1 hstep hkept.2
  rw [hclaiming] at hended'
  exact Bool.false_ne_true hended'

/-- The writes of a batch fail, and its loop goes to sleep. -/
theorem exists_sleeping_of_writing {batch : BatchId} (inv : LoopsInv s)
    (h : s.loops loop = .writing batch) :
    ∃ actions t, (outboxWorker worker).run s actions = some t ∧ t.loops loop = .sleeping := by
  obtain ⟨write, hwrite, rfl, rfl⟩ := inv.awaiting loop batch h
  obtain ⟨index, hindex⟩ := List.mem_iff_getElem?.mp hwrite
  refine ⟨[.event (.writeSettled index false)], s.writeSettled index write false, ?_, ?_⟩
  · rw [System.run_singleton]
    show s.react (.writeSettled index false) = _
    unfold WorkerState.react
    simp only [hindex]
  · have hfinished : s.writeSettled index write false =
        WorkerState.finishBatch
          { s with outstanding := s.outstanding.eraseIdx index, report := none }
          write.loop write.batch :=
      if_pos ⟨PollLoop.awaitsWrites_iff.mpr h, Or.inl rfl⟩
    rw [hfinished]
    exact Function.update_self _ _ _

/-- Wherever a live loop is suspended, it can get to its sleep. -/
theorem exists_sleeping_of_live (hs : (outboxWorker worker).Reachable s)
    (hlive : (s.loops loop).live = true) :
    ∃ actions t, (outboxWorker worker).run s actions = some t ∧ t.loops loop = .sleeping := by
  cases hloop : s.loops loop with
  | unstarted =>
    rw [hloop] at hlive
    exact absurd hlive Bool.false_ne_true
  | ended =>
    rw [hloop] at hlive
    exact absurd hlive Bool.false_ne_true
  | sleeping => exact ⟨[], s, rfl, hloop⟩
  | claiming =>
    refine ⟨[.event (.claimFailed loop)], s.setLoop loop .sleeping, ?_, Function.update_self _ _ _⟩
    rw [System.run_singleton]
    show s.react (.claimFailed loop) = _
    unfold WorkerState.react
    simp only [hloop]
  | writing batch => exact exists_sleeping_of_writing (loopsInv_of_reachable hs) hloop
  | publishing batch events =>
    -- The publish throws, and the writes that follow from that fail.
    have hrun : (outboxWorker worker).run s [.event (.published loop (.threw .nullish))] =
        some (s.published loop batch events (.threw .nullish)) := by
      rw [System.run_singleton]
      show s.react (.published loop (.threw .nullish)) = _
      unfold WorkerState.react
      simp only [hloop]
    have hinv := loopsInv_of_reachable (System.Reachable.run hs hrun)
    have hphase : (s.published loop batch events (.threw .nullish)).loops loop = .sleeping ∨
        (s.published loop batch events (.threw .nullish)).loops loop = .writing batch := by
      unfold WorkerState.published
      split
      · exact Or.inl (Function.update_self _ _ _)
      · exact Or.inl (Function.update_self _ _ _)
      · exact Or.inr (Function.update_self _ _ _)
    rcases hphase with hsleeping | hwriting
    · exact ⟨_, _, hrun, hsleeping⟩
    · obtain ⟨actions, t, hrun', ht⟩ := exists_sleeping_of_writing hinv hwriting
      exact ⟨_, t, System.run_append_eq_some _ hrun hrun', ht⟩

/-- Once it sleeps, `start()` sets the flag that it looks at. -/
theorem canStillClaim_of_live (hs : (outboxWorker worker).Reachable s)
    (hlive : (s.loops loop).live = true) : CanStillClaim worker s loop := by
  refine ⟨fun hunstarted => ?_, ?_⟩
  · rw [hunstarted] at hlive
    exact Bool.false_ne_true hlive
  · obtain ⟨actions, t, hrun, hsleeping⟩ := exists_sleeping_of_live hs hlive
    have hne : loop ≠ t.starts := by
      refine Nat.ne_of_lt ((loopsInv_of_reachable (System.Reachable.run hs hrun)).lt_starts ?_)
      rw [hsleeping]
      exact nofun
    have hstarted : t.start.loops loop = .sleeping := by
      show Function.update t.loops t.starts .claiming loop = .sleeping
      rw [Function.update_of_ne hne, hsleeping]
    refine ⟨actions ++ [.start], t.start, .event (.woke loop), t.start.woke loop,
      System.run_append_eq_some _ hrun rfl, ?_, ?_, Function.update_self _ _ _⟩
    · show t.start.react (.woke loop) = _
      unfold WorkerState.react
      simp only [hstarted]
    · rw [hstarted]
      exact nofun

/-- The loops that can still claim are those that were started and have not
ended. -/
theorem canStillClaim_iff_live (hs : (outboxWorker worker).Reachable s) :
    CanStillClaim worker s loop ↔ (s.loops loop).live = true := by
  refine ⟨fun h => ?_, canStillClaim_of_live hs⟩
  cases hloop : s.loops loop with
  | unstarted => exact absurd hloop h.1
  | ended => exact absurd h (not_canStillClaim_of_isEnded hs (by rw [hloop]; rfl))
  | claiming | publishing | writing | sleeping => rfl

end CanStillClaim

/-! ## Runs -/

section Runs

variable {worker : OutboxWorker} {s s' : WorkerState}

/-- Two live loops are the same. -/
def OneLive (s : WorkerState) : Prop :=
  ∀ loop loop', (s.loops loop).live = true → (s.loops loop').live = true → loop = loop'

theorem oneLoop_iff_oneLive (hs : (outboxWorker worker).Reachable s) :
    OneLoop worker s ↔ OneLive s := by
  simp only [OneLoop, OneLive, canStillClaim_iff_live hs]

/-- Only `start()` adds a live loop. -/
theorem OneLive.step {action : WorkerAction} (h : OneLive s) (hallowed : StartsAlone s action)
    (hstep : s.step action = some s') : OneLive s' := by
  cases action with
  | start =>
    obtain rfl := Option.some.inj hstep
    have honly : ∀ loop, (s.start.loops loop).live = true → loop = s.starts := by
      intro loop hlive
      rcases update_cases (P := fun l : PollLoop => l.live = true) hlive with ⟨heq, -⟩ | ⟨-, hold⟩
      · exact heq
      · exact absurd ((hallowed loop).symm.trans hold) Bool.false_ne_true
    exact fun loop loop' hlive hlive' => (honly loop hlive).trans (honly loop' hlive').symm
  | stop =>
    obtain rfl := Option.some.inj hstep
    intro loop loop'
    rw [loops_stop]
    exact h loop loop'
  | event event =>
    have hreacts := WorkerState.reacts_of_react hstep
    exact fun loop loop' hlive hlive' =>
      h loop loop' (hreacts.live_of_live hlive) (hreacts.live_of_live hlive')

theorem oneLive_of_reachableBy
    (hs : (outboxWorker worker).ReachableBy (fun s action => True ∧ StartsAlone s action) s) :
    OneLive s := by
  refine hs.induct ?_ ?_
  · rintro _ rfl loop loop' hlive
    exact absurd hlive Bool.false_ne_true
  · intro s action s' _ h hallowed hstep
    exact h.step hallowed.2 hstep

/-- After a `start()` beside a live loop there are two. -/
theorem not_oneLive_start (inv : LoopsInv s) (hnot : ¬StartsAlone s .start) :
    ¬OneLive s.start := by
  unfold StartsAlone at hnot
  push Not at hnot
  obtain ⟨loop, hloop⟩ := hnot
  have hlive : (s.loops loop).live = true := by simpa using hloop
  have hne : loop ≠ s.starts := by
    rintro rfl
    rw [inv.unstarted s.starts le_rfl] at hlive
    exact Bool.false_ne_true hlive
  intro hone
  refine hne (hone loop s.starts ?_ ?_)
  · show (Function.update s.loops s.starts .claiming loop).live = true
    rwa [Function.update_of_ne hne]
  · show (Function.update s.loops s.starts .claiming s.starts).live = true
    rw [Function.update_self]
    rfl

/-- At most one poll loop at a time can still issue a claim in a run just when
`start()` is called only after the earlier loops have ended. -/
theorem oneLoop_iff (worker : OutboxWorker) (actions : List WorkerAction) :
    (∀ s, (outboxWorker worker).Visits (.initial worker) actions s → OneLoop worker s) ↔
      ∀ s action s', (outboxWorker worker).TakesStep (.initial worker) actions s action s' →
        StartsAlone s action := by
  refine System.ReachableBy.forall_visits_iff (fun s hs => ?_)
    (fun s action s' hs hstep _ hnot => ?_) (.init rfl) (fun _ _ _ _ => trivial)
  · exact (oneLoop_iff_oneLive hs.reachable).mpr (oneLive_of_reachableBy hs)
  · have hs' : (outboxWorker worker).Reachable s' := .step hs.reachable trivial hstep
    rw [oneLoop_iff_oneLive hs']
    cases action with
    | start =>
      obtain rfl := Option.some.inj hstep
      exact not_oneLive_start (loopsInv_of_reachable hs.reachable) hnot
    | stop => exact absurd trivial hnot
    | event event => exact absurd trivial hnot

end Runs

namespace Sample

/-- The publisher hangs, `stop()` returns at its timeout, and the worker is
started again. -/
def restarted : List WorkerAction :=
  [.start, .event (.claimed 0 [event "a"]), .stop, .event (.timedOut 0), .start]

end Sample

/-- Both loops of a restarted worker can still claim. -/
theorem not_forall_oneLoop :
    ¬∀ (worker : OutboxWorker) (s : WorkerState),
      (outboxWorker worker).Reachable s → OneLoop worker s := by
  intro hone
  have hcheck : (((outboxWorker Sample.worker).run (.initial Sample.worker)
      Sample.restarted).any fun s => (s.loops 0).live && (s.loops 1).live) = true := by
    decide +kernel
  obtain ⟨s, hrun, hlive⟩ := (Option.any_eq_true _ _).mp hcheck
  rw [Bool.and_eq_true] at hlive
  have hs : (outboxWorker Sample.worker).Reachable s := System.Reachable.run (.init rfl) hrun
  exact absurd ((oneLoop_iff_oneLive hs).mp (hone Sample.worker s hs) 0 1 hlive.1 hlive.2)
    (by decide)

end Outboxy.Lifecycle
