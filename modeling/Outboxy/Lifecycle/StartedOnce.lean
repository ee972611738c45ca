import Outboxy.Lifecycle.PollLoop

/-!
# A worker that is started once

`stop()` of a worker does not end a claim that is outstanding.  It waits for
the loop, up to its timeout, and a loop whose claim is answered publishes the
batch before it looks at `isRunning` again.

A worker of the cluster is started once, so at most one of its loops is alive.
`StartedOnce` is the invariant for that.  What it says of claims is that each
`stop()` goes on waiting while one is outstanding, unless it gives up at its
timeout.
-/

namespace Outboxy.Lifecycle

open Transition

namespace WorkerState

/-- The worker goes on claiming: a loop is alive and its condition holds, or a
claim of it is outstanding. -/
def Polls (s : WorkerState) : Prop :=
  (s.isRunning = true ∧ ∃ loop, (s.loops loop).live = true) ∨ ∃ loop, s.loops loop = .claiming

/-- The `stop()` call races a loop whose claim is outstanding. -/
def awaitsClaim (s : WorkerState) (stop : StopId) : Bool :=
  match s.stops stop with
  | .racing loop => (s.loops loop).isClaiming
  | _ => false

/-- `stop()` resets `isRunning` for good, and every `stop()` call of a worker
with an outstanding claim races the loop of the claim. -/
structure StartedOnce (s : WorkerState) : Prop where
  uncalled : ∀ stop, s.stopCalls ≤ stop → s.stops stop = .uncalled
  running : s.isRunning = true →
    s.stopCalls = 0 ∧ ∀ loop, (s.loops loop).live = true → s.loopPromise = some loop
  claiming : ∀ loop, s.loops loop = .claiming →
    s.loopPromise = some loop ∧ ∀ stop < s.stopCalls, s.stops stop = .racing loop

theorem Reacts.stopCalls_eq {s s' : WorkerState} {event : WorkerEvent} (h : s.Reacts event s') :
    s'.stopCalls = s.stopCalls := by
  cases h with
  | claimed events _ =>
    unfold WorkerState.claimed
    split <;> rfl
  | published outcome _ =>
    unfold WorkerState.published
    split <;> rfl
  | writeSettled ok _ =>
    unfold WorkerState.writeSettled
    simp only
    split <;> rfl
  | claimFailed | woke | loopEnded | timedOut => rfl

theorem not_reacts_initial {worker : OutboxWorker} {s : WorkerState} {event : WorkerEvent} :
    ¬ (WorkerState.initial worker).Reacts event s := by
  intro h
  cases h with
  | claimed _ hloop | claimFailed hloop | published _ hloop | woke hloop => cases hloop
  | writeSettled _ hwrite => cases hwrite
  | loopEnded hstop _ | timedOut hstop => cases hstop

theorem claiming_setLoop {s : WorkerState} {loop loop' : LoopId} {phase : PollLoop}
    (h : (s.setLoop loop phase).loops loop' = .claiming) :
    phase = .claiming ∨ s.loops loop' = .claiming := by
  rcases update_eq_cases h with ⟨_, hnew⟩ | ⟨_, hold⟩
  · exact Or.inl hnew
  · exact Or.inr hold

/-- A loop that sleeps claims again while the worker is running only. -/
theorem Reacts.claiming {s s' : WorkerState} {event : WorkerEvent} {loop : LoopId}
    (h : s.Reacts event s') (hclaiming : s'.loops loop = .claiming) :
    s.isRunning = true ∨ s.loops loop = .claiming := by
  have hset : ∀ loop' phase, (s.setLoop loop' phase).loops loop = .claiming →
      phase ≠ .claiming → s.isRunning = true ∨ s.loops loop = .claiming :=
    fun _ _ hloop hphase => Or.inr ((claiming_setLoop hloop).resolve_left hphase)
  cases h with
  | claimed events _ =>
    unfold WorkerState.claimed at hclaiming
    split at hclaiming
    · exact hset _ _ hclaiming (by simp)
    · exact hset _ _ hclaiming (by simp)
  | claimFailed _ => exact hset _ _ hclaiming (by simp)
  | published outcome _ =>
    unfold WorkerState.published at hclaiming
    split at hclaiming
    · exact hset _ _ hclaiming (by simp)
    · exact hset _ _ hclaiming (by simp)
    · exact hset _ _ hclaiming (by simp)
  | writeSettled ok _ =>
    unfold WorkerState.writeSettled at hclaiming
    simp only at hclaiming
    split at hclaiming
    · exact hset _ _ hclaiming (by simp)
    · exact Or.inr hclaiming
  | woke _ =>
    rcases claiming_setLoop hclaiming with hnew | hold
    · left
      by_contra hnot
      rw [if_neg hnot] at hnew
      exact absurd hnew (by simp)
    · exact Or.inr hold
  | loopEnded _ _ => exact Or.inr hclaiming
  | timedOut _ => exact Or.inr hclaiming

@[simp] theorem stopCalls_stop (s : WorkerState) : s.stop.stopCalls = s.stopCalls + 1 := by
  unfold stop
  split <;> rfl

@[simp] theorem loops_stop (s : WorkerState) : s.stop.loops = s.loops := by
  unfold stop
  split <;> rfl

/-- `stop()` is one more call, and it races the loop that was started last. -/
theorem stop_cases (s : WorkerState) :
    s.stop.loopPromise = s.loopPromise ∧
      ∃ call, s.stop.stops = Function.update s.stops s.stopCalls call ∧
        ∀ loop, s.loopPromise = some loop → call = .racing loop := by
  unfold stop
  split
  · rename_i hnone
    exact ⟨rfl, .returned, rfl, fun loop hsome => nomatch hnone.symm.trans hsome⟩
  · rename_i loop hsome
    refine ⟨rfl, .racing loop, rfl, fun loop' hsome' => ?_⟩
    rw [Option.some.inj (hsome.symm.trans hsome')]

namespace StartedOnce

variable {s : WorkerState}

theorem initial (worker : OutboxWorker) : StartedOnce (.initial worker) where
  uncalled _ _ := rfl
  running h := absurd h Bool.false_ne_true
  claiming _ h := absurd h (by simp [WorkerState.initial])

theorem start_initial (worker : OutboxWorker) : StartedOnce (WorkerState.initial worker).start := by
  have honly : ∀ loop phase, (WorkerState.initial worker).start.loops loop = phase →
      phase ≠ .unstarted → loop = 0 := by
    intro loop phase hloop hphase
    by_contra hne
    exact hphase (hloop.symm.trans (Function.update_of_ne hne _ _))
  refine ⟨fun _ _ => rfl, fun _ => ⟨rfl, fun loop hlive => ?_⟩, fun loop hclaiming => ⟨?_, ?_⟩⟩
  · obtain rfl := honly loop _ rfl fun h => by simp [h, PollLoop.live] at hlive
    rfl
  · obtain rfl := honly loop _ hclaiming (by simp)
    rfl
  · intro stop hstop
    exact absurd hstop (Nat.not_lt_zero _)

/-- A `stop()` that finds a claim outstanding races its loop. -/
theorem stop (h : s.StartedOnce) : s.stop.StartedOnce := by
  obtain ⟨hpromise, call, hstops, hcall⟩ := s.stop_cases
  refine ⟨fun stop hstop => ?_, fun hrunning => ?_, fun loop hclaiming => ?_⟩
  · rw [stopCalls_stop] at hstop
    rw [hstops, Function.update_of_ne (Nat.ne_of_gt (Nat.lt_of_succ_le hstop))]
    exact h.uncalled stop (Nat.le_of_succ_le hstop)
  · rw [stop_isRunning] at hrunning
    exact absurd hrunning Bool.false_ne_true
  · rw [loops_stop] at hclaiming
    obtain ⟨hloop, hracing⟩ := h.claiming loop hclaiming
    refine ⟨hpromise.trans hloop, fun stop hstop => ?_⟩
    rw [stopCalls_stop] at hstop
    rw [hstops]
    rcases Nat.lt_succ_iff_lt_or_eq.mp hstop with hlt | rfl
    · rw [Function.update_of_ne (Nat.ne_of_lt hlt)]
      exact hracing stop hlt
    · rw [Function.update_self]
      exact hcall loop hloop

/-- A loop that is alive goes on, and claims while the worker is running
only. -/
theorem setLoop {loop : LoopId} {phase : PollLoop} (h : s.StartedOnce)
    (hlive : (s.loops loop).live = true) (hphase : phase = .claiming → s.isRunning = true) :
    (s.setLoop loop phase).StartedOnce := by
  refine ⟨h.uncalled, fun hrunning => ⟨(h.running hrunning).1, ?_⟩, ?_⟩
  · intro loop' hlive'
    refine (h.running hrunning).2 loop' ?_
    rcases update_cases (P := fun phase : PollLoop => phase.live = true) hlive' with
      ⟨rfl, _⟩ | ⟨_, hold⟩
    · exact hlive
    · exact hold
  · intro loop' hclaiming
    rcases update_eq_cases hclaiming with ⟨rfl, hnew⟩ | ⟨_, hold⟩
    · obtain ⟨hzero, hpromise⟩ := h.running (hphase hnew)
      refine ⟨hpromise loop' hlive, fun stop hstop => ?_⟩
      exact absurd hstop (by simp [WorkerState.setLoop, hzero])
    · exact h.claiming loop' hold

/-- A `stop()` ends its race with a loop that does not claim, and no other
loop claims either. -/
theorem finishStop {stop : StopId} {loop : LoopId} (h : s.StartedOnce)
    (hstop : s.stops stop = .racing loop) (hloop : s.loops loop ≠ .claiming) :
    (s.finishStop stop).StartedOnce := by
  have hcalled : stop < s.stopCalls := by
    by_contra hle
    exact absurd (hstop.symm.trans (h.uncalled stop (Nat.le_of_not_lt hle))) (by simp)
  refine ⟨?_, fun hrunning => ?_, ?_⟩
  · intro stop' hle
    have hne : stop' ≠ stop := (hcalled.trans_le hle).ne'
    exact (Function.update_of_ne hne _ _).trans (h.uncalled stop' hle)
  · rw [(h.running hrunning).1] at hcalled
    exact absurd hcalled (Nat.not_lt_zero _)
  · intro loop' hclaiming
    have hracing := (h.claiming loop' hclaiming).2 stop hcalled
    obtain rfl := StopCall.racing.inj (hstop.symm.trans hracing)
    exact absurd hclaiming hloop

theorem finishBatch {loop : LoopId} {batch : BatchId} (h : s.StartedOnce)
    (hlive : (s.loops loop).live = true) : (s.finishBatch loop batch).StartedOnce :=
  have hset : (s.setLoop loop .sleeping).StartedOnce := h.setLoop hlive (by simp)
  ⟨hset.uncalled, hset.running, hset.claiming⟩

theorem reacts {s' : WorkerState} {event : WorkerEvent} (h : s.StartedOnce)
    (hreact : s.Reacts event s')
    (hallowed : ∀ stop, event = .timedOut stop → s.awaitsClaim stop = false) : s'.StartedOnce := by
  cases hreact with
  | claimed events hloop =>
    have hlive := congrArg PollLoop.live hloop
    unfold WorkerState.claimed
    split
    · exact h.setLoop hlive (by simp)
    · rename_i loop _
      have hset : (s.setLoop loop (.publishing s.batches events)).StartedOnce :=
        h.setLoop hlive (by simp)
      exact ⟨hset.uncalled, hset.running, hset.claiming⟩
  | claimFailed hloop => exact h.setLoop (congrArg PollLoop.live hloop) (by simp)
  | published outcome hloop =>
    rename_i loop batch events
    have hlive := congrArg PollLoop.live hloop
    unfold WorkerState.published
    split
    · exact h.finishBatch hlive
    · exact h.finishBatch hlive
    · have hset : (s.setLoop loop (.writing batch)).StartedOnce := h.setLoop hlive (by simp)
      exact ⟨hset.uncalled, hset.running, hset.claiming⟩
  | writeSettled ok hwrite =>
    unfold WorkerState.writeSettled
    simp only
    split
    · rename_i hawaits
      have hloop := PollLoop.awaitsWrites_iff.mp hawaits.1
      refine finishBatch ⟨h.uncalled, h.running, h.claiming⟩ ?_
      exact congrArg PollLoop.live hloop
    · exact ⟨h.uncalled, h.running, h.claiming⟩
  | woke hloop =>
    refine h.setLoop (congrArg PollLoop.live hloop) fun hclaiming => ?_
    by_contra hnot
    rw [if_neg hnot] at hclaiming
    exact absurd hclaiming (by simp)
  | loopEnded hstop hloop =>
    refine h.finishStop hstop fun hclaiming => ?_
    rw [hclaiming] at hloop
    exact Bool.false_ne_true hloop
  | timedOut hstop =>
    rename_i stop loop
    have hnot : s.awaitsClaim stop = false := hallowed stop rfl
    unfold awaitsClaim at hnot
    rw [hstop] at hnot
    exact h.finishStop hstop (PollLoop.isClaiming_eq_false hnot)

end StartedOnce

end WorkerState

end Outboxy.Lifecycle
