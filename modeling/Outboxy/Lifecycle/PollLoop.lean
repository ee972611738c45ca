import Mathlib.Logic.Function.Basic
import Outboxy.Library.Transition
import Outboxy.Worker

/-!
# The life of a worker

`OutboxWorker.start` sets `isRunning` and runs the poll loop, which claims a
batch, processes it and sleeps until `isRunning` is reset.  `stop` resets it
and races the loop against a timeout.  `executeBatchProcessing` issues up to
three repository writes at once and awaits them with `Promise.all`, which
rejects as soon as one of them fails, whatever the others do.

A state of `WorkerState` is one in which every call awaits something.  A
`WorkerEvent` is the answer to one of these awaits, and `react` runs the code
from there to the next await.  Answers come in any order, and `start` and
`stop` may be called in every state and any number of times, so a worker can
have several poll loops and several `stop` calls at once.

A sleep may end at any time: the interval and the abort signal of `stop` only
say when.
-/

namespace Outboxy.Lifecycle

/-- Number of a `start()` call of a worker, and of its poll loop. -/
abbrev LoopId := Nat

/-- Number of a `stop()` call of a worker. -/
abbrev StopId := Nat

/-- A promise of `executeBatchProcessing`. -/
abbrev BatchId := Nat

/-- What a poll loop awaits. -/
inductive PollLoop where
  | unstarted
  | claiming
  | publishing (batch : BatchId) (events : List OutboxEvent)
  /-- The `Promise.all` of the repository writes. -/
  | writing (batch : BatchId)
  | sleeping
  | ended

namespace PollLoop

/-- The batch in progress. -/
def batch : PollLoop → Option BatchId
  | .publishing batch _ => some batch
  | .writing batch => some batch
  | _ => none

/-- The loop awaits the writes of the batch. -/
def awaitsWrites (batch : BatchId) : PollLoop → Bool
  | .writing batch' => decide (batch' = batch)
  | _ => false

/-- The loop sleeps, claims or has ended. -/
def betweenBatches : PollLoop → Bool
  | .claiming => true
  | .sleeping => true
  | .ended => true
  | _ => false

def isEnded : PollLoop → Bool
  | .ended => true
  | _ => false

/-- The loop awaits its claim. -/
def isClaiming : PollLoop → Bool
  | .claiming => true
  | _ => false

/-- The loop was started and has not ended. -/
def live : PollLoop → Bool
  | .unstarted => false
  | .ended => false
  | _ => true

theorem not_isEnded_of_live {loop : PollLoop} (h : loop.live = true) : loop.isEnded = false := by
  cases loop with
  | ended => exact absurd h Bool.false_ne_true
  | _ => rfl

theorem isClaiming_eq_false {loop : PollLoop} (h : loop.isClaiming = false) :
    loop ≠ .claiming := by
  rintro rfl
  exact Bool.false_ne_true h.symm

@[simp] theorem awaitsWrites_iff {loop : PollLoop} {batch : BatchId} :
    loop.awaitsWrites batch = true ↔ loop = .writing batch := by
  cases loop <;> simp [awaitsWrites]

theorem batch_eq_none_of_betweenBatches {loop : PollLoop} (h : loop.betweenBatches = true) :
    loop.batch = none := by
  cases loop with
  | publishing batch events => exact absurd h Bool.false_ne_true
  | writing batch => exact absurd h Bool.false_ne_true
  | unstarted | claiming | sleeping | ended => rfl

end PollLoop

/-- What `stop()` logs when it returns. -/
inductive ShutdownReport where
  | notStarted
  | graceful
  | forced (remainingCount : Nat)
deriving DecidableEq

/-- The log says that the shutdown is complete. -/
def ShutdownReport.complete : ShutdownReport → Bool
  | .notStarted => true
  | .graceful => true
  | .forced _ => false

/-- What a `stop()` call awaits. -/
inductive StopCall where
  | uncalled
  /-- `Promise.race` of the loop and the timeout. -/
  | racing (loop : LoopId)
  | returned
deriving DecidableEq

/-- A repository write that was issued and has not been answered. -/
structure Write where
  loop : LoopId
  batch : BatchId
  call : RepositoryCall

/-- The fields of an `OutboxWorker`, with what its calls await. -/
structure WorkerState where
  worker : OutboxWorker
  isRunning : Bool
  loopPromise : Option LoopId
  inFlightEvents : List BatchId
  loops : LoopId → PollLoop
  starts : Nat
  stops : StopId → StopCall
  stopCalls : Nat
  batches : Nat
  outstanding : List Write
  /-- The report of the last step, if it made one. -/
  report : Option ShutdownReport

/-- The answer to an await. -/
inductive WorkerEvent where
  | claimed (loop : LoopId) (events : List OutboxEvent)
  | claimFailed (loop : LoopId)
  | published (loop : LoopId) (outcome : PublishOutcome)
  | writeSettled (index : Nat) (ok : Bool)
  | woke (loop : LoopId)
  /-- The race of a `stop()` call is over, because its loop has ended. -/
  | loopEnded (stop : StopId)
  /-- The race of a `stop()` call is over, because of its timeout. -/
  | timedOut (stop : StopId)

inductive WorkerAction where
  | start
  | stop
  | event (event : WorkerEvent)

namespace WorkerState

/-- A worker that was just constructed. -/
def initial (worker : OutboxWorker) : WorkerState where
  worker := worker
  isRunning := false
  loopPromise := none
  inFlightEvents := []
  loops := fun _ => .unstarted
  starts := 0
  stops := fun _ => .uncalled
  stopCalls := 0
  batches := 0
  outstanding := []
  report := none

/-- `start()` up to its first await, which is the claim of the new loop. -/
def start (s : WorkerState) : WorkerState :=
  { s with
    isRunning := true
    loopPromise := some s.starts
    loops := Function.update s.loops s.starts .claiming
    starts := s.starts + 1
    report := none }

/-- `stop()` up to its first await. -/
def stop (s : WorkerState) : WorkerState :=
  match s.loopPromise with
  | none =>
    { s with
      isRunning := false
      stops := Function.update s.stops s.stopCalls .returned
      stopCalls := s.stopCalls + 1
      report := some .notStarted }
  | some loop =>
    { s with
      isRunning := false
      stops := Function.update s.stops s.stopCalls (.racing loop)
      stopCalls := s.stopCalls + 1
      report := none }

def setLoop (s : WorkerState) (loop : LoopId) (phase : PollLoop) : WorkerState :=
  { s with loops := Function.update s.loops loop phase, report := none }

/-- The promise of the batch settles: `processBatchOptimized` deletes it from
`inFlightEvents`, and the loop goes to sleep, also when it rejects. -/
def finishBatch (s : WorkerState) (loop : LoopId) (batch : BatchId) : WorkerState :=
  { s.setLoop loop .sleeping with
    inFlightEvents := s.inFlightEvents.filter fun b => decide (b ≠ batch) }

/-- `claimPendingEvents` returns. -/
def claimed (s : WorkerState) (loop : LoopId) (events : List OutboxEvent) : WorkerState :=
  if events = [] then s.setLoop loop .sleeping
  else
    { s.setLoop loop (.publishing s.batches events) with
      inFlightEvents := s.inFlightEvents ++ [s.batches]
      batches := s.batches + 1 }

/-- `publish` settles: `executeBatchProcessing` throws, or issues its writes. -/
def published (s : WorkerState) (loop : LoopId) (batch : BatchId) (events : List OutboxEvent)
    (outcome : PublishOutcome) : WorkerState :=
  match executeBatchProcessing s.worker events outcome with
  | none => s.finishBatch loop batch
  | some [] => s.finishBatch loop batch
  | some calls =>
    { s.setLoop loop (.writing batch) with
      outstanding := s.outstanding ++ calls.map fun call => ⟨loop, batch, call⟩ }

/-- A repository write settles.  The `Promise.all` of its batch, if it is
still pending, rejects at a failure and resolves at the last success. -/
def writeSettled (s : WorkerState) (index : Nat) (write : Write) (ok : Bool) : WorkerState :=
  let rest := s.outstanding.eraseIdx index
  let s' : WorkerState := { s with outstanding := rest, report := none }
  if (s.loops write.loop).awaitsWrites write.batch ∧
      (ok = false ∨ ∀ other ∈ rest, other.batch ≠ write.batch) then
    s'.finishBatch write.loop write.batch
  else s'

/-- The loop tests `isRunning` and claims again. -/
def woke (s : WorkerState) (loop : LoopId) : WorkerState :=
  s.setLoop loop (if s.isRunning then .claiming else .ended)

/-- `stop()` after its race. -/
def finishStop (s : WorkerState) (stop : StopId) : WorkerState :=
  { s with
    loopPromise := none
    stops := Function.update s.stops stop .returned
    report := some
      (if s.inFlightEvents.length > 0 then .forced s.inFlightEvents.length else .graceful) }

/-- Run the code from the await that `event` answers to the next one. -/
def react (s : WorkerState) : WorkerEvent → Option WorkerState
  | .claimed loop events =>
    match s.loops loop with
    | .claiming => some (s.claimed loop events)
    | _ => none
  | .claimFailed loop =>
    match s.loops loop with
    | .claiming => some (s.setLoop loop .sleeping)
    | _ => none
  | .published loop outcome =>
    match s.loops loop with
    | .publishing batch events => some (s.published loop batch events outcome)
    | _ => none
  | .writeSettled index ok =>
    match s.outstanding[index]? with
    | some write => some (s.writeSettled index write ok)
    | none => none
  | .woke loop =>
    match s.loops loop with
    | .sleeping => some (s.woke loop)
    | _ => none
  | .loopEnded stop =>
    match s.stops stop with
    | .racing loop => if (s.loops loop).isEnded then some (s.finishStop stop) else none
    | _ => none
  | .timedOut stop =>
    match s.stops stop with
    | .racing _ => some (s.finishStop stop)
    | _ => none

def step (s : WorkerState) : WorkerAction → Option WorkerState
  | .start => some s.start
  | .stop => some s.stop
  | .event event => s.react event

end WorkerState

namespace WorkerState

/-! ## What an answer does -/

/-- The enabled answers in a state, with the state each of them leads to. -/
inductive Reacts (s : WorkerState) : WorkerEvent → WorkerState → Prop where
  | claimed {loop : LoopId} (events : List OutboxEvent) (hloop : s.loops loop = .claiming) :
    Reacts s (.claimed loop events) (s.claimed loop events)
  | claimFailed {loop : LoopId} (hloop : s.loops loop = .claiming) :
    Reacts s (.claimFailed loop) (s.setLoop loop .sleeping)
  | published {loop : LoopId} {batch : BatchId} {events : List OutboxEvent}
    (outcome : PublishOutcome) (hloop : s.loops loop = .publishing batch events) :
    Reacts s (.published loop outcome) (s.published loop batch events outcome)
  | writeSettled {index : Nat} {write : Write} (ok : Bool)
    (hwrite : s.outstanding[index]? = some write) :
    Reacts s (.writeSettled index ok) (s.writeSettled index write ok)
  | woke {loop : LoopId} (hloop : s.loops loop = .sleeping) :
    Reacts s (.woke loop) (s.woke loop)
  | loopEnded {stop : StopId} {loop : LoopId} (hstop : s.stops stop = .racing loop)
    (hloop : (s.loops loop).isEnded = true) : Reacts s (.loopEnded stop) (s.finishStop stop)
  | timedOut {stop : StopId} {loop : LoopId} (hstop : s.stops stop = .racing loop) :
    Reacts s (.timedOut stop) (s.finishStop stop)

theorem reacts_of_react {s s' : WorkerState} {event : WorkerEvent} (h : s.react event = some s') :
    s.Reacts event s' := by
  unfold react at h
  cases event with
  | claimed loop events =>
    simp only at h
    split at h
    · rename_i hloop
      obtain rfl := Option.some.inj h
      exact .claimed events hloop
    · exact nomatch h
  | claimFailed loop =>
    simp only at h
    split at h
    · rename_i hloop
      obtain rfl := Option.some.inj h
      exact .claimFailed hloop
    · exact nomatch h
  | published loop outcome =>
    simp only at h
    split at h
    · rename_i hloop
      obtain rfl := Option.some.inj h
      exact .published outcome hloop
    · exact nomatch h
  | writeSettled index ok =>
    simp only at h
    split at h
    · rename_i hwrite
      obtain rfl := Option.some.inj h
      exact .writeSettled ok hwrite
    · exact nomatch h
  | woke loop =>
    simp only at h
    split at h
    · rename_i hloop
      obtain rfl := Option.some.inj h
      exact .woke hloop
    · exact nomatch h
  | loopEnded stop =>
    simp only at h
    split at h
    · rename_i hstop
      split at h
      · rename_i hloop
        obtain rfl := Option.some.inj h
        exact .loopEnded hstop hloop
      · exact nomatch h
    · exact nomatch h
  | timedOut stop =>
    simp only at h
    split at h
    · rename_i hstop
      obtain rfl := Option.some.inj h
      exact .timedOut hstop
    · exact nomatch h

@[simp] theorem stop_isRunning (s : WorkerState) : s.stop.isRunning = false := by
  unfold stop
  split <;> rfl

/-- Only `start` and `stop` write `isRunning`. -/
theorem Reacts.isRunning_eq {s s' : WorkerState} {event : WorkerEvent} (h : s.Reacts event s') :
    s'.isRunning = s.isRunning := by
  cases h with
  | claimed events _ =>
    unfold WorkerState.claimed
    split <;> rfl
  | published outcome _ =>
    unfold WorkerState.published
    split <;> rfl
  | writeSettled ok _ =>
    unfold WorkerState.writeSettled
    simp only
    split <;> rfl
  | claimFailed | woke | loopEnded | timedOut => rfl

/-- A write stays outstanding when another one settles. -/
theorem mem_eraseIdx_of_ne {s : WorkerState} {index : Nat} {write other : Write}
    (hwrite : s.outstanding[index]? = some write) (hother : other ∈ s.outstanding)
    (hne : other ≠ write) : other ∈ s.outstanding.eraseIdx index := by
  obtain ⟨i, hi⟩ := List.mem_iff_getElem?.mp hother
  refine List.mem_eraseIdx_iff_getElem?.mpr ⟨i, ?_, hi⟩
  rintro rfl
  exact hne (Option.some.inj (hi.symm.trans hwrite))

/-- A loop goes on awaiting its writes because another one of its batch is
outstanding. -/
theorem exists_mem_of_not_settled {s : WorkerState} {rest : List Write} {write : Write} {ok : Bool}
    (hawaits : s.loops write.loop = .writing write.batch)
    (hpending : ¬((s.loops write.loop).awaitsWrites write.batch ∧
      (ok = false ∨ ∀ other ∈ rest, other.batch ≠ write.batch))) :
    ∃ other ∈ rest, other.batch = write.batch := by
  by_contra hnone
  refine hpending ⟨PollLoop.awaitsWrites_iff.mpr hawaits, Or.inr fun other hother heq => ?_⟩
  exact hnone ⟨other, hother, heq⟩

theorem live_setLoop {s : WorkerState} {loop loop' : LoopId} {phase : PollLoop}
    (hphase : phase.live = true) (h : (s.loops loop').live = true) :
    ((s.setLoop loop phase).loops loop').live = true := by
  show (Function.update s.loops loop phase loop').live = true
  by_cases heq : loop' = loop
  · rw [heq, Function.update_self]
    exact hphase
  · rw [Function.update_of_ne heq]
    exact h

/-- While a worker is running, its loops go on. -/
theorem Reacts.live {s s' : WorkerState} {event : WorkerEvent} {loop : LoopId}
    (h : s.Reacts event s') (hrunning : s.isRunning = true) (hlive : (s.loops loop).live = true) :
    (s'.loops loop).live = true := by
  cases h with
  | claimed events _ =>
    unfold WorkerState.claimed
    split
    · exact live_setLoop rfl hlive
    · exact live_setLoop rfl hlive
  | claimFailed _ => exact live_setLoop rfl hlive
  | published outcome _ =>
    unfold WorkerState.published
    split
    · exact live_setLoop rfl hlive
    · exact live_setLoop rfl hlive
    · exact live_setLoop rfl hlive
  | writeSettled ok _ =>
    unfold WorkerState.writeSettled
    simp only
    split
    · exact live_setLoop rfl hlive
    · exact hlive
  | woke _ =>
    unfold WorkerState.woke
    rw [if_pos hrunning]
    exact live_setLoop rfl hlive
  | loopEnded _ _ => exact hlive
  | timedOut _ => exact hlive

end WorkerState

/-- The runs of a worker. -/
def outboxWorker (worker : OutboxWorker) : Transition.System WorkerState WorkerAction where
  init s := s = .initial worker
  step := WorkerState.step

end Outboxy.Lifecycle
