import Outboxy.Delivery.Batch
import Outboxy.Delivery.Owing
import Outboxy.Lifecycle.OneLoop

/-!
# A worker on the outbox

`WorkerState` is a worker whose repository and publisher answer anything, and
`State` is an outbox that calls work on, whoever makes them.  A `Deployment`
puts the two together.  The poll loops of one worker make their calls of
`claimPendingEvents` and of the outcome writes on the outbox, and the answers
are what the outbox has done.  Everything else that happens on the outbox, such
as the calls of other workers, happens in between.

A call of the repository fails in two ways: before it had an effect, or with
its effect and without an answer.  So the execution of a write and its answer
are two steps, and only the answer `true` needs the execution.

`outbox_of_reachable` and `worker_of_reachable` say that a deployment runs the
two models it is made of.
-/

namespace Outboxy.Lifecycle

open Transition

/-- One worker, and the outbox that it works on. -/
structure Deployment (a : Adapter) where
  outbox : State a
  worker : WorkerState
  /-- The `claimPendingEvents` call that a poll loop awaits. -/
  claims : LoopId → Option TaskId
  /-- The call that has claimed a batch. -/
  batches : BatchId → Option TaskId
  /-- All calls of `claimPendingEvents` that the worker has made. -/
  begun : List TaskId

inductive DeploymentAction where
  /-- Anybody else does something on the outbox. -/
  | other (action : Action)
  /-- The worker starts, stops, wakes up or gives up waiting. -/
  | worker (action : WorkerAction)
  /-- A poll loop calls `claimPendingEvents`, and its first statement executes. -/
  | claim (loop : LoopId) (task : TaskId) (ids : List EventId)
  /-- The next statement of the call executes. -/
  | nextStatement (loop : LoopId)
  | claimReturns (loop : LoopId)
  /-- The call throws.  A transaction that was open is rolled back. -/
  | claimThrows (loop : LoopId)
  /-- The publisher answers, and the loop issues its writes. -/
  | published (loop : LoopId) (outcome : PublishOutcome)
  /-- An issued write executes. -/
  | writeExecutes (batch : BatchId) (index : Nat)
  /-- The worker gets the answer to a write. -/
  | writeSettled (index : Nat) (ok : Bool)

/-- Neither the repository nor the publisher has a part in the action. -/
def WorkerAction.isLocal : WorkerAction → Bool
  | .start => true
  | .stop => true
  | .event (.woke _) => true
  | .event (.loopEnded _) => true
  | .event (.timedOut _) => true
  | _ => false

/-- The statement that follows in a call of `claimPendingEvents`. -/
def statement (t : TaskId) : Task → Option Action
  | .claimSelected _ _ => some (.claimUpdate t)
  | .claimUpdated _ _ _ => some (.claimCommit t)
  | .claimCommitted _ _ => some (.claimReselect t)
  | _ => none

/-- What a call of `claimPendingEvents` returns when it is over. -/
def claimAnswer : Task → Option (List OutboxEvent)
  | .claimed _ events => some events
  | .done => some []
  | _ => none

namespace Deployment

variable {a : Adapter}

/-- A worker that was just constructed, and an empty outbox. -/
def initial (worker : OutboxWorker) (clock : Int) : Deployment a where
  outbox := .initial clock
  worker := .initial worker
  claims := fun _ => none
  batches := fun _ => none
  begun := []

/-- A statement executes on the outbox. -/
def execute (s : Deployment a) (action : Action) : Option (Deployment a) :=
  (Outboxy.step s.outbox action).map fun outbox => { s with outbox := outbox }

/-- The worker gets an answer. -/
def react (s : Deployment a) (event : WorkerEvent) : Option (Deployment a) :=
  (s.worker.react event).map fun worker => { s with worker := worker }

def claim (s : Deployment a) (loop : LoopId) (t : TaskId) (ids : List EventId) :
    Option (Deployment a) :=
  match s.worker.loops loop, s.claims loop with
  | .claiming, none =>
    if t ∈ s.begun then none
    else (s.execute (.claim t s.worker.worker ids)).map fun s' =>
      { s' with claims := Function.update s.claims loop (some t), begun := t :: s.begun }
  | _, _ => none

def nextStatement (s : Deployment a) (loop : LoopId) : Option (Deployment a) :=
  (s.claims loop).bind fun t => (statement t (s.outbox.tasks t)).bind s.execute

/-- The batch number is that of the events, if there are any. -/
def claimReturns (s : Deployment a) (loop : LoopId) : Option (Deployment a) :=
  (s.claims loop).bind fun t => (claimAnswer (s.outbox.tasks t)).bind fun events =>
    (s.react (.claimed loop events)).map fun s' =>
      { s' with
        claims := Function.update s.claims loop none
        batches := Function.update s.batches s.worker.batches (some t) }

/-- The call may also throw before its first statement. -/
def claimThrows (s : Deployment a) (loop : LoopId) : Option (Deployment a) :=
  match s.claims loop with
  | none => s.react (.claimFailed loop)
  | some t => (s.execute (.crash t)).bind fun s' => (s'.react (.claimFailed loop)).map fun s'' =>
      { s'' with claims := Function.update s.claims loop none }

def published (s : Deployment a) (loop : LoopId) (outcome : PublishOutcome) :
    Option (Deployment a) :=
  ((s.worker.loops loop).batch.bind s.batches).bind fun t =>
    (s.execute (.publishBatch t outcome)).bind fun s' => s'.react (.published loop outcome)

/-- The write has executed.  A batch has at most one write of each kind. -/
def executed (s : Deployment a) (write : Write) : Bool :=
  match s.batches write.batch with
  | some t => (s.outbox.tasks t).pending.all fun call =>
      decide (call.decision ≠ write.call.decision)
  | none => false

/-- A write that is answered with success has executed. -/
def writeSettled (s : Deployment a) (index : Nat) (ok : Bool) : Option (Deployment a) :=
  match s.worker.outstanding[index]? with
  | some write =>
    if ok = true ∧ s.executed write = false then none else s.react (.writeSettled index ok)
  | none => none

def step (s : Deployment a) : DeploymentAction → Option (Deployment a)
  | .other action =>
    if action.task?.any fun t => decide (t ∈ s.begun) then none else s.execute action
  | .worker action =>
    if action.isLocal then
      (s.worker.step action).map fun worker => { s with worker := worker }
    else none
  | .claim loop t ids => s.claim loop t ids
  | .nextStatement loop => s.nextStatement loop
  | .claimReturns loop => s.claimReturns loop
  | .claimThrows loop => s.claimThrows loop
  | .published loop outcome => s.published loop outcome
  | .writeExecutes batch index => (s.batches batch).bind fun t => s.execute (.write t index)
  | .writeSettled index ok => s.writeSettled index ok

end Deployment

/-- The runs of a worker on an outbox. -/
def deployment (a : Adapter) (worker : OutboxWorker) :
    System (Deployment a) DeploymentAction where
  init s := ∃ clock, s = .initial worker clock
  step := Deployment.step

/-! ## What an action does -/

/-- The answers that `Reacts` lists are enabled. -/
theorem WorkerState.react_of_reacts {s s' : WorkerState} {event : WorkerEvent}
    (h : s.Reacts event s') : s.react event = some s' := by
  cases h with
  | claimed events hloop => simp only [react, hloop]
  | claimFailed hloop => simp only [react, hloop]
  | published outcome hloop => simp only [react, hloop]
  | writeSettled ok hwrite => simp only [react, hwrite]
  | woke hloop => simp only [react, hloop]
  | loopEnded hstop hloop => simp only [react, hstop, hloop, if_true]
  | timedOut hstop => simp only [react, hstop]

namespace Deployment

variable {a : Adapter} {s s' : Deployment a}

theorem execute_cases {action : Action} (h : s.execute action = some s') :
    ∃ outbox, Outboxy.step s.outbox action = some outbox ∧ s' = { s with outbox := outbox } := by
  obtain ⟨outbox, hstep, rfl⟩ := Option.map_eq_some_iff.mp h
  exact ⟨outbox, hstep, rfl⟩

theorem react_cases {event : WorkerEvent} (h : s.react event = some s') :
    ∃ worker, s.worker.react event = some worker ∧ s' = { s with worker := worker } := by
  obtain ⟨worker, hreact, rfl⟩ := Option.map_eq_some_iff.mp h
  exact ⟨worker, hreact, rfl⟩

/-- The enabled actions of a deployment, with the state each of them leads to. -/
inductive Moves (s : Deployment a) : DeploymentAction → Deployment a → Prop where
  | other {action : Action} {outbox : State a} (hothers : ∀ t ∈ s.begun, action.task? ≠ some t)
    (hstep : Outboxy.step s.outbox action = some outbox) :
    Moves s (.other action) { s with outbox := outbox }
  | worker {action : WorkerAction} {worker : WorkerState} (hlocal : action.isLocal = true)
    (hstep : s.worker.step action = some worker) :
    Moves s (.worker action) { s with worker := worker }
  | claim {loop : LoopId} {t : TaskId} {ids : List EventId} {outbox : State a}
    (hloop : s.worker.loops loop = .claiming) (hclaims : s.claims loop = none)
    (hnew : t ∉ s.begun)
    (hstep : Outboxy.step s.outbox (.claim t s.worker.worker ids) = some outbox) :
    Moves s (.claim loop t ids) { s with
      outbox := outbox
      claims := Function.update s.claims loop (some t)
      begun := t :: s.begun }
  | nextStatement {loop : LoopId} {t : TaskId} {action : Action} {outbox : State a}
    (hclaims : s.claims loop = some t)
    (hstatement : statement t (s.outbox.tasks t) = some action)
    (hstep : Outboxy.step s.outbox action = some outbox) :
    Moves s (.nextStatement loop) { s with outbox := outbox }
  | claimReturns {loop : LoopId} {t : TaskId} {events : List OutboxEvent}
    (hclaims : s.claims loop = some t)
    (hanswer : claimAnswer (s.outbox.tasks t) = some events)
    (hloop : s.worker.loops loop = .claiming) :
    Moves s (.claimReturns loop) { s with
      worker := s.worker.claimed loop events
      claims := Function.update s.claims loop none
      batches := Function.update s.batches s.worker.batches (some t) }
  | claimFails {loop : LoopId} (hclaims : s.claims loop = none)
    (hloop : s.worker.loops loop = .claiming) :
    Moves s (.claimThrows loop) { s with worker := s.worker.setLoop loop .sleeping }
  | claimThrows {loop : LoopId} {t : TaskId} {outbox : State a}
    (hclaims : s.claims loop = some t) (hloop : s.worker.loops loop = .claiming)
    (hstep : Outboxy.step s.outbox (.crash t) = some outbox) :
    Moves s (.claimThrows loop) { s with
      outbox := outbox
      worker := s.worker.setLoop loop .sleeping
      claims := Function.update s.claims loop none }
  | published {loop : LoopId} {batch : BatchId} {events : List OutboxEvent} {t : TaskId}
    {outcome : PublishOutcome} {outbox : State a}
    (hloop : s.worker.loops loop = .publishing batch events)
    (hbatch : s.batches batch = some t)
    (hstep : Outboxy.step s.outbox (.publishBatch t outcome) = some outbox) :
    Moves s (.published loop outcome) { s with
      outbox := outbox
      worker := s.worker.published loop batch events outcome }
  | writeExecutes {batch : BatchId} {index : Nat} {t : TaskId} {outbox : State a}
    (hbatch : s.batches batch = some t)
    (hstep : Outboxy.step s.outbox (.write t index) = some outbox) :
    Moves s (.writeExecutes batch index) { s with outbox := outbox }
  | writeSettled {index : Nat} {ok : Bool} {write : Write}
    (hwrite : s.worker.outstanding[index]? = some write)
    (hexecuted : ok = true → s.executed write = true) :
    Moves s (.writeSettled index ok) { s with worker := s.worker.writeSettled index write ok }

theorem moves_of_step {action : DeploymentAction} (h : s.step action = some s') :
    s.Moves action s' := by
  cases action with
  | other action =>
    simp only [step] at h
    split at h
    · exact nomatch h
    · rename_i hothers
      obtain ⟨outbox, hstep, rfl⟩ := execute_cases h
      refine .other (fun t ht hact => hothers ?_) hstep
      simp [hact, ht]
  | worker action =>
    simp only [step] at h
    split at h
    · rename_i hlocal
      obtain ⟨worker, hstep, rfl⟩ := Option.map_eq_some_iff.mp h
      exact .worker hlocal hstep
    · exact nomatch h
  | claim loop t ids =>
    simp only [step, claim] at h
    split at h
    · rename_i hloop hclaims
      split at h
      · exact nomatch h
      · rename_i hnew
        obtain ⟨s₁, hs₁, rfl⟩ := Option.map_eq_some_iff.mp h
        obtain ⟨outbox, hstep, rfl⟩ := execute_cases hs₁
        exact .claim hloop hclaims hnew hstep
    · exact nomatch h
  | nextStatement loop =>
    obtain ⟨t, hclaims, h⟩ := Option.bind_eq_some_iff.mp h
    obtain ⟨action, hstatement, h⟩ := Option.bind_eq_some_iff.mp h
    obtain ⟨outbox, hstep, rfl⟩ := execute_cases h
    exact .nextStatement hclaims hstatement hstep
  | claimReturns loop =>
    obtain ⟨t, hclaims, h⟩ := Option.bind_eq_some_iff.mp h
    obtain ⟨events, hanswer, h⟩ := Option.bind_eq_some_iff.mp h
    obtain ⟨s₁, hs₁, rfl⟩ := Option.map_eq_some_iff.mp h
    obtain ⟨worker, hreact, rfl⟩ := react_cases hs₁
    cases WorkerState.reacts_of_react hreact with
    | claimed _ hloop => exact .claimReturns hclaims hanswer hloop
  | claimThrows loop =>
    simp only [step, claimThrows] at h
    split at h
    · rename_i hclaims
      obtain ⟨worker, hreact, rfl⟩ := react_cases h
      cases WorkerState.reacts_of_react hreact with
      | claimFailed hloop => exact .claimFails hclaims hloop
    · rename_i t hclaims
      obtain ⟨s₁, hs₁, h⟩ := Option.bind_eq_some_iff.mp h
      obtain ⟨outbox, hstep, rfl⟩ := execute_cases hs₁
      obtain ⟨s₂, hs₂, rfl⟩ := Option.map_eq_some_iff.mp h
      obtain ⟨worker, hreact, rfl⟩ := react_cases hs₂
      cases WorkerState.reacts_of_react hreact with
      | claimFailed hloop => exact .claimThrows hclaims hloop hstep
  | published loop outcome =>
    obtain ⟨t, hbatch, h⟩ := Option.bind_eq_some_iff.mp h
    obtain ⟨s₁, hs₁, h⟩ := Option.bind_eq_some_iff.mp h
    obtain ⟨outbox, hstep, rfl⟩ := execute_cases hs₁
    obtain ⟨worker, hreact, rfl⟩ := react_cases h
    cases WorkerState.reacts_of_react hreact with
    | published _ hloop =>
      rw [hloop] at hbatch
      exact .published hloop hbatch hstep
  | writeExecutes batch index =>
    obtain ⟨t, hbatch, h⟩ := Option.bind_eq_some_iff.mp h
    obtain ⟨outbox, hstep, rfl⟩ := execute_cases h
    exact .writeExecutes hbatch hstep
  | writeSettled index ok =>
    simp only [step, writeSettled] at h
    split at h
    · rename_i write hwrite
      split at h
      · exact nomatch h
      · rename_i hexecuted
        obtain ⟨worker, hreact, rfl⟩ := react_cases h
        cases WorkerState.reacts_of_react hreact with
        | writeSettled ok hwrite' =>
          obtain rfl := Option.some.inj (hwrite.symm.trans hwrite')
          exact .writeSettled hwrite fun hok => by simpa [hok] using hexecuted
    · exact nomatch h

/-! ## The two parts -/

/-- The outbox of a deployment runs as an outbox does. -/
theorem outbox_of_moves {action : DeploymentAction}
    (hs : (Outboxy.outbox a).Reachable s.outbox) (h : s.Moves action s') :
    (Outboxy.outbox a).Reachable s'.outbox := by
  have hexecute : ∀ action outbox, Outboxy.step s.outbox action = some outbox →
      (Outboxy.outbox a).Reachable outbox := fun action _ hstep =>
    System.ReachableBy.step (a := action) hs trivial hstep
  cases h with
  | other _ hstep => exact hexecute _ _ hstep
  | claim _ _ _ hstep => exact hexecute _ _ hstep
  | nextStatement _ _ hstep => exact hexecute _ _ hstep
  | claimThrows _ _ hstep => exact hexecute _ _ hstep
  | published _ _ hstep => exact hexecute _ _ hstep
  | writeExecutes _ hstep => exact hexecute _ _ hstep
  | worker | claimReturns | claimFails | writeSettled => exact hs

/-- The worker of a deployment runs as a worker does. -/
theorem worker_of_moves {action : DeploymentAction} {worker : OutboxWorker}
    (hs : (outboxWorker worker).Reachable s.worker) (h : s.Moves action s') :
    (outboxWorker worker).Reachable s'.worker := by
  have hreact : ∀ event worker', s.worker.Reacts event worker' →
      (outboxWorker worker).Reachable worker' := fun event _ h =>
    System.ReachableBy.step (a := .event event) hs trivial (WorkerState.react_of_reacts h)
  cases h with
  | worker _ hstep => exact hs.step trivial hstep
  | claimReturns _ _ hloop => exact hreact _ _ (.claimed _ hloop)
  | claimFails _ hloop => exact hreact _ _ (.claimFailed hloop)
  | claimThrows _ hloop _ => exact hreact _ _ (.claimFailed hloop)
  | published hloop _ _ => exact hreact _ _ (.published _ hloop)
  | writeSettled hwrite _ => exact hreact _ _ (.writeSettled _ hwrite)
  | other | claim | nextStatement | writeExecutes => exact hs

end Deployment

section Parts

variable {a : Adapter} {worker : OutboxWorker} {s : Deployment a}

theorem outbox_of_reachable (hs : (deployment a worker).Reachable s) :
    (outbox a).Reachable s.outbox := by
  refine hs.induct (P := fun s => (outbox a).Reachable s.outbox) ?_ ?_
  · rintro _ ⟨clock, rfl⟩
    exact reachable_initial a clock
  · intro s action s' _ ih _ h
    exact Deployment.outbox_of_moves ih (Deployment.moves_of_step h)

theorem worker_of_reachable (hs : (deployment a worker).Reachable s) :
    (outboxWorker worker).Reachable s.worker := by
  refine hs.induct (P := fun s => (outboxWorker worker).Reachable s.worker) ?_ ?_
  · rintro _ ⟨clock, rfl⟩
    exact .init rfl
  · intro s action s' _ ih _ h
    exact Deployment.worker_of_moves ih (Deployment.moves_of_step h)

end Parts

end Outboxy.Lifecycle
