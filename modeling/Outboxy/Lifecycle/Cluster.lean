import Outboxy.Lifecycle.PollLoop

/-!
# The worker cluster

`WorkerCluster.start` creates its workers one after the other, each with a
publisher that it initializes first, and then runs the poll loops of all of
them.  `stop` stops the workers, shuts the publishers down and forgets both.
Each `initialize` is awaited, so `stop` may be called between any two
iterations of the loop in `start`, and `start` at any point of `stop`.

The publisher is a parameter: what its `initialize` and `shutdown` do up to
their first await, and what they do after it.  A method that a publisher does
not have does nothing.  The factory is a parameter as well, since it may hand
out one publisher several times.

Three fields are not fields of the class.  `unclosed` lists the publishers
whose `initialize` has completed since `shutdown` was last called on them,
`stopped` says that a `stop()` has returned and that `start()` was not called
since, and `overtaken` says of a `start()` that a `stop()` was in progress
while it was initializing.  No step reads them.
-/

namespace Outboxy.Lifecycle

/-- Number of a worker object, in the order of creation. -/
abbrev WorkerId := Nat

/-- A publisher object. -/
abbrev PublisherId := Nat

/-- Number of a `start()` call of the cluster. -/
abbrev ClusterStartId := Nat

/-- Number of a `stop()` call of the cluster. -/
abbrev ClusterStopId := Nat

/-- The part of `Publisher` that the cluster calls.  A publisher in state `σ`
answers each call at once with its new state and with a `κ`, which is what the
call still knows when it settles. -/
structure Publisher (σ κ : Type) where
  create : σ
  initializeCalled : σ → σ × κ
  initialized : σ → κ → Bool → σ
  shutdownCalled : σ → σ × κ
  shutdownSettled : σ → κ → Bool → σ

/-- The constructor arguments of a `WorkerCluster`.  `publisherFactory n` is
the publisher that the `n`-th call of the factory returns. -/
structure WorkerCluster (σ κ : Type) where
  workerCount : Nat
  workerIdPrefix : String
  config : WorkerConfig
  metrics : Option WorkerMetrics
  publisher : Publisher σ κ
  publisherFactory : Nat → PublisherId

/-- What a `start()` call of the cluster awaits. -/
inductive ClusterStart (κ : Type) where
  | uncalled
  /-- The `initialize` of a publisher, in iteration `index` of the loop. -/
  | initializing (index : Nat) (publisher : PublisherId) (call : κ) (overtaken : Bool)
  /-- The `start()` of all workers, which await their poll loops. -/
  | awaiting (loops : List (WorkerId × LoopId))
  | returned
  | threw

/-- The cluster calls `stop()` while this `start()` initializes. -/
def ClusterStart.overtake {κ : Type} : ClusterStart κ → ClusterStart κ
  | .initializing index publisher call _ => .initializing index publisher call true
  | start => start

/-- What a `stop()` call of the cluster awaits. -/
inductive ClusterStop (κ : Type) where
  | uncalled
  | stoppingWorkers (calls : List (WorkerId × StopId))
  | shuttingDown (calls : List (PublisherId × κ))
  | returned

def ClusterStop.inProgress {κ : Type} : ClusterStop κ → Bool
  | .stoppingWorkers _ => true
  | .shuttingDown _ => true
  | _ => false

/-- The fields of a `WorkerCluster` that change, its workers and publishers,
and what its calls await. -/
structure ClusterState (σ κ : Type) where
  running : Bool
  workers : List WorkerId
  publishers : List PublisherId
  factoryCalls : Nat
  objects : WorkerId → Option WorkerState
  created : Nat
  instances : PublisherId → σ
  starts : ClusterStartId → ClusterStart κ
  startCalls : Nat
  stops : ClusterStopId → ClusterStop κ
  stopCalls : Nat
  unclosed : List PublisherId
  stopped : Bool

/-- A call of a method, or the answer to an await. -/
inductive ClusterAction where
  | start
  | initialized (start : ClusterStartId) (ok : Bool)
  | startReturns (start : ClusterStartId)
  | stop
  | workersStopped (stop : ClusterStopId)
  | shutdownSettled (stop : ClusterStopId) (index : Nat) (ok : Bool)
  | stopReturns (stop : ClusterStopId)
  | worker (worker : WorkerId) (event : WorkerEvent)

namespace ClusterState

variable {σ κ : Type}

/-- A `stop()` call has not returned yet. -/
def stopInProgress (s : ClusterState σ κ) : Bool :=
  (List.range s.stopCalls).any fun c => (s.stops c).inProgress

/-- The poll loop of a worker. -/
def loop (s : ClusterState σ κ) (worker : WorkerId) (loop : LoopId) : PollLoop :=
  ((s.objects worker).map fun state => state.loops loop).getD .unstarted

def setStart (s : ClusterState σ κ) (k : ClusterStartId) (start : ClusterStart κ) :
    ClusterState σ κ :=
  { s with starts := Function.update s.starts k start }

def setStop (s : ClusterState σ κ) (c : ClusterStopId) (stop : ClusterStop κ) :
    ClusterState σ κ :=
  { s with stops := Function.update s.stops c stop }

/-- Call a method on all workers of the cluster. -/
def callWorkers (s : ClusterState σ κ) (method : WorkerState → WorkerState) : ClusterState σ κ :=
  { s with objects := fun w => if w ∈ s.workers then (s.objects w).map method else s.objects w }

end ClusterState

namespace WorkerCluster

variable {σ κ : Type} (cluster : WorkerCluster σ κ)

/-- The worker that iteration `index` creates. -/
def worker (index : Nat) : OutboxWorker :=
  ⟨cluster.config, cluster.workerIdPrefix ++ "-" ++ toString index, cluster.metrics⟩

/-- A cluster that was just constructed. -/
def initial : ClusterState σ κ where
  running := false
  workers := []
  publishers := []
  factoryCalls := 0
  objects := fun _ => none
  created := 0
  instances := fun _ => cluster.publisher.create
  starts := fun _ => .uncalled
  startCalls := 0
  stops := fun _ => .uncalled
  stopCalls := 0
  unclosed := []
  stopped := false

/-- `Promise.all` of the `start()` calls of the workers. -/
def startWorkers (s : ClusterState σ κ) (k : ClusterStartId) : ClusterState σ κ :=
  (s.callWorkers WorkerState.start).setStart k
    (.awaiting (s.workers.map fun w => (w, ((s.objects w).map WorkerState.starts).getD 0)))

/-- The loop of `start()` from iteration `index` to its next await. -/
def createWorkers (s : ClusterState σ κ) (k : ClusterStartId) (index : Nat) (overtaken : Bool) :
    ClusterState σ κ :=
  if index < cluster.workerCount then
    let publisher := cluster.publisherFactory s.factoryCalls
    let (state, call) := cluster.publisher.initializeCalled (s.instances publisher)
    { s.setStart k (.initializing index publisher call overtaken) with
      publishers := s.publishers ++ [publisher]
      factoryCalls := s.factoryCalls + 1
      instances := Function.update s.instances publisher state }
  else startWorkers s k

theorem createWorkers_of_le {s : ClusterState σ κ} {k : ClusterStartId} {index : Nat}
    {overtaken : Bool} (h : cluster.workerCount ≤ index) :
    cluster.createWorkers s k index overtaken = startWorkers s k :=
  if_neg (Nat.not_lt.mpr h)

/-- The loop of `start()` shuts no publisher down and does not unset
`stopped`. -/
theorem createWorkers_unclosed (s : ClusterState σ κ) (k : ClusterStartId) (index : Nat)
    (overtaken : Bool) :
    (cluster.createWorkers s k index overtaken).unclosed = s.unclosed ∧
      (cluster.createWorkers s k index overtaken).stopped = s.stopped := by
  unfold createWorkers
  split <;> exact ⟨rfl, rfl⟩

theorem instances_createWorkers_of_lt {s : ClusterState σ κ} {k : ClusterStartId} {index : Nat}
    {overtaken : Bool} (h : index < cluster.workerCount) :
    (cluster.createWorkers s k index overtaken).instances =
      Function.update s.instances (cluster.publisherFactory s.factoryCalls)
        (cluster.publisher.initializeCalled
          (s.instances (cluster.publisherFactory s.factoryCalls))).1 := by
  unfold createWorkers
  rw [if_pos h]

/-- `start()` up to its first await. -/
def start (s : ClusterState σ κ) : ClusterState σ κ :=
  if s.running then
    { s.setStart s.startCalls .returned with startCalls := s.startCalls + 1, stopped := false }
  else
    cluster.createWorkers
      { s with running := true, startCalls := s.startCalls + 1, stopped := false }
      s.startCalls 0 s.stopInProgress

/-- What an `initialize` call leaves its publisher in. -/
def publisherInitialized (s : ClusterState σ κ) (publisher : PublisherId) (call : κ) (ok : Bool) :
    ClusterState σ κ :=
  { s with
    instances := Function.update s.instances publisher
      (cluster.publisher.initialized (s.instances publisher) call ok) }

/-- Create the worker of iteration `index`. -/
def addWorker (s : ClusterState σ κ) (index : Nat) (publisher : PublisherId) : ClusterState σ κ :=
  { s with
    unclosed := publisher :: s.unclosed
    objects := Function.update s.objects s.created (some (.initial (cluster.worker index)))
    workers := s.workers ++ [s.created]
    created := s.created + 1 }

/-- `initialize` settles: `start()` rejects, or creates the worker and goes on
with the next one. -/
def initialized (s : ClusterState σ κ) (k : ClusterStartId) (ok : Bool) :
    Option (ClusterState σ κ) :=
  match s.starts k with
  | .initializing index publisher call overtaken =>
    let s := cluster.publisherInitialized s publisher call ok
    if ok then
      some (cluster.createWorkers (cluster.addWorker s index publisher) k (index + 1) overtaken)
    else some (s.setStart k .threw)
  | _ => none

/-- All poll loops that `start()` awaits have ended. -/
def startReturns (s : ClusterState σ κ) (k : ClusterStartId) : Option (ClusterState σ κ) :=
  match s.starts k with
  | .awaiting loops =>
    if loops.all fun l => (s.loop l.1 l.2).isEnded then some (s.setStart k .returned) else none
  | _ => none

/-- Call `stop()` on all workers, and await these calls. -/
def stopWorkers (s : ClusterState σ κ) : ClusterState σ κ :=
  let calls := s.workers.map fun w => (w, ((s.objects w).map WorkerState.stopCalls).getD 0)
  { (s.callWorkers WorkerState.stop).setStop s.stopCalls (.stoppingWorkers calls) with
    running := false
    stopCalls := s.stopCalls + 1
    starts := fun k => (s.starts k).overtake }

/-- `stop()` up to its first await. -/
def stop (s : ClusterState σ κ) : ClusterState σ κ :=
  if s.running then stopWorkers s
  else { s.setStop s.stopCalls .returned with stopCalls := s.stopCalls + 1, stopped := true }

/-- Call `shutdown` on publishers, one after the other. -/
def shutdownAll : List PublisherId → (PublisherId → σ) →
    (PublisherId → σ) × List (PublisherId × κ)
  | [], instances => (instances, [])
  | publisher :: publishers, instances =>
    let (state, call) := cluster.publisher.shutdownCalled (instances publisher)
    let (instances, calls) := shutdownAll publishers (Function.update instances publisher state)
    (instances, (publisher, call) :: calls)

/-- Call `shutdown` on the publishers of the cluster, and await these calls. -/
def shutdownPublishers (s : ClusterState σ κ) (c : ClusterStopId) : ClusterState σ κ :=
  let (instances, calls) := cluster.shutdownAll s.publishers s.instances
  { s.setStop c (.shuttingDown calls) with
    instances := instances
    unclosed := s.unclosed.filter fun publisher => decide (publisher ∉ s.publishers) }

/-- All workers have stopped. -/
def workersStopped (s : ClusterState σ κ) (c : ClusterStopId) : Option (ClusterState σ κ) :=
  match s.stops c with
  | .stoppingWorkers calls =>
    if calls.all fun call => (s.objects call.1).all fun state =>
        decide (state.stops call.2 = .returned) then
      some (cluster.shutdownPublishers s c)
    else none
  | _ => none

/-- What a `shutdown` call leaves its publisher in. -/
def publisherShutdown (s : ClusterState σ κ) (publisher : PublisherId) (call : κ) (ok : Bool) :
    ClusterState σ κ :=
  { s with
    instances := Function.update s.instances publisher
      (cluster.publisher.shutdownSettled (s.instances publisher) call ok) }

/-- A `shutdown` settles.  An error is caught. -/
def shutdownSettled (s : ClusterState σ κ) (c : ClusterStopId) (index : Nat) (ok : Bool) :
    Option (ClusterState σ κ) :=
  match s.stops c with
  | .shuttingDown calls =>
    match calls[index]? with
    | some (publisher, call) =>
      some ((cluster.publisherShutdown s publisher call ok).setStop c
        (.shuttingDown (calls.eraseIdx index)))
    | none => none
  | _ => none

/-- All publishers are shut down. -/
def stopReturns (s : ClusterState σ κ) (c : ClusterStopId) : Option (ClusterState σ κ) :=
  match s.stops c with
  | .shuttingDown [] =>
    some { s.setStop c .returned with workers := [], publishers := [], stopped := true }
  | _ => none

/-- Something that a worker awaits is answered. -/
def workerEvent (s : ClusterState σ κ) (w : WorkerId) (event : WorkerEvent) :
    Option (ClusterState σ κ) :=
  (s.objects w).bind fun state => (state.react event).map fun state =>
    { s with objects := Function.update s.objects w (some state) }

def step (s : ClusterState σ κ) : ClusterAction → Option (ClusterState σ κ)
  | .start => some (cluster.start s)
  | .initialized k ok => cluster.initialized s k ok
  | .startReturns k => startReturns s k
  | .stop => some (stop s)
  | .workersStopped c => cluster.workersStopped s c
  | .shutdownSettled c index ok => cluster.shutdownSettled s c index ok
  | .stopReturns c => stopReturns s c
  | .worker w event => workerEvent s w event

/-! ## What a step does -/

variable {cluster}

/-- The enabled actions in a state, with the state each of them leads to. -/
inductive Moves (cluster : WorkerCluster σ κ) (s : ClusterState σ κ) :
    ClusterAction → ClusterState σ κ → Prop where
  | startRunning (hrunning : s.running = true) :
    Moves cluster s .start
      { s.setStart s.startCalls .returned with startCalls := s.startCalls + 1, stopped := false }
  | start (hrunning : s.running = false) :
    Moves cluster s .start (cluster.createWorkers
      { s with running := true, startCalls := s.startCalls + 1, stopped := false }
      s.startCalls 0 s.stopInProgress)
  | initialized {k : ClusterStartId} {index : Nat} {publisher : PublisherId} {call : κ}
    {overtaken : Bool} (hstart : s.starts k = .initializing index publisher call overtaken) :
    Moves cluster s (.initialized k true) (cluster.createWorkers
      (cluster.addWorker (cluster.publisherInitialized s publisher call true) index publisher)
      k (index + 1) overtaken)
  | initializeFailed {k : ClusterStartId} {index : Nat} {publisher : PublisherId} {call : κ}
    {overtaken : Bool} (hstart : s.starts k = .initializing index publisher call overtaken) :
    Moves cluster s (.initialized k false)
      ((cluster.publisherInitialized s publisher call false).setStart k .threw)
  | startReturns {k : ClusterStartId} {loops : List (WorkerId × LoopId)}
    (hstart : s.starts k = .awaiting loops)
    (hended : ∀ l ∈ loops, (s.loop l.1 l.2).isEnded = true) :
    Moves cluster s (.startReturns k) (s.setStart k .returned)
  | stop (hrunning : s.running = true) : Moves cluster s .stop (stopWorkers s)
  | stopNotRunning (hrunning : s.running = false) :
    Moves cluster s .stop
      { s.setStop s.stopCalls .returned with stopCalls := s.stopCalls + 1, stopped := true }
  | workersStopped {c : ClusterStopId} {calls : List (WorkerId × StopId)}
    (hstop : s.stops c = .stoppingWorkers calls)
    (hreturned : ∀ call ∈ calls, ∀ state, s.objects call.1 = some state →
      state.stops call.2 = .returned) :
    Moves cluster s (.workersStopped c) (cluster.shutdownPublishers s c)
  | shutdownSettled {c : ClusterStopId} {index : Nat} {calls : List (PublisherId × κ)}
    {publisher : PublisherId} {call : κ} (ok : Bool) (hstop : s.stops c = .shuttingDown calls)
    (hcall : calls[index]? = some (publisher, call)) :
    Moves cluster s (.shutdownSettled c index ok)
      ((cluster.publisherShutdown s publisher call ok).setStop c
        (.shuttingDown (calls.eraseIdx index)))
  | stopReturns {c : ClusterStopId} (hstop : s.stops c = .shuttingDown []) :
    Moves cluster s (.stopReturns c)
      { s.setStop c .returned with workers := [], publishers := [], stopped := true }
  | worker {w : WorkerId} {event : WorkerEvent} {state state' : WorkerState}
    (hobject : s.objects w = some state) (hreact : state.Reacts event state') :
    Moves cluster s (.worker w event)
      { s with objects := Function.update s.objects w (some state') }

theorem moves_of_step {s s' : ClusterState σ κ} {action : ClusterAction}
    (h : cluster.step s action = some s') : cluster.Moves s action s' := by
  cases action with
  | start =>
    obtain rfl := Option.some.inj h
    unfold WorkerCluster.start
    split
    · rename_i hrunning
      exact .startRunning hrunning
    · rename_i hrunning
      exact .start (eq_false_of_ne_true hrunning)
  | initialized k ok =>
    have h' : cluster.initialized s k ok = some s' := h
    unfold WorkerCluster.initialized at h'
    split at h'
    · rename_i hstart
      cases ok with
      | true =>
        obtain rfl := Option.some.inj h'
        exact .initialized hstart
      | false =>
        obtain rfl := Option.some.inj h'
        exact .initializeFailed hstart
    · exact nomatch h'
  | startReturns k =>
    have h' : startReturns s k = some s' := h
    unfold WorkerCluster.startReturns at h'
    split at h'
    · rename_i hstart
      split at h'
      · rename_i hended
        obtain rfl := Option.some.inj h'
        exact .startReturns hstart (List.all_eq_true.mp hended)
      · exact nomatch h'
    · exact nomatch h'
  | stop =>
    obtain rfl := Option.some.inj h
    unfold WorkerCluster.stop
    split
    · rename_i hrunning
      exact .stop hrunning
    · rename_i hrunning
      exact .stopNotRunning (eq_false_of_ne_true hrunning)
  | workersStopped c =>
    have h' : cluster.workersStopped s c = some s' := h
    unfold WorkerCluster.workersStopped at h'
    split at h'
    · rename_i hstop
      split at h'
      · rename_i hreturned
        obtain rfl := Option.some.inj h'
        refine .workersStopped hstop fun call hcall state hobject => ?_
        have hall := List.all_eq_true.mp hreturned call hcall
        rw [hobject] at hall
        exact of_decide_eq_true hall
      · exact nomatch h'
    · exact nomatch h'
  | shutdownSettled c index ok =>
    have h' : cluster.shutdownSettled s c index ok = some s' := h
    unfold WorkerCluster.shutdownSettled at h'
    split at h'
    · rename_i hstop
      split at h'
      · rename_i hcall
        obtain rfl := Option.some.inj h'
        exact .shutdownSettled ok hstop hcall
      · exact nomatch h'
    · exact nomatch h'
  | stopReturns c =>
    have h' : stopReturns s c = some s' := h
    unfold WorkerCluster.stopReturns at h'
    split at h'
    · rename_i hstop
      obtain rfl := Option.some.inj h'
      exact .stopReturns hstop
    · exact nomatch h'
  | worker w event =>
    have h' : workerEvent s w event = some s' := h
    unfold WorkerCluster.workerEvent at h'
    obtain ⟨state, hobject, h'⟩ := Option.bind_eq_some_iff.mp h'
    obtain ⟨state', hreact, rfl⟩ := Option.map_eq_some_iff.mp h'
    exact .worker hobject (WorkerState.reacts_of_react hreact)

variable (cluster)

/-- The runs of the cluster. -/
def system : Transition.System (ClusterState σ κ) ClusterAction where
  init s := s = cluster.initial
  step := cluster.step

end WorkerCluster

namespace Sample

/-- A publisher that has nothing to initialize. -/
def publisher : Publisher Unit Unit :=
  ⟨(), fun _ => ((), ()), fun _ _ _ => (), fun _ => ((), ()), fun _ _ _ => ()⟩

end Sample

end Outboxy.Lifecycle
