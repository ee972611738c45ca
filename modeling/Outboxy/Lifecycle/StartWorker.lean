import Outboxy.Lifecycle.Cluster

/-!
# `startWorker`

`startWorker` builds a cluster around one publisher, awaits the `start()` of
the cluster and returns a handle with `cluster` and `stop`.  The `start()` of
the cluster awaits the `start()` of each worker, and that one awaits its poll
loop.

Before `startWorker` returns, nobody else has the cluster, so no worker is
asked to stop, and a poll loop only ends when its worker was.
`startWorker_blocked` concludes that it never returns, for any number of
workers from one on: the poll loops that it awaits stay alive.
-/

namespace Outboxy.Lifecycle

open Transition

/-- The fields of `WorkerConfig` that `startWorker` and its cluster read, with
the defaults of the schema.  With `metricsEnabled` there are the `metrics` that
`createWorkerMetrics()` makes.  Without a `workerIdPrefix` the cluster derives one
from the worker id. -/
structure StartConfig extends WorkerConfig where
  metrics : Option WorkerMetrics := some .asDocumented
  workerCount : Nat := 1
  workerIdPrefix : String

/-- The publisher and the configuration that `startWorker` gets. -/
structure WorkerOptions (σ κ : Type) where
  publisher : Publisher σ κ
  config : StartConfig

/-- What `startWorker` awaits. -/
inductive StartWorkerPhase where
  | startingMetrics
  /-- The first `start()` of the cluster. -/
  | startingCluster
  | returned
  | threw
deriving DecidableEq

structure StartWorkerState (σ κ : Type) where
  phase : StartWorkerPhase
  cluster : ClusterState σ κ

inductive StartWorkerAction where
  | metricsStarted (ok : Bool)
  | clusterStarted
  /-- A call or an answer in the cluster. -/
  | cluster (action : ClusterAction)

/-- Only a holder of the handle can make this call. -/
def ClusterAction.needsHandle : ClusterAction → Bool
  | .start => true
  | .stop => true
  | _ => false

section StartWorker

variable {σ κ : Type}

namespace WorkerOptions

variable (options : WorkerOptions σ κ)

/-- The cluster of `startWorker`.  Its factory returns `options.publisher`
each time. -/
def cluster : WorkerCluster σ κ where
  workerCount := options.config.workerCount
  workerIdPrefix := options.config.workerIdPrefix
  config := options.config.toWorkerConfig
  metrics := options.config.metrics
  publisher := options.publisher
  publisherFactory := fun _ => 0

/-- `startWorker` after the metrics server is up, to its next await. -/
def startCluster : StartWorkerState σ κ :=
  ⟨.startingCluster, options.cluster.start options.cluster.initial⟩

/-- `startWorker` up to its first await. -/
def initial : StartWorkerState σ κ :=
  if options.config.metrics.isSome then ⟨.startingMetrics, options.cluster.initial⟩
  else options.startCluster

def step (s : StartWorkerState σ κ) : StartWorkerAction → Option (StartWorkerState σ κ)
  | .metricsStarted ok =>
    match s.phase with
    | .startingMetrics => some (if ok then options.startCluster else { s with phase := .threw })
    | _ => none
  | .clusterStarted =>
    match s.phase, s.cluster.starts 0 with
    | .startingCluster, .returned => some { s with phase := .returned }
    | .startingCluster, .threw => some { s with phase := .threw }
    | _, _ => none
  | .cluster action =>
    if action.needsHandle && decide (s.phase ≠ .returned) then none
    else (options.cluster.step s.cluster action).map fun cluster => { s with cluster := cluster }

/-- The runs of `startWorker`, and of the cluster that it hands back. -/
def startWorker : System (StartWorkerState σ κ) StartWorkerAction where
  init s := s = options.initial
  step := options.step

end WorkerOptions

/-- At most one `start()` of the cluster was called.  It initializes its
publishers, awaits live poll loops, or has failed.  No `stop()` was called. -/
structure Starting (cluster : WorkerCluster σ κ) (s : ClusterState σ κ) : Prop where
  stops : ∀ c, s.stops c = .uncalled
  starts : ∀ k, k ≠ 0 → s.starts k = .uncalled
  objects : ∀ w ∈ s.workers, ∃ state, s.objects w = some state
  initializing : ∀ index publisher call overtaken,
    s.starts 0 = .initializing index publisher call overtaken →
      index < cluster.workerCount ∧ s.workers.length = index
  awaiting : ∀ loops, s.starts 0 = .awaiting loops → loops.length = cluster.workerCount ∧
    ∀ l ∈ loops, ∃ state, s.objects l.1 = some state ∧ state.isRunning = true ∧
      (state.loops l.2).live = true
  returned : s.starts 0 ≠ .returned

namespace Starting

variable {cluster : WorkerCluster σ κ} {s s' : ClusterState σ κ} {index : Nat}
  {overtaken : Bool}

theorem zero_of_starts {k : ClusterStartId} {start : ClusterStart κ} (inv : Starting cluster s)
    (hstart : s.starts k = start) (h : start ≠ .uncalled) : k = 0 := by
  by_contra hk
  exact h (hstart.symm.trans (inv.starts k hk))

/-- The last publisher is initialized, and the poll loops start. -/
theorem startWorkers (stops : ∀ c, s.stops c = .uncalled)
    (starts : ∀ k, k ≠ 0 → s.starts k = .uncalled)
    (objects : ∀ w ∈ s.workers, ∃ state, s.objects w = some state)
    (hlength : s.workers.length = cluster.workerCount) :
    Starting cluster (WorkerCluster.startWorkers s 0) := by
  have hstart : (WorkerCluster.startWorkers s 0).starts 0 = .awaiting
      (s.workers.map fun w => (w, ((s.objects w).map WorkerState.starts).getD 0)) := by
    unfold WorkerCluster.startWorkers ClusterState.setStart
    exact Function.update_self 0 _ s.starts
  have hobjects : ∀ w ∈ s.workers, ∀ state, s.objects w = some state →
      (WorkerCluster.startWorkers s 0).objects w = some state.start := by
    intro w hw state hobject
    show (if w ∈ s.workers then (s.objects w).map WorkerState.start else s.objects w) = _
    rw [if_pos hw, hobject]
    rfl
  refine ⟨stops, ?_, ?_, ?_, ?_, ?_⟩
  · intro k hk
    show Function.update s.starts 0 _ k = .uncalled
    rw [Function.update_of_ne hk]
    exact starts k hk
  · intro w hw
    obtain ⟨state, hobject⟩ := objects w hw
    exact ⟨state.start, hobjects w hw state hobject⟩
  · intro index publisher call overtaken h
    rw [hstart] at h
    exact nomatch h
  · intro loops h
    rw [hstart] at h
    obtain rfl := ClusterStart.awaiting.inj h
    refine ⟨by rw [List.length_map, hlength], ?_⟩
    intro l hl
    obtain ⟨w, hw, rfl⟩ := List.mem_map.mp hl
    obtain ⟨state, hobject⟩ := objects w hw
    refine ⟨state.start, hobjects w hw state hobject, rfl, ?_⟩
    rw [hobject]
    show (Function.update state.loops state.starts .claiming state.starts).live = true
    rw [Function.update_self]
    rfl
  · rw [hstart]
    exact nofun

/-- The loop of `start()` goes on, with a worker for each iteration so far. -/
theorem createWorkers (stops : ∀ c, s.stops c = .uncalled)
    (starts : ∀ k, k ≠ 0 → s.starts k = .uncalled)
    (objects : ∀ w ∈ s.workers, ∃ state, s.objects w = some state)
    (hlength : s.workers.length = index) (hindex : index ≤ cluster.workerCount) :
    Starting cluster (cluster.createWorkers s 0 index overtaken) := by
  unfold WorkerCluster.createWorkers
  split
  · rename_i hlt
    have hstart : ∀ start, Function.update s.starts 0 start 0 = start :=
      fun _ => Function.update_self _ _ _
    refine ⟨stops, ?_, objects, ?_, ?_, ?_⟩
    · intro k hk
      show Function.update s.starts 0 _ k = .uncalled
      rw [Function.update_of_ne hk]
      exact starts k hk
    · intro index' publisher call overtaken' h
      have h' := (hstart _).symm.trans h
      obtain ⟨rfl, _⟩ := ClusterStart.initializing.inj h'
      exact ⟨hlt, hlength⟩
    · intro loops h
      exact nomatch (hstart _).symm.trans h
    · intro h
      exact nomatch (hstart _).symm.trans h
  · rename_i hge
    exact startWorkers stops starts objects (by omega)

theorem initial (cluster : WorkerCluster σ κ) : Starting cluster cluster.initial where
  stops _ := rfl
  starts _ _ := rfl
  objects _ h := absurd h List.not_mem_nil
  initializing _ _ _ _ h := nomatch h
  awaiting _ h := nomatch h
  returned := nofun

theorem start (cluster : WorkerCluster σ κ) :
    Starting cluster (cluster.start cluster.initial) :=
  createWorkers (fun _ => rfl) (fun _ _ => rfl) (fun _ h => absurd h List.not_mem_nil) rfl
    (Nat.zero_le _)

theorem initialized {publisher : PublisherId} {call : κ} (inv : Starting cluster s)
    (hstart : s.starts 0 = .initializing index publisher call overtaken) :
    Starting cluster (cluster.createWorkers
      (cluster.addWorker (cluster.publisherInitialized s publisher call true) index publisher)
      0 (index + 1) overtaken) := by
  obtain ⟨hindex, hlength⟩ := inv.initializing index publisher call overtaken hstart
  refine createWorkers inv.stops inv.starts ?_ ?_ hindex
  · intro w hw
    show ∃ state, Function.update s.objects s.created
      (some (.initial (cluster.worker index))) w = some state
    by_cases heq : w = s.created
    · exact ⟨_, by rw [heq, Function.update_self]⟩
    · rw [Function.update_of_ne heq]
      rcases List.mem_append.mp hw with hw | hw
      · exact inv.objects w hw
      · exact absurd (List.mem_singleton.mp hw) heq
  · show (s.workers ++ [s.created]).length = index + 1
    rw [List.length_append, hlength]
    rfl

theorem initializeFailed {publisher : PublisherId} {call : κ} (inv : Starting cluster s) :
    Starting cluster ((cluster.publisherInitialized s publisher call false).setStart 0 .threw) := by
  have hstart : Function.update s.starts 0 .threw 0 = .threw := Function.update_self _ _ _
  refine ⟨inv.stops, ?_, inv.objects, ?_, ?_, ?_⟩
  · intro k hk
    show Function.update s.starts 0 .threw k = .uncalled
    rw [Function.update_of_ne hk]
    exact inv.starts k hk
  · intro index publisher call overtaken h
    exact nomatch hstart.symm.trans h
  · intro loops h
    exact nomatch hstart.symm.trans h
  · intro h
    exact nomatch hstart.symm.trans h

theorem worker {w : WorkerId} {event : WorkerEvent} {state state' : WorkerState}
    (inv : Starting cluster s) (hobject : s.objects w = some state)
    (hreact : state.Reacts event state') :
    Starting cluster { s with objects := Function.update s.objects w (some state') } := by
  refine ⟨inv.stops, inv.starts, ?_, inv.initializing, ?_, inv.returned⟩
  · intro w' hw'
    show ∃ state, Function.update s.objects w (some state') w' = some state
    by_cases heq : w' = w
    · exact ⟨state', by rw [heq, Function.update_self]⟩
    · rw [Function.update_of_ne heq]
      exact inv.objects w' hw'
  · intro loops hstart
    obtain ⟨hlength, hloops⟩ := inv.awaiting loops hstart
    refine ⟨hlength, fun l hl => ?_⟩
    obtain ⟨state'', hobject', hrunning, hlive⟩ := hloops l hl
    show ∃ state, Function.update s.objects w (some state') l.1 = some state ∧ _
    by_cases heq : l.1 = w
    · rw [heq, hobject] at hobject'
      obtain rfl := Option.some.inj hobject'
      exact ⟨state', by rw [heq, Function.update_self], hreact.isRunning_eq.trans hrunning,
        hreact.live hrunning hlive⟩
    · rw [Function.update_of_ne heq]
      exact ⟨state'', hobject', hrunning, hlive⟩

/-- No answer makes `start()` of the cluster return. -/
theorem step {action : ClusterAction} (inv : Starting cluster s)
    (hcount : 1 ≤ cluster.workerCount) (hhandle : action.needsHandle = false)
    (h : cluster.step s action = some s') : Starting cluster s' := by
  cases WorkerCluster.moves_of_step h with
  | startRunning | start | stop | stopNotRunning => exact absurd hhandle.symm Bool.false_ne_true
  | initialized hstart =>
    obtain rfl := inv.zero_of_starts hstart nofun
    exact inv.initialized hstart
  | initializeFailed hstart =>
    obtain rfl := inv.zero_of_starts hstart nofun
    exact inv.initializeFailed
  | startReturns hstart hended =>
    -- All loops that it awaits are alive, and there is one.
    rename_i k loops
    obtain rfl := inv.zero_of_starts hstart nofun
    obtain ⟨hlength, hlive⟩ := inv.awaiting loops hstart
    obtain ⟨l, hl⟩ := List.exists_mem_of_length_pos (by omega : 0 < loops.length)
    obtain ⟨state, hobject, _, hloop⟩ := hlive l hl
    have hended' := hended l hl
    rw [ClusterState.loop, hobject] at hended'
    exact absurd (hended'.symm.trans (PollLoop.not_isEnded_of_live hloop)) (by simp)
  | workersStopped hstop _ => exact nomatch (inv.stops _).symm.trans hstop
  | shutdownSettled ok hstop hcall => exact nomatch (inv.stops _).symm.trans hstop
  | stopReturns hstop => exact nomatch (inv.stops _).symm.trans hstop
  | worker hobject hreact => exact inv.worker hobject hreact

end Starting

namespace WorkerOptions

variable {options : WorkerOptions σ κ}

/-- `startWorker` has not returned, and nobody else has called its cluster. -/
structure NotReturned (options : WorkerOptions σ κ) (s : StartWorkerState σ κ) : Prop where
  phase : s.phase ≠ .returned
  starting : Starting options.cluster s.cluster

theorem NotReturned.step {s s' : StartWorkerState σ κ} {action : StartWorkerAction}
    (inv : NotReturned options s) (hcount : 1 ≤ options.config.workerCount)
    (h : options.step s action = some s') : NotReturned options s' := by
  unfold WorkerOptions.step at h
  cases action with
  | metricsStarted ok =>
    simp only at h
    split at h
    · cases ok with
      | true =>
        obtain rfl := Option.some.inj h
        exact ⟨nofun, .start options.cluster⟩
      | false =>
        obtain rfl := Option.some.inj h
        exact ⟨nofun, inv.starting⟩
    · exact nomatch h
  | clusterStarted =>
    simp only at h
    split at h
    · rename_i hstart
      exact absurd hstart inv.starting.returned
    · obtain rfl := Option.some.inj h
      exact ⟨nofun, inv.starting⟩
    · exact nomatch h
  | cluster action =>
    simp only at h
    split at h
    · exact nomatch h
    · rename_i hhandle
      obtain ⟨cluster', hcluster, rfl⟩ := Option.map_eq_some_iff.mp h
      refine ⟨inv.phase, inv.starting.step hcount ?_ hcluster⟩
      by_contra hneeds
      exact hhandle (by simp [eq_true_of_ne_false hneeds, inv.phase])

theorem notReturned (hcount : 1 ≤ options.config.workerCount) {s : StartWorkerState σ κ}
    (hs : options.startWorker.Reachable s) : NotReturned options s := by
  refine hs.induct ?_ ?_
  · rintro _ rfl
    unfold WorkerOptions.initial
    split
    · exact ⟨nofun, .initial options.cluster⟩
    · exact ⟨nofun, .start options.cluster⟩
  · intro t action t' _ inv _ hstep
    exact inv.step hcount hstep

end WorkerOptions

/-- With at least one worker, `startWorker` never returns its handle.  Once
all publishers are initialized, its return is blocked by the poll loops, all
of which are alive. -/
theorem startWorker_blocked (options : WorkerOptions σ κ) (hcount : 1 ≤ options.config.workerCount)
    {s : StartWorkerState σ κ} (hs : options.startWorker.Reachable s) :
    s.phase ≠ .returned ∧
      ∀ loops, s.cluster.starts 0 = .awaiting loops →
        options.startWorker.step s .clusterStarted = none ∧
          loops.length = options.config.workerCount ∧
          ∀ l ∈ loops, (s.cluster.loop l.1 l.2).live = true := by
  have inv := WorkerOptions.notReturned hcount hs
  refine ⟨inv.phase, fun loops hstart => ?_⟩
  obtain ⟨hlength, hloops⟩ := inv.starting.awaiting loops hstart
  refine ⟨?_, hlength, fun l hl => ?_⟩
  · show options.step s .clusterStarted = none
    unfold WorkerOptions.step
    simp only [hstart]
    cases s.phase <;> rfl
  · obtain ⟨state, hobject, _, hlive⟩ := hloops l hl
    rw [ClusterState.loop, hobject]
    exact hlive

namespace Sample

/-- One worker, a publisher that has nothing to initialize, and no metrics. -/
def options : WorkerOptions Unit Unit where
  publisher := publisher
  config := { workerIdPrefix := "worker", metrics := none }

end Sample

/-- Whether a `start()` call awaits the poll loops. -/
def ClusterStart.isAwaiting : ClusterStart κ → Bool
  | .awaiting _ => true
  | _ => false

theorem ClusterStart.exists_awaiting {start : ClusterStart κ} (h : start.isAwaiting = true) :
    ∃ loops, start = .awaiting loops := by
  cases start with
  | awaiting loops => exact ⟨loops, rfl⟩
  | uncalled | initializing | returned | threw => exact nomatch h

/-- With one worker, the poll loop blocks the return. -/
theorem startWorker_blocked_of_one :
    ∃ s loops, Sample.options.startWorker.run Sample.options.initial
        [.cluster (.initialized 0 true)] = some s ∧
      s.cluster.starts 0 = .awaiting loops ∧
      Sample.options.startWorker.step s .clusterStarted = none ∧ loops.length = 1 := by
  have hcheck : ((Sample.options.startWorker.run Sample.options.initial
      [.cluster (.initialized 0 true)]).any fun s => (s.cluster.starts 0).isAwaiting) = true := by
    decide +kernel
  obtain ⟨s, hrun, hs⟩ := (Option.any_eq_true _ _).mp hcheck
  obtain ⟨loops, hstart⟩ := ClusterStart.exists_awaiting hs
  have hblocked := startWorker_blocked Sample.options le_rfl (System.Reachable.run (.init rfl) hrun)
  obtain ⟨hnone, hlength, _⟩ := hblocked.2 loops hstart
  exact ⟨s, loops, hrun, hstart, hnone, hlength⟩

/-- `startWorker` with one worker does not return while a poll loop runs. -/
theorem not_forall_returns :
    ¬ ∀ options : WorkerOptions Unit Unit, 1 ≤ options.config.workerCount →
      ∃ s, options.startWorker.Reachable s ∧ s.phase = .returned ∧
        ∃ w loop, (s.cluster.loop w loop).live = true := by
  intro hreturns
  obtain ⟨s, hs, hphase, _⟩ := hreturns Sample.options le_rfl
  exact (WorkerOptions.notReturned le_rfl hs).phase hphase

end StartWorker

end Outboxy.Lifecycle
