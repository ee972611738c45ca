import Outboxy.Lifecycle.Cluster
import Outboxy.Lifecycle.StartedOnce

/-!
# Stopping the cluster

`stop` works on the workers and publishers that the cluster has when it is
called, and `start` does not look at `running` again after it has awaited an
`initialize`.  A `stop()` that overtakes a `start()` therefore returns while
the start goes on to create workers and to run them.

`StopIsFinal` says that a cluster stays stopped: once `stop()` has returned,
and until `start()` is called, no worker polls and each initialized publisher
is shut down.  `stopIsFinal_of_notOvertaken` shows it for the runs in which

* no `initialize` of an overtaken `start()` succeeds,
* `stop()` does not return early, because the cluster is not running, while
  another `stop()` waits for workers, and
* the `stop()` of a worker does not give up at its timeout while a claim is
  outstanding.

Two invariants carry it.  `StopInv` is about the flags of the workers and the
publishers, `ClaimInv` about the claims that are outstanding.
-/

namespace Outboxy.Lifecycle

open Transition

section Stop

variable {σ κ : Type} {cluster : WorkerCluster σ κ}

/-- After a `stop()` that no `start()` followed, no worker polls, and
`shutdown` was called on each publisher since its `initialize` completed. -/
structure StopIsFinal (s : ClusterState σ κ) : Prop where
  workers : s.stopped = true → ∀ w state, s.objects w = some state → ¬ state.Polls
  publishers : s.stopped = true → s.unclosed = []

/-- A `stop()` was in progress while this `start()` was initializing. -/
def ClusterStart.isOvertaken : ClusterStart κ → Bool
  | .initializing _ _ _ overtaken => overtaken
  | _ => false

/-- This `start()` initializes, and no `stop()` was in progress meanwhile. -/
def ClusterStart.isUnderway : ClusterStart κ → Bool
  | .initializing _ _ _ overtaken => !overtaken
  | _ => false

theorem ClusterStart.isUnderway_iff {start : ClusterStart κ} :
    start.isUnderway = true ↔
      ∃ index publisher call, start = .initializing index publisher call false := by
  cases start <;> simp [isUnderway]

/-- The `stop()` call still waits for a worker. -/
def ClusterStop.awaitsWorker : ClusterStop κ → Bool
  | .stoppingWorkers (_ :: _) => true
  | _ => false

/-- The `stop()` call has called `stop()` on the workers, and awaits it. -/
def ClusterStop.isStoppingWorkers : ClusterStop κ → Bool
  | .stoppingWorkers _ => true
  | _ => false

/-- An `initialize` does not succeed for a `start()` that a `stop()` has
overtaken, `stop()` does not find the cluster not running while another
`stop()` waits for workers, and the `stop()` of a worker does not give up
while a claim is outstanding. -/
def NotOvertaken (s : ClusterState σ κ) : ClusterAction → Prop
  | .initialized k true => (s.starts k).isOvertaken = false
  | .stop => s.running = false → ∀ c < s.stopCalls, (s.stops c).awaitsWorker = false
  | .worker w (.timedOut stop) =>
    ((s.objects w).any fun state => state.awaitsClaim stop) = false
  | _ => True

instance (s : ClusterState σ κ) : (action : ClusterAction) → Decidable (NotOvertaken s action)
  | .initialized _ true => inferInstanceAs (Decidable (_ = _))
  | .stop => inferInstanceAs (Decidable (_ → _))
  | .worker _ (.timedOut _) => inferInstanceAs (Decidable (_ = _))
  | .start | .initialized _ false | .startReturns _ | .workersStopped _
  | .shutdownSettled _ _ _ | .stopReturns _ | .worker _ (.claimed _ _) | .worker _ (.claimFailed _)
  | .worker _ (.published _ _) | .worker _ (.writeSettled _ _) | .worker _ (.woke _)
  | .worker _ (.loopEnded _) => inferInstanceAs (Decidable True)

/-- The cluster runs, and no `stop()` is in progress or has been called
last. -/
def ClusterState.Undisturbed (s : ClusterState σ κ) : Prop :=
  s.running = true ∧ s.stopped = false ∧ ∀ c, (s.stops c).inProgress = false

/-- A worker runs, and a `start()` that was not overtaken initializes, only in
a cluster that runs undisturbed.  A publisher that is not shut down is one of
a running cluster, or a `stop()` is about to shut it down. -/
structure StopInv (cluster : WorkerCluster σ κ) (s : ClusterState σ κ) : Prop where
  isRunning : ∀ w state, s.objects w = some state → state.isRunning = true →
    w ∈ s.workers ∧ s.Undisturbed
  initializing : ∀ k index publisher call,
    s.starts k = .initializing index publisher call false →
      index < cluster.workerCount ∧ publisher ∈ s.publishers ∧ s.Undisturbed
  workerCount : s.workers ≠ [] → 0 < cluster.workerCount
  unclosed : ∀ publisher ∈ s.unclosed,
    publisher ∈ s.publishers ∧ s.workers ≠ [] ∧ s.stopped = false ∧
      (s.running = true ∨ ∃ c call calls, s.stops c = .stoppingWorkers (call :: calls))
  shuttingDown : ∀ c calls, s.stops c = .shuttingDown calls → s.unclosed = []
  uncalled : ∀ c, s.stopCalls ≤ c → s.stops c = .uncalled

namespace ClusterState

/-- Without a `stop()` in progress, none of the calls is. -/
theorem inProgress_eq_false {s : ClusterState σ κ}
    (huncalled : ∀ c, s.stopCalls ≤ c → s.stops c = .uncalled) (h : s.stopInProgress = false)
    (c : ClusterStopId) : (s.stops c).inProgress = false := by
  by_cases hc : c < s.stopCalls
  · have hnot := List.any_eq_false.mp h c (List.mem_range.mpr hc)
    exact eq_false_of_ne_true hnot
  · rw [huncalled c (Nat.le_of_not_lt hc)]
    rfl

/-- While a `stop()` is in progress, the cluster is disturbed. -/
theorem Undisturbed.not_of_inProgress {s : ClusterState σ κ} (h : s.Undisturbed)
    {c : ClusterStopId} (hc : (s.stops c).inProgress = true) : False := by
  rw [h.2.2 c] at hc
  exact Bool.false_ne_true hc

theorem not_undisturbed_of_stops {s : ClusterState σ κ} {c : ClusterStopId} {stop : ClusterStop κ}
    (hstop : s.stops c = stop) (h : stop.inProgress = true) : ¬ s.Undisturbed := by
  rw [← hstop] at h
  exact fun hund => hund.not_of_inProgress h

theorem Undisturbed.not_of_running {s : ClusterState σ κ} (h : s.Undisturbed)
    (hrunning : s.running = false) : False := by
  rw [h.1] at hrunning
  exact Bool.false_ne_true hrunning.symm

/-- A call that is in progress is among the calls. -/
theorem lt_stopCalls {s : ClusterState σ κ}
    (huncalled : ∀ c, s.stopCalls ≤ c → s.stops c = .uncalled) {c : ClusterStopId}
    {stop : ClusterStop κ} (hstop : s.stops c = stop) (h : stop.inProgress = true) :
    c < s.stopCalls := by
  by_contra hc
  rw [← hstop, huncalled c (Nat.le_of_not_lt hc)] at h
  exact Bool.false_ne_true h

/-- A call of `stop()` leaves the later ones `uncalled`. -/
theorem uncalled_of_update {s : ClusterState σ κ}
    (huncalled : ∀ c, s.stopCalls ≤ c → s.stops c = .uncalled) {c : ClusterStopId}
    {stop : ClusterStop κ} {n : Nat} (hc : c < n) (hn : s.stopCalls ≤ n) (c' : ClusterStopId)
    (hc' : n ≤ c') : Function.update s.stops c stop c' = .uncalled := by
  rw [Function.update_of_ne (Nat.ne_of_gt (hc.trans_le hc'))]
  exact huncalled c' (hn.trans hc')

end ClusterState

namespace StopInv

variable {s s' : ClusterState σ κ} {k : ClusterStartId} {index : Nat} {overtaken : Bool}

theorem initial (cluster : WorkerCluster σ κ) : StopInv cluster cluster.initial where
  isRunning _ _ h := nomatch h
  initializing _ _ _ _ h := nomatch h
  workerCount h := absurd rfl h
  unclosed _ h := absurd h List.not_mem_nil
  shuttingDown _ _ h := nomatch h
  uncalled _ _ := rfl

/-- `start()` gets past the initialization of its publishers. -/
theorem startWorkers (inv : StopInv cluster s) (h : s.workers = [] ∨ s.Undisturbed) :
    StopInv cluster (WorkerCluster.startWorkers s k) := by
  refine ⟨?_, ?_, inv.workerCount, inv.unclosed, inv.shuttingDown, inv.uncalled⟩
  · intro w state hobject hrunning
    have hobject' : (if w ∈ s.workers then (s.objects w).map WorkerState.start
      else s.objects w) = some state := hobject
    split at hobject'
    · rename_i hw
      refine ⟨hw, h.resolve_left fun hnil => ?_⟩
      rw [hnil] at hw
      exact List.not_mem_nil hw
    · exact inv.isRunning w state hobject' hrunning
  · intro k' index publisher call hstart
    rcases update_eq_cases hstart with ⟨_, hnew⟩ | ⟨_, hold⟩
    · exact nomatch hnew
    · exact inv.initializing k' index publisher call hold

/-- The loop of `start()` goes on. -/
theorem createWorkers (inv : StopInv cluster s) (hundisturbed : overtaken = false → s.Undisturbed)
    (hlast : cluster.workerCount ≤ index → s.workers = [] ∨ s.Undisturbed) :
    StopInv cluster (cluster.createWorkers s k index overtaken) := by
  unfold WorkerCluster.createWorkers
  split
  · rename_i hindex
    refine ⟨inv.isRunning, ?_, inv.workerCount, ?_, inv.shuttingDown, inv.uncalled⟩
    · intro k' index' publisher call hstart
      rcases update_eq_cases hstart with ⟨_, hnew⟩ | ⟨_, hold⟩
      · obtain ⟨rfl, rfl, _, hovertaken⟩ := ClusterStart.initializing.inj hnew
        exact ⟨hindex, List.mem_append_right _ (List.mem_singleton_self _),
          hundisturbed hovertaken⟩
      · obtain ⟨hlt, hmem, hund⟩ := inv.initializing k' index' publisher call hold
        exact ⟨hlt, List.mem_append_left _ hmem, hund⟩
    · intro publisher hpublisher
      obtain ⟨hmem, hrest⟩ := inv.unclosed publisher hpublisher
      exact ⟨List.mem_append_left _ hmem, hrest⟩
  · rename_i hindex
    exact inv.startWorkers (hlast (Nat.le_of_not_lt hindex))

/-- An initialized publisher has to be shut down, and its worker does not run
yet. -/
theorem addWorker {publisher : PublisherId} (inv : StopInv cluster s)
    (hindex : index < cluster.workerCount) (hmem : publisher ∈ s.publishers)
    (hund : s.Undisturbed) : StopInv cluster (cluster.addWorker s index publisher) := by
  have hworkers : s.workers ++ [s.created] ≠ [] := by simp
  refine ⟨?_, inv.initializing, fun _ => Nat.zero_lt_of_lt hindex, ?_, ?_, inv.uncalled⟩
  · intro w state hobject hrunning
    rcases update_eq_cases hobject with ⟨_, hnew⟩ | ⟨_, hold⟩
    · obtain rfl := Option.some.inj hnew
      exact absurd hrunning Bool.false_ne_true
    · exact ⟨List.mem_append_left _ (inv.isRunning w state hold hrunning).1, hund⟩
  · intro publisher' hpublisher
    rcases List.mem_cons.mp hpublisher with rfl | hpublisher
    · exact ⟨hmem, hworkers, hund.2.1, Or.inl hund.1⟩
    · exact ⟨(inv.unclosed publisher' hpublisher).1, hworkers, hund.2.1, Or.inl hund.1⟩
  · intro c calls hstop
    have hprogress : (s.stops c).inProgress = true := by
      rw [show s.stops c = .shuttingDown calls from hstop]
      rfl
    exact (hund.not_of_inProgress hprogress).elim

/-- A `start()` call comes to an end. -/
theorem setStart {start : ClusterStart κ} (inv : StopInv cluster s)
    (hstart : ∀ index publisher call, start ≠ .initializing index publisher call false) :
    StopInv cluster (s.setStart k start) := by
  refine ⟨inv.isRunning, ?_, inv.workerCount, inv.unclosed, inv.shuttingDown, inv.uncalled⟩
  intro k' index publisher call hk
  rcases update_eq_cases hk with ⟨_, hnew⟩ | ⟨_, hold⟩
  · exact absurd hnew (hstart index publisher call)
  · exact inv.initializing k' index publisher call hold

theorem publisherInitialized {publisher : PublisherId} {call : κ} {ok : Bool}
    (inv : StopInv cluster s) :
    StopInv cluster (cluster.publisherInitialized s publisher call ok) :=
  ⟨inv.isRunning, inv.initializing, inv.workerCount, inv.unclosed, inv.shuttingDown, inv.uncalled⟩

theorem initialized {publisher : PublisherId} {call : κ} (inv : StopInv cluster s)
    (hstart : s.starts k = .initializing index publisher call false) :
    StopInv cluster (cluster.createWorkers
      (cluster.addWorker (cluster.publisherInitialized s publisher call true) index publisher)
      k (index + 1) false) := by
  obtain ⟨hindex, hmem, hund⟩ := inv.initializing k index publisher call hstart
  exact (inv.publisherInitialized.addWorker hindex hmem hund).createWorkers (fun _ => hund)
    fun _ => Or.inr hund

/-- `start()` of a cluster that is not running.  No worker runs, so nothing
has to hold of the new flags. -/
theorem start (inv : StopInv cluster s) (hrunning : s.running = false) :
    StopInv cluster (cluster.createWorkers
      { s with running := true, startCalls := s.startCalls + 1, stopped := false }
      s.startCalls 0 s.stopInProgress) := by
  have hflags : StopInv cluster
      { s with running := true, startCalls := s.startCalls + 1, stopped := false } := by
    refine ⟨?_, ?_, inv.workerCount, ?_, inv.shuttingDown, inv.uncalled⟩
    · intro w state hobject hstate
      exact ((inv.isRunning w state hobject hstate).2.not_of_running hrunning).elim
    · intro k index publisher call hstart
      exact ((inv.initializing k index publisher call hstart).2.2.not_of_running hrunning).elim
    · intro publisher hpublisher
      obtain ⟨hmem, hworkers, _, _⟩ := inv.unclosed publisher hpublisher
      exact ⟨hmem, hworkers, rfl, Or.inl rfl⟩
  refine hflags.createWorkers (fun hprogress => ⟨rfl, rfl, ?_⟩) (fun hcount => Or.inl ?_)
  · exact ClusterState.inProgress_eq_false inv.uncalled hprogress
  · by_contra hne
    exact absurd (inv.workerCount hne) (Nat.not_lt.mpr hcount)

theorem startRunning (inv : StopInv cluster s) (hrunning : s.running = true) :
    StopInv cluster
      { s.setStart s.startCalls .returned with
        startCalls := s.startCalls + 1, stopped := false } := by
  have hset : StopInv cluster (s.setStart s.startCalls .returned) :=
    inv.setStart fun _ _ _ => nofun
  refine ⟨?_, ?_, hset.workerCount, ?_, hset.shuttingDown, hset.uncalled⟩
  · intro w state hobject hstate
    obtain ⟨hw, hund⟩ := hset.isRunning w state hobject hstate
    exact ⟨hw, hund.1, rfl, hund.2.2⟩
  · intro k index publisher call hstart
    obtain ⟨hindex, hmem, hund⟩ := hset.initializing k index publisher call hstart
    exact ⟨hindex, hmem, hund.1, rfl, hund.2.2⟩
  · intro publisher hpublisher
    obtain ⟨hmem, hworkers, _, _⟩ := hset.unclosed publisher hpublisher
    exact ⟨hmem, hworkers, rfl, Or.inl hrunning⟩

/-- `stop()` of a running cluster. -/
theorem stopWorkers (inv : StopInv cluster s) : StopInv cluster (WorkerCluster.stopWorkers s) := by
  refine ⟨?_, ?_, inv.workerCount, ?_, ?_, ?_⟩
  · intro w state hobject hrunning
    have hobject' : (if w ∈ s.workers then (s.objects w).map WorkerState.stop
      else s.objects w) = some state := hobject
    split at hobject'
    · obtain ⟨state', _, rfl⟩ := Option.map_eq_some_iff.mp hobject'
      rw [WorkerState.stop_isRunning] at hrunning
      exact absurd hrunning Bool.false_ne_true
    · rename_i hw
      exact absurd (inv.isRunning w state hobject' hrunning).1 hw
  · intro k index publisher call hstart
    have hstart' : (s.starts k).overtake = .initializing index publisher call false := hstart
    unfold ClusterStart.overtake at hstart'
    split at hstart'
    · exact absurd (ClusterStart.initializing.inj hstart').2.2.2 (by simp)
    · rename_i hnot
      exact absurd hstart' (hnot index publisher call false)
  · intro publisher hpublisher
    obtain ⟨hmem, hworkers, hstopped, _⟩ := inv.unclosed publisher hpublisher
    refine ⟨hmem, hworkers, hstopped, Or.inr ⟨s.stopCalls, ?_⟩⟩
    obtain ⟨w, ws, hcons⟩ := List.exists_cons_of_ne_nil hworkers
    refine ⟨(w, ((s.objects w).map WorkerState.stopCalls).getD 0),
      ws.map fun w => (w, ((s.objects w).map WorkerState.stopCalls).getD 0), ?_⟩
    show Function.update s.stops s.stopCalls _ s.stopCalls = _
    rw [Function.update_self, hcons, List.map_cons]
  · intro c calls hstop
    rcases update_eq_cases hstop with ⟨_, hnew⟩ | ⟨_, hold⟩
    · exact nomatch hnew
    · exact inv.shuttingDown c calls hold
  · exact ClusterState.uncalled_of_update inv.uncalled (Nat.lt_succ_self _) (Nat.le_succ _)

/-- A step of a disturbed cluster that has shut down its publishers. -/
theorem of_not_undisturbed (inv : StopInv cluster s) (hnot : ¬ s.Undisturbed)
    (hobjects : s'.objects = s.objects) (hstarts : s'.starts = s.starts)
    (hworkers : s'.workers ≠ [] → s.workers ≠ []) (hunclosed : s'.unclosed = [])
    (huncalled : ∀ c, s'.stopCalls ≤ c → s'.stops c = .uncalled) : StopInv cluster s' where
  isRunning w state hobject hrunning := by
    rw [hobjects] at hobject
    exact absurd (inv.isRunning w state hobject hrunning).2 hnot
  initializing k index publisher call hstart := by
    rw [hstarts] at hstart
    exact absurd (inv.initializing k index publisher call hstart).2.2 hnot
  workerCount h := inv.workerCount (hworkers h)
  unclosed publisher h := by
    rw [hunclosed] at h
    exact absurd h List.not_mem_nil
  shuttingDown _ _ _ := hunclosed
  uncalled := huncalled

theorem stopNotRunning (inv : StopInv cluster s) (hrunning : s.running = false)
    (hno : ∀ c < s.stopCalls, (s.stops c).awaitsWorker = false) :
    StopInv cluster
      { s.setStop s.stopCalls .returned with stopCalls := s.stopCalls + 1, stopped := true } := by
  refine inv.of_not_undisturbed (fun hund => hund.not_of_running hrunning) rfl rfl id ?_ ?_
  · refine List.eq_nil_iff_forall_not_mem.mpr fun publisher hpublisher => ?_
    obtain ⟨_, _, _, hwhy⟩ := inv.unclosed publisher hpublisher
    rcases hwhy with htrue | ⟨c, call, calls, hstop⟩
    · rw [hrunning] at htrue
      exact Bool.false_ne_true htrue
    · have hawaits := hno c (ClusterState.lt_stopCalls inv.uncalled hstop rfl)
      rw [hstop] at hawaits
      exact Bool.false_ne_true hawaits.symm
  · exact ClusterState.uncalled_of_update inv.uncalled (Nat.lt_succ_self _) (Nat.le_succ _)

theorem shutdownPublishers {c : ClusterStopId} {calls : List (WorkerId × StopId)}
    (inv : StopInv cluster s) (hstop : s.stops c = .stoppingWorkers calls) :
    StopInv cluster (cluster.shutdownPublishers s c) := by
  refine inv.of_not_undisturbed (ClusterState.not_undisturbed_of_stops hstop rfl) rfl rfl id ?_ ?_
  · refine List.filter_eq_nil_iff.mpr fun publisher hpublisher => ?_
    rw [decide_eq_true_eq, not_not]
    exact (inv.unclosed publisher hpublisher).1
  · exact ClusterState.uncalled_of_update inv.uncalled
      (ClusterState.lt_stopCalls inv.uncalled hstop rfl) le_rfl

theorem shutdownSettled {c : ClusterStopId} {calls calls' : List (PublisherId × κ)}
    {publisher : PublisherId} {call : κ} {ok : Bool} (inv : StopInv cluster s)
    (hstop : s.stops c = .shuttingDown calls) :
    StopInv cluster
      ((cluster.publisherShutdown s publisher call ok).setStop c (.shuttingDown calls')) := by
  refine inv.of_not_undisturbed (ClusterState.not_undisturbed_of_stops hstop rfl) rfl rfl id
    (inv.shuttingDown c calls hstop) ?_
  exact ClusterState.uncalled_of_update inv.uncalled
    (ClusterState.lt_stopCalls inv.uncalled hstop rfl) le_rfl

theorem stopReturns {c : ClusterStopId} {calls : List (PublisherId × κ)}
    (inv : StopInv cluster s) (hstop : s.stops c = .shuttingDown calls) :
    StopInv cluster
      { s.setStop c .returned with workers := [], publishers := [], stopped := true } := by
  refine inv.of_not_undisturbed (ClusterState.not_undisturbed_of_stops hstop rfl) rfl rfl
    (absurd rfl) (inv.shuttingDown c calls hstop) ?_
  exact ClusterState.uncalled_of_update inv.uncalled
    (ClusterState.lt_stopCalls inv.uncalled hstop rfl) le_rfl

/-- The answers that a worker gets do not make it run. -/
theorem worker {w : WorkerId} {event : WorkerEvent} {state state' : WorkerState}
    (inv : StopInv cluster s) (hobject : s.objects w = some state)
    (hreact : state.Reacts event state') :
    StopInv cluster { s with objects := Function.update s.objects w (some state') } := by
  refine ⟨?_, inv.initializing, inv.workerCount, inv.unclosed, inv.shuttingDown, inv.uncalled⟩
  intro w' state'' hobject' hrunning
  rcases update_eq_cases hobject' with ⟨rfl, hnew⟩ | ⟨_, hold⟩
  · obtain rfl := Option.some.inj hnew
    exact inv.isRunning w' state hobject (hreact.isRunning_eq ▸ hrunning)
  · exact inv.isRunning w' state'' hold hrunning

theorem step {action : ClusterAction} (inv : StopInv cluster s)
    (hallowed : NotOvertaken s action) (h : cluster.step s action = some s') :
    StopInv cluster s' := by
  cases WorkerCluster.moves_of_step h with
  | startRunning hrunning => exact inv.startRunning hrunning
  | start hrunning => exact inv.start hrunning
  | initialized hstart =>
    rename_i k index publisher call overtaken
    cases overtaken with
    | true =>
      have hovertaken : (s.starts k).isOvertaken = false := hallowed
      rw [hstart] at hovertaken
      exact absurd hovertaken.symm Bool.false_ne_true
    | false => exact inv.initialized hstart
  | initializeFailed hstart => exact inv.publisherInitialized.setStart fun _ _ _ => nofun
  | startReturns hstart hended => exact inv.setStart fun _ _ _ => nofun
  | stop hrunning => exact inv.stopWorkers
  | stopNotRunning hrunning => exact inv.stopNotRunning hrunning (hallowed hrunning)
  | workersStopped hstop => exact inv.shutdownPublishers hstop
  | shutdownSettled ok hstop hcall => exact inv.shutdownSettled hstop
  | stopReturns hstop => exact inv.stopReturns hstop
  | worker hobject hreact => exact inv.worker hobject hreact

theorem undisturbed_of_isUnderway (inv : StopInv cluster s)
    (h : (s.starts k).isUnderway = true) : s.Undisturbed := by
  obtain ⟨index, publisher, call, hstart⟩ := ClusterStart.isUnderway_iff.mp h
  exact (inv.initializing k index publisher call hstart).2.2

/-- In a cluster that is not running, every `start()` is overtaken. -/
theorem not_isUnderway (inv : StopInv cluster s) (hrunning : s.running = false) :
    (s.starts k).isUnderway = false := by
  refine eq_false_of_ne_true fun h => ?_
  exact (inv.undisturbed_of_isUnderway h).not_of_running hrunning

end StopInv

/-- A worker with a claim outstanding is one of a cluster that was not stopped
since, and whose publishers no `stop()` has begun to shut down.  For that,
every worker is started once, by the `start()` that created it, and a `stop()`
waits for all workers. -/
structure ClaimInv (s : ClusterState σ κ) : Prop where
  startedOnce : ∀ w state, s.objects w = some state → state.StartedOnce
  fresh : ∀ k, (s.starts k).isUnderway = true →
    ∀ w ∈ s.workers, ∀ state, s.objects w = some state → ∃ worker, state = .initial worker
  unique : ∀ k k', (s.starts k).isUnderway = true → (s.starts k').isUnderway = true → k = k'
  idle : s.workers ≠ [] → s.running = true ∨ ∃ c, (s.stops c).inProgress = true
  stopping : ∀ c calls, s.stops c = .stoppingWorkers calls →
    ∀ w ∈ s.workers, ∃ stop, (w, stop) ∈ calls ∧
      ∀ state, s.objects w = some state → stop < state.stopCalls
  claiming : ∀ w state loop, s.objects w = some state → state.loops loop = .claiming →
    s.stopped = false ∧ w ∈ s.workers ∧ ∀ c calls, s.stops c ≠ .shuttingDown calls

namespace ClaimInv

variable {s s' : ClusterState σ κ} {k : ClusterStartId} {index : Nat} {overtaken : Bool}

theorem initial (cluster : WorkerCluster σ κ) : ClaimInv cluster.initial where
  startedOnce _ _ h := nomatch h
  fresh _ h := nomatch h
  unique _ _ h := nomatch h
  idle h := absurd rfl h
  stopping _ _ h := nomatch h
  claiming _ _ _ h := nomatch h

/-- `start()` gets past the initialization of its publishers, and starts the
workers that it has created. -/
theorem startWorkers (inv : ClaimInv s) (h : s.workers = [] ∨ s.Undisturbed)
    (hfresh : ∀ w ∈ s.workers, ∀ state, s.objects w = some state →
      ∃ worker, state = .initial worker)
    (honly : ∀ k', (s.starts k').isUnderway = true → k' = k) :
    ClaimInv (WorkerCluster.startWorkers s k) := by
  have hnot : ∀ k', ((WorkerCluster.startWorkers s k).starts k').isUnderway = true → False := by
    intro k' hk'
    rcases update_cases (P := fun start : ClusterStart κ => start.isUnderway = true) hk' with
      ⟨_, hnew⟩ | ⟨hne, hold⟩
    · exact Bool.false_ne_true hnew
    · exact hne (honly k' hold)
  have hund : ∀ w ∈ s.workers, s.Undisturbed := by
    intro w hw
    refine h.resolve_left fun hnil => ?_
    rw [hnil] at hw
    exact List.not_mem_nil hw
  -- A worker of the cluster has just been started, another one is untouched.
  have hobjects : ∀ w state, (WorkerCluster.startWorkers s k).objects w = some state →
      (w ∈ s.workers ∧ ∃ worker, state = (WorkerState.initial worker).start) ∨
        s.objects w = some state := by
    intro w state hobject
    have hobject' : (if w ∈ s.workers then (s.objects w).map WorkerState.start
      else s.objects w) = some state := hobject
    split at hobject'
    · rename_i hw
      obtain ⟨old, hold, rfl⟩ := Option.map_eq_some_iff.mp hobject'
      obtain ⟨worker, rfl⟩ := hfresh w hw old hold
      exact Or.inl ⟨hw, worker, rfl⟩
    · exact Or.inr hobject'
  refine ⟨?_, fun k' hk' => (hnot k' hk').elim, fun k' _ hk' => (hnot k' hk').elim, inv.idle,
    ?_, ?_⟩
  · intro w state hobject
    rcases hobjects w state hobject with ⟨_, worker, rfl⟩ | hold
    · exact .start_initial worker
    · exact inv.startedOnce w state hold
  · intro c calls hstop w hw
    have hstop' : s.stops c = .stoppingWorkers calls := hstop
    exact (ClusterState.not_undisturbed_of_stops hstop' rfl (hund w hw)).elim
  · intro w state loop hobject hclaiming
    rcases hobjects w state hobject with ⟨hw, _⟩ | hold
    · refine ⟨(hund w hw).2.1, hw, fun c calls hstop => ?_⟩
      have hstop' : s.stops c = .shuttingDown calls := hstop
      exact ClusterState.not_undisturbed_of_stops hstop' rfl (hund w hw)
    · exact inv.claiming w state loop hold hclaiming

/-- The loop of `start()` goes on. -/
theorem createWorkers (inv : ClaimInv s)
    (hlast : cluster.workerCount ≤ index → s.workers = [] ∨ s.Undisturbed)
    (hfresh : overtaken = false ∨ cluster.workerCount ≤ index →
      ∀ w ∈ s.workers, ∀ state, s.objects w = some state → ∃ worker, state = .initial worker)
    (honly : ∀ k', (s.starts k').isUnderway = true → k' = k) :
    ClaimInv (cluster.createWorkers s k index overtaken) := by
  by_cases hindex : index < cluster.workerCount
  · unfold WorkerCluster.createWorkers
    rw [if_pos hindex]
    have hcases : ∀ k' publisher call, ((Function.update s.starts k
        (.initializing index publisher call overtaken)) k').isUnderway = true →
        k' = k ∧ (overtaken = false ∨ (s.starts k').isUnderway = true) := by
      intro k' publisher call hk'
      rcases update_cases (P := fun start : ClusterStart κ => start.isUnderway = true) hk' with
        ⟨rfl, hnew⟩ | ⟨_, hold⟩
      · exact ⟨rfl, Or.inl (by simpa [ClusterStart.isUnderway] using hnew)⟩
      · exact ⟨honly k' hold, Or.inr hold⟩
    refine ⟨inv.startedOnce, ?_, ?_, inv.idle, inv.stopping, inv.claiming⟩
    · intro k' hk'
      rcases (hcases k' _ _ hk').2 with hnot | hold
      · exact hfresh (Or.inl hnot)
      · exact inv.fresh k' hold
    · intro k' k'' hk' hk''
      exact (hcases k' _ _ hk').1.trans (hcases k'' _ _ hk'').1.symm
  · have hle := Nat.le_of_not_lt hindex
    rw [cluster.createWorkers_of_le hle]
    exact inv.startWorkers (hlast hle) (hfresh (Or.inr hle)) honly

/-- The new worker was not started yet. -/
theorem addWorker {publisher : PublisherId} (inv : ClaimInv s) (hund : s.Undisturbed) :
    ClaimInv (cluster.addWorker s index publisher) := by
  have hno : ∀ c stop, s.stops c = stop → stop.inProgress = true → False :=
    fun c stop hstop hprogress => ClusterState.not_undisturbed_of_stops hstop hprogress hund
  refine ⟨?_, ?_, inv.unique, fun _ => Or.inl hund.1, ?_, ?_⟩
  · intro w state hobject
    rcases update_eq_cases hobject with ⟨_, hnew⟩ | ⟨_, hold⟩
    · obtain rfl := Option.some.inj hnew
      exact .initial _
    · exact inv.startedOnce w state hold
  · intro k hk w hw state hobject
    rcases update_eq_cases hobject with ⟨_, hnew⟩ | ⟨hne, hold⟩
    · exact ⟨_, (Option.some.inj hnew).symm⟩
    · refine inv.fresh k hk w ((List.mem_append.mp hw).resolve_right fun hw' => ?_) state hold
      exact hne (List.mem_singleton.mp hw')
  · intro c calls hstop
    exact (hno c _ hstop rfl).elim
  · intro w state loop hobject hclaiming
    rcases update_eq_cases hobject with ⟨_, hnew⟩ | ⟨_, hold⟩
    · obtain rfl := Option.some.inj hnew
      exact absurd hclaiming (by simp [WorkerState.initial])
    · obtain ⟨hstopped, hw, hshutting⟩ := inv.claiming w state loop hold hclaiming
      exact ⟨hstopped, List.mem_append_left _ hw, hshutting⟩

/-- A `start()` call comes to an end. -/
theorem setStart {start : ClusterStart κ} (inv : ClaimInv s) (hstart : start.isUnderway = false) :
    ClaimInv (s.setStart k start) := by
  have hold : ∀ k', ((s.setStart k start).starts k').isUnderway = true →
      (s.starts k').isUnderway = true := by
    intro k' hk'
    rcases update_cases (P := fun start : ClusterStart κ => start.isUnderway = true) hk' with
      ⟨_, hnew⟩ | ⟨_, hold⟩
    · exact absurd (hstart.symm.trans hnew) Bool.false_ne_true
    · exact hold
  exact ⟨inv.startedOnce, fun k' hk' => inv.fresh k' (hold k' hk'),
    fun k' k'' hk' hk'' => inv.unique k' k'' (hold k' hk') (hold k'' hk''), inv.idle,
    inv.stopping, inv.claiming⟩

theorem publisherInitialized {publisher : PublisherId} {call : κ} {ok : Bool}
    (inv : ClaimInv s) : ClaimInv (cluster.publisherInitialized s publisher call ok) :=
  ⟨inv.startedOnce, inv.fresh, inv.unique, inv.idle, inv.stopping, inv.claiming⟩

theorem initialized {publisher : PublisherId} {call : κ} (hinv : StopInv cluster s)
    (inv : ClaimInv s) (hstart : s.starts k = .initializing index publisher call false) :
    ClaimInv (cluster.createWorkers
      (cluster.addWorker (cluster.publisherInitialized s publisher call true) index publisher)
      k (index + 1) false) := by
  obtain ⟨_, _, hund⟩ := hinv.initializing k index publisher call hstart
  have hk : (s.starts k).isUnderway = true := by
    rw [hstart]
    rfl
  have hadd : ClaimInv (cluster.addWorker
      (cluster.publisherInitialized s publisher call true) index publisher) :=
    inv.publisherInitialized.addWorker hund
  exact hadd.createWorkers (fun _ => Or.inr hund) (fun _ => hadd.fresh k hk)
    fun k' hk' => inv.unique k' k hk' hk

/-- `start()` of a cluster that is not running.  Unless a `stop()` is in
progress, it has no workers. -/
theorem start (hinv : StopInv cluster s) (inv : ClaimInv s) (hrunning : s.running = false) :
    ClaimInv (cluster.createWorkers
      { s with running := true, startCalls := s.startCalls + 1, stopped := false }
      s.startCalls 0 s.stopInProgress) := by
  have hnot : ∀ k', (s.starts k').isUnderway = true → False := by
    intro k' hk'
    exact Bool.false_ne_true ((hinv.not_isUnderway hrunning).symm.trans hk')
  have hflags : ClaimInv
      { s with running := true, startCalls := s.startCalls + 1, stopped := false } := by
    refine ⟨inv.startedOnce, inv.fresh, inv.unique, fun _ => Or.inl rfl, inv.stopping, ?_⟩
    intro w state loop hobject hclaiming
    exact ⟨rfl, (inv.claiming w state loop hobject hclaiming).2⟩
  have hnil : s.stopInProgress = false ∨ cluster.workerCount ≤ 0 → s.workers = [] := by
    intro hor
    by_contra hne
    rcases hor with hprogress | hcount
    · rcases inv.idle hne with htrue | ⟨c, hc⟩
      · exact Bool.false_ne_true (hrunning.symm.trans htrue)
      · rw [ClusterState.inProgress_eq_false hinv.uncalled hprogress c] at hc
        exact Bool.false_ne_true hc
    · exact absurd (hinv.workerCount hne) (Nat.not_lt.mpr hcount)
  refine hflags.createWorkers (fun hcount => Or.inl (hnil (Or.inr hcount))) ?_
    fun k' hk' => (hnot k' hk').elim
  intro hor w hw
  have hw' : w ∈ s.workers := hw
  rw [hnil hor] at hw'
  exact absurd hw' List.not_mem_nil

theorem startRunning (inv : ClaimInv s) :
    ClaimInv
      { s.setStart s.startCalls .returned with
        startCalls := s.startCalls + 1, stopped := false } := by
  have hset : ClaimInv (s.setStart s.startCalls .returned) := inv.setStart rfl
  refine ⟨hset.startedOnce, hset.fresh, hset.unique, hset.idle, hset.stopping, ?_⟩
  intro w state loop hobject hclaiming
  exact ⟨rfl, (hset.claiming w state loop hobject hclaiming).2⟩

/-- `stop()` of a running cluster calls `stop()` on all workers. -/
theorem stopWorkers (inv : ClaimInv s) : ClaimInv (WorkerCluster.stopWorkers s) := by
  have hnot : ∀ k, (s.starts k).overtake.isUnderway = true → False := by
    intro k hk
    cases hstart : s.starts k <;> rw [hstart] at hk <;> exact Bool.false_ne_true hk
  have hobjects : ∀ w state, (WorkerCluster.stopWorkers s).objects w = some state →
      (∃ old, s.objects w = some old ∧ state = old.stop) ∨
        w ∉ s.workers ∧ s.objects w = some state := by
    intro w state hobject
    have hobject' : (if w ∈ s.workers then (s.objects w).map WorkerState.stop
      else s.objects w) = some state := hobject
    split at hobject'
    · obtain ⟨old, hold, rfl⟩ := Option.map_eq_some_iff.mp hobject'
      exact Or.inl ⟨old, hold, rfl⟩
    · rename_i hw
      exact Or.inr ⟨hw, hobject'⟩
  refine ⟨?_, fun k hk => (hnot k hk).elim, fun k _ hk => (hnot k hk).elim, ?_, ?_, ?_⟩
  · intro w state hobject
    rcases hobjects w state hobject with ⟨old, hold, rfl⟩ | ⟨_, hold⟩
    · exact (inv.startedOnce w old hold).stop
    · exact inv.startedOnce w state hold
  · intro _
    refine Or.inr ⟨s.stopCalls, ?_⟩
    show (Function.update s.stops s.stopCalls _ s.stopCalls).inProgress = true
    rw [Function.update_self]
    rfl
  · intro c calls hstop w hw
    rcases update_eq_cases hstop with ⟨_, hnew⟩ | ⟨_, hold⟩
    · obtain rfl := ClusterStop.stoppingWorkers.inj hnew
      refine ⟨_, List.mem_map_of_mem hw, fun state hobject => ?_⟩
      rcases hobjects w state hobject with ⟨old, hold, rfl⟩ | ⟨hnot, _⟩
      · rw [hold, WorkerState.stopCalls_stop]
        exact Nat.lt_succ_self _
      · exact absurd hw hnot
    · obtain ⟨stop, hmem, hlt⟩ := inv.stopping c calls hold w hw
      refine ⟨stop, hmem, fun state hobject => ?_⟩
      rcases hobjects w state hobject with ⟨old, hold', rfl⟩ | ⟨_, hold'⟩
      · rw [WorkerState.stopCalls_stop]
        exact Nat.lt_succ_of_lt (hlt old hold')
      · exact hlt state hold'
  · intro w state loop hobject hclaiming
    have hold : ∃ old, s.objects w = some old ∧ old.loops loop = .claiming := by
      rcases hobjects w state hobject with ⟨old, hold, rfl⟩ | ⟨_, hold⟩
      · exact ⟨old, hold, by rwa [WorkerState.loops_stop] at hclaiming⟩
      · exact ⟨state, hold, hclaiming⟩
    obtain ⟨old, hold, hclaiming'⟩ := hold
    obtain ⟨hstopped, hw, hshutting⟩ := inv.claiming w old loop hold hclaiming'
    refine ⟨hstopped, hw, fun c calls hstop => ?_⟩
    rcases update_eq_cases hstop with ⟨_, hnew⟩ | ⟨_, hold'⟩
    · exact nomatch hnew
    · exact hshutting c calls hold'

/-- A step of `stop()` at which no claim is outstanding. -/
theorem of_not_claiming (hinv : StopInv cluster s) (inv : ClaimInv s)
    (hnot : ¬ s.Undisturbed)
    (hclaims : ∀ w state loop, s.objects w = some state → state.loops loop ≠ .claiming)
    (hobjects : s'.objects = s.objects) (hstarts : s'.starts = s.starts)
    (hworkers : ∀ w ∈ s'.workers, w ∈ s.workers)
    (hidle : s'.workers ≠ [] → s'.running = true ∨ ∃ c, (s'.stops c).inProgress = true)
    (hstops : ∀ c calls, s'.stops c = .stoppingWorkers calls →
      s.stops c = .stoppingWorkers calls) : ClaimInv s' := by
  have hno : ∀ k, (s'.starts k).isUnderway = true → False := by
    intro k hk
    rw [hstarts] at hk
    exact hnot (hinv.undisturbed_of_isUnderway hk)
  refine ⟨?_, fun k hk => (hno k hk).elim, fun k _ hk => (hno k hk).elim, hidle, ?_, ?_⟩
  · rw [hobjects]
    exact inv.startedOnce
  · intro c calls hstop w hw
    rw [hobjects]
    exact inv.stopping c calls (hstops c calls hstop) w (hworkers w hw)
  · intro w state loop hobject hclaiming
    rw [hobjects] at hobject
    exact absurd hclaiming (hclaims w state loop hobject)

/-- The answer to a `stop()` of the cluster: what it awaits next. -/
theorem idle_setStop {c : ClusterStopId} {stop : ClusterStop κ} (inv : ClaimInv s)
    (hidle : stop.inProgress = true ∨ (s.stops c).inProgress = false) (hne : s.workers ≠ []) :
    s.running = true ∨ ∃ c', (Function.update s.stops c stop c').inProgress = true := by
  rcases inv.idle hne with hrunning | ⟨c', hc'⟩
  · exact Or.inl hrunning
  · right
    rcases hidle with hprogress | hended
    · refine ⟨c, ?_⟩
      rw [Function.update_self]
      exact hprogress
    · refine ⟨c', ?_⟩
      rwa [Function.update_of_ne]
      rintro rfl
      exact Bool.false_ne_true (hended.symm.trans hc')

/-- A call of `stop()` that waits for workers was one before another call was
answered. -/
theorem stoppingWorkers_of_update {c c' : ClusterStopId} {stop : ClusterStop κ}
    {calls : List (WorkerId × StopId)} (hstop : stop.isStoppingWorkers = false)
    (h : Function.update s.stops c stop c' = .stoppingWorkers calls) :
    s.stops c' = .stoppingWorkers calls := by
  rcases update_eq_cases h with ⟨_, hnew⟩ | ⟨_, hold⟩
  · rw [hnew] at hstop
    exact absurd hstop.symm Bool.false_ne_true
  · exact hold

/-- The cluster is not running, and no `stop()` waits for workers: then it has
no worker that claims. -/
theorem stopNotRunning (hinv : StopInv cluster s) (inv : ClaimInv s)
    (hrunning : s.running = false)
    (hno : ∀ c < s.stopCalls, (s.stops c).awaitsWorker = false) :
    ClaimInv
      { s.setStop s.stopCalls .returned with stopCalls := s.stopCalls + 1, stopped := true } := by
  refine inv.of_not_claiming hinv (fun hund => hund.not_of_running hrunning) ?_ rfl rfl
    (fun _ => id) ?_ fun _ _ => stoppingWorkers_of_update rfl
  · intro w state loop hobject hclaiming
    obtain ⟨_, hw, hshutting⟩ := inv.claiming w state loop hobject hclaiming
    rcases inv.idle (List.ne_nil_of_mem hw) with htrue | ⟨c, hc⟩
    · exact Bool.false_ne_true (hrunning.symm.trans htrue)
    · cases hstop : s.stops c with
      | stoppingWorkers calls =>
        obtain ⟨stop, hmem, _⟩ := inv.stopping c calls hstop w hw
        have hawaits := hno c (ClusterState.lt_stopCalls hinv.uncalled hstop rfl)
        obtain ⟨call, rest, rfl⟩ := List.exists_cons_of_ne_nil (List.ne_nil_of_mem hmem)
        rw [hstop] at hawaits
        exact Bool.false_ne_true hawaits.symm
      | shuttingDown calls => exact hshutting c calls hstop
      | uncalled | returned =>
        rw [hstop] at hc
        exact Bool.false_ne_true hc
  · refine inv.idle_setStop (Or.inr ?_)
    rw [hinv.uncalled s.stopCalls le_rfl]
    rfl

/-- All workers have stopped, so none of them claims: the `stop()` of a worker
goes on racing while a claim is outstanding. -/
theorem shutdownPublishers {c : ClusterStopId} {calls : List (WorkerId × StopId)}
    (hinv : StopInv cluster s) (inv : ClaimInv s) (hstop : s.stops c = .stoppingWorkers calls)
    (hreturned : ∀ call ∈ calls, ∀ state, s.objects call.1 = some state →
      state.stops call.2 = .returned) :
    ClaimInv (cluster.shutdownPublishers s c) := by
  refine inv.of_not_claiming hinv (ClusterState.not_undisturbed_of_stops hstop rfl) ?_ rfl rfl
    (fun _ => id) (inv.idle_setStop (Or.inl rfl)) fun _ _ => stoppingWorkers_of_update rfl
  intro w state loop hobject hclaiming
  obtain ⟨_, hw, _⟩ := inv.claiming w state loop hobject hclaiming
  obtain ⟨stop, hmem, hlt⟩ := inv.stopping c calls hstop w hw
  have hracing :=
    ((inv.startedOnce w state hobject).claiming loop hclaiming).2 stop (hlt state hobject)
  exact absurd (hracing.symm.trans (hreturned (w, stop) hmem state hobject)) (by simp)

theorem not_claiming_of_shuttingDown {c : ClusterStopId} {calls : List (PublisherId × κ)}
    (inv : ClaimInv s) (hstop : s.stops c = .shuttingDown calls) (w : WorkerId)
    (state : WorkerState) (loop : LoopId) (hobject : s.objects w = some state) :
    state.loops loop ≠ .claiming :=
  fun hclaiming => (inv.claiming w state loop hobject hclaiming).2.2 c calls hstop

theorem shutdownSettled {c : ClusterStopId} {calls calls' : List (PublisherId × κ)}
    {publisher : PublisherId} {call : κ} {ok : Bool} (hinv : StopInv cluster s) (inv : ClaimInv s)
    (hstop : s.stops c = .shuttingDown calls) :
    ClaimInv ((cluster.publisherShutdown s publisher call ok).setStop c (.shuttingDown calls')) :=
  inv.of_not_claiming hinv (ClusterState.not_undisturbed_of_stops hstop rfl)
    (inv.not_claiming_of_shuttingDown hstop) rfl rfl (fun _ => id)
    (inv.idle_setStop (Or.inl rfl)) fun _ _ => stoppingWorkers_of_update rfl

theorem stopReturns {c : ClusterStopId} {calls : List (PublisherId × κ)}
    (hinv : StopInv cluster s) (inv : ClaimInv s) (hstop : s.stops c = .shuttingDown calls) :
    ClaimInv { s.setStop c .returned with workers := [], publishers := [], stopped := true } :=
  inv.of_not_claiming hinv (ClusterState.not_undisturbed_of_stops hstop rfl)
    (inv.not_claiming_of_shuttingDown hstop) rfl rfl (fun _ h => absurd h List.not_mem_nil)
    (absurd rfl) fun _ _ => stoppingWorkers_of_update rfl

/-- A worker claims again in a running cluster only. -/
theorem worker {w : WorkerId} {event : WorkerEvent} {state state' : WorkerState}
    (hinv : StopInv cluster s) (inv : ClaimInv s) (hallowed : NotOvertaken s (.worker w event))
    (hobject : s.objects w = some state) (hreact : state.Reacts event state') :
    ClaimInv { s with objects := Function.update s.objects w (some state') } := by
  refine ⟨?_, ?_, inv.unique, inv.idle, ?_, ?_⟩
  · intro w' state'' hobject'
    rcases update_eq_cases hobject' with ⟨_, hnew⟩ | ⟨_, hold⟩
    · obtain rfl := Option.some.inj hnew
      refine (inv.startedOnce w state hobject).reacts hreact ?_
      rintro stop rfl
      have hnot : ((s.objects w).any fun state => state.awaitsClaim stop) = false := hallowed
      rwa [hobject] at hnot
    · exact inv.startedOnce w' state'' hold
  · intro k hk w' hw' state'' hobject'
    rcases update_eq_cases hobject' with ⟨rfl, _⟩ | ⟨_, hold⟩
    · obtain ⟨worker, rfl⟩ := inv.fresh k hk w' hw' state hobject
      exact (WorkerState.not_reacts_initial hreact).elim
    · exact inv.fresh k hk w' hw' state'' hold
  · intro c calls hstop w' hw'
    obtain ⟨stop, hmem, hlt⟩ := inv.stopping c calls hstop w' hw'
    refine ⟨stop, hmem, fun state'' hobject' => ?_⟩
    rcases update_eq_cases hobject' with ⟨rfl, hnew⟩ | ⟨_, hold⟩
    · obtain rfl := Option.some.inj hnew
      rw [hreact.stopCalls_eq]
      exact hlt state hobject
    · exact hlt state'' hold
  · intro w' state'' loop hobject' hclaiming
    rcases update_eq_cases hobject' with ⟨rfl, hnew⟩ | ⟨_, hold⟩
    · obtain rfl := Option.some.inj hnew
      rcases hreact.claiming hclaiming with hrunning | hold
      · obtain ⟨hw, hund⟩ := hinv.isRunning w' state hobject hrunning
        refine ⟨hund.2.1, hw, fun c calls hstop => ?_⟩
        exact ClusterState.not_undisturbed_of_stops hstop rfl hund
      · exact inv.claiming w' state loop hobject hold
    · exact inv.claiming w' state'' loop hold hclaiming

theorem step {action : ClusterAction} (hinv : StopInv cluster s) (inv : ClaimInv s)
    (hallowed : NotOvertaken s action) (h : cluster.step s action = some s') : ClaimInv s' := by
  cases WorkerCluster.moves_of_step h with
  | startRunning _ => exact inv.startRunning
  | start hrunning => exact inv.start hinv hrunning
  | initialized hstart =>
    rename_i k index publisher call overtaken
    have hovertaken : (s.starts k).isOvertaken = false := hallowed
    rw [hstart] at hovertaken
    obtain rfl : overtaken = false := hovertaken
    exact inv.initialized hinv hstart
  | initializeFailed _ => exact inv.publisherInitialized.setStart rfl
  | startReturns _ _ => exact inv.setStart rfl
  | stop _ => exact inv.stopWorkers
  | stopNotRunning hrunning => exact inv.stopNotRunning hinv hrunning (hallowed hrunning)
  | workersStopped hstop hreturned => exact inv.shutdownPublishers hinv hstop hreturned
  | shutdownSettled ok hstop hcall => exact inv.shutdownSettled hinv hstop
  | stopReturns hstop => exact inv.stopReturns hinv hstop
  | worker hobject hreact => exact inv.worker hinv hallowed hobject hreact

/-- In a stopped cluster no worker runs, and no claim is outstanding. -/
theorem stopIsFinal (hinv : StopInv cluster s) (inv : ClaimInv s) : StopIsFinal s where
  workers hstopped w state hobject hpolls := by
    rcases hpolls with ⟨hrunning, _⟩ | ⟨loop, hclaiming⟩
    · have hund := (hinv.isRunning w state hobject hrunning).2
      rw [hund.2.1] at hstopped
      exact Bool.false_ne_true hstopped
    · rw [(inv.claiming w state loop hobject hclaiming).1] at hstopped
      exact Bool.false_ne_true hstopped
  publishers hstopped := by
    refine List.eq_nil_iff_forall_not_mem.mpr fun publisher hpublisher => ?_
    obtain ⟨_, _, hnot, _⟩ := hinv.unclosed publisher hpublisher
    rw [hnot] at hstopped
    exact Bool.false_ne_true hstopped

end ClaimInv

/-- In a run in which no `initialize` of an overtaken `start()` succeeds, no
`stop()` returns early while another one waits for workers, and no worker gives
up its `stop()` while a claim is outstanding, stopping the cluster is final. -/
theorem stopIsFinal_of_notOvertaken (cluster : WorkerCluster σ κ) {actions : List ClusterAction}
    (hsteps : ∀ s action s',
      cluster.system.TakesStep cluster.initial actions s action s' → NotOvertaken s action)
    {s : ClusterState σ κ} (hs : cluster.system.Visits cluster.initial actions s) :
    StopIsFinal s := by
  have hreachable : cluster.system.ReachableBy NotOvertaken s :=
    System.ReachableBy.visits (.init rfl) hsteps hs
  have hinvs : StopInv cluster s ∧ ClaimInv s := by
    refine hreachable.induct (P := fun s => StopInv cluster s ∧ ClaimInv s) ?_ ?_
    · rintro _ rfl
      exact ⟨.initial cluster, .initial cluster⟩
    · rintro t action t' _ ⟨hinv, inv⟩ hallowed hstep
      exact ⟨hinv.step hallowed hstep, inv.step hinv hallowed hstep⟩
  exact hinvs.2.stopIsFinal hinvs.1

/-- An `initialize` that succeeds in a stopped cluster is never shut down
again, so the condition on it is needed. -/
theorem not_stopIsFinal_of_initialized {s s' : ClusterState σ κ} {k : ClusterStartId}
    (hstopped : s.stopped = true) (h : cluster.step s (.initialized k true) = some s') :
    ¬ StopIsFinal s' := by
  cases WorkerCluster.moves_of_step h with
  | initialized hstart =>
    rename_i index publisher call overtaken
    intro hfinal
    obtain ⟨hunclosed, hstopped'⟩ := cluster.createWorkers_unclosed
      (cluster.addWorker (cluster.publisherInitialized s publisher call true) index publisher)
      k (index + 1) overtaken
    have hnil := hfinal.publishers (hstopped'.trans hstopped)
    rw [hunclosed] at hnil
    exact List.cons_ne_nil _ _ hnil

end Stop

namespace Sample

/-- A cluster with one worker. -/
def cluster : WorkerCluster Unit Unit := ⟨1, "worker", {}, none, publisher, id⟩

/-- The cluster is started and stopped. -/
def orderly : List ClusterAction :=
  [.start, .initialized 0 true, .stop, .worker 0 (.claimFailed 0), .worker 0 (.woke 0),
    .worker 0 (.loopEnded 0), .workersStopped 0, .shutdownSettled 0 0 true, .stopReturns 0]

/-- The cluster is stopped while it initializes its publisher. -/
def stoppedEarly : List ClusterAction :=
  [.start, .stop, .workersStopped 0, .shutdownSettled 0 0 true, .stopReturns 0,
    .initialized 0 true]

end Sample

/-- The cluster that was started and stopped in order stays stopped. -/
theorem stopIsFinal_of_orderly :
    ∃ s, Sample.cluster.system.run Sample.cluster.initial Sample.orderly = some s ∧
      s.stopped = true ∧ StopIsFinal s := by
  have hcheck : ((Sample.cluster.system.run Sample.cluster.initial Sample.orderly).any
      fun s => s.stopped) = true := by decide +kernel
  obtain ⟨s, hrun, hstopped⟩ := (Option.any_eq_true _ _).mp hcheck
  have hallowed : Sample.cluster.system.checkSteps (fun s action => decide (NotOvertaken s action))
      Sample.cluster.initial Sample.orderly = true := by decide +kernel
  refine ⟨s, hrun, hstopped, stopIsFinal_of_notOvertaken Sample.cluster
    ?_ ⟨Sample.orderly, [], rfl, hrun⟩⟩
  intro t action t' htakes
  have hstep := System.of_checkSteps hallowed htakes
  exact of_decide_eq_true hstep

/-- The cluster that was stopped while it started polls. -/
theorem not_forall_stopIsFinal :
    ¬ ∀ (cluster : WorkerCluster Unit Unit) (s : ClusterState Unit Unit),
      cluster.system.Reachable s → StopIsFinal s := by
  intro hfinal
  have hcheck : ((Sample.cluster.system.run Sample.cluster.initial Sample.stoppedEarly).any
      fun s => s.stopped && (s.objects 0).any fun state =>
        state.isRunning && (state.loops 0).live) = true := by decide +kernel
  obtain ⟨s, hrun, hs⟩ := (Option.any_eq_true _ _).mp hcheck
  obtain ⟨hstopped, hworker⟩ := Bool.and_eq_true_iff.mp hs
  obtain ⟨state, hobject, hstate⟩ := (Option.any_eq_true _ _).mp hworker
  obtain ⟨hrunning, hlive⟩ := Bool.and_eq_true_iff.mp hstate
  exact (hfinal Sample.cluster s (System.Reachable.run (.init rfl) hrun)).workers hstopped 0 state
    hobject (Or.inl ⟨hrunning, 0, hlive⟩)

end Outboxy.Lifecycle
