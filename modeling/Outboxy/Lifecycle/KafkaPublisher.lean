import Outboxy.Lifecycle.ClusterStop
import Outboxy.Lifecycle.StartWorker

/-!
# The producers of a shared publisher

`KafkaPublisher.initialize` assigns a new producer to `this.producer` and
connects it.  `shutdown` disconnects the producer that `this.producer` holds
and sets it to `null`.  The cluster calls both once for each worker, and
`startWorker` gives all workers the same publisher.

`ProducersPaired` says that no reference to a connected producer is
overwritten, and that each producer that was connected is disconnected once
when `stop()` has returned.  `producersPaired_iff` takes the runs in which the
calls of `start` and `stop` do not overlap and no `disconnect` fails.  It
shows that the producers are paired in such a run just when no `initialize`
succeeds in a `start()` that has another worker to create, which no
`initialize` does if there is one worker.
-/

namespace Outboxy.Lifecycle

open Transition

/-- Number of a producer, in the order of creation. -/
abbrev ProducerId := Nat

/-- `this.producer`, and a record of the producers: how many were created,
which of them were connected, how often each was disconnected since, and which
references were overwritten while connected. -/
structure KafkaPublisher where
  producer : Option ProducerId
  created : Nat
  connects : List ProducerId
  disconnects : ProducerId → Nat
  overwritten : List ProducerId

namespace KafkaPublisher

/-- The producer was connected, and not disconnected since. -/
def connected (p : KafkaPublisher) (q : ProducerId) : Bool :=
  decide (q ∈ p.connects ∧ p.disconnects q = 0)

/-- Assign to `this.producer`. -/
def setProducer (p : KafkaPublisher) (producer : Option ProducerId) : KafkaPublisher :=
  { p with
    producer := producer
    overwritten := (p.producer.toList.filter p.connected) ++ p.overwritten }

/-- `initialize()` up to `connect()`.  The call keeps the new producer. -/
def initializeCalled (p : KafkaPublisher) : KafkaPublisher × Option ProducerId :=
  ({ p.setProducer (some p.created) with created := p.created + 1 }, some p.created)

/-- `connect()` settles. -/
def initialized (p : KafkaPublisher) (call : Option ProducerId) (ok : Bool) : KafkaPublisher :=
  match call, ok with
  | some q, true =>
    { p with connects := q :: p.connects, disconnects := Function.update p.disconnects q 0 }
  | _, _ => p

/-- `shutdown()` up to `disconnect()`, for which there has to be a producer. -/
def shutdownCalled (p : KafkaPublisher) : KafkaPublisher × Option ProducerId :=
  (p, p.producer)

/-- `disconnect()` settles. -/
def shutdownSettled (p : KafkaPublisher) (call : Option ProducerId) (ok : Bool) : KafkaPublisher :=
  match call, ok with
  | some q, true =>
    KafkaPublisher.setProducer
      { p with disconnects := Function.update p.disconnects q (p.disconnects q + 1) } none
  | _, _ => p

/-- The `KafkaPublisher` as the cluster sees it. -/
def publisher : Publisher KafkaPublisher (Option ProducerId) where
  create := ⟨none, 0, [], fun _ => 0, []⟩
  initializeCalled := initializeCalled
  initialized := initialized
  shutdownCalled := shutdownCalled
  shutdownSettled := shutdownSettled

end KafkaPublisher

/-- The cluster that `startWorker` builds around a `KafkaPublisher`. -/
def kafkaCluster (config : StartConfig) : WorkerCluster KafkaPublisher (Option ProducerId) :=
  WorkerOptions.cluster ⟨KafkaPublisher.publisher, config⟩

/-- The state of a cluster around a `KafkaPublisher`. -/
abbrev KafkaState := ClusterState KafkaPublisher (Option ProducerId)

/-- The only publisher of the cluster. -/
abbrev KafkaState.kafka (s : KafkaState) : KafkaPublisher := s.instances 0

/-- No reference to a connected producer was overwritten, and after a `stop()`
that no `start()` followed, each producer that was connected has been
disconnected once. -/
structure ProducersPaired (s : KafkaState) : Prop where
  overwritten : s.kafka.overwritten = []
  disconnected : s.stopped = true → ∀ q ∈ s.kafka.connects, s.kafka.disconnects q = 1

/-- The answer is to a `disconnect` of a producer that is connected. -/
def KafkaState.disconnects (s : KafkaState) (c : ClusterStopId) (index : Nat) : Bool :=
  match s.stops c with
  | .shuttingDown calls => calls[index]?.any fun call => call.2.any s.kafka.connected
  | _ => false

/-- `start()` and `stop()` do not overlap, and no `disconnect` of a connected
producer fails.  An `initialize` of an overtaken `start()` may fail, and a
call that returns at once, because the cluster is running, overlaps with
nothing. -/
def Orderly (s : KafkaState) : ClusterAction → Prop
  | .start => s.running = false → s.stopInProgress = false
  | .stop => s.running = false → s.stopInProgress = false
  | .initialized k true => (s.starts k).isOvertaken = false
  | .shutdownSettled c index false => s.disconnects c index = false
  | _ => True

/-- The `start()` call has no worker left to create after this one. -/
def ClusterStart.isLast {κ : Type} (workerCount : Nat) : ClusterStart κ → Bool
  | .initializing index _ _ _ => decide (workerCount ≤ index + 1)
  | _ => true

/-- An `initialize` succeeds only in a `start()` that has no worker left to
create. -/
def OnePublisher (config : StartConfig) (s : KafkaState) : ClusterAction → Prop
  | .initialized k true => (s.starts k).isLast config.workerCount = true
  | _ => True

instance (s : KafkaState) : (action : ClusterAction) → Decidable (Orderly s action)
  | .start | .stop => inferInstanceAs (Decidable (_ → _))
  | .initialized _ true | .shutdownSettled _ _ false => inferInstanceAs (Decidable (_ = _))
  | .initialized _ false | .shutdownSettled _ _ true | .startReturns _ | .workersStopped _
  | .stopReturns _ | .worker _ _ => inferInstanceAs (Decidable True)

instance (config : StartConfig) (s : KafkaState) :
    (action : ClusterAction) → Decidable (OnePublisher config s action)
  | .initialized _ true => inferInstanceAs (Decidable (_ = _))
  | .start | .stop | .initialized _ false | .shutdownSettled _ _ _ | .startReturns _
  | .workersStopped _ | .stopReturns _ | .worker _ _ => inferInstanceAs (Decidable True)

/-! ## The publisher -/

namespace KafkaPublisher

variable {p : KafkaPublisher} {q : ProducerId} {call : Option ProducerId} {ok : Bool}

/-- No producer is connected. -/
def Closed (p : KafkaPublisher) : Prop := ∀ q, p.connected q = false

/-- Only the producer that is referenced can be connected, and no producer was
disconnected twice. -/
structure Sound (p : KafkaPublisher) : Prop where
  overwritten : p.overwritten = []
  fresh : ∀ q ∈ p.connects, q < p.created
  referenced : ∀ q, p.connected q = true → p.producer = some q
  unused : ∀ q, p.producer = some q → q ∈ p.connects → p.disconnects q = 0
  once : ∀ q ∈ p.connects, p.disconnects q ≤ 1

theorem connected_iff : p.connected q = true ↔ q ∈ p.connects ∧ p.disconnects q = 0 :=
  decide_eq_true_iff

theorem Closed.setProducer_overwritten (h : p.Closed) (producer : Option ProducerId) :
    (p.setProducer producer).overwritten = p.overwritten := by
  have hfilter : p.producer.toList.filter p.connected = [] :=
    List.filter_eq_nil_iff.mpr fun q _ hq => Bool.false_ne_true ((h q).symm.trans hq)
  show p.producer.toList.filter p.connected ++ p.overwritten = p.overwritten
  rw [hfilter, List.nil_append]

theorem closed_create : publisher.create.Closed := fun _ => rfl

theorem sound_create : publisher.create.Sound where
  overwritten := rfl
  fresh _ h := absurd h List.not_mem_nil
  referenced q h := absurd ((closed_create q).symm.trans h) Bool.false_ne_true
  unused _ h := nomatch h
  once _ h := absurd h List.not_mem_nil

/-- `initialize()` keeps no connected producer from its reference. -/
theorem Sound.initializeCalled (hsound : p.Sound) (hclosed : p.Closed) :
    p.initializeCalled.1.Sound where
  overwritten := (hclosed.setProducer_overwritten (some p.created)).trans hsound.overwritten
  fresh q hq := (hsound.fresh q hq).trans (Nat.lt_succ_self _)
  referenced q hq := absurd ((hclosed q).symm.trans hq) Bool.false_ne_true
  unused q hq hmem := by
    obtain rfl : p.created = q := Option.some.inj hq
    exact absurd (hsound.fresh _ hmem) (Nat.lt_irrefl _)
  once := hsound.once

theorem connected_initialized :
    (p.initialized (some q) true).connected q = true := by
  refine connected_iff.mpr ⟨List.mem_cons_self, ?_⟩
  show Function.update p.disconnects q 0 q = 0
  rw [Function.update_self]

/-- `connect()` succeeds, for a new producer that is still referenced. -/
theorem Sound.initialized (hsound : p.Sound) (hclosed : p.Closed) (hproducer : p.producer = some q)
    (hnew : q < p.created) : (p.initialized (some q) true).Sound := by
  have hcount : ∀ q', (p.initialized (some q) true).disconnects q' =
      Function.update p.disconnects q 0 q' := fun _ => rfl
  refine ⟨hsound.overwritten, ?_, ?_, ?_, ?_⟩
  · intro q' hq'
    rcases List.mem_cons.mp hq' with rfl | hq'
    · exact hnew
    · exact hsound.fresh q' hq'
  · intro q' hq'
    obtain ⟨hmem, hzero⟩ := connected_iff.mp hq'
    rcases update_eq_cases hzero with ⟨rfl, _⟩ | ⟨hne, hold⟩
    · exact hproducer
    · have hmem' : q' ∈ p.connects := (List.mem_cons.mp hmem).resolve_left hne
      exact absurd ((hclosed q').symm.trans (connected_iff.mpr ⟨hmem', hold⟩)) Bool.false_ne_true
  · intro q' hq' _
    obtain rfl : q = q' := Option.some.inj (hproducer.symm.trans hq')
    rw [hcount, Function.update_self]
  · intro q' hq'
    rw [hcount]
    by_cases heq : q' = q
    · rw [heq, Function.update_self]
      exact Nat.zero_le _
    · rw [Function.update_of_ne heq]
      exact hsound.once q' ((List.mem_cons.mp hq').resolve_left heq)

/-- Only the referenced producer has to be disconnected. -/
theorem Sound.closed (hsound : p.Sound) (h : p.producer.any p.connected = false) : p.Closed := by
  intro q
  by_contra hq
  have hconnected := eq_true_of_ne_false hq
  rw [hsound.referenced q hconnected, Option.any_some, hconnected] at h
  exact Bool.false_ne_true h.symm

/-- `disconnect()` of the referenced producer succeeds. -/
theorem Sound.closed_disconnected (hsound : p.Sound) (hproducer : p.producer = some q) :
    KafkaPublisher.Closed
      { p with disconnects := Function.update p.disconnects q (p.disconnects q + 1) } := by
  intro q'
  by_contra hq'
  obtain ⟨hmem, hzero⟩ := connected_iff.mp (eq_true_of_ne_false hq')
  rcases update_eq_cases hzero with ⟨_, hnew⟩ | ⟨hne, hold⟩
  · exact Nat.succ_ne_zero _ hnew
  · have hreferenced := hsound.referenced q' (connected_iff.mpr ⟨hmem, hold⟩)
    exact hne (Option.some.inj (hreferenced.symm.trans hproducer))

/-- After `disconnect()` of the referenced producer, none is connected. -/
theorem Sound.closed_shutdownSettled (hsound : p.Sound)
    (hok : ok = false → p.producer.any p.connected = false) :
    (p.shutdownSettled p.producer ok).Closed := by
  cases hproducer : p.producer with
  | none => exact hsound.closed (by rw [hproducer]; rfl)
  | some q =>
    cases ok with
    | false => exact hsound.closed (hok rfl)
    | true => exact hsound.closed_disconnected hproducer

theorem Sound.shutdownSettled (hsound : p.Sound) : (p.shutdownSettled p.producer ok).Sound := by
  cases hproducer : p.producer with
  | none => exact hsound
  | some q =>
    cases ok with
    | false => exact hsound
    | true =>
      have hclosed := hsound.closed_disconnected hproducer
      refine ⟨(hclosed.setProducer_overwritten none).trans hsound.overwritten, hsound.fresh,
        fun q' hq' => absurd ((hclosed q').symm.trans hq') Bool.false_ne_true,
        fun _ => nofun, ?_⟩
      intro q' hq'
      show Function.update p.disconnects q (p.disconnects q + 1) q' ≤ 1
      by_cases heq : q' = q
      · subst heq
        rw [Function.update_self, hsound.unused q' hproducer hq']
      · rw [Function.update_of_ne heq]
        exact hsound.once q' hq'

end KafkaPublisher

/-! ## The cluster -/

/-- The `start()` call initializes and is not overtaken. -/
def ClusterStart.initializes {κ : Type} : ClusterStart κ → Bool
  | .initializing _ _ _ overtaken => !overtaken
  | _ => false

theorem ClusterStart.initializes_iff {κ : Type} {start : ClusterStart κ} :
    start.initializes = true ↔
      ∃ index publisher call, start = .initializing index publisher call false := by
  cases start with
  | initializing index publisher call overtaken => cases overtaken <;> simp [initializes]
  | _ => simp [initializes]

theorem ClusterStart.ne_initializing {κ : Type} {start : ClusterStart κ} {index : Nat}
    {publisher : PublisherId} {call : κ} (h : start.initializes = false) :
    start ≠ .initializing index publisher call false := by
  rintro rfl
  exact Bool.false_ne_true h.symm

/-- The cluster has the shared publisher at most once, and a connected
producer belongs to a cluster that runs undisturbed, or that a `stop()` is
about to disconnect it from. -/
structure KafkaInv (config : StartConfig) (s : KafkaState) : Prop where
  sound : s.kafka.Sound
  closed : s.kafka.Closed ∨ s.publishers = [0] ∧ s.stopped = false ∧
    (s.Undisturbed ∨ ∃ c, (s.stops c).inProgress = true ∧ s.stops c ≠ .shuttingDown [])
  running : s.running = true → s.Undisturbed
  publishers : s.publishers = [] ∨
    s.publishers = [0] ∧ (s.running = true ∨ ∃ c, (s.stops c).inProgress = true)
  shuttingDown : ∀ c calls, s.stops c = .shuttingDown calls →
    calls = [] ∨ calls = [(0, s.kafka.producer)]
  single : ∀ c c', (s.stops c).inProgress = true → (s.stops c').inProgress = true → c = c'
  initializing : ∀ k index publisher call,
    s.starts k = .initializing index publisher call false →
      index < config.workerCount ∧ publisher = 0 ∧ s.publishers = [0] ∧ s.Undisturbed ∧
        s.kafka.Closed ∧
        ∃ q, call = some q ∧ s.kafka.producer = some q ∧ q < s.kafka.created
  starts : ∀ k k', (s.starts k).initializes = true → (s.starts k').initializes = true → k = k'
  uncalled : ∀ c, s.stopCalls ≤ c → s.stops c = .uncalled

namespace KafkaInv

variable {config : StartConfig} {s s' : KafkaState}

theorem initial (config : StartConfig) : KafkaInv config (kafkaCluster config).initial where
  sound := KafkaPublisher.sound_create
  closed := Or.inl KafkaPublisher.closed_create
  running h := absurd h Bool.false_ne_true
  publishers := Or.inl rfl
  shuttingDown _ _ h := nomatch h
  single _ _ h := absurd h Bool.false_ne_true
  initializing _ _ _ _ h := nomatch h
  starts _ _ h := absurd h Bool.false_ne_true
  uncalled _ _ := rfl

/-- A stopped cluster has no connected producer, and each was disconnected
once. -/
theorem producersPaired (inv : KafkaInv config s) : ProducersPaired s where
  overwritten := inv.sound.overwritten
  disconnected hstopped q hq := by
    have hclosed : s.kafka.Closed := by
      rcases inv.closed with hclosed | ⟨_, hnot, _⟩
      · exact hclosed
      · rw [hnot] at hstopped
        exact absurd hstopped Bool.false_ne_true
    have hne : s.kafka.disconnects q ≠ 0 := by
      intro hzero
      have hconnected := KafkaPublisher.connected_iff.mpr ⟨hq, hzero⟩
      exact Bool.false_ne_true ((hclosed q).symm.trans hconnected)
    have hle := inv.sound.once q hq
    omega

/-- A step that concerns neither the publisher nor `stop()`, and that begins no
initialization. -/
theorem frame (inv : KafkaInv config s) (hkafka : s'.kafka = s.kafka)
    (hpublishers : s'.publishers = s.publishers) (hrunning : s'.running = s.running)
    (hstopped : s'.stopped = s.stopped) (hstops : s'.stops = s.stops)
    (hstopCalls : s'.stopCalls = s.stopCalls)
    (hstarts : ∀ k, (s'.starts k).initializes = true → s'.starts k = s.starts k) :
    KafkaInv config s' := by
  have hund : s'.Undisturbed ↔ s.Undisturbed := by
    unfold ClusterState.Undisturbed
    rw [hrunning, hstopped, hstops]
  constructor
  · rw [hkafka]
    exact inv.sound
  · rw [hkafka, hpublishers, hstopped, hund, hstops]
    exact inv.closed
  · rw [hrunning, hund]
    exact inv.running
  · rw [hpublishers, hrunning, hstops]
    exact inv.publishers
  · rw [hstops, hkafka]
    exact inv.shuttingDown
  · rw [hstops]
    exact inv.single
  · intro k index publisher call hstart
    have hsame := hstarts k (by rw [hstart]; rfl)
    rw [hpublishers, hund, hkafka]
    exact inv.initializing k index publisher call (hsame.symm.trans hstart)
  · intro k k' hk hk'
    refine inv.starts k k' ?_ ?_
    · rw [← hstarts k hk]
      exact hk
    · rw [← hstarts k' hk']
      exact hk'
  · rw [hstopCalls, hstops]
    exact inv.uncalled

/-- A `start()` call that ends begins no initialization. -/
theorem starts_of_update {k : ClusterStartId} {start : ClusterStart (Option ProducerId)}
    (hstart : start.initializes = false) (k' : ClusterStartId)
    (h : (Function.update s.starts k start k').initializes = true) :
    Function.update s.starts k start k' = s.starts k' := by
  by_cases heq : k' = k
  · rw [heq, Function.update_self, hstart] at h
    exact absurd h Bool.false_ne_true
  · exact Function.update_of_ne heq _ _

/-- Without a `stop()` in progress, a cluster that does not run has no
publisher and no connected producer. -/
theorem closed_of_idle (inv : KafkaInv config s) (hrunning : s.running = false)
    (hidle : s.stopInProgress = false) : s.publishers = [] ∧ s.kafka.Closed := by
  have hnone := ClusterState.inProgress_eq_false inv.uncalled hidle
  have hno : ¬ ∃ c, (s.stops c).inProgress = true := by
    rintro ⟨c, hc⟩
    exact Bool.false_ne_true ((hnone c).symm.trans hc)
  constructor
  · rcases inv.publishers with hnil | ⟨_, hrun | hc⟩
    · exact hnil
    · exact absurd (hrunning.symm.trans hrun) Bool.false_ne_true
    · exact absurd hc hno
  · rcases inv.closed with hclosed | ⟨_, _, hund | ⟨c, hc, _⟩⟩
    · exact hclosed
    · exact (hund.not_of_running hrunning).elim
    · exact absurd ⟨c, hc⟩ hno

/-- Only an undisturbed cluster initializes. -/
theorem initializes_eq_false (inv : KafkaInv config s) (h : ¬ s.Undisturbed)
    (k : ClusterStartId) : (s.starts k).initializes = false := by
  by_contra hk
  obtain ⟨index, publisher, call, hstart⟩ :=
    ClusterStart.initializes_iff.mp (eq_true_of_ne_false hk)
  obtain ⟨_, _, _, hund, _⟩ := inv.initializing k index publisher call hstart
  exact h hund

theorem startWorkers (inv : KafkaInv config s) (k : ClusterStartId) :
    KafkaInv config (WorkerCluster.startWorkers s k) :=
  inv.frame rfl rfl rfl rfl rfl rfl (starts_of_update rfl)

/-- `start()` of an idle cluster sets its flags. -/
theorem setRunning (inv : KafkaInv config s) (hrunning : s.running = false)
    (hidle : s.stopInProgress = false) :
    KafkaInv config
      { s with running := true, startCalls := s.startCalls + 1, stopped := false } := by
  obtain ⟨hnil, hclosed⟩ := inv.closed_of_idle hrunning hidle
  have hnone := ClusterState.inProgress_eq_false inv.uncalled hidle
  have hno := inv.initializes_eq_false fun hund => hund.not_of_running hrunning
  refine ⟨inv.sound, Or.inl hclosed, fun _ => ⟨rfl, rfl, hnone⟩, Or.inl hnil, inv.shuttingDown,
    inv.single, ?_, inv.starts, inv.uncalled⟩
  intro k index publisher call hstart
  exact absurd hstart (ClusterStart.ne_initializing (hno k))

/-- The `initialize` call for the first worker. -/
theorem createFirst (inv : KafkaInv config s) (hund : s.Undisturbed) (hclosed : s.kafka.Closed)
    (hnil : s.publishers = []) (hno : ∀ k, (s.starts k).initializes = false)
    (k : ClusterStartId) :
    KafkaInv config ((kafkaCluster config).createWorkers s k 0 false) := by
  unfold WorkerCluster.createWorkers
  split
  · rename_i hcount
    have hkafka : Function.update s.instances 0 s.kafka.initializeCalled.1 0 =
        s.kafka.initializeCalled.1 := Function.update_self _ _ _
    have hsingle : s.publishers ++ [0] = [0] := by
      rw [hnil]
      rfl
    refine ⟨?_, Or.inl ?_, fun _ => hund, Or.inr ⟨hsingle, Or.inl hund.1⟩, ?_, inv.single, ?_,
      ?_, inv.uncalled⟩
    · show (Function.update s.instances 0 s.kafka.initializeCalled.1 0).Sound
      rw [hkafka]
      exact inv.sound.initializeCalled hclosed
    · show (Function.update s.instances 0 s.kafka.initializeCalled.1 0).Closed
      rw [hkafka]
      exact hclosed
    · intro c calls hstop
      exact absurd hund (ClusterState.not_undisturbed_of_stops hstop rfl)
    · intro k' index publisher call hstart
      rcases update_eq_cases hstart with ⟨_, hnew⟩ | ⟨_, hold⟩
      · obtain ⟨rfl, rfl, rfl, _⟩ := ClusterStart.initializing.inj hnew
        refine ⟨hcount, rfl, hsingle, hund, ?_, s.kafka.created, rfl, ?_, ?_⟩
        · show (Function.update s.instances 0 s.kafka.initializeCalled.1 0).Closed
          rw [hkafka]
          exact hclosed
        · show (Function.update s.instances 0 s.kafka.initializeCalled.1 0).producer = _
          rw [hkafka]
          rfl
        · show _ < (Function.update s.instances 0 s.kafka.initializeCalled.1 0).created
          rw [hkafka]
          exact Nat.lt_succ_self _
      · exact absurd hold (ClusterStart.ne_initializing (hno k'))
    · have honly : ∀ l, ((Function.update s.starts k
          (.initializing 0 0 (some s.kafka.created) false)) l).initializes = true → l = k := by
        intro l hl
        by_contra heq
        rw [Function.update_of_ne heq, hno l] at hl
        exact Bool.false_ne_true hl
      intro l l' hl hl'
      rw [honly l hl, honly l' hl']
  · exact inv.startWorkers k

/-- `start()` of an idle cluster. -/
theorem start (inv : KafkaInv config s) (hrunning : s.running = false)
    (hidle : s.stopInProgress = false) :
    KafkaInv config ((kafkaCluster config).createWorkers
      { s with running := true, startCalls := s.startCalls + 1, stopped := false }
      s.startCalls 0 s.stopInProgress) := by
  obtain ⟨hnil, hclosed⟩ := inv.closed_of_idle hrunning hidle
  have hnone := ClusterState.inProgress_eq_false inv.uncalled hidle
  have hno := inv.initializes_eq_false fun hund => hund.not_of_running hrunning
  rw [hidle]
  exact (inv.setRunning hrunning hidle).createFirst ⟨rfl, rfl, hnone⟩ hclosed hnil hno _

theorem startRunning (inv : KafkaInv config s) (hrunning : s.running = true) :
    KafkaInv config
      { s.setStart s.startCalls .returned with
        startCalls := s.startCalls + 1, stopped := false } :=
  inv.frame rfl rfl rfl (inv.running hrunning).2.1.symm rfl rfl (starts_of_update rfl)

theorem worker (inv : KafkaInv config s) (objects : WorkerId → Option WorkerState) :
    KafkaInv config { s with objects := objects } :=
  inv.frame rfl rfl rfl rfl rfl rfl fun _ _ => rfl

theorem startReturns (inv : KafkaInv config s) (k : ClusterStartId) :
    KafkaInv config (s.setStart k .returned) :=
  inv.frame rfl rfl rfl rfl rfl rfl (starts_of_update rfl)

/-- A failed `connect()` leaves the publisher as it is. -/
theorem initializeFailed (inv : KafkaInv config s) (k : ClusterStartId) (publisher : PublisherId)
    (call : Option ProducerId) :
    KafkaInv config
      (((kafkaCluster config).publisherInitialized s publisher call false).setStart k .threw) := by
  refine inv.frame ?_ rfl rfl rfl rfl rfl (starts_of_update rfl)
  have hsame : (s.instances publisher).initialized call false = s.instances publisher := by
    cases call <;> rfl
  show Function.update s.instances publisher ((s.instances publisher).initialized call false) 0 = _
  rw [hsame, Function.update_eq_self]

/-- The last `connect()` of a `start()` succeeds. -/
theorem connect (inv : KafkaInv config s) {k : ClusterStartId} {index : Nat} {q : ProducerId}
    (hstart : s.starts k = .initializing index 0 (some q) false)
    (start : ClusterStart (Option ProducerId)) (hend : start.initializes = false) :
    KafkaInv config
      (((kafkaCluster config).publisherInitialized s 0 (some q) true).setStart k start) := by
  obtain ⟨_, _, hpublishers, hund, hclosed, q', hq', hproducer, hnew⟩ :=
    inv.initializing k index 0 (some q) hstart
  obtain rfl := Option.some.inj hq'
  have hkafka : Function.update s.instances 0 (s.kafka.initialized (some q) true) 0 =
      s.kafka.initialized (some q) true := Function.update_self _ _ _
  have hno : ∀ l, ((Function.update s.starts k start) l).initializes = false := by
    intro l
    by_cases heq : l = k
    · rw [heq, Function.update_self]
      exact hend
    · rw [Function.update_of_ne heq]
      by_contra hl
      exact heq (inv.starts l k (eq_true_of_ne_false hl) (by rw [hstart]; rfl))
  refine ⟨?_, Or.inr ⟨hpublishers, hund.2.1, Or.inl hund⟩, fun _ => hund,
    Or.inr ⟨hpublishers, Or.inl hund.1⟩, ?_, inv.single, ?_, ?_, inv.uncalled⟩
  · show (Function.update s.instances 0 (s.kafka.initialized (some q) true) 0).Sound
    rw [hkafka]
    exact inv.sound.initialized hclosed hproducer hnew
  · intro c calls hstop
    exact absurd hund (ClusterState.not_undisturbed_of_stops hstop rfl)
  · intro l index publisher call hl
    exact absurd hl (ClusterStart.ne_initializing (hno l))
  · intro l l' hl
    exact absurd ((hno l).symm.trans hl) Bool.false_ne_true

/-- The producer of the last worker is connected, and the workers start. -/
theorem initialized (inv : KafkaInv config s) {k : ClusterStartId} {index : Nat}
    {publisher : PublisherId} {call : Option ProducerId}
    (hstart : s.starts k = .initializing index publisher call false)
    (hlast : config.workerCount ≤ index + 1) :
    KafkaInv config ((kafkaCluster config).createWorkers
      ((kafkaCluster config).addWorker
        ((kafkaCluster config).publisherInitialized s publisher call true) index publisher)
      k (index + 1) false) := by
  obtain ⟨_, rfl, _, _, _, q, rfl, _⟩ := inv.initializing k index publisher call hstart
  have hcount : (kafkaCluster config).workerCount ≤ index + 1 := hlast
  rw [WorkerCluster.createWorkers_of_le _ hcount]
  refine (inv.connect hstart .returned rfl).frame rfl rfl rfl rfl rfl rfl fun l hl => ?_
  by_cases heq : l = k
  · subst heq
    have hl' : ClusterStart.initializes (Function.update s.starts l (.awaiting _) l) = true := hl
    rw [Function.update_self] at hl'
    exact absurd hl' Bool.false_ne_true
  · show Function.update s.starts k _ l = Function.update s.starts k _ l
    rw [Function.update_of_ne heq, Function.update_of_ne heq]

/-- Another worker is left to create, so `initialize` overwrites the producer
that was just connected. -/
theorem not_producersPaired_initialized (inv : KafkaInv config s) {k : ClusterStartId}
    {index : Nat} {publisher : PublisherId} {call : Option ProducerId}
    (hstart : s.starts k = .initializing index publisher call false)
    (hlast : ¬ config.workerCount ≤ index + 1) :
    ¬ ProducersPaired ((kafkaCluster config).createWorkers
      ((kafkaCluster config).addWorker
        ((kafkaCluster config).publisherInitialized s publisher call true) index publisher)
      k (index + 1) false) := by
  obtain ⟨_, rfl, _, _, _, q, rfl, hproducer, _⟩ := inv.initializing k index publisher call hstart
  have hcount : index + 1 < (kafkaCluster config).workerCount := Nat.lt_of_not_le hlast
  intro hpaired
  have hkafka : (s.kafka.initialized (some q) true).initializeCalled.1.overwritten = [] := by
    rw [← hpaired.overwritten]
    simp only [KafkaState.kafka, WorkerCluster.instances_createWorkers_of_lt _ hcount]
    show _ = (Function.update (Function.update s.instances 0 _) 0
      (KafkaPublisher.initializeCalled (Function.update s.instances 0 _ 0)).1 0).overwritten
    rw [Function.update_self, Function.update_self]
    rfl
  have hmem : q ∈ (s.kafka.initialized (some q) true).initializeCalled.1.overwritten := by
    refine List.mem_append_left _ (List.mem_filter.mpr ⟨?_, KafkaPublisher.connected_initialized⟩)
    exact Option.mem_toList.mpr hproducer
  rw [hkafka] at hmem
  exact List.not_mem_nil hmem

/-- `stop()` of a running cluster. -/
theorem stopWorkers (inv : KafkaInv config s) (hrunning : s.running = true) :
    KafkaInv config (WorkerCluster.stopWorkers s) := by
  have hund := inv.running hrunning
  have hstops : ∀ c, (WorkerCluster.stopWorkers s).stops c =
      Function.update s.stops s.stopCalls (.stoppingWorkers
        (s.workers.map fun w => (w, ((s.objects w).map WorkerState.stopCalls).getD 0))) c :=
    fun _ => rfl
  have hself : (WorkerCluster.stopWorkers s).stops s.stopCalls = .stoppingWorkers
      (s.workers.map fun w => (w, ((s.objects w).map WorkerState.stopCalls).getD 0)) := by
    rw [hstops, Function.update_self]
  have honly : ∀ c, ((WorkerCluster.stopWorkers s).stops c).inProgress = true →
      c = s.stopCalls := by
    intro c hc
    by_contra hne
    rw [hstops, Function.update_of_ne hne, hund.2.2 c] at hc
    exact Bool.false_ne_true hc
  have hprogress : ∃ c, ((WorkerCluster.stopWorkers s).stops c).inProgress = true :=
    ⟨s.stopCalls, by rw [hself]; rfl⟩
  have hno : ∀ k, ((WorkerCluster.stopWorkers s).starts k).initializes = false := by
    intro k
    show (s.starts k).overtake.initializes = false
    cases s.starts k <;> rfl
  refine ⟨inv.sound, ?_, fun h => absurd h Bool.false_ne_true, ?_, ?_, ?_, ?_, ?_, ?_⟩
  · refine inv.closed.imp id ?_
    rintro ⟨hpublishers, hstopped, _⟩
    refine ⟨hpublishers, hstopped, Or.inr ⟨s.stopCalls, by rw [hself]; rfl, ?_⟩⟩
    rw [hself]
    exact nofun
  · exact inv.publishers.imp id fun h => ⟨h.1, Or.inr hprogress⟩
  · intro c calls hstop
    obtain rfl := honly c (by rw [hstop]; rfl)
    exact nomatch hself.symm.trans hstop
  · intro c c' hc hc'
    rw [honly c hc, honly c' hc']
  · intro k index publisher call hstart
    exact absurd hstart (ClusterStart.ne_initializing (hno k))
  · intro k k' hk
    exact absurd ((hno k).symm.trans hk) Bool.false_ne_true
  · exact ClusterState.uncalled_of_update inv.uncalled (Nat.lt_succ_self _) (Nat.le_succ _)

/-- A step of a `stop()` call in a disturbed cluster. -/
theorem of_stop {c : ClusterStopId} {stop : ClusterStop (Option ProducerId)}
    (inv : KafkaInv config s) (hnot : ¬ s.Undisturbed) (hrunning : s'.running = s.running)
    (hstarts : s'.starts = s.starts) (hstops : s'.stops = Function.update s.stops c stop)
    (hold : (s.stops c).inProgress = true ∨ stop.inProgress = false)
    (sound : s'.kafka.Sound)
    (closed : s'.kafka.Closed ∨ s'.publishers = [0] ∧ s'.stopped = false ∧
      (s'.Undisturbed ∨ ∃ c, (s'.stops c).inProgress = true ∧ s'.stops c ≠ .shuttingDown []))
    (publishers : s'.publishers = [] ∨
      s'.publishers = [0] ∧ (s'.running = true ∨ ∃ c, (s'.stops c).inProgress = true))
    (shuttingDown : ∀ c calls, s'.stops c = .shuttingDown calls →
      calls = [] ∨ calls = [(0, s'.kafka.producer)])
    (uncalled : ∀ c, s'.stopCalls ≤ c → s'.stops c = .uncalled) : KafkaInv config s' := by
  have hno : ∀ k, (s'.starts k).initializes = false := by
    rw [hstarts]
    exact inv.initializes_eq_false hnot
  have hprogress : ∀ c', (s'.stops c').inProgress = true → (s.stops c').inProgress = true := by
    intro c' hc'
    rw [hstops] at hc'
    rcases update_cases (P := fun stop => ClusterStop.inProgress stop = true) hc' with
      ⟨rfl, hnew⟩ | ⟨_, hc'⟩
    · exact hold.resolve_right fun h => Bool.false_ne_true (h.symm.trans hnew)
    · exact hc'
  refine ⟨sound, closed, ?_, publishers, shuttingDown, ?_, ?_, ?_, uncalled⟩
  · intro h
    rw [hrunning] at h
    exact absurd (inv.running h) hnot
  · intro c₁ c₂ h₁ h₂
    exact inv.single c₁ c₂ (hprogress c₁ h₁) (hprogress c₂ h₂)
  · intro k index publisher call hstart
    exact absurd hstart (ClusterStart.ne_initializing (hno k))
  · intro k k' hk
    exact absurd ((hno k).symm.trans hk) Bool.false_ne_true

theorem stopNotRunning (inv : KafkaInv config s) (hrunning : s.running = false)
    (hidle : s.stopInProgress = false) :
    KafkaInv config
      { s.setStop s.stopCalls .returned with stopCalls := s.stopCalls + 1, stopped := true } := by
  obtain ⟨hnil, hclosed⟩ := inv.closed_of_idle hrunning hidle
  refine inv.of_stop (c := s.stopCalls) (fun hund => hund.not_of_running hrunning) rfl rfl rfl
    (Or.inr rfl) inv.sound (Or.inl hclosed) (Or.inl hnil) ?_ ?_
  · intro c calls hstop
    rcases update_eq_cases hstop with ⟨_, hnew⟩ | ⟨_, hold⟩
    · exact nomatch hnew
    · exact inv.shuttingDown c calls hold
  · exact ClusterState.uncalled_of_update inv.uncalled (Nat.lt_succ_self _) (Nat.le_succ _)

section InProgress

variable {c : ClusterStopId} {stop stop' : ClusterStop (Option ProducerId)}

/-- The `stop()` call in progress is the only one. -/
theorem eq_of_shuttingDown (inv : KafkaInv config s) (hstop : s.stops c = stop)
    (hprogress : stop.inProgress = true) {c' : ClusterStopId}
    {calls : List (PublisherId × Option ProducerId)}
    (h : Function.update s.stops c stop' c' = .shuttingDown calls) :
    stop' = .shuttingDown calls := by
  have heq : c' = c := by
    by_contra hne
    rw [Function.update_of_ne hne] at h
    exact hne (inv.single c' c (by rw [h]; rfl) (by rw [hstop]; exact hprogress))
  rw [heq, Function.update_self] at h
  exact h

theorem uncalled_of_inProgress (inv : KafkaInv config s) (hstop : s.stops c = stop)
    (hprogress : stop.inProgress = true) (c' : ClusterStopId) (hc' : s.stopCalls ≤ c') :
    Function.update s.stops c stop' c' = .uncalled :=
  ClusterState.uncalled_of_update inv.uncalled
    (ClusterState.lt_stopCalls inv.uncalled hstop hprogress) le_rfl c' hc'

end InProgress

/-- The publisher is shut down, if the cluster has it. -/
theorem shutdownPublishers {c : ClusterStopId} {calls : List (WorkerId × StopId)}
    (inv : KafkaInv config s) (hstop : s.stops c = .stoppingWorkers calls) :
    KafkaInv config ((kafkaCluster config).shutdownPublishers s c) := by
  have hnot := ClusterState.not_undisturbed_of_stops hstop rfl
  have hself : ∀ stop, (Function.update s.stops c stop) c = stop :=
    fun _ => Function.update_self _ _ _
  unfold WorkerCluster.shutdownPublishers
  rcases inv.publishers with hnil | ⟨hone, _⟩
  · have hclosed : s.kafka.Closed := by
      rcases inv.closed with hclosed | ⟨hone, _⟩
      · exact hclosed
      · exact absurd (hnil.symm.trans hone) (by simp)
    rw [hnil]
    refine inv.of_stop (c := c) hnot rfl rfl rfl (Or.inl (by rw [hstop]; rfl)) inv.sound
      (Or.inl hclosed) (Or.inl hnil) ?_ (inv.uncalled_of_inProgress hstop rfl)
    intro c' calls' hstop'
    obtain rfl := ClusterStop.shuttingDown.inj (inv.eq_of_shuttingDown hstop rfl hstop')
    exact Or.inl rfl
  · have hkafka : Function.update s.instances 0 s.kafka = s.instances :=
      Function.update_eq_self _ _
    have hcalls : (kafkaCluster config).shutdownAll [0] s.instances =
        (s.instances, [(0, s.kafka.producer)]) :=
      Prod.ext hkafka rfl
    rw [hone, hcalls]
    refine inv.of_stop (c := c) hnot rfl rfl rfl (Or.inl (by rw [hstop]; rfl)) inv.sound
      ?_ (Or.inr ⟨hone, Or.inr ⟨c, ?_⟩⟩) ?_ (inv.uncalled_of_inProgress hstop rfl)
    · refine inv.closed.imp id ?_
      rintro ⟨_, hstopped, _⟩
      refine ⟨hone, hstopped, Or.inr ⟨c, ?_, ?_⟩⟩
      · show (Function.update s.stops c _ c).inProgress = true
        rw [hself]
        rfl
      · show Function.update s.stops c _ c ≠ _
        rw [hself]
        simp
    · show (Function.update s.stops c _ c).inProgress = true
      rw [hself]
      rfl
    · intro c' calls' hstop'
      obtain rfl := ClusterStop.shuttingDown.inj (inv.eq_of_shuttingDown hstop rfl hstop')
      exact Or.inr rfl

/-- The `disconnect()` of the referenced producer settles. -/
theorem shutdownSettled {c : ClusterStopId} {index : Nat}
    {calls : List (PublisherId × Option ProducerId)} {publisher : PublisherId}
    {call : Option ProducerId} {ok : Bool} (inv : KafkaInv config s)
    (hstop : s.stops c = .shuttingDown calls) (hcall : calls[index]? = some (publisher, call))
    (hok : ok = false → s.disconnects c index = false) :
    KafkaInv config (((kafkaCluster config).publisherShutdown s publisher call ok).setStop c
      (.shuttingDown (calls.eraseIdx index))) := by
  have hnot := ClusterState.not_undisturbed_of_stops hstop rfl
  rcases inv.shuttingDown c calls hstop with rfl | rfl
  · exact nomatch hcall
  · cases index with
    | succ index => exact nomatch hcall
    | zero =>
      obtain ⟨rfl, rfl⟩ := Prod.mk.inj (Option.some.inj hcall)
      have hconnected : ok = false → s.kafka.producer.any s.kafka.connected = false := by
        intro hfalse
        rw [← hok hfalse, KafkaState.disconnects, hstop]
        rfl
      have hkafka : Function.update s.instances 0
          (s.kafka.shutdownSettled s.kafka.producer ok) 0 =
            s.kafka.shutdownSettled s.kafka.producer ok := Function.update_self _ _ _
      refine inv.of_stop (c := c) hnot rfl rfl rfl (Or.inl (by rw [hstop]; rfl)) ?_
        (Or.inl ?_) ?_ ?_ (inv.uncalled_of_inProgress hstop rfl)
      · show (Function.update s.instances 0 (s.kafka.shutdownSettled s.kafka.producer ok) 0).Sound
        rw [hkafka]
        exact inv.sound.shutdownSettled
      · show (Function.update s.instances 0 (s.kafka.shutdownSettled s.kafka.producer ok) 0).Closed
        rw [hkafka]
        exact inv.sound.closed_shutdownSettled hconnected
      · refine inv.publishers.imp id fun h => ⟨h.1, Or.inr ⟨c, ?_⟩⟩
        show (Function.update s.stops c _ c).inProgress = true
        rw [Function.update_self]
        rfl
      · intro c' calls' hstop'
        obtain rfl := ClusterStop.shuttingDown.inj (inv.eq_of_shuttingDown hstop rfl hstop')
        exact Or.inl rfl

/-- `stop()` returns when nothing is connected any more. -/
theorem stopReturns {c : ClusterStopId} (inv : KafkaInv config s)
    (hstop : s.stops c = .shuttingDown []) :
    KafkaInv config
      { s.setStop c .returned with workers := [], publishers := [], stopped := true } := by
  have hnot := ClusterState.not_undisturbed_of_stops hstop rfl
  have hclosed : s.kafka.Closed := by
    rcases inv.closed with hclosed | ⟨_, _, hund | ⟨c', hc', hne⟩⟩
    · exact hclosed
    · exact absurd hund hnot
    · obtain rfl := inv.single c' c hc' (by rw [hstop]; rfl)
      exact absurd hstop hne
  refine inv.of_stop (c := c) hnot rfl rfl rfl (Or.inr rfl) inv.sound (Or.inl hclosed)
    (Or.inl rfl) ?_ (inv.uncalled_of_inProgress hstop rfl)
  intro c' calls' hstop'
  exact nomatch inv.eq_of_shuttingDown hstop rfl hstop'

theorem step {action : ClusterAction} (inv : KafkaInv config s) (horderly : Orderly s action)
    (hone : OnePublisher config s action) (h : (kafkaCluster config).step s action = some s') :
    KafkaInv config s' := by
  cases WorkerCluster.moves_of_step h with
  | startRunning hrunning => exact inv.startRunning hrunning
  | start hrunning => exact inv.start hrunning (horderly hrunning)
  | initialized hstart =>
    rename_i k index publisher call overtaken
    have hovertaken : (s.starts k).isOvertaken = false := horderly
    have hlast : (s.starts k).isLast config.workerCount = true := hone
    rw [hstart] at hovertaken hlast
    obtain rfl : overtaken = false := hovertaken
    exact inv.initialized hstart (of_decide_eq_true hlast)
  | initializeFailed hstart => exact inv.initializeFailed _ _ _
  | startReturns hstart hended => exact inv.startReturns _
  | stop hrunning => exact inv.stopWorkers hrunning
  | stopNotRunning hrunning => exact inv.stopNotRunning hrunning (horderly hrunning)
  | workersStopped hstop _ => exact inv.shutdownPublishers hstop
  | shutdownSettled ok hstop hcall =>
    refine inv.shutdownSettled hstop hcall ?_
    rintro rfl
    exact horderly
  | stopReturns hstop => exact inv.stopReturns hstop
  | worker hobject hreact => exact inv.worker _

/-- After an orderly step that is not allowed, a connected producer has been
overwritten. -/
theorem violated_of_step {action : ClusterAction} (inv : KafkaInv config s)
    (h : (kafkaCluster config).step s action = some s') (horderly : Orderly s action)
    (hnot : ¬ OnePublisher config s action) : ¬ ProducersPaired s' := by
  cases WorkerCluster.moves_of_step h with
  | initialized hstart =>
    rename_i k index publisher call overtaken
    have hovertaken : (s.starts k).isOvertaken = false := horderly
    have hlast : ¬ (s.starts k).isLast config.workerCount = true := hnot
    rw [hstart] at hovertaken hlast
    obtain rfl : overtaken = false := hovertaken
    exact inv.not_producersPaired_initialized hstart fun hle => hlast (decide_eq_true hle)
  | _ => exact absurd trivial hnot

end KafkaInv

theorem kafkaInv_of_reachableBy {config : StartConfig} {s : KafkaState}
    (hs : (kafkaCluster config).system.ReachableBy
      (fun s action => Orderly s action ∧ OnePublisher config s action) s) :
    KafkaInv config s := by
  refine hs.induct ?_ ?_
  · rintro _ rfl
    exact .initial config
  · intro t action t' _ inv hallowed hstep
    exact inv.step hallowed.1 hallowed.2 hstep

/-- In an orderly run, the producers are paired just when no `initialize`
succeeds in a `start()` with another worker to create. -/
theorem producersPaired_iff (config : StartConfig) {actions : List ClusterAction}
    (horderly : ∀ s action s', (kafkaCluster config).system.TakesStep
      (kafkaCluster config).initial actions s action s' → Orderly s action) :
    (∀ s, (kafkaCluster config).system.Visits (kafkaCluster config).initial actions s →
        ProducersPaired s) ↔
      ∀ s action s', (kafkaCluster config).system.TakesStep
        (kafkaCluster config).initial actions s action s' → OnePublisher config s action :=
  System.ReachableBy.forall_visits_iff
    (fun _ hs => (kafkaInv_of_reachableBy hs).producersPaired)
    (fun _ _ _ hs hstep horderly hnot =>
      (kafkaInv_of_reachableBy hs).violated_of_step hstep horderly hnot)
    (.init rfl) horderly

/-- With at most one worker, no `start()` has another one to create. -/
theorem onePublisher_of_workerCount_le {config : StartConfig} (hcount : config.workerCount ≤ 1)
    (s : KafkaState) (action : ClusterAction) : OnePublisher config s action := by
  cases action with
  | initialized k ok =>
    cases ok with
    | false => trivial
    | true =>
      show (s.starts k).isLast config.workerCount = true
      cases s.starts k with
      | initializing index publisher call overtaken => exact decide_eq_true (by omega)
      | _ => rfl
  | _ => trivial

namespace Sample

/-- Start and stop two workers that share a publisher. -/
def twoWorkers : List ClusterAction :=
  [.start, .initialized 0 true, .initialized 0 true, .stop,
    .worker 0 (.claimFailed 0), .worker 0 (.woke 0), .worker 0 (.loopEnded 0),
    .worker 1 (.claimFailed 0), .worker 1 (.woke 0), .worker 1 (.loopEnded 0),
    .workersStopped 0, .shutdownSettled 0 0 true, .shutdownSettled 0 0 true, .stopReturns 0]

end Sample

/-- One worker is started and stopped in order, and its producer is
disconnected once. -/
theorem producersPaired_of_one_worker :
    ∃ s : KafkaState, (kafkaCluster { workerIdPrefix := "worker" }).system.run
        (kafkaCluster { workerIdPrefix := "worker" }).initial Sample.orderly = some s ∧
      s.stopped = true ∧ s.kafka.connects = [0] ∧ ProducersPaired s := by
  have hcheck : (((kafkaCluster { workerIdPrefix := "worker" }).system.run
      (kafkaCluster { workerIdPrefix := "worker" }).initial Sample.orderly).any
        fun s : KafkaState => decide (s.stopped = true ∧ s.kafka.connects = [0])) = true := by
    decide +kernel
  obtain ⟨s, hrun, hs⟩ := (Option.any_eq_true _ _).mp hcheck
  obtain ⟨hstopped, hconnects⟩ := of_decide_eq_true hs
  have hallowed : (kafkaCluster { workerIdPrefix := "worker" }).system.checkSteps
      (fun s action => decide (Orderly s action))
      (kafkaCluster { workerIdPrefix := "worker" }).initial Sample.orderly = true := by
    decide +kernel
  refine ⟨s, hrun, hstopped, hconnects, (producersPaired_iff { workerIdPrefix := "worker" }
    ?_).mpr ?_ s ⟨Sample.orderly, [], rfl, hrun⟩⟩
  · intro t action t' htakes
    have hstep := System.of_checkSteps hallowed htakes
    exact of_decide_eq_true hstep
  · intro t action t' _
    exact onePublisher_of_workerCount_le le_rfl t action

/-- With two workers, `stop()` returns although the first producer was never
disconnected, and the second one was disconnected twice. -/
theorem not_forall_producersPaired :
    ¬ ∀ (config : StartConfig) (s : KafkaState),
      (kafkaCluster config).system.Reachable s → ProducersPaired s := by
  intro hpaired
  have hcheck : (((kafkaCluster { workerCount := 2, workerIdPrefix := "worker" }).system.run
      (kafkaCluster { workerCount := 2, workerIdPrefix := "worker" }).initial
      Sample.twoWorkers).any fun s : KafkaState =>
        decide (s.stopped = true ∧ 0 ∈ s.kafka.connects ∧ s.kafka.disconnects 0 = 0 ∧
          s.kafka.disconnects 1 = 2 ∧ s.kafka.overwritten = [0])) = true := by
    decide +kernel
  obtain ⟨s, hrun, hs⟩ := (Option.any_eq_true _ _).mp hcheck
  obtain ⟨hstopped, hmem, hzero, _⟩ := of_decide_eq_true hs
  have hdisconnected := (hpaired { workerCount := 2, workerIdPrefix := "worker" } s
    (System.Reachable.run (.init rfl) hrun)).disconnected hstopped 0 hmem
  rw [hzero] at hdisconnected
  exact absurd hdisconnected (by decide)

end Outboxy.Lifecycle
