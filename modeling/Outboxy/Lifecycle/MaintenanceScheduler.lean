import Mathlib.Algebra.GroupWithZero.Nat
import Mathlib.Algebra.BigOperators.Group.List.Basic
import Outboxy.Library.Transition

/-!
# The maintenance scheduler

`createMaintenanceScheduler` runs three jobs on intervals of their own.
`start` sets the intervals and `stop` clears them.  A tick of an interval
calls the adapter and awaits the number of rows that it changed.

Only the stale recovery has a flag that skips a tick while a call is in
flight.  Only the first timer of a job is remembered, so `start` on a running
scheduler leaves the old intervals to themselves.

There are four groups.

* The code.  `MaintenanceScheduler.step` is one call of `start` or `stop`,
  one tick or one answer.
* The account.  `account_of_reachable` relates the calls, the flag and the
  counters of the metrics in every reachable state.
* Ownership.  `owned_of_reachable` holds as long as nobody starts a scheduler
  that runs, and `silent_iff` says what it is good for.
* The result.  `silent_along_iff` tells the runs that `stop` can end.
-/

namespace Outboxy.Lifecycle

open Transition

/-! ## The code -/

structure MaintenanceSchedulerConfig where
  staleRecoveryIntervalMs : ℤ
  staleEventThresholdMs : ℤ
  idempotencyCleanupEnabled : Bool
  idempotencyCleanupIntervalMs : ℤ
  idempotencyRetentionDays : ℤ
  inboxCleanupEnabled : Bool
  inboxCleanupIntervalMs : ℤ
  inboxRetentionDays : ℤ
deriving DecidableEq

/-- The jobs of the scheduler. -/
inductive MaintenanceJob where
  | staleRecovery
  | idempotencyCleanup
  | inboxCleanup
deriving DecidableEq

/-- A call of `MaintenanceOperations`. -/
inductive MaintenanceCall where
  | recoverStaleEvents (thresholdMs : ℤ)
  | cleanupStaleIdempotencyKeys (retentionDays : ℤ)
  | cleanupProcessedInboxEvents (retentionDays : ℤ)
deriving DecidableEq

/-- What `setInterval` returns. -/
abbrev TimerId := Nat

/-- An interval that was set and not cleared. -/
structure Interval where
  id : TimerId
  job : MaintenanceJob
  intervalMs : ℤ
deriving DecidableEq

/-- The variables of a scheduler, with the intervals that run and the calls
that await an answer. -/
structure MaintenanceScheduler where
  config : MaintenanceSchedulerConfig
  /-- The adapter implements `cleanupProcessedInboxEvents`. -/
  cleansInbox : Bool
  /-- `staleRecoveryTimer`, `idempotencyCleanupTimer` and `inboxCleanupTimer`. -/
  timers : MaintenanceJob → Option TimerId
  staleRecoveryRunning : Bool
  intervals : List Interval
  created : TimerId
  inFlight : List MaintenanceJob
  /-- `staleEventsRecovered`, `idempotencyKeysCleaned` and
  `inboxEventsCleaned`, if there are metrics. -/
  metrics : Option (MaintenanceJob → Nat)
  /-- The calls made so far. -/
  calls : List MaintenanceCall
  /-- The answers so far: a count, or nothing where the call rejected. -/
  answers : List (MaintenanceJob × Option Nat)

/-- A call of the scheduler, a tick or an answer. -/
inductive SchedulerEvent where
  | start
  | stop
  | tick (id : TimerId)
  /-- The call in flight at `index` returns `count`, or rejects. -/
  | settled (index : Nat) (count : Option Nat)
deriving DecidableEq

namespace MaintenanceSchedulerConfig

variable (config : MaintenanceSchedulerConfig)

/-- The period of a job. -/
def intervalMs : MaintenanceJob → ℤ
  | .staleRecovery => config.staleRecoveryIntervalMs
  | .idempotencyCleanup => config.idempotencyCleanupIntervalMs
  | .inboxCleanup => config.inboxCleanupIntervalMs

/-- What a tick of a job calls. -/
def call : MaintenanceJob → MaintenanceCall
  | .staleRecovery => .recoverStaleEvents config.staleEventThresholdMs
  | .idempotencyCleanup => .cleanupStaleIdempotencyKeys config.idempotencyRetentionDays
  | .inboxCleanup => .cleanupProcessedInboxEvents config.inboxRetentionDays

/-- `start` sets an interval for the job. -/
def enabled (cleansInbox : Bool) : MaintenanceJob → Bool
  | .staleRecovery => true
  | .idempotencyCleanup => config.idempotencyCleanupEnabled
  | .inboxCleanup => config.inboxCleanupEnabled && cleansInbox

end MaintenanceSchedulerConfig

/-- `createMaintenanceScheduler`. -/
def createMaintenanceScheduler (config : MaintenanceSchedulerConfig) (cleansInbox metrics : Bool) :
    MaintenanceScheduler where
  config := config
  cleansInbox := cleansInbox
  timers := fun _ => none
  staleRecoveryRunning := false
  intervals := []
  created := 0
  inFlight := []
  metrics := if metrics then some fun _ => 0 else none
  calls := []
  answers := []

namespace MaintenanceScheduler

variable (s : MaintenanceScheduler) (job : MaintenanceJob)

/-- `setInterval`, and the timer that remembers it. -/
def setInterval : MaintenanceScheduler :=
  { s with
    timers := Function.update s.timers job (some s.created)
    intervals := s.intervals ++ [⟨s.created, job, s.config.intervalMs job⟩]
    created := s.created + 1 }

/-- `clearInterval` of the timer of the job, if it is set. -/
def stopJob : MaintenanceScheduler :=
  match s.timers job with
  | none => s
  | some id =>
    { s with
      timers := Function.update s.timers job none
      intervals := s.intervals.filter fun interval => interval.id != id }

def startStaleRecovery : MaintenanceScheduler :=
  s.setInterval .staleRecovery

def stopStaleRecovery : MaintenanceScheduler :=
  s.stopJob .staleRecovery

def startIdempotencyCleanup : MaintenanceScheduler :=
  if !s.config.idempotencyCleanupEnabled then s else s.setInterval .idempotencyCleanup

def stopIdempotencyCleanup : MaintenanceScheduler :=
  s.stopJob .idempotencyCleanup

def startInboxCleanup : MaintenanceScheduler :=
  if !s.config.inboxCleanupEnabled then s
  else if !s.cleansInbox then s
  else s.setInterval .inboxCleanup

def stopInboxCleanup : MaintenanceScheduler :=
  s.stopJob .inboxCleanup

def start : MaintenanceScheduler :=
  s.startStaleRecovery.startIdempotencyCleanup.startInboxCleanup

def stop : MaintenanceScheduler :=
  s.stopStaleRecovery.stopIdempotencyCleanup.stopInboxCleanup

/-- The callback of an interval, up to its `await`. -/
def onTick : MaintenanceScheduler :=
  match job with
  | .staleRecovery =>
    if s.staleRecoveryRunning then s
    else
      { s with
        staleRecoveryRunning := true
        inFlight := s.inFlight ++ [job]
        calls := s.calls ++ [s.config.call job] }
  | _ => { s with inFlight := s.inFlight ++ [job], calls := s.calls ++ [s.config.call job] }

/-- `metrics?.….inc(count)` of a count that is positive. -/
def inc (count : Nat) : MaintenanceScheduler :=
  if 0 < count then
    { s with metrics := s.metrics.map fun m => Function.update m job (m job + count) }
  else s

/-- The callback of an interval, from its `await` on.  The `finally` of the
stale recovery runs whatever the call did. -/
def onSettled (count : Option Nat) : MaintenanceScheduler :=
  let s := match count with
    | some count => s.inc job count
    | none => s
  match job with
  | .staleRecovery => { s with staleRecoveryRunning := false }
  | _ => s

def step : MaintenanceScheduler → SchedulerEvent → Option MaintenanceScheduler
  | s, .start => some s.start
  | s, .stop => some s.stop
  | s, .tick id => (s.intervals.find? fun interval => interval.id == id).map fun interval =>
      s.onTick interval.job
  | s, .settled index count => s.inFlight[index]?.map fun job =>
      { s with
        inFlight := s.inFlight.eraseIdx index
        answers := s.answers ++ [(job, count)] }.onSettled job count

/-! ## The steps -/

@[simp] theorem stopJob_timers :
    (s.stopJob job).timers = Function.update s.timers job none := by
  rw [stopJob]
  cases h : s.timers job with
  | none =>
    funext other
    by_cases hother : other = job
    · rw [hother, Function.update_self, h]
    · rw [Function.update_of_ne hother]
  | some id => rfl

@[simp] theorem mem_stopJob_intervals (i : Interval) :
    i ∈ (s.stopJob job).intervals ↔ i ∈ s.intervals ∧ s.timers job ≠ some i.id := by
  rw [stopJob]
  cases h : s.timers job with
  | none => simp
  | some id =>
    simp only [List.mem_filter, bne_iff_ne, ne_eq, Option.some.injEq]
    rw [eq_comm]

/-- What clearing an interval leaves alone. -/
theorem stopJob_frame :
    (s.stopJob job).config = s.config ∧ (s.stopJob job).cleansInbox = s.cleansInbox ∧
      (s.stopJob job).staleRecoveryRunning = s.staleRecoveryRunning ∧
      (s.stopJob job).created = s.created ∧ (s.stopJob job).inFlight = s.inFlight ∧
      (s.stopJob job).metrics = s.metrics ∧ (s.stopJob job).calls = s.calls ∧
      (s.stopJob job).answers = s.answers := by
  rw [stopJob]
  cases s.timers job <;> simp

/-- What `stop` does to the timers holds of each job by itself. -/
theorem stop_induct {P : MaintenanceScheduler → Prop} (hstop : ∀ s job, P s → P (s.stopJob job))
    (hs : P s) : P s.stop :=
  hstop _ _ (hstop _ _ (hstop _ _ hs))

private theorem eq_true_of_not_not {b : Bool} (h : ¬ (!b) = true) : b = true := by
  simpa using h

/-- `start` sets intervals of enabled jobs only. -/
theorem start_induct {P : MaintenanceScheduler → Prop}
    (hset : ∀ s job, s.config.enabled s.cleansInbox job = true → P s → P (s.setInterval job))
    (hs : P s) : P s.start := by
  have hrecovery : P s.startStaleRecovery := hset s .staleRecovery rfl hs
  have hidempotency : P s.startStaleRecovery.startIdempotencyCleanup := by
    rw [startIdempotencyCleanup]
    split
    · exact hrecovery
    · next h => exact hset _ .idempotencyCleanup (eq_true_of_not_not h) hrecovery
  rw [start, startInboxCleanup]
  split
  · exact hidempotency
  · next hconfig =>
    split
    · exact hidempotency
    · next hadapter =>
      exact hset _ .inboxCleanup (Bool.and_eq_true_iff.mpr
        ⟨eq_true_of_not_not hconfig, eq_true_of_not_not hadapter⟩) hidempotency

theorem start_timers_staleRecovery : s.start.timers .staleRecovery = some s.created := by
  have hidempotency : ∀ t : MaintenanceScheduler,
      t.startIdempotencyCleanup.timers .staleRecovery = t.timers .staleRecovery := by
    intro t
    rw [startIdempotencyCleanup]
    split <;> rfl
  have hinbox : ∀ t : MaintenanceScheduler,
      t.startInboxCleanup.timers .staleRecovery = t.timers .staleRecovery := by
    intro t
    rw [startInboxCleanup]
    split
    · rfl
    · split <;> rfl
  rw [start, hinbox, hidempotency]
  rfl

@[simp] theorem stop_timers : s.stop.timers = fun _ => none := by
  funext job
  cases job <;> simp [stop, stopStaleRecovery, stopIdempotencyCleanup, stopInboxCleanup,
    Function.update]

theorem mem_stop_intervals (i : Interval) :
    i ∈ s.stop.intervals ↔ i ∈ s.intervals ∧ ∀ job, s.timers job ≠ some i.id := by
  simp only [stop, stopStaleRecovery, stopIdempotencyCleanup, stopInboxCleanup,
    mem_stopJob_intervals, stopJob_timers]
  constructor
  · rintro ⟨⟨⟨hi, hrecovery⟩, hidempotency⟩, hinbox⟩
    refine ⟨hi, fun job => ?_⟩
    cases job with
    | staleRecovery => exact hrecovery
    | idempotencyCleanup => simpa using hidempotency
    | inboxCleanup => simpa using hinbox
  · rintro ⟨hi, htimers⟩
    exact ⟨⟨⟨hi, htimers .staleRecovery⟩, by simpa using htimers .idempotencyCleanup⟩,
      by simpa using htimers .inboxCleanup⟩

/-- What `stop` leaves alone. -/
theorem stop_frame : s.stop.config = s.config ∧
    s.stop.staleRecoveryRunning = s.staleRecoveryRunning ∧ s.stop.inFlight = s.inFlight ∧
    s.stop.calls = s.calls := by
  refine s.stop_induct (P := fun t => t.config = s.config ∧
    t.staleRecoveryRunning = s.staleRecoveryRunning ∧ t.inFlight = s.inFlight ∧
    t.calls = s.calls) ?_ ⟨rfl, rfl, rfl, rfl⟩
  rintro t job ⟨hconfig, hrunning, hflight, hcalls⟩
  obtain ⟨hconfig', -, hrunning', -, hflight', -, hcalls', -⟩ := t.stopJob_frame job
  exact ⟨hconfig'.trans hconfig, hrunning'.trans hrunning, hflight'.trans hflight,
    hcalls'.trans hcalls⟩

/-- The flag that an answer resets. -/
theorem onSettled_staleRecoveryRunning (count : Option Nat) :
    (s.onSettled job count).staleRecoveryRunning =
      (if job = .staleRecovery then false else s.staleRecoveryRunning) := by
  have hinc : ∀ count, (s.inc job count).staleRecoveryRunning = s.staleRecoveryRunning := by
    intro count
    rw [inc]
    split <;> rfl
  cases count <;> cases job <;> simp [onSettled, hinc]

/-- The counter that an answer moves. -/
theorem onSettled_metrics (count : Option Nat) :
    (s.onSettled job count).metrics =
      s.metrics.map fun m => Function.update m job (m job + count.getD 0) := by
  have hzero : (s.metrics.map fun m => Function.update m job (m job + 0)) = s.metrics := by
    simp
  have hinc : ∀ count, (s.inc job count).metrics =
      s.metrics.map fun m => Function.update m job (m job + count) := by
    intro count
    rw [inc]
    split
    · rfl
    · next h =>
      obtain rfl : count = 0 := by omega
      exact hzero.symm
  cases count with
  | none => cases job <;> exact hzero.symm
  | some count => cases job <;> exact hinc count

/-- What an answer leaves alone. -/
theorem onSettled_frame (count : Option Nat) :
    (s.onSettled job count).config = s.config ∧
      (s.onSettled job count).cleansInbox = s.cleansInbox ∧
      (s.onSettled job count).timers = s.timers ∧
      (s.onSettled job count).intervals = s.intervals ∧
      (s.onSettled job count).created = s.created ∧
      (s.onSettled job count).inFlight = s.inFlight ∧
      (s.onSettled job count).calls = s.calls ∧
      (s.onSettled job count).answers = s.answers := by
  have hinc : ∀ count, (s.inc job count).config = s.config ∧
      (s.inc job count).cleansInbox = s.cleansInbox ∧ (s.inc job count).timers = s.timers ∧
      (s.inc job count).intervals = s.intervals ∧ (s.inc job count).created = s.created ∧
      (s.inc job count).inFlight = s.inFlight ∧ (s.inc job count).calls = s.calls ∧
      (s.inc job count).answers = s.answers := by
    intro count
    rw [inc]
    split <;> simp
  cases count with
  | none => cases job <;> simp [onSettled]
  | some count => cases job <;> exact hinc count

/-- What a tick leaves alone. -/
theorem onTick_frame :
    (s.onTick job).config = s.config ∧ (s.onTick job).timers = s.timers ∧
      (s.onTick job).intervals = s.intervals ∧ (s.onTick job).created = s.created := by
  cases job with
  | staleRecovery =>
    rw [onTick]
    split <;> simp
  | idempotencyCleanup => exact ⟨rfl, rfl, rfl, rfl⟩
  | inboxCleanup => exact ⟨rfl, rfl, rfl, rfl⟩

/-- The ticks and the answers, by the interval and the job they are for. -/
theorem step_cases {s s' : MaintenanceScheduler} {event : SchedulerEvent}
    (hstep : s.step event = some s') :
    (event = .start ∧ s' = s.start) ∨ (event = .stop ∧ s' = s.stop) ∨
      (∃ i ∈ s.intervals, event = .tick i.id ∧ s' = s.onTick i.job) ∨
      ∃ index job count, event = .settled index count ∧ s.inFlight[index]? = some job ∧
        s' = { s with
          inFlight := s.inFlight.eraseIdx index
          answers := s.answers ++ [(job, count)] }.onSettled job count := by
  cases event with
  | start => exact Or.inl ⟨rfl, (Option.some.inj hstep).symm⟩
  | stop => exact Or.inr (Or.inl ⟨rfl, (Option.some.inj hstep).symm⟩)
  | tick id =>
    obtain ⟨i, hfind, rfl⟩ := Option.map_eq_some_iff.mp hstep
    have hid : i.id = id := by simpa using List.find?_some hfind
    exact Or.inr (Or.inr (Or.inl ⟨i, List.mem_of_find?_eq_some hfind, by rw [hid], rfl⟩))
  | settled index count =>
    obtain ⟨job, hjob, rfl⟩ := Option.map_eq_some_iff.mp hstep
    exact Or.inr (Or.inr (Or.inr ⟨index, job, count, rfl, hjob, rfl⟩))

end MaintenanceScheduler

/-- A scheduler from its creation on. -/
def scheduler : System MaintenanceScheduler SchedulerEvent where
  init s := ∃ config cleansInbox metrics,
    s = createMaintenanceScheduler config cleansInbox metrics
  step := MaintenanceScheduler.step

/-! ## The account -/

/-- The number of rows that the answers report for a job. -/
def changedRows (answers : List (MaintenanceJob × Option Nat)) (job : MaintenanceJob) : Nat :=
  ((answers.filter fun answer => answer.1 = job).map fun answer => answer.2.getD 0).sum

theorem changedRows_append (answers : List (MaintenanceJob × Option Nat)) (job : MaintenanceJob)
    (count : Option Nat) (other : MaintenanceJob) :
    changedRows (answers ++ [(job, count)]) other =
      changedRows answers other + if job = other then count.getD 0 else 0 := by
  rw [changedRows, changedRows, List.filter_append, List.map_append, List.sum_append]
  by_cases h : job = other <;> simp [h]

/-- What the calls, the flag and the metrics of a scheduler have to do with
each other. -/
structure Account (s : MaintenanceScheduler) : Prop where
  /-- At most one stale recovery is in flight, and the flag says whether. -/
  running : s.inFlight.count .staleRecovery = if s.staleRecoveryRunning then 1 else 0
  /-- Every call is in flight or has one answer, and passes what the
  configuration says. -/
  calls : ((s.answers.map Prod.fst ++ s.inFlight).map s.config.call).Perm s.calls
  /-- Nothing is called for a job that is not enabled. -/
  enabled : ∀ job ∈ s.answers.map Prod.fst ++ s.inFlight,
    s.config.enabled s.cleansInbox job = true
  intervals : ∀ i ∈ s.intervals, s.config.enabled s.cleansInbox i.job = true ∧
    i.intervalMs = s.config.intervalMs i.job
  /-- The counters add up what the calls returned. -/
  metrics : ∀ m, s.metrics = some m → ∀ job, m job = changedRows s.answers job

namespace Account

variable {s : MaintenanceScheduler} {job : MaintenanceJob}

theorem setInterval (h : Account s) (hjob : s.config.enabled s.cleansInbox job = true) :
    Account (s.setInterval job) := by
  refine ⟨h.running, h.calls, h.enabled, ?_, h.metrics⟩
  intro i hi
  rcases List.mem_append.mp hi with hi | hi
  · exact h.intervals i hi
  · obtain rfl := List.mem_singleton.mp hi
    exact ⟨hjob, rfl⟩

theorem stopJob (h : Account s) : Account (s.stopJob job) := by
  obtain ⟨hconfig, hcleans, hrunning, -, hflight, hmetrics, hcalls, hanswers⟩ := s.stopJob_frame job
  constructor
  · rw [hflight, hrunning]
    exact h.running
  · rw [hanswers, hflight, hconfig, hcalls]
    exact h.calls
  · rw [hanswers, hflight, hconfig, hcleans]
    exact h.enabled
  · intro i hi
    rw [hconfig, hcleans]
    exact h.intervals i ((s.mem_stopJob_intervals job i).mp hi).1
  · rw [hmetrics, hanswers]
    exact h.metrics

/-- A call that a tick makes. -/
theorem onTick (h : Account s) (hjob : s.config.enabled s.cleansInbox job = true) :
    Account (s.onTick job) := by
  have hcalls : ((s.answers.map Prod.fst ++ (s.inFlight ++ [job])).map s.config.call).Perm
      (s.calls ++ [s.config.call job]) := by
    rw [← List.append_assoc, List.map_append]
    exact h.calls.append_right _
  have henabled : ∀ other ∈ s.answers.map Prod.fst ++ (s.inFlight ++ [job]),
      s.config.enabled s.cleansInbox other = true := by
    intro other hother
    rw [← List.append_assoc] at hother
    rcases List.mem_append.mp hother with hother | hother
    · exact h.enabled other hother
    · rw [List.mem_singleton.mp hother]
      exact hjob
  have hother : job ≠ .staleRecovery →
      (s.inFlight ++ [job]).count .staleRecovery = if s.staleRecoveryRunning then 1 else 0 := by
    intro hne
    rw [List.count_append, List.count_singleton, h.running]
    simp [hne]
  cases job with
  | staleRecovery =>
    rw [MaintenanceScheduler.onTick]
    cases hflag : s.staleRecoveryRunning with
    | true => exact h
    | false =>
      refine ⟨?_, hcalls, henabled, h.intervals, h.metrics⟩
      have hnone : s.inFlight.count .staleRecovery = 0 := by rw [h.running, hflag]; rfl
      simp [hnone]
  | idempotencyCleanup => exact ⟨hother (by decide), hcalls, henabled, h.intervals, h.metrics⟩
  | inboxCleanup => exact ⟨hother (by decide), hcalls, henabled, h.intervals, h.metrics⟩

/-- An answer. -/
theorem settled (h : Account s) {index : Nat} (count : Option Nat)
    (hindex : s.inFlight[index]? = some job) :
    Account ({ s with
      inFlight := s.inFlight.eraseIdx index
      answers := s.answers ++ [(job, count)] }.onSettled job count) := by
  obtain ⟨hconfig, hcleans, -, hintervals, -, hflight, hcalls, hanswers⟩ :=
    MaintenanceScheduler.onSettled_frame { s with
      inFlight := s.inFlight.eraseIdx index
      answers := s.answers ++ [(job, count)] } job count
  have hperm : (job :: s.inFlight.eraseIdx index).Perm s.inFlight := by
    obtain ⟨hlt, rfl⟩ := List.getElem?_eq_some_iff.mp hindex
    exact List.getElem_cons_eraseIdx_perm hlt
  have hmoved : ((s.answers ++ [(job, count)]).map Prod.fst ++ s.inFlight.eraseIdx index).Perm
      (s.answers.map Prod.fst ++ s.inFlight) := by
    rw [List.map_append, List.append_assoc]
    exact hperm.append_left _
  constructor
  · rw [hflight, MaintenanceScheduler.onSettled_staleRecoveryRunning]
    have hcount := hperm.count_eq .staleRecovery
    rw [List.count_cons, h.running] at hcount
    dsimp only
    by_cases hjob : job = .staleRecovery
    · rw [hjob] at hcount ⊢
      cases hflag : s.staleRecoveryRunning <;> simp [hflag] at hcount ⊢
      exact hcount
    · simpa [hjob] using hcount
  · rw [hanswers, hflight, hconfig, hcalls]
    exact (hmoved.map _).trans h.calls
  · rw [hanswers, hflight, hconfig, hcleans]
    exact fun other hother => h.enabled other (hmoved.mem_iff.mp hother)
  · rw [hintervals, hconfig, hcleans]
    exact h.intervals
  · rw [MaintenanceScheduler.onSettled_metrics, hanswers]
    intro m hm other
    obtain ⟨m', hm', rfl⟩ := Option.map_eq_some_iff.mp hm
    dsimp only
    rw [changedRows_append]
    by_cases hother : other = job
    · rw [hother, Function.update_self, h.metrics m' hm', if_pos rfl]
    · rw [Function.update_of_ne hother, h.metrics m' hm', if_neg fun heq => hother heq.symm,
        Nat.add_zero]

end Account

/-- In every state, at most one stale recovery is in flight.  Each call has at
most one answer, and the counters are the sums of the answers. -/
theorem account_of_reachable {s : MaintenanceScheduler} (hs : scheduler.Reachable s) :
    Account s := by
  refine System.ReachableBy.induct ?_ ?_ hs
  · rintro s ⟨config, cleansInbox, metrics, rfl⟩
    refine ⟨rfl, List.Perm.refl _, fun job hjob => by simp [createMaintenanceScheduler] at hjob,
      fun i hi => by simp [createMaintenanceScheduler] at hi, fun m hm job => ?_⟩
    cases metrics with
    | false => simp [createMaintenanceScheduler] at hm
    | true =>
      obtain rfl := Option.some.inj hm
      rfl
  · intro s event s' _ h _ hstep
    rcases MaintenanceScheduler.step_cases hstep with ⟨-, rfl⟩ | ⟨-, rfl⟩ | ⟨i, hi, -, rfl⟩ |
      ⟨index, job, count, -, hindex, rfl⟩
    · exact s.start_induct (fun t job hjob ht => ht.setInterval hjob) h
    · exact s.stop_induct (fun t job ht => ht.stopJob) h
    · exact h.onTick (h.intervals i hi).1
    · exact h.settled count hindex

/-- A scheduler without cleanups, and with metrics. -/
def Sample.recoveryOnly : MaintenanceScheduler :=
  createMaintenanceScheduler
    { staleRecoveryIntervalMs := 60000, staleEventThresholdMs := 300000
      idempotencyCleanupEnabled := false, idempotencyCleanupIntervalMs := 86400000
      idempotencyRetentionDays := 30, inboxCleanupEnabled := true
      inboxCleanupIntervalMs := 86400000, inboxRetentionDays := 30 } false true

/-- The second tick is skipped, since the call of the first one is in flight. -/
theorem account_of_reachable_skipped : ∃ s,
    scheduler.run Sample.recoveryOnly [.start, .tick 0, .tick 0, .settled 0 (some 3)] = some s ∧
      s.calls = [.recoverStaleEvents 300000] ∧ Account s := by
  have hinit : scheduler.Reachable Sample.recoveryOnly := .init ⟨_, _, _, rfl⟩
  refine ⟨_, rfl, rfl, account_of_reachable (hinit.run (?_ : scheduler.run _
    [.start, .tick 0, .tick 0, .settled 0 (some 3)] = some _))⟩
  rfl

/-! ## Timers and intervals -/

/-- A timer that is set is an interval of its job. -/
structure Timers (s : MaintenanceScheduler) : Prop where
  fresh : ∀ i ∈ s.intervals, i.id < s.created
  unique : ∀ i ∈ s.intervals, ∀ j ∈ s.intervals, i.id = j.id → i = j
  set : ∀ job id, s.timers job = some id → ∃ i ∈ s.intervals, i.job = job ∧ i.id = id

/-- Every interval is the one that the timer of its job remembers. -/
def Owned (s : MaintenanceScheduler) : Prop :=
  ∀ i ∈ s.intervals, s.timers i.job = some i.id

namespace Timers

variable {s : MaintenanceScheduler} {job : MaintenanceJob}

theorem setInterval (h : Timers s) : Timers (s.setInterval job) := by
  constructor
  · intro i hi
    rcases List.mem_append.mp hi with hi | hi
    · exact Nat.lt_succ_of_lt (h.fresh i hi)
    · rw [List.mem_singleton.mp hi]
      exact Nat.lt_succ_self _
  · intro i hi j hj hid
    rcases List.mem_append.mp hi with hi | hi <;> rcases List.mem_append.mp hj with hj | hj
    · exact h.unique i hi j hj hid
    · rw [List.mem_singleton.mp hj] at hid
      exact absurd hid (Nat.ne_of_lt (h.fresh i hi))
    · rw [List.mem_singleton.mp hi] at hid
      exact absurd hid.symm (Nat.ne_of_lt (h.fresh j hj))
    · rw [List.mem_singleton.mp hi, List.mem_singleton.mp hj]
  · intro other id hid
    rcases update_eq_cases hid with ⟨rfl, hnew⟩ | ⟨-, hold⟩
    · exact ⟨_, List.mem_append_right _ (List.mem_singleton_self _), rfl, Option.some.inj hnew⟩
    · obtain ⟨i, hi, hjob, rfl⟩ := h.set other id hold
      exact ⟨i, List.mem_append_left _ hi, hjob, rfl⟩

theorem stopJob (h : Timers s) : Timers (s.stopJob job) := by
  obtain ⟨-, -, -, hcreated, -⟩ := s.stopJob_frame job
  have hmem : ∀ i ∈ (s.stopJob job).intervals, i ∈ s.intervals := fun i hi =>
    ((s.mem_stopJob_intervals job i).mp hi).1
  refine ⟨fun i hi => hcreated ▸ h.fresh i (hmem i hi),
    fun i hi j hj => h.unique i (hmem i hi) j (hmem j hj), fun other id hid => ?_⟩
  rw [MaintenanceScheduler.stopJob_timers] at hid
  rcases update_eq_cases hid with ⟨-, hnone⟩ | ⟨hne, hold⟩
  · exact absurd hnone.symm (Option.some_ne_none id)
  · obtain ⟨i, hi, hjob, rfl⟩ := h.set other id hold
    refine ⟨i, (s.mem_stopJob_intervals job i).mpr ⟨hi, fun heq => ?_⟩, hjob, rfl⟩
    -- A timer of another job would be this very interval.
    obtain ⟨j, hj, hjjob, hjid⟩ := h.set job i.id heq
    rw [h.unique j hj i hi hjid, hjob] at hjjob
    exact hne hjjob

/-- Ticks and answers change neither. -/
theorem of_eq {s' : MaintenanceScheduler} (h : Timers s) (hintervals : s'.intervals = s.intervals)
    (htimers : s'.timers = s.timers) (hcreated : s'.created = s.created) : Timers s' :=
  ⟨by rw [hintervals, hcreated]; exact h.fresh, by rw [hintervals]; exact h.unique,
    by rw [hintervals, htimers]; exact h.set⟩

end Timers

theorem timers_of_reachable {s : MaintenanceScheduler} (hs : scheduler.Reachable s) :
    Timers s := by
  refine System.ReachableBy.induct ?_ ?_ hs
  · rintro s ⟨config, cleansInbox, metrics, rfl⟩
    refine ⟨fun i hi => ?_, fun i hi => ?_, fun job id hid => ?_⟩
    · simp [createMaintenanceScheduler] at hi
    · simp [createMaintenanceScheduler] at hi
    · exact absurd hid.symm (Option.some_ne_none id)
  · intro s event s' _ h _ hstep
    rcases MaintenanceScheduler.step_cases hstep with ⟨-, rfl⟩ | ⟨-, rfl⟩ | ⟨i, hi, -, rfl⟩ |
      ⟨index, job, count, -, hindex, rfl⟩
    · exact s.start_induct (fun t job _ ht => ht.setInterval) h
    · exact s.stop_induct (fun t job ht => ht.stopJob) h
    · obtain ⟨-, htimers, hintervals, hcreated⟩ := s.onTick_frame i.job
      exact h.of_eq hintervals htimers hcreated
    · obtain ⟨-, -, htimers, hintervals, hcreated, -⟩ := MaintenanceScheduler.onSettled_frame
        { s with
          inFlight := s.inFlight.eraseIdx index
          answers := s.answers ++ [(job, count)] } job count
      exact h.of_eq hintervals htimers hcreated

/-- The stale recovery is enabled in every configuration, so its timer says
whether the scheduler runs. -/
theorem timers_eq_none_of_reachable {s : MaintenanceScheduler} (hs : scheduler.Reachable s)
    (hnone : s.timers .staleRecovery = none) (job : MaintenanceJob) : s.timers job = none := by
  revert hnone job
  refine System.ReachableBy.induct
    (P := fun s => s.timers .staleRecovery = none → ∀ job, s.timers job = none) ?_ ?_ hs
  · rintro s ⟨config, cleansInbox, metrics, rfl⟩ - job
    rfl
  · intro s event s' _ h _ hstep hnone
    rcases MaintenanceScheduler.step_cases hstep with ⟨-, rfl⟩ | ⟨-, rfl⟩ | ⟨i, hi, -, rfl⟩ |
      ⟨index, job, count, -, hindex, rfl⟩
    · rw [s.start_timers_staleRecovery] at hnone
      exact absurd hnone (Option.some_ne_none _)
    · rw [s.stop_timers]
      exact fun _ => rfl
    · obtain ⟨-, htimers, -⟩ := s.onTick_frame i.job
      rw [htimers] at hnone ⊢
      exact h hnone
    · obtain ⟨-, -, htimers, -⟩ := MaintenanceScheduler.onSettled_frame
        { s with
          inFlight := s.inFlight.eraseIdx index
          answers := s.answers ++ [(job, count)] } job count
      rw [htimers] at hnone ⊢
      exact h hnone

/-- With its timers, `stop` clears every interval just when it owns them. -/
theorem stop_intervals_eq_nil_iff {s : MaintenanceScheduler} (h : Timers s) :
    s.stop.intervals = [] ↔ Owned s := by
  constructor
  · intro hnil i hi
    by_contra hne
    refine List.eq_nil_iff_forall_not_mem.mp hnil i
      ((s.mem_stop_intervals i).mpr ⟨hi, fun job hjob => hne ?_⟩)
    obtain ⟨j, hj, rfl, hid⟩ := h.set job i.id hjob
    rw [← h.unique j hj i hi hid]
    rwa [h.unique j hj i hi hid] at hjob ⊢
  · intro howned
    refine List.eq_nil_iff_forall_not_mem.mpr fun i hi => ?_
    obtain ⟨hi, hnone⟩ := (s.mem_stop_intervals i).mp hi
    exact hnone i.job (howned i hi)

/-! ## What `stop` ends -/

/-- `stop` here ends all calls until the next `start`. -/
def Silent (s : MaintenanceScheduler) : Prop :=
  ∀ events t, scheduler.run s.stop events = some t → SchedulerEvent.start ∉ events →
    t.calls = s.calls

/-- Without intervals there are no ticks, and only `start` sets intervals. -/
theorem silent_of_stop_intervals {s : MaintenanceScheduler} (hnil : s.stop.intervals = []) :
    Silent s := by
  intro events t hrun hstart
  have hstopped : s.stop.calls = s.calls := s.stop_frame.2.2.2
  refine (System.run_keeps (P := fun u => u.intervals = [] ∧ u.calls = s.calls) ?_ hrun
    ⟨hnil, hstopped⟩).2
  rintro u event u' htakes ⟨hintervals, hcalls⟩
  obtain ⟨pre, post, rfl, -, hstep⟩ := htakes
  rcases MaintenanceScheduler.step_cases hstep with ⟨rfl, -⟩ | ⟨-, rfl⟩ | ⟨i, hi, -, -⟩ |
    ⟨index, job, count, -, -, rfl⟩
  · simp at hstart
  · refine ⟨List.eq_nil_iff_forall_not_mem.mpr fun i hi => ?_, by rw [u.stop_frame.2.2.2, hcalls]⟩
    have hold := ((u.mem_stop_intervals i).mp hi).1
    rw [hintervals] at hold
    exact absurd hold List.not_mem_nil
  · rw [hintervals] at hi
    exact absurd hi List.not_mem_nil
  · obtain ⟨-, -, -, hsame, -, -, hcallsame, -⟩ := MaintenanceScheduler.onSettled_frame
      { u with
        inFlight := u.inFlight.eraseIdx index
        answers := u.answers ++ [(job, count)] } job count
    exact ⟨hsame.trans hintervals, hcallsame.trans hcalls⟩

/-- The tick of an interval. -/
theorem step_tick {s : MaintenanceScheduler} (h : Timers s) {i : Interval}
    (hi : i ∈ s.intervals) : s.step (.tick i.id) = some (s.onTick i.job) := by
  have hfind : (s.intervals.find? fun j => j.id == i.id) = some i := by
    cases hfind : s.intervals.find? fun j => j.id == i.id with
    | none => exact absurd (List.find?_eq_none.mp hfind i hi) (by simp)
    | some j =>
      have hid : j.id = i.id := by simpa using List.find?_some hfind
      rw [h.unique j (List.mem_of_find?_eq_some hfind) i hi hid]
  rw [MaintenanceScheduler.step, hfind]
  rfl

/-- A tick that is not skipped makes a call. -/
theorem onTick_calls {s : MaintenanceScheduler} {job : MaintenanceJob}
    (h : job = .staleRecovery → s.staleRecoveryRunning = false) :
    (s.onTick job).calls = s.calls ++ [s.config.call job] := by
  cases job with
  | staleRecovery => rw [MaintenanceScheduler.onTick, h rfl]; rfl
  | idempotencyCleanup => rfl
  | inboxCleanup => rfl

/-- An interval that runs can make a call: a stale recovery in flight ends
first. -/
theorem exists_call {s : MaintenanceScheduler} (haccount : Account s) (h : Timers s) {i : Interval}
    (hi : i ∈ s.intervals) :
    ∃ events t, scheduler.run s events = some t ∧ SchedulerEvent.start ∉ events ∧
      t.calls ≠ s.calls := by
  by_cases hskip : i.job = .staleRecovery ∧ s.staleRecoveryRunning = true
  · obtain ⟨hjob, hflag⟩ := hskip
    have hcount : 0 < s.inFlight.count .staleRecovery := by rw [haccount.running, hflag]; simp
    obtain ⟨index, hindex⟩ := List.mem_iff_getElem?.mp (List.count_pos_iff.mp hcount)
    set t := { s with
      inFlight := s.inFlight.eraseIdx index
      answers := s.answers ++ [(MaintenanceJob.staleRecovery, none)] }.onSettled
        .staleRecovery none with ht
    have hsettled : scheduler.step s (.settled index none) = some t := by
      change Option.map _ s.inFlight[index]? = some t
      rw [hindex]
      rfl
    have htimers : Timers t := h.of_eq rfl rfl rfl
    have htick : scheduler.step t (.tick i.id) = some (t.onTick i.job) := step_tick htimers hi
    refine ⟨[.settled index none, .tick i.id], t.onTick i.job, ?_, by simp, ?_⟩
    · refine System.run_cons_eq_some _ hsettled ?_
      rw [System.run_singleton]
      exact htick
    · rw [onTick_calls fun _ => rfl]
      simp [ht, MaintenanceScheduler.onSettled]
  · refine ⟨[.tick i.id], s.onTick i.job, ?_, by simp, ?_⟩
    · rw [System.run_singleton]
      exact step_tick h hi
    · rw [onTick_calls fun hjob => eq_false_of_ne_true fun hflag => hskip ⟨hjob, hflag⟩]
      simp

/-- `stop` ends the calls just when every interval is owned. -/
theorem silent_iff {s : MaintenanceScheduler} (hs : scheduler.Reachable s) :
    Silent s ↔ Owned s := by
  have htimers := timers_of_reachable hs
  rw [← stop_intervals_eq_nil_iff htimers]
  refine ⟨fun hsilent => ?_, silent_of_stop_intervals⟩
  refine List.eq_nil_iff_forall_not_mem.mpr fun i hi => ?_
  have hstopped : scheduler.Reachable s.stop := .step (a := .stop) hs trivial rfl
  obtain ⟨events, t, hrun, hstart, hcalls⟩ :=
    exists_call (account_of_reachable hstopped) (timers_of_reachable hstopped) hi
  refine hcalls ((hsilent events t hrun hstart).trans ?_)
  exact s.stop_frame.2.2.2.symm

/-! ## The result -/

/-- A `start` on a scheduler that does not run. -/
def StartsIdle (s : MaintenanceScheduler) (event : SchedulerEvent) : Prop :=
  event = .start → s.timers .staleRecovery = none

theorem Owned.setInterval {s : MaintenanceScheduler} {job : MaintenanceJob} (h : Owned s)
    (hnone : s.timers job = none) : Owned (s.setInterval job) := by
  intro i hi
  rcases List.mem_append.mp hi with hi | hi
  · have hset := h i hi
    refine (Function.update_of_ne (fun hjob => ?_) _ _).trans hset
    rw [hjob, hnone] at hset
    exact Option.some_ne_none _ hset.symm
  · rw [List.mem_singleton.mp hi]
    exact Function.update_self _ _ _

theorem Owned.start {s : MaintenanceScheduler} (h : Owned s)
    (hnone : ∀ job, s.timers job = none) : Owned s.start := by
  have hrecovery : Owned s.startStaleRecovery := h.setInterval (hnone _)
  have hidempotency : Owned s.startStaleRecovery.startIdempotencyCleanup ∧
      s.startStaleRecovery.startIdempotencyCleanup.timers .inboxCleanup = none := by
    rw [MaintenanceScheduler.startIdempotencyCleanup]
    split
    · exact ⟨hrecovery, hnone .inboxCleanup⟩
    · exact ⟨hrecovery.setInterval (hnone .idempotencyCleanup), hnone .inboxCleanup⟩
  rw [MaintenanceScheduler.start, MaintenanceScheduler.startInboxCleanup]
  split
  · exact hidempotency.1
  · split
    · exact hidempotency.1
    · exact hidempotency.1.setInterval hidempotency.2

/-- Started only when it does not run, a scheduler owns its intervals. -/
theorem owned_of_reachableBy {s : MaintenanceScheduler}
    (hs : scheduler.ReachableBy StartsIdle s) : Owned s := by
  refine System.ReachableBy.induct ?_ ?_ hs
  · rintro s ⟨config, cleansInbox, metrics, rfl⟩ i hi
    simp [createMaintenanceScheduler] at hi
  · intro s event s' hs h hidle hstep
    rcases MaintenanceScheduler.step_cases hstep with ⟨rfl, rfl⟩ | ⟨-, rfl⟩ | ⟨i, hi, -, rfl⟩ |
      ⟨index, job, count, -, hindex, rfl⟩
    · exact h.start (timers_eq_none_of_reachable hs.reachable (hidle rfl))
    · have htimers := timers_of_reachable hs.reachable
      have hnil := (stop_intervals_eq_nil_iff htimers).mpr h
      intro i hi
      rw [hnil] at hi
      exact absurd hi List.not_mem_nil
    · obtain ⟨-, htimers, hintervals, -⟩ := s.onTick_frame i.job
      rw [Owned, hintervals, htimers]
      exact h
    · obtain ⟨-, -, htimers, hintervals, -⟩ := MaintenanceScheduler.onSettled_frame
        { s with
          inFlight := s.inFlight.eraseIdx index
          answers := s.answers ++ [(job, count)] } job count
      rw [Owned, hintervals, htimers]
      exact h

/-- A `start` on a scheduler that runs forgets the timer of its stale
recovery. -/
theorem not_owned_start {s : MaintenanceScheduler} (hs : scheduler.Reachable s)
    (hrunning : s.timers .staleRecovery ≠ none) : ¬ Owned s.start := by
  intro howned
  obtain ⟨id, hid⟩ := Option.ne_none_iff_exists'.mp hrunning
  obtain ⟨i, hi, hjob, rfl⟩ := (timers_of_reachable hs).set .staleRecovery id hid
  have hkept : i ∈ s.start.intervals := s.start_induct
    (P := fun t => i ∈ t.intervals) (fun t job _ ht => List.mem_append_left _ ht) hi
  have htimer := howned i hkept
  rw [hjob, s.start_timers_staleRecovery] at htimer
  exact absurd (Option.some.inj htimer).symm
    (Nat.ne_of_lt ((timers_of_reachable hs).fresh i hi))

/-- In the states of a run from the creation of a scheduler, `stop` ends all
calls up to the next `start`, just when the run starts it only while it does
not run. -/
theorem silent_along_iff (config : MaintenanceSchedulerConfig) (cleansInbox metrics : Bool)
    (events : List SchedulerEvent) :
    (∀ s, scheduler.Visits (createMaintenanceScheduler config cleansInbox metrics) events s →
        Silent s) ↔
      ∀ s s', scheduler.TakesStep (createMaintenanceScheduler config cleansInbox metrics) events
        s .start s' → s.timers .staleRecovery = none := by
  have hinit : scheduler.ReachableBy (fun s event => True ∧ StartsIdle s event)
      (createMaintenanceScheduler config cleansInbox metrics) :=
    .init ⟨config, cleansInbox, metrics, rfl⟩
  refine Iff.trans (b := ∀ s event s', scheduler.TakesStep
    (createMaintenanceScheduler config cleansInbox metrics) events s event s' →
      StartsIdle s event) (System.ReachableBy.forall_visits_iff
    (fun s hs => (silent_iff hs.reachable).mpr
      (owned_of_reachableBy (hs.mono fun _ _ h => h.2))) ?_ hinit
    (fun _ _ _ _ => trivial)) ?_
  rotate_left
  · constructor
    · exact fun h s s' htakes => h s .start s' htakes rfl
    · rintro h s event s' htakes rfl
      exact h s s' htakes
  · intro s event s' hs hstep _ hnot hsilent
    have hs : scheduler.Reachable s := hs.reachable
    have hs' : scheduler.Reachable s' := .step hs trivial hstep
    obtain ⟨rfl, hrunning⟩ : event = .start ∧ s.timers .staleRecovery ≠ none := by
      by_contra h
      exact hnot fun heq => by_contra fun hne => h ⟨heq, hne⟩
    obtain rfl := Option.some.inj hstep
    exact not_owned_start hs hrunning ((silent_iff hs').mp hsilent)

end Outboxy.Lifecycle
