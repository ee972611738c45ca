import Mathlib.Algebra.Order.Ring.Rat
import Mathlib.Tactic.Linarith
import Outboxy.Config.WorkerConfig
import Outboxy.Delivery.Backoff
import Outboxy.Delivery.RetryBudget
import Outboxy.Delivery.SlowWorker

/-!
# The range of the retry dates

`scheduleRetry` adds the delay to the current time in its `UPDATE`.  When the
date leaves the range of its column, or PostgreSQL cannot compute the power, the
statement fails for the whole batch.  Nothing bounds the delay: the schema of
the configuration bounds neither the base nor the multiplier, and the exponent
may be any retry count below `max_retries`.

`backoffFits_iff` says for which configurations no date is out of range.
-/

namespace Outboxy

namespace Adapter

/-- The first microsecond after the dates of the column: a `timestamp` of
PostgreSQL ends with the year 294276, a `TIMESTAMP` of MySQL with the second
`2^31 - 1`. -/
def endOfDates : Adapter → Int
  | .postgres => 9224318016000000000
  | .mysql => 2 ^ 31 * Time.second

/-- The database can compute the date and store it.  An `interval` of
PostgreSQL is a 64-bit number of microseconds. -/
def Holds (a : Adapter) (now date : Int) : Prop :=
  (a = .postgres → date - now < 2 ^ 63) ∧ date < a.endOfDates

/-- The database can compute the delay: PostgreSQL reports an underflow of the
power. -/
def Computes (a : Adapter) (config : BackoffConfig) (retryCount : ℕ) : Prop :=
  a = .postgres → ¬PgEventRepository.PowerUnderflows config retryCount

/-- The delay of `scheduleRetry` for a row. -/
def retryDelay (a : Adapter) (config : BackoffConfig) (retryCount : ℕ) : Int :=
  match a with
  | .postgres => PgEventRepository.backoffDelay config retryCount
  | .mysql => MySQLEventRepository.backoffDelay config (retryCount + 1)

end Adapter

/-- The threshold of stale recovery. -/
def Config.WorkerConfig.staleEventThresholdMs (config : Config.WorkerConfig) : ℕ :=
  (config .staleEventThresholdMs : ℤ).toNat

/-- The backoff of a configuration. -/
def Config.WorkerConfig.backoff (config : Config.WorkerConfig) : BackoffConfig :=
  ⟨config.worker.backoffBaseMs, config.worker.backoffMultiplier⟩

/-- Whenever it is `clock`, the retries that are issued can be stored for the
rows with this `max_retries`, in every run with workers and recoveries of the
configuration. -/
def BackoffFits (a : Adapter) (config : Config.WorkerConfig) (maxRetries clock : Int) : Prop :=
  ∀ s : State a, (outbox a).ReachableBy (RunsWith config.worker config.staleEventThresholdMs) s →
    s.clock = clock →
    ∀ t index eventIds errorMessages backoff update,
      IssuedCall s t index (.scheduleRetry eventIds errorMessages backoff) →
      a.repositoryUpdate s.now (.scheduleRetry eventIds errorMessages backoff) = some update →
        ∀ row ∈ s.table.rows, update.guard row = true → row.maxRetries = maxRetries →
          a.Computes backoff row.retryCount ∧
            ∃ date, (update.assign row).nextRetryAt = some date ∧ a.Holds s.now date

/-! ## Room for a delay -/

/-- The retry count below `max_retries` with the longest delay. -/
def longestCount (multiplier : ℚ) (maxRetries : Int) : ℕ :=
  if 1 ≤ multiplier then (maxRetries - 1).toNat else 0

/-- The delay ends before the range does.  PostgreSQL counts microseconds, MySQL
whole seconds. -/
def HasRoom (a : Adapter) (config : BackoffConfig) (retryCount : ℕ) (clock : Int) : Prop :=
  match a with
  | .postgres => Float8.rint (config.delayMs retryCount * 1000) <
      min (2 ^ 63) (Adapter.postgres.endOfDates - clock)
  | .mysql => config.delayMs (retryCount + 1) / 1000 ≤ (2 ^ 31 - 1 - clock / Time.second : Int)

instance (a : Adapter) (config : BackoffConfig) (retryCount : ℕ) (clock : Int) :
    Decidable (HasRoom a config retryCount clock) := by
  unfold HasRoom
  cases a <;> infer_instance

theorem holds_iff {a : Adapter} {config : BackoffConfig} {retryCount : ℕ} {clock : Int} :
    a.Holds (a.now clock) (a.now clock + a.retryDelay config retryCount) ↔
      HasRoom a config retryCount clock := by
  cases a with
  | postgres =>
    show (_ → clock + PgEventRepository.backoffDelay config retryCount - clock < 2 ^ 63) ∧
      clock + PgEventRepository.backoffDelay config retryCount < _ ↔
      PgEventRepository.backoffDelay config retryCount < _
    simp only [true_imp_iff]
    omega
  | mysql =>
    have hnow : Adapter.mysql.now clock = clock / Time.second * Time.second := by
      show clock - clock % Time.second = _
      have hdiv := Int.ediv_mul_add_emod clock Time.second
      omega
    rw [HasRoom, ← Rat.ceil_le_iff, hnow]
    show _ ∧ clock / Time.second * Time.second +
      (config.delayMs (retryCount + 1) / 1000).ceil * Time.second < 2 ^ 31 * Time.second ↔ _
    simp only [reduceCtorEq, false_imp_iff, true_and, Time.second]
    omega

section Longest

variable {config : BackoffConfig} (hbase : 0 < config.backoffBaseMs)
  (hmultiplier : 0 < config.backoffMultiplier) {maxRetries : Int} {retryCount : ℕ}
  (hlt : (retryCount : Int) < maxRetries)

include hbase hmultiplier hlt

/-- No delay below `max_retries` is longer than the one at `longestCount`, with
the exponent of PostgreSQL and with that of MySQL. -/
theorem delayMs_le_longest (more : ℕ) :
    config.delayMs (retryCount + more) ≤
      config.delayMs (longestCount config.backoffMultiplier maxRetries + more) := by
  refine mul_le_mul_of_nonneg_left ?_ hbase.le
  rw [longestCount]
  split_ifs with h
  · exact Float8.pow_mono h (by omega)
  · exact Float8.pow_anti hmultiplier.le (le_of_not_ge h) (by omega)

theorem HasRoom.of_longest {a : Adapter} {clock : Int}
    (h : HasRoom a config (longestCount config.backoffMultiplier maxRetries) clock) :
    HasRoom a config retryCount clock := by
  have hle := delayMs_le_longest hbase hmultiplier hlt
  cases a with
  | postgres =>
    refine lt_of_le_of_lt (Float8.rint_mono ?_) h
    exact mul_le_mul_of_nonneg_right (hle 0) (by decide)
  | mysql =>
    refine le_trans ?_ h
    exact div_le_div_of_nonneg_right (hle 1) (by decide)

end Longest

/-- The power is computed for all counts below `max_retries` if it is for the
last one. -/
theorem computes_iff {config : BackoffConfig} (hmultiplier : 0 < config.backoffMultiplier)
    {retryCount : ℕ} :
    ¬PgEventRepository.PowerUnderflows config retryCount ↔
      Float8.tiny < config.backoffMultiplier ^ retryCount := by
  rw [PgEventRepository.PowerUnderflows, Float8.pow_eq_zero_iff hmultiplier,
    and_iff_left hmultiplier.ne', not_le]

theorem tiny_lt_pow_of_le {multiplier : ℚ} (hmultiplier : 0 < multiplier) {n m : ℕ} (h : n ≤ m)
    (hm : Float8.tiny < multiplier ^ m) : Float8.tiny < multiplier ^ n := by
  rcases le_total 1 multiplier with hone | hone
  · exact Float8.tiny_lt_one.trans_le (one_le_pow₀ hone)
  · exact hm.trans_le (pow_le_pow_of_le_one hmultiplier.le hone h)

/-! ## Issued retries -/

section Issued

variable {a : Adapter} {s : State a}

theorem backoff_of_mem_repositoryCalls {worker : OutboxWorker} {grouped : BatchGroupingResult}
    {messages errorMessages : OrderedMap EventId ErrorMessage} {eventIds : List EventId}
    {config : BackoffConfig}
    (h : .scheduleRetry eventIds errorMessages config ∈ repositoryCalls worker grouped messages) :
    config = ⟨worker.config.backoffBaseMs, worker.config.backoffMultiplier⟩ := by
  unfold repositoryCalls at h
  rw [List.mem_append, List.mem_append] at h
  rcases h with (h | h) | h <;> split at h <;> simp at h
  exact h.2.2

/-- The date that the `UPDATE` assigns. -/
theorem nextRetryAt_scheduleRetry {now : Int} {eventIds : List EventId}
    {errorMessages : OrderedMap EventId ErrorMessage} {config : BackoffConfig}
    {update : OutboxUpdate}
    (h : a.repositoryUpdate now (.scheduleRetry eventIds errorMessages config) = some update)
    (row : OutboxEvent) :
    (update.assign row).nextRetryAt = some (now + a.retryDelay config row.retryCount) := by
  obtain ⟨texts, hread, hupdate⟩ := Option.bind_eq_some_iff.mp h
  obtain ⟨errorTexts, -, rfl⟩ := Option.map_eq_some_iff.mp hread
  cases a with
  | postgres =>
    obtain rfl := Option.some.inj hupdate
    rfl
  | mysql =>
    obtain ⟨-, heq⟩ := Option.ite_none_right_eq_some.mp hupdate
    obtain rfl := Option.some.inj heq
    rfl

/-- A retry that is issued by a worker of the configuration backs off as the
configuration says, and the configuration allows retries. -/
theorem issued_scheduleRetry {config : WorkerConfig} {thresholdMs : ℕ}
    (hs : (outbox a).ReachableBy (RunsWith config thresholdMs) s) {t : TaskId} {index : Nat}
    {eventIds : List EventId} {errorMessages : OrderedMap EventId ErrorMessage}
    {backoff : BackoffConfig}
    (hissued : IssuedCall s t index (.scheduleRetry eventIds errorMessages backoff))
    {id : EventId} (hid : id ∈ eventIds) :
    0 < config.maxRetries ∧ backoff = ⟨config.backoffBaseMs, config.backoffMultiplier⟩ := by
  obtain ⟨worker, events, outcome, pending, calls, htask, hbatch, -, hcalls, hmem⟩ :=
    exists_calls_of_issued hs.reachable hissued
  have hworker : worker.config = config :=
    worker_of_task (P := fun worker => worker.config = config)
      (fun _ _ hallowed => hallowed.claims) hs t worker (by rw [htask]; rfl)
  obtain ⟨event, -, hdecision, -⟩ := exists_event_of_mem_ids hbatch.nodup hcalls hmem hid
  have hlt := retryCount_lt_of_decision hdecision
  rw [hworker] at hlt
  refine ⟨by omega, ?_⟩
  rw [calls_eq_repositoryCalls hbatch.nodup hcalls] at hmem
  rw [backoff_of_mem_repositoryCalls hmem, hworker]

end Issued

/-! ## Configurations -/

section

variable {a : Adapter} {config : Config.WorkerConfig}

theorem backoffBaseMs_pos (hvalid : config.Valid) : 0 < config.backoff.backoffBaseMs := by
  have hpos : (0 : ℤ) < config .backoffBaseMs :=
    (of_decide_eq_true (hvalid.fields .backoffBaseMs)).1
  exact Int.cast_pos.mpr hpos

theorem backoffMultiplier_pos (hvalid : config.Valid) : 0 < config.backoff.backoffMultiplier :=
  of_decide_eq_true (hvalid.fields .backoffMultiplier)

theorem batchSize_pos (hvalid : config.Valid) : 0 < config.worker.batchSize := by
  have hpos : (0 : ℤ) < config .batchSize := (of_decide_eq_true (hvalid.fields .batchSize)).1
  exact Int.lt_toNat.mpr hpos

/-- Where there is room for the longest delay and the smallest power is computed,
every retry can be stored. -/
theorem backoffFits_of_room (hvalid : config.Valid) {maxRetries clock : Int}
    (hroom : maxRetries ≤ 0 ∨ config.worker.maxRetries = 0 ∨
      HasRoom a config.backoff (longestCount config.backoff.backoffMultiplier maxRetries) clock ∧
        (a = .postgres →
          Float8.tiny < config.backoff.backoffMultiplier ^ (maxRetries - 1).toNat)) :
    BackoffFits a config maxRetries clock := by
  rintro s hs rfl t index eventIds errorMessages backoff update hissued hupdate row - hguard hlimit
  obtain ⟨hid, hadmits⟩ := (repositoryUpdate_guard hupdate row).mp hguard
  obtain ⟨hmax, rfl⟩ := issued_scheduleRetry hs hissued hid
  have hlt : (row.retryCount : Int) < maxRetries := hlimit ▸ hadmits
  rcases hroom with hnone | hnone | ⟨hroom, hpower⟩
  · omega
  · omega
  · have hmultiplier := backoffMultiplier_pos hvalid
    refine ⟨fun ha => (computes_iff hmultiplier).mpr ?_, _, nextRetryAt_scheduleRetry hupdate row,
      holds_iff.mpr (hroom.of_longest (backoffBaseMs_pos hvalid) hmultiplier hlt)⟩
    exact tiny_lt_pow_of_le hmultiplier (by omega) (hpower ha)

/-- A retry of a slow worker is issued at any retry count. -/
theorem room_of_backoffFits (hvalid : config.Valid) {maxRetries clock : Int} {k : ℕ}
    (hmax : 0 < config.worker.maxRetries) (hlt : (k : Int) < maxRetries)
    (hfits : BackoffFits a config maxRetries clock) :
    HasRoom a config.backoff k clock ∧ a.Computes config.backoff k := by
  obtain ⟨s, ⟨⟨n, row, -, hquiet, hid, -, hcount, hlimit, -⟩, events, outcome, htask⟩, rfl⟩ :=
    exists_slowWorker (a := a) config.worker config.staleEventThresholdMs (batchSize_pos hvalid)
      hmax maxRetries clock hlt
  have hissued : IssuedCall s 0 0 (slowRetry config.worker) := ⟨_, _, _, _, htask, rfl⟩
  obtain ⟨update, hupdate⟩ : ∃ update,
      a.repositoryUpdate s.now (slowRetry config.worker) = some update := by
    have hread : a.readCall (slowRetry config.worker) = some (.scheduleRetry [Sample.id] .empty
        ⟨config.worker.backoffBaseMs, config.worker.backoffMultiplier⟩) := by
      cases a <;> rfl
    have huuid : MySQLEventRepository.validateIds [Sample.id] = true := by decide
    rw [Adapter.repositoryUpdate, hread, Option.bind_some]
    exact exists_outcomeUpdate a s.now huuid
  have hguard : update.guard row = true := by
    rw [repositoryUpdate_guard hupdate]
    refine ⟨List.mem_singleton.mpr hid, ?_⟩
    show (row.retryCount : Int) < row.maxRetries
    rw [hcount, hlimit]
    exact hlt
  obtain ⟨hcomputes, date, hdate, hholds⟩ := hfits s hquiet.reachable rfl 0 0 _ _ _ update hissued
    hupdate row (by simp [hquiet.rows]) hguard hlimit
  rw [hcount] at hcomputes
  rw [nextRetryAt_scheduleRetry hupdate, hcount] at hdate
  obtain rfl := Option.some.inj hdate
  exact ⟨holds_iff.mp hholds, hcomputes⟩

/-- No retry date is out of range, unless retries are counted, and the longest
delay below `max_retries` leaves the range or the last power is too small for
PostgreSQL. -/
theorem backoffFits_iff (a : Adapter) (hvalid : config.Valid) (maxRetries clock : Int) :
    BackoffFits a config maxRetries clock ↔
      maxRetries ≤ 0 ∨ config.worker.maxRetries = 0 ∨
        HasRoom a config.backoff (longestCount config.backoff.backoffMultiplier maxRetries) clock ∧
          (a = .postgres →
            Float8.tiny < config.backoff.backoffMultiplier ^ (maxRetries - 1).toNat) := by
  refine ⟨fun hfits => ?_, backoffFits_of_room hvalid⟩
  by_cases hlimit : maxRetries ≤ 0
  · exact Or.inl hlimit
  · rcases Nat.eq_zero_or_pos config.worker.maxRetries with hmax | hmax
    · exact Or.inr (Or.inl hmax)
    · refine Or.inr (Or.inr ⟨(room_of_backoffFits hvalid hmax ?_ hfits).1, fun ha => ?_⟩)
      · rw [longestCount]
        split_ifs <;> omega
      · exact (computes_iff (backoffMultiplier_pos hvalid)).mp
          ((room_of_backoffFits hvalid hmax (by omega) hfits).2 ha)

end

/-- The first of January 2026. -/
def newYear2026 : Int := 1767225600 * Time.second

/-- The defaults are fine for the default `max_retries`. -/
theorem backoffFits_defaults : BackoffFits .mysql Config.Field.defaultValue 5 newYear2026 :=
  (backoffFits_iff .mysql Config.valid_defaults 5 newYear2026).mpr
    (Or.inr (Or.inr ⟨by decide +kernel, by simp⟩))

/-- With the defaults, an event with the largest `max_retries` that the API
takes leaves both ranges. -/
theorem not_backoffFits :
    Config.WorkerConfig.Valid Config.Field.defaultValue ∧
      ¬BackoffFits .postgres Config.Field.defaultValue 100 newYear2026 ∧
      ¬BackoffFits .mysql Config.Field.defaultValue 100 newYear2026 := by
  refine ⟨Config.valid_defaults, fun hfits => ?_, fun hfits => ?_⟩
  · have hroom := room_of_backoffFits (k := 44) Config.valid_defaults (by decide) (by decide) hfits
    exact absurd hroom.1 (by decide +kernel)
  · have hroom := room_of_backoffFits (k := 28) Config.valid_defaults (by decide) (by decide) hfits
    exact absurd hroom.1 (by decide +kernel)

end Outboxy
