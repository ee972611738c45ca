import Outboxy.System

/-!
# The backoff of the two adapters

Both adapters compute the date of the next retry in their `UPDATE`.  In
PostgreSQL the right-hand side reads the row before the update.  In MySQL it
reads the `retry_count` that the statement has just assigned, so that the delay
has one factor of the multiplier more.

`postgres_retryRow` and `mysql_retryRow` are the two rows, and
`sameBackoff_iff` tells the configurations and retry counts for which the
difference does not show.  A power that is too small for a double is zero on
MySQL and an error on PostgreSQL.
-/

namespace Outboxy

/-- A call lists the row, and the row has retries left. -/
structure Retries (eventIds : List EventId) (row : OutboxEvent) : Prop where
  validIds : MySQLEventRepository.validateIds eventIds
  listed : row.id ∈ eventIds
  retriesLeft : (row.retryCount : Int) < row.maxRetries

/-- The row after a failure with backoff: its retry count is one more, and it
waits for `delay` microseconds. -/
def RetriedAfter (now delay : Int) (row row' : OutboxEvent) : Prop :=
  row'.nextRetryAt = some (now + delay) ∧ row'.retryCount = row.retryCount + 1

/-- `CEIL(delay / 1000)` seconds, in microseconds. -/
def roundedUpToSecond (delayMs : ℚ) : Int := (delayMs / 1000).ceil * Time.second

section

variable (now : Int) (eventIds : List EventId) (errorMessages : OrderedMap EventId String)
  (config : BackoffConfig)

/-- MySQL and PostgreSQL count the retry and wait for
`base * multiplier ^ retry_count` milliseconds, which PostgreSQL rounds to the
microsecond and MySQL up to a second. -/
structure SameBackoff (row : OutboxEvent) : Prop where
  computes : ¬PgEventRepository.PowerUnderflows config row.retryCount
  postgres : RetriedAfter now
    (Float8.rint (config.backoffBaseMs * config.backoffMultiplier ^ row.retryCount * 1000)) row
      ((PgEventRepository.scheduleRetry now eventIds errorMessages config).apply row)
  mysql : ∃ update ∈ MySQLEventRepository.scheduleRetry now eventIds errorMessages config,
    RetriedAfter now
      (roundedUpToSecond (config.backoffBaseMs * config.backoffMultiplier ^ row.retryCount)) row
      (update.apply row)

variable {eventIds} {row : OutboxEvent}

theorem postgres_retryRow (h : Retries eventIds row) :
    RetriedAfter now (PgEventRepository.backoffDelay config row.retryCount) row
      ((PgEventRepository.scheduleRetry now eventIds errorMessages config).apply row) := by
  have hguard : (PgEventRepository.scheduleRetry now eventIds errorMessages config).guard row := by
    simp [PgEventRepository.scheduleRetry, h.listed, h.retriesLeft]
  rw [Update.apply_of_guard hguard]
  exact ⟨rfl, rfl⟩

/-- The exponent is the retry count after the update. -/
theorem mysql_retryRow (h : Retries eventIds row) :
    ∃ update, MySQLEventRepository.scheduleRetry now eventIds errorMessages config = some update ∧
      RetriedAfter now (roundedUpToSecond (config.delayMs (row.retryCount + 1))) row
        (update.apply row) := by
  unfold MySQLEventRepository.scheduleRetry
  rw [if_pos h.validIds]
  refine ⟨_, rfl, ?_⟩
  rw [Update.apply_of_guard (by simp [h.listed, h.retriesLeft])]
  exact ⟨rfl, rfl⟩

end

/-- The next delay is in the second that `delayMs` is rounded up to. -/
def StaysInSecond (delayMs next : ℚ) : Prop :=
  ((delayMs / 1000).ceil : ℚ) - 1 < next / 1000 ∧ next / 1000 ≤ (delayMs / 1000).ceil

theorem ceil_eq_iff {q : ℚ} {n : Int} : q.ceil = n ↔ (n : ℚ) - 1 < q ∧ q ≤ n := by
  have hlt : n - 1 < q.ceil ↔ ((n - 1 : Int) : ℚ) < q := Rat.lt_ceil_iff
  have hle : q.ceil ≤ n ↔ q ≤ n := Rat.ceil_le_iff
  push_cast at hlt
  rw [← hlt, ← hle]
  omega

theorem staysInSecond_iff {delayMs next : ℚ} :
    StaysInSecond delayMs next ↔ roundedUpToSecond next = roundedUpToSecond delayMs := by
  rw [StaysInSecond, ← ceil_eq_iff, roundedUpToSecond, roundedUpToSecond]
  constructor
  · intro hceil
    rw [hceil]
  · exact Int.eq_of_mul_eq_mul_right (by decide)

/-- Where PostgreSQL computes the power, it is exact. -/
theorem delayMs_eq {config : BackoffConfig} {retryCount : ℕ}
    (h : ¬PgEventRepository.PowerUnderflows config retryCount) :
    config.delayMs retryCount = config.backoffBaseMs * config.backoffMultiplier ^ retryCount := by
  rw [BackoffConfig.delayMs, Float8.pow_eq fun hzero => of_not_not fun hne => h ⟨hzero, hne⟩]

/-- The two adapters back off alike exactly when PostgreSQL can compute the power
and one more factor of the multiplier does not lead the delay out of its
second. -/
theorem sameBackoff_iff (now : Int) (eventIds : List EventId)
    (errorMessages : OrderedMap EventId String) (config : BackoffConfig) (row : OutboxEvent)
    (h : Retries eventIds row) :
    SameBackoff now eventIds errorMessages config row ↔
      ¬PgEventRepository.PowerUnderflows config row.retryCount ∧
        StaysInSecond (config.backoffBaseMs * config.backoffMultiplier ^ row.retryCount)
          (config.backoffBaseMs * Float8.pow config.backoffMultiplier (row.retryCount + 1)) := by
  obtain ⟨update, hupdate, hmysql⟩ := mysql_retryRow now errorMessages config h
  rw [staysInSecond_iff]
  constructor
  · rintro ⟨hcomputes, -, other, hother, hretried⟩
    obtain rfl := Option.some.inj (hupdate.symm.trans hother)
    have hdate := hmysql.1.symm.trans hretried.1
    exact ⟨hcomputes, by simpa [BackoffConfig.delayMs] using hdate⟩
  · rintro ⟨hcomputes, hsame⟩
    have hpostgres := postgres_retryRow now errorMessages config h
    rw [PgEventRepository.backoffDelay, delayMs_eq hcomputes] at hpostgres
    rw [BackoffConfig.delayMs, hsame] at hmysql
    exact ⟨hcomputes, hpostgres, update, hupdate, hmysql⟩

theorem retries_sample : Retries [Sample.id] ((Sample.values 5).row Sample.id 0) :=
  ⟨by decide, by decide, by decide⟩

/-- With a multiplier of 1 they do. -/
theorem sameBackoff_constant :
    SameBackoff 0 [Sample.id] .empty ⟨1000, 1⟩ ((Sample.values 5).row Sample.id 0) :=
  (sameBackoff_iff 0 [Sample.id] .empty ⟨1000, 1⟩ _ retries_sample).mpr
    ⟨by decide +kernel, by decide +kernel, by decide +kernel⟩

/-- The defaults of `WorkerConfig`. -/
def defaultBackoff : BackoffConfig :=
  ⟨WorkerConfig.backoffBaseMs {}, WorkerConfig.backoffMultiplier {}⟩

/-- With the defaults the first failure waits for 2 seconds on MySQL, and the
five waits are 2, 4, 8, 16 and 32 seconds instead of 1, 2, 4, 8 and 16. -/
theorem not_sameBackoff_defaults :
    Retries [Sample.id] ((Sample.values 5).row Sample.id 0) ∧
      ¬SameBackoff 0 [Sample.id] .empty defaultBackoff ((Sample.values 5).row Sample.id 0) ∧
      ((List.range 5).map fun n => roundedUpToSecond (defaultBackoff.delayMs (n + 1))) =
        [2, 4, 8, 16, 32].map (· * Time.second) ∧
      ((List.range 5).map fun n => PgEventRepository.backoffDelay defaultBackoff n) =
        [1, 2, 4, 8, 16].map (· * Time.second) := by
  refine ⟨retries_sample, ?_, by decide +kernel, by decide +kernel⟩
  rw [sameBackoff_iff _ _ _ _ _ retries_sample, staysInSecond_iff]
  decide +kernel

end Outboxy
