import Mathlib.Order.Monotone.Basic
import Mathlib.Tactic.Linarith
import Outboxy.Config.WorkerConfig

/-!
# The interval between polls

`calculatePollInterval` waits twice and five times the minimum in its middle
bands and half the maximum, or the maximum, below them.  The schema orders the
minimum and the maximum only, so the middle bands can wait longer than the
ones below.  `steadyPolling_iff` says for which configurations the interval
never grows with the batch and never passes the maximum.
-/

namespace Outboxy.Config

/-- `calculatePollInterval(batchEventCount)` -/
def calculatePollInterval (config : WorkerConfig) (batchEventCount : ℕ) : ℚ :=
  if config .adaptivePollingEnabled = false then
    (config .pollIntervalMs : ℤ)
  else if (config .batchSize : ℤ) ≤ batchEventCount then
    0
  else if (config .adaptivePollingBusyThreshold : ℤ) ≤ batchEventCount then
    (config .adaptivePollingMinPollIntervalMs : ℤ) * 2
  else if (config .adaptivePollingModerateThreshold : ℤ) ≤ batchEventCount then
    (config .adaptivePollingMinPollIntervalMs : ℤ) * 5
  else if 0 < batchEventCount then
    (config .adaptivePollingMaxPollIntervalMs : ℤ) / 2
  else
    (config .adaptivePollingMaxPollIntervalMs : ℤ)

/-- A larger batch never means a longer wait, and no wait is longer than the
maximum. -/
def SteadyPolling (config : WorkerConfig) : Prop :=
  Antitone (calculatePollInterval config)
    ∧ ∀ batchEventCount : ℕ, calculatePollInterval config batchEventCount
      ≤ (config .adaptivePollingMaxPollIntervalMs : ℤ)

/-! ## Bands -/

/-- The settings of adaptive polling, ordered as the schema orders them. -/
structure Bands where
  batchSize : ℤ
  busy : ℤ
  moderate : ℤ
  shortest : ℤ
  longest : ℤ
  batchSize_pos : 0 < batchSize
  moderate_nonneg : 0 ≤ moderate
  moderate_le_busy : moderate ≤ busy
  shortest_pos : 0 < shortest
  shortest_lt_longest : shortest < longest

namespace Bands

/-- The wait after a batch of `n` events. -/
def interval (bands : Bands) (n : ℕ) : ℚ :=
  if bands.batchSize ≤ n then 0
  else if bands.busy ≤ n then bands.shortest * 2
  else if bands.moderate ≤ n then bands.shortest * 5
  else if 0 < n then bands.longest / 2
  else bands.longest

/-- The wait just below the moderate band, or the maximum when every batch is
in that band or above. -/
def ceiling (bands : Bands) : ℚ :=
  if 1 < bands.moderate then bands.longest / 2 else bands.longest

/-- The moderate band and the busy band, where there is room for them under
the batch size, stay below the ceiling. -/
def Fit (bands : Bands) : Prop :=
  (bands.moderate < bands.busy → bands.moderate < bands.batchSize →
      bands.shortest * 5 ≤ bands.ceiling)
    ∧ (bands.busy < bands.batchSize → bands.shortest * 2 ≤ bands.ceiling)

variable {bands : Bands} {n : ℕ}

theorem interval_full (h : bands.batchSize ≤ n) : bands.interval n = 0 := if_pos h

theorem interval_busy (hfull : n < bands.batchSize) (h : bands.busy ≤ n) :
    bands.interval n = bands.shortest * 2 := by
  rw [interval, if_neg (by omega), if_pos h]

theorem interval_moderate (hfull : n < bands.batchSize) (hbusy : n < bands.busy)
    (h : bands.moderate ≤ n) : bands.interval n = bands.shortest * 5 := by
  rw [interval, if_neg (by omega), if_neg (by omega), if_pos h]

theorem interval_light (hfull : n < bands.batchSize) (h : n < bands.moderate) (hpos : 0 < n) :
    bands.interval n = bands.longest / 2 := by
  have hle := bands.moderate_le_busy
  rw [interval, if_neg (by omega), if_neg (by omega), if_neg (by omega), if_pos hpos]

theorem interval_idle (h : 0 < bands.moderate) : bands.interval 0 = bands.longest := by
  have hle := bands.moderate_le_busy
  have hsize := bands.batchSize_pos
  rw [interval, if_neg (by omega), if_neg (by omega), if_neg (by omega), if_neg (by omega)]

/-- Which band a batch is in. -/
theorem band_cases (bands : Bands) (n : ℕ) :
    bands.batchSize ≤ n
      ∨ (n < bands.batchSize ∧ bands.busy ≤ n)
      ∨ (n < bands.batchSize ∧ n < bands.busy ∧ bands.moderate ≤ n)
      ∨ (n < bands.batchSize ∧ n < bands.moderate ∧ 0 < n)
      ∨ (n = 0 ∧ 0 < bands.moderate) := by
  have hle := bands.moderate_le_busy
  omega

theorem cast_shortest_pos (bands : Bands) : (0 : ℚ) < bands.shortest := by
  exact_mod_cast bands.shortest_pos

theorem cast_longest_pos (bands : Bands) : (0 : ℚ) < bands.longest := by
  exact_mod_cast bands.shortest_pos.trans bands.shortest_lt_longest

theorem ceiling_le_longest (bands : Bands) : bands.ceiling ≤ bands.longest := by
  have hpos := bands.cast_longest_pos
  rw [ceiling]
  split_ifs <;> linarith

/-- Below the moderate band the wait is not under the ceiling. -/
theorem ceiling_le_interval (hfull : n < bands.batchSize) (h : n < bands.moderate) :
    bands.ceiling ≤ bands.interval n := by
  rcases Nat.eq_zero_or_pos n with rfl | hpos
  · rw [interval_idle (by omega)]
    exact bands.ceiling_le_longest
  · rw [interval_light hfull h hpos, ceiling, if_pos (by omega)]

/-- No wait is negative. -/
theorem interval_nonneg (bands : Bands) (n : ℕ) : 0 ≤ bands.interval n := by
  have hshortest := bands.cast_shortest_pos
  have hlongest := bands.cast_longest_pos
  rw [interval]
  split_ifs <;> linarith

/-! ## Sufficiency -/

theorem interval_le_longest (hfit : bands.Fit) (n : ℕ) : bands.interval n ≤ bands.longest := by
  have hlongest := bands.cast_longest_pos
  have hceiling := bands.ceiling_le_longest
  rcases bands.band_cases n with h | ⟨hfull, h⟩ | ⟨hfull, hbusy, h⟩ | ⟨hfull, h, hpos⟩ | ⟨rfl, h⟩
  · rw [interval_full h]
    exact hlongest.le
  · rw [interval_busy hfull h]
    exact (hfit.2 (by omega)).trans hceiling
  · rw [interval_moderate hfull hbusy h]
    exact (hfit.1 (by omega) (by omega)).trans hceiling
  · rw [interval_light hfull h hpos]
    linarith
  · rw [interval_idle h]

theorem interval_antitone (hfit : bands.Fit) : Antitone bands.interval := by
  intro n n' hle
  have hshortest := bands.cast_shortest_pos
  have hlongest := bands.cast_longest_pos
  have horder := bands.moderate_le_busy
  rcases bands.band_cases n' with h' | ⟨hfull', h'⟩ | ⟨hfull', hbusy', h'⟩ | ⟨hfull', h', hpos'⟩
    | ⟨rfl, h'⟩
  · rw [interval_full h']
    exact bands.interval_nonneg n
  · rw [interval_busy hfull' h']
    rcases lt_or_ge (n : ℤ) bands.moderate with h | h
    · exact (hfit.2 (by omega)).trans (ceiling_le_interval (by omega) h)
    · rcases lt_or_ge (n : ℤ) bands.busy with hbusy | hbusy
      · rw [interval_moderate (by omega) hbusy h]
        linarith
      · rw [interval_busy (by omega) hbusy]
  · rw [interval_moderate hfull' hbusy' h']
    rcases lt_or_ge (n : ℤ) bands.moderate with h | h
    · exact (hfit.1 (by omega) (by omega)).trans (ceiling_le_interval (by omega) h)
    · rw [interval_moderate (by omega) (by omega) h]
  · rw [interval_light hfull' h' hpos']
    rcases Nat.eq_zero_or_pos n with rfl | hpos
    · rw [interval_idle (by omega)]
      linarith
    · rw [interval_light (by omega) (by omega) hpos]
  · rw [Nat.le_zero.mp hle]

/-! ## Necessity -/

/-- The ceiling is the maximum or the wait of a batch below the moderate
band. -/
theorem le_ceiling {x : ℚ} (hlongest : x ≤ bands.longest)
    (hlight : ∀ n : ℕ, 0 < n → n < bands.moderate → n < bands.batchSize → x ≤ bands.longest / 2)
    (hroom : 1 < bands.moderate → 1 < bands.batchSize) : x ≤ bands.ceiling := by
  rw [ceiling]
  split_ifs with h
  · exact hlight 1 one_pos (by exact_mod_cast h) (by exact_mod_cast hroom h)
  · exact hlongest

theorem fit_of_steady (hanti : Antitone bands.interval)
    (hmax : ∀ n, bands.interval n ≤ bands.longest) : bands.Fit := by
  have horder := bands.moderate_le_busy
  have hnonneg := bands.moderate_nonneg
  obtain ⟨moderate, hmoderate⟩ := Int.eq_ofNat_of_zero_le hnonneg
  obtain ⟨busy, hbusy⟩ := Int.eq_ofNat_of_zero_le (hnonneg.trans horder)
  constructor
  · intro h hsize
    have heq : bands.interval moderate = bands.shortest * 5 :=
      interval_moderate (by omega) (by omega) (by omega)
    rw [← heq]
    refine le_ceiling (hmax moderate) (fun n hpos hn hfull => ?_) (by omega)
    rw [← interval_light hfull hn hpos]
    exact hanti (by omega)
  · intro h
    have heq : bands.interval busy = bands.shortest * 2 := interval_busy (by omega) (by omega)
    rw [← heq]
    refine le_ceiling (hmax busy) (fun n hpos hn hfull => ?_) (by omega)
    rw [← interval_light hfull hn hpos]
    exact hanti (by omega)

/-- Exactly the bands that fit give a steady interval. -/
theorem steady_iff (bands : Bands) :
    (Antitone bands.interval ∧ ∀ n, bands.interval n ≤ bands.longest) ↔ bands.Fit :=
  ⟨fun h => fit_of_steady h.1 h.2, fun hfit => ⟨interval_antitone hfit, interval_le_longest hfit⟩⟩

end Bands

/-! ## Configurations -/

namespace WorkerConfig

/-- The bands of a valid configuration. -/
def bands (config : WorkerConfig) (hvalid : config.Valid) : Bands where
  batchSize := config .batchSize
  busy := config .adaptivePollingBusyThreshold
  moderate := config .adaptivePollingModerateThreshold
  shortest := config .adaptivePollingMinPollIntervalMs
  longest := config .adaptivePollingMaxPollIntervalMs
  batchSize_pos := (of_decide_eq_true (hvalid.fields .batchSize)).1
  moderate_nonneg := (of_decide_eq_true (hvalid.fields .adaptivePollingModerateThreshold)).1
  moderate_le_busy := of_decide_eq_true hvalid.thresholds
  shortest_pos := (of_decide_eq_true (hvalid.fields .adaptivePollingMinPollIntervalMs)).1
  shortest_lt_longest := of_decide_eq_true hvalid.intervals

end WorkerConfig

theorem calculatePollInterval_eq {config : WorkerConfig} (hvalid : config.Valid)
    (henabled : config .adaptivePollingEnabled = true) :
    calculatePollInterval config = (config.bands hvalid).interval := by
  funext n
  rw [calculatePollInterval, if_neg (by rw [henabled]; decide)]
  rfl

/-- Polling is steady exactly when the bands fit below the ceiling. -/
theorem steadyPolling_iff {config : WorkerConfig} (hvalid : config.Valid)
    (henabled : config .adaptivePollingEnabled = true) :
    SteadyPolling config ↔ (config.bands hvalid).Fit := by
  rw [SteadyPolling, calculatePollInterval_eq hvalid henabled]
  exact (config.bands hvalid).steady_iff

/-- The defaults with a batch size of 100, so that all bands have room. -/
def largeBatches : WorkerConfig
  | .batchSize => (100 : ℤ)
  | field => field.defaultValue

theorem valid_largeBatches : largeBatches.Valid where
  fields := by decide
  intervals := by decide
  thresholds := by decide

/-- With large batches and the other defaults polling is steady. -/
theorem steadyPolling_largeBatches : SteadyPolling largeBatches := by
  refine (steadyPolling_iff valid_largeBatches rfl).mpr ⟨fun _ _ => ?_, fun _ => ?_⟩
  · decide +kernel
  · decide +kernel

/-- The defaults with a batch size of 100 and poll intervals between 1000 and
1500 milliseconds. -/
def tightIntervals : WorkerConfig
  | .batchSize => (100 : ℤ)
  | .adaptivePollingMinPollIntervalMs => (1000 : ℤ)
  | .adaptivePollingMaxPollIntervalMs => (1500 : ℤ)
  | field => field.defaultValue

theorem valid_tightIntervals : tightIntervals.Valid where
  fields := by decide
  intervals := by decide
  thresholds := by decide

/-- After ten events the worker waits 5000 milliseconds, past the maximum of
1500. -/
theorem not_steadyPolling :
    ¬ ∀ config : WorkerConfig, config.Valid → config .adaptivePollingEnabled = true →
      SteadyPolling config := by
  intro h
  have hten : calculatePollInterval tightIntervals 10 = 5000 := by decide +kernel
  have hmax := (h tightIntervals valid_tightIntervals rfl).2 10
  rw [hten] at hmax
  exact absurd hmax (by decide +kernel)

end Outboxy.Config
