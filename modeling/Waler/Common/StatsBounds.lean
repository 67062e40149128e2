/-
What the moments that `stats_compute` reports can be.

The sum of the samples is a 64-bit sum.  While it does not wrap, the mean and
the standard deviation are those of the samples, up to the casts that truncate
them; a wrapped sum makes the mean too small.
-/

import Waler.Common.StatsCompute
import Waler.Foundation.SampleStatistics

namespace Waler

namespace Stats

open SampleStatistics (mean dispersion squaredDeviation)

def cycles (samples : List UInt64) : List ℚ :=
  samples.map (fun sample => (sample.toNat : ℚ))

/-- The sum of the samples is a 64-bit number. -/
def SumFits (samples : List UInt64) : Prop :=
  (samples.map UInt64.toNat).sum < 2 ^ 64

instance (samples : List UInt64) : Decidable (SumFits samples) :=
  inferInstanceAs (Decidable (_ < _))

/-! ### Sums -/

theorem foldl_add_toNat (samples : List UInt64) (sum : UInt64) :
    (samples.foldl (· + ·) sum).toNat =
      (sum.toNat + (samples.map UInt64.toNat).sum) % 2 ^ 64 := by
  induction samples generalizing sum with
  | nil => exact (Nat.mod_eq_of_lt sum.toNat_lt).symm
  | cons sample rest ih =>
      rw [List.foldl_cons, ih, UInt64.toNat_add, List.map_cons, List.sum_cons]
      omega

theorem cycles_sum (samples : List UInt64) :
    (cycles samples).sum = ((samples.map UInt64.toNat).sum : ℕ) := by
  induction samples with
  | nil => rfl
  | cons sample rest ih =>
      rw [List.map_cons, List.sum_cons, Nat.cast_add, ← ih]
      rfl

theorem cycles_length (samples : List UInt64) :
    (cycles samples).length = samples.length :=
  List.length_map _

theorem meanCyc_le (samples : List UInt64) :
    meanCyc samples ≤ mean (cycles samples) := by
  unfold meanCyc mean
  rw [foldl_add_toNat, cycles_length, cycles_sum]
  apply div_le_div_of_nonneg_right _ (Nat.cast_nonneg _)
  refine Nat.cast_le.mpr ((Nat.mod_le _ _).trans ?_)
  exact (Nat.zero_add _).le

theorem meanCyc_eq {samples : List UInt64} (fits : SumFits samples) :
    meanCyc samples = mean (cycles samples) := by
  unfold SumFits at fits
  have sum : (samples.foldl (· + ·) 0).toNat =
      (samples.map UInt64.toNat).sum := by
    rw [foldl_add_toNat]
    change (0 + _) % _ = _
    omega
  unfold meanCyc mean
  rw [sum, cycles_length, cycles_sum]

theorem variance_eq {samples : List UInt64} (fits : SumFits samples) :
    variance samples = dispersion (cycles samples) := by
  unfold variance dispersion
  rw [meanCyc_eq fits, List.sum_eq_foldl, List.foldl_map]
  unfold cycles
  rw [List.foldl_map]
  rfl

/-! ### Bounds -/

section Bounds

variable {samples : List UInt64} {low high : UInt64}

theorem cycles_ne_nil (recorded : samples ≠ []) : cycles samples ≠ [] :=
  fun none => recorded (List.map_eq_nil_iff.mp none)

theorem le_cycles (above : ∀ sample ∈ samples, low.toNat ≤ sample.toNat) :
    ∀ sample ∈ cycles samples, (low.toNat : ℚ) ≤ sample := by
  intro sample listed
  obtain ⟨recorded, recordedIn, rfl⟩ := List.mem_map.mp listed
  exact Nat.cast_le.mpr (above recorded recordedIn)

theorem cycles_le (below : ∀ sample ∈ samples, sample.toNat ≤ high.toNat) :
    ∀ sample ∈ cycles samples, sample ≤ high.toNat := by
  intro sample listed
  obtain ⟨recorded, recordedIn, rfl⟩ := List.mem_map.mp listed
  exact Nat.cast_le.mpr (below recorded recordedIn)

theorem floor_meanCyc_le (recorded : samples ≠ [])
    (below : ∀ sample ∈ samples, sample.toNat ≤ high.toNat) :
    ⌊meanCyc samples⌋₊ ≤ high.toNat := by
  have bound := SampleStatistics.mean_le (cycles_ne_nil recorded)
    (cycles_le below)
  have floored := Nat.floor_mono ((meanCyc_le samples).trans bound)
  rwa [Nat.floor_natCast] at floored

theorem le_floor_meanCyc (recorded : samples ≠ []) (fits : SumFits samples)
    (above : ∀ sample ∈ samples, low.toNat ≤ sample.toNat) :
    low.toNat ≤ ⌊meanCyc samples⌋₊ := by
  rw [meanCyc_eq fits]
  exact Nat.le_floor (SampleStatistics.le_mean (cycles_ne_nil recorded)
    (le_cycles above))

/-- Twice the standard deviation is at most the range. -/
theorem sqrt_variance_le (recorded : samples ≠ []) (fits : SumFits samples)
    (above : ∀ sample ∈ samples, low.toNat ≤ sample.toNat)
    (below : ∀ sample ∈ samples, sample.toNat ≤ high.toNat) :
    2 * Nat.sqrt ⌊variance samples / samples.length⌋₊ ≤
      high.toNat - low.toNat := by
  have range := SampleStatistics.dispersion_le_range
    (cycles_ne_nil recorded) (le_cycles above) (cycles_le below)
  rw [cycles_length, ← variance_eq fits] at range
  have nonneg : 0 ≤ variance samples / samples.length := by
    rw [variance_eq fits]
    exact div_nonneg (SampleStatistics.dispersion_nonneg _)
      (Nat.cast_nonneg _)
  have ordered : low.toNat ≤ high.toNat := by
    obtain ⟨sample, listed⟩ := List.exists_mem_of_ne_nil samples recorded
    exact (above sample listed).trans (below sample listed)
  let root := Nat.sqrt ⌊variance samples / samples.length⌋₊
  have floored : ((root * root : ℕ) : ℚ) ≤
      variance samples / samples.length :=
    (Nat.cast_le.mpr (Nat.sqrt_le _)).trans (Nat.floor_le nonneg)
  have squares : ((2 * root : ℕ) : ℚ) ^ 2 ≤
      ((high.toNat - low.toNat : ℕ) : ℚ) ^ 2 := by
    rw [Nat.cast_sub ordered]
    refine le_trans ?_ range
    push_cast at floored ⊢
    linarith
  exact Nat.cast_le.mp
    ((sq_le_sq₀ (Nat.cast_nonneg _) (Nat.cast_nonneg _)).mp squares)

end Bounds

/-! ### Jitter -/

theorem toInt64_neg_iff (word : UInt64) :
    word.toInt64 < 0 ↔ 2 ^ 63 ≤ word.toNat := by
  have value : word.toInt64.toInt =
      if 2 * word.toNat < 2 ^ 64 then (word.toNat : ℤ)
      else (word.toNat : ℤ) - (2 ^ 64 : ℕ) :=
    BitVec.toInt_eq_toNat_cond word.toBitVec
  have below := word.toNat_lt
  rw [Int64.lt_iff_toInt_lt, value]
  change _ < (0 : ℤ) ↔ _
  split <;> omega

/-- A difference that wraps is taken the shorter way round. -/
theorem apart_le (current previous : UInt64) :
    (apart current previous).toNat ≤
      (current.toNat - previous.toNat) +
        (previous.toNat - current.toNat) := by
  have taken : apart current previous =
      if 2 ^ 63 ≤ (current - previous).toNat then -(current - previous)
      else current - previous := by
    unfold apart
    dsimp only
    rw [← UInt64.toInt64_sub]
    by_cases wrapped : 2 ^ 63 ≤ (current - previous).toNat
    · rw [if_pos wrapped, if_pos ((toInt64_neg_iff _).mpr wrapped)]
      rfl
    · rw [if_neg wrapped, if_neg (fun negative => wrapped
        ((toInt64_neg_iff _).mp negative))]
      rfl
  have difference := UInt64.toNat_sub current previous
  have opposite : (-(current - previous)).toNat =
      (2 ^ 64 - (current - previous).toNat) % 2 ^ 64 :=
    UInt64.toNat_neg (current - previous)
  have currentLt := current.toNat_lt
  have previousLt := previous.toNat_lt
  rw [taken]
  split <;> omega

theorem jitterNs_eq (gTscHz : ℚ) {samples : List UInt64}
    (several : 1 < samples.length) :
    jitterNs gTscHz samples =
      mean (SlidingWindow.consecutive
        (fun previous current => tscToNs gTscHz (apart current previous))
        samples) := by
  unfold jitterNs mean
  dsimp only
  rw [if_pos several, SlidingWindow.consecutive_length, List.sum_eq_foldl]

/-! ### Reported times -/

section Reported

variable {gTscHz : ℚ} (ticking : 0 < gTscHz)

theorem tscToNs_eq (gTscHz : ℚ) (cycles : UInt64) :
    tscToNs gTscHz cycles = cycles.toNat * (10 ^ 9 / gTscHz) :=
  mul_div_assoc _ _ _

include ticking

theorem tick_pos : 0 < 10 ^ 9 / gTscHz :=
  div_pos (by norm_num) ticking

theorem toNat_le_of_tscToNs {fewer more : UInt64}
    (ordered : tscToNs gTscHz fewer ≤ tscToNs gTscHz more) :
    fewer.toNat ≤ more.toNat := by
  rw [tscToNs_eq, tscToNs_eq] at ordered
  exact Nat.cast_le.mp (le_of_mul_le_mul_right ordered (tick_pos ticking))

/-- Times that are a range of cycles apart. -/
theorem tscToNs_range {low high : UInt64} (ordered : low.toNat ≤ high.toNat)
    (scale : ℕ) {cycles : UInt64}
    (within : scale * cycles.toNat ≤ high.toNat - low.toNat) :
    scale * tscToNs gTscHz cycles ≤
      tscToNs gTscHz high - tscToNs gTscHz low := by
  have counted : (scale : ℚ) * cycles.toNat ≤ high.toNat - low.toNat := by
    rw [← Nat.cast_mul, ← Nat.cast_sub ordered]
    exact Nat.cast_le.mpr within
  rw [tscToNs_eq, tscToNs_eq, tscToNs_eq, ← mul_assoc, ← sub_mul]
  exact mul_le_mul_of_nonneg_right counted (tick_pos ticking).le

theorem tscToNs_nonneg (cycles : UInt64) : 0 ≤ tscToNs gTscHz cycles := by
  rw [tscToNs_eq]
  exact mul_nonneg (Nat.cast_nonneg _) (tick_pos ticking).le

end Reported

def lowest (stats : Stats) : UInt64 :=
  stats.sorted.samples.getD 0 0

def highest (stats : Stats) : UInt64 :=
  stats.sorted.samples.getD (stats.samples.length - 1) 0

theorem lowest_le_highest (stats : Stats) {sample : UInt64}
    (listed : sample ∈ stats.samples) :
    stats.lowest.toNat ≤ sample.toNat ∧
      sample.toNat ≤ stats.highest.toNat := by
  have ticking : (0 : ℚ) < 1 := one_pos
  obtain ⟨above, below⟩ := stats.metrics_bounds ticking listed
  exact ⟨toNat_le_of_tscToNs ticking above, toNat_le_of_tscToNs ticking below⟩

/-- The samples in nanoseconds. -/
def times (gTscHz : ℚ) (samples : List UInt64) : List ℚ :=
  samples.map (tscToNs gTscHz)

theorem times_eq (gTscHz : ℚ) (samples : List UInt64) :
    times gTscHz samples = (cycles samples).map (· * (10 ^ 9 / gTscHz)) := by
  unfold times cycles
  rw [List.map_map]
  exact List.map_congr_left (fun sample _ => tscToNs_eq gTscHz sample)

/-- The reported moments are those of the samples to within one cycle. -/
structure Accurate (gTscHz : ℚ) (samples : List UInt64)
    (computed : StatsResult) : Prop where
  min_le_mean : computed.minNs ≤ computed.meanNs
  mean_le : computed.meanNs ≤ mean (times gTscHz samples)
  lt_mean : mean (times gTscHz samples) <
    computed.meanNs + tscToNs gTscHz 1
  stddev_le : computed.stddevNs ^ 2 ≤
    dispersion (times gTscHz samples) / samples.length
  lt_stddev : dispersion (times gTscHz samples) / samples.length <
    (computed.stddevNs + tscToNs gTscHz 1) ^ 2
  stddev_le_range : 2 * computed.stddevNs ≤ computed.maxNs - computed.minNs

theorem tscToNs_ofNat (gTscHz : ℚ) {count : ℕ} (fits : count < 2 ^ 64) :
    tscToNs gTscHz (UInt64.ofNat count) = count * (10 ^ 9 / gTscHz) := by
  rw [tscToNs_eq, UInt64.toNat_ofNat_of_lt' fits]

theorem metrics_accurate {gTscHz : ℚ} (ticking : 0 < gTscHz) (stats : Stats)
    (recorded : stats.samples ≠ []) (fits : SumFits stats.samples) :
    Accurate gTscHz stats.samples (stats.metrics gTscHz) := by
  have tick := tick_pos ticking
  have one : tscToNs gTscHz 1 = 10 ^ 9 / gTscHz := by
    rw [tscToNs_eq]
    exact one_mul _
  have above : ∀ sample ∈ stats.samples,
      stats.lowest.toNat ≤ sample.toNat :=
    fun sample listed => (stats.lowest_le_highest listed).1
  have below : ∀ sample ∈ stats.samples,
      sample.toNat ≤ stats.highest.toNat :=
    fun sample listed => (stats.lowest_le_highest listed).2
  obtain ⟨sample, listed⟩ := List.exists_mem_of_ne_nil _ recorded
  have ordered := (above sample listed).trans (below sample listed)
  have highestLt := stats.highest.toNat_lt
  have meanLt : ⌊meanCyc stats.samples⌋₊ < 2 ^ 64 :=
    (floor_meanCyc_le recorded below).trans_lt highestLt
  have spread := sqrt_variance_le recorded fits above below
  have rootLt : Nat.sqrt ⌊variance stats.samples / stats.samples.length⌋₊ <
      2 ^ 64 := by
    omega
  have meanNs := tscToNs_ofNat gTscHz meanLt
  have stddevNs := tscToNs_ofNat gTscHz rootLt
  have meanEq : mean (times gTscHz stats.samples) =
      meanCyc stats.samples * (10 ^ 9 / gTscHz) := by
    rw [times_eq, SampleStatistics.mean_map_mul, meanCyc_eq fits]
  have varianceEq : dispersion (times gTscHz stats.samples) /
      stats.samples.length =
        variance stats.samples / stats.samples.length *
          (10 ^ 9 / gTscHz) ^ 2 := by
    rw [times_eq, SampleStatistics.dispersion_map_mul, variance_eq fits, sq,
      mul_div_right_comm]
  have meanNonneg : 0 ≤ meanCyc stats.samples :=
    div_nonneg (Nat.cast_nonneg _) (Nat.cast_nonneg _)
  have varianceNonneg : 0 ≤ variance stats.samples / stats.samples.length := by
    rw [variance_eq fits]
    exact div_nonneg (SampleStatistics.dispersion_nonneg _)
      (Nat.cast_nonneg _)
  refine ⟨?_, ?_, ?_, ?_, ?_, ?_⟩
  · change tscToNs gTscHz stats.lowest ≤ tscToNs gTscHz (UInt64.ofNat _)
    apply tscToNs_mono ticking
    rw [UInt64.toNat_ofNat_of_lt' meanLt]
    exact le_floor_meanCyc recorded fits above
  · change tscToNs gTscHz (UInt64.ofNat _) ≤ _
    rw [meanNs, meanEq]
    exact mul_le_mul_of_nonneg_right (Nat.floor_le meanNonneg) tick.le
  · change _ < tscToNs gTscHz (UInt64.ofNat _) + _
    rw [meanNs, meanEq, one, ← add_one_mul]
    exact mul_lt_mul_of_pos_right (Nat.lt_floor_add_one _) tick
  · change tscToNs gTscHz (UInt64.ofNat _) ^ 2 ≤ _
    rw [stddevNs, varianceEq, mul_pow]
    apply mul_le_mul_of_nonneg_right _ (sq_nonneg _)
    rw [← Nat.cast_pow]
    exact (Nat.cast_le.mpr (Nat.sqrt_le' _)).trans
      (Nat.floor_le varianceNonneg)
  · change _ < (tscToNs gTscHz (UInt64.ofNat _) + _) ^ 2
    rw [stddevNs, varianceEq, one, ← add_one_mul, mul_pow]
    apply mul_lt_mul_of_pos_right _ (pow_pos tick 2)
    rw [← Nat.cast_add_one, ← Nat.cast_pow]
    exact (Nat.floor_lt varianceNonneg).mp (Nat.lt_succ_sqrt' _)
  · change 2 * tscToNs gTscHz (UInt64.ofNat _) ≤
      tscToNs gTscHz stats.highest - tscToNs gTscHz stats.lowest
    apply tscToNs_range ticking ordered 2
    rw [UInt64.toNat_ofNat_of_lt' rootLt]
    exact spread

/-- Even where the sum wraps, the mean is not above the maximum. -/
theorem metrics_mean_le_max {gTscHz : ℚ} (ticking : 0 < gTscHz)
    (stats : Stats) (recorded : stats.samples ≠ []) :
    (stats.metrics gTscHz).meanNs ≤ (stats.metrics gTscHz).maxNs := by
  have bound : ⌊meanCyc stats.samples⌋₊ ≤ stats.highest.toNat :=
    floor_meanCyc_le recorded
      (fun sample listed => (stats.lowest_le_highest listed).2)
  apply tscToNs_mono ticking
  rw [UInt64.toNat_ofNat_of_lt' (bound.trans_lt stats.highest.toNat_lt)]
  exact bound

/-- The jitter is an average of distances between samples. -/
theorem metrics_jitter {gTscHz : ℚ} (ticking : 0 < gTscHz) (stats : Stats)
    (recorded : stats.samples ≠ []) :
    0 ≤ (stats.metrics gTscHz).jitterNs ∧
      (stats.metrics gTscHz).jitterNs ≤
        (stats.metrics gTscHz).maxNs - (stats.metrics gTscHz).minNs := by
  obtain ⟨sample, listed⟩ := List.exists_mem_of_ne_nil _ recorded
  obtain ⟨above, below⟩ := stats.lowest_le_highest listed
  change 0 ≤ jitterNs gTscHz stats.samples ∧
    jitterNs gTscHz stats.samples ≤
      tscToNs gTscHz stats.highest - tscToNs gTscHz stats.lowest
  by_cases several : 1 < stats.samples.length
  · rw [jitterNs_eq gTscHz several]
    have nonempty : SlidingWindow.consecutive
        (fun previous current => tscToNs gTscHz (apart current previous))
        stats.samples ≠ [] := by
      rw [Ne, ← List.length_eq_zero_iff, SlidingWindow.consecutive_length]
      omega
    constructor
    · apply SampleStatistics.le_mean nonempty
      intro distance distanceIn
      obtain ⟨_, _, _, _, rfl⟩ := SlidingWindow.mem_consecutive distanceIn
      exact tscToNs_nonneg ticking _
    · apply SampleStatistics.mean_le nonempty
      intro distance distanceIn
      obtain ⟨previous, previousIn, current, currentIn, rfl⟩ :=
        SlidingWindow.mem_consecutive distanceIn
      obtain ⟨previousAbove, previousBelow⟩ :=
        stats.lowest_le_highest previousIn
      obtain ⟨currentAbove, currentBelow⟩ :=
        stats.lowest_le_highest currentIn
      have taken := apart_le current previous
      have range := tscToNs_range ticking (above.trans below) 1
        (show 1 * (apart current previous).toNat ≤ _ by omega)
      rwa [Nat.cast_one, one_mul] at range
  · have single : jitterNs gTscHz stats.samples = 0 := if_neg several
    rw [single]
    exact ⟨le_refl _, sub_nonneg.mpr (tscToNs_mono ticking
      (above.trans below))⟩

/-- For every recorded list of samples: the mean is not above the maximum and
the jitter is within the range; and if the 64-bit sum does not wrap, mean and
standard deviation are those of the samples to within one cycle, the mean is
not below the minimum, and the deviation is at most half the range. -/
theorem compute_moments {gTscHz : ℚ} (ticking : 0 < gTscHz) (stats : Stats)
    (recorded : stats.samples ≠ []) (result : StatsResult) :
    ∃ computed, compute gTscHz stats result = some (stats.sorted, computed) ∧
      computed.meanNs ≤ computed.maxNs ∧
      0 ≤ computed.jitterNs ∧
      computed.jitterNs ≤ computed.maxNs - computed.minNs ∧
      (SumFits stats.samples → Accurate gTscHz stats.samples computed) := by
  obtain ⟨jitterNonneg, jitterLe⟩ := stats.metrics_jitter ticking recorded
  exact ⟨stats.metrics gTscHz,
    stats.compute_eq gTscHz result (List.length_pos_iff.mpr recorded),
    stats.metrics_mean_le_max ticking recorded, jitterNonneg, jitterLe,
    stats.metrics_accurate ticking recorded⟩

theorem compute_moments_two :
    ∃ computed, compute (10 ^ 9) twoSamples (twoSamples.metrics (10 ^ 9)) =
        some (twoSamples.sorted, computed) ∧
      Accurate (10 ^ 9) twoSamples.samples computed := by
  obtain ⟨computed, reported, _, _, _, accurate⟩ :=
    compute_moments (show (0 : ℚ) < 10 ^ 9 by norm_num) twoSamples
      (List.cons_ne_nil 7 [3]) (twoSamples.metrics (10 ^ 9))
  exact ⟨computed, reported, accurate (by decide)⟩

end Stats

end Waler
