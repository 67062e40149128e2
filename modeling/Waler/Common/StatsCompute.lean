/-
`stats_compute` of stats.h: the metrics of the recorded samples.

Doubles are exact rationals.  An array access outside the samples has no value.
The comparison function orders words as numbers, and words that compare equal
are equal, so the order in which `qsort` leaves them is the only sorted one.
-/

import Mathlib.Data.List.GetD
import Mathlib.Data.Nat.Sqrt
import Waler.Common.Stats
import Waler.Foundation.Interpolation
import Waler.Foundation.SlidingWindow

namespace Waler

structure StatsResult where
  n : ℕ
  minNs : ℚ
  maxNs : ℚ
  meanNs : ℚ
  stddevNs : ℚ
  p50Ns : ℚ
  p90Ns : ℚ
  p95Ns : ℚ
  p99Ns : ℚ
  p999Ns : ℚ
  p9999Ns : ℚ
  p99999Ns : ℚ
  jitterNs : ℚ
  deriving DecidableEq, Repr

namespace Stats

/-! ### Computing -/

def cmpU64 (x y : UInt64) : ℤ :=
  (if x > y then 1 else 0) - (if x < y then 1 else 0)

def notAbove (x y : UInt64) : Bool :=
  decide (cmpU64 x y ≤ 0)

/-- `qsort(s->samples, n, sizeof(uint64_t), _stats_cmp_u64)`. -/
def sorted (stats : Stats) : Stats :=
  { samples := stats.samples.mergeSort notAbove
    capacity := stats.capacity
    bounded := by
      rw [List.length_mergeSort]
      exact stats.bounded }

def pct (gTscHz : ℚ) (sorted : List UInt64) (p : ℚ) : Option ℚ :=
  let n := sorted.length
  let idx := p * (n - 1 : ℕ)
  let lo := ⌊idx⌋₊
  let hi := if lo + 1 < n then lo + 1 else lo
  let frac := idx - lo
  match sorted[lo]?, sorted[hi]? with
  | some below, some above =>
      some (tscToNs gTscHz below * (1 - frac) + tscToNs gTscHz above * frac)
  | _, _ => none

/-- `|d|` of the signed difference of two samples. -/
def apart (current previous : UInt64) : UInt64 :=
  let d := current.toInt64 - previous.toInt64
  (if d < 0 then -d else d).toUInt64

def jitterNs (gTscHz : ℚ) (samples : List UInt64) : ℚ :=
  let jitterSum :=
    (SlidingWindow.consecutive
      (fun previous current => tscToNs gTscHz (apart current previous))
      samples).foldl (· + ·) 0
  if samples.length > 1 then jitterSum / (samples.length - 1 : ℕ) else 0

/-- `mean_cyc`; the sum is a 64-bit sum. -/
def meanCyc (samples : List UInt64) : ℚ :=
  (samples.foldl (· + ·) 0).toNat / samples.length

def variance (samples : List UInt64) : ℚ :=
  samples.foldl
    (fun var sample =>
      var + (sample.toNat - meanCyc samples) * (sample.toNat - meanCyc samples))
    0

/-- `stats_compute`: the samples are left sorted.  The square root of the
variance is taken down to an integer, as the cast takes it. -/
def compute (gTscHz : ℚ) (stats : Stats) (result : StatsResult) :
    Option (Stats × StatsResult) :=
  let n := stats.samples.length
  if n = 0 then some (stats, { result with n := n })
  else do
    let jitter := jitterNs gTscHz stats.samples
    let mean := tscToNs gTscHz (UInt64.ofNat ⌊meanCyc stats.samples⌋₊)
    let stddev := tscToNs gTscHz
      (UInt64.ofNat (Nat.sqrt ⌊variance stats.samples / n⌋₊))
    let samples := stats.sorted.samples
    let min ← samples[0]?
    let max ← samples[n - 1]?
    let p50 ← pct gTscHz samples (50 / 100)
    let p90 ← pct gTscHz samples (90 / 100)
    let p95 ← pct gTscHz samples (95 / 100)
    let p99 ← pct gTscHz samples (99 / 100)
    let p999 ← pct gTscHz samples (999 / 1000)
    let p9999 ← pct gTscHz samples (9999 / 10000)
    let p99999 ← pct gTscHz samples (99999 / 100000)
    pure (stats.sorted,
      { n := n
        minNs := tscToNs gTscHz min
        maxNs := tscToNs gTscHz max
        meanNs := mean
        stddevNs := stddev
        p50Ns := p50
        p90Ns := p90
        p95Ns := p95
        p99Ns := p99
        p999Ns := p999
        p9999Ns := p9999
        p99999Ns := p99999
        jitterNs := jitter })

/-! ### Sorted samples -/

theorem notAbove_iff (x y : UInt64) :
    notAbove x y = true ↔ x.toNat ≤ y.toNat := by
  unfold notAbove cmpU64
  rw [decide_eq_true_iff]
  simp only [gt_iff_lt, UInt64.lt_iff_toNat_lt]
  rcases Nat.lt_trichotomy x.toNat y.toNat with below | same | above
  · rw [if_neg (by omega), if_pos below]
    omega
  · rw [if_neg (by omega), if_neg (by omega)]
    omega
  · rw [if_pos above, if_neg (by omega)]
    omega

theorem notAbove_trans (x y z : UInt64) (first : notAbove x y = true)
    (second : notAbove y z = true) : notAbove x z = true := by
  rw [notAbove_iff] at *
  omega

theorem notAbove_total (x y : UInt64) :
    (notAbove x y || notAbove y x) = true := by
  rw [Bool.or_eq_true, notAbove_iff, notAbove_iff]
  omega

theorem sorted_pairwise (stats : Stats) :
    stats.sorted.samples.Pairwise (fun x y => x.toNat ≤ y.toNat) :=
  (List.pairwise_mergeSort notAbove_trans notAbove_total stats.samples).imp
    (fun ordered => (notAbove_iff _ _).mp ordered)

theorem sorted_perm (stats : Stats) :
    stats.sorted.samples.Perm stats.samples :=
  List.mergeSort_perm _ _

/-- The sorted samples depend on the samples as a multiset only. -/
theorem sorted_samples_eq {stats other : Stats}
    (perm : other.samples.Perm stats.samples) :
    other.sorted.samples = stats.sorted.samples := by
  apply List.Perm.eq_of_pairwise _ other.sorted_pairwise stats.sorted_pairwise
  · exact (other.sorted_perm.trans perm).trans stats.sorted_perm.symm
  · intro x y _ _ below above
    exact UInt64.toNat_inj.mp (Nat.le_antisymm below above)

/-! ### Percentiles -/

/-- The sorted samples as a sequence of times. -/
def timeAt (gTscHz : ℚ) (stats : Stats) (index : ℕ) : ℚ :=
  tscToNs gTscHz (stats.sorted.samples.getD index 0)

theorem sorted_length (stats : Stats) :
    stats.sorted.samples.length = stats.samples.length :=
  stats.sorted_perm.length_eq

theorem timeAt_nondecreasing {gTscHz : ℚ} (ticking : 0 < gTscHz)
    (stats : Stats) :
    Interpolation.Nondecreasing stats.samples.length
      (stats.timeAt gTscHz) := by
  intro index later ordered inside
  rw [← sorted_length] at inside
  unfold timeAt
  rw [List.getD_eq_getElem _ _ inside,
    List.getD_eq_getElem _ _ (Nat.lt_of_le_of_lt ordered inside)]
  apply tscToNs_mono ticking
  rcases Nat.lt_or_eq_of_le ordered with before | same
  · exact List.pairwise_iff_getElem.mp stats.sorted_pairwise index later
      (Nat.lt_of_le_of_lt ordered inside) inside before
  · subst same
    exact Nat.le_refl _

theorem sample_getElem? (stats : Stats) {index : ℕ}
    (inside : index < stats.samples.length) :
    stats.sorted.samples[index]? =
      some (stats.sorted.samples.getD index 0) := by
  rw [← sorted_length] at inside
  rw [List.getElem?_eq_getElem inside, List.getD_eq_getElem _ _ inside]

/-- The position of a percentile is inside the samples. -/
theorem floor_position_lt {count : ℕ} (positive : 0 < count) {p : ℚ}
    (atMost : p ≤ 1) :
    ⌊p * (count - 1 : ℕ)⌋₊ < count := by
  have scaled : p * (count - 1 : ℕ) ≤ (count - 1 : ℕ) :=
    mul_le_of_le_one_left (Nat.cast_nonneg _) atMost
  have floored := Nat.floor_mono scaled
  rw [Nat.floor_natCast] at floored
  omega

/-- The percentile of the sorted samples, as a position between times. -/
def percentile (gTscHz : ℚ) (stats : Stats) (p : ℚ) : ℚ :=
  Interpolation.interpolate stats.samples.length (stats.timeAt gTscHz)
    (p * (stats.samples.length - 1 : ℕ))

/-- `_pct` reads inside the array and interpolates between neighbours. -/
theorem pct_eq (gTscHz : ℚ) (stats : Stats)
    (recorded : 0 < stats.samples.length) {p : ℚ} (atMost : p ≤ 1) :
    pct gTscHz stats.sorted.samples p = some (stats.percentile gTscHz p) := by
  have inside := floor_position_lt recorded atMost
  have above := Interpolation.neighbour_lt inside
  have hi : ∀ lo, (if lo + 1 < stats.samples.length then lo + 1 else lo) =
      Interpolation.neighbour stats.samples.length lo := fun _ => rfl
  have weighted : ∀ low high frac : ℚ, low * (1 - frac) + high * frac =
      Interpolation.between low high frac := fun _ _ _ => rfl
  unfold pct
  dsimp only
  rw [sorted_length, hi, sample_getElem? stats inside,
    sample_getElem? stats above]
  dsimp only
  rw [weighted]
  rfl

section Ordered

variable {gTscHz : ℚ} (ticking : 0 < gTscHz) (stats : Stats)
  (recorded : 0 < stats.samples.length) {p q : ℚ}

include ticking recorded

theorem first_le_percentile (nonneg : 0 ≤ p) (atMost : p ≤ 1) :
    stats.timeAt gTscHz 0 ≤ stats.percentile gTscHz p :=
  Interpolation.first_le_interpolate (stats.timeAt_nondecreasing ticking)
    (mul_nonneg nonneg (Nat.cast_nonneg _))
    (floor_position_lt recorded atMost)

theorem percentile_mono (nonneg : 0 ≤ p) (ordered : p ≤ q)
    (atMost : q ≤ 1) :
    stats.percentile gTscHz p ≤ stats.percentile gTscHz q :=
  Interpolation.interpolate_mono (stats.timeAt_nondecreasing ticking)
    (mul_nonneg nonneg (Nat.cast_nonneg _))
    (mul_le_mul_of_nonneg_right ordered (Nat.cast_nonneg _))
    (floor_position_lt recorded atMost)

theorem percentile_le_last (atMost : p ≤ 1) :
    stats.percentile gTscHz p ≤
      stats.timeAt gTscHz (stats.samples.length - 1) :=
  Interpolation.interpolate_le_last (stats.timeAt_nondecreasing ticking)
    (floor_position_lt recorded atMost)

end Ordered

/-! ### The metrics -/

/-- What `stats_compute` reports for recorded samples. -/
def metrics (gTscHz : ℚ) (stats : Stats) : StatsResult :=
  { n := stats.samples.length
    minNs := stats.timeAt gTscHz 0
    maxNs := stats.timeAt gTscHz (stats.samples.length - 1)
    meanNs := tscToNs gTscHz (UInt64.ofNat ⌊meanCyc stats.samples⌋₊)
    stddevNs := tscToNs gTscHz (UInt64.ofNat
      (Nat.sqrt ⌊variance stats.samples / stats.samples.length⌋₊))
    p50Ns := stats.percentile gTscHz (50 / 100)
    p90Ns := stats.percentile gTscHz (90 / 100)
    p95Ns := stats.percentile gTscHz (95 / 100)
    p99Ns := stats.percentile gTscHz (99 / 100)
    p999Ns := stats.percentile gTscHz (999 / 1000)
    p9999Ns := stats.percentile gTscHz (9999 / 10000)
    p99999Ns := stats.percentile gTscHz (99999 / 100000)
    jitterNs := jitterNs gTscHz stats.samples }

theorem compute_eq (gTscHz : ℚ) (stats : Stats) (result : StatsResult)
    (recorded : 0 < stats.samples.length) :
    compute gTscHz stats result =
      some (stats.sorted, stats.metrics gTscHz) := by
  have read : ∀ p : ℚ, p ≤ 1 → pct gTscHz stats.sorted.samples p =
      some (stats.percentile gTscHz p) :=
    fun p atMost => stats.pct_eq gTscHz recorded atMost
  unfold compute
  dsimp only
  rw [if_neg (Nat.ne_of_gt recorded), sample_getElem? stats recorded,
    sample_getElem? stats (Nat.sub_lt recorded Nat.one_pos),
    read _ (by norm_num), read _ (by norm_num), read _ (by norm_num),
    read _ (by norm_num), read _ (by norm_num), read _ (by norm_num),
    read _ (by norm_num)]
  rfl

/-- No sample is outside the reported minimum and maximum. -/
theorem metrics_bounds {gTscHz : ℚ} (ticking : 0 < gTscHz) (stats : Stats)
    {sample : UInt64} (listed : sample ∈ stats.samples) :
    (stats.metrics gTscHz).minNs ≤ tscToNs gTscHz sample ∧
      tscToNs gTscHz sample ≤ (stats.metrics gTscHz).maxNs := by
  have sorted := stats.timeAt_nondecreasing ticking
  obtain ⟨index, inside, rfl⟩ :=
    List.mem_iff_getElem.mp (stats.sorted_perm.mem_iff.mpr listed)
  have here : stats.timeAt gTscHz index =
      tscToNs gTscHz stats.sorted.samples[index] := by
    unfold timeAt
    rw [List.getD_eq_getElem _ _ inside]
  rw [sorted_length] at inside
  rw [← here]
  exact ⟨sorted 0 index (Nat.zero_le _) inside,
    sorted index _ (by omega) (by omega)⟩

/-- The chain of reported times from the minimum to the maximum. -/
structure Ordered (result : StatsResult) : Prop where
  min_le_p50 : result.minNs ≤ result.p50Ns
  p50_le_p90 : result.p50Ns ≤ result.p90Ns
  p90_le_p95 : result.p90Ns ≤ result.p95Ns
  p95_le_p99 : result.p95Ns ≤ result.p99Ns
  p99_le_p999 : result.p99Ns ≤ result.p999Ns
  p999_le_p9999 : result.p999Ns ≤ result.p9999Ns
  p9999_le_p99999 : result.p9999Ns ≤ result.p99999Ns
  p99999_le_max : result.p99999Ns ≤ result.maxNs

theorem metrics_ordered {gTscHz : ℚ} (ticking : 0 < gTscHz) (stats : Stats)
    (recorded : 0 < stats.samples.length) :
    Ordered (stats.metrics gTscHz) := by
  have mono : ∀ p q : ℚ, 0 ≤ p → p ≤ q → q ≤ 1 →
      stats.percentile gTscHz p ≤ stats.percentile gTscHz q :=
    fun _ _ => stats.percentile_mono ticking recorded
  exact
    { min_le_p50 := stats.first_le_percentile ticking recorded
        (by norm_num) (by norm_num)
      p50_le_p90 := mono _ _ (by norm_num) (by norm_num) (by norm_num)
      p90_le_p95 := mono _ _ (by norm_num) (by norm_num) (by norm_num)
      p95_le_p99 := mono _ _ (by norm_num) (by norm_num) (by norm_num)
      p99_le_p999 := mono _ _ (by norm_num) (by norm_num) (by norm_num)
      p999_le_p9999 := mono _ _ (by norm_num) (by norm_num) (by norm_num)
      p9999_le_p99999 := mono _ _ (by norm_num) (by norm_num) (by norm_num)
      p99999_le_max := stats.percentile_le_last ticking recorded
        (by norm_num) }

/-! ### Order of recording -/

theorem meanCyc_perm {samples others : List UInt64}
    (perm : others.Perm samples) : meanCyc others = meanCyc samples := by
  have sums : others.foldl (· + ·) 0 = samples.foldl (· + ·) 0 := by
    apply perm.foldl_eq'
    intro x _ y _ sum
    rw [UInt64.add_assoc, UInt64.add_comm x y, ← UInt64.add_assoc]
  unfold meanCyc
  rw [sums, perm.length_eq]

theorem variance_perm {samples others : List UInt64}
    (perm : others.Perm samples) : variance others = variance samples := by
  unfold variance
  rw [meanCyc_perm perm]
  apply perm.foldl_eq'
  intro x _ y _ var
  exact add_right_comm var _ _

/-- Only the jitter knows the order of recording. -/
theorem metrics_perm (gTscHz : ℚ) {stats other : Stats}
    (perm : other.samples.Perm stats.samples) :
    { other.metrics gTscHz with
      jitterNs := (stats.metrics gTscHz).jitterNs } =
        stats.metrics gTscHz := by
  have times : other.timeAt gTscHz = stats.timeAt gTscHz := by
    unfold timeAt
    rw [sorted_samples_eq perm]
  have percentiles : other.percentile gTscHz = stats.percentile gTscHz := by
    unfold percentile
    rw [perm.length_eq, times]
  unfold metrics
  rw [perm.length_eq, times, percentiles, meanCyc_perm perm,
    variance_perm perm]

/-- For every recorded list of samples: `stats_compute` and `_pct` read inside
the array, the percentiles are ordered between the smallest and the largest
sample, the reported ones too, and another order of recording changes nothing
but the jitter. -/
theorem compute_percentiles {gTscHz : ℚ} (ticking : 0 < gTscHz)
    (stats : Stats) (recorded : stats.samples ≠ []) (result : StatsResult) :
    ∃ computed,
      compute gTscHz stats result = some (stats.sorted, computed) ∧
      (∀ sample ∈ stats.samples,
        computed.minNs ≤ tscToNs gTscHz sample ∧
          tscToNs gTscHz sample ≤ computed.maxNs) ∧
      (∀ p q, 0 ≤ p → p ≤ q → q ≤ 1 →
        ∃ atP atQ, pct gTscHz stats.sorted.samples p = some atP ∧
          pct gTscHz stats.sorted.samples q = some atQ ∧
            computed.minNs ≤ atP ∧ atP ≤ atQ ∧ atQ ≤ computed.maxNs) ∧
      Ordered computed ∧
      ∀ other : Stats, other.samples.Perm stats.samples →
        ∀ earlier, ∃ reordered,
          compute gTscHz other earlier = some (other.sorted, reordered) ∧
            { reordered with jitterNs := computed.jitterNs } = computed := by
  have counted : 0 < stats.samples.length :=
    List.length_pos_iff.mpr recorded
  refine ⟨stats.metrics gTscHz, stats.compute_eq gTscHz result counted,
    fun sample listed => stats.metrics_bounds ticking listed, ?_,
    stats.metrics_ordered ticking counted, ?_⟩
  · intro p q nonneg ordered atMost
    exact ⟨_, _, stats.pct_eq gTscHz counted (ordered.trans atMost),
      stats.pct_eq gTscHz counted atMost,
      stats.first_le_percentile ticking counted nonneg
        (ordered.trans atMost),
      stats.percentile_mono ticking counted nonneg ordered atMost,
      stats.percentile_le_last ticking counted atMost⟩
  · intro other perm earlier
    exact ⟨_, other.compute_eq gTscHz earlier (perm.length_eq ▸ counted),
      metrics_perm gTscHz perm⟩

def twoSamples : Stats :=
  ((init 2).record 7).record 3

/-- Two samples, recorded in falling order. -/
theorem compute_percentiles_two :
    ∃ computed, compute (10 ^ 9) twoSamples (twoSamples.metrics (10 ^ 9)) =
        some (twoSamples.sorted, computed) ∧ Ordered computed := by
  obtain ⟨computed, reported, _, _, ordered, _⟩ :=
    compute_percentiles (show (0 : ℚ) < 10 ^ 9 by norm_num) twoSamples
      (List.cons_ne_nil 7 [3]) (twoSamples.metrics (10 ^ 9))
  exact ⟨computed, reported, ordered⟩

end Stats

end Waler
