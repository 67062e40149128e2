/-
`tsc_calibrate` of timing.h, and what its frequency makes of every time that
`stats_compute` reports.

The program reads the monotonic clock and the counter one after the other,
sleeps, and reads both again.  It cannot see how much later than the clock it
reads the counter, nor what part of a nanosecond and of a tick has passed.
Doubles are exact rationals.
-/

import Mathlib.Tactic.Linarith
import Mathlib.Tactic.Ring
import Waler.Common.StatsBounds

namespace Waler

/-- `g_tsc_hz` from the readings before and after the sleep. -/
def tscCalibrate (t0Ts : Timespec) (t0Tsc : UInt64) (t1Ts : Timespec)
    (t1Tsc : UInt64) : ℚ :=
  let wallNs : ℚ := (t1Ts.tvSec - t0Ts.tvSec).toInt * 10 ^ 9 +
    (t1Ts.tvNsec - t0Ts.tvNsec).toInt
  (t1Tsc - t0Tsc).toNat / wallNs * 10 ^ 9

namespace TscCalibrate

/-- A pair of readings: of the clock at a time, and of a counter that goes at
`hz` at most `lag` nanoseconds later. -/
structure ReadAt (hz phase lag time : ℚ) (ts : Timespec) (tsc : UInt64) :
    Prop where
  sec : 0 ≤ ts.tvSec.toInt
  nsec : 0 ≤ ts.tvNsec.toInt
  clock : ⌊time⌋ = ts.tvSec.toInt * 10 ^ 9 + ts.tvNsec.toInt
  counter : ∃ later, time ≤ later ∧ later ≤ time + lag ∧
    tsc = UInt64.ofNat ⌊phase + hz * later / 10 ^ 9⌋₊

/-- What the readings can hide: the lag, a nanosecond and a tick. -/
def drift (hz lag : ℚ) : ℚ :=
  hz * (lag + 1) + 10 ^ 9

/-- A calibration against steady clocks.  The sleep is longer than what the
readings hide, and the counter does not come round in it. -/
structure Steady (hz phase lag time0 time1 : ℚ) (t0Ts : Timespec)
    (t0Tsc : UInt64) (t1Ts : Timespec) (t1Tsc : UInt64) : Prop where
  ticking : 0 < hz
  started : 0 ≤ phase
  first : ReadAt hz phase lag time0 t0Ts t0Tsc
  second : ReadAt hz phase lag time1 t1Ts t1Tsc
  long : drift hz lag < hz * (time1 - time0 - 1)
  short : hz * (time1 - time0 + lag) / 10 ^ 9 + 1 ≤ 2 ^ 64

theorem toInt_sub_of_nonneg {after before : Int64} (late : 0 ≤ after.toInt)
    (early : 0 ≤ before.toInt) :
    (after - before).toInt = after.toInt - before.toInt := by
  have lateLt := after.toInt_lt
  have earlyLt := before.toInt_lt
  rw [Int64.toInt_sub]
  exact Int.bmod_eq_of_le (by omega) (by omega)

theorem toNat_sub_ofNat {before after : ℕ} (ordered : before ≤ after)
    (within : after - before < 2 ^ 64) :
    (UInt64.ofNat after - UInt64.ofNat before).toNat = after - before := by
  rw [← UInt64.ofNat_sub ordered, UInt64.toNat_ofNat_of_lt' within]

theorem floor_sub_near {before after : ℚ} (nonneg : 0 ≤ before)
    (ordered : before ≤ after) :
    |((⌊after⌋₊ - ⌊before⌋₊ : ℕ) : ℚ) - (after - before)| < 1 := by
  have below0 := Nat.floor_le nonneg
  have above0 := Nat.lt_floor_add_one before
  have below1 := Nat.floor_le (nonneg.trans ordered)
  have above1 := Nat.lt_floor_add_one after
  rw [Nat.cast_sub (Nat.floor_mono ordered), abs_lt]
  constructor <;> linarith

section

variable {hz phase lag time0 time1 : ℚ} {t0Ts t1Ts : Timespec}
  {t0Tsc t1Tsc : UInt64}

theorem ReadAt.time_nonneg (reading : ReadAt hz phase lag time0 t0Ts t0Tsc) :
    0 ≤ time0 := by
  have sec := reading.sec
  have nsec := reading.nsec
  rw [← Int.floor_nonneg, reading.clock]
  omega

theorem wallNs_eq (first : ReadAt hz phase lag time0 t0Ts t0Tsc)
    (second : ReadAt hz phase lag time1 t1Ts t1Tsc) :
    ((t1Ts.tvSec - t0Ts.tvSec).toInt * 10 ^ 9 +
      (t1Ts.tvNsec - t0Ts.tvNsec).toInt : ℚ) = (⌊time1⌋ - ⌊time0⌋ : ℤ) := by
  rw [toInt_sub_of_nonneg second.sec first.sec,
    toInt_sub_of_nonneg second.nsec first.nsec, first.clock, second.clock]
  push_cast
  ring

/-- The ticks between the readings of the counter, up to one. -/
theorem ticks_near (steady : Steady hz phase lag time0 time1 t0Ts t0Tsc t1Ts
      t1Tsc) :
    ∃ passed : ℚ, |passed - (time1 - time0)| ≤ lag ∧
      |((t1Tsc - t0Tsc).toNat : ℚ) * 10 ^ 9 - hz * passed| ≤ 10 ^ 9 := by
  obtain ⟨later0, after0, prompt0, rfl⟩ := steady.first.counter
  obtain ⟨later1, after1, prompt1, rfl⟩ := steady.second.counter
  have ticking := steady.ticking
  have long := steady.long
  have short := steady.short
  have apart : later0 ≤ later1 := by
    unfold drift at long
    have bound : hz * (lag + 1) < hz * (time1 - time0 - 1) := by linarith
    have := lt_of_mul_lt_mul_left bound ticking.le
    linarith
  have ordered : phase + hz * later0 / 10 ^ 9 ≤
      phase + hz * later1 / 10 ^ 9 := by gcongr
  have nonneg0 : 0 ≤ phase + hz * later0 / 10 ^ 9 := by
    have := steady.started
    have : 0 ≤ later0 := steady.first.time_nonneg.trans after0
    positivity
  have scaled : phase + hz * later1 / 10 ^ 9 - (phase + hz * later0 / 10 ^ 9) =
      hz * (later1 - later0) / 10 ^ 9 := by ring
  have near := floor_sub_near nonneg0 ordered
  rw [scaled] at near
  have few : ⌊phase + hz * later1 / 10 ^ 9⌋₊ -
      ⌊phase + hz * later0 / 10 ^ 9⌋₊ < 2 ^ 64 := by
    have spread : hz * (later1 - later0) / 10 ^ 9 ≤
        hz * (time1 - time0 + lag) / 10 ^ 9 := by
      gcongr
      linarith
    have wide := (abs_lt.mp near).2
    rw [← Nat.cast_lt (α := ℚ)]
    push_cast
    linarith
  refine ⟨later1 - later0, ?_, ?_⟩
  · rw [abs_le]
    constructor <;> linarith
  · rw [toNat_sub_ofNat (Nat.floor_mono ordered) few]
    rw [abs_lt] at near
    rw [abs_le]
    constructor <;> linarith

theorem Steady.slept (steady : Steady hz phase lag time0 time1 t0Ts t0Tsc t1Ts
      t1Tsc) :
    0 < time1 - time0 - 1 := by
  obtain ⟨later, after, prompt, _⟩ := steady.first.counter
  have ticking := steady.ticking
  have lagged : 0 ≤ lag := by linarith
  have hidden : 0 < drift hz lag := by
    unfold drift
    positivity
  exact (mul_pos_iff_of_pos_left ticking).mp (hidden.trans steady.long)

theorem tscCalibrate_near (steady : Steady hz phase lag time0 time1 t0Ts t0Tsc
      t1Ts t1Tsc) :
    |tscCalibrate t0Ts t0Tsc t1Ts t1Tsc - hz| * (time1 - time0 - 1) ≤
      drift hz lag := by
  obtain ⟨passed, span, ticks⟩ := ticks_near steady
  have ticking := steady.ticking
  have slept := steady.slept
  have below0 := Int.floor_le time0
  have above0 := Int.lt_floor_add_one time0
  have below1 := Int.floor_le time1
  have above1 := Int.lt_floor_add_one time1
  unfold tscCalibrate
  dsimp only
  rw [wallNs_eq steady.first steady.second]
  have whole : ((⌊time1⌋ - ⌊time0⌋ : ℤ) : ℚ) = ⌊time1⌋ - ⌊time0⌋ :=
    Int.cast_sub _ _
  generalize ((⌊time1⌋ - ⌊time0⌋ : ℤ) : ℚ) = wall at *
  have long : time1 - time0 - 1 < wall := by linarith
  have off : |passed - wall| ≤ lag + 1 := by
    rw [abs_le] at span ⊢
    constructor <;> linarith
  generalize ((t1Tsc - t0Tsc).toNat : ℚ) = count at *
  have wallPos : 0 < wall := slept.trans long
  calc |count / wall * 10 ^ 9 - hz| * (time1 - time0 - 1)
      ≤ |count / wall * 10 ^ 9 - hz| * wall :=
        mul_le_mul_of_nonneg_left long.le (abs_nonneg _)
    _ = |count * 10 ^ 9 - hz * wall| := by
        rw [← abs_of_pos wallPos, ← abs_mul, abs_of_pos wallPos, sub_mul,
          mul_right_comm, div_mul_cancel₀ _ wallPos.ne']
    _ ≤ |count * 10 ^ 9 - hz * passed| + |hz * (passed - wall)| := by
        have split : count * 10 ^ 9 - hz * wall =
            (count * 10 ^ 9 - hz * passed) + hz * (passed - wall) := by ring
        rw [split]
        exact abs_add_le _ _
    _ ≤ 10 ^ 9 + hz * (lag + 1) := by
        rw [abs_mul, abs_of_pos ticking]
        exact add_le_add ticks (mul_le_mul_of_nonneg_left off ticking.le)
    _ = drift hz lag := add_comm _ _

end

end TscCalibrate

/-! ### Reported times -/

theorem tscToNs_scaled {hz : ℚ} (gTscHz : ℚ) (ticking : hz ≠ 0)
    (cycles : UInt64) :
    tscToNs gTscHz cycles = hz / gTscHz * tscToNs hz cycles := by
  unfold tscToNs
  rw [div_mul_div_comm, mul_comm gTscHz, mul_div_mul_left _ _ ticking]

/-- Every time of a result, scaled. -/
def StatsResult.scaled (result : StatsResult) (scale : ℚ) : StatsResult :=
  { n := result.n
    minNs := scale * result.minNs
    maxNs := scale * result.maxNs
    meanNs := scale * result.meanNs
    stddevNs := scale * result.stddevNs
    p50Ns := scale * result.p50Ns
    p90Ns := scale * result.p90Ns
    p95Ns := scale * result.p95Ns
    p99Ns := scale * result.p99Ns
    p999Ns := scale * result.p999Ns
    p9999Ns := scale * result.p9999Ns
    p99999Ns := scale * result.p99999Ns
    jitterNs := scale * result.jitterNs }

namespace Stats

theorem jitterSum_eq (gTscHz : ℚ) (samples : List UInt64) :
    (SlidingWindow.consecutive
      (fun previous current => tscToNs gTscHz (apart current previous))
      samples).foldl (· + ·) 0 =
    ((SlidingWindow.consecutive
      (fun previous current => apart current previous)
      samples).map (tscToNs gTscHz)).sum := by
  rw [SlidingWindow.consecutive_map, List.sum_eq_foldl]

section Scaled

variable {hz : ℚ} (gTscHz : ℚ) (ticking : hz ≠ 0) (stats : Stats)

include ticking

theorem percentile_scaled (p : ℚ) :
    stats.percentile gTscHz p = hz / gTscHz * stats.percentile hz p := by
  have times : stats.timeAt gTscHz =
      fun index => hz / gTscHz * stats.timeAt hz index :=
    funext (fun _ => tscToNs_scaled gTscHz ticking _)
  unfold percentile
  rw [times, Interpolation.interpolate_mul]

theorem sum_tscToNs_scaled (gaps : List UInt64) :
    (gaps.map (tscToNs gTscHz)).sum =
      hz / gTscHz * (gaps.map (tscToNs hz)).sum := by
  rw [← List.sum_map_mul_left]
  exact congrArg List.sum (List.map_congr_left
    (fun gap _ => tscToNs_scaled gTscHz ticking gap))

theorem jitterNs_scaled (samples : List UInt64) :
    jitterNs gTscHz samples = hz / gTscHz * jitterNs hz samples := by
  unfold jitterNs
  simp only [jitterSum_eq, sum_tscToNs_scaled gTscHz ticking]
  split
  · exact mul_div_assoc _ _ _
  · exact (mul_zero _).symm

theorem metrics_scaled :
    stats.metrics gTscHz = (stats.metrics hz).scaled (hz / gTscHz) := by
  simp only [metrics, StatsResult.scaled, StatsResult.mk.injEq, true_and]
  exact ⟨tscToNs_scaled gTscHz ticking _, tscToNs_scaled gTscHz ticking _,
    tscToNs_scaled gTscHz ticking _, tscToNs_scaled gTscHz ticking _,
    stats.percentile_scaled gTscHz ticking _,
    stats.percentile_scaled gTscHz ticking _,
    stats.percentile_scaled gTscHz ticking _,
    stats.percentile_scaled gTscHz ticking _,
    stats.percentile_scaled gTscHz ticking _,
    stats.percentile_scaled gTscHz ticking _,
    stats.percentile_scaled gTscHz ticking _,
    jitterNs_scaled gTscHz ticking stats.samples⟩

end Scaled

/-- All the times reported with the calibrated frequency are off by one and
the same factor, and that is close to one. -/
theorem compute_calibrated {hz phase lag time0 time1 : ℚ}
    {t0Ts t1Ts : Timespec} {t0Tsc t1Tsc : UInt64}
    (steady : TscCalibrate.Steady hz phase lag time0 time1 t0Ts t0Tsc t1Ts
      t1Tsc)
    (stats : Stats) (recorded : stats.samples ≠ []) (result : StatsResult) :
    ∃ scale : ℚ,
      |scale - 1| * (hz * (time1 - time0 - 1) - TscCalibrate.drift hz lag) ≤
        TscCalibrate.drift hz lag ∧
      compute (tscCalibrate t0Ts t0Tsc t1Ts t1Tsc) stats result =
        (compute hz stats result).map
          (fun computed => (computed.1, computed.2.scaled scale)) := by
  have near := TscCalibrate.tscCalibrate_near steady
  have ticking := steady.ticking
  have long := steady.long
  have slept := steady.slept
  have count := List.length_pos_iff.mpr recorded
  generalize tscCalibrate t0Ts t0Tsc t1Ts t1Tsc = gTscHz at near ⊢
  generalize TscCalibrate.drift hz lag = hidden at near long ⊢
  generalize time1 - time0 - 1 = span at near long slept ⊢
  have slow : hz * span - hidden ≤ gTscHz * span := by
    have := neg_abs_le (gTscHz - hz)
    nlinarith
  have positive : 0 < gTscHz := by
    have : 0 < gTscHz * span := by linarith
    exact (mul_pos_iff_of_pos_right slept).mp this
  refine ⟨hz / gTscHz, ?_, ?_⟩
  · calc |hz / gTscHz - 1| * (hz * span - hidden)
        ≤ |hz / gTscHz - 1| * (gTscHz * span) :=
          mul_le_mul_of_nonneg_left slow (abs_nonneg _)
      _ = |gTscHz - hz| * span := by
          rw [← mul_assoc, div_sub_one positive.ne', abs_div,
            abs_of_pos positive, div_mul_cancel₀ _ positive.ne', abs_sub_comm]
      _ ≤ hidden := near
  · rw [compute_eq _ stats result count, compute_eq _ stats result count,
      stats.metrics_scaled gTscHz ticking.ne']
    rfl

/-- A fifth of a second of a 3 GHz counter. -/
theorem fifth_steady :
    TscCalibrate.Steady (3 * 10 ^ 9) 0 100 (79 * 10 ^ 8) (81 * 10 ^ 8)
      { tvSec := 7, tvNsec := 900000000 } 23700000000
      { tvSec := 8, tvNsec := 100000000 } 24300000000 where
  ticking := by norm_num
  started := le_refl 0
  first := by
    refine ⟨by decide, by decide, ?_, 79 * 10 ^ 8, ?_⟩
    · rw [show (7 : Int64).toInt * 10 ^ 9 + (900000000 : Int64).toInt =
        7900000000 from by decide]
      norm_num
    · norm_num
      rfl
  second := by
    refine ⟨by decide, by decide, ?_, 81 * 10 ^ 8, ?_⟩
    · rw [show (8 : Int64).toInt * 10 ^ 9 + (100000000 : Int64).toInt =
        8100000000 from by decide]
      norm_num
    · norm_num
      rfl
  long := by norm_num [TscCalibrate.drift]
  short := by norm_num

theorem compute_calibrated_fifth :
    ∃ scale : ℚ,
      |scale - 1| * (3 * 10 ^ 9 * (81 * 10 ^ 8 - 79 * 10 ^ 8 - 1) -
          TscCalibrate.drift (3 * 10 ^ 9) 100) ≤
        TscCalibrate.drift (3 * 10 ^ 9) 100 ∧
      compute (tscCalibrate { tvSec := 7, tvNsec := 900000000 } 23700000000
          { tvSec := 8, tvNsec := 100000000 } 24300000000) twoSamples
          (twoSamples.metrics 1) =
        (compute (3 * 10 ^ 9) twoSamples (twoSamples.metrics 1)).map
          (fun computed => (computed.1, computed.2.scaled scale)) :=
  compute_calibrated fifth_steady twoSamples (List.cons_ne_nil 7 [3])
    (twoSamples.metrics 1)

end Stats

end Waler
