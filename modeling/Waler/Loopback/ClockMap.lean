/-
The clock map of x4_loopback_latency.c: `phc_to_tscns`, `tsc_ticks_to_ns`, and
what the main loop derives from the readings of a turn.

Doubles are exact rationals.  The map inverts the two fits of a calibration.
The latencies within the host and within the NIC do not depend on it; the two
that cross the clocks are right up to the errors of the fits.
-/

import Waler.Loopback.PhcCalibration

namespace Waler

namespace Loopback

/-- `clockmap_t`. -/
structure ClockMap where
  tsc2rt : LinFit
  rt2phc : LinFit
  deriving DecidableEq, Repr

/-- Both fits, as `main` takes them. -/
def calibrate (attempt : ℕ → Bracket)
    (precise : ℕ → Option SysOffsetPrecise)
    (offsets : ℕ → Option SysOffset) : Option ClockMap :=
  (calibrateTscRealtime attempt).bind (fun tsc2rt =>
    (calibrateRealtimePhc precise offsets).map (fun rt2phc =>
      { tsc2rt := tsc2rt
        rt2phc := rt2phc }))

/-- `tsc_hz` of `main`. -/
def ClockMap.tscHz (m : ClockMap) : ℚ :=
  10 ^ 9 / m.tsc2rt.a

def phcToTscNs (m : ClockMap) (phcNs tscHz : ℚ) : ℚ :=
  let rt := (phcNs - m.rt2phc.b) / m.rt2phc.a
  let tsc := (rt - m.tsc2rt.b) / m.tsc2rt.a
  tsc * 10 ^ 9 / tscHz

def tscTicksToNs (ticks : UInt64) (tscHz : ℚ) : ℚ :=
  ticks.toNat * 10 ^ 9 / tscHz

/-- The readings of one turn of the main loop. -/
structure Readings where
  t0 : UInt64
  tMem : UInt64
  t3 : UInt64
  t1PhcNs : ℚ
  t2PhcNs : ℚ
  deriving DecidableEq, Repr

/-- One index of the result arrays. -/
structure Latencies where
  wire : ℚ
  rtt : ℚ
  egIn : ℚ
  egress : ℚ
  ingress : ℚ
  polld : ℚ
  deriving DecidableEq, Repr

def derive (m : ClockMap) (tscHz : ℚ) (readings : Readings) : Latencies :=
  let t0Ns := tscTicksToNs readings.t0 tscHz
  let tMemNs := tscTicksToNs readings.tMem tscHz
  let t3Ns := tscTicksToNs readings.t3 tscHz
  let t1Ns := phcToTscNs m readings.t1PhcNs tscHz
  let t2Ns := phcToTscNs m readings.t2PhcNs tscHz
  let wire := readings.t2PhcNs - readings.t1PhcNs
  let rtt := tMemNs - t0Ns
  { wire := wire
    rtt := rtt
    egIn := rtt - wire
    egress := t1Ns - t0Ns
    ingress := tMemNs - t2Ns
    polld := t3Ns - tMemNs }

/-! ### Both conversions, on the wall clock -/

section Conversions

variable {m : ClockMap} (nonzero : m.tsc2rt.a ≠ 0)
include nonzero

theorem tscTicksToNs_eq (ticks : UInt64) :
    tscTicksToNs ticks m.tscHz =
      linApply m.tsc2rt ticks.toNat - m.tsc2rt.b := by
  unfold tscTicksToNs ClockMap.tscHz linApply
  rw [add_sub_cancel_right]
  field_simp

theorem phcToTscNs_eq (phcNs : ℚ) :
    phcToTscNs m phcNs m.tscHz =
      (phcNs - m.rt2phc.b) / m.rt2phc.a - m.tsc2rt.b := by
  unfold phcToTscNs ClockMap.tscHz
  field_simp

/-- A reading of the counter, taken through both fits and back. -/
theorem phcToTscNs_linApply (skewed : m.rt2phc.a ≠ 0) (ticks : UInt64) :
    phcToTscNs m (linApply m.rt2phc (linApply m.tsc2rt ticks.toNat))
        m.tscHz =
      tscTicksToNs ticks m.tscHz := by
  rw [phcToTscNs_eq nonzero, tscTicksToNs_eq nonzero]
  unfold linApply
  rw [add_sub_cancel_right, mul_div_cancel_left₀ _ skewed]

end Conversions

/-- Latencies on one clock need no fit, and those across the clocks add up to
the same up to the skew of the NIC's clock. -/
theorem derive_sums {m : ClockMap} (nonzero : m.tsc2rt.a ≠ 0)
    (skewed : m.rt2phc.a ≠ 0) (readings : Readings) :
    let latencies := derive m m.tscHz readings
    latencies.egress + latencies.ingress =
      latencies.egIn +
        latencies.wire * (1 - 1 / m.rt2phc.a) := by
  intro latencies
  change phcToTscNs m readings.t1PhcNs m.tscHz -
      tscTicksToNs readings.t0 m.tscHz +
        (tscTicksToNs readings.tMem m.tscHz -
          phcToTscNs m readings.t2PhcNs m.tscHz) =
    tscTicksToNs readings.tMem m.tscHz -
        tscTicksToNs readings.t0 m.tscHz -
          (readings.t2PhcNs - readings.t1PhcNs) +
      (readings.t2PhcNs - readings.t1PhcNs) * (1 - 1 / m.rt2phc.a)
  rw [phcToTscNs_eq nonzero, phcToTscNs_eq nonzero]
  field_simp
  ring

/-! ### Errors -/

section Errors

variable {rate offset reach gap : ℚ} {samples : List Sample} {f : LinFit}
  (accurate : Accurate rate offset reach gap samples f)
include accurate

theorem Accurate.slope_pos (enough : 8 ≤ samples.length) (positive : 0 < gap)
    (rising : 0 < rate) (nonneg : 0 ≤ reach)
    (short : reach ≤ 2 * (rate * gap)) : 0 < f.a := by
  by_contra falling
  have many : (63 : ℚ) ≤ samples.length ^ 2 - 1 := by
    have counted : (8 : ℚ) ≤ samples.length := Nat.ofNat_le_cast.mpr enough
    nlinarith
  have product : 0 < (rate * gap) ^ 2 := sq_pos_of_pos (mul_pos rising positive)
  have apart : rate ^ 2 ≤ (f.a - rate) ^ 2 := by
    nlinarith
  have reached : reach ^ 2 ≤ (2 * (rate * gap)) ^ 2 :=
    pow_le_pow_left₀ nonneg short 2
  have spread : (rate * gap) ^ 2 * 63 ≤
      (f.a - rate) ^ 2 * (gap ^ 2 * (samples.length ^ 2 - 1)) := by
    calc
      (rate * gap) ^ 2 * 63 = rate ^ 2 * (gap ^ 2 * 63) := by ring
      _ ≤ (f.a - rate) ^ 2 * (gap ^ 2 * (samples.length ^ 2 - 1)) :=
        mul_le_mul apart
          (mul_le_mul_of_nonneg_left many (sq_nonneg gap))
          (by positivity) (sq_nonneg _)
  have error := accurate.slope
  linarith

theorem Accurate.abs_value_le {x error : ℚ} (nonneg : 0 ≤ error)
    (bounded : valueBound reach gap samples x ≤ error ^ 2) :
    |linApply f x - (rate * x + offset)| ≤ error :=
  abs_le_of_sq_le_sq ((accurate.value x).trans bounded) nonneg

/-- The inverse of a fit. -/
theorem Accurate.abs_inverse_le (rising : 0 < f.a) {x error : ℚ}
    (nonneg : 0 ≤ error)
    (bounded : valueBound reach gap samples x ≤ error ^ 2) :
    |(rate * x + offset - f.b) / f.a - x| ≤ error / f.a := by
  have forward := accurate.abs_value_le nonneg bounded
  have inverse : (rate * x + offset - f.b) / f.a - x =
      -(linApply f x - (rate * x + offset)) / f.a := by
    unfold linApply
    field_simp
    ring
  rw [inverse, abs_div, abs_neg, abs_of_pos rising]
  exact div_le_div_of_nonneg_right forward rising.le

end Errors

/-- What the calibration of two steady clocks guarantees for every turn after
it: `depart` and `arrive` are the times on the wall clock at which the frame
left and came back. -/
structure Measures (rate offset skew phase : ℚ) (m : ClockMap)
    (tscBound phcBound : ℚ → ℚ) : Prop where
  rising : 0 < m.tsc2rt.a ∧ 0 < m.rt2phc.a
  inverts : ∀ ticks : UInt64,
    phcToTscNs m (linApply m.rt2phc (linApply m.tsc2rt ticks.toNat))
      m.tscHz = tscTicksToNs ticks m.tscHz
  sums : ∀ readings,
    let latencies := derive m m.tscHz readings
    latencies.egress + latencies.ingress =
      latencies.egIn + latencies.wire * (1 - 1 / m.rt2phc.a)
  egress : ∀ readings depart tscError phcError,
    readings.t1PhcNs = skew * depart + phase →
    0 ≤ tscError → tscBound readings.t0.toNat ≤ tscError ^ 2 →
    0 ≤ phcError → phcBound depart ≤ phcError ^ 2 →
      |(derive m m.tscHz readings).egress -
        (depart - (rate * readings.t0.toNat + offset))| ≤
          tscError + phcError / m.rt2phc.a
  ingress : ∀ readings arrive tscError phcError,
    readings.t2PhcNs = skew * arrive + phase →
    0 ≤ tscError → tscBound readings.tMem.toNat ≤ tscError ^ 2 →
    0 ≤ phcError → phcBound arrive ≤ phcError ^ 2 →
      |(derive m m.tscHz readings).ingress -
        (rate * readings.tMem.toNat + offset - arrive)| ≤
          tscError + phcError / m.rt2phc.a

theorem measures_of_accurate {rate offset tscReach tscGap : ℚ}
    {skew phase phcReach phcGap : ℚ} {m : ClockMap}
    {tscSamples phcSamples : List Sample}
    (rising : 0 < m.tsc2rt.a ∧ 0 < m.rt2phc.a)
    (tsc : Accurate rate offset tscReach tscGap tscSamples m.tsc2rt)
    (phc : Accurate skew phase phcReach phcGap phcSamples m.rt2phc) :
    Measures rate offset skew phase m (valueBound tscReach tscGap tscSamples)
      (valueBound phcReach phcGap phcSamples) where
  rising := rising
  inverts := phcToTscNs_linApply rising.1.ne' rising.2.ne'
  sums := derive_sums rising.1.ne' rising.2.ne'
  egress := by
    intro readings depart tscError phcError read tscNonneg tscBounded
      phcNonneg phcBounded
    have ticks := tsc.abs_value_le tscNonneg tscBounded
    have wall := phc.abs_inverse_le rising.2 phcNonneg phcBounded
    have crossed : (derive m m.tscHz readings).egress =
        (readings.t1PhcNs - m.rt2phc.b) / m.rt2phc.a -
          linApply m.tsc2rt readings.t0.toNat := by
      change phcToTscNs m _ _ - tscTicksToNs _ _ = _
      rw [phcToTscNs_eq rising.1.ne', tscTicksToNs_eq rising.1.ne']
      exact sub_sub_sub_cancel_right _ _ _
    rw [crossed, read, abs_le]
    constructor <;> linarith [abs_le.mp ticks, abs_le.mp wall]
  ingress := by
    intro readings arrive tscError phcError read tscNonneg tscBounded
      phcNonneg phcBounded
    have ticks := tsc.abs_value_le tscNonneg tscBounded
    have wall := phc.abs_inverse_le rising.2 phcNonneg phcBounded
    have crossed : (derive m m.tscHz readings).ingress =
        linApply m.tsc2rt readings.tMem.toNat -
          (readings.t2PhcNs - m.rt2phc.b) / m.rt2phc.a := by
      change tscTicksToNs _ _ - phcToTscNs m _ _ = _
      rw [phcToTscNs_eq rising.1.ne', tscTicksToNs_eq rising.1.ne']
      exact sub_sub_sub_cancel_right _ _ _
    rw [crossed, read, abs_le]
    constructor <;> linarith [abs_le.mp ticks, abs_le.mp wall]

/-- For every calibration of a counter, a wall clock and a clock of the NIC
that go at steady rates, with samples far enough apart for their reach: the
conversions invert each other, `egress` and `ingress` add up to the latency
that needs no calibration up to the skew, and each is the true latency up to
the errors of the two fits. -/
theorem calibrate_measures {rate offset skew phase reach spacing : ℚ}
    {gap : ℕ} {attempt : ℕ → Bracket}
    {precise : ℕ → Option SysOffsetPrecise} {offsets : ℕ → Option SysOffset}
    {m : ClockMap} (rising : 0 < rate) (skewed : 0 < skew)
    (rested : 100 ≤ gap) (spaced : 0 < spacing) (nonneg : 0 ≤ reach)
    (short : reach ≤ 2 * (skew * spacing))
    (counter : SteadyCounter rate offset gap attempt)
    (device : SteadyDevice skew phase reach spacing precise offsets)
    (calibrated : calibrate attempt precise offsets = some m) :
    ∃ samples, phcSamples precise offsets = some samples ∧
      Measures rate offset skew phase m
        (valueBound (200 * |rate|) gap (tscSamples attempt))
        (valueBound reach spacing samples) := by
  obtain ⟨tsc2rt, tscFitted, mapped⟩ := Option.bind_eq_some_iff.mp calibrated
  obtain ⟨rt2phc, phcFitted, rfl⟩ := Option.map_eq_some_iff.mp mapped
  obtain ⟨samples, collected, fitted⟩ := Option.bind_eq_some_iff.mp phcFitted
  have ticked : (0 : ℚ) < gap := Nat.cast_pos.mpr (by omega)
  have wide : (100 : ℚ) ≤ gap := Nat.ofNat_le_cast.mpr rested
  have tscEnough := fitSamples_length tscFitted
  have phcEnough := fitSamples_length fitted
  have tsc := fitSamples_accurate ticked counter.steady tscFitted
  have phc := fitSamples_accurate spaced (device.samples_steady collected)
    fitted
  refine ⟨samples, collected, measures_of_accurate ⟨?_, ?_⟩ tsc phc⟩
  · apply tsc.slope_pos tscEnough ticked rising
    · positivity
    · have scaled := mul_le_mul_of_nonneg_left wide rising.le
      rw [abs_of_pos rising]
      linarith only [scaled]
  · exact phc.slope_pos phcEnough spaced skewed nonneg short

theorem calibrate_measures_even :
    ∃ m samples,
      calibrate evenAttempts (fun _ => none)
          (fun i => some (unevenAnswer i)) = some m ∧
        Measures 1 0 1 0 m
          (valueBound (200 * |1|) (800 : ℕ) (tscSamples evenAttempts))
          (valueBound 200 900000 samples) := by
  obtain ⟨tsc2rt, tscFitted⟩ :=
    Option.ne_none_iff_exists'.mp evenAttempts_fitted
  obtain ⟨rt2phc, phcFitted⟩ :=
    Option.ne_none_iff_exists'.mp unevenAnswer_fitted
  have calibrated : calibrate evenAttempts (fun _ => none)
      (fun i => some (unevenAnswer i)) =
        some { tsc2rt := tsc2rt, rt2phc := rt2phc } := by
    unfold calibrate
    rw [tscFitted, phcFitted]
    rfl
  obtain ⟨samples, _, measures⟩ := calibrate_measures one_pos one_pos
    (by decide) (by norm_num) (by norm_num) (by norm_num) evenAttempts_steady
    unevenAnswer_steady calibrated
  exact ⟨_, samples, calibrated, measures⟩

end Loopback

end Waler
