/-
`annualizedVol` of RealizedVol.hpp: the volatility the strategy prices with.

The arithmetic is that of any field, with the square root from the math
library; the timestamps stay rational.  Over the reals, without any rounding,
the reported number is compared with the volatility of the window it was taken
from.
-/

import Mathlib.Tactic.Positivity
import Waler.Foundation.SampleStatistics
import Waler.Strategy.BlackScholes
import Waler.Strategy.RealizedVol

universe u

namespace Waler

namespace RealizedVolEstimator

open BlackScholes (realLibm)
open SampleStatistics (mean dispersion)

def secondsPerYear : ℚ := 36525 / 100 * 24 * 3600

section Report

variable {K : Type u} [Field K] (libm : Libm K)

def annualizedVol (estimator : RealizedVolEstimator K) : K :=
  let size := estimator.returns.length
  if size < 2 then 0
  else
    let mean := estimator.returns.foldl (· + ·) 0 / (size : K)
    let var := estimator.returns.foldl
      (fun var r => var + (r - mean) * (r - mean)) 0 / (size : K)
    let stddev := libm.sqrt var
    let spanSeconds : ℚ := (estimator.lastNs - estimator.firstNs) / 10 ^ 9
    if spanSeconds ≤ 0 then 0
    else
      let avgSecondsPerSample : ℚ := spanSeconds / size
      stddev * libm.sqrt ((secondsPerYear / avgSecondsPerSample : ℚ) : K)

/-- The samples of a year when a window of this many takes `spanNs`. -/
def samplesPerYear (size : ℕ) (spanNs : ℚ) : ℚ :=
  secondsPerYear / (spanNs / 10 ^ 9 / size)

theorem foldl_mean (returns : List K) :
    returns.foldl (· + ·) 0 / (returns.length : K) = mean returns := by
  rw [← List.sum_eq_foldl]
  rfl

theorem foldl_dispersion (returns : List K) :
    returns.foldl
      (fun var r => var + (r - mean returns) * (r - mean returns)) 0 =
        dispersion returns := by
  unfold dispersion
  rw [List.sum_eq_foldl, List.foldl_map]
  rfl

theorem annualizedVol_eq (estimator : RealizedVolEstimator K) :
    annualizedVol libm estimator =
      if 2 ≤ estimator.returns.length ∧
          0 < estimator.lastNs - estimator.firstNs then
        libm.sqrt (dispersion estimator.returns / estimator.returns.length) *
          libm.sqrt (samplesPerYear estimator.returns.length
            (estimator.lastNs - estimator.firstNs) : ℚ)
      else 0 := by
  unfold annualizedVol
  dsimp only
  rw [foldl_mean, foldl_dispersion]
  by_cases few : estimator.returns.length < 2
  · rw [if_pos few, if_neg (fun both => absurd both.1 (by omega))]
  · rw [if_neg few]
    by_cases passed : 0 < estimator.lastNs - estimator.firstNs
    · have span := div_pos passed (show (0 : ℚ) < 10 ^ 9 by norm_num)
      rw [if_neg (not_le.mpr span), if_pos ⟨by omega, passed⟩]
      rfl
    · have span := div_nonpos_of_nonpos_of_nonneg (not_lt.mp passed)
        (show (0 : ℚ) ≤ 10 ^ 9 by norm_num)
      rw [if_pos span, if_neg (fun both => passed both.2)]

end Report

/-! ### Over the reals -/

noncomputable def realLog (ratio : ℚ) : ℝ :=
  Real.log ratio

/-- The price of each observation by the price before. -/
def ratios (observations : List Observation) : List ℚ :=
  SlidingWindow.consecutive
    (fun previous next => next.midPrice / previous.midPrice) observations

/-- The price has not changed by the same factor each time. -/
def Uneven (observations : List Observation) : Prop :=
  ∃ first ∈ ratios observations, ∃ second ∈ ratios observations,
    first ≠ second

instance (observations : List Observation) : Decidable (Uneven observations) :=
  inferInstanceAs (Decidable (∃ _ ∈ ratios observations, _))

/-- The time from the first observation to the last. -/
def spanNs (observations : List Observation) : ℚ :=
  (observations.getLast?.elim 0 Observation.nowNs) -
    (observations.head?.elim 0 Observation.nowNs)

theorem logReturns_eq_map (observations : List Observation) :
    logReturns realLog observations = (ratios observations).map realLog :=
  (SlidingWindow.consecutive_map realLog observations).symm

theorem ratio_pos {observations : List Observation}
    (priced : ∀ observation ∈ observations, 0 < observation.midPrice)
    {ratio : ℚ} (listed : ratio ∈ ratios observations) : 0 < ratio := by
  obtain ⟨previous, previousIn, next, nextIn, rfl⟩ :=
    SlidingWindow.mem_consecutive listed
  exact div_pos (priced next nextIn) (priced previous previousIn)

theorem realLog_injOn {first second : ℚ} (firstPos : 0 < first)
    (secondPos : 0 < second) (same : realLog first = realLog second) :
    first = second := by
  have positive : ∀ {ratio : ℚ}, 0 < ratio → (ratio : ℝ) ∈ Set.Ioi 0 :=
    fun above => Set.mem_Ioi.mpr (Rat.cast_pos.mpr above)
  have equal := Real.log_injOn_pos (positive firstPos) (positive secondPos)
    same
  exact Rat.cast_injective equal

/-- Returns disperse exactly when the price moves unevenly. -/
theorem dispersion_pos_iff {observations : List Observation}
    (priced : ∀ observation ∈ observations, 0 < observation.midPrice) :
    0 < dispersion (logReturns realLog observations) ↔ Uneven observations := by
  rw [lt_iff_le_and_ne, ne_comm, Ne, SampleStatistics.dispersion_eq_zero_iff,
    logReturns_eq_map]
  constructor
  · rintro ⟨_, differ⟩
    by_contra even
    apply differ
    intro first firstIn second secondIn
    obtain ⟨one, oneIn, rfl⟩ := List.mem_map.mp firstIn
    obtain ⟨other, otherIn, rfl⟩ := List.mem_map.mp secondIn
    by_contra apart
    exact even ⟨one, oneIn, other, otherIn,
      fun same => apart (congrArg realLog same)⟩
  · rintro ⟨first, firstIn, second, secondIn, differ⟩
    refine ⟨SampleStatistics.dispersion_nonneg _, fun same => differ ?_⟩
    exact realLog_injOn (ratio_pos priced firstIn) (ratio_pos priced secondIn)
      (same _ (List.mem_map_of_mem firstIn) _ (List.mem_map_of_mem secondIn))

theorem Uneven.two_le {observations : List Observation}
    (uneven : Uneven observations) : 2 ≤ (ratios observations).length := by
  obtain ⟨first, firstIn, second, secondIn, differ⟩ := uneven
  by_contra few
  cases listed : ratios observations with
  | nil =>
      rw [listed] at firstIn
      cases firstIn
  | cons only rest =>
      rw [listed, List.length_cons] at few
      have none : rest = [] := List.length_eq_zero_iff.mp (by omega)
      rw [listed, none, List.mem_singleton] at firstIn secondIn
      exact differ (firstIn.trans secondIn.symm)

/-! ### What a run reports -/

theorem observed_returns {window : ℕ} (positive : 0 < window)
    (log : ℚ → ℝ) (observations : List Observation)
    (nonneg : ∀ observation ∈ observations, 0 ≤ observation.nowNs) :
    (observed log window observations).returns =
      logReturns log (recent window observations) := by
  unfold logReturns recent
  rw [SlidingWindow.consecutive_rtake]
  rcases List.eq_nil_or_concat' observations with rfl | ⟨earlier, last, rfl⟩
  · exact (List.rtake_nil (n := window)).symm
  · exact (observed_holds positive earlier last (fun observation member =>
      nonneg observation (List.mem_append_left _ member))).returns

theorem observed_span {window : ℕ} (positive : 0 < window)
    (log : ℚ → ℝ) {observations : List Observation}
    (several : 2 ≤ observations.length)
    (nonneg : ∀ observation ∈ observations, 0 ≤ observation.nowNs) :
    (observed log window observations).lastNs -
        (observed log window observations).firstNs =
      spanNs observations := by
  rcases List.eq_nil_or_concat' observations with rfl | ⟨earlier, last, rfl⟩
  · cases several
  · have holds : Holds log window earlier last
        (observed log window (earlier ++ [last])) :=
      observed_holds positive earlier last (fun observation member =>
        nonneg observation (List.mem_append_left _ member))
    cases earlier with
    | nil =>
        change 2 ≤ 1 at several
        omega
    | cons start rest =>
        obtain ⟨firstEq, lastEq⟩ := holds.span start rfl
        rw [firstEq, lastEq]
        unfold spanNs
        rw [List.getLast?_concat]
        rfl

section Runs

variable {window : ℕ} {observations : List Observation}

theorem recent_sublist (window : ℕ) (observations : List Observation) :
    (recent window observations).Sublist observations :=
  List.drop_sublist _ _

theorem annualizedVol_observed (positive : 0 < window)
    (nonneg : ∀ observation ∈ observations, 0 ≤ observation.nowNs) :
    annualizedVol realLibm (observed realLog window observations) =
      let returns := logReturns realLog (recent window observations)
      if 2 ≤ returns.length ∧ 0 < spanNs observations then
        √(dispersion returns / returns.length) *
          √(samplesPerYear returns.length (spanNs observations) : ℚ)
      else 0 := by
  have returnsEq := observed_returns positive realLog observations nonneg
  rw [annualizedVol_eq, returnsEq]
  dsimp only
  by_cases several :
      2 ≤ (logReturns realLog (recent window observations)).length
  · have length : 2 ≤ observations.length := by
      have shorter := (recent_sublist window observations).length_le
      rw [logReturns_length] at several
      omega
    have spanEq := observed_span positive realLog length nonneg
    rw [spanEq]
    rfl
  · rw [if_neg (fun both => several both.1),
      if_neg (fun both => several both.1)]

theorem samplesPerYear_pos {size : ℕ} (some : 0 < size) {span : ℚ}
    (passed : 0 < span) : 0 < samplesPerYear size span := by
  have sizePos : (0 : ℚ) < size := Nat.cast_pos.mpr some
  unfold samplesPerYear secondsPerYear
  positivity

theorem samplesPerYear_mul (size : ℕ) {span whole : ℚ} (passed : 0 < span)
    (wholePassed : 0 < whole) :
    samplesPerYear size span * (span / whole) = samplesPerYear size whole := by
  have spanNe := passed.ne'
  have wholeNe := wholePassed.ne'
  unfold samplesPerYear
  by_cases none : size = 0
  · rw [none]
    simp only [Nat.cast_zero, div_zero, zero_mul]
  · have sizeNe : (size : ℚ) ≠ 0 := Nat.cast_ne_zero.mpr none
    field_simp

theorem ratios_length (observations : List Observation) :
    (logReturns realLog observations).length =
      (ratios observations).length := by
  rw [logReturns_eq_map, List.length_map]

/-- The window's own volatility: its returns annualized by the time that it
covers. -/
noncomputable def windowVol (window : ℕ) (observations : List Observation) :
    ℝ :=
  let returns := logReturns realLog (recent window observations)
  √(dispersion returns / returns.length) *
    √(samplesPerYear returns.length
      (spanNs (recent window observations)) : ℚ)

theorem windowVol_pos
    (priced : ∀ observation ∈ recent window observations,
      0 < observation.midPrice)
    (covers : 0 < spanNs (recent window observations))
    (uneven : Uneven (recent window observations)) :
    0 < windowVol window observations := by
  have several := uneven.two_le
  rw [← ratios_length] at several
  have sizePos : 0 <
      (logReturns realLog (recent window observations)).length := by
    omega
  apply mul_pos
  · apply Real.sqrt_pos.mpr
    exact div_pos ((dispersion_pos_iff priced).mpr uneven)
      (Nat.cast_pos.mpr sizePos)
  · apply Real.sqrt_pos.mpr
    exact Rat.cast_pos.mpr (samplesPerYear_pos sizePos covers)

theorem annualizedVol_moved (positive : 0 < window)
    (nonneg : ∀ observation ∈ observations, 0 ≤ observation.nowNs)
    (priced : ∀ observation ∈ recent window observations,
      0 < observation.midPrice)
    (passed : 0 < spanNs observations)
    (uneven : Uneven (recent window observations)) :
    0 < annualizedVol realLibm (observed realLog window observations) := by
  have several := uneven.two_le
  rw [← ratios_length] at several
  have sizePos : 0 <
      (logReturns realLog (recent window observations)).length := by
    omega
  rw [annualizedVol_observed positive nonneg]
  dsimp only
  rw [if_pos ⟨several, passed⟩]
  apply mul_pos
  · apply Real.sqrt_pos.mpr
    exact div_pos ((dispersion_pos_iff priced).mpr uneven)
      (Nat.cast_pos.mpr sizePos)
  · apply Real.sqrt_pos.mpr
    exact Rat.cast_pos.mpr (samplesPerYear_pos sizePos passed)

theorem annualizedVol_still (positive : 0 < window)
    (nonneg : ∀ observation ∈ observations, 0 ≤ observation.nowNs)
    (priced : ∀ observation ∈ recent window observations,
      0 < observation.midPrice)
    (still : ¬ (0 < spanNs observations ∧
      Uneven (recent window observations))) :
    annualizedVol realLibm (observed realLog window observations) = 0 := by
  rw [annualizedVol_observed positive nonneg]
  dsimp only
  split
  · rename_i both
    have flat : dispersion (logReturns realLog
        (recent window observations)) = 0 := by
      have even : ¬ Uneven (recent window observations) :=
        fun uneven => still ⟨both.2, uneven⟩
      rw [← dispersion_pos_iff priced, not_lt] at even
      exact le_antisymm even (SampleStatistics.dispersion_nonneg _)
    rw [flat, zero_div, Real.sqrt_zero, zero_mul]
  · rfl

theorem priced_recent
    (priced : ∀ observation ∈ observations, 0 < observation.midPrice) :
    ∀ observation ∈ recent window observations, 0 < observation.midPrice :=
  fun observation listed =>
    priced observation ((recent_sublist window observations).subset listed)

/-- For every window and every run of positive prices: the estimator reports
a volatility exactly when time has passed and the prices in its window have
not all moved by one factor; otherwise it reports zero. -/
theorem annualizedVol_observed_pos_iff (positive : 0 < window)
    (nonneg : ∀ observation ∈ observations, 0 ≤ observation.nowNs)
    (priced : ∀ observation ∈ observations, 0 < observation.midPrice) :
    (0 < annualizedVol realLibm (observed realLog window observations) ↔
      0 < spanNs observations ∧ Uneven (recent window observations)) ∧
    (annualizedVol realLibm (observed realLog window observations) = 0 ↔
      ¬ (0 < spanNs observations ∧
        Uneven (recent window observations))) := by
  have moved := annualizedVol_moved positive nonneg (priced_recent priced)
  have still := annualizedVol_still positive nonneg (priced_recent priced)
  refine ⟨⟨fun reported => ?_, fun both => moved both.1 both.2⟩,
    ⟨fun none both => ?_, still⟩⟩
  · by_contra neither
    exact absurd (still neither) reported.ne'
  · exact absurd none (moved both.1 both.2).ne'

theorem annualizedVol_observed_pos_iff_moved :
    0 < annualizedVol realLibm
      (observed realLog 2 [⟨100, 0⟩, ⟨110, 5⟩, ⟨120, 9⟩]) :=
  (annualizedVol_observed_pos_iff (by decide) (by decide)
    (by decide)).1.mpr (by decide +kernel)

theorem annualizedVol_observed_eq (positive : 0 < window)
    (nonneg : ∀ observation ∈ observations, 0 ≤ observation.nowNs)
    (covers : 0 < spanNs (recent window observations))
    (longer : spanNs (recent window observations) ≤ spanNs observations) :
    annualizedVol realLibm (observed realLog window observations) =
      windowVol window observations *
        √(spanNs (recent window observations) / spanNs observations : ℚ) := by
  have passed : 0 < spanNs observations := covers.trans_le longer
  have report := annualizedVol_observed positive nonneg
  dsimp only at report
  rw [report]
  unfold windowVol
  dsimp only
  generalize logReturns realLog (recent window observations) = returns
  by_cases several : 2 ≤ returns.length
  · rw [if_pos ⟨several, passed⟩, mul_assoc,
      ← Real.sqrt_mul (Rat.cast_nonneg.mpr
        (samplesPerYear_pos (by omega) covers).le),
      ← Rat.cast_mul, samplesPerYear_mul _ covers passed]
  · have flat : dispersion returns = 0 := by
      rw [SampleStatistics.dispersion_eq_zero_iff]
      intro first firstIn second secondIn
      cases returns with
      | nil => cases firstIn
      | cons only rest =>
          rw [List.length_cons] at several
          have none : rest = [] := List.length_eq_zero_iff.mp (by omega)
          rw [none, List.mem_singleton] at firstIn secondIn
          exact firstIn.trans secondIn.symm
    rw [if_neg (fun both => several both.1), flat, zero_div, Real.sqrt_zero,
      zero_mul, zero_mul]

theorem head_nowNs_le (ordered : observations.Pairwise
      (fun earlier later => earlier.nowNs ≤ later.nowNs))
    {start member : Observation} (starts : observations.head? = some start)
    (listed : member ∈ observations) : start.nowNs ≤ member.nowNs := by
  cases observations with
  | nil => cases starts
  | cons first rest =>
      cases starts
      rcases List.mem_cons.mp listed with rfl | later
      · exact le_refl _
      · exact (List.pairwise_cons.mp ordered).1 member later

/-- The window ends with the run; it may start later. -/
theorem span_le (window : ℕ) (ordered : observations.Pairwise
      (fun earlier later => earlier.nowNs ≤ later.nowNs)) :
    spanNs (recent window observations) ≤ spanNs observations ∧
      (spanNs (recent window observations) = spanNs observations ↔
        StartsAtFirst window observations) := by
  have ends := rtake_getLast? observations window
  change (recent window observations).getLast? = _ at ends
  unfold spanNs StartsAtFirst
  rw [ends]
  cases windowed : (recent window observations).head? with
  | none =>
      have empty : observations = [] := by
        rw [List.head?_eq_none_iff] at windowed
        rw [windowed, List.getLast?_nil] at ends
        exact List.getLast?_eq_none_iff.mp ends.symm
      rw [empty]
      exact ⟨le_refl _, iff_of_true rfl rfl⟩
  | some later =>
      have listed := (recent_sublist window observations).subset
        (List.mem_of_head? windowed)
      cases starts : observations.head? with
      | none =>
          rw [List.head?_eq_none_iff.mp starts] at listed
          cases listed
      | some start =>
          have before := head_nowNs_le ordered starts listed
          simp only [Option.elim_some, Option.map_some, Option.some.injEq]
          refine ⟨by linarith, ⟨fun same => by linarith, fun same => ?_⟩⟩
          rw [same]

/-- For every window and every run in which time does not go back and the
window takes some time: the reported volatility is the window's own, less by
the square root of the part that the window is of the whole run.  So it is
too small as soon as the window has left the first observation behind, unless
its prices moved evenly. -/
theorem annualizedVol_understates (positive : 0 < window)
    (nonneg : ∀ observation ∈ observations, 0 ≤ observation.nowNs)
    (priced : ∀ observation ∈ observations, 0 < observation.midPrice)
    (ordered : observations.Pairwise
      (fun earlier later => earlier.nowNs ≤ later.nowNs))
    (covers : 0 < spanNs (recent window observations)) :
    annualizedVol realLibm (observed realLog window observations) =
        windowVol window observations *
          √(spanNs (recent window observations) / spanNs observations : ℚ) ∧
      (annualizedVol realLibm (observed realLog window observations) <
          windowVol window observations ↔
        ¬ StartsAtFirst window observations ∧
          Uneven (recent window observations)) := by
  obtain ⟨longer, sameSpan⟩ := span_le window ordered
  have passed : 0 < spanNs observations := covers.trans_le longer
  have report := annualizedVol_observed_eq positive nonneg covers longer
  refine ⟨report, ?_⟩
  rw [← sameSpan]
  constructor
  · intro less
    refine ⟨fun same => ?_, ?_⟩
    · rw [report, same, div_self passed.ne', Rat.cast_one, Real.sqrt_one,
        mul_one] at less
      exact lt_irrefl _ less
    · by_contra even
      have silent := annualizedVol_still positive nonneg
        (priced_recent priced) (fun both => even both.2)
      have part : 0 < √((spanNs (recent window observations) /
          spanNs observations : ℚ) : ℝ) :=
        Real.sqrt_pos.mpr (Rat.cast_pos.mpr (div_pos covers passed))
      have none := (mul_eq_zero.mp (report.symm.trans silent)).resolve_right
        part.ne'
      rw [silent, none] at less
      exact lt_irrefl _ less
  · rintro ⟨differ, uneven⟩
    have vol := windowVol_pos (priced_recent priced) covers uneven
    have shorter := lt_of_le_of_ne longer differ
    have part : √((spanNs (recent window observations) /
        spanNs observations : ℚ) : ℝ) < 1 := by
      rw [Real.sqrt_lt' one_pos, one_pow]
      exact_mod_cast (div_lt_one passed).mpr shorter
    rw [report]
    exact mul_lt_of_lt_one_right vol part

/-- A window of two returns has left the first of four observations behind. -/
theorem annualizedVol_understates_four :
    annualizedVol realLibm (observed realLog 2
        [⟨100, 0⟩, ⟨110, 5⟩, ⟨120, 9⟩, ⟨115, 14⟩]) <
      windowVol 2 [⟨100, 0⟩, ⟨110, 5⟩, ⟨120, 9⟩, ⟨115, 14⟩] :=
  (annualizedVol_understates (by decide) (by decide) (by decide) (by decide)
    (by decide +kernel)).2.mpr
      ⟨by unfold StartsAtFirst; decide +kernel, by decide +kernel⟩

end Runs

end RealizedVolEstimator

end Waler
