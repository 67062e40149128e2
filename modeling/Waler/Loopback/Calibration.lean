/-
The clock calibration of x4_loopback_latency.c: `calibrate_tsc_realtime`.

What the clocks answer at each turn of the loop is an input; none stands for
the program's exit.  Doubles are exact rationals, also for the times since the
epoch, of which a double holds only multiples of 256 ns.  The samples are
close to the line that relates the two clocks and far apart from each other,
and that bounds the error of the fitted line.
-/

import Mathlib.Algebra.BigOperators.Fin
import Mathlib.Algebra.Order.Ring.Abs
import Waler.Common.Stats
import Waler.Foundation.SampleStatistics
import Waler.Loopback.ClockFit

namespace Waler

namespace Loopback

/-- `CAL_SAMPLES`. -/
def calSamples : ℕ :=
  64

/-- `xs[n]` and `ys[n]` of a pass. -/
structure Sample where
  x : ℚ
  y : ℚ
  deriving DecidableEq, Repr

def xAt (samples : List Sample) (i : ℕ) : ℚ :=
  (samples[i]?.getD { x := 0, y := 0 }).x

def yAt (samples : List Sample) (i : ℕ) : ℚ :=
  (samples[i]?.getD { x := 0, y := 0 }).y

/-- The end of both passes: fewer than eight samples end the program. -/
def fitSamples (samples : List Sample) : Option LinFit :=
  if samples.length < 8 then none
  else some (fit (xAt samples) (yAt samples) samples.length)

/-! ### The counter and the wall clock -/

def tsToNs (ts : Timespec) : ℚ :=
  ts.tvSec.toInt * 10 ^ 9 + ts.tvNsec.toInt

/-- The readings of one turn. -/
structure Bracket where
  t0 : UInt64
  ts : Timespec
  t1 : UInt64
  deriving DecidableEq, Repr

def Bracket.narrow (bracket : Bracket) : Bool :=
  decide (¬ 400 < bracket.t1 - bracket.t0)

def Bracket.sample (bracket : Bracket) : Sample :=
  { x := ((bracket.t0 + bracket.t1) / 2).toNat
    y := tsToNs bracket.ts }

/-- One turn of the loop.  The loop ends when the arrays are full. -/
def tryBracket (attempt : ℕ → Bracket) (samples : List Sample) (i : ℕ) :
    List Sample :=
  if samples.length < calSamples then
    if (attempt i).narrow then samples ++ [(attempt i).sample] else samples
  else samples

def tscSamples (attempt : ℕ → Bracket) : List Sample :=
  (List.range (calSamples * 4)).foldl (tryBracket attempt) []

def calibrateTscRealtime (attempt : ℕ → Bracket) : Option LinFit :=
  fitSamples (tscSamples attempt)

/-! ### Samples of a line -/

section Accuracy

variable (rate offset reach gap : ℚ)

/-- Close to the line, and far apart from each other. -/
structure Steady (samples : List Sample) : Prop where
  near : ∀ sample ∈ samples, |sample.y - (rate * sample.x + offset)| ≤ reach
  spaced : samples.Pairwise (fun before after => before.x + gap ≤ after.x)

def meanX (samples : List Sample) : ℚ :=
  SampleStatistics.mean (samples.map Sample.x)

/-- The square of the error at a place: the reach, and more of it the further
the place is from the middle of the samples. -/
def valueBound (samples : List Sample) (x : ℚ) : ℚ :=
  (1 + 12 * (x - meanX samples) ^ 2 /
    (gap ^ 2 * (samples.length ^ 2 - 1))) * reach ^ 2

/-- The error of a fit: in the slope, and in the value at any place. -/
structure Accurate (samples : List Sample) (f : LinFit) : Prop where
  slope : (f.a - rate) ^ 2 * (gap ^ 2 * (samples.length ^ 2 - 1)) ≤
    12 * reach ^ 2
  value : ∀ x, (linApply f x - (rate * x + offset)) ^ 2 ≤
    valueBound reach gap samples x

end Accuracy

theorem xAt_eq {samples : List Sample} {i : ℕ} (inside : i < samples.length) :
    xAt samples i = samples[i].x := by
  unfold xAt
  rw [List.getElem?_eq_getElem inside]
  rfl

theorem yAt_eq {samples : List Sample} {i : ℕ} (inside : i < samples.length) :
    yAt samples i = samples[i].y := by
  unfold yAt
  rw [List.getElem?_eq_getElem inside]
  rfl

theorem sum_xAt (samples : List Sample) :
    ∑ i ∈ Finset.range samples.length, xAt samples i =
      (samples.map Sample.x).sum := by
  induction samples using List.reverseRecOn with
  | nil => rfl
  | append_singleton samples last ih =>
      have before : ∀ i ∈ Finset.range samples.length,
          xAt (samples ++ [last]) i = xAt samples i := by
        intro i inside
        unfold xAt
        rw [List.getElem?_append_left (Finset.mem_range.mp inside)]
      have atLast : xAt (samples ++ [last]) samples.length = last.x := by
        unfold xAt
        rw [List.getElem?_concat_length]
        rfl
      rw [List.length_append, List.length_singleton, Finset.sum_range_succ,
        Finset.sum_congr rfl before, ih, atLast, List.map_append,
        List.sum_append, List.map_singleton, List.sum_singleton]

theorem meanX_eq (samples : List Sample) :
    meanX samples =
      (∑ i ∈ Finset.range samples.length, xAt samples i) /
        samples.length := by
  unfold meanX SampleStatistics.mean
  rw [sum_xAt, List.length_map]

theorem fitSamples_eq_none_iff (samples : List Sample) :
    fitSamples samples = none ↔ samples.length < 8 := by
  unfold fitSamples
  by_cases few : samples.length < 8
  · rw [if_pos few]
    exact iff_of_true rfl few
  · rw [if_neg few]
    exact iff_of_false (Option.some_ne_none _) few

theorem fitSamples_length {samples : List Sample} {f : LinFit}
    (fitted : fitSamples samples = some f) : 8 ≤ samples.length := by
  by_contra few
  rw [(fitSamples_eq_none_iff samples).mpr (not_le.mp few)] at fitted
  cases fitted

theorem fitSamples_accurate {rate offset reach gap : ℚ}
    {samples : List Sample} {f : LinFit} (positive : 0 < gap)
    (steady : Steady rate offset reach gap samples)
    (fitted : fitSamples samples = some f) :
    Accurate rate offset reach gap samples f := by
  have enough := fitSamples_length fitted
  unfold fitSamples at fitted
  rw [if_neg (not_lt.mpr enough)] at fitted
  obtain rfl := Option.some.inj fitted
  have spaced : ∀ i, i + 1 < samples.length →
      xAt samples i + gap ≤ xAt samples (i + 1) := by
    intro i inside
    rw [xAt_eq inside, xAt_eq (Nat.lt_of_succ_lt inside)]
    exact List.pairwise_iff_getElem.mp steady.spaced _ _ _ inside
      (Nat.lt_succ_self i)
  have near : ∀ i ∈ Finset.range samples.length,
      |yAt samples i - (rate * xAt samples i + offset)| ≤ reach := by
    intro i iIn
    have inside := Finset.mem_range.mp iIn
    rw [xAt_eq inside, yAt_eq inside]
    exact steady.near _ (List.getElem_mem inside)
  have different : xAt samples 0 ≠ xAt samples 1 := by
    have apart := spaced 0 (by omega)
    exact ne_of_lt (lt_of_lt_of_le (lt_add_of_pos_right _ positive) apart)
  have normal := fit_normalEquations (y := yAt samples)
    (show 0 < samples.length by omega) (show 1 < samples.length by omega)
    different
  constructor
  · exact normal.sq_slope_sub_le_of_spaced spaced near positive.le (by omega)
  · intro x
    unfold valueBound
    rw [meanX_eq]
    exact normal.sq_line_sub_le_of_spaced spaced near positive (by omega) x

/-! ### Brackets of the counter -/

/-- The attempts whose brackets are narrow. -/
def narrowAttempts (attempt : ℕ → Bracket) (n : ℕ) : List Bracket :=
  ((List.range n).map attempt).filter Bracket.narrow

theorem foldl_tryBracket (attempt : ℕ → Bracket) (n : ℕ) :
    (List.range n).foldl (tryBracket attempt) [] =
      ((narrowAttempts attempt n).take calSamples).map Bracket.sample := by
  induction n with
  | zero => rfl
  | succ n ih =>
      have split : narrowAttempts attempt (n + 1) =
          narrowAttempts attempt n ++
            if (attempt n).narrow then [attempt n] else [] := by
        unfold narrowAttempts
        rw [List.range_succ, List.map_append, List.filter_append,
          List.map_singleton, List.filter_singleton]
        cases (attempt n).narrow <;> rfl
      rw [List.range_succ, List.foldl_append, ih, split, List.take_append]
      change tryBracket attempt _ n = _
      unfold tryBracket
      rw [List.length_map, List.length_take]
      by_cases room : (narrowAttempts attempt n).length < calSamples
      · rw [if_pos (by omega), List.take_of_length_le room.le]
        cases narrow : (attempt n).narrow
        · rw [if_neg Bool.false_ne_true, if_neg Bool.false_ne_true,
            List.take_nil, List.append_nil]
        · rw [if_pos rfl, if_pos rfl, List.map_append,
            List.take_of_length_le (show [attempt n].length ≤ _ by
              rw [List.length_singleton]
              omega)]
          rfl
      · rw [if_neg (by omega), show calSamples -
          (narrowAttempts attempt n).length = 0 by omega, List.take_zero,
          List.append_nil]

theorem tscSamples_eq (attempt : ℕ → Bracket) :
    tscSamples attempt =
      ((narrowAttempts attempt (calSamples * 4)).take calSamples).map
        Bracket.sample :=
  foldl_tryBracket attempt (calSamples * 4)

theorem tscSamples_length (attempt : ℕ → Bracket) :
    (tscSamples attempt).length =
      min calSamples (narrowAttempts attempt (calSamples * 4)).length := by
  rw [tscSamples_eq, List.length_map, List.length_take]

/-- The wall clock goes at one rate and is read inside every bracket.  The
counter does not wrap, and moves on by the gap after a narrow bracket. -/
structure SteadyCounter (rate offset : ℚ) (gap : ℕ)
    (attempt : ℕ → Bracket) : Prop where
  inside : ∀ i < calSamples * 4, ∃ tick : ℚ,
    (attempt i).t0.toNat ≤ tick ∧ tick ≤ (attempt i).t1.toNat ∧
      tsToNs (attempt i).ts = rate * tick + offset
  room : ∀ i < calSamples * 4,
    (attempt i).t0.toNat + (attempt i).t1.toNat < 2 ^ 64
  rests : ∀ i j, i < j → j < calSamples * 4 → (attempt i).narrow = true →
    (attempt i).t1.toNat + gap ≤ (attempt j).t0.toNat

theorem midpoint_toNat {t0 t1 : UInt64}
    (room : t0.toNat + t1.toNat < 2 ^ 64) :
    ((t0 + t1) / 2).toNat = (t0.toNat + t1.toNat) / 2 := by
  rw [UInt64.toNat_div, UInt64.toNat_add, Nat.mod_eq_of_lt room]
  rfl

theorem narrow_width {bracket : Bracket}
    (ordered : bracket.t0.toNat ≤ bracket.t1.toNat)
    (narrow : bracket.narrow = true) :
    bracket.t1.toNat ≤ bracket.t0.toNat + 400 := by
  have width : ¬ 400 < bracket.t1 - bracket.t0 := of_decide_eq_true narrow
  rw [UInt64.lt_iff_toNat_lt, UInt64.toNat_sub_of_le _ _
    (UInt64.le_iff_toNat_le.mpr ordered)] at width
  change ¬ 400 < bracket.t1.toNat - bracket.t0.toNat at width
  omega

/-- The clock was read at most half a bracket away from the midpoint. -/
theorem bracket_near {rate offset tick : ℚ} {bracket : Bracket}
    (after : bracket.t0.toNat ≤ tick) (before : tick ≤ bracket.t1.toNat)
    (read : tsToNs bracket.ts = rate * tick + offset)
    (room : bracket.t0.toNat + bracket.t1.toNat < 2 ^ 64)
    (narrow : bracket.narrow = true) :
    |bracket.sample.y - (rate * bracket.sample.x + offset)| ≤
      200 * |rate| := by
  have ordered : bracket.t0.toNat ≤ bracket.t1.toNat :=
    Nat.cast_le.mp (after.trans before)
  have width := narrow_width ordered narrow
  let middle := (bracket.t0.toNat + bracket.t1.toNat) / 2
  have low : ((middle : ℕ) : ℚ) ≤ bracket.t0.toNat + 200 := by
    exact_mod_cast (show middle ≤ bracket.t0.toNat + 200 by omega)
  have high : (bracket.t1.toNat : ℚ) ≤ middle + 200 := by
    exact_mod_cast (show bracket.t1.toNat ≤ middle + 200 by omega)
  have apart : |tick - middle| ≤ 200 :=
    abs_le.mpr ⟨by linarith, by linarith⟩
  have midpoint : bracket.sample.x = middle := by
    change (((bracket.t0 + bracket.t1) / 2).toNat : ℚ) = _
    rw [midpoint_toNat room]
  have error : bracket.sample.y - (rate * bracket.sample.x + offset) =
      rate * (tick - middle) := by
    rw [midpoint]
    change tsToNs bracket.ts - _ = _
    rw [read]
    ring
  rw [error, abs_mul, mul_comm]
  exact mul_le_mul_of_nonneg_right apart (abs_nonneg rate)

theorem SteadyCounter.ordered {rate offset : ℚ} {gap : ℕ}
    {attempt : ℕ → Bracket}
    (steady : SteadyCounter rate offset gap attempt) {i : ℕ}
    (made : i < calSamples * 4) :
    (attempt i).t0.toNat ≤ (attempt i).t1.toNat := by
  obtain ⟨tick, after, before, _⟩ := steady.inside i made
  exact Nat.cast_le.mp (after.trans before)

theorem SteadyCounter.spaced {rate offset : ℚ} {gap : ℕ}
    {attempt : ℕ → Bracket}
    (steady : SteadyCounter rate offset gap attempt) {i j : ℕ} (later : i < j)
    (made : j < calSamples * 4) (narrow : (attempt i).narrow = true) :
    (attempt i).sample.x + gap ≤ (attempt j).sample.x := by
  have rests := steady.rests i j later made narrow
  have first := steady.ordered (later.trans made)
  have second := steady.ordered made
  change (((_ + _ : UInt64) / 2).toNat : ℚ) + gap ≤
    ((_ + _ : UInt64) / 2).toNat
  rw [midpoint_toNat (steady.room i (later.trans made)),
    midpoint_toNat (steady.room j made)]
  exact_mod_cast (show ((attempt i).t0.toNat + (attempt i).t1.toNat) / 2 +
    gap ≤ ((attempt j).t0.toNat + (attempt j).t1.toNat) / 2 by omega)

theorem SteadyCounter.steady {rate offset : ℚ} {gap : ℕ}
    {attempt : ℕ → Bracket}
    (steady : SteadyCounter rate offset gap attempt) :
    Steady rate offset (200 * |rate|) gap (tscSamples attempt) := by
  rw [tscSamples_eq]
  constructor
  · intro sample listed
    obtain ⟨bracket, kept, rfl⟩ := List.mem_map.mp listed
    obtain ⟨attempted, narrow⟩ := List.mem_filter.mp (List.mem_of_mem_take kept)
    obtain ⟨i, counted, rfl⟩ := List.mem_map.mp attempted
    have made := List.mem_range.mp counted
    obtain ⟨tick, after, before, read⟩ := steady.inside i made
    exact bracket_near after before read (steady.room i made) narrow
  · rw [List.pairwise_map]
    apply List.Pairwise.sublist (List.take_sublist _ _)
    unfold narrowAttempts
    rw [List.pairwise_filter, List.pairwise_map]
    apply List.Pairwise.imp_of_mem _ List.pairwise_lt_range
    intro i j _ jIn later narrow _
    exact steady.spaced later (List.mem_range.mp jIn) narrow

theorem calibrateTscRealtime_eq_none_iff (attempt : ℕ → Bracket) :
    calibrateTscRealtime attempt = none ↔
      (narrowAttempts attempt (calSamples * 4)).length < 8 := by
  unfold calibrateTscRealtime
  rw [fitSamples_eq_none_iff, tscSamples_length]
  unfold calSamples
  omega

/-- For every sequence of readings of a counter and of a wall clock that goes
at one rate: the calibration fails exactly when fewer than eight brackets are
narrow.  Otherwise its line is the clock's up to the reach of a bracket, 200
ticks, and its slope up to a share of it that the number of samples and the
gap between them make small. -/
theorem calibrateTscRealtime_accurate {rate offset : ℚ} {gap : ℕ}
    {attempt : ℕ → Bracket} (positive : 0 < gap)
    (steady : SteadyCounter rate offset gap attempt) :
    (calibrateTscRealtime attempt = none ↔
      (narrowAttempts attempt (calSamples * 4)).length < 8) ∧
    (tscSamples attempt).length =
      min calSamples (narrowAttempts attempt (calSamples * 4)).length ∧
    ∀ f, calibrateTscRealtime attempt = some f →
      Accurate rate offset (200 * |rate|) gap (tscSamples attempt) f := by
  refine ⟨calibrateTscRealtime_eq_none_iff attempt,
    tscSamples_length attempt, ?_⟩
  intro f fitted
  exact fitSamples_accurate (Nat.cast_pos.mpr positive) steady.steady fitted

/-- Attempts a thousand ticks apart, all of them narrow. -/
def evenAttempts (i : ℕ) : Bracket :=
  { t0 := UInt64.ofNat (1000 * i)
    ts := { tvSec := 0, tvNsec := Int64.ofNat (1000 * i + 100) }
    t1 := UInt64.ofNat (1000 * i + 200) }

theorem evenAttempts_steady : SteadyCounter 1 0 800 evenAttempts := by
  have opens : ∀ i < calSamples * 4,
      (evenAttempts i).t0.toNat = 1000 * i := by
    intro i made
    apply UInt64.toNat_ofNat_of_lt'
    unfold calSamples at made
    change _ < 2 ^ 64
    omega
  have closes : ∀ i < calSamples * 4,
      (evenAttempts i).t1.toNat = 1000 * i + 200 := by
    intro i made
    apply UInt64.toNat_ofNat_of_lt'
    unfold calSamples at made
    change _ < 2 ^ 64
    omega
  constructor
  · intro i made
    refine ⟨1000 * i + 100, ?_, ?_, ?_⟩
    · rw [opens i made, Nat.cast_mul]
      exact le_add_of_nonneg_right (by norm_num)
    · rw [closes i made, Nat.cast_add, Nat.cast_mul]
      exact add_le_add (le_refl _) (by norm_num)
    · have small : (evenAttempts i).ts.tvNsec.toInt = 1000 * i + 100 := by
        unfold calSamples at made
        exact Int64.toInt_ofNat_of_lt (by omega)
      unfold tsToNs
      rw [small]
      change ((0 : ℤ) : ℚ) * _ + _ = _
      push_cast
      ring
  · intro i made
    rw [opens i made, closes i made]
    unfold calSamples at made
    omega
  · intro i j later made _
    rw [opens j made, closes i (later.trans made)]
    omega

theorem evenAttempts_fitted :
    calibrateTscRealtime evenAttempts ≠ none := by
  rw [Ne, calibrateTscRealtime_eq_none_iff]
  decide +kernel

theorem calibrateTscRealtime_accurate_even :
    ∃ f, calibrateTscRealtime evenAttempts = some f ∧
      Accurate 1 0 (200 * |1|) (800 : ℕ) (tscSamples evenAttempts) f := by
  obtain ⟨f, fitted⟩ := Option.ne_none_iff_exists'.mp evenAttempts_fitted
  exact ⟨f, fitted,
    (calibrateTscRealtime_accurate (by decide) evenAttempts_steady).2.2 f
      fitted⟩

end Loopback

end Waler
