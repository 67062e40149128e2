/-
Fitting a line to finitely many points by least squares.

The normal equations say that the residuals of a line are orthogonal to the
constants and to the abscissas.  A line that solves them is at least as good
as any other, and with two different abscissas it is the only such line.  The
equations can be solved in a frame moved to any origin.
-/

import Mathlib.Algebra.BigOperators.Field
import Mathlib.Algebra.Order.BigOperators.Ring.Finset
import Mathlib.Algebra.Order.Field.Basic
import Mathlib.Tactic.FieldSimp
import Mathlib.Tactic.LinearCombination
import Mathlib.Tactic.Linarith

universe u v

namespace LeastSquares

variable {ι : Type u} {K : Type v} [Field K]

/-- The sum of the squared distances of the points from a line. -/
def cost (points : Finset ι) (x y : ι → K) (slope intercept : K) : K :=
  ∑ i ∈ points, (y i - slope * x i - intercept) ^ 2

/-- The determinant of the normal equations. -/
def spread (points : Finset ι) (x : ι → K) : K :=
  points.card * ∑ i ∈ points, x i ^ 2 - (∑ i ∈ points, x i) ^ 2

structure NormalEquations (points : Finset ι) (x y : ι → K)
    (slope intercept : K) : Prop where
  constant : ∑ i ∈ points, (y i - slope * x i - intercept) = 0
  linear : ∑ i ∈ points, (y i - slope * x i - intercept) * x i = 0

/-! ### Lines that solve the normal equations -/

variable {points : Finset ι} {x y : ι → K} {slope intercept : K}

/-- Another line costs more by the squared vertical distances between the two
lines. -/
theorem NormalEquations.cost_eq
    (normal : NormalEquations points x y slope intercept) (a b : K) :
    cost points x y a b = cost points x y slope intercept +
      ∑ i ∈ points, ((slope - a) * x i + (intercept - b)) ^ 2 := by
  have mixed : ∑ i ∈ points, (y i - slope * x i - intercept) *
      ((slope - a) * x i + (intercept - b)) = 0 := by
    calc
      ∑ i ∈ points, (y i - slope * x i - intercept) *
          ((slope - a) * x i + (intercept - b))
          = (slope - a) *
              ∑ i ∈ points, (y i - slope * x i - intercept) * x i +
            (intercept - b) *
              ∑ i ∈ points, (y i - slope * x i - intercept) := by
        rw [Finset.mul_sum, Finset.mul_sum, ← Finset.sum_add_distrib]
        exact Finset.sum_congr rfl (fun i _ => by ring)
      _ = 0 := by
        rw [normal.linear, normal.constant]
        ring
  have squares : cost points x y a b = cost points x y slope intercept +
      2 * ∑ i ∈ points, (y i - slope * x i - intercept) *
        ((slope - a) * x i + (intercept - b)) +
      ∑ i ∈ points, ((slope - a) * x i + (intercept - b)) ^ 2 := by
    unfold cost
    rw [Finset.mul_sum, ← Finset.sum_add_distrib, ← Finset.sum_add_distrib]
    exact Finset.sum_congr rfl (fun i _ => by ring)
  rw [squares, mixed, mul_zero, add_zero]

/-- Points on a line are fitted by that line. -/
theorem normalEquations_of_line {a b : K}
    (onLine : ∀ i ∈ points, y i = a * x i + b) :
    NormalEquations points x y a b where
  constant := Finset.sum_eq_zero (fun i iIn => by
    rw [onLine i iIn]
    ring)
  linear := Finset.sum_eq_zero (fun i iIn => by
    rw [onLine i iIn]
    ring)

/-- A line fitted in a frame with another origin, translated back. -/
theorem NormalEquations.translate {x0 y0 : K}
    (normal : NormalEquations points (fun i => x i - x0)
      (fun i => y i - y0) slope intercept) :
    NormalEquations points x y slope (intercept + y0 - slope * x0) := by
  have residual : ∀ i, y i - slope * x i - (intercept + y0 - slope * x0) =
      y i - y0 - slope * (x i - x0) - intercept := by
    intro i
    ring
  constructor
  · simp only [residual]
    exact normal.constant
  · have split : ∑ i ∈ points, (y i - y0 - slope * (x i - x0) - intercept) *
        x i =
          ∑ i ∈ points, (y i - y0 - slope * (x i - x0) - intercept) *
            (x i - x0) +
          x0 * ∑ i ∈ points, (y i - y0 - slope * (x i - x0) - intercept) := by
      rw [Finset.mul_sum, ← Finset.sum_add_distrib]
      exact Finset.sum_congr rfl (fun i _ => by ring)
    simp only [residual]
    rw [split, normal.linear, normal.constant]
    ring

/-- The fit of the distances from a line. -/
theorem NormalEquations.sub_line
    (normal : NormalEquations points x y slope intercept) (a b : K) :
    NormalEquations points x (fun i => y i - (a * x i + b)) (slope - a)
      (intercept - b) := by
  have residual : ∀ i, y i - (a * x i + b) - (slope - a) * x i -
      (intercept - b) = y i - slope * x i - intercept := by
    intro i
    ring
  constructor
  · simp only [residual]
    exact normal.constant
  · simp only [residual]
    exact normal.linear

theorem sum_sq_line (points : Finset ι) (x : ι → K) (slope intercept : K) :
    ∑ i ∈ points, (slope * x i + intercept) ^ 2 =
      slope ^ 2 * ∑ i ∈ points, x i ^ 2 +
        2 * slope * intercept * ∑ i ∈ points, x i +
          points.card * intercept ^ 2 := by
  rw [Finset.mul_sum, Finset.mul_sum, ← nsmul_eq_mul, ← Finset.sum_const,
    ← Finset.sum_add_distrib, ← Finset.sum_add_distrib]
  exact Finset.sum_congr rfl (fun i _ => by ring)

theorem spread_range_succ (x : ℕ → K) (n : ℕ) :
    spread (Finset.range (n + 1)) x =
      spread (Finset.range n) x + ∑ i ∈ Finset.range n, (x n - x i) ^ 2 := by
  have expanded : ∑ i ∈ Finset.range n, (x n - x i) ^ 2 =
      n * x n ^ 2 - 2 * x n * ∑ i ∈ Finset.range n, x i +
        ∑ i ∈ Finset.range n, x i ^ 2 := by
    rw [Finset.mul_sum]
    have constant : (n : K) * x n ^ 2 = ∑ _i ∈ Finset.range n, x n ^ 2 := by
      rw [Finset.sum_const, Finset.card_range, nsmul_eq_mul]
    rw [constant, ← Finset.sum_sub_distrib, ← Finset.sum_add_distrib]
    exact Finset.sum_congr rfl (fun i _ => by ring)
  rw [expanded]
  unfold spread
  rw [Finset.sum_range_succ, Finset.sum_range_succ, Finset.card_range,
    Finset.card_range, Nat.cast_succ]
  ring

theorem six_mul_sum_sq_sub (n : ℕ) (m : K) :
    6 * ∑ i ∈ Finset.range n, (m - i) ^ 2 =
      6 * n * m ^ 2 - 6 * m * (n * (n - 1)) +
        (n - 1) * n * (2 * n - 1) := by
  induction n with
  | zero =>
      rw [Finset.range_zero, Finset.sum_empty, Nat.cast_zero]
      ring
  | succ n ih =>
      rw [Finset.sum_range_succ, mul_add, ih, Nat.cast_succ]
      ring

/-! ### The best line -/

variable [LinearOrder K] [IsStrictOrderedRing K]

/-- The spread is the count times the squared deviations from the mean. -/
theorem spread_eq (nonempty : points.Nonempty) :
    spread points x = points.card *
      ∑ i ∈ points, (x i - (∑ j ∈ points, x j) / points.card) ^ 2 := by
  have counted : (points.card : K) ≠ 0 :=
    Nat.cast_ne_zero.mpr (Finset.card_ne_zero.mpr nonempty)
  have expanded : ∀ mean : K, ∑ i ∈ points, (x i - mean) ^ 2 =
      ∑ i ∈ points, x i ^ 2 - 2 * mean * ∑ i ∈ points, x i +
        points.card * mean ^ 2 := by
    intro mean
    rw [Finset.mul_sum, ← Finset.sum_sub_distrib, ← nsmul_eq_mul,
      ← Finset.sum_const, ← Finset.sum_add_distrib]
    exact Finset.sum_congr rfl (fun i _ => by ring)
  rw [expanded]
  unfold spread
  field_simp
  ring

/-- Two different abscissas cannot both be the mean. -/
theorem spread_pos {i j : ι} (iIn : i ∈ points) (jIn : j ∈ points)
    (different : x i ≠ x j) : 0 < spread points x := by
  have nonempty : points.Nonempty := ⟨i, iIn⟩
  have counted : (0 : K) < points.card :=
    Nat.cast_pos.mpr (Finset.card_pos.mpr nonempty)
  rw [spread_eq nonempty]
  apply mul_pos counted
  refine Finset.sum_pos' (fun k _ => sq_nonneg _) ?_
  by_cases atMean : x i = (∑ k ∈ points, x k) / points.card
  · exact ⟨j, jIn, sq_pos_iff.mpr (fun same => different
      (atMean.trans (sub_eq_zero.mp same).symm))⟩
  · exact ⟨i, iIn, sq_pos_iff.mpr (fun same => atMean (sub_eq_zero.mp same))⟩

/-- The solution of the equations by determinants. -/
theorem normalEquations_of_spread (nonempty : points.Nonempty)
    (nonzero : spread points x ≠ 0)
    (slopeEq : slope = (points.card * ∑ i ∈ points, x i * y i -
      (∑ i ∈ points, x i) * ∑ i ∈ points, y i) / spread points x)
    (interceptEq : intercept = (∑ i ∈ points, y i -
      slope * ∑ i ∈ points, x i) / points.card) :
    NormalEquations points x y slope intercept := by
  have counted : (points.card : K) ≠ 0 :=
    Nat.cast_ne_zero.mpr (Finset.card_ne_zero.mpr nonempty)
  have balanced : points.card * intercept =
      ∑ i ∈ points, y i - slope * ∑ i ∈ points, x i := by
    rw [interceptEq]
    exact mul_div_cancel₀ _ counted
  have determined : slope * spread points x =
      points.card * ∑ i ∈ points, x i * y i -
        (∑ i ∈ points, x i) * ∑ i ∈ points, y i := by
    rw [slopeEq]
    exact div_mul_cancel₀ _ nonzero
  constructor
  · rw [Finset.sum_sub_distrib, Finset.sum_sub_distrib, ← Finset.mul_sum,
      Finset.sum_const, nsmul_eq_mul]
    linear_combination -balanced
  · have expanded : ∑ i ∈ points, (y i - slope * x i - intercept) * x i =
        ∑ i ∈ points, x i * y i - slope * ∑ i ∈ points, x i ^ 2 -
          intercept * ∑ i ∈ points, x i := by
      rw [Finset.mul_sum, Finset.mul_sum, ← Finset.sum_sub_distrib,
        ← Finset.sum_sub_distrib]
      exact Finset.sum_congr rfl (fun i _ => by ring)
    rw [expanded]
    unfold spread at determined
    apply (mul_eq_zero.mp ?_).resolve_left counted
    linear_combination -determined - (∑ i ∈ points, x i) * balanced

theorem NormalEquations.cost_le
    (normal : NormalEquations points x y slope intercept) (a b : K) :
    cost points x y slope intercept ≤ cost points x y a b := by
  rw [normal.cost_eq a b]
  exact le_add_of_nonneg_right
    (Finset.sum_nonneg (fun i _ => sq_nonneg _))

/-- With two different abscissas no other line is as good. -/
theorem NormalEquations.unique
    (normal : NormalEquations points x y slope intercept) {i j : ι}
    (iIn : i ∈ points) (jIn : j ∈ points) (different : x i ≠ x j) {a b : K}
    (best : cost points x y a b ≤ cost points x y slope intercept) :
    a = slope ∧ b = intercept := by
  have noExcess : ∑ k ∈ points,
      ((slope - a) * x k + (intercept - b)) ^ 2 = 0 := by
    have excess := normal.cost_eq a b
    have nonneg : 0 ≤ ∑ k ∈ points,
        ((slope - a) * x k + (intercept - b)) ^ 2 :=
      Finset.sum_nonneg (fun k _ => sq_nonneg _)
    linarith
  have meet : ∀ k ∈ points, (slope - a) * x k + (intercept - b) = 0 := by
    intro k kIn
    have zero := (Finset.sum_eq_zero_iff_of_nonneg
      (fun k _ => sq_nonneg _)).mp noExcess k kIn
    exact pow_eq_zero_iff (two_ne_zero) |>.mp zero
  have atI := meet i iIn
  have atJ := meet j jIn
  have slopes : slope - a = 0 := by
    have product : (slope - a) * (x i - x j) = 0 := by
      linear_combination atI - atJ
    exact (mul_eq_zero.mp product).resolve_right (sub_ne_zero.mpr different)
  rw [slopes, zero_mul, zero_add] at atI
  exact ⟨(sub_eq_zero.mp slopes).symm, (sub_eq_zero.mp atI).symm⟩

/-! ### Points near a line

A line fitted to points that are close to another line is close to that line:
close to it near the mean of the abscissas, and further away with the distance
from the mean, the less so the more the abscissas are spread.
-/

/-- The fitted values have at most the squares of the ordinates. -/
theorem NormalEquations.sum_sq_le
    (normal : NormalEquations points x y slope intercept) :
    ∑ i ∈ points, (slope * x i + intercept) ^ 2 ≤ ∑ i ∈ points, y i ^ 2 := by
  have flat := normal.cost_eq 0 0
  have whole : cost points x y 0 0 = ∑ i ∈ points, y i ^ 2 :=
    Finset.sum_congr rfl (fun i _ => by rw [zero_mul, sub_zero, sub_zero])
  have left : 0 ≤ cost points x y slope intercept :=
    Finset.sum_nonneg (fun i _ => sq_nonneg _)
  rw [whole, sub_zero, sub_zero] at flat
  rw [flat]
  exact le_add_of_nonneg_left left

/-- A line is bounded everywhere by its values at the abscissas. -/
theorem sq_line_mul_spread_le (points : Finset ι) (x : ι → K)
    (slope intercept place : K) :
    points.card * ((slope * place + intercept) ^ 2 * spread points x) ≤
      (spread points x + (points.card * place - ∑ i ∈ points, x i) ^ 2) *
        ∑ i ∈ points, (slope * x i + intercept) ^ 2 := by
  have gap := mul_nonneg (Nat.cast_nonneg points.card)
    (sq_nonneg (slope * ((∑ i ∈ points, x i) * place - ∑ i ∈ points, x i ^ 2) +
      intercept * (points.card * place - ∑ i ∈ points, x i)))
  rw [sum_sq_line]
  unfold spread
  linarith

theorem sq_slope_mul_spread_le (points : Finset ι) (x : ι → K)
    (slope intercept : K) :
    slope ^ 2 * spread points x ≤
      points.card * ∑ i ∈ points, (slope * x i + intercept) ^ 2 := by
  have gap := sq_nonneg (slope * ∑ i ∈ points, x i + points.card * intercept)
  rw [sum_sq_line]
  unfold spread
  linarith

section Near

variable {a b reach : K}
  (near : ∀ i ∈ points, |y i - (a * x i + b)| ≤ reach)
include near

theorem sum_sq_near_le :
    ∑ i ∈ points, (y i - (a * x i + b)) ^ 2 ≤ points.card * reach ^ 2 := by
  rw [← nsmul_eq_mul]
  exact Finset.sum_le_card_nsmul points _ _ (fun i iIn =>
    sq_le_sq' (abs_le.mp (near i iIn)).1 (abs_le.mp (near i iIn)).2)

theorem NormalEquations.sq_slope_sub_le
    (normal : NormalEquations points x y slope intercept) :
    (slope - a) ^ 2 * spread points x ≤ (points.card * reach) ^ 2 := by
  have fitted := (normal.sub_line a b).sum_sq_le.trans (sum_sq_near_le near)
  calc
    (slope - a) ^ 2 * spread points x
        ≤ points.card * ∑ i ∈ points,
            ((slope - a) * x i + (intercept - b)) ^ 2 :=
      sq_slope_mul_spread_le points x _ _
    _ ≤ points.card * (points.card * reach ^ 2) :=
      mul_le_mul_of_nonneg_left fitted (Nat.cast_nonneg _)
    _ = (points.card * reach) ^ 2 := by ring

theorem NormalEquations.sq_line_sub_le
    (normal : NormalEquations points x y slope intercept)
    (nonempty : points.Nonempty) (spreads : 0 < spread points x) (place : K) :
    (slope * place + intercept - (a * place + b)) ^ 2 * spread points x ≤
      (spread points x + (points.card * place - ∑ i ∈ points, x i) ^ 2) *
        reach ^ 2 := by
  have counted : (0 : K) < points.card :=
    Nat.cast_pos.mpr (Finset.card_pos.mpr nonempty)
  have fitted := (normal.sub_line a b).sum_sq_le.trans (sum_sq_near_le near)
  have lever : 0 ≤ spread points x +
      (points.card * place - ∑ i ∈ points, x i) ^ 2 :=
    add_nonneg spreads.le (sq_nonneg _)
  apply le_of_mul_le_mul_left _ counted
  calc
    points.card * ((slope * place + intercept - (a * place + b)) ^ 2 *
          spread points x)
        = points.card * (((slope - a) * place + (intercept - b)) ^ 2 *
          spread points x) := by ring
    _ ≤ (spread points x + (points.card * place - ∑ i ∈ points, x i) ^ 2) *
          ∑ i ∈ points, ((slope - a) * x i + (intercept - b)) ^ 2 :=
      sq_line_mul_spread_le points x _ _ place
    _ ≤ (spread points x + (points.card * place - ∑ i ∈ points, x i) ^ 2) *
          (points.card * reach ^ 2) :=
      mul_le_mul_of_nonneg_left fitted lever
    _ = points.card *
          ((spread points x +
            (points.card * place - ∑ i ∈ points, x i) ^ 2) * reach ^ 2) := by
      ring

end Near

/-! ### Spaced abscissas -/

section Spaced

variable {x : ℕ → K} {gap : K} {n : ℕ}
  (spaced : ∀ i, i + 1 < n → x i + gap ≤ x (i + 1))
include spaced

theorem spaced_steps {i steps : ℕ} (inside : i + steps < n) :
    x i + steps * gap ≤ x (i + steps) := by
  induction steps with
  | zero =>
      rw [Nat.cast_zero, zero_mul, add_zero]
      exact le_refl _
  | succ steps ih =>
      have before := ih (by omega)
      have last := spaced (i + steps) (by omega)
      rw [Nat.cast_succ]
      change _ ≤ x (i + steps + 1)
      linarith

/-- Abscissas at least a gap apart are spread as those exactly a gap apart, or
more. -/
theorem le_spread_of_spaced (nonneg : 0 ≤ gap) :
    (n * gap) ^ 2 * (n ^ 2 - 1) ≤ 12 * spread (Finset.range n) x := by
  induction n with
  | zero =>
      unfold spread
      rw [Finset.range_zero, Finset.card_empty, Finset.sum_empty,
        Finset.sum_empty, Nat.cast_zero]
      apply le_of_eq
      ring
  | succ n ih =>
      have before := ih (fun i inside => spaced i (by omega))
      have last : ∑ i ∈ Finset.range n, ((n - i) ^ 2 : K) * gap ^ 2 ≤
          ∑ i ∈ Finset.range n, (x n - x i) ^ 2 := by
        apply Finset.sum_le_sum
        intro i iIn
        have below := Finset.mem_range.mp iIn
        obtain ⟨steps, rfl⟩ := Nat.exists_eq_add_of_le below.le
        have apart : x i + steps * gap ≤ x (i + steps) :=
          spaced_steps spaced (by omega)
        have distance : ((i + steps : ℕ) : K) - i = steps := by
          rw [Nat.cast_add, add_sub_cancel_left]
        have product : (0 : K) ≤ steps * gap :=
          mul_nonneg (Nat.cast_nonneg _) nonneg
        rw [distance, ← mul_pow]
        exact pow_le_pow_left₀ product (by linarith) 2
      have squares := six_mul_sum_sq_sub n (n : K)
      rw [← Finset.sum_mul] at last
      rw [spread_range_succ, mul_add]
      calc
        ((n + 1 : ℕ) * gap) ^ 2 * (((n + 1 : ℕ) : K) ^ 2 - 1)
            = (n * gap) ^ 2 * (n ^ 2 - 1) +
              2 * (6 * ∑ i ∈ Finset.range n, ((n : K) - i) ^ 2) *
                gap ^ 2 := by
          rw [squares, Nat.cast_succ]
          ring
        _ ≤ _ := by linarith

/-- The slope fitted to points near a line, by the gap of the abscissas. -/
theorem NormalEquations.sq_slope_sub_le_of_spaced {y : ℕ → K}
    {slope intercept a b reach : K}
    (normal : NormalEquations (Finset.range n) x y slope intercept)
    (near : ∀ i ∈ Finset.range n, |y i - (a * x i + b)| ≤ reach)
    (nonneg : 0 ≤ gap) (counted : 0 < n) :
    (slope - a) ^ 2 * (gap ^ 2 * (n ^ 2 - 1)) ≤ 12 * reach ^ 2 := by
  have positive : (0 : K) < n ^ 2 := by positivity
  have spread := le_spread_of_spaced spaced nonneg
  have error := normal.sq_slope_sub_le near
  rw [Finset.card_range] at error
  apply le_of_mul_le_mul_left _ positive
  calc
    (n : K) ^ 2 * ((slope - a) ^ 2 * (gap ^ 2 * (n ^ 2 - 1)))
        = (slope - a) ^ 2 * ((n * gap) ^ 2 * (n ^ 2 - 1)) := by ring
    _ ≤ (slope - a) ^ 2 * (12 * LeastSquares.spread (Finset.range n) x) :=
      mul_le_mul_of_nonneg_left spread (sq_nonneg _)
    _ = 12 * ((slope - a) ^ 2 * LeastSquares.spread (Finset.range n) x) := by
      ring
    _ ≤ 12 * (n * reach) ^ 2 :=
      mul_le_mul_of_nonneg_left error (by norm_num)
    _ = n ^ 2 * (12 * reach ^ 2) := by ring

/-- The line fitted to points near a line, by the gap of the abscissas and the
distance from their mean. -/
theorem NormalEquations.sq_line_sub_le_of_spaced {y : ℕ → K}
    {slope intercept a b reach : K}
    (normal : NormalEquations (Finset.range n) x y slope intercept)
    (near : ∀ i ∈ Finset.range n, |y i - (a * x i + b)| ≤ reach)
    (positive : 0 < gap) (several : 1 < n) (place : K) :
    (slope * place + intercept - (a * place + b)) ^ 2 ≤
      (1 + 12 * (place - (∑ i ∈ Finset.range n, x i) / n) ^ 2 /
        (gap ^ 2 * (n ^ 2 - 1))) * reach ^ 2 := by
  have counted : (0 : K) < n := Nat.cast_pos.mpr (by omega)
  have more : (0 : K) < n ^ 2 - 1 := by
    have one : (1 : K) < n := Nat.one_lt_cast.mpr several
    nlinarith
  have wide : 0 < gap ^ 2 * ((n : K) ^ 2 - 1) :=
    mul_pos (sq_pos_of_pos positive) more
  have spread := le_spread_of_spaced spaced positive.le
  have spreads : 0 < LeastSquares.spread (Finset.range n) x := by
    have least : 0 < (n * gap) ^ 2 * ((n : K) ^ 2 - 1) :=
      mul_pos (sq_pos_of_pos (mul_pos counted positive)) more
    linarith
  have error := normal.sq_line_sub_le near
    (Finset.nonempty_range_iff.mpr (by omega)) spreads place
  rw [Finset.card_range] at error
  let apart := place - (∑ i ∈ Finset.range n, x i) / n
  have moved : n * place - ∑ i ∈ Finset.range n, x i = n * apart := by
    rw [mul_sub, mul_div_cancel₀ _ counted.ne']
  have lever : (n * apart) ^ 2 * (gap ^ 2 * (n ^ 2 - 1)) ≤
      12 * apart ^ 2 * LeastSquares.spread (Finset.range n) x := by
    have scaled := mul_le_mul_of_nonneg_left spread (sq_nonneg apart)
    linarith
  rw [moved] at error
  apply le_of_mul_le_mul_right (error.trans _) spreads
  rw [mul_right_comm]
  apply mul_le_mul_of_nonneg_right _ (sq_nonneg reach)
  rw [add_mul, one_mul]
  apply add_le_add_right
  rw [div_mul_eq_mul_div, le_div_iff₀ wide]
  exact lever

end Spaced

end LeastSquares
