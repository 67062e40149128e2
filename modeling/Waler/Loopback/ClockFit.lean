/-
The clock fit of x4_loopback_latency.c: `fit` and `lin_apply`.

Doubles are exact rationals, and an array is a function of the index.  The
code sums in the frame centred on the first sample and moves the intercept
back; the result is the least-squares line of the samples as they are.
-/

import Mathlib.Algebra.Order.Field.Rat
import Mathlib.Algebra.BigOperators.Fin
import Waler.Foundation.LeastSquares

namespace Waler

namespace Loopback

/-- `linfit_t`. -/
structure LinFit where
  a : ℚ
  b : ℚ
  deriving DecidableEq, Repr

/-- The four sums of `fit`. -/
structure FitSums where
  sx : ℚ
  sy : ℚ
  sxx : ℚ
  sxy : ℚ
  deriving DecidableEq, Repr

/-- One turn of the loop. -/
def addSample (x y : ℕ → ℚ) (sums : FitSums) (i : ℕ) : FitSums :=
  let dx := x i - x 0
  let dy := y i - y 0
  { sx := sums.sx + dx
    sy := sums.sy + dy
    sxx := sums.sxx + dx * dx
    sxy := sums.sxy + dx * dy }

def fitSums (x y : ℕ → ℚ) (n : ℕ) : FitSums :=
  (List.range n).foldl (addSample x y) { sx := 0, sy := 0, sxx := 0, sxy := 0 }

/-- `d` of `fit`. -/
def denominator (x y : ℕ → ℚ) (n : ℕ) : ℚ :=
  let sums := fitSums x y n
  n * sums.sxx - sums.sx * sums.sx

def fit (x y : ℕ → ℚ) (n : ℕ) : LinFit :=
  let sums := fitSums x y n
  let a := (n * sums.sxy - sums.sx * sums.sy) / denominator x y n
  { a := a
    b := (sums.sy - a * sums.sx) / n + y 0 - a * x 0 }

def linApply (f : LinFit) (x : ℚ) : ℚ :=
  f.a * x + f.b

/-- The sum of `(y[i] - a * x[i] - b)^2`. -/
def squaredError (x y : ℕ → ℚ) (n : ℕ) (a b : ℚ) : ℚ :=
  ∑ i ∈ Finset.range n, (y i - a * x i - b) ^ 2

/-! ### The sums -/

theorem fitSums_eq (x y : ℕ → ℚ) (n : ℕ) :
    fitSums x y n =
      { sx := ∑ i ∈ Finset.range n, (x i - x 0)
        sy := ∑ i ∈ Finset.range n, (y i - y 0)
        sxx := ∑ i ∈ Finset.range n, (x i - x 0) ^ 2
        sxy := ∑ i ∈ Finset.range n, (x i - x 0) * (y i - y 0) } := by
  induction n with
  | zero => rfl
  | succ n ih =>
      have last : fitSums x y (n + 1) = addSample x y (fitSums x y n) n := by
        unfold fitSums
        rw [List.range_succ, List.foldl_append]
        rfl
      rw [last, ih]
      unfold addSample
      dsimp only
      rw [Finset.sum_range_succ, Finset.sum_range_succ, Finset.sum_range_succ,
        Finset.sum_range_succ, sq]

theorem denominator_eq (x y : ℕ → ℚ) (n : ℕ) :
    denominator x y n =
      LeastSquares.spread (Finset.range n) (fun i => x i - x 0) := by
  unfold denominator LeastSquares.spread
  rw [fitSums_eq, Finset.card_range, sq]

section Distinct

variable {x y : ℕ → ℚ} {n i j : ℕ}

theorem denominator_pos (y : ℕ → ℚ) (iIn : i < n) (jIn : j < n)
    (different : x i ≠ x j) : 0 < denominator x y n := by
  rw [denominator_eq]
  exact LeastSquares.spread_pos (Finset.mem_range.mpr iIn)
    (Finset.mem_range.mpr jIn)
    (fun same => different (sub_left_injective same))

/-- In the centred frame the code solves the normal equations, and translates
the solution back. -/
theorem fit_normalEquations (iIn : i < n) (jIn : j < n)
    (different : x i ≠ x j) :
    LeastSquares.NormalEquations (Finset.range n) x y (fit x y n).a
      (fit x y n).b := by
  have nonzero := (denominator_pos y iIn jIn different).ne'
  have slopeEq : (fit x y n).a =
      ((Finset.range n).card *
          ∑ k ∈ Finset.range n, (x k - x 0) * (y k - y 0) -
        (∑ k ∈ Finset.range n, (x k - x 0)) *
          ∑ k ∈ Finset.range n, (y k - y 0)) /
        LeastSquares.spread (Finset.range n) (fun k => x k - x 0) := by
    unfold fit
    rw [denominator_eq, fitSums_eq, Finset.card_range]
  rw [denominator_eq] at nonzero
  have centred := LeastSquares.normalEquations_of_spread
    (y := fun k => y k - y 0) ⟨i, Finset.mem_range.mpr iIn⟩ nonzero slopeEq rfl
  have translated := centred.translate
  have intercept : (fit x y n).b =
      (∑ k ∈ Finset.range n, (y k - y 0) -
        (fit x y n).a * ∑ k ∈ Finset.range n, (x k - x 0)) /
          (Finset.range n).card + y 0 - (fit x y n).a * x 0 := by
    rw [Finset.card_range]
    unfold fit
    rw [fitSums_eq]
  rw [intercept]
  exact translated

end Distinct

/-- For all samples with two different abscissas: the denominator of `fit` is
not zero, its line is the only one with the least squared error, and samples
on a line give that line. -/
theorem fit_leastSquares {x y : ℕ → ℚ} {n : ℕ}
    (distinct : ∃ i < n, ∃ j < n, x i ≠ x j) :
    denominator x y n ≠ 0 ∧
      (∀ a b, squaredError x y n (fit x y n).a (fit x y n).b ≤
        squaredError x y n a b) ∧
      (∀ a b, (∀ a' b', squaredError x y n a b ≤ squaredError x y n a' b') →
        fit x y n = { a := a, b := b }) ∧
      ∀ a b, (∀ i < n, y i = linApply { a := a, b := b } (x i)) →
        fit x y n = { a := a, b := b } := by
  obtain ⟨i, iIn, j, jIn, different⟩ := distinct
  have normal := fit_normalEquations (y := y) iIn jIn different
  have iMem := Finset.mem_range.mpr iIn
  have jMem := Finset.mem_range.mpr jIn
  refine ⟨(denominator_pos y iIn jIn different).ne', normal.cost_le, ?_, ?_⟩
  · intro a b best
    obtain ⟨slopes, intercepts⟩ :=
      normal.unique iMem jMem different (best _ _)
    rw [slopes, intercepts]
  · intro a b onLine
    have line : LeastSquares.NormalEquations (Finset.range n) x y a b :=
      LeastSquares.normalEquations_of_line (fun k kIn =>
        onLine k (Finset.mem_range.mp kIn))
    obtain ⟨slopes, intercepts⟩ :=
      normal.unique iMem jMem different (line.cost_le _ _)
    rw [slopes, intercepts]

/-- Three samples of `y = 2 * x + 1`. -/
theorem fit_leastSquares_three :
    fit (fun i => i) (fun i => 2 * i + 1) 3 = { a := 2, b := 1 } :=
  (fit_leastSquares ⟨0, by decide, 1, by decide, by norm_num⟩).2.2.2 2 1
    (fun _ _ => rfl)

end Loopback

end Waler
