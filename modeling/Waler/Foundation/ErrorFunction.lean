/-
The complementary error function of the reals.

It is the integral of the Gaussian density from a point to infinity, scaled to
run from two down to zero.  Splitting the integral gives its derivative; the
symmetry of the density gives its bounds.
-/

import Mathlib.Analysis.SpecialFunctions.Gaussian.GaussianIntegral
import Mathlib.MeasureTheory.Integral.IntegralEqImproper
import Mathlib.MeasureTheory.Integral.IntervalIntegral.FundThmCalculus

namespace ErrorFunction

open MeasureTheory Set

noncomputable def density (t : ℝ) : ℝ :=
  Real.exp (-t ^ 2)

/-- The tail of the density, scaled to be one at zero. -/
noncomputable def erfc (x : ℝ) : ℝ :=
  (∫ t in Ioi x, density t) / ∫ t in Ioi 0, density t

theorem density_pos (t : ℝ) : 0 < density t :=
  Real.exp_pos _

theorem density_neg (t : ℝ) : density (-t) = density t := by
  unfold density
  rw [neg_sq]

theorem density_continuous : Continuous density := by
  unfold density
  fun_prop

theorem density_eq (t : ℝ) : density t = Real.exp (-1 * t ^ 2) := by
  unfold density
  rw [neg_one_mul]

theorem density_integrable : Integrable density := by
  have gaussian := integrable_exp_neg_mul_sq (one_pos : (0 : ℝ) < 1)
  simp only [← density_eq] at gaussian
  exact gaussian

theorem integral_density : ∫ t, density t = √Real.pi := by
  have gaussian := integral_gaussian 1
  simp only [← density_eq, div_one] at gaussian
  exact gaussian

theorem sqrt_pi_pos : 0 < √Real.pi :=
  Real.sqrt_pos.mpr Real.pi_pos

theorem integral_density_Ioi : ∫ t in Ioi 0, density t = √Real.pi / 2 := by
  have gaussian := integral_gaussian_Ioi 1
  simp only [← density_eq, div_one] at gaussian
  exact gaussian

/-- The usual form of the definition. -/
theorem erfc_eq_integral (x : ℝ) :
    erfc x = 2 / √Real.pi * ∫ t in Ioi x, density t := by
  have root := sqrt_pi_pos.ne'
  unfold erfc
  rw [integral_density_Ioi]
  field_simp

/-! ### Derivative -/

/-- The tail from a point is the tail from zero without what lies between. -/
theorem erfc_eq (x : ℝ) :
    erfc x = 2 / √Real.pi *
      ((∫ t in Ioi 0, density t) - ∫ t in (0 : ℝ)..x, density t) := by
  have split := intervalIntegral.integral_interval_add_Ioi
    (density_integrable.integrableOn (s := Ioi 0))
    (density_integrable.integrableOn (s := Ioi x))
  rw [erfc_eq_integral, ← split, add_sub_cancel_left]

theorem hasDerivAt_erfc (x : ℝ) :
    HasDerivAt erfc (-(2 / √Real.pi) * density x) x := by
  have between : HasDerivAt (fun x => ∫ t in (0 : ℝ)..x, density t)
      (density x) x :=
    (density_continuous.integral_hasStrictDerivAt 0 x).hasDerivAt
  have scaled := (between.const_sub (∫ t in Ioi 0, density t)).const_mul
    (2 / √Real.pi)
  rw [show erfc = _ from funext erfc_eq]
  exact scaled.congr_deriv (by ring)

/-! ### Bounds -/

theorem tail_pos (x : ℝ) : 0 < ∫ t in Ioi x, density t := by
  have split := intervalIntegral.integral_interval_add_Ioi
    (density_integrable.integrableOn (s := Ioi x))
    (density_integrable.integrableOn (s := Ioi (x + 1)))
  have near : 0 < ∫ t in x..(x + 1), density t :=
    intervalIntegral.intervalIntegral_pos_of_pos
      (density_continuous.intervalIntegrable x (x + 1)) density_pos
      (lt_add_one x)
  have far : 0 ≤ ∫ t in Ioi (x + 1), density t :=
    setIntegral_nonneg measurableSet_Ioi (fun t _ => (density_pos t).le)
  linarith

theorem tails (x : ℝ) :
    (∫ t in Ioi (-x), density t) + ∫ t in Ioi x, density t = √Real.pi := by
  have mirrored : ∫ t in Iic x, density t = ∫ t in Ioi (-x), density t := by
    rw [← integral_comp_neg_Iic]
    simp only [density_neg]
  rw [← mirrored, ← integral_density]
  exact intervalIntegral.integral_Iic_add_Ioi
    density_integrable.integrableOn density_integrable.integrableOn

theorem erfc_pos (x : ℝ) : 0 < erfc x :=
  div_pos (tail_pos x) (tail_pos 0)

theorem erfc_neg_add (x : ℝ) : erfc (-x) + erfc x = 2 := by
  rw [erfc_eq_integral, erfc_eq_integral, ← mul_add, tails]
  exact div_mul_cancel₀ 2 sqrt_pi_pos.ne'

theorem erfc_lt_two (x : ℝ) : erfc x < 2 := by
  have sum := erfc_neg_add x
  have mirrored := erfc_pos (-x)
  linarith

/-! ### Limits -/

theorem tendsto_erfc_atTop :
    Filter.Tendsto erfc Filter.atTop (nhds 0) := by
  have between := intervalIntegral_tendsto_integral_Ioi 0
    (density_integrable.integrableOn (s := Ioi 0)) Filter.tendsto_id
  have tail := (between.const_sub (∫ t in Ioi 0, density t)).const_mul
    (2 / √Real.pi)
  rw [sub_self, mul_zero] at tail
  rw [show erfc = _ from funext erfc_eq]
  exact tail

theorem tendsto_erfc_atBot :
    Filter.Tendsto erfc Filter.atBot (nhds 2) := by
  have mirrored := (tendsto_erfc_atTop.comp
    Filter.tendsto_neg_atBot_atTop).const_sub 2
  rw [sub_zero] at mirrored
  refine mirrored.congr (fun x => ?_)
  rw [Function.comp_apply, ← erfc_neg_add x, add_sub_cancel_left]

end ErrorFunction
