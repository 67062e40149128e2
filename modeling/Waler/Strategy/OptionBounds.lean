/-
What the call pricer of BlackScholes.hpp can answer, over the reals and without
any rounding.

The price is the largest value of a difference of two distribution functions,
taken at the point where their densities balance; so it lies strictly above the
limits of that difference on both sides.  It increases with the volatility, and
the intrinsic value that stands for an unquoted volatility is below it as long
as the rate is not negative.
-/

import Waler.Strategy.BlackScholes

namespace Waler

namespace BlackScholes

open Filter (Tendsto atTop atBot)

/-! ### A single peak -/

section Peak

variable {f slope : ℝ → ℝ} {peak limit : ℝ}
  (derivative : ∀ x, HasDerivAt f (slope x) x)

include derivative

theorem limit_lt_of_rising (rising : ∀ x < peak, 0 < slope x)
    (tends : Tendsto f atBot (nhds limit)) : limit < f peak := by
  have increasing : StrictMonoOn f (Set.Iic peak) := by
    apply strictMonoOn_of_deriv_pos (convex_Iic peak)
    · intro x _
      exact (derivative x).continuousAt.continuousWithinAt
    · intro x inside
      rw [interior_Iic] at inside
      rw [(derivative x).deriv]
      exact rising x inside
  have before : peak - 1 < peak := sub_one_lt peak
  have below : limit ≤ f (peak - 1) := by
    apply le_of_tendsto tends
    filter_upwards [Filter.eventually_le_atBot (peak - 1)] with x early
    exact increasing.monotoneOn (early.trans before.le) before.le early
  exact below.trans_lt
    (increasing before.le (Set.mem_Iic.mpr le_rfl) before)

theorem limit_lt_of_falling (falling : ∀ x > peak, slope x < 0)
    (tends : Tendsto f atTop (nhds limit)) : limit < f peak := by
  have mirrored : ∀ x, HasDerivAt (fun x => f (-x)) (-slope (-x)) x := by
    intro x
    have outer := (derivative (-x)).comp x (hasDerivAt_id x).neg
    exact outer.congr_deriv (mul_neg_one _)
  have reached : limit < f (- -peak) :=
    @limit_lt_of_rising (fun x => f (-x)) (fun x => -slope (-x)) (-peak) limit
      mirrored
      (fun x early => neg_pos.mpr (falling (-x) (lt_neg_of_lt_neg early)))
      (tends.comp Filter.tendsto_neg_atBot_atTop)
  rwa [neg_neg] at reached

end Peak

/-! ### The distribution function -/

theorem tendsto_normalCdf_atTop :
    Tendsto (normalCdf realLibm) atTop (nhds 1) := by
  have root : 0 < √(2 : ℝ) := Real.sqrt_pos.mpr two_pos
  have inner : Tendsto (fun x : ℝ => -x / √2) atTop atBot :=
    Filter.tendsto_neg_atTop_atBot.atBot_div_const root
  have scaled := (ErrorFunction.tendsto_erfc_atBot.comp inner).const_mul
    (1 / 2 : ℝ)
  rwa [one_div_mul_cancel (two_ne_zero)] at scaled

theorem tendsto_normalCdf_atBot :
    Tendsto (normalCdf realLibm) atBot (nhds 0) := by
  have root : 0 < √(2 : ℝ) := Real.sqrt_pos.mpr two_pos
  have inner : Tendsto (fun x : ℝ => -x / √2) atBot atTop :=
    Filter.tendsto_neg_atBot_atTop.atTop_div_const root
  have scaled := (ErrorFunction.tendsto_erfc_atTop.comp inner).const_mul
    (1 / 2 : ℝ)
  rwa [mul_zero] at scaled

theorem normalPdf_pos (x : ℝ) : 0 < normalPdf x :=
  div_pos (Real.exp_pos _)
    (mul_pos ErrorFunction.sqrt_pi_pos (Real.sqrt_pos.mpr two_pos))

theorem normalPdf_add (x shift : ℝ) :
    normalPdf (x + shift) =
      normalPdf x * Real.exp (-(x * shift) - shift ^ 2 / 2) := by
  unfold normalPdf
  rw [div_mul_eq_mul_div, ← Real.exp_add]
  congr 2
  ring

/-! ### The price -/

section Price

variable {inputs : BlackScholesInputs ℝ}

/-- What the strike is worth today. -/
noncomputable def discountedStrike (inputs : BlackScholesInputs ℝ) : ℝ :=
  inputs.strike * Real.exp (-inputs.riskFreeRate * inputs.timeToExpiryYears)

theorem discountedStrike_pos (quoted : Quoted inputs) :
    0 < discountedStrike inputs :=
  mul_pos quoted.strike (Real.exp_pos _)

/-- The worth of exercising wherever the normal variable is below a bound. -/
noncomputable def exercised (inputs : BlackScholesInputs ℝ) (bound : ℝ) : ℝ :=
  inputs.spot * normalCdf realLibm (bound + totalVolatility inputs) -
    discountedStrike inputs * normalCdf realLibm bound

theorem callPrice_eq_exercised (quoted : Quoted inputs) :
    (priceCall realLibm inputs).callPrice =
      exercised inputs (d2 realLibm inputs) := by
  have apart : d2 realLibm inputs + totalVolatility inputs =
      d1 realLibm inputs := sub_add_cancel _ _
  rw [priceCall_of_quoted realLibm quoted]
  unfold exercised
  rw [apart]
  rfl

noncomputable def exercisedSlope (inputs : BlackScholesInputs ℝ)
    (bound : ℝ) : ℝ :=
  inputs.spot * normalPdf (bound + totalVolatility inputs) -
    discountedStrike inputs * normalPdf bound

theorem hasDerivAt_exercised (inputs : BlackScholesInputs ℝ) (bound : ℝ) :
    HasDerivAt (exercised inputs) (exercisedSlope inputs bound) bound := by
  have stock := ((hasDerivAt_normalCdf
    (bound + totalVolatility inputs)).comp_add_const bound
      (totalVolatility inputs)).const_mul inputs.spot
  exact stock.sub ((hasDerivAt_normalCdf bound).const_mul _)

/-- The slope is the density times a difference that falls through zero at
`d2`. -/
theorem exercisedSlope_eq (quoted : Quoted inputs) (bound : ℝ) :
    exercisedSlope inputs bound =
      normalPdf bound * (inputs.spot *
        (Real.exp (-(bound * totalVolatility inputs) -
            totalVolatility inputs ^ 2 / 2) -
          Real.exp (-(d2 realLibm inputs * totalVolatility inputs) -
            totalVolatility inputs ^ 2 / 2))) := by
  have balance := spot_mul_normalPdf quoted
  have apart : d1 realLibm inputs =
      d2 realLibm inputs + totalVolatility inputs := (sub_add_cancel _ _).symm
  rw [apart, normalPdf_add] at balance
  have strike : discountedStrike inputs = inputs.spot *
      Real.exp (-(d2 realLibm inputs * totalVolatility inputs) -
        totalVolatility inputs ^ 2 / 2) := by
    apply mul_right_cancel₀ (normalPdf_pos (d2 realLibm inputs)).ne'
    unfold discountedStrike
    rw [← balance]
    ring
  unfold exercisedSlope
  rw [normalPdf_add, strike]
  ring

theorem exercisedSlope_pos (quoted : Quoted inputs) {bound : ℝ}
    (early : bound < d2 realLibm inputs) : 0 < exercisedSlope inputs bound := by
  rw [exercisedSlope_eq quoted]
  apply mul_pos (normalPdf_pos bound)
  apply mul_pos quoted.spot
  apply sub_pos.mpr (Real.exp_lt_exp.mpr _)
  have scaled := mul_lt_mul_of_pos_right early (totalVolatility_pos quoted)
  linarith

theorem exercisedSlope_neg (quoted : Quoted inputs) {bound : ℝ}
    (late : d2 realLibm inputs < bound) : exercisedSlope inputs bound < 0 := by
  rw [exercisedSlope_eq quoted]
  apply mul_neg_of_pos_of_neg (normalPdf_pos bound)
  apply mul_neg_of_pos_of_neg quoted.spot
  apply sub_neg.mpr (Real.exp_lt_exp.mpr _)
  have scaled := mul_lt_mul_of_pos_right late (totalVolatility_pos quoted)
  linarith

theorem callPrice_bounds (quoted : Quoted inputs) :
    max (inputs.spot - discountedStrike inputs) 0 <
        (priceCall realLibm inputs).callPrice ∧
      (priceCall realLibm inputs).callPrice < inputs.spot := by
  have derivative := hasDerivAt_exercised inputs
  have low : Tendsto (exercised inputs) atBot (nhds 0) := by
    have shifted : Tendsto (fun bound => bound + totalVolatility inputs)
        atBot atBot := Filter.tendsto_atBot_add_const_right _ _ Filter.tendsto_id
    have both := ((tendsto_normalCdf_atBot.comp shifted).const_mul
      inputs.spot).sub (tendsto_normalCdf_atBot.const_mul
        (discountedStrike inputs))
    rwa [mul_zero, mul_zero, sub_zero] at both
  have high : Tendsto (exercised inputs) atTop
      (nhds (inputs.spot - discountedStrike inputs)) := by
    have shifted : Tendsto (fun bound => bound + totalVolatility inputs)
        atTop atTop := Filter.tendsto_atTop_add_const_right _ _ Filter.tendsto_id
    have both := ((tendsto_normalCdf_atTop.comp shifted).const_mul
      inputs.spot).sub (tendsto_normalCdf_atTop.const_mul
        (discountedStrike inputs))
    rwa [mul_one, mul_one] at both
  rw [callPrice_eq_exercised quoted]
  refine ⟨max_lt ?_ ?_, ?_⟩
  · exact limit_lt_of_falling derivative
      (fun bound late => exercisedSlope_neg quoted late) high
  · exact limit_lt_of_rising derivative
      (fun bound early => exercisedSlope_pos quoted early) low
  · have stock : inputs.spot *
        normalCdf realLibm (d2 realLibm inputs + totalVolatility inputs) <
          inputs.spot :=
      mul_lt_of_lt_one_right quoted.spot (normalCdf_lt_one _)
    have cash := mul_pos (discountedStrike_pos quoted)
      (normalCdf_pos (d2 realLibm inputs))
    unfold exercised
    linarith

end Price

/-! ### Volatility -/

section Volatility

variable {inputs : BlackScholesInputs ℝ}

def atVolatility (inputs : BlackScholesInputs ℝ) (volatility : ℝ) :
    BlackScholesInputs ℝ :=
  { inputs with volatility := volatility }

theorem Quoted.atVolatility (quoted : Quoted inputs) {volatility : ℝ}
    (positive : 0 < volatility) : Quoted (atVolatility inputs volatility) :=
  { quoted with volatility := positive }

theorem differentiableAt_d1 (quoted : Quoted inputs) {volatility : ℝ}
    (positive : 0 < volatility) :
    DifferentiableAt ℝ
      (fun volatility => d1 realLibm (atVolatility inputs volatility))
      volatility := by
  have total := (totalVolatility_pos (quoted.atVolatility positive)).ne'
  have numerator : DifferentiableAt ℝ (fun volatility : ℝ =>
      Real.log (inputs.spot / inputs.strike) +
        (inputs.riskFreeRate + 1 / 2 * volatility * volatility) *
          inputs.timeToExpiryYears) volatility := by
    fun_prop
  have denominator : DifferentiableAt ℝ (fun volatility : ℝ =>
      volatility * √inputs.timeToExpiryYears) volatility := by
    fun_prop
  exact numerator.div denominator total

/-- What the price gains for each unit of volatility. -/
noncomputable def vega (inputs : BlackScholesInputs ℝ) : ℝ :=
  inputs.spot * normalPdf (d1 realLibm inputs) * √inputs.timeToExpiryYears

theorem vega_pos (quoted : Quoted inputs) : 0 < vega inputs :=
  mul_pos (mul_pos quoted.spot (normalPdf_pos _))
    (Real.sqrt_pos.mpr quoted.timeToExpiryYears)

theorem hasDerivAt_callPrice_volatility (quoted : Quoted inputs)
    {volatility : ℝ} (positive : 0 < volatility) :
    HasDerivAt (fun volatility =>
        (priceCall realLibm (atVolatility inputs volatility)).callPrice)
      (vega (atVolatility inputs volatility)) volatility := by
  have here := quoted.atVolatility positive
  have atD1 := (differentiableAt_d1 quoted positive).hasDerivAt
  have total : HasDerivAt
      (fun volatility : ℝ => volatility * √inputs.timeToExpiryYears)
      √inputs.timeToExpiryYears volatility := by
    have scaled := (hasDerivAt_id volatility).mul_const
      √inputs.timeToExpiryYears
    rwa [one_mul] at scaled
  have atD2 : HasDerivAt
      (fun volatility => d2 realLibm (atVolatility inputs volatility))
      _ volatility := atD1.sub total
  have stock := ((hasDerivAt_normalCdf _).comp volatility atD1).const_mul
    inputs.spot
  have cash := ((hasDerivAt_normalCdf _).comp volatility atD2).const_mul
    (discountedStrike inputs)
  have near : (fun volatility => (priceCall realLibm
      (atVolatility inputs volatility)).callPrice) =ᶠ[nhds volatility] _ :=
    Filter.eventually_of_mem (Ioi_mem_nhds positive)
      (fun other otherPositive => congrArg BlackScholesResult.callPrice
        (priceCall_of_quoted realLibm (quoted.atVolatility otherPositive)))
  refine ((stock.sub cash).congr_of_eventuallyEq near).congr_deriv ?_
  have balance : inputs.spot *
      normalPdf (d1 realLibm (atVolatility inputs volatility)) =
        discountedStrike inputs *
          normalPdf (d2 realLibm (atVolatility inputs volatility)) :=
    spot_mul_normalPdf here
  unfold vega
  change _ = inputs.spot *
    normalPdf (d1 realLibm (atVolatility inputs volatility)) *
      √inputs.timeToExpiryYears
  linear_combination
    (deriv (fun volatility => d1 realLibm (atVolatility inputs volatility))
      volatility - √inputs.timeToExpiryYears) * balance

theorem callPrice_strictMonoOn (quoted : Quoted inputs) :
    StrictMonoOn (fun volatility =>
        (priceCall realLibm (atVolatility inputs volatility)).callPrice)
      (Set.Ioi 0) := by
  apply strictMonoOn_of_deriv_pos (convex_Ioi 0)
  · intro volatility positive
    exact (hasDerivAt_callPrice_volatility quoted
      positive).continuousAt.continuousWithinAt
  · intro volatility inside
    rw [interior_Ioi] at inside
    rw [(hasDerivAt_callPrice_volatility quoted inside).deriv]
    exact vega_pos (quoted.atVolatility inside)

theorem callPrice_unquoted (inputs : BlackScholesInputs ℝ) {volatility : ℝ}
    (none : volatility ≤ 0) :
    (priceCall realLibm (atVolatility inputs volatility)).callPrice =
      max (inputs.spot - inputs.strike) 0 :=
  congrArg BlackScholesResult.callPrice (if_pos (Or.inr (Or.inl none)))

theorem discountedStrike_le (quoted : Quoted inputs)
    (nonneg : 0 ≤ inputs.riskFreeRate) :
    discountedStrike inputs ≤ inputs.strike := by
  apply mul_le_of_le_one_right quoted.strike.le
  rw [Real.exp_le_one_iff, neg_mul]
  exact neg_nonpos.mpr (mul_nonneg nonneg quoted.timeToExpiryYears.le)

end Volatility

/-- For every spot, strike and time to expiry above zero and every rate: at
every volatility above zero the price lies strictly between what exercising is
worth at least and the spot, and it has a positive derivative by the
volatility.  For rates that are not negative, the price of an option whose
volatility is not quoted yet is below all of these. -/
theorem priceCall_arbitrage_free (inputs : BlackScholesInputs ℝ)
    (spot : 0 < inputs.spot) (strike : 0 < inputs.strike)
    (timeToExpiryYears : 0 < inputs.timeToExpiryYears) :
    let callPrice := fun volatility =>
      (priceCall realLibm { inputs with volatility := volatility }).callPrice
    (∀ volatility > 0,
      max (inputs.spot - discountedStrike inputs) 0 < callPrice volatility ∧
        callPrice volatility < inputs.spot ∧
        HasDerivAt callPrice (vega { inputs with volatility := volatility })
          volatility ∧
        0 < vega { inputs with volatility := volatility }) ∧
      StrictMonoOn callPrice (Set.Ioi 0) ∧
      (0 ≤ inputs.riskFreeRate → ∀ unquoted ≤ 0, ∀ volatility > 0,
        callPrice unquoted < callPrice volatility) := by
  have quoted : Quoted (atVolatility inputs 1) :=
    { spot := spot
      strike := strike
      timeToExpiryYears := timeToExpiryYears
      volatility := one_pos }
  have bounds : ∀ volatility > 0,
      max (inputs.spot - discountedStrike inputs) 0 <
          (priceCall realLibm (atVolatility inputs volatility)).callPrice ∧
        (priceCall realLibm (atVolatility inputs volatility)).callPrice <
          inputs.spot :=
    fun volatility positive =>
      callPrice_bounds (quoted.atVolatility positive)
  have increasing := callPrice_strictMonoOn quoted
  refine ⟨fun volatility positive => ?_, increasing, ?_⟩
  · obtain ⟨low, high⟩ := bounds volatility positive
    exact ⟨low, high, hasDerivAt_callPrice_volatility quoted positive,
      vega_pos (quoted.atVolatility positive)⟩
  · intro nonneg unquoted none volatility positive
    have intrinsic := callPrice_unquoted inputs none
    have cheaper : inputs.spot - inputs.strike ≤
        inputs.spot - discountedStrike inputs :=
      sub_le_sub_left (discountedStrike_le quoted nonneg) _
    change (priceCall realLibm (atVolatility inputs unquoted)).callPrice < _
    rw [intrinsic]
    exact (max_le_max_right 0 cheaper).trans_lt (bounds volatility positive).1

/-- The option that the strategy quotes, with the fallback volatility. -/
theorem priceCall_arbitrage_free_at_the_money :
    (priceCall realLibm
      { spot := 150, strike := 150, timeToExpiryYears := 30 / 365,
        riskFreeRate := 5 / 100, volatility := 20 / 100 }).callPrice < 150 :=
  ((priceCall_arbitrage_free
    { spot := 150, strike := 150, timeToExpiryYears := 30 / 365,
      riskFreeRate := 5 / 100, volatility := 20 / 100 }
    (by norm_num) (by norm_num) (by norm_num)).1 (20 / 100)
      (by norm_num)).2.1

end BlackScholes

end Waler
