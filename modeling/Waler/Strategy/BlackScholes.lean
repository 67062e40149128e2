/-
The call pricer of BlackScholes.hpp.

The arithmetic is that of any ordered field, and the functions of the math
library come from outside.  Over the reals, with the functions they name, the
reported delta is the derivative of the reported price by the spot.
-/

import Mathlib.Analysis.SpecialFunctions.Log.Deriv
import Mathlib.Analysis.Calculus.Deriv.MeanValue
import Waler.Foundation.ErrorFunction

universe u

namespace Waler

/-! ### The pricer -/

/-- The functions and the constant taken from `<cmath>` and `<numbers>`. -/
structure Libm (K : Type u) where
  erfc : K → K
  log : K → K
  exp : K → K
  sqrt : K → K
  sqrt2 : K

structure BlackScholesInputs (K : Type u) where
  spot : K
  strike : K
  timeToExpiryYears : K
  riskFreeRate : K
  volatility : K
  deriving DecidableEq, Repr

structure BlackScholesResult (K : Type u) where
  callPrice : K
  delta : K
  deriving DecidableEq, Repr

namespace BlackScholes

section Pricer

variable {K : Type u} [Field K] [LinearOrder K] (libm : Libm K)

def normalCdf (x : K) : K :=
  1 / 2 * libm.erfc (-x / libm.sqrt2)

def d1 (inputs : BlackScholesInputs K) : K :=
  (libm.log (inputs.spot / inputs.strike) +
      (inputs.riskFreeRate + 1 / 2 * inputs.volatility * inputs.volatility) *
        inputs.timeToExpiryYears) /
    (inputs.volatility * libm.sqrt inputs.timeToExpiryYears)

def d2 (inputs : BlackScholesInputs K) : K :=
  d1 libm inputs - inputs.volatility * libm.sqrt inputs.timeToExpiryYears

def priceCall (inputs : BlackScholesInputs K) : BlackScholesResult K :=
  if inputs.timeToExpiryYears ≤ 0 ∨ inputs.volatility ≤ 0 ∨
      inputs.spot ≤ 0 ∨ inputs.strike ≤ 0 then
    -- Expired, or no volatility quoted yet: the intrinsic value.
    { callPrice := max (inputs.spot - inputs.strike) 0
      delta := if inputs.spot > inputs.strike then 1 else 0 }
  else
    let nd1 := normalCdf libm (d1 libm inputs)
    let nd2 := normalCdf libm (d2 libm inputs)
    { callPrice := inputs.spot * nd1 -
        inputs.strike *
          libm.exp (-inputs.riskFreeRate * inputs.timeToExpiryYears) * nd2
      delta := nd1 }

/-- Inputs that are not in the degenerate case. -/
structure Quoted (inputs : BlackScholesInputs K) : Prop where
  spot : 0 < inputs.spot
  strike : 0 < inputs.strike
  timeToExpiryYears : 0 < inputs.timeToExpiryYears
  volatility : 0 < inputs.volatility

theorem priceCall_of_quoted {inputs : BlackScholesInputs K}
    (quoted : Quoted inputs) :
    priceCall libm inputs =
      { callPrice := inputs.spot * normalCdf libm (d1 libm inputs) -
          inputs.strike *
            libm.exp (-inputs.riskFreeRate * inputs.timeToExpiryYears) *
              normalCdf libm (d2 libm inputs)
        delta := normalCdf libm (d1 libm inputs) } := by
  refine if_neg ?_
  rintro (expired | still | worthless | free)
  · exact absurd quoted.timeToExpiryYears (not_lt.mpr expired)
  · exact absurd quoted.volatility (not_lt.mpr still)
  · exact absurd quoted.spot (not_lt.mpr worthless)
  · exact absurd quoted.strike (not_lt.mpr free)

end Pricer

/-! ### Over the reals -/

noncomputable def realLibm : Libm ℝ :=
  { erfc := ErrorFunction.erfc
    log := Real.log
    exp := Real.exp
    sqrt := Real.sqrt
    sqrt2 := √2 }

/-- The standard normal density. -/
noncomputable def normalPdf (x : ℝ) : ℝ :=
  Real.exp (-x ^ 2 / 2) / (√Real.pi * √2)

theorem normalCdf_pos (x : ℝ) : 0 < normalCdf realLibm x :=
  mul_pos one_half_pos (ErrorFunction.erfc_pos _)

theorem normalCdf_lt_one (x : ℝ) : normalCdf realLibm x < 1 := by
  have below := ErrorFunction.erfc_lt_two (-x / √2)
  change 1 / 2 * ErrorFunction.erfc (-x / √2) < 1
  linarith

theorem hasDerivAt_normalCdf (x : ℝ) :
    HasDerivAt (normalCdf realLibm) (normalPdf x) x := by
  have inner : HasDerivAt (fun x : ℝ => -x / √2) (-1 / √2) x :=
    (hasDerivAt_id x).neg.div_const √2
  have outer := (ErrorFunction.hasDerivAt_erfc (-x / √2)).comp x inner
  refine (outer.const_mul (1 / 2)).congr_deriv ?_
  have square : (-x / √2) ^ 2 = x ^ 2 / 2 := by
    rw [div_pow, neg_sq, Real.sq_sqrt zero_le_two]
  unfold normalPdf ErrorFunction.density
  rw [square, neg_div]
  have rootPi := ErrorFunction.sqrt_pi_pos.ne'
  have rootTwo : √2 ≠ (0 : ℝ) := (Real.sqrt_pos.mpr two_pos).ne'
  field_simp

section Spot

variable {inputs : BlackScholesInputs ℝ}

/-- `volatility * sqrt_t`, the distance from `d2` to `d1`. -/
noncomputable def totalVolatility (inputs : BlackScholesInputs ℝ) : ℝ :=
  inputs.volatility * √inputs.timeToExpiryYears

theorem totalVolatility_pos (quoted : Quoted inputs) :
    0 < totalVolatility inputs :=
  mul_pos quoted.volatility (Real.sqrt_pos.mpr quoted.timeToExpiryYears)

/-- Half the difference of the squares is the log of the forward moneyness. -/
theorem half_sq_sub_sq (quoted : Quoted inputs) :
    -d2 realLibm inputs ^ 2 / 2 =
      -d1 realLibm inputs ^ 2 / 2 +
        (Real.log (inputs.spot / inputs.strike) +
          inputs.riskFreeRate * inputs.timeToExpiryYears) := by
  have positive := totalVolatility_pos quoted
  have squared : totalVolatility inputs ^ 2 =
      inputs.volatility ^ 2 * inputs.timeToExpiryYears := by
    unfold totalVolatility
    rw [mul_pow, Real.sq_sqrt quoted.timeToExpiryYears.le]
  have scaled : d1 realLibm inputs * totalVolatility inputs =
      Real.log (inputs.spot / inputs.strike) +
        (inputs.riskFreeRate +
          1 / 2 * inputs.volatility * inputs.volatility) *
            inputs.timeToExpiryYears :=
    div_mul_cancel₀ _ positive.ne'
  have apart : d2 realLibm inputs =
      d1 realLibm inputs - totalVolatility inputs := rfl
  rw [apart]
  linear_combination scaled - 1 / 2 * squared

/-- The two density terms of the derivative cancel. -/
theorem spot_mul_normalPdf (quoted : Quoted inputs) :
    inputs.spot * normalPdf (d1 realLibm inputs) =
      inputs.strike *
        Real.exp (-inputs.riskFreeRate * inputs.timeToExpiryYears) *
          normalPdf (d2 realLibm inputs) := by
  have moneyness : 0 < inputs.spot / inputs.strike :=
    div_pos quoted.spot quoted.strike
  have discounted :
      Real.exp (-inputs.riskFreeRate * inputs.timeToExpiryYears) *
        Real.exp (inputs.riskFreeRate * inputs.timeToExpiryYears) = 1 := by
    rw [← Real.exp_add, ← Real.exp_zero]
    congr 1
    ring
  unfold normalPdf
  rw [half_sq_sub_sq quoted, Real.exp_add, Real.exp_add,
    Real.exp_log moneyness]
  have cancel : inputs.strike * (inputs.spot / inputs.strike) = inputs.spot :=
    mul_div_cancel₀ _ quoted.strike.ne'
  linear_combination
    -(Real.exp (-d1 realLibm inputs ^ 2 / 2) / (√Real.pi * √2) *
      (Real.exp (-inputs.riskFreeRate * inputs.timeToExpiryYears) *
        Real.exp (inputs.riskFreeRate * inputs.timeToExpiryYears))) * cancel -
    Real.exp (-d1 realLibm inputs ^ 2 / 2) / (√Real.pi * √2) *
      inputs.spot * discounted

def atSpot (inputs : BlackScholesInputs ℝ) (spot : ℝ) :
    BlackScholesInputs ℝ :=
  { inputs with spot := spot }

theorem Quoted.atSpot (quoted : Quoted inputs) {spot : ℝ}
    (positive : 0 < spot) : Quoted (atSpot inputs spot) :=
  { quoted with spot := positive }

theorem hasDerivAt_d1 (quoted : Quoted inputs) {spot : ℝ}
    (positive : 0 < spot) :
    HasDerivAt (fun spot => d1 realLibm (atSpot inputs spot))
      (1 / (spot * totalVolatility inputs)) spot := by
  have moneyness : HasDerivAt (fun spot => spot / inputs.strike)
      (1 / inputs.strike) spot :=
    (hasDerivAt_id spot).div_const inputs.strike
  have logarithm := moneyness.log (div_pos positive quoted.strike).ne'
  have shifted := (logarithm.add_const
    ((inputs.riskFreeRate + 1 / 2 * inputs.volatility * inputs.volatility) *
      inputs.timeToExpiryYears)).div_const (totalVolatility inputs)
  refine shifted.congr_deriv ?_
  have strike := quoted.strike.ne'
  have volatility := (totalVolatility_pos quoted).ne'
  field_simp

theorem hasDerivAt_callPrice (quoted : Quoted inputs) {spot : ℝ}
    (positive : 0 < spot) :
    HasDerivAt
      (fun spot => (priceCall realLibm (atSpot inputs spot)).callPrice)
      (priceCall realLibm (atSpot inputs spot)).delta spot := by
  have here := quoted.atSpot positive
  have atD1 := hasDerivAt_d1 quoted positive
  have atD2 : HasDerivAt (fun spot => d2 realLibm (atSpot inputs spot))
      (1 / (spot * totalVolatility inputs)) spot :=
    atD1.sub_const (totalVolatility inputs)
  have stock := (hasDerivAt_id spot).mul
    ((hasDerivAt_normalCdf _).comp spot atD1)
  have cash := ((hasDerivAt_normalCdf _).comp spot atD2).const_mul
    (inputs.strike *
      Real.exp (-inputs.riskFreeRate * inputs.timeToExpiryYears))
  have formula := stock.sub cash
  have near : (fun spot => (priceCall realLibm
      (atSpot inputs spot)).callPrice) =ᶠ[nhds spot] _ :=
    Filter.eventually_of_mem (Ioi_mem_nhds positive)
      (fun other otherPositive => congrArg BlackScholesResult.callPrice
        (priceCall_of_quoted realLibm (quoted.atSpot otherPositive)))
  refine (formula.congr_of_eventuallyEq near).congr_deriv ?_
  rw [priceCall_of_quoted realLibm here]
  have cancel : spot * normalPdf (d1 realLibm (atSpot inputs spot)) =
      inputs.strike *
        Real.exp (-inputs.riskFreeRate * inputs.timeToExpiryYears) *
          normalPdf (d2 realLibm (atSpot inputs spot)) :=
    spot_mul_normalPdf here
  change 1 * normalCdf realLibm (d1 realLibm (atSpot inputs spot)) +
      spot * (normalPdf (d1 realLibm (atSpot inputs spot)) *
        (1 / (spot * totalVolatility inputs))) -
      inputs.strike *
        Real.exp (-inputs.riskFreeRate * inputs.timeToExpiryYears) *
          (normalPdf (d2 realLibm (atSpot inputs spot)) *
            (1 / (spot * totalVolatility inputs))) =
    normalCdf realLibm (d1 realLibm (atSpot inputs spot))
  linear_combination 1 / (spot * totalVolatility inputs) * cancel

theorem delta_bounds (quoted : Quoted inputs) {spot : ℝ}
    (positive : 0 < spot) :
    0 < (priceCall realLibm (atSpot inputs spot)).delta ∧
      (priceCall realLibm (atSpot inputs spot)).delta < 1 := by
  rw [priceCall_of_quoted realLibm (quoted.atSpot positive)]
  exact ⟨normalCdf_pos _, normalCdf_lt_one _⟩

end Spot

/-- For every strike, time to expiry and volatility above zero and every rate:
at every spot above zero the price has the delta as its derivative by the
spot, the delta is strictly between zero and one, and the price increases
strictly with the spot. -/
theorem priceCall_delta (inputs : BlackScholesInputs ℝ)
    (strike : 0 < inputs.strike)
    (timeToExpiryYears : 0 < inputs.timeToExpiryYears)
    (volatility : 0 < inputs.volatility) :
    (∀ spot > 0,
      HasDerivAt
        (fun spot => (priceCall realLibm { inputs with spot := spot }).callPrice)
        (priceCall realLibm { inputs with spot := spot }).delta spot ∧
      0 < (priceCall realLibm { inputs with spot := spot }).delta ∧
      (priceCall realLibm { inputs with spot := spot }).delta < 1) ∧
    StrictMonoOn
      (fun spot => (priceCall realLibm { inputs with spot := spot }).callPrice)
      (Set.Ioi 0) := by
  have quoted : Quoted (atSpot inputs 1) :=
    { spot := one_pos
      strike := strike
      timeToExpiryYears := timeToExpiryYears
      volatility := volatility }
  have derivative : ∀ spot > 0, HasDerivAt
      (fun spot => (priceCall realLibm (atSpot inputs spot)).callPrice)
      (priceCall realLibm (atSpot inputs spot)).delta spot :=
    fun spot positive => hasDerivAt_callPrice quoted positive
  constructor
  · intro spot positive
    exact ⟨derivative spot positive, delta_bounds quoted positive⟩
  · apply strictMonoOn_of_deriv_pos (convex_Ioi 0)
    · intro spot positive
      exact (derivative spot positive).continuousAt.continuousWithinAt
    · intro spot inside
      rw [interior_Ioi] at inside
      change 0 < deriv (fun spot =>
        (priceCall realLibm (atSpot inputs spot)).callPrice) spot
      rw [(derivative spot inside).deriv]
      exact (delta_bounds quoted inside).1

/-- The option the strategy quotes, at the money with thirty days to go. -/
theorem priceCall_delta_at_the_money :
    0 < (priceCall realLibm
      { spot := 150, strike := 150, timeToExpiryYears := 30 / 365,
        riskFreeRate := 5 / 100, volatility := 20 / 100 }).delta :=
  ((priceCall_delta
    { spot := 150, strike := 150, timeToExpiryYears := 30 / 365,
      riskFreeRate := 5 / 100, volatility := 20 / 100 }
    (by norm_num) (by norm_num) (by norm_num)).1 150 (by norm_num)).2.1

end BlackScholes

end Waler
