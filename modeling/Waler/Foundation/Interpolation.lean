/-
Linear interpolation between the neighbours of a position in a sequence.

A sequence of `count` values is read at a fractional position: the value below
it and the value above it, weighted by the fraction.  At the end of the
sequence the value above is the last one again.  Of a nondecreasing sequence
the interpolated value is nondecreasing too, also across the places where the
neighbours change.
-/

import Mathlib.Algebra.Order.Field.Basic
import Mathlib.Algebra.Order.Floor.Semiring
import Mathlib.Tactic.Linarith
import Mathlib.Tactic.Ring

universe u

namespace Interpolation

variable {K : Type u} [Field K] [LinearOrder K] [IsStrictOrderedRing K]

/-! ### Two neighbours -/

def between (below above fraction : K) : K :=
  below * (1 - fraction) + above * fraction

omit [LinearOrder K] [IsStrictOrderedRing K] in
theorem between_eq (below above fraction : K) :
    between below above fraction = below + fraction * (above - below) := by
  unfold between
  ring

theorem below_le_between {below above fraction : K} (ordered : below ≤ above)
    (nonneg : 0 ≤ fraction) : below ≤ between below above fraction := by
  rw [between_eq]
  have step := mul_nonneg nonneg (sub_nonneg.mpr ordered)
  linarith

theorem between_le_above {below above fraction : K} (ordered : below ≤ above)
    (atMost : fraction ≤ 1) : between below above fraction ≤ above := by
  rw [between_eq]
  have step := mul_le_mul_of_nonneg_right atMost (sub_nonneg.mpr ordered)
  linarith

theorem between_mono {below above less more : K} (ordered : below ≤ above)
    (fractions : less ≤ more) :
    between below above less ≤ between below above more := by
  rw [between_eq, between_eq]
  have step := mul_le_mul_of_nonneg_right fractions (sub_nonneg.mpr ordered)
  linarith

/-! ### A sequence -/

/-- The index above, or the last index again. -/
def neighbour (count index : ℕ) : ℕ :=
  if index + 1 < count then index + 1 else index

theorem le_neighbour (count index : ℕ) : index ≤ neighbour count index := by
  unfold neighbour
  split <;> omega

theorem neighbour_lt {count index : ℕ} (inside : index < count) :
    neighbour count index < count := by
  unfold neighbour
  split <;> omega

variable [FloorSemiring K]

def interpolate (count : ℕ) (value : ℕ → K) (position : K) : K :=
  between (value ⌊position⌋₊) (value (neighbour count ⌊position⌋₊))
    (position - ⌊position⌋₊)

omit [IsStrictOrderedRing K] in
theorem interpolate_mul (count : ℕ) (scale : K) (value : ℕ → K)
    (position : K) :
    interpolate count (fun index => scale * value index) position =
      scale * interpolate count value position := by
  unfold interpolate between
  ring

/-- The first `count` values do not decrease. -/
def Nondecreasing (count : ℕ) (value : ℕ → K) : Prop :=
  ∀ index later, index ≤ later → later < count → value index ≤ value later

section Bounds

variable {count : ℕ} {value : ℕ → K} {position : K}

theorem floor_le_interpolate (sorted : Nondecreasing count value)
    (nonneg : 0 ≤ position) (inside : ⌊position⌋₊ < count) :
    value ⌊position⌋₊ ≤ interpolate count value position :=
  below_le_between
    (sorted _ _ (le_neighbour count _) (neighbour_lt inside))
    (sub_nonneg.mpr (Nat.floor_le nonneg))

theorem interpolate_le_neighbour (sorted : Nondecreasing count value)
    (inside : ⌊position⌋₊ < count) :
    interpolate count value position ≤
      value (neighbour count ⌊position⌋₊) := by
  apply between_le_above
  · exact sorted _ _ (le_neighbour count _) (neighbour_lt inside)
  · have next := Nat.lt_floor_add_one position
    linarith

theorem first_le_interpolate (sorted : Nondecreasing count value)
    (nonneg : 0 ≤ position) (inside : ⌊position⌋₊ < count) :
    value 0 ≤ interpolate count value position :=
  (sorted 0 _ (Nat.zero_le _) inside).trans
    (floor_le_interpolate sorted nonneg inside)

theorem interpolate_le_last (sorted : Nondecreasing count value)
    (inside : ⌊position⌋₊ < count) :
    interpolate count value position ≤ value (count - 1) := by
  have above := neighbour_lt inside
  exact (interpolate_le_neighbour sorted inside).trans
    (sorted _ _ (by omega) (by omega))

end Bounds

/-- Interpolation is monotone in the position: within one segment by the
fraction, across segments because the upper neighbour of the earlier position
is at most the lower neighbour of the later one. -/
theorem interpolate_mono {count : ℕ} {value : ℕ → K}
    (sorted : Nondecreasing count value) {earlier later : K}
    (nonneg : 0 ≤ earlier) (ordered : earlier ≤ later)
    (inside : ⌊later⌋₊ < count) :
    interpolate count value earlier ≤ interpolate count value later := by
  have floors := Nat.floor_mono ordered
  rcases Nat.lt_or_eq_of_le floors with apart | same
  · have next : neighbour count ⌊earlier⌋₊ ≤ ⌊later⌋₊ := by
      unfold neighbour
      split <;> omega
    calc
      interpolate count value earlier
          ≤ value (neighbour count ⌊earlier⌋₊) :=
        interpolate_le_neighbour sorted (by omega)
      _ ≤ value ⌊later⌋₊ := sorted _ _ next inside
      _ ≤ interpolate count value later :=
        floor_le_interpolate sorted (nonneg.trans ordered) inside
  · unfold interpolate
    rw [same]
    exact between_mono
      (sorted _ _ (le_neighbour count _) (neighbour_lt inside))
      (sub_le_sub_right ordered _)

end Interpolation
