/-
The mean of a list of numbers, their dispersion around it, and their ranks.

Everything is stated for a nonempty list over an ordered field.  The mean lies
between any two bounds of the list, and the dispersion is bounded by the
distances of the mean from them.  In a sorted list an index tells how many
numbers are below the one it holds.
-/

import Mathlib.Algebra.BigOperators.Ring.List
import Mathlib.Algebra.Order.BigOperators.Group.List
import Mathlib.Algebra.Order.Field.Basic
import Mathlib.Data.List.Pairwise
import Mathlib.Tactic.Linarith
import Mathlib.Tactic.Ring

universe u

namespace SampleStatistics

variable {K : Type u} [Field K]

def mean (samples : List K) : K :=
  samples.sum / samples.length

def squaredDeviation (samples : List K) (sample : K) : K :=
  (sample - mean samples) * (sample - mean samples)

/-- The sum of the squared deviations from the mean. -/
def dispersion (samples : List K) : K :=
  (samples.map (squaredDeviation samples)).sum

theorem mean_map_mul (samples : List K) (scale : K) :
    mean (samples.map (· * scale)) = mean samples * scale := by
  unfold mean
  rw [List.sum_map_mul_right (f := fun sample => sample), List.map_id',
    List.length_map]
  exact mul_div_right_comm _ _ _

theorem dispersion_map_mul (samples : List K) (scale : K) :
    dispersion (samples.map (· * scale)) =
      dispersion samples * (scale * scale) := by
  unfold dispersion
  rw [List.map_map, ← List.sum_map_mul_right]
  apply congrArg List.sum
  apply List.map_congr_left
  intro sample _
  change (sample * scale - _) * (sample * scale - _) = (_ * _) * _
  rw [mean_map_mul]
  ring

variable [LinearOrder K] [IsStrictOrderedRing K] {samples : List K}

theorem length_cast_pos (nonempty : samples ≠ []) :
    (0 : K) < samples.length :=
  Nat.cast_pos.mpr (List.length_pos_iff.mpr nonempty)

theorem mean_mul_length (nonempty : samples ≠ []) :
    mean samples * samples.length = samples.sum :=
  div_mul_cancel₀ _ (length_cast_pos nonempty).ne'

/-! ### Bounds of the mean -/

theorem mean_le {bound : K} (nonempty : samples ≠ [])
    (below : ∀ sample ∈ samples, sample ≤ bound) : mean samples ≤ bound := by
  have total := List.sum_le_card_nsmul samples bound below
  rw [nsmul_eq_mul] at total
  unfold mean
  rw [div_le_iff₀ (length_cast_pos nonempty), mul_comm]
  exact total

theorem le_mean {bound : K} (nonempty : samples ≠ [])
    (above : ∀ sample ∈ samples, bound ≤ sample) : bound ≤ mean samples := by
  have total := List.card_nsmul_le_sum samples bound above
  rw [nsmul_eq_mul] at total
  unfold mean
  rw [le_div_iff₀ (length_cast_pos nonempty), mul_comm]
  exact total

/-! ### Dispersion -/

theorem squaredDeviation_nonneg (samples : List K) (sample : K) :
    0 ≤ squaredDeviation samples sample :=
  mul_self_nonneg _

theorem dispersion_nonneg (samples : List K) : 0 ≤ dispersion samples := by
  apply List.sum_nonneg
  intro square listed
  obtain ⟨sample, _, rfl⟩ := List.mem_map.mp listed
  exact squaredDeviation_nonneg samples sample

/-- Only equal samples do not disperse. -/
theorem dispersion_eq_zero_iff (samples : List K) :
    dispersion samples = 0 ↔
      ∀ first ∈ samples, ∀ second ∈ samples, first = second := by
  constructor
  · intro zero
    have atMean : ∀ sample ∈ samples, sample = mean samples := by
      intro sample listed
      have square := List.all_zero_of_le_zero_le_of_sum_eq_zero (by
        intro square squared
        obtain ⟨other, _, rfl⟩ := List.mem_map.mp squared
        exact squaredDeviation_nonneg samples other) zero
        (List.mem_map_of_mem listed)
      exact sub_eq_zero.mp (mul_self_eq_zero.mp square)
    intro first firstIn second secondIn
    rw [atMean first firstIn, atMean second secondIn]
  · intro same
    apply List.sum_eq_zero
    intro square squared
    obtain ⟨sample, listed, rfl⟩ := List.mem_map.mp squared
    have nonempty : samples ≠ [] := List.ne_nil_of_mem listed
    have below := mean_le nonempty (fun other otherIn =>
      (same other otherIn sample listed).le)
    have above := le_mean nonempty (fun other otherIn =>
      (same sample listed other otherIn).le)
    unfold squaredDeviation
    rw [le_antisymm above below, sub_self, mul_zero]

/-- The product of a sample's distances from two numbers, summed up. -/
theorem sum_between (nonempty : samples ≠ []) (low high : K) :
    (samples.map (fun sample => (high - sample) * (sample - low))).sum =
      samples.length * ((high - mean samples) * (mean samples - low)) -
        dispersion samples := by
  have total := mean_mul_length nonempty
  let middle := mean samples
  have expanded : (fun sample => (high - sample) * (sample - low)) =
      fun sample => (high + low - 2 * middle) * sample +
        (middle * middle - high * low) +
          -1 * squaredDeviation samples sample := by
    funext sample
    unfold squaredDeviation
    ring
  have scaled : (samples.map
      (fun sample => (high + low - 2 * middle) * sample)).sum =
        (high + low - 2 * middle) * samples.sum := by
    rw [List.sum_map_mul_left (f := fun sample => sample), List.map_id']
  rw [expanded, List.sum_map_add, List.sum_map_add, scaled,
    List.sum_map_mul_left, List.map_const', List.sum_replicate,
    nsmul_eq_mul, ← total]
  unfold dispersion
  ring

/-- The mean of the squared deviations is at most the product of the distances
of the mean from a lower and an upper bound. -/
theorem dispersion_le {low high : K} (nonempty : samples ≠ [])
    (above : ∀ sample ∈ samples, low ≤ sample)
    (below : ∀ sample ∈ samples, sample ≤ high) :
    dispersion samples / samples.length ≤
      (high - mean samples) * (mean samples - low) := by
  have between : 0 ≤
      (samples.map (fun sample => (high - sample) * (sample - low))).sum := by
    apply List.sum_nonneg
    intro product listed
    obtain ⟨sample, sampled, rfl⟩ := List.mem_map.mp listed
    exact mul_nonneg (sub_nonneg.mpr (below sample sampled))
      (sub_nonneg.mpr (above sample sampled))
  rw [sum_between nonempty] at between
  rw [div_le_iff₀ (length_cast_pos nonempty), mul_comm]
  exact sub_nonneg.mp between

/-- Twice the standard deviation is at most the range, in squares. -/
theorem dispersion_le_range {low high : K} (nonempty : samples ≠ [])
    (above : ∀ sample ∈ samples, low ≤ sample)
    (below : ∀ sample ∈ samples, sample ≤ high) :
    4 * (dispersion samples / samples.length) ≤ (high - low) ^ 2 := by
  have bound := dispersion_le nonempty above below
  have square := sq_nonneg (high - mean samples - (mean samples - low))
  linarith

/-! ### Ranks -/

section Ranks

variable {α : Type u} [LinearOrder α] {sorted : List α} {value : α}
  {index : ℕ}

theorem countP_lt_le (onwards : ∀ other ∈ sorted.drop index, value ≤ other) :
    sorted.countP (fun other => other < value) ≤ index := by
  have none : (sorted.drop index).countP (fun other => other < value) = 0 := by
    apply List.countP_eq_zero.mpr
    intro other listed
    rw [decide_eq_true_iff, not_lt]
    exact onwards other listed
  have split : sorted.countP (fun other => other < value) =
      (sorted.take index).countP (fun other => other < value) +
        (sorted.drop index).countP (fun other => other < value) := by
    rw [← List.countP_append, List.take_append_drop]
  rw [split, none]
  exact List.countP_le_length.trans (List.length_take_le _ _)

theorem lt_countP_le (inside : index < sorted.length)
    (upTo : ∀ other ∈ sorted.take (index + 1), other ≤ value) :
    index < sorted.countP (fun other => other ≤ value) := by
  have all : (sorted.take (index + 1)).countP (fun other => other ≤ value) =
      index + 1 := by
    rw [List.countP_eq_length.mpr, List.length_take_of_le inside]
    intro other listed
    exact decide_eq_true (upTo other listed)
  have part := (List.take_sublist (index + 1) sorted).countP_le
    (p := fun other => decide (other ≤ value))
  omega

/-- The value at an index of a sorted list. -/
theorem rank_getElem? (ordered : sorted.Pairwise (· ≤ ·))
    (found : sorted[index]? = some value) :
    sorted.countP (fun other => other < value) ≤ index ∧
      index < sorted.countP (fun other => other ≤ value) := by
  obtain ⟨inside, rfl⟩ := List.getElem?_eq_some_iff.mp found
  constructor
  · apply countP_lt_le
    intro other listed
    obtain ⟨place, later, rfl⟩ := List.mem_drop_iff_getElem.mp listed
    exact ordered.rel_get_of_le (a := ⟨index, inside⟩)
      (b := ⟨index + place, by omega⟩) (Nat.le_add_right index place)
  · apply lt_countP_le inside
    intro other listed
    obtain ⟨place, earlier, rfl⟩ := List.mem_take_iff_getElem.mp listed
    exact ordered.rel_get_of_le (b := ⟨index, inside⟩)
      (a := ⟨place, earlier.trans_le (min_le_right _ _)⟩)
      (Nat.le_of_lt_succ (earlier.trans_le (min_le_left _ _)))

end Ranks

end SampleStatistics
