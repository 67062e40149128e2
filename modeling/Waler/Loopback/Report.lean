/-
The report of x4_loopback_latency.c: `cmp_dbl` and `report`.

Doubles are exact rationals, the sum of the samples among them.  A percentile
is the sample at one index of the sorted array.  Every index is inside the
array, and the sample there has the rank that its name says.
-/

import Mathlib.Algebra.Order.Floor.Semifield
import Mathlib.Data.Rat.Floor
import Waler.Foundation.SampleStatistics

namespace Waler

namespace Loopback

/-- What `report` prints. -/
structure Report where
  n : ℕ
  min : ℚ
  p50 : ℚ
  p90 : ℚ
  p99 : ℚ
  p999 : ℚ
  max : ℚ
  mean : ℚ
  deriving DecidableEq, Repr

def cmpDbl (a b : ℚ) : ℤ :=
  let d := a - b
  if d < 0 then -1 else if d > 0 then 1 else 0

def notAbove (a b : ℚ) : Bool :=
  decide (cmpDbl a b ≤ 0)

/-- `qsort(v, n, sizeof(double), cmp_dbl)`. -/
def sorted (v : List ℚ) : List ℚ :=
  v.mergeSort notAbove

/-- `v[(int)(n * share)]`. -/
def percentile (v : List ℚ) (share : ℚ) : Option ℚ :=
  v[⌊v.length * share⌋₊]?

/-- None when an index is outside the array. -/
def report (samples : List ℚ) : Option Report := do
  let v := sorted samples
  let n := v.length
  let sum := v.foldl (· + ·) 0
  let min ← v[0]?
  let p50 ← v[n / 2]?
  let p90 ← percentile v (90 / 100)
  let p99 ← percentile v (99 / 100)
  let p999 ← percentile v (999 / 1000)
  let max ← v[n - 1]?
  pure
    { n := n
      min := min
      p50 := p50
      p90 := p90
      p99 := p99
      p999 := p999
      max := max
      mean := sum / n }

/-! ### The sorted array -/

theorem notAbove_iff (a b : ℚ) : notAbove a b = true ↔ a ≤ b := by
  unfold notAbove cmpDbl
  rw [decide_eq_true_iff]
  dsimp only
  rcases lt_trichotomy a b with below | same | above
  · rw [if_pos (sub_neg.mpr below)]
    exact iff_of_true (by decide) below.le
  · rw [same, sub_self, if_neg (lt_irrefl 0), if_neg (lt_irrefl 0)]
    exact iff_of_true (le_refl 0) (le_refl b)
  · rw [if_neg (not_lt.mpr (sub_pos.mpr above).le),
      if_pos (sub_pos.mpr above)]
    exact iff_of_false (by decide) (not_le.mpr above)

theorem sorted_pairwise (v : List ℚ) : (sorted v).Pairwise (· ≤ ·) := by
  refine (List.pairwise_mergeSort ?_ ?_ v).imp
    (fun ordered => (notAbove_iff _ _).mp ordered)
  · intro a b c first second
    rw [notAbove_iff] at *
    exact first.trans second
  · intro a b
    rw [Bool.or_eq_true, notAbove_iff, notAbove_iff]
    exact le_total a b

theorem sorted_perm (v : List ℚ) : (sorted v).Perm v :=
  List.mergeSort_perm _ _

theorem sorted_eq {v other : List ℚ} (perm : other.Perm v) :
    sorted other = sorted v :=
  List.Perm.eq_of_pairwise (fun _ _ _ _ below above => le_antisymm below above)
    (sorted_pairwise other) (sorted_pairwise v)
    (((sorted_perm other).trans perm).trans (sorted_perm v).symm)

/-- The values that a report reads off the sorted array. -/
structure Reads (v : List ℚ) (r : Report) : Prop where
  n : r.n = v.length
  min : v[0]? = some r.min
  p50 : v[v.length / 2]? = some r.p50
  p90 : percentile v (90 / 100) = some r.p90
  p99 : percentile v (99 / 100) = some r.p99
  p999 : percentile v (999 / 1000) = some r.p999
  max : v[v.length - 1]? = some r.max
  mean : r.mean = v.foldl (· + ·) 0 / v.length

theorem report_eq_some_iff (samples : List ℚ) (r : Report) :
    report samples = some r ↔ Reads (sorted samples) r := by
  unfold report
  simp only [Option.bind_eq_bind, Option.bind_eq_some_iff, Option.pure_def,
    Option.some.injEq]
  constructor
  · rintro ⟨min, minRead, p50, p50Read, p90, p90Read, p99, p99Read, p999,
      p999Read, max, maxRead, rfl⟩
    exact ⟨rfl, minRead, p50Read, p90Read, p99Read, p999Read, maxRead, rfl⟩
  · rintro ⟨n, min, p50, p90, p99, p999, max, mean⟩
    obtain ⟨_, _, _, _, _, _, _, _⟩ := r
    dsimp only at n mean
    subst n mean
    exact ⟨_, min, _, p50, _, p90, _, p99, _, p999, _, max, rfl⟩

/-! ### Ranks -/

theorem floor_share_lt {n : ℕ} (positive : 0 < n) {share : ℚ}
    (nonneg : 0 ≤ share) (proper : share < 1) : ⌊n * share⌋₊ < n := by
  have counted : (0 : ℚ) < n := Nat.cast_pos.mpr positive
  rw [Nat.floor_lt (mul_nonneg counted.le nonneg)]
  exact mul_lt_of_lt_one_right counted proper

/-- At most a share of the samples is below the value, and more than that
share is not above it. -/
structure HasRank (v : List ℚ) (share value : ℚ) : Prop where
  sampled : value ∈ v
  below : (v.countP (fun sample => sample < value) : ℚ) ≤ v.length * share
  upTo : v.length * share < v.countP (fun sample => sample ≤ value)

structure Ranked (v : List ℚ) (r : Report) : Prop where
  size : r.n = v.length
  p50 : HasRank v (50 / 100) r.p50
  p90 : HasRank v (90 / 100) r.p90
  p99 : HasRank v (99 / 100) r.p99
  p999 : HasRank v (999 / 1000) r.p999
  bounds : ∀ sample ∈ v, r.min ≤ sample ∧ sample ≤ r.max
  attained : r.min ∈ v ∧ r.max ∈ v
  ordered : r.p50 ≤ r.p90 ∧ r.p90 ≤ r.p99 ∧ r.p99 ≤ r.p999
  mean : r.mean = SampleStatistics.mean v ∧ r.min ≤ r.mean ∧ r.mean ≤ r.max

theorem hasRank_of_getElem? {v : List ℚ} {share value : ℚ}
    (nonneg : 0 ≤ share)
    (found : (sorted v)[⌊v.length * share⌋₊]? = some value) :
    HasRank v share value := by
  have perm := sorted_perm v
  obtain ⟨below, upTo⟩ :=
    SampleStatistics.rank_getElem? (sorted_pairwise v) found
  rw [perm.countP_eq] at below upTo
  have scaled : 0 ≤ v.length * share :=
    mul_nonneg (Nat.cast_nonneg _) nonneg
  constructor
  · exact perm.mem_iff.mp (List.mem_of_getElem? found)
  · exact (Nat.cast_le.mpr below).trans (Nat.floor_le scaled)
  · exact (Nat.floor_lt scaled).mp upTo

theorem percentile_mono {v : List ℚ} {lower upper low high : ℚ}
    (ordered : lower ≤ upper)
    (lowFound : percentile (sorted v) lower = some low)
    (highFound : percentile (sorted v) upper = some high) : low ≤ high := by
  unfold percentile at lowFound highFound
  obtain ⟨inside, rfl⟩ := List.getElem?_eq_some_iff.mp lowFound
  obtain ⟨otherInside, rfl⟩ := List.getElem?_eq_some_iff.mp highFound
  exact (sorted_pairwise v).rel_get_of_le (a := ⟨_, inside⟩)
    (b := ⟨_, otherInside⟩)
    (Nat.floor_mono
      (mul_le_mul_of_nonneg_left ordered (Nat.cast_nonneg _)))

/-- The median's index is the same as that of the other percentiles. -/
theorem half_eq_floor (n : ℕ) : n / 2 = ⌊(n : ℚ) * (50 / 100)⌋₊ := by
  have half : (n : ℚ) * (50 / 100) = n / (2 : ℕ) := by
    norm_num
    ring
  rw [half, Nat.floor_div_eq_div]

theorem Reads.ranked {v : List ℚ} {r : Report} (reads : Reads (sorted v) r) :
    Ranked v r := by
  have perm := sorted_perm v
  have length := perm.length_eq
  have ordered := sorted_pairwise v
  have p50 : percentile (sorted v) (50 / 100) = some r.p50 := by
    unfold percentile
    rw [← half_eq_floor]
    exact reads.p50
  have rank : ∀ share value, 0 ≤ share →
      percentile (sorted v) share = some value → HasRank v share value := by
    intro share value nonneg found
    unfold percentile at found
    rw [length] at found
    exact hasRank_of_getElem? nonneg found
  have minSampled := perm.mem_iff.mp (List.mem_of_getElem? reads.min)
  have maxSampled := perm.mem_iff.mp (List.mem_of_getElem? reads.max)
  have bounds : ∀ sample ∈ v, r.min ≤ sample ∧ sample ≤ r.max := by
    intro sample sampled
    obtain ⟨index, inside, rfl⟩ :=
      List.getElem_of_mem (perm.mem_iff.mpr sampled)
    obtain ⟨first, minRead⟩ := List.getElem?_eq_some_iff.mp reads.min
    obtain ⟨last, maxRead⟩ := List.getElem?_eq_some_iff.mp reads.max
    rw [← minRead, ← maxRead]
    exact ⟨ordered.rel_get_of_le (a := ⟨0, first⟩) (b := ⟨index, inside⟩)
        (Nat.zero_le index),
      ordered.rel_get_of_le (a := ⟨index, inside⟩) (b := ⟨_, last⟩)
        (Nat.le_sub_one_of_lt inside)⟩
  have nonempty : v ≠ [] := List.ne_nil_of_mem minSampled
  have mean : r.mean = SampleStatistics.mean v := by
    rw [reads.mean, length, ← List.sum_eq_foldl, perm.sum_eq]
    rfl
  constructor
  · exact reads.n.trans length
  · exact rank _ _ (by norm_num) p50
  · exact rank _ _ (by norm_num) reads.p90
  · exact rank _ _ (by norm_num) reads.p99
  · exact rank _ _ (by norm_num) reads.p999
  · exact bounds
  · exact ⟨minSampled, maxSampled⟩
  · exact ⟨percentile_mono (by norm_num) p50 reads.p90,
      percentile_mono (by norm_num) reads.p90 reads.p99,
      percentile_mono (by norm_num) reads.p99 reads.p999⟩
  · rw [mean]
    exact ⟨rfl, SampleStatistics.le_mean nonempty
        (fun sample sampled => (bounds sample sampled).1),
      SampleStatistics.mean_le nonempty
        (fun sample sampled => (bounds sample sampled).2)⟩

theorem exists_reads {v : List ℚ} (nonempty : v ≠ []) :
    ∃ r, Reads v r := by
  have positive : 0 < v.length := List.length_pos_iff.mpr nonempty
  have half : v.length / 2 < v.length :=
    Nat.div_lt_self positive Nat.one_lt_two
  have read : ∀ share : ℚ, 0 ≤ share → share < 1 →
      ∃ value, percentile v share = some value :=
    fun share nonneg proper => ⟨_, List.getElem?_eq_getElem
      (floor_share_lt positive nonneg proper)⟩
  obtain ⟨p90, p90Read⟩ := read (90 / 100) (by norm_num) (by norm_num)
  obtain ⟨p99, p99Read⟩ := read (99 / 100) (by norm_num) (by norm_num)
  obtain ⟨p999, p999Read⟩ := read (999 / 1000) (by norm_num) (by norm_num)
  exact ⟨{ n := v.length
           min := v[0]
           p50 := v[v.length / 2]
           p90 := p90
           p99 := p99
           p999 := p999
           max := v[v.length - 1]
           mean := v.foldl (· + ·) 0 / v.length },
    ⟨rfl, List.getElem?_eq_getElem _, List.getElem?_eq_getElem _, p90Read,
      p99Read, p999Read, List.getElem?_eq_getElem _, rfl⟩⟩

theorem report_eq_none_iff (v : List ℚ) : report v = none ↔ v = [] := by
  constructor
  · intro none
    by_contra nonempty
    have sortedNonempty : sorted v ≠ [] := by
      intro empty
      exact nonempty (List.perm_nil.mp (empty ▸ (sorted_perm v).symm))
    obtain ⟨r, reads⟩ := exists_reads sortedNonempty
    rw [(report_eq_some_iff v r).mpr reads] at none
    cases none
  · rintro rfl
    unfold report sorted
    rw [List.mergeSort_nil]
    rfl

/-- For every array of samples: the report reads nothing outside the array
unless it is empty, its percentiles have the ranks that they name, its mean is
the mean and lies between its bounds, and the order of the samples does not
matter. -/
theorem report_ranked (v : List ℚ) :
    (report v = none ↔ v = []) ∧
    (∀ r, report v = some r → Ranked v r) ∧
    ∀ other, other.Perm v → report other = report v := by
  refine ⟨report_eq_none_iff v, ?_, ?_⟩
  · intro r printed
    exact ((report_eq_some_iff v r).mp printed).ranked
  · intro other perm
    unfold report
    rw [sorted_eq perm]

end Loopback

end Waler
