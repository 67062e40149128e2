/-
The sample collector of stats.h and the clock conversions of timing.h.

Doubles are exact rationals.  A conversion to cycles truncates; outside the
range of a 64-bit word the cast has no defined value and the model's is
arbitrary.
-/

import Mathlib.Algebra.Order.Field.Rat
import Mathlib.Algebra.Order.Floor.Semiring
import Mathlib.Data.Rat.Floor

namespace Waler

/-! ### Cycles and nanoseconds -/

/-- `struct timespec`. -/
structure Timespec where
  tvSec : Int64
  tvNsec : Int64
  deriving DecidableEq, Repr

def tscToNs (gTscHz : ℚ) (cycles : UInt64) : ℚ :=
  cycles.toNat * 10 ^ 9 / gTscHz

def nsToTsc (gTscHz ns : ℚ) : UInt64 :=
  UInt64.ofNat ⌊ns * gTscHz / 10 ^ 9⌋₊

theorem tscToNs_mono {gTscHz : ℚ} (ticking : 0 < gTscHz)
    {fewer more : UInt64} (below : fewer.toNat ≤ more.toNat) :
    tscToNs gTscHz fewer ≤ tscToNs gTscHz more := by
  unfold tscToNs
  gcongr

/-! ### Samples -/

/-- `stats_t`; `count` is the length of the list. -/
structure Stats where
  samples : List UInt64
  capacity : ℕ
  bounded : samples.length ≤ capacity

namespace Stats

def init (capacity : ℕ) : Stats :=
  { samples := []
    capacity := capacity
    bounded := Nat.zero_le capacity }

/-- `stats_record`: a full collector keeps what it has. -/
def record (stats : Stats) (cycles : UInt64) : Stats :=
  if room : stats.samples.length < stats.capacity then
    { samples := stats.samples ++ [cycles]
      capacity := stats.capacity
      bounded := by
        rw [List.length_append]
        exact room }
  else stats

@[simp] theorem record_capacity (stats : Stats) (cycles : UInt64) :
    (stats.record cycles).capacity = stats.capacity := by
  unfold record
  split <;> rfl

theorem record_samples {stats : Stats} (cycles : UInt64)
    (room : stats.samples.length < stats.capacity) :
    (stats.record cycles).samples = stats.samples ++ [cycles] := by
  simp [record, room]

end Stats

end Waler
