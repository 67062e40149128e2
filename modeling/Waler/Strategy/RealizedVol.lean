/-
The rolling estimator of RealizedVol.hpp: what `observe` keeps of a run of
observations.

Timestamps and prices are exact rationals.  The logarithm is a parameter and
its values are opaque.
-/

import Mathlib.Data.List.Induction
import Mathlib.Algebra.Order.Ring.Rat
import Waler.Foundation.Run
import Waler.Foundation.SlidingWindow

universe u

namespace Waler

structure RealizedVolEstimator (α : Type u) where
  window : ℕ
  returns : List α
  havePrev : Bool
  prevPrice : ℚ
  prevNs : ℚ
  firstNs : ℚ
  lastNs : ℚ

namespace RealizedVolEstimator

variable {α : Type u}

def initial (window : ℕ) : RealizedVolEstimator α :=
  { window := window
    returns := []
    havePrev := false
    prevPrice := 0
    prevNs := 0
    firstNs := -1
    lastNs := 0 }

structure Observation where
  midPrice : ℚ
  nowNs : ℚ
  deriving DecidableEq, Repr

variable (log : ℚ → α)

def observe (estimator : RealizedVolEstimator α)
    (observation : Observation) : RealizedVolEstimator α :=
  let extended :=
    if estimator.havePrev then
      let logReturn := log (observation.midPrice / estimator.prevPrice)
      let kept :=
        if estimator.returns.length ≥ estimator.window then
          estimator.returns.drop 1
        else estimator.returns
      { estimator with
        returns := kept ++ [logReturn]
        firstNs := if estimator.firstNs < 0 then estimator.prevNs
          else estimator.firstNs
        lastNs := observation.nowNs }
    else estimator
  { extended with
    prevPrice := observation.midPrice
    prevNs := observation.nowNs
    havePrev := true }

def observed (window : ℕ) (observations : List Observation) :
    RealizedVolEstimator α :=
  Run.final (observe log) (initial window) observations

/-! ### The window and its span -/

def logReturns (observations : List Observation) : List α :=
  SlidingWindow.consecutive
    (fun previous next => log (next.midPrice / previous.midPrice))
    observations

theorem logReturns_length (observations : List Observation) :
    (logReturns log observations).length = observations.length - 1 :=
  SlidingWindow.consecutive_length observations

def recent (window : ℕ) (observations : List Observation) :
    List Observation :=
  observations.rtake (window + 1)

/-- The estimator keeps the latest returns, and its two timestamps are those
of the observations with which the oldest of them starts and the latest
ends. -/
structure SpansWindow (window : ℕ) (observations : List Observation)
    (estimator : RealizedVolEstimator α) : Prop where
  returns : estimator.returns = (logReturns log observations).rtake
    (min (observations.length - 1) window)
  started : (recent window observations).head?.map Observation.nowNs =
    some estimator.firstNs
  ended : (recent window observations).getLast?.map Observation.nowNs =
    some estimator.lastNs

/-- A window that is spanned is a matter of the recent observations alone. -/
theorem SpansWindow.eq_of_recent {window : ℕ}
    {observations others : List Observation}
    {estimator other : RealizedVolEstimator α}
    (spans : SpansWindow log window observations estimator)
    (otherSpans : SpansWindow log window others other)
    (same : recent window observations = recent window others) :
    estimator.returns = other.returns ∧ estimator.firstNs = other.firstNs ∧
      estimator.lastNs = other.lastNs := by
  have retained : ∀ seen : List Observation,
      (logReturns log seen).rtake (min (seen.length - 1) window) =
        logReturns log (recent window seen) := by
    intro seen
    rw [← logReturns_length log seen, SlidingWindow.rtake_min_length]
    exact (SlidingWindow.consecutive_rtake seen window).symm
  refine ⟨?_, ?_, ?_⟩
  · rw [spans.returns, otherSpans.returns, retained, retained, same]
  · have started := otherSpans.started
    rw [← same, spans.started] at started
    exact Option.some.inj started
  · have ended := otherSpans.ended
    rw [← same, spans.ended] at ended
    exact Option.some.inj ended

/-- The oldest retained return starts at the time of the very first
observation. -/
def StartsAtFirst (window : ℕ) (observations : List Observation) : Prop :=
  (recent window observations).head?.map Observation.nowNs =
    observations.head?.map Observation.nowNs

/-! ### Runs -/

structure Holds (window : ℕ) (earlier : List Observation) (last : Observation)
    (estimator : RealizedVolEstimator α) : Prop where
  capacity : estimator.window = window
  havePrev : estimator.havePrev = true
  prevPrice : estimator.prevPrice = last.midPrice
  prevNs : estimator.prevNs = last.nowNs
  returns : estimator.returns =
    (logReturns log (earlier ++ [last])).rtake window
  unset : earlier = [] → estimator.firstNs = -1
  span : ∀ start, earlier.head? = some start →
    estimator.firstNs = start.nowNs ∧ estimator.lastNs = last.nowNs

theorem holds_first (window : ℕ) (start : Observation) :
    Holds log window [] start (observe log (initial window) start) := by
  refine ⟨rfl, rfl, rfl, rfl, ?_, fun _ => rfl, ?_⟩
  · exact (List.rtake_nil (n := window)).symm
  · intro start impossible
    cases impossible

variable {log}

/-- The sentinel is replaced by the first timestamp, and that is never
replaced again. -/
theorem Holds.observe {window : ℕ} (positive : 0 < window)
    {earlier : List Observation} {last : Observation}
    {estimator : RealizedVolEstimator α}
    (holds : Holds log window earlier last estimator)
    (nonneg : ∀ observation ∈ earlier, 0 ≤ observation.nowNs)
    (next : Observation) :
    Holds log window (earlier ++ [last]) next
      (estimator.observe log next) := by
  have pushed := SlidingWindow.push_rtake positive
    (logReturns log (earlier ++ [last]))
    (log (next.midPrice / last.midPrice))
  have extended : logReturns log (earlier ++ [last] ++ [next]) =
      logReturns log (earlier ++ [last]) ++
        [log (next.midPrice / last.midPrice)] :=
    SlidingWindow.consecutive_concat earlier last next
  have present := holds.havePrev
  unfold RealizedVolEstimator.observe
  simp only [present, if_true]
  refine ⟨holds.capacity, rfl, rfl, rfl, ?_, ?_, ?_⟩
  · rw [extended, ← pushed, ← holds.returns, holds.capacity, holds.prevPrice]
    rfl
  · intro impossible
    exact absurd impossible (List.append_ne_nil_of_right_ne_nil _
      (List.cons_ne_nil last []))
  · intro start starts
    refine ⟨?_, rfl⟩
    cases split : earlier with
    | nil =>
        rw [split] at starts
        cases starts
        have sentinel : estimator.firstNs < 0 := by
          rw [holds.unset split]
          decide
        exact (if_pos sentinel).trans holds.prevNs
    | cons first rest =>
        rw [split] at starts
        cases starts
        have known := (holds.span start (by rw [split]; rfl)).1
        have set : ¬ estimator.firstNs < 0 := by
          rw [known]
          exact not_lt.mpr (nonneg start (by rw [split]; exact
            List.mem_cons_self))
        exact (if_neg set).trans known

theorem observed_holds {window : ℕ} (positive : 0 < window)
    (earlier : List Observation) (last : Observation)
    (nonneg : ∀ observation ∈ earlier, 0 ≤ observation.nowNs) :
    Holds log window earlier last
      (observed log window (earlier ++ [last])) := by
  induction earlier using List.reverseRecOn generalizing last with
  | nil => exact holds_first log window last
  | append_singleton init previous ih =>
      have before := ih previous (fun observation member =>
        nonneg observation (List.mem_append_left _ member))
      unfold observed
      rw [Run.final_append]
      exact before.observe positive (fun observation member =>
        nonneg observation (List.mem_append_left _ member)) last

theorem rtake_getLast? (observations : List Observation) (count : ℕ) :
    (observations.rtake (count + 1)).getLast? = observations.getLast? := by
  unfold List.rtake
  rw [List.getLast?_drop]
  split
  · rename_i short
    have none : observations = [] := List.length_eq_zero_iff.mp (by omega)
    rw [none]
    rfl
  · rfl

/-- For every window and every run of two observations or more: the estimator
spans its window exactly when the oldest retained return starts at the time
of the very first observation. -/
theorem spansWindow_iff {window : ℕ} (positive : 0 < window)
    (observations : List Observation) (several : 2 ≤ observations.length)
    (nonneg : ∀ observation ∈ observations, 0 ≤ observation.nowNs) :
    SpansWindow log window observations (observed log window observations) ↔
      StartsAtFirst window observations := by
  obtain ⟨earlier, last, rfl⟩ : ∃ earlier last,
      observations = earlier ++ [last] :=
    (List.eq_nil_or_concat' observations).resolve_left (by
      intro none
      rw [none] at several
      cases several)
  have holds : Holds log window earlier last
      (observed log window (earlier ++ [last])) :=
    observed_holds positive earlier last (fun observation member =>
      nonneg observation (List.mem_append_left _ member))
  obtain ⟨start, rest, split⟩ : ∃ start rest, earlier = start :: rest := by
    cases earlier with
    | nil =>
        change 2 ≤ 1 at several
        omega
    | cons start rest => exact ⟨start, rest, rfl⟩
  obtain ⟨firstEq, lastEq⟩ := holds.span start (by rw [split]; rfl)
  have headEq : (earlier ++ [last]).head?.map Observation.nowNs =
      some start.nowNs := by
    rw [split]
    rfl
  unfold StartsAtFirst
  rw [headEq]
  constructor
  · intro spans
    rw [← firstEq]
    exact spans.started
  · intro starts
    refine ⟨?_, ?_, ?_⟩
    · rw [holds.returns, ← SlidingWindow.rtake_min_length,
        logReturns_length]
    · rw [starts, firstEq]
    · unfold recent
      rw [rtake_getLast?, List.getLast?_append, lastEq]
      rfl

/-- The window slides on from the first observation to one made at the same
time. -/
theorem spansWindow_iff_slid :
    SpansWindow (fun ratio => ratio) 1 [⟨100, 0⟩, ⟨110, 0⟩, ⟨120, 9⟩]
      (observed (fun ratio => ratio) 1 [⟨100, 0⟩, ⟨110, 0⟩, ⟨120, 9⟩]) :=
  (spansWindow_iff (by decide) [⟨100, 0⟩, ⟨110, 0⟩, ⟨120, 9⟩] (by decide)
    (by decide)).mpr rfl

/-- With a third observation the window slides, and `first_ns_` stays. -/
theorem not_spansWindow_three :
    ¬ SpansWindow (fun ratio => ratio) 1 [⟨100, 0⟩, ⟨110, 5⟩, ⟨120, 9⟩]
      (observed (fun ratio => ratio) 1
        [⟨100, 0⟩, ⟨110, 5⟩, ⟨120, 9⟩]) :=
  fun spans => absurd spans.started (by decide)

end RealizedVolEstimator

end Waler
