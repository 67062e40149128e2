/-
The inter-arrival gaps that `strategyThreadMain` records for each frame.

One flag says that there was an earlier frame.  It guards two remembered
values: the cycle count of the previous frame, and the NIC timestamp of the
last frame that had a valid one.
-/

import Mathlib.Data.List.Induction
import Waler.Common.Stats
import Waler.Efvi.EfviInterface
import Waler.Foundation.Run

namespace Waler

namespace Strategy

def warmupIters : ℕ := 2000

/-- `nic_ns`, in exact arithmetic. -/
def nicNs (timestamp : PreciseTime) : ℚ :=
  timestamp.tvSec.toNat * 10 ^ 9 + timestamp.tvNsec.toNat +
    timestamp.tvNsecFrac.toNat / 65536

end Strategy

open Strategy (warmupIters nicNs)

/-- What the loop of `strategyThreadMain` keeps to measure gaps, with the two
collectors it feeds. -/
structure GapRecorder where
  n : ℕ
  havePrev : Bool
  prevNicNs : ℚ
  prevTsc : UInt64
  nicGap : Stats
  tscGap : Stats

namespace GapRecorder

def initial (capacity : ℕ) : GapRecorder :=
  { n := 0
    havePrev := false
    prevNicNs := 0
    prevTsc := 0
    nicGap := Stats.init capacity
    tscGap := Stats.init capacity }

/-- The value passed to `stats_record` for a difference, if it is called. -/
def passed (recorder : GapRecorder) (recording : Bool) (gap : UInt64) :
    Option UInt64 :=
  if recorder.havePrev && recording then some gap else none

/-- What one frame does, and the value it passes to
`stats_record(&stats->nic_gap, ..)` if it does. -/
def handleFrame (gTscHz : ℚ) (total : ℕ) (recorder : GapRecorder)
    (frame : EfviFrame) : GapRecorder × Option UInt64 :=
  if recorder.n ≥ total then (recorder, none)
  else
    let n := recorder.n + 1
    let recording := decide (n > warmupIters)
    let tscGap := recorder.passed recording (frame.tsc - recorder.prevTsc)
    let counted :=
      { recorder with
        n := n
        havePrev := true
        prevTsc := frame.tsc
        tscGap := tscGap.elim recorder.tscGap recorder.tscGap.record }
    if frame.nicTsValid then
      let now := nicNs frame.nicTs
      let nicGap :=
        recorder.passed recording (nsToTsc gTscHz (now - recorder.prevNicNs))
      ({ counted with
          prevNicNs := now
          nicGap := nicGap.elim recorder.nicGap recorder.nicGap.record },
        nicGap)
    else (counted, none)

def step (gTscHz : ℚ) (total : ℕ) (recorder : GapRecorder)
    (frame : EfviFrame) : GapRecorder :=
  (recorder.handleFrame gTscHz total frame).1

/-! ### Real gaps -/

/-- The NIC timestamp of the latest of these frames that has a valid one. -/
def lastValid (frames : List EfviFrame) : Option ℚ :=
  (frames.filter EfviFrame.nicTsValid).getLast?.map
    (fun frame => nicNs frame.nicTs)

/-- A frame passes nothing to `nic_gap`, or the distance to the latest earlier
frame with a valid timestamp. -/
def RealGap (gTscHz : ℚ) (before : List EfviFrame) (frame : EfviFrame)
    (gap : Option UInt64) : Prop :=
  ∀ value, gap = some value →
    ∃ previous, lastValid before = some previous ∧
      value = nsToTsc gTscHz (nicNs frame.nicTs - previous)

/-- The gap a frame passes after the frames before it. -/
def nicGapAfter (gTscHz : ℚ) (total capacity : ℕ) (before : List EfviFrame)
    (frame : EfviFrame) : Option UInt64 :=
  ((Run.final (step gTscHz total) (initial capacity) before).handleFrame
    gTscHz total frame).2

theorem lastValid_append_valid (frames : List EfviFrame) {frame : EfviFrame}
    (valid : frame.nicTsValid = true) :
    lastValid (frames ++ [frame]) = some (nicNs frame.nicTs) := by
  unfold lastValid
  rw [List.filter_append, List.filter_cons_of_pos valid, List.filter_nil,
    List.getLast?_concat]
  rfl

theorem lastValid_append_invalid (frames : List EfviFrame)
    {frame : EfviFrame} (invalid : frame.nicTsValid = false) :
    lastValid (frames ++ [frame]) = lastValid frames := by
  unfold lastValid
  rw [List.filter_append, List.filter_cons_of_neg (by
    rw [invalid]
    exact Bool.false_ne_true), List.filter_nil, List.append_nil]

theorem lastValid_eq_none_iff (frames : List EfviFrame) :
    lastValid frames = none ↔
      ∀ frame ∈ frames, frame.nicTsValid = false := by
  unfold lastValid
  rw [Option.map_eq_none_iff, List.getLast?_eq_none_iff,
    List.filter_eq_nil_iff]
  simp only [Bool.not_eq_true]

/-! ### What the recorder remembers -/

/-- After these frames the recorder knows their number and the last valid
timestamp among them, or zero. -/
structure Follows (frames : List EfviFrame) (recorder : GapRecorder) :
    Prop where
  counted : recorder.n = frames.length
  flagged : recorder.havePrev = decide (frames ≠ [])
  remembered : recorder.prevNicNs = (lastValid frames).getD 0

theorem Follows.step {gTscHz : ℚ} {total : ℕ} {frames : List EfviFrame}
    {recorder : GapRecorder} (follows : Follows frames recorder)
    (below : frames.length < total) (frame : EfviFrame) :
    Follows (frames ++ [frame]) (recorder.step gTscHz total frame) := by
  have counted := follows.counted
  have started : ¬ recorder.n ≥ total := by omega
  have nonempty : frames ++ [frame] ≠ [] :=
    List.append_ne_nil_of_right_ne_nil frames (List.cons_ne_nil frame [])
  unfold GapRecorder.step handleFrame
  rw [if_neg started]
  dsimp only
  cases valid : frame.nicTsValid with
  | true =>
      rw [if_pos rfl]
      refine ⟨?_, ?_, ?_⟩
      · rw [List.length_append, ← counted]
        rfl
      · exact (decide_eq_true nonempty).symm
      · rw [lastValid_append_valid frames valid]
        rfl
  | false =>
      rw [if_neg Bool.false_ne_true]
      refine ⟨?_, ?_, ?_⟩
      · rw [List.length_append, ← counted]
        rfl
      · exact (decide_eq_true nonempty).symm
      · rw [lastValid_append_invalid frames valid]
        exact follows.remembered

theorem handleFrame_of_done {recorder : GapRecorder} {total : ℕ}
    (done : recorder.n ≥ total) (gTscHz : ℚ) (frame : EfviFrame) :
    recorder.handleFrame gTscHz total frame = (recorder, none) :=
  if_pos done

/-- Frames beyond the limit are ignored. -/
theorem final_follows (gTscHz : ℚ) (total capacity : ℕ)
    (frames : List EfviFrame) :
    Follows (frames.take total)
      (Run.final (step gTscHz total) (initial capacity) frames) := by
  induction frames using List.reverseRecOn with
  | nil =>
      rw [List.take_nil]
      exact ⟨rfl, rfl, rfl⟩
  | append_singleton earlier frame ih =>
      rw [Run.final_append]
      by_cases below : earlier.length < total
      · rw [List.take_of_length_le (Nat.le_of_lt below)] at ih
        rw [List.take_of_length_le (by
          rw [List.length_append]
          exact below)]
        exact ih.step below frame
      · have full := Nat.le_of_not_lt below
        have counted := ih.counted
        rw [List.length_take, Nat.min_eq_left full] at counted
        rw [List.take_append_of_le_length full]
        change Follows _ (GapRecorder.handleFrame gTscHz total _ frame).1
        rw [handleFrame_of_done (Nat.le_of_eq counted.symm)]
        exact ih

/-- Both of the code's conditions on the iteration come to the warm-up. -/
theorem measured_eq (before : List EfviFrame) :
    (decide (before ≠ []) && decide (before.length + 1 > warmupIters)) =
      decide (warmupIters ≤ before.length) := by
  by_cases warm : warmupIters ≤ before.length
  · have nonempty : before ≠ [] := by
      intro isEmpty
      rw [isEmpty] at warm
      exact absurd warm (by decide)
    rw [decide_eq_true nonempty, decide_eq_true warm,
      decide_eq_true (Nat.lt_succ_of_le warm)]
    rfl
  · have early : ¬ before.length + 1 > warmupIters :=
      fun more => warm (Nat.le_of_lt_succ more)
    rw [decide_eq_false early, decide_eq_false warm, Bool.and_false]

/-- A gap is passed for every measured frame with a valid timestamp, and what
it is measured from is zero if no earlier frame had one. -/
theorem nicGapAfter_eq (gTscHz : ℚ) (total capacity : ℕ)
    (before : List EfviFrame) (frame : EfviFrame) :
    nicGapAfter gTscHz total capacity before frame =
      if before.length < total ∧ warmupIters ≤ before.length ∧
          frame.nicTsValid = true then
        some (nsToTsc gTscHz
          (nicNs frame.nicTs - (lastValid before).getD 0))
      else none := by
  have follows := final_follows gTscHz total capacity before
  unfold nicGapAfter
  generalize Run.final (step gTscHz total) (initial capacity) before =
    recorder at follows
  have counted := follows.counted
  rw [List.length_take] at counted
  by_cases below : before.length < total
  · rw [List.take_of_length_le (Nat.le_of_lt below)] at follows
    have started : ¬ recorder.n ≥ total := by omega
    unfold handleFrame passed
    rw [if_neg started]
    dsimp only
    rw [follows.flagged, follows.counted, follows.remembered]
    cases valid : frame.nicTsValid with
    | false =>
        rw [if_neg Bool.false_ne_true]
        refine (if_neg ?_).symm
        rintro ⟨_, _, impossible⟩
        cases impossible
    | true =>
        rw [if_pos rfl, measured_eq]
        by_cases warm : warmupIters ≤ before.length
        · rw [decide_eq_true warm]
          exact (if_pos ⟨below, warm, rfl⟩).symm
        · rw [decide_eq_false warm]
          exact (if_neg (fun all => warm all.2.1)).symm
  · rw [handleFrame_of_done (by omega), if_neg (fun all => below all.1)]

/-! ### Whole runs -/

/-- Every gap that a run over these frames passes to `nic_gap` is real. -/
def GapsReal (gTscHz : ℚ) (total capacity : ℕ) (frames : List EfviFrame) :
    Prop :=
  ∀ before frame after, frames = before ++ frame :: after →
    RealGap gTscHz before frame
      (nicGapAfter gTscHz total capacity before frame)

theorem realGap_iff (gTscHz : ℚ) (total capacity : ℕ)
    (before : List EfviFrame) (frame : EfviFrame) :
    RealGap gTscHz before frame
        (nicGapAfter gTscHz total capacity before frame) ↔
      ¬ (before.length < total ∧ warmupIters ≤ before.length ∧
        frame.nicTsValid = true ∧ lastValid before = none) := by
  rw [nicGapAfter_eq]
  constructor
  · rintro real ⟨below, warm, valid, unset⟩
    obtain ⟨previous, earlier, _⟩ :=
      real _ (if_pos ⟨below, warm, valid⟩)
    rw [unset] at earlier
    cases earlier
  · intro known value passes
    split at passes
    · rename_i measured
      obtain ⟨below, warm, valid⟩ := measured
      cases earlier : lastValid before with
      | none => exact absurd ⟨below, warm, valid, earlier⟩ known
      | some previous =>
          rw [earlier] at passes
          exact ⟨previous, rfl, (Option.some.inj passes).symm⟩
    · cases passes

/-- The position of the first frame with a valid timestamp. -/
def firstValid? (frames : List EfviFrame) : Option ℕ :=
  frames.findIdx? EfviFrame.nicTsValid

theorem firstValid?_eq_some_iff (frames : List EfviFrame) (index : ℕ) :
    firstValid? frames = some index ↔
      ∃ before frame after, frames = before ++ frame :: after ∧
        before.length = index ∧ frame.nicTsValid = true ∧
          lastValid before = none := by
  unfold firstValid?
  constructor
  · intro found
    obtain ⟨inside, valid, earlier⟩ :=
      List.findIdx?_eq_some_iff_getElem.mp found
    refine ⟨frames.take index, frames[index], frames.drop (index + 1), ?_,
      List.length_take_of_le (Nat.le_of_lt inside), valid, ?_⟩
    · rw [← List.drop_eq_getElem_cons inside, List.take_append_drop]
    · rw [lastValid_eq_none_iff]
      intro frame listed
      obtain ⟨position, at_position, rfl⟩ :=
        List.mem_take_iff_getElem.mp listed
      exact Bool.eq_false_of_not_eq_true (earlier position (by omega))
  · rintro ⟨before, frame, after, rfl, rfl, valid, unset⟩
    have silent : before.findIdx? EfviFrame.nicTsValid = none :=
      List.findIdx?_eq_none_iff.mpr ((lastValid_eq_none_iff before).mp unset)
    rw [List.findIdx?_append, silent, List.findIdx?_cons, if_pos valid]
    exact congrArg some (Nat.zero_add _)

/-- For every frequency, every limit and every sequence of frames: all gaps
passed to `nic_gap` are real exactly when the first frame with a valid NIC
timestamp, if there is one, is a warm-up frame or is beyond the limit. -/
theorem gapsReal_iff (gTscHz : ℚ) (total capacity : ℕ)
    (frames : List EfviFrame) :
    GapsReal gTscHz total capacity frames ↔
      ∀ index, firstValid? frames = some index →
        index < warmupIters ∨ total ≤ index := by
  constructor
  · intro real index first
    obtain ⟨before, frame, after, split, rfl, valid, unset⟩ :=
      (firstValid?_eq_some_iff frames index).mp first
    have known := (realGap_iff gTscHz total capacity before frame).mp
      (real before frame after split)
    by_contra measured
    exact known ⟨by omega, by omega, valid, unset⟩
  · intro early before frame after split
    rw [realGap_iff]
    rintro ⟨below, warm, valid, unset⟩
    have first := (firstValid?_eq_some_iff frames before.length).mpr
      ⟨before, frame, after, split, rfl, valid, unset⟩
    rcases early before.length first with inWarmup | beyond
    · omega
    · omega

def frameAt (nicTsValid : Bool) (seconds : UInt64) : EfviFrame :=
  { data := 0
    len := 0
    nicTs := { tvSec := seconds, tvNsec := 0, tvNsecFrac := 0 }
    nicTsValid := nicTsValid
    tsc := 0 }

/-- The clock of the NIC becomes valid with the first measured frame, which
then passes five seconds since zero. -/
theorem not_gapsReal_late_clock :
    ¬ GapsReal (10 ^ 9) (warmupIters + 1) 1
      (List.replicate warmupIters (frameAt false 0) ++ [frameAt true 5]) := by
  intro real
  have known := (realGap_iff _ _ _ _ _).mp (real _ _ _ rfl)
  refine known ⟨?_, ?_, rfl, ?_⟩
  · rw [List.length_replicate]
    exact Nat.lt_succ_self _
  · exact (List.length_replicate).ge
  · rw [lastValid_eq_none_iff]
    intro frame listed
    rw [(List.mem_replicate.mp listed).2]
    rfl

end GapRecorder

end Waler
