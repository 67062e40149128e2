/-
The clock calibration of x4_loopback_latency.c: `calibrate_realtime_phc`.

What the driver answers at each turn of the two loops is an input, none for a
failing call; the result is none for the program's exit.  Doubles are exact
rationals.
-/

import Waler.Foundation.BestScan
import Waler.Loopback.Calibration

namespace Waler

namespace Loopback

/-- `struct ptp_clock_time`. -/
structure PtpClockTime where
  sec : Int64
  nsec : UInt32
  deriving DecidableEq, Repr

def PtpClockTime.toNs (time : PtpClockTime) : ℚ :=
  time.sec.toInt * 10 ^ 9 + time.nsec.toNat

/-- `struct ptp_sys_offset_precise`. -/
structure SysOffsetPrecise where
  device : PtpClockTime
  sysRealtime : PtpClockTime

def SysOffsetPrecise.sample (answer : SysOffsetPrecise) : Sample :=
  { x := answer.sysRealtime.toNs
    y := answer.device.toNs }

/-- `struct ptp_sys_offset`: readings of the system clock and of the device in
turn, a last reading of the system clock at the end. -/
structure SysOffset where
  nSamples : ℕ
  ts : ℕ → PtpClockTime

def SysOffset.gap (answer : SysOffset) (j : ℕ) : ℚ :=
  (answer.ts (2 * j + 2)).toNs - (answer.ts (2 * j)).toNs

/-- `best`, none for -1. -/
def SysOffset.tightest (answer : SysOffset) : Option ℕ :=
  (BestScan.scan (· < ·) (fun j => some (answer.gap j)) (10 ^ 18)
    (List.range answer.nSamples)).2

def SysOffset.sample (answer : SysOffset) (best : ℕ) : Sample :=
  { x := ((answer.ts (2 * best)).toNs + (answer.ts (2 * best + 2)).toNs) / 2
    y := (answer.ts (2 * best + 1)).toNs }

/-- The loop over `PTP_SYS_OFFSET_PRECISE`, which a failure ends. -/
def precisePass (precise : ℕ → Option SysOffsetPrecise) :
    List ℕ → List Sample
  | [] => []
  | i :: rest =>
      match precise i with
      | some answer => answer.sample :: precisePass precise rest
      | none => []

/-- One turn of the loop over `PTP_SYS_OFFSET`, where a failure ends the
program. -/
def tryOffset (offsets : ℕ → Option SysOffset) (samples : List Sample)
    (i : ℕ) : Option (List Sample) :=
  if samples.length < calSamples then
    match offsets i with
    | some answer =>
        match answer.tightest with
        | some best => some (samples ++ [answer.sample best])
        | none => some samples
    | none => none
  else some samples

def offsetPass (offsets : ℕ → Option SysOffset) : Option (List Sample) :=
  (List.range calSamples).foldlM (tryOffset offsets) []

/-- With fewer than eight precise samples the second loop starts over. -/
def phcSamples (precise : ℕ → Option SysOffsetPrecise)
    (offsets : ℕ → Option SysOffset) : Option (List Sample) :=
  let samples := precisePass precise (List.range calSamples)
  if samples.length < 8 then offsetPass offsets else some samples

def calibrateRealtimePhc (precise : ℕ → Option SysOffsetPrecise)
    (offsets : ℕ → Option SysOffset) : Option LinFit :=
  (phcSamples precise offsets).bind fitSamples

/-! ### Precise answers -/

theorem le_precisePass_length_iff (precise : ℕ → Option SysOffsetPrecise)
    (rounds : List ℕ) {count : ℕ} (few : count ≤ rounds.length) :
    count ≤ (precisePass precise rounds).length ↔
      ∀ i ∈ rounds.take count, precise i ≠ none := by
  induction rounds generalizing count with
  | nil =>
      obtain rfl := Nat.le_zero.mp few
      exact iff_of_true (Nat.zero_le _) (fun i listed => by cases listed)
  | cons first rest ih =>
      cases count with
      | zero =>
          exact iff_of_true (Nat.zero_le _) (fun i listed => by cases listed)
      | succ count =>
          unfold precisePass
          rw [List.take_succ_cons]
          cases answered : precise first with
          | none =>
              refine iff_of_false (Nat.not_succ_le_zero count) ?_
              intro all
              exact all first List.mem_cons_self answered
          | some answer =>
              change count + 1 ≤ (precisePass precise rest).length + 1 ↔ _
              rw [Nat.add_le_add_iff_right,
                ih (Nat.le_of_succ_le_succ few)]
              constructor
              · intro later i listed
                obtain rfl | listed := List.mem_cons.mp listed
                · rw [answered]
                  exact Option.some_ne_none _
                · exact later i listed
              · intro all i listed
                exact all i (List.mem_cons_of_mem _ listed)

theorem exists_of_mem_precisePass {precise : ℕ → Option SysOffsetPrecise}
    {rounds : List ℕ} {sample : Sample}
    (listed : sample ∈ precisePass precise rounds) :
    ∃ i ∈ rounds, ∃ answer, precise i = some answer ∧
      sample = answer.sample := by
  induction rounds with
  | nil => cases listed
  | cons first rest ih =>
      unfold precisePass at listed
      cases answered : precise first with
      | none =>
          rw [answered] at listed
          cases listed
      | some answer =>
          rw [answered] at listed
          obtain rfl | listed := List.mem_cons.mp listed
          · exact ⟨first, List.mem_cons_self, answer, answered, rfl⟩
          · obtain ⟨i, iIn, found⟩ := ih listed
            exact ⟨i, List.mem_cons_of_mem _ iIn, found⟩

theorem precisePass_pairwise {precise : ℕ → Option SysOffsetPrecise}
    {relates : Sample → Sample → Prop} {rounds : List ℕ}
    (ordered : rounds.Pairwise (fun i j => ∀ before after,
      precise i = some before → precise j = some after →
        relates before.sample after.sample)) :
    (precisePass precise rounds).Pairwise relates := by
  induction rounds with
  | nil => exact List.Pairwise.nil
  | cons first rest ih =>
      obtain ⟨now, later⟩ := List.pairwise_cons.mp ordered
      unfold precisePass
      cases answered : precise first with
      | none => exact List.Pairwise.nil
      | some answer =>
          refine List.pairwise_cons.mpr ⟨?_, ih later⟩
          intro sample listed
          obtain ⟨i, iIn, after, found, rfl⟩ := exists_of_mem_precisePass listed
          exact now i iIn answer after answered found

/-! ### Answers of several brackets -/

def roundSample (offsets : ℕ → Option SysOffset) (i : ℕ) : Option Sample :=
  (offsets i).bind (fun answer => answer.tightest.map answer.sample)

theorem tryOffset_eq {offsets : ℕ → Option SysOffset} {samples : List Sample}
    (room : samples.length < calSamples) {i : ℕ} {answer : SysOffset}
    (answered : offsets i = some answer) :
    tryOffset offsets samples i =
      some (samples ++ (roundSample offsets i).toList) := by
  unfold tryOffset roundSample
  rw [if_pos room, answered]
  dsimp only [Option.bind_some]
  cases answer.tightest with
  | none => exact congrArg some (List.append_nil samples).symm
  | some best => rfl

theorem roundSamples_length {offsets : ℕ → Option SysOffset} {n : ℕ}
    (counted : n < calSamples) :
    ((List.range n).filterMap (roundSample offsets)).length < calSamples := by
  have few := List.length_filterMap_le (roundSample offsets) (List.range n)
  rw [List.length_range] at few
  exact few.trans_lt counted

theorem foldlM_tryOffset {offsets : ℕ → Option SysOffset} {n : ℕ}
    (counted : n ≤ calSamples) (answered : ∀ i < n, offsets i ≠ none) :
    (List.range n).foldlM (tryOffset offsets) [] =
      some ((List.range n).filterMap (roundSample offsets)) := by
  induction n with
  | zero => rfl
  | succ n ih =>
      have before := ih (Nat.le_of_succ_le counted)
        (fun i below => answered i (Nat.lt_succ_of_lt below))
      obtain ⟨answer, found⟩ :=
        Option.ne_none_iff_exists'.mp (answered n (Nat.lt_succ_self n))
      rw [List.range_succ, List.foldlM_append, before]
      change (tryOffset offsets _ n).bind some = _
      rw [tryOffset_eq (roundSamples_length counted) found,
        List.filterMap_append, List.filterMap_cons, List.filterMap_nil]
      cases roundSample offsets n <;> rfl

theorem foldlM_tryOffset_none {offsets : ℕ → Option SysOffset} {n : ℕ}
    (counted : n ≤ calSamples) (failed : ∃ i < n, offsets i = none) :
    (List.range n).foldlM (tryOffset offsets) [] = none := by
  induction n with
  | zero =>
      obtain ⟨i, impossible, _⟩ := failed
      cases impossible
  | succ n ih =>
      rw [List.range_succ, List.foldlM_append]
      by_cases earlier : ∃ i < n, offsets i = none
      · rw [ih (Nat.le_of_succ_le counted) earlier]
        rfl
      · obtain ⟨i, below, unanswered⟩ := failed
        have answered : ∀ k < n, offsets k ≠ none :=
          fun k kBelow none => earlier ⟨k, kBelow, none⟩
        have last : i = n := by
          by_contra other
          exact answered i (by omega) unanswered
        rw [foldlM_tryOffset (Nat.le_of_succ_le counted) answered]
        change (tryOffset offsets _ n).bind some = _
        unfold tryOffset
        rw [if_pos (roundSamples_length counted), ← last, unanswered]
        rfl

/-- The clock of the NIC goes at one rate with the wall clock.  A precise
answer is right up to the reach.  An answer of several brackets reads the
device inside each of them, and one of them is as narrow as the reach asks
for.  The wall clock moves on by the gap between two answers. -/
structure SteadyDevice (rate offset reach gap : ℚ)
    (precise : ℕ → Option SysOffsetPrecise)
    (offsets : ℕ → Option SysOffset) : Prop where
  near : ∀ i < calSamples, ∀ answer, precise i = some answer →
    |answer.device.toNs - (rate * answer.sysRealtime.toNs + offset)| ≤ reach
  rests : ∀ i j, i < j → j < calSamples → ∀ before after,
    precise i = some before → precise j = some after →
      before.sysRealtime.toNs + gap ≤ after.sysRealtime.toNs
  inside : ∀ i < calSamples, ∀ answer, offsets i = some answer →
    ∀ j < answer.nSamples, ∃ time : ℚ,
      (answer.ts (2 * j)).toNs ≤ time ∧
        time ≤ (answer.ts (2 * j + 2)).toNs ∧
          (answer.ts (2 * j + 1)).toNs = rate * time + offset
  narrow : ∀ i < calSamples, ∀ answer, offsets i = some answer →
    ∃ j < answer.nSamples, answer.gap j < 10 ^ 18 ∧
      |rate| * answer.gap j ≤ 2 * reach
  apart : ∀ i j, i < j → j < calSamples → ∀ before after,
    offsets i = some before → offsets j = some after →
      ∀ k ≤ before.nSamples, ∀ l ≤ after.nSamples,
        (before.ts (2 * k)).toNs + gap ≤ (after.ts (2 * l)).toNs

/-- The tightest bracket is no wider than any other. -/
theorem tightest_spec {answer : SysOffset} {j : ℕ}
    (counted : j < answer.nSamples) (narrow : answer.gap j < 10 ^ 18) :
    ∃ best, answer.tightest = some best ∧ best < answer.nSamples ∧
      answer.gap best ≤ answer.gap j := by
  have scanned : BestScan.Best (· < ·) (fun j => some (answer.gap j)) (10 ^ 18)
      (List.range answer.nSamples)
      (BestScan.scan (· < ·) (fun j => some (answer.gap j)) (10 ^ 18)
        (List.range answer.nSamples)) :=
    BestScan.scan_best _
  have least := scanned.top j (List.mem_range.mpr counted) _ rfl
  cases found : answer.tightest with
  | none =>
      rw [scanned.absent found] at least
      exact absurd narrow least
  | some best =>
      obtain ⟨member, key, _⟩ := scanned.found best found
      rw [← Option.some.inj key] at least
      exact ⟨best, rfl, List.mem_range.mp member, not_lt.mp least⟩

section Device

variable {rate offset reach gap : ℚ}
  {precise : ℕ → Option SysOffsetPrecise} {offsets : ℕ → Option SysOffset}
  (steady : SteadyDevice rate offset reach gap precise offsets)
include steady

theorem SteadyDevice.round {i : ℕ} (made : i < calSamples)
    {answer : SysOffset} (answered : offsets i = some answer) :
    ∃ best < answer.nSamples,
      roundSample offsets i = some (answer.sample best) ∧
        |rate| * answer.gap best ≤ 2 * reach := by
  obtain ⟨j, counted, short, narrow⟩ := steady.narrow i made answer answered
  obtain ⟨best, found, member, least⟩ := tightest_spec counted short
  refine ⟨best, member, ?_, ?_⟩
  · unfold roundSample
    rw [answered, Option.bind_some, found]
    rfl
  · exact (mul_le_mul_of_nonneg_left least (abs_nonneg rate)).trans narrow

theorem SteadyDevice.sample_near {i : ℕ} (made : i < calSamples)
    {answer : SysOffset} (answered : offsets i = some answer) {best : ℕ}
    (member : best < answer.nSamples)
    (narrow : |rate| * answer.gap best ≤ 2 * reach) :
    |(answer.sample best).y - (rate * (answer.sample best).x + offset)| ≤
      reach := by
  obtain ⟨time, after, before, read⟩ :=
    steady.inside i made answer answered best member
  let middle := (answer.sample best).x
  have centred : 2 * middle =
      (answer.ts (2 * best)).toNs + (answer.ts (2 * best + 2)).toNs :=
    mul_div_cancel₀ _ two_ne_zero
  have width : answer.gap best = (answer.ts (2 * best + 2)).toNs -
      (answer.ts (2 * best)).toNs := rfl
  have half : 2 * |time - middle| ≤ answer.gap best := by
    have reached : |time - middle| ≤ answer.gap best / 2 :=
      abs_le.mpr ⟨by linarith, by linarith⟩
    linarith
  have error : (answer.sample best).y - (rate * middle + offset) =
      rate * (time - middle) := by
    change (answer.ts (2 * best + 1)).toNs - _ = _
    rw [read]
    ring
  have scaled := mul_le_mul_of_nonneg_left half (abs_nonneg rate)
  change |(answer.sample best).y - (rate * middle + offset)| ≤ reach
  rw [error, abs_mul]
  linarith

theorem SteadyDevice.steady_precise {n : ℕ} (counted : n ≤ calSamples) :
    Steady rate offset reach gap (precisePass precise (List.range n)) := by
  constructor
  · intro sample listed
    obtain ⟨i, iIn, answer, answered, rfl⟩ := exists_of_mem_precisePass listed
    exact steady.near i ((List.mem_range.mp iIn).trans_le counted) answer
      answered
  · apply precisePass_pairwise
    apply List.Pairwise.imp_of_mem _ List.pairwise_lt_range
    intro i j _ jIn later before after first second
    exact steady.rests i j later ((List.mem_range.mp jIn).trans_le counted)
      before after first second

theorem SteadyDevice.steady_rounds {n : ℕ} (counted : n ≤ calSamples)
    (answered : ∀ i < n, offsets i ≠ none) :
    Steady rate offset reach gap
        ((List.range n).filterMap (roundSample offsets)) ∧
      ((List.range n).filterMap (roundSample offsets)).length = n := by
  have sampled : ∀ i < n, ∃ answer best, offsets i = some answer ∧
      best < answer.nSamples ∧
        roundSample offsets i = some (answer.sample best) ∧
          |rate| * answer.gap best ≤ 2 * reach := by
    intro i below
    obtain ⟨answer, found⟩ := Option.ne_none_iff_exists'.mp (answered i below)
    obtain ⟨best, member, round, narrow⟩ :=
      steady.round (below.trans_le counted) found
    exact ⟨answer, best, found, member, round, narrow⟩
  refine ⟨⟨?_, ?_⟩, ?_⟩
  · intro sample listed
    obtain ⟨i, iIn, round⟩ := List.mem_filterMap.mp listed
    have below := List.mem_range.mp iIn
    obtain ⟨answer, best, found, member, same, narrow⟩ := sampled i below
    obtain rfl := Option.some.inj (round.symm.trans same)
    exact steady.sample_near (below.trans_le counted) found member narrow
  · rw [List.pairwise_filterMap]
    apply List.Pairwise.imp_of_mem _ List.pairwise_lt_range
    intro i j iIn jIn later first firstRound second secondRound
    obtain ⟨before, k, foundFirst, kIn, sameFirst, _⟩ :=
      sampled i (List.mem_range.mp iIn)
    obtain ⟨after, l, foundSecond, lIn, sameSecond, _⟩ :=
      sampled j (List.mem_range.mp jIn)
    obtain rfl := Option.some.inj (firstRound.symm.trans sameFirst)
    obtain rfl := Option.some.inj (secondRound.symm.trans sameSecond)
    have apart := steady.apart i j later
      ((List.mem_range.mp jIn).trans_le counted) before after foundFirst
        foundSecond
    have starts := apart k kIn.le l lIn.le
    have ends := apart (k + 1) kIn (l + 1) lIn
    change (_ + (before.ts (2 * (k + 1))).toNs) / 2 + gap ≤
      (_ + (after.ts (2 * (l + 1))).toNs) / 2
    linarith
  · rw [List.length_filterMap_eq_countP]
    refine (List.countP_eq_length.mpr ?_).trans List.length_range
    intro i iIn
    obtain ⟨answer, best, _, _, round, _⟩ := sampled i (List.mem_range.mp iIn)
    rw [round]
    rfl

theorem SteadyDevice.samples :
    phcSamples precise offsets = none ∧
        (∃ i < 8, precise i = none) ∧ (∃ i < calSamples, offsets i = none) ∨
      ∃ samples, phcSamples precise offsets = some samples ∧
        8 ≤ samples.length ∧ Steady rate offset reach gap samples ∧
          ¬ ((∃ i < 8, precise i = none) ∧
            ∃ i < calSamples, offsets i = none) := by
  have eight : 8 ≤ (precisePass precise (List.range calSamples)).length ↔
      ∀ i ∈ List.range 8, precise i ≠ none :=
    le_precisePass_length_iff precise (List.range calSamples) (by decide)
  unfold phcSamples
  dsimp only
  by_cases enough : 8 ≤ (precisePass precise (List.range calSamples)).length
  · rw [if_neg (not_lt.mpr enough)]
    refine Or.inr ⟨_, rfl, enough,
      steady.steady_precise (le_refl calSamples), ?_⟩
    rintro ⟨⟨i, below, failed⟩, _⟩
    exact eight.mp enough i (List.mem_range.mpr below) failed
  · rw [if_pos (not_le.mp enough)]
    unfold offsetPass
    by_cases failed : ∃ i < calSamples, offsets i = none
    · refine Or.inl ⟨foldlM_tryOffset_none (le_refl calSamples) failed,
        ?_, failed⟩
      by_contra all
      exact enough (eight.mpr (fun i listed none =>
        all ⟨i, List.mem_range.mp listed, none⟩))
    · have answered : ∀ i < calSamples, offsets i ≠ none :=
        fun i below none => failed ⟨i, below, none⟩
      obtain ⟨rounds, length⟩ :=
        steady.steady_rounds (le_refl calSamples) answered
      refine Or.inr ⟨_, foldlM_tryOffset (le_refl calSamples) answered,
        ?_, rounds, fun both => failed both.2⟩
      rw [length]
      decide

theorem SteadyDevice.calibrateRealtimePhc_eq_none_iff :
    calibrateRealtimePhc precise offsets = none ↔
      (∃ i < 8, precise i = none) ∧ ∃ i < calSamples, offsets i = none := by
  unfold calibrateRealtimePhc
  obtain ⟨missing, failed⟩ | ⟨samples, collected, enough, _, complete⟩ :=
    steady.samples
  · rw [missing]
    exact iff_of_true rfl failed
  · rw [collected, Option.bind_some, fitSamples_eq_none_iff]
    exact iff_of_false (not_lt.mpr enough) complete

theorem SteadyDevice.samples_steady {samples : List Sample}
    (collected : phcSamples precise offsets = some samples) :
    Steady rate offset reach gap samples := by
  obtain ⟨missing, _⟩ | ⟨others, same, _, near, _⟩ := steady.samples
  · rw [missing] at collected
    cases collected
  · obtain rfl := Option.some.inj (same.symm.trans collected)
    exact near

end Device

/-- For every sequence of answers about two clocks that go at one rate: the
calibration fails exactly when one of the first eight precise answers and one
of the sixty-four others is missing.  Otherwise its line is that of the clocks
up to the reach, even if only one bracket of each answer is narrow. -/
theorem calibrateRealtimePhc_accurate {rate offset reach gap : ℚ}
    {precise : ℕ → Option SysOffsetPrecise} {offsets : ℕ → Option SysOffset}
    (positive : 0 < gap)
    (steady : SteadyDevice rate offset reach gap precise offsets) :
    (calibrateRealtimePhc precise offsets = none ↔
      (∃ i < 8, precise i = none) ∧ ∃ i < calSamples, offsets i = none) ∧
    ∀ f, calibrateRealtimePhc precise offsets = some f →
      ∃ samples, phcSamples precise offsets = some samples ∧
        8 ≤ samples.length ∧
          Accurate rate offset reach gap samples f := by
  refine ⟨steady.calibrateRealtimePhc_eq_none_iff, ?_⟩
  intro f calibrated
  obtain ⟨samples, collected, fitted⟩ := Option.bind_eq_some_iff.mp calibrated
  exact ⟨samples, collected, fitSamples_length fitted,
    fitSamples_accurate positive (steady.samples_steady collected) fitted⟩

/-- Two brackets, the first of them narrow. -/
def unevenAnswer (i : ℕ) : SysOffset :=
  { nSamples := 2
    ts := fun k =>
      { sec := 0
        nsec := UInt32.ofNat (1000000 * i + 100 * (k * k)) } }

theorem unevenAnswer_toNs {i k : ℕ} (made : i < calSamples) (few : k ≤ 4) :
    ((unevenAnswer i).ts k).toNs =
      ((1000000 * i + 100 * (k * k) : ℕ) : ℚ) := by
  have square : k * k ≤ 4 * 4 := Nat.mul_le_mul few few
  unfold calSamples at made
  have small : 1000000 * i + 100 * (k * k) < 2 ^ 32 := by omega
  unfold PtpClockTime.toNs
  change ((0 : ℤ) : ℚ) * _ + ((UInt32.ofNat _).toNat : ℚ) = _
  rw [UInt32.toNat_ofNat_of_lt' small, Int.cast_zero, zero_mul, zero_add]

theorem unevenAnswer_mono {i k l : ℕ} (made : i < calSamples) (few : l ≤ 4)
    (ordered : k ≤ l) :
    ((unevenAnswer i).ts k).toNs ≤ ((unevenAnswer i).ts l).toNs := by
  have square : k * k ≤ l * l := Nat.mul_le_mul ordered ordered
  rw [unevenAnswer_toNs made few, unevenAnswer_toNs made (ordered.trans few)]
  exact_mod_cast (by omega)

theorem unevenAnswer_steady :
    SteadyDevice 1 0 200 900000 (fun _ => none)
      (fun i => some (unevenAnswer i)) := by
  constructor
  · intro i _ answer impossible
    cases impossible
  · intro i j _ _ before after impossible
    cases impossible
  · intro i made answer answered j counted
    obtain rfl := Option.some.inj answered
    change j < 2 at counted
    refine ⟨((unevenAnswer i).ts (2 * j + 1)).toNs,
      unevenAnswer_mono made (by omega) (by omega),
      unevenAnswer_mono made (by omega) (by omega), ?_⟩
    rw [one_mul, add_zero]
  · intro i made answer answered
    obtain rfl := Option.some.inj answered
    have width : (unevenAnswer i).gap 0 = 400 := by
      unfold SysOffset.gap
      rw [unevenAnswer_toNs made (by decide),
        unevenAnswer_toNs made (by decide)]
      push_cast
      ring
    refine ⟨0, Nat.zero_lt_two, ?_, ?_⟩
    · rw [width]
      norm_num
    · rw [width]
      norm_num
  · intro i j later made before after first second k kIn l lIn
    obtain rfl := Option.some.inj first
    obtain rfl := Option.some.inj second
    change k ≤ 2 at kIn
    change l ≤ 2 at lIn
    have square : (2 * k) * (2 * k) ≤ 4 * 4 :=
      Nat.mul_le_mul (by omega) (by omega)
    rw [unevenAnswer_toNs (later.trans made) (by omega),
      unevenAnswer_toNs made (by omega)]
    exact_mod_cast (by omega)

theorem unevenAnswer_fitted :
    calibrateRealtimePhc (fun _ => none)
      (fun i => some (unevenAnswer i)) ≠ none := by
  rw [Ne, unevenAnswer_steady.calibrateRealtimePhc_eq_none_iff]
  rintro ⟨_, i, _, impossible⟩
  cases impossible

theorem calibrateRealtimePhc_accurate_uneven :
    ∃ f samples,
      calibrateRealtimePhc (fun _ => none)
          (fun i => some (unevenAnswer i)) = some f ∧
        Accurate 1 0 200 900000 samples f := by
  obtain ⟨f, fitted⟩ := Option.ne_none_iff_exists'.mp unevenAnswer_fitted
  obtain ⟨samples, _, _, near⟩ :=
    (calibrateRealtimePhc_accurate (by norm_num) unevenAnswer_steady).2 f
      fitted
  exact ⟨f, samples, fitted, near⟩

end Loopback

end Waler
