/-
The samples of a run of `strategyThreadMain`, counted.

Each collector holds as many samples as frames may be measured, and a frame
gives each of them one sample at most.  So no sample is dropped, and the
numbers of samples are in the order in which a frame passes the stages.
-/

import Waler.Strategy.FrameHandler

namespace Waler

open Strategy (warmupIters)

theorem Stats.recordIf_capacity (stats : Stats) (recording : Bool)
    (cycles : UInt64) :
    (stats.recordIf recording cycles).capacity = stats.capacity := by
  unfold recordIf
  cases recording with
  | false => rfl
  | true => rw [if_pos rfl, record_capacity]

theorem Stats.recordIf_length {stats : Stats} {recording : Bool}
    (room : recording = true → stats.samples.length < stats.capacity)
    (cycles : UInt64) :
    (stats.recordIf recording cycles).samples.length =
      stats.samples.length + recording.toNat := by
  unfold recordIf
  cases recording with
  | false => rfl
  | true =>
      rw [if_pos rfl, record_samples cycles (room rfl), List.length_append]
      rfl

namespace FrameStats

/-- How many samples each collector has; not every gap has a timestamp. -/
structure Holds (count gaps applied priced sent : ℕ) (stats : FrameStats) :
    Prop where
  capacities : stats.collectors.map Stats.capacity = List.replicate 5 count
  tscGap : stats.tscGap.samples.length = gaps
  nicGap : stats.nicGap.samples.length ≤ gaps
  bookApply : stats.bookApply.samples.length = applied
  pricingDecision : stats.pricingDecision.samples.length = priced
  send : stats.send.samples.length = sent

theorem Holds.capacity {count gaps applied priced sent : ℕ}
    {stats : FrameStats} (holds : stats.Holds count gaps applied priced sent)
    (stage : Stats) (listed : stage ∈ stats.collectors) :
    stage.capacity = count := by
  have mapped := List.mem_map_of_mem (f := Stats.capacity) listed
  rw [holds.capacities] at mapped
  exact List.eq_of_mem_replicate mapped

end FrameStats

namespace StrategyLocals

/-- Every measured frame has a gap, and what a later stage has counted an
earlier one has too. -/
structure Accounted (count : ℕ) (locals : StrategyLocals) : Prop where
  limit : locals.n ≤ count + warmupIters
  started : locals.havePrev = decide (0 < locals.n)
  stages : ∃ applied priced,
    priced ≤ applied ∧ applied ≤ locals.n - warmupIters ∧
      locals.nRequoted ≤ priced ∧
        locals.stats.Holds count (locals.n - warmupIters) applied priced
          locals.nRequoted

/-- While frames are still measured no collector is full. -/
def HasRoom (count : ℕ) (locals : StrategyLocals) : Prop :=
  warmupIters ≤ locals.n → locals.n < count + warmupIters →
    ∀ stage ∈ locals.stats.collectors, stage.samples.length < stage.capacity

theorem Accounted.hasRoom {count : ℕ} {locals : StrategyLocals}
    (accounted : locals.Accounted count) : locals.HasRoom count := by
  intro measured more stage listed
  obtain ⟨applied, priced, ordered, within, quoted, holds⟩ := accounted.stages
  rw [holds.capacity stage listed]
  have tsc := holds.tscGap
  have nic := holds.nicGap
  have book := holds.bookApply
  have pricing := holds.pricingDecision
  have send := holds.send
  unfold FrameStats.collectors at listed
  simp only [List.mem_cons, List.not_mem_nil, or_false] at listed
  rcases listed with rfl | rfl | rfl | rfl | rfl <;> omega

theorem initial_accounted (endpoints : EfviUdpSender.Endpoints) (count : ℕ)
    (t0Ns : ℚ) : (initial endpoints count t0Ns).Accounted count where
  limit := Nat.zero_le _
  started := rfl
  stages := by
    exact ⟨0, 0, le_refl _, Nat.zero_le _, le_refl _,
      ⟨rfl, (Nat.zero_sub warmupIters).symm, Nat.zero_le _, rfl, rfl, rfl⟩⟩

/-! ### Stages of one visit -/

variable {gTscHz : ℚ} {libm : Libm ℚ} {count gaps applied priced sent : ℕ}

theorem arrive_holds {locals : StrategyLocals}
    (holds : locals.stats.Holds count gaps applied priced sent)
    {recording : Bool} (room : recording = true → gaps < count)
    (started : recording = true → locals.havePrev = true)
    (frame : EfviFrame) :
    (locals.arrive gTscHz recording frame).stats.Holds count
      (gaps + recording.toNat) applied priced sent := by
  have timed : (locals.havePrev && recording) = recording := by
    cases recording with
    | false => exact Bool.and_false _
    | true => rw [started rfl]; rfl
  have tscGap := holds.tscGap
  have nicGap := holds.nicGap
  have tscCapacity := holds.capacity locals.stats.tscGap (by
    simp [FrameStats.collectors])
  have nicCapacity := holds.capacity locals.stats.nicGap (by
    simp [FrameStats.collectors])
  have tscRoom : recording = true →
      locals.stats.tscGap.samples.length < locals.stats.tscGap.capacity :=
    fun measured => by
      have below := room measured
      omega
  have nicRoom : recording = true →
      locals.stats.nicGap.samples.length < locals.stats.nicGap.capacity :=
    fun measured => by
      have below := room measured
      omega
  unfold arrive
  rw [timed]
  dsimp only
  split
  · refine ⟨?_, ?_, ?_, holds.bookApply, holds.pricingDecision, holds.send⟩
    · rw [← holds.capacities]
      simp only [FrameStats.collectors, List.map_cons,
        Stats.recordIf_capacity]
    · dsimp only
      rw [Stats.recordIf_length tscRoom, tscGap]
    · dsimp only
      rw [Stats.recordIf_length nicRoom]
      omega
  · refine ⟨?_, ?_, ?_, holds.bookApply, holds.pricingDecision, holds.send⟩
    · rw [← holds.capacities]
      simp only [FrameStats.collectors, List.map_cons,
        Stats.recordIf_capacity]
    · dsimp only
      rw [Stats.recordIf_length tscRoom, tscGap]
    · dsimp only
      omega

theorem parse_holds {locals : StrategyLocals}
    (holds : locals.stats.Holds count gaps applied priced sent)
    {recording : Bool} (room : recording = true → applied < count)
    (visit : Visit) :
    (locals.parse recording visit).2.stats.Holds count gaps
      (applied + recording.toNat) priced sent := by
  have capacity := holds.capacity locals.stats.bookApply (by
    simp [FrameStats.collectors])
  have bookRoom : recording = true →
      locals.stats.bookApply.samples.length <
        locals.stats.bookApply.capacity :=
    fun measured => by
      rw [holds.bookApply, capacity]
      exact room measured
  refine ⟨?_, holds.tscGap, holds.nicGap, ?_, holds.pricingDecision,
    holds.send⟩
  · rw [← holds.capacities]
    simp only [parse, FrameStats.collectors, List.map_cons,
      Stats.recordIf_capacity]
  · rw [← holds.bookApply]
    exact Stats.recordIf_length bookRoom _

theorem priced_holds (libm : Libm ℚ) {locals : StrategyLocals}
    (holds : locals.stats.Holds count gaps applied priced sent)
    {recording : Bool} (room : recording = true → priced < count)
    (visit : Visit) (observation : RealizedVolEstimator.Observation) :
    (locals.priced libm recording visit observation).stats.Holds count gaps
      applied (priced + recording.toNat) sent := by
  have capacity := holds.capacity locals.stats.pricingDecision (by
    simp [FrameStats.collectors])
  have pricingRoom : recording = true →
      locals.stats.pricingDecision.samples.length <
        locals.stats.pricingDecision.capacity :=
    fun measured => by
      rw [holds.pricingDecision, capacity]
      exact room measured
  refine ⟨?_, holds.tscGap, holds.nicGap, holds.bookApply, ?_, holds.send⟩
  · rw [← holds.capacities]
    simp only [StrategyLocals.priced, FrameStats.collectors, List.map_cons,
      Stats.recordIf_capacity]
  · rw [← holds.pricingDecision]
    exact Stats.recordIf_length pricingRoom _

theorem requote_holds {locals : StrategyLocals}
    (holds : locals.stats.Holds count gaps applied priced sent)
    {recording : Bool} (room : recording = true → sent < count)
    (visit : Visit) (callPrice : ℚ) :
    (locals.requote recording visit callPrice).stats.Holds count gaps applied
        priced (sent + recording.toNat) ∧
      (locals.requote recording visit callPrice).nRequoted =
        locals.nRequoted + recording.toNat := by
  have capacity := holds.capacity locals.stats.send (by
    simp [FrameStats.collectors])
  have sendRoom : recording = true →
      locals.stats.send.samples.length < locals.stats.send.capacity :=
    fun measured => by
      rw [holds.send, capacity]
      exact room measured
  refine ⟨⟨?_, holds.tscGap, holds.nicGap, holds.bookApply,
    holds.pricingDecision, ?_⟩, ?_⟩
  · rw [← holds.capacities]
    simp only [requote, FrameStats.collectors, List.map_cons,
      Stats.recordIf_capacity]
  · rw [← holds.send]
    exact Stats.recordIf_length sendRoom _
  · cases recording <;> rfl

theorem arrive_counted (gTscHz : ℚ) (locals : StrategyLocals)
    (recording : Bool) (frame : EfviFrame) :
    (locals.arrive gTscHz recording frame).n = locals.n + 1 ∧
      (locals.arrive gTscHz recording frame).havePrev = true ∧
        (locals.arrive gTscHz recording frame).nRequoted =
          locals.nRequoted := by
  unfold arrive
  dsimp only
  split <;> exact ⟨rfl, rfl, rfl⟩

/-! ### Runs -/

theorem gaps_after (locals : StrategyLocals) :
    locals.n + 1 - warmupIters =
      locals.n - warmupIters + locals.recording.toNat := by
  unfold recording
  by_cases measured : locals.n + 1 > warmupIters
  · rw [decide_eq_true measured, Bool.toNat_true]
    omega
  · rw [decide_eq_false measured, Bool.toNat_false]
    omega

theorem accounted_of_holds {locals : StrategyLocals} {n : ℕ}
    (counted : locals.n = n + 1) (flagged : locals.havePrev = true)
    (limit : n < count + warmupIters)
    (holds : locals.stats.Holds count (n + 1 - warmupIters) applied priced
      locals.nRequoted)
    (ordered : priced ≤ applied) (within : applied ≤ n + 1 - warmupIters)
    (quoted : locals.nRequoted ≤ priced) : locals.Accounted count where
  limit := by omega
  started := by
    rw [flagged, counted]
    rfl
  stages := by
    rw [counted]
    exact ⟨applied, priced, ordered, within, quoted, holds⟩

theorem handleFrame_accounted {locals : StrategyLocals}
    (accounted : locals.Accounted count) (visit : Visit) :
    (locals.handleFrame gTscHz libm (count + warmupIters) visit).Accounted
      count := by
  by_cases done : count + warmupIters ≤ locals.n
  · rw [handleFrame_of_done done]
    exact accounted
  · have more := not_le.mp done
    obtain ⟨applied, priced, ordered, within, quoted, holds⟩ :=
      accounted.stages
    have gapsEq := locals.gaps_after
    have room : locals.recording = true →
        locals.n - warmupIters < count := by
      intro measured
      have late := of_decide_eq_true measured
      omega
    have started : locals.recording = true → locals.havePrev = true := by
      intro measured
      have late := of_decide_eq_true measured
      rw [accounted.started]
      exact decide_eq_true (by unfold warmupIters at late; omega)
    obtain ⟨counted, flagged, kept⟩ :=
      locals.arrive_counted gTscHz locals.recording visit.frame
    have arrived : (locals.arrive gTscHz locals.recording
        visit.frame).stats.Holds count _ applied priced locals.nRequoted :=
      arrive_holds holds room started visit.frame
    rw [← gapsEq] at arrived
    cases carried : locals.payload? (count + warmupIters) visit with
    | none =>
        rw [handleFrame_of_short more carried]
        rw [← kept] at arrived
        exact accounted_of_holds counted flagged more arrived ordered
          (by omega) (by omega)
    | some payload =>
        have parsed : (locals.parsed gTscHz visit).stats.Holds count _ _
            priced locals.nRequoted :=
          parse_holds arrived
            (fun measured => by have below := room measured; omega) visit
        have parsedN : (locals.parsed gTscHz visit).n = locals.n + 1 := counted
        have parsedFlag : (locals.parsed gTscHz visit).havePrev = true :=
          flagged
        have parsedKept : (locals.parsed gTscHz visit).nRequoted =
            locals.nRequoted := kept
        rw [← parsedKept] at parsed
        rw [(handleFrame_of_payload gTscHz libm carried).1]
        cases observed : locals.observation? gTscHz visit payload with
        | none =>
            rw [Option.elim_none]
            exact accounted_of_holds parsedN parsedFlag more parsed
              (by omega) (by omega) (by omega)
        | some observation =>
            have repriced := priced_holds libm parsed
              (fun measured => by have below := room measured; omega)
              visit observation
            rw [Option.elim_some, reprice_of_observed libm observed]
            dsimp only
            split
            · obtain ⟨sent, sentEq⟩ := requote_holds repriced
                (fun measured => by have below := room measured; omega)
                visit (locals.theo libm observation)
              change _ = (locals.parsed gTscHz visit).nRequoted + _ at sentEq
              rw [← sentEq] at sent
              exact accounted_of_holds parsedN parsedFlag more sent
                (by omega) (by omega) (by omega)
            · exact accounted_of_holds parsedN parsedFlag more repriced
                (by omega) (by omega)
                (show (locals.parsed gTscHz visit).nRequoted ≤ _ by omega)

/-- For every run of frames, whatever the clocks and the NIC say: no frame
beyond the limit is counted, every measured frame has a gap, later stages have
no more samples than earlier ones, the requotes reported are the send times
recorded, and no sample is dropped for want of room. -/
theorem handleFrame_accounted_throughout (gTscHz : ℚ) (libm : Libm ℚ)
    (endpoints : EfviUdpSender.Endpoints) (count : ℕ) (t0Ns : ℚ)
    (visits : List Visit) :
    Run.Throughout (handleFrame gTscHz libm (count + warmupIters))
      (fun locals => locals.Accounted count ∧ locals.HasRoom count)
      (initial endpoints count t0Ns) visits := by
  have free : Run.Along (handleFrame gTscHz libm (count + warmupIters))
      (fun _ _ => True) (initial endpoints count t0Ns) visits :=
    Run.along_of_forall _ visits (fun _ _ _ => trivial)
  refine Run.throughout_of_along (fun locals => locals.Accounted count)
    ?_ ?_ _ visits (initial_accounted endpoints count t0Ns) free
  · intro locals visit _ accounted
    exact handleFrame_accounted accounted visit
  · intro locals accounted
    exact ⟨accounted, accounted.hasRoom⟩

end StrategyLocals

end Waler
