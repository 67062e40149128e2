/-
The packet counter of the generator and the schedule of its mid price.

The counter decides when the mid moves, and is meant to be the number of
packets returned.  A packet that an attempt wrote is counted, the fallback
quote is not, so the two agree until a call whose four attempts all fail.
-/

import Waler.Generator.Lockstep

namespace Waler

open MarketData

/-- A call of `nextPacket` with room for every packet. -/
structure RoomyCall extends MarketFeed.Call where
  roomy : 32 ≤ capacity

/-- A generator, the number of packets it has returned, and the numbers of the
packets before which it called `evolveMid`. -/
structure PacketCounter where
  generator : PacketGenerator
  returned : ℕ
  moved : List ℕ

namespace PacketCounter

def initial (symbolName : List UInt8) : PacketCounter :=
  { generator := PacketGenerator.initial symbolName
    returned := 0
    moved := [] }

def step (counter : PacketCounter) (call : RoomyCall) : PacketCounter :=
  let outcome := counter.generator.nextPacket call.draws call.capacity
  { generator := outcome.2
    returned := counter.returned + if outcome.1.isSome then 1 else 0
    -- The test that opens `nextPacket`.
    moved :=
      if counter.generator.messagesGenerated % 50 = 0 then
        counter.moved ++ [counter.returned]
      else counter.moved }

/-- Packets are counted, and the mid moved once before every fiftieth. -/
structure Counted (counter : PacketCounter) : Prop where
  counted : counter.generator.messagesGenerated.toNat = counter.returned
  scheduled : counter.moved =
    (List.range counter.returned).filter (fun number => number % 50 = 0)

/-- One of the attempts finds in the pool what it asks for, and the counter
has not reached its last value. -/
def Attempted (counter : PacketCounter) (call : RoomyCall) : Prop :=
  (∃ draw ∈ call.draws.attempts.toList,
    counter.generator.ready draw = true) ∧
    counter.returned + 1 < 2 ^ 64

/-- The call moves the mid exactly when the packet it makes is due. -/
def MovesOnSchedule (counter : PacketCounter) (call : RoomyCall) : Prop :=
  (counter.step call).generator.midPrice =
    if counter.returned % 50 = 0 then
      (counter.generator.evolveMid call.draws.midMove).midPrice
    else counter.generator.midPrice

instance (counter : PacketCounter) (call : RoomyCall) :
    Decidable (counter.Attempted call) :=
  inferInstanceAs (Decidable (_ ∧ _))

/-! ### One call -/

theorem evolved_ready (generator : PacketGenerator)
    (draws : PacketGenerator.CallDraws) (draw : PacketGenerator.Draw) :
    (generator.evolved draws).ready draw = generator.ready draw := by
  unfold PacketGenerator.ready
  rw [PacketGenerator.evolved_resting]

theorem build_isSome_iff (generator : PacketGenerator)
    (draw : PacketGenerator.Draw) {capacity : ℕ} (roomy : 32 ≤ capacity) :
    (generator.build draw capacity).1.isSome ↔
      generator.ready draw = true := by
  have size := draw.event.structSize_bounds.2
  cases ready : generator.ready draw with
  | false =>
      rw [generator.build_of_not_ready draw capacity ready]
      exact iff_of_false Bool.false_ne_true Bool.false_ne_true
  | true =>
      have short : (generator.build draw capacity).1 = none ↔
          capacity < 2 + draw.event.structSize :=
        generator.build_none_iff_of_ready draw ready
      rw [Option.isSome_iff_ne_none, Ne, short]
      exact iff_of_true (by omega) rfl

/-- A call returns one packet, and counts it exactly when an attempt was
ready. -/
theorem nextPacket_counts (generator : PacketGenerator) (call : RoomyCall) :
    (generator.nextPacket call.draws call.capacity).1.isSome ∧
      (generator.nextPacket call.draws call.capacity).2.messagesGenerated =
        if ∃ draw ∈ call.draws.attempts.toList, generator.ready draw = true
        then generator.messagesGenerated + 1
        else generator.messagesGenerated := by
  have fit := (generator.evolved call.draws).attemptsFit_of_roomy call.roomy
    call.draws.attempts.toList
  obtain ⟨draw, member, packet, built, outcome, callEq⟩ |
      ⟨allFailed, callEq⟩ := generator.nextPacket_cases call.draws fit
  · have wrote : ((generator.evolved call.draws).build draw
        call.capacity).1.isSome := by
      rw [outcome]
      rfl
    rw [build_isSome_iff _ _ call.roomy, evolved_ready] at wrote
    have kept := ((generator.evolved call.draws).build_frame draw
      call.capacity).2
    rw [outcome, PacketGenerator.evolved_messagesGenerated] at kept
    rw [callEq, if_pos ⟨draw, member, wrote⟩]
    exact ⟨rfl, congrArg (· + 1) kept⟩
  · have unready : ¬ ∃ draw ∈ call.draws.attempts.toList,
        generator.ready draw = true := by
      rintro ⟨draw, member, ready⟩
      rw [← evolved_ready generator call.draws,
        ← build_isSome_iff _ _ call.roomy, allFailed draw member] at ready
      cases ready
    obtain ⟨message, _, wrote, _⟩ :=
      (generator.evolved call.draws).buildQuote_builds call.capacity
        call.draws.fallbackNowNs
    rw [callEq, if_neg unready]
    exact ⟨wrote.isSome call.roomy,
      generator.evolved_messagesGenerated call.draws⟩

theorem step_returned (counter : PacketCounter) (call : RoomyCall) :
    (counter.step call).returned = counter.returned + 1 := by
  have some := (nextPacket_counts counter.generator call).1
  unfold step
  dsimp only
  rw [if_pos some]

theorem moves_iff (count : UInt64) :
    count % 50 = 0 ↔ count.toNat % 50 = 0 := by
  rw [← UInt64.toNat_inj, UInt64.toNat_mod]
  rfl

theorem scheduled_succ (returned : ℕ) :
    (List.range (returned + 1)).filter (fun number => number % 50 = 0) =
      if returned % 50 = 0 then
        (List.range returned).filter (fun number => number % 50 = 0) ++
          [returned]
      else (List.range returned).filter (fun number => number % 50 = 0) := by
  rw [List.range_succ, List.filter_append]
  by_cases scheduled : returned % 50 = 0
  · rw [if_pos scheduled, List.filter_cons_of_pos (by simpa using scheduled)]
    rfl
  · rw [if_neg scheduled, List.filter_cons_of_neg (by simpa using scheduled)]
    exact List.append_nil _

theorem step_counted {counter : PacketCounter} {call : RoomyCall}
    (attempted : counter.Attempted call) (counted : counter.Counted) :
    (counter.step call).Counted := by
  obtain ⟨ready, few⟩ := attempted
  have count := (nextPacket_counts counter.generator call).2
  rw [if_pos ready] at count
  have value := counted.counted
  refine ⟨?_, ?_⟩
  · rw [step_returned]
    change (counter.generator.nextPacket call.draws
      call.capacity).2.messagesGenerated.toNat = _
    rw [count, UInt64.toNat_add, value]
    exact Nat.mod_eq_of_lt few
  · rw [step_returned, scheduled_succ, ← counted.scheduled, ← value]
    unfold step
    dsimp only
    simp only [moves_iff, value]

/-- A call without a ready attempt leaves the counter behind. -/
theorem attempted_of_counted {counter : PacketCounter} {call : RoomyCall}
    (counted : counter.Counted) (next : (counter.step call).Counted) :
    counter.Attempted call := by
  have count := (nextPacket_counts counter.generator call).2
  have value := counted.counted
  have later := next.counted
  rw [step_returned] at later
  change (counter.generator.nextPacket call.draws
    call.capacity).2.messagesGenerated.toNat = _ at later
  have bound := (counter.generator.nextPacket call.draws
    call.capacity).2.messagesGenerated.toNat_lt
  constructor
  · by_contra unready
    rw [count, if_neg unready] at later
    omega
  · rwa [later] at bound

/-! ### Runs -/

theorem counted_exact : Run.Exact step Attempted Counted Counted where
  preserved := fun _ _ attempted counted => step_counted attempted counted
  sound := fun _ counted => counted
  exposed := fun _ _ counted next => attempted_of_counted counted next

theorem initial_counted (symbolName : List UInt8) :
    (initial symbolName).Counted :=
  ⟨rfl, rfl⟩

theorem Counted.movesOnSchedule {counter : PacketCounter}
    (counted : counter.Counted) (call : RoomyCall) :
    counter.MovesOnSchedule call := by
  unfold MovesOnSchedule
  rw [← counted.counted]
  simp only [← moves_iff]
  change (counter.generator.nextPacket call.draws
    call.capacity).2.midPrice = _
  rw [PacketGenerator.nextPacket_midPrice]
  unfold PacketGenerator.evolved
  split <;> rfl

/-- The counter is the number of packets, and the mid moves exactly before
every fiftieth of them, as long as no call has four attempts that all fail. -/
theorem run_counted_iff (symbolName : List UInt8) (calls : List RoomyCall) :
    (Run.Throughout step Counted (initial symbolName) calls ↔
      Run.Along step Attempted (initial symbolName) calls) ∧
    (Run.Along step Attempted (initial symbolName) calls →
      Run.Along step MovesOnSchedule (initial symbolName) calls) := by
  have exact := counted_exact.throughout_iff (initial symbolName) calls
    (initial_counted symbolName)
  refine ⟨exact, ?_⟩
  intro along
  exact Run.along_of_throughout
    (fun _ call counted => counted.movesOnSchedule call)
    (initial symbolName) calls (exact.mpr along)

/-- An order is added, then cancelled. -/
theorem run_counted_iff_cancelled :
    Run.Along step MovesOnSchedule (initial [])
      [{ MarketFeed.drawing .addOrder with roomy := by decide },
        { MarketFeed.drawing .cancelOrder with roomy := by decide }] :=
  (run_counted_iff [] _).2 (by decide +kernel)

/-- Four cancels on the empty pool: the fallback quote goes uncounted. -/
theorem not_counted_fallback :
    ¬ ∀ (symbolName : List UInt8) (calls : List RoomyCall),
        Run.Throughout step Counted (initial symbolName) calls := by
  intro claimed
  let call : RoomyCall :=
    { MarketFeed.drawing .cancelOrder with roomy := by decide }
  have counted : Counted ((initial []).step call) := (claimed [] [call]).2
  have uncounted :
      ((initial []).step call).generator.messagesGenerated.toNat = 0 := by
    decide +kernel
  have value := counted.counted
  rw [uncounted, step_returned] at value
  cases value

end PacketCounter

end Waler
