/-
The prices of generated orders, and the mid prices that keep them in range.

A price lies one to twenty ticks from the mid, on the side of its order.  The
mid itself walks, and is kept at one tick or more: near that floor a bid
reaches zero and below, where the conversion to 32 bits wraps.  What matters
is the room that each order finds between the mid and the end of the range.
-/

import Mathlib.Algebra.Order.Floor.Ring
import Mathlib.Data.Rat.Floor
import Mathlib.Tactic.Linarith
import Mathlib.Tactic.Ring
import Waler.Generator.Lockstep

namespace Waler

open MarketData

namespace PacketGenerator

/-! ### The order of one draw -/

theorem room_of_buildAddOrder {generator : PacketGenerator} {draw : Draw}
    {capacity : ℕ} {packet : List UInt8}
    (built : (generator.buildAddOrder draw capacity).1 = some packet) :
    generator.resting.count < restingPool := by
  by_contra full
  unfold buildAddOrder at built
  rw [dif_neg full] at built
  cases built

theorem read_of_buildAddOrder {generator : PacketGenerator} {draw : Draw}
    {capacity : ℕ} {packet : List UInt8}
    (built : (generator.buildAddOrder draw capacity).1 = some packet) :
    packetMessage? packet = some (.addOrder (generator.addedOrder draw)) := by
  rw [generator.buildAddOrder_packet draw capacity
    (room_of_buildAddOrder built)] at built
  have tagged : (Message.addOrder (generator.addedOrder draw)).Tagged := rfl
  exact (packetMessage?_of_write tagged built).2

/-! ### Prices in range -/

open MarketFeed (Call)

/-- The price of an AddOrder is the one computed, on its side of the mid. -/
structure PriceInRange (midPrice : ℤ) (draw : Draw)
    (message : AddOrderMessage) : Prop where
  unwrapped : (message.price.toNat : ℤ) =
    signedPrice midPrice message.side draw
  bid : message.side = 'B'.toUInt8 →
    1 ≤ signedPrice midPrice message.side draw ∧
      signedPrice midPrice message.side draw ≤ midPrice - tickSize
  ask : message.side = 'S'.toUInt8 →
    midPrice + tickSize ≤ signedPrice midPrice message.side draw ∧
      signedPrice midPrice message.side draw ≤ 2 ^ 31 - 1

/-- The attempts that a call makes, each on the generator it finds. -/
def attempted (capacity : ℕ) :
    List Draw → PacketGenerator → List (PacketGenerator × Draw)
  | [], _ => []
  | draw :: rest, generator =>
      (generator, draw) ::
        match generator.build draw capacity with
        | (some _, _) => []
        | (none, built) => attempted capacity rest built

/-- The attempts of a call, made after the mid has moved. -/
def attemptsOf (generator : PacketGenerator) (call : Call) :
    List (PacketGenerator × Draw) :=
  attempted call.capacity call.draws.attempts.toList
    (generator.evolved call.draws)

/-- Every AddOrder that the call builds has its price in range. -/
def AddsInRange (generator : PacketGenerator) (call : Call) : Prop :=
  ∀ attempt ∈ generator.attemptsOf call, ∀ packet message,
    (attempt.1.build attempt.2 call.capacity).1 = some packet →
      packetMessage? packet = some (.addOrder message) →
        PriceInRange attempt.1.midPrice attempt.2 message

/-- The mid is farther from the end of the range on the order's side than
twenty ticks, or than one tick and the distance drawn. -/
def HasRoom (midPrice : ℤ) (draw : Draw) : Prop :=
  if draw.isBuy then
    (maxBookDepth * tickSize : ℕ) < midPrice ∨
      tickSize < midPrice ∧ draw.distance < midPrice
  else
    midPrice + (maxBookDepth * tickSize : ℕ) ≤ 2 ^ 31 - 1 ∨
      midPrice + tickSize ≤ 2 ^ 31 - 1 ∧
        midPrice + draw.distance ≤ 2 ^ 31 - 1

/-- Every AddOrder attempted while the pool is not full has room. -/
def AddsHaveRoom (generator : PacketGenerator) (call : Call) : Prop :=
  ∀ attempt ∈ generator.attemptsOf call, attempt.2.event = .addOrder →
    attempt.1.resting.count < restingPool →
      HasRoom attempt.1.midPrice attempt.2

/-- If the call moves the mid, the moved mid fits the 32 bits it is converted
to.  The conversion is undefined otherwise. -/
def MoveFits (generator : PacketGenerator) (draws : CallDraws) : Prop :=
  generator.messagesGenerated % 50 = 0 →
    -2 ^ 31 ≤ truncate (generator.midPrice * draws.midMove.factor) ∧
      truncate (generator.midPrice * draws.midMove.factor) < 2 ^ 31

/-- What `evolveMid` keeps of the mid, whatever it is multiplied with. -/
def MidHeld (generator : PacketGenerator) : Prop :=
  (tickSize : ℤ) ≤ generator.midPrice ∧ generator.midPrice ≤ 2 ^ 31 - 1

theorem clampedDistance_bounds (draw : Draw) :
    (tickSize : ℤ) ≤ clampedDistance draw ∧
      clampedDistance draw ≤ (maxBookDepth * tickSize : ℕ) := by
  have ordered : (tickSize : ℤ) ≤ (maxBookDepth * tickSize : ℕ) := by
    decide
  unfold clampedDistance
  omega

theorem signedPrice_bid (midPrice : ℤ) (draw : Draw) :
    signedPrice midPrice 'B'.toUInt8 draw = midPrice - clampedDistance draw :=
  if_pos rfl

theorem signedPrice_ask (midPrice : ℤ) (draw : Draw) :
    signedPrice midPrice 'S'.toUInt8 draw = midPrice + clampedDistance draw :=
  if_neg (by decide)

theorem hasRoom_bid {draw : Draw} (buys : draw.isBuy = true)
    (midPrice : ℤ) :
    HasRoom midPrice draw ↔ clampedDistance draw < midPrice := by
  have tick : (tickSize : ℤ) = 100 := rfl
  have depth : ((maxBookDepth * tickSize : ℕ) : ℤ) = 2000 := rfl
  unfold HasRoom clampedDistance
  rw [if_pos buys, tick, depth]
  omega

theorem hasRoom_ask {draw : Draw} (sells : draw.isBuy = false)
    (midPrice : ℤ) :
    HasRoom midPrice draw ↔
      midPrice + clampedDistance draw ≤ 2 ^ 31 - 1 := by
  have tick : (tickSize : ℤ) = 100 := rfl
  have depth : ((maxBookDepth * tickSize : ℕ) : ℤ) = 2000 := rfl
  unfold HasRoom clampedDistance
  rw [if_neg (by rw [sells]; exact Bool.false_ne_true), tick, depth]
  omega

/-- Twenty ticks are enough on either side. -/
theorem hasRoom_of_clear {midPrice : ℤ}
    (low : (maxBookDepth * tickSize : ℕ) < midPrice)
    (high : midPrice + (maxBookDepth * tickSize : ℕ) ≤ 2 ^ 31 - 1)
    (draw : Draw) : HasRoom midPrice draw := by
  unfold HasRoom
  split
  · exact Or.inl low
  · exact Or.inl high

theorem priceInRange_bid {generator : PacketGenerator}
    (held : generator.MidHeld) {draw : Draw} (buys : draw.isBuy = true) :
    PriceInRange generator.midPrice draw (generator.addedOrder draw) ↔
      clampedDistance draw < generator.midPrice := by
  obtain ⟨least, _⟩ := clampedDistance_bounds draw
  have high := held.2
  have side : (generator.addedOrder draw).side = 'B'.toUInt8 := if_pos buys
  have bid := signedPrice_bid generator.midPrice draw
  constructor
  · intro inRange
    have above := (inRange.bid side).1
    rw [side, bid] at above
    omega
  · intro room
    refine ⟨?_, ?_, ?_⟩
    · refine ofInt_toNat ?_ ?_
      all_goals
        rw [show sideOf draw = _ from side, bid]
        omega
    · intro _
      rw [side, bid]
      omega
    · intro other
      exact absurd (side.symm.trans other) (by decide)

theorem priceInRange_ask {generator : PacketGenerator}
    (held : generator.MidHeld) {draw : Draw} (sells : draw.isBuy = false) :
    PriceInRange generator.midPrice draw (generator.addedOrder draw) ↔
      generator.midPrice + clampedDistance draw ≤ 2 ^ 31 - 1 := by
  obtain ⟨least, _⟩ := clampedDistance_bounds draw
  have low := held.1
  have side : (generator.addedOrder draw).side = 'S'.toUInt8 :=
    if_neg (by rw [sells]; exact Bool.false_ne_true)
  have ask := signedPrice_ask generator.midPrice draw
  constructor
  · intro inRange
    have below := (inRange.ask side).2
    rw [side, ask] at below
    exact below
  · intro room
    refine ⟨?_, ?_, ?_⟩
    · refine ofInt_toNat ?_ ?_
      all_goals
        rw [show sideOf draw = _ from side, ask]
        omega
    · intro other
      exact absurd (side.symm.trans other) (by decide)
    · intro _
      rw [side, ask]
      omega

theorem priceInRange_iff {generator : PacketGenerator}
    (held : generator.MidHeld) (draw : Draw) :
    PriceInRange generator.midPrice draw (generator.addedOrder draw) ↔
      HasRoom generator.midPrice draw := by
  cases drawn : draw.isBuy with
  | true => rw [priceInRange_bid held drawn, hasRoom_bid drawn]
  | false => rw [priceInRange_ask held drawn, hasRoom_ask drawn]

/-! ### The attempts of one call -/

theorem attempted_midPrice {capacity : ℕ} {draws : List Draw}
    {generator : PacketGenerator} {attempt : PacketGenerator × Draw}
    (made : attempt ∈ attempted capacity draws generator) :
    attempt.1.midPrice = generator.midPrice := by
  induction draws generalizing generator with
  | nil => cases made
  | cons draw rest ih =>
      have kept := (generator.build_frame draw capacity).1
      unfold attempted at made
      rcases List.mem_cons.mp made with rfl | later
      · rfl
      · rcases outcome : generator.build draw capacity with
          ⟨_ | packet, built⟩
        · rw [outcome] at later kept
          exact (ih later).trans kept
        · rw [outcome] at later
          cases later

/-- What a packet announces is what was drawn. -/
theorem event_of_read {generator : PacketGenerator} {draw : Draw}
    {capacity : ℕ} {packet : List UInt8} {message : Message}
    (built : (generator.build draw capacity).1 = some packet)
    (read : packetMessage? packet = some message) :
    draw.event = message.type := by
  obtain ⟨written, typed, wrote, _⟩ := generator.build_of_ready draw capacity
    (generator.ready_of_build_some draw built)
  have announced := (packetMessage?_of_write wrote.tagged
    (wrote.packet.symm.trans built)).2
  rw [← typed, Option.some.inj (announced.symm.trans read)]

theorem attempt_inRange_iff {generator : PacketGenerator}
    (held : generator.MidHeld) (draw : Draw) {capacity : ℕ}
    (roomy : 32 ≤ capacity) :
    (∀ packet message, (generator.build draw capacity).1 = some packet →
      packetMessage? packet = some (.addOrder message) →
        PriceInRange generator.midPrice draw message) ↔
      (draw.event = .addOrder → generator.resting.count < restingPool →
        HasRoom generator.midPrice draw) := by
  constructor
  · intro inRange adds room
    obtain ⟨packet, written⟩ := (Message.addOrder
      (generator.addedOrder draw)).write_isSome
        (show 2 + MessageType.addOrder.structSize ≤ capacity from roomy)
    rw [← generator.buildAddOrder_packet _ _ room] at written
    apply (priceInRange_iff held draw).mp
    refine inRange packet _ ?_ (read_of_buildAddOrder written)
    unfold build
    rw [adds]
    exact written
  · intro room packet message built read
    have adds : draw.event = .addOrder := event_of_read built read
    unfold build at built
    rw [adds] at built
    rw [read_of_buildAddOrder built] at read
    cases read
    exact (priceInRange_iff held draw).mpr
      (room adds (room_of_buildAddOrder built))

/-- Every AddOrder of a call is priced in range exactly when each has room on
its side of the mid. -/
theorem addsInRange_iff {generator : PacketGenerator} {call : Call}
    (held : (generator.evolved call.draws).MidHeld)
    (roomy : 32 ≤ call.capacity) :
    generator.AddsInRange call ↔ generator.AddsHaveRoom call := by
  have each : ∀ attempt ∈ generator.attemptsOf call, attempt.1.MidHeld := by
    intro attempt made
    unfold MidHeld
    rw [attempted_midPrice made]
    exact held
  constructor
  · intro inRange attempt made
    exact (attempt_inRange_iff (each attempt made) attempt.2 roomy).mp
      (inRange attempt made)
  · intro room attempt made
    exact (attempt_inRange_iff (each attempt made) attempt.2 roomy).mpr
      (room attempt made)

/-! ### The walk of the mid -/

theorem toInt32_bounds (value : ℤ) (undefined : Int32) :
    -2 ^ 31 ≤ toInt32 value undefined ∧ toInt32 value undefined < 2 ^ 31 := by
  have low := undefined.le_toInt
  have high := undefined.toInt_lt
  unfold toInt32
  split
  · assumption
  · exact ⟨low, high⟩

theorem evolveMid_held (generator : PacketGenerator) (midMove : MidMove) :
    (generator.evolveMid midMove).MidHeld := by
  have tick : (tickSize : ℤ) = 100 := rfl
  have bounds := toInt32_bounds
    (truncate (generator.midPrice * midMove.factor)) midMove.undefined
  unfold MidHeld evolveMid
  dsimp only
  split <;> omega

theorem evolved_held {generator : PacketGenerator}
    (held : generator.MidHeld) (draws : CallDraws) :
    (generator.evolved draws).MidHeld := by
  unfold evolved
  split
  · exact generator.evolveMid_held draws.midMove
  · exact held

theorem evolveMid_midPrice (generator : PacketGenerator) (midMove : MidMove)
    (fits : -2 ^ 31 ≤ truncate (generator.midPrice * midMove.factor) ∧
      truncate (generator.midPrice * midMove.factor) < 2 ^ 31) :
    (generator.evolveMid midMove).midPrice =
      max (tickSize : ℤ) (truncate (generator.midPrice * midMove.factor)) := by
  unfold evolveMid toInt32
  rw [if_pos fits]
  dsimp only
  split <;> omega

theorem floor_mul_ratio (midPrice numerator : ℤ) :
    ⌊(midPrice : ℚ) * (numerator / 10000)⌋ = midPrice * numerator / 10000 := by
  have ratio : (midPrice : ℚ) * (numerator / 10000) =
      ((midPrice * numerator : ℤ) : ℚ) / ((10000 : ℕ) : ℚ) := by
    push_cast
    ring
  rw [ratio, Rat.floor_intCast_div_natCast]
  rfl

/-- The factors that `exp(vol * normRand())` is read as. -/
def MoveBounded (midMove : MidMove) : Prop :=
  9983 / 10000 ≤ midMove.factor ∧ midMove.factor ≤ 10017 / 10000

theorem truncate_bounds {midPrice : ℤ} (positive : 0 ≤ midPrice)
    {midMove : MidMove} (bounded : MoveBounded midMove) :
    midPrice * 9983 / 10000 ≤ truncate (midPrice * midMove.factor) ∧
      truncate (midPrice * midMove.factor) ≤ midPrice * 10017 / 10000 := by
  obtain ⟨low, high⟩ := bounded
  have nonneg : (0 : ℚ) ≤ midPrice := by
    exact_mod_cast positive
  have product : 0 ≤ midPrice * midMove.factor :=
    mul_nonneg nonneg (by linarith)
  have least := Int.floor_le_floor (mul_le_mul_of_nonneg_left low nonneg)
  have most := Int.floor_le_floor (mul_le_mul_of_nonneg_left high nonneg)
  have lowEq := floor_mul_ratio midPrice 9983
  have highEq := floor_mul_ratio midPrice 10017
  push_cast at lowEq highEq
  rw [lowEq] at least
  rw [highEq] at most
  unfold truncate
  rw [if_pos product]
  exact ⟨least, most⟩

/-- The mid after one move by the factor `numerator / 10000`. -/
def drift (numerator midPrice : ℤ) : ℤ :=
  max tickSize (midPrice * numerator / 10000)

theorem drift_mono {numerator : ℤ} (positive : 0 ≤ numerator) {low high : ℤ}
    (ordered : low ≤ high) : drift numerator low ≤ drift numerator high :=
  max_le_max (le_refl _) (Int.ediv_le_ediv (by omega)
    (mul_le_mul_of_nonneg_right ordered positive))

/-- A bounded move of a mid far from the end of the range. -/
theorem evolveMid_bounds (generator : PacketGenerator) {midMove : MidMove}
    (bounded : MoveBounded midMove) (positive : 0 ≤ generator.midPrice)
    (low : drift 10017 generator.midPrice < 2 ^ 31) :
    (-2 ^ 31 ≤ truncate (generator.midPrice * midMove.factor) ∧
        truncate (generator.midPrice * midMove.factor) < 2 ^ 31) ∧
      drift 9983 generator.midPrice ≤
        (generator.evolveMid midMove).midPrice ∧
      (generator.evolveMid midMove).midPrice ≤
        drift 10017 generator.midPrice := by
  obtain ⟨least, most⟩ := truncate_bounds positive bounded
  have below : generator.midPrice * 10017 / 10000 < 2 ^ 31 :=
    (le_max_right _ _).trans_lt low
  have fits : -2 ^ 31 ≤ truncate (generator.midPrice * midMove.factor) ∧
      truncate (generator.midPrice * midMove.factor) < 2 ^ 31 := by
    omega
  rw [generator.evolveMid_midPrice midMove fits]
  exact ⟨fits, max_le_max (le_refl _) least, max_le_max (le_refl _) most⟩

/-- A mid price that at most `moves` moves have led to. -/
structure Walked (moves : ℕ) (midPrice : ℤ) : Prop where
  least : (drift 9983)^[moves] initialMidPrice ≤ midPrice
  most : midPrice ≤ (drift 10017)^[moves] initialMidPrice
  ticked : (tickSize : ℤ) ≤ midPrice

theorem tickSize_le_drift (numerator midPrice : ℤ) :
    (tickSize : ℤ) ≤ drift numerator midPrice :=
  le_max_left _ _

theorem Walked.initial : Walked 0 initialMidPrice :=
  ⟨le_refl _, le_refl _, by decide⟩

/-- One move, or none, stays between the two fastest ones. -/
theorem Walked.within {moves : ℕ} {midPrice next : ℤ}
    (walked : Walked moves midPrice) (falls : drift 9983 midPrice ≤ next)
    (rises : next ≤ drift 10017 midPrice) : Walked (moves + 1) next := by
  have least := drift_mono (Int.natCast_nonneg 9983) walked.least
  have most := drift_mono (Int.natCast_nonneg 10017) walked.most
  refine ⟨?_, ?_, (tickSize_le_drift 9983 midPrice).trans falls⟩
  · rw [Function.iterate_succ_apply']
    exact least.trans falls
  · rw [Function.iterate_succ_apply']
    exact rises.trans most

theorem Walked.stay {moves : ℕ} {midPrice : ℤ}
    (walked : Walked moves midPrice) : Walked (moves + 1) midPrice := by
  have ticked := walked.ticked
  have tick : (tickSize : ℤ) = 100 := rfl
  refine walked.within ?_ ?_
  · unfold drift
    omega
  · unfold drift
    omega

theorem Walked.later {moves later : ℕ} {midPrice : ℤ}
    (walked : Walked moves midPrice) (ordered : moves ≤ later) :
    Walked later midPrice := by
  induction ordered with
  | refl => exact walked
  | step _ ih => exact ih.stay

/-! ### How soon the mid can leave its range -/

theorem iterate_1117 {step : ℤ → ℤ} {start first second third last : ℤ}
    (firstEq : step^[300] start = first)
    (secondEq : step^[300] first = second)
    (thirdEq : step^[300] second = third)
    (lastEq : step^[217] third = last) : step^[1117] start = last := by
  rw [show 1117 = 217 + (300 + (300 + 300)) by rfl, Function.iterate_add_apply,
    Function.iterate_add_apply, Function.iterate_add_apply, firstEq, secondEq,
    thirdEq, lastEq]

theorem lowest_mid : (drift 9983)^[1117] initialMidPrice = 2003 :=
  iterate_1117 (show _ = 8886 by decide +kernel)
    (show _ = 5216 by decide +kernel) (show _ = 3013 by decide +kernel)
    (by decide +kernel)

theorem highest_mid : (drift 10017)^[1117] initialMidPrice = 98328 :=
  iterate_1117 (show _ = 24769 by decide +kernel)
    (show _ = 41034 by decide +kernel) (show _ = 68108 by decide +kernel)
    (by decide +kernel)

theorem Walked.drift_le {moves : ℕ} {midPrice : ℤ}
    (walked : Walked moves midPrice) (short : moves < 1117) :
    drift 10017 midPrice ≤ 98328 := by
  have most : drift 10017 midPrice ≤
      drift 10017 ((drift 10017)^[1116] initialMidPrice) :=
    drift_mono (by decide) (walked.later (show moves ≤ 1116 by omega)).most
  rw [← Function.iterate_succ_apply' (drift 10017)] at most
  exact most.trans_eq highest_mid

theorem Walked.evolved {moves : ℕ} {generator : PacketGenerator}
    (walked : Walked moves generator.midPrice) (short : moves < 1117)
    {draws : CallDraws} (bounded : MoveBounded draws.midMove) :
    generator.MoveFits draws ∧
      Walked (moves + 1) (generator.evolved draws).midPrice := by
  have positive : 0 ≤ generator.midPrice :=
    (Int.natCast_nonneg tickSize).trans walked.ticked
  obtain ⟨fits, falls, rises⟩ := generator.evolveMid_bounds bounded positive
    ((walked.drift_le short).trans_lt (by decide))
  refine ⟨fun _ => fits, ?_⟩
  unfold PacketGenerator.evolved
  split
  · exact walked.within falls rises
  · exact walked.stay

/-! ### Runs -/

def advance (generator : PacketGenerator) (call : Call) : PacketGenerator :=
  (generator.nextPacket call.draws call.capacity).2

theorem final_held (symbolName : List UInt8) (calls : List Call) :
    (Run.final advance (initial symbolName) calls).MidHeld := by
  refine Run.final_invariant MidHeld ?_ _ calls ?_
  · intro generator call held
    unfold advance MidHeld
    rw [nextPacket_midPrice]
    exact evolved_held held call.draws
  · change (100 : ℤ) ≤ 15000 ∧ (15000 : ℤ) ≤ 2 ^ 31 - 1
    decide

theorem final_walked (symbolName : List UInt8) (calls : List Call)
    (bounded : ∀ call ∈ calls, MoveBounded call.draws.midMove)
    (short : calls.length ≤ 1117) :
    Walked calls.length
      (Run.final advance (initial symbolName) calls).midPrice := by
  induction calls using List.reverseRecOn with
  | nil => exact Walked.initial
  | append_singleton calls call ih =>
      rw [List.length_append, List.length_singleton] at short ⊢
      have walked := ih (fun other member =>
        bounded other (List.mem_append_left _ member)) (by omega)
      rw [Run.final_append]
      change Walked _ (advance _ call).midPrice
      unfold advance
      rw [nextPacket_midPrice]
      exact (walked.evolved (by omega) (bounded call
        (List.mem_append_right _ List.mem_cons_self))).2

/-- A call of a run of at most 1117 calls, and the mid it moves. -/
theorem addsHaveRoom_of_short (symbolName : List UInt8)
    {before after : List Call} {call : Call}
    (bounded : ∀ other ∈ before ++ call :: after,
      MoveBounded other.draws.midMove)
    (short : (before ++ call :: after).length ≤ 1117) :
    (Run.final advance (initial symbolName) before).MoveFits call.draws ∧
      (Run.final advance (initial symbolName) before).AddsHaveRoom call := by
  rw [List.length_append, List.length_cons] at short
  have earlier := final_walked symbolName before (fun other member =>
    bounded other (List.mem_append_left _ member)) (by omega)
  obtain ⟨fits, walked⟩ := earlier.evolved (by omega) (bounded call
    (List.mem_append_right _ List.mem_cons_self))
  obtain ⟨least, most, _⟩ :=
    walked.later (show before.length + 1 ≤ 1117 by omega)
  rw [lowest_mid] at least
  rw [highest_mid] at most
  have depth : ((maxBookDepth * tickSize : ℕ) : ℤ) = 2000 := rfl
  refine ⟨fits, ?_⟩
  intro attempt made _ _
  have mid := attempted_midPrice made
  exact hasRoom_of_clear (by omega) (by omega) attempt.2

/-- Along a run, with every conversion of the mid defined: every AddOrder that
is built is priced in range exactly when every AddOrder attempted has room on
its side of the mid; and in a run of at most 1117 calls with bounded factors
both hold. -/
theorem run_addsInRange_iff (symbolName : List UInt8) (calls : List Call)
    (roomy : ∀ call ∈ calls, 32 ≤ call.capacity) :
    (Run.Along advance
        (fun generator call =>
          generator.MoveFits call.draws ∧ generator.AddsInRange call)
        (initial symbolName) calls ↔
      Run.Along advance
        (fun generator call =>
          generator.MoveFits call.draws ∧ generator.AddsHaveRoom call)
        (initial symbolName) calls) ∧
    ((∀ call ∈ calls, MoveBounded call.draws.midMove) →
      calls.length ≤ 1117 →
        Run.Along advance
          (fun generator call =>
            generator.MoveFits call.draws ∧ generator.AddsInRange call)
          (initial symbolName) calls) := by
  have each : ∀ before call after, calls = before ++ call :: after →
      ((Run.final advance (initial symbolName) before).AddsInRange call ↔
        (Run.final advance (initial symbolName) before).AddsHaveRoom call) := by
    rintro before call after rfl
    exact addsInRange_iff
      (evolved_held (final_held symbolName before) call.draws)
      (roomy call (List.mem_append_right _ List.mem_cons_self))
  refine ⟨Run.along_congr _ calls ?_, ?_⟩
  · intro before call after split
    exact and_congr_right (fun _ => each before call after split)
  · intro bounded short
    rw [Run.along_iff_forall]
    rintro before call after rfl
    obtain ⟨fits, room⟩ := addsHaveRoom_of_short symbolName bounded short
    exact ⟨fits, (each before call after rfl).mpr room⟩

/-! A run that brings the mid down as fast as it can: with an empty pool every
cancel fails, the fallback quotes are not counted and every call moves the
mid. -/

/-- A draw at the greatest distance from the mid. -/
def farthest (isBuy : Bool) : Draw :=
  { event := .addOrder
    isBuy := isBuy
    index := fun bound => ⟨0, Nat.succ_pos bound⟩
    distance := (maxBookDepth * tickSize : ℕ)
    quantity := 1
    nowNs := 0 }

def lowering (draw : Draw) : Call :=
  { draws :=
      { midMove := { factor := 9983 / 10000, undefined := 0 }
        attempts := Vector.replicate 4 draw
        fallbackNowNs := 8 }
    capacity := 32 }

def cancelling : Draw :=
  { farthest true with event := .cancelOrder }

theorem lowering_bounded (draw : Draw) :
    MoveBounded (lowering draw).draws.midMove := by
  constructor
  · exact le_refl _
  · change (9983 / 10000 : ℚ) ≤ 10017 / 10000
    norm_num

/-- One such call on a fresh generator, and a bid twenty ticks below. -/
theorem run_addsInRange_iff_lowered :
    Run.Along advance
      (fun generator call =>
        generator.MoveFits call.draws ∧ generator.AddsInRange call)
      (initial []) [lowering cancelling, lowering (farthest true)] := by
  refine (run_addsInRange_iff [] _ ?_).2 ?_ (by decide)
  · intro call listed
    rcases List.mem_pair.mp listed with rfl | rfl <;> decide
  · intro call listed
    rcases List.mem_pair.mp listed with rfl | rfl <;>
      exact lowering_bounded _

theorem evolved_lowering {generator : PacketGenerator} (draw : Draw)
    (uncounted : generator.messagesGenerated = 0)
    (positive : 0 ≤ generator.midPrice)
    (below : generator.midPrice ≤ initialMidPrice) :
    (generator.evolved (lowering draw).draws).midPrice =
      drift 9983 generator.midPrice := by
  have start : initialMidPrice = 15000 := rfl
  have lowered := floor_mul_ratio generator.midPrice 9983
  push_cast at lowered
  have nonneg : (0 : ℚ) ≤ generator.midPrice := by
    exact_mod_cast positive
  have moved : truncate (generator.midPrice * (9983 / 10000)) =
      generator.midPrice * 9983 / 10000 := by
    unfold truncate
    rw [if_pos (mul_nonneg nonneg (by norm_num)), lowered]
  unfold evolved
  rw [uncounted, if_pos (show (0 : UInt64) % 50 = 0 by decide)]
  change (generator.evolveMid ⟨9983 / 10000, 0⟩).midPrice = _
  rw [evolveMid_midPrice _ _ (by
    change -2 ^ 31 ≤ truncate (generator.midPrice * (9983 / 10000)) ∧
      truncate (generator.midPrice * (9983 / 10000)) < 2 ^ 31
    omega)]
  change max _ (truncate (generator.midPrice * (9983 / 10000))) = _
  rw [moved]
  rfl

theorem advance_cancelling {generator : PacketGenerator}
    (vacant : generator.resting.count = 0) :
    generator.advance (lowering cancelling) =
      generator.evolved (lowering cancelling).draws := by
  have fit := (generator.evolved (lowering cancelling).draws)
    |>.attemptsFit_of_roomy (show 32 ≤ (lowering cancelling).capacity by decide)
      (lowering cancelling).draws.attempts.toList
  obtain ⟨draw, member, packet, built, outcome, _⟩ | ⟨_, callEq⟩ :=
    generator.nextPacket_cases _ fit
  · have drawn : draw = cancelling := by
      change draw ∈ (Vector.replicate 4 cancelling).toList at member
      rw [Vector.toList_replicate] at member
      exact List.eq_of_mem_replicate member
    have unready : (generator.evolved (lowering cancelling).draws).ready
        cancelling = false := by
      change decide (0 < _) = false
      rw [evolved_resting, vacant]
      rfl
    rw [drawn, build_of_not_ready _ _ _ unready] at outcome
    cases outcome
  · unfold advance
    rw [callEq]

structure Lowered (moves : ℕ) (generator : PacketGenerator) : Prop where
  vacant : generator.resting.count = 0
  uncounted : generator.messagesGenerated = 0
  lowered : generator.midPrice = (drift 9983)^[moves] initialMidPrice
  positive : 0 ≤ generator.midPrice
  below : generator.midPrice ≤ initialMidPrice

theorem Lowered.advance {moves : ℕ} {generator : PacketGenerator}
    (lowered : Lowered moves generator) :
    Lowered (moves + 1) (generator.advance (lowering cancelling)) := by
  have moved := evolved_lowering cancelling lowered.uncounted
    lowered.positive lowered.below
  have fallen : drift 9983 generator.midPrice ≤ initialMidPrice := by
    have positive := lowered.positive
    have below := lowered.below
    have start : initialMidPrice = 15000 := rfl
    have tick : (tickSize : ℤ) = 100 := rfl
    unfold drift
    omega
  rw [advance_cancelling lowered.vacant]
  refine ⟨?_, ?_, ?_, ?_, ?_⟩
  · rw [evolved_resting, lowered.vacant]
  · rw [evolved_messagesGenerated, lowered.uncounted]
  · rw [moved, lowered.lowered, Function.iterate_succ_apply']
  · rw [moved]
    exact (Int.natCast_nonneg tickSize).trans (tickSize_le_drift 9983 _)
  · rw [moved]
    exact fallen

theorem final_cancelling (calls : ℕ) :
    Lowered calls (Run.final PacketGenerator.advance (initial [])
      (List.replicate calls (lowering cancelling))) := by
  induction calls with
  | zero => exact ⟨rfl, rfl, rfl, by decide, le_refl _⟩
  | succ calls ih =>
      rw [List.replicate_succ', Run.final_append]
      exact ih.advance

/-- A mid that moves to 1999, and a bid twenty ticks below it. -/
theorem Lowered.not_addsInRange {generator : PacketGenerator}
    (lowered : Lowered 1117 generator) (held : generator.MidHeld) :
    ¬ generator.AddsInRange (lowering (farthest true)) := by
  intro inRange
  have moved := evolved_lowering (farthest true) lowered.uncounted
    lowered.positive lowered.below
  rw [lowered.lowered, lowest_mid] at moved
  have notFull : (generator.evolved
      (lowering (farthest true)).draws).resting.count < restingPool := by
    rw [evolved_resting, lowered.vacant]
    decide
  have room := (addsInRange_iff (evolved_held held _) (Nat.le_refl 32)).mp
    inRange _ List.mem_cons_self rfl notFull
  rw [hasRoom_bid rfl, moved] at room
  change clampedDistance (farthest true) < drift 9983 2003 at room
  revert room
  decide

/-- After 1117 such calls a bid can have a negative price. -/
theorem not_addsInRange_fallen :
    ¬ ∀ (symbolName : List UInt8) (calls : List Call),
        (∀ call ∈ calls, 32 ≤ call.capacity ∧
          MoveBounded call.draws.midMove) →
        Run.Along advance AddsInRange (initial symbolName) calls := by
  intro claimed
  have along := claimed []
    (List.replicate 1117 (lowering cancelling) ++ [lowering (farthest true)])
    (by
      intro call member
      obtain falling | last := List.mem_append.mp member
      · rw [List.eq_of_mem_replicate falling]
        exact ⟨by decide, lowering_bounded _⟩
      · rw [List.mem_singleton.mp last]
        exact ⟨by decide, lowering_bounded _⟩)
  exact (final_cancelling 1117).not_addsInRange (final_held [] _)
    ((Run.along_iff_forall _ _).mp along _ _ [] rfl)

end PacketGenerator

end Waler
