/-
What one call of `nextPacket` does: the message it writes and the change of
the pool that the message announces.

Each builder is inverted once.  With room for the largest packet a call always
writes, so a call is one pool step together with the packet of its message.
-/

import Waler.Generator.TopScan
import Waler.Wire.RoundTrip

namespace Waler

open MarketData

def MarketData.QuoteMessage.side (message : QuoteMessage) :
    BookSide → PriceCents × UInt32
  | .bid => (message.bidPrice, message.bidQty)
  | .ask => (message.askPrice, message.askQty)

namespace PacketGenerator

/-! ### What one call does to the pool -/

def orderIdAfter (oid : UInt32) : UInt32 :=
  if oid + 1 = 0 then 1 else oid + 1

theorem orderIdAfter_toNat (oid : UInt32) :
    (orderIdAfter oid).toNat =
      if oid.toNat = 2 ^ 32 - 1 then 1 else oid.toNat + 1 := by
  have bound := oid.toNat_lt
  have sum : (oid + 1).toNat = (oid.toNat + 1) % 2 ^ 32 :=
    UInt32.toNat_add oid 1
  have wraps : oid + 1 = 0 ↔ oid.toNat = 2 ^ 32 - 1 := by
    rw [← UInt32.toNat_inj, sum]
    change (oid.toNat + 1) % 2 ^ 32 = 0 ↔ oid.toNat = 2 ^ 32 - 1
    omega
  unfold orderIdAfter
  by_cases last : oid.toNat = 2 ^ 32 - 1
  · rw [if_pos last, if_pos (wraps.mpr last)]
    rfl
  · rw [if_neg last, if_neg (mt wraps.mp last), sum]
    exact Nat.mod_eq_of_lt (by omega)

/-- A message and the change of the pool it announces. -/
inductive PoolStep (resting : Pool) (nextOrderId : UInt32) :
    Message → Pool → UInt32 → Prop
  | add (message : AddOrderMessage) (room : resting.count < restingPool)
      (issued : message.orderId = nextOrderId) :
      PoolStep resting nextOrderId (.addOrder message)
        (resting.push room
          { orderId := message.orderId
            price := message.price
            quantity := message.quantity
            side := message.side })
        (orderIdAfter nextOrderId)
  | cancel (message : CancelOrderMessage) (idx : Fin resting.count)
      (named : message.orderId = (resting.get idx).orderId)
      (whole : message.quantity = 0) :
      PoolStep resting nextOrderId (.cancelOrder message)
        (resting.swapRemove idx) nextOrderId
  | executeAll (message : ExecuteMessage) (idx : Fin resting.count)
      (named : message.orderId = (resting.get idx).orderId)
      (whole : message.execQty = (resting.get idx).quantity) :
      PoolStep resting nextOrderId (.execute message)
        (resting.swapRemove idx) nextOrderId
  | executePart (message : ExecuteMessage) (idx : Fin resting.count)
      (named : message.orderId = (resting.get idx).orderId)
      (part : message.execQty < (resting.get idx).quantity) :
      PoolStep resting nextOrderId (.execute message)
        (resting.set idx
          { resting.get idx with
            quantity := (resting.get idx).quantity - message.execQty })
        nextOrderId
  | quote (message : QuoteMessage) :
      PoolStep resting nextOrderId (.quote message) resting nextOrderId

/-- What the fields of a message say about the pool it was drawn from. -/
inductive DrawnFrom (resting : Pool) : Message → Prop
  | addOrder (message : AddOrderMessage)
      (least : 1 ≤ message.quantity.toNat)
      (most : message.quantity.toNat ≤ 9900)
      (sided : ∃ side : BookSide, message.side = side.byte) :
      DrawnFrom resting (.addOrder message)
  | cancelOrder (message : CancelOrderMessage) :
      DrawnFrom resting (.cancelOrder message)
  | execute (message : ExecuteMessage) (side : BookSide)
      (index : Fin resting.count) (drawnQty : ℕ)
      (best : sideScan resting side = (message.execPrice, some index))
      (named : message.orderId = (resting.get index).orderId)
      (positive : 1 ≤ drawnQty)
      (capped : message.execQty.toNat =
        min drawnQty (resting.get index).quantity.toNat) :
      DrawnFrom resting (.execute message)
  | quote (message : QuoteMessage)
      (quoted : ∀ side index, (sideScan resting side).2 = some index →
        message.side side =
          ((sideScan resting side).1, (resting.get index).quantity)) :
      DrawnFrom resting (.quote message)

/-- The outcome of a builder that writes a packet. -/
structure Wrote (generator : PacketGenerator) (capacity : ℕ)
    (outcome : Option (List UInt8) × PacketGenerator) (message : Message) :
    Prop where
  tagged : message.Tagged
  packet : outcome.1 = message.toNetwork.write capacity
  pool : PoolStep generator.resting generator.nextOrderId message
    outcome.2.resting outcome.2.nextOrderId

/-- A builder has built a message of its type. -/
def Builds (generator : PacketGenerator) (capacity : ℕ) (type : MessageType)
    (outcome : Option (List UInt8) × PacketGenerator) : Prop :=
  ∃ message, message.type = type ∧
    Wrote generator capacity outcome message ∧
      DrawnFrom generator.resting message

variable (generator : PacketGenerator) (draw : Draw) (capacity : ℕ)

/-- The order of a draw, as its packet announces it. -/
def addedOrder (generator : PacketGenerator) (draw : Draw) : AddOrderMessage :=
  { header := ⟨MessageType.addOrder.toByte⟩
    timestampNs := draw.nowNs
    orderId := generator.nextOrderId
    side := sideOf draw
    price := randPrice generator.midPrice (sideOf draw) draw
    quantity := randQty draw
    symbol := generator.symbol }

theorem buildAddOrder_packet
    (room : generator.resting.count < restingPool) :
    (generator.buildAddOrder draw capacity).1 =
      (Message.addOrder (generator.addedOrder draw)).toNetwork.write
        capacity := by
  unfold buildAddOrder
  rw [dif_pos room]
  rfl

theorem buildAddOrder_builds
    (room : generator.resting.count < restingPool) :
    Builds generator capacity .addOrder
      (generator.buildAddOrder draw capacity) := by
  obtain ⟨least, most⟩ := randQty_bounds draw
  refine ⟨.addOrder (generator.addedOrder draw), rfl,
    ⟨rfl, generator.buildAddOrder_packet draw capacity room, ?_⟩,
    .addOrder _ least most ⟨drawnSide draw, sideOf_eq draw⟩⟩
  unfold buildAddOrder
  rw [dif_pos room]
  exact .add (generator.addedOrder draw) room rfl

theorem write_cancel_zero (header : MessageHeader) (timestampNs : UInt64)
    (orderId : UInt32) :
    (Message.cancelOrder
      { header := header
        timestampNs := timestampNs
        orderId := orderId
        quantity := 0 }).toNetwork.write capacity =
      writeMessage CancelOrderMessage.layout capacity
        { header := header
          timestampNs := toNetwork64 timestampNs
          orderId := toNetwork32 orderId
          quantity := 0 } := by
  have zero : toNetwork32 0 = 0 := by decide
  simp only [Message.toNetwork, Message.write, zero]

theorem buildCancelOrder_builds (nonempty : 0 < generator.resting.count) :
    Builds generator capacity .cancelOrder
      (generator.buildCancelOrder draw capacity) := by
  let idx := generator.drawnIndex draw nonempty
  unfold buildCancelOrder
  rw [dif_pos nonempty]
  exact ⟨.cancelOrder
    { header := ⟨MessageType.cancelOrder.toByte⟩
      timestampNs := draw.nowNs
      orderId := (generator.resting.get idx).orderId
      quantity := 0 }, rfl,
    ⟨rfl, by rw [write_cancel_zero], .cancel _ idx rfl rfl⟩, .cancelOrder _⟩

theorem buildExecute_builds {bestPrice : PriceCents}
    {bestIdx : Fin generator.resting.count}
    (best : bestOf generator.resting (sideOf draw) =
      (bestPrice, some bestIdx)) :
    Builds generator capacity .execute
      (generator.buildExecute draw capacity) := by
  let order := generator.resting.get bestIdx
  let message : ExecuteMessage :=
    { header := ⟨MessageType.execute.toByte⟩
      timestampNs := draw.nowNs
      orderId := order.orderId
      execQty := if randQty draw ≥ order.quantity then order.quantity
        else randQty draw
      execPrice := bestPrice }
  have whole : randQty draw ≥ order.quantity ↔
      order.quantity.toNat ≤ (randQty draw).toNat := by
    rw [ge_iff_le, UInt32.le_iff_toNat_le]
  refine ⟨.execute message, rfl, ⟨rfl, ?_, ?_⟩, ?_⟩
  · simp only [buildExecute, best]
    rfl
  · simp only [buildExecute, best]
    by_cases covered : randQty draw ≥ order.quantity
    · rw [if_pos covered]
      exact .executeAll message bestIdx rfl (if_pos covered)
    · have qtyEq : message.execQty = randQty draw := if_neg covered
      have part : randQty draw < order.quantity := by
        rw [UInt32.lt_iff_toNat_lt]
        rw [whole] at covered
        omega
      rw [if_neg covered, ← qtyEq]
      exact .executePart message bestIdx rfl (qtyEq ▸ part)
  · rw [sideOf_eq, bestOf_eq] at best
    refine .execute message (drawnSide draw) bestIdx (randQty draw).toNat best
      rfl (randQty_bounds draw).1 ?_
    change (if randQty draw ≥ order.quantity then order.quantity
      else randQty draw).toNat = min (randQty draw).toNat order.quantity.toNat
    split
    · rename_i covered
      rw [whole] at covered
      omega
    · rename_i covered
      rw [whole] at covered
      omega

/-- Where a side has an order to quote, the quote is what its scan found. -/
theorem quoteTop_side (side : BookSide) (index : Fin generator.resting.count)
    (found : (sideScan generator.resting side).2 = some index) :
    generator.quoteTop.side side =
      ((sideScan generator.resting side).1,
        (generator.resting.get index).quantity) := by
  obtain ⟨price, scan⟩ : ∃ price,
      sideScan generator.resting side = (price, some index) :=
    ⟨_, Prod.ext rfl found⟩
  have present := (sideScan_found scan).2.2
  have scanned := scanTop_side generator.resting side
  rw [scan] at scanned ⊢
  change _ = (price, (generator.resting.get index).quantity) at scanned
  rw [← scanned]
  have priceEq : ((scanTop generator.resting).side side).1 = price :=
    congrArg Prod.fst scanned
  unfold quoteTop
  cases side with
  | bid =>
      have quoted : (scanTop generator.resting).bid ≠ 0 :=
        fun absent => present (priceEq.symm.trans absent)
      simp only [if_neg quoted]
      split <;> rfl
  | ask =>
      have quoted : (scanTop generator.resting).ask ≠ 0xffffffff :=
        fun absent => present (priceEq.symm.trans absent)
      by_cases noBid : (scanTop generator.resting).bid = 0
      · simp only [if_pos noBid, if_neg quoted]
        rfl
      · simp only [if_neg noBid, if_neg quoted]

theorem buildQuote_builds (nowNs : UInt64) :
    Builds generator capacity .quote
      (generator.buildQuote nowNs capacity, generator) := by
  refine ⟨.quote
    { header := ⟨MessageType.quote.toByte⟩
      timestampNs := nowNs
      bidPrice := generator.quoteTop.bid
      bidQty := generator.quoteTop.bidQty
      askPrice := generator.quoteTop.ask
      askQty := generator.quoteTop.askQty }, rfl, ⟨rfl, rfl, .quote _⟩,
    .quote _ ?_⟩
  intro side index found
  rw [← generator.quoteTop_side side index found]
  cases side <;> rfl

/-- A builder gives up, before it has edited anything, unless the pool has
what it asks for. -/
def ready (generator : PacketGenerator) (draw : Draw) : Bool :=
  match draw.event with
  | .addOrder => generator.resting.count < restingPool
  | .cancelOrder => 0 < generator.resting.count
  | .execute => (bestOf generator.resting (sideOf draw)).2.isSome
  | .quote => true

theorem build_of_not_ready (unready : generator.ready draw = false) :
    generator.build draw capacity = (none, generator) := by
  unfold ready at unready
  unfold build
  cases event : draw.event with
  | addOrder =>
      rw [event] at unready
      exact dif_neg (of_decide_eq_false unready)
  | cancelOrder =>
      rw [event] at unready
      exact dif_neg (of_decide_eq_false unready)
  | execute =>
      rw [event] at unready
      rcases best : bestOf generator.resting (sideOf draw) with ⟨_, _ | _⟩
      · simp only [buildExecute, best]
      · rw [best] at unready
        cases unready
  | quote =>
      rw [event] at unready
      cases unready

theorem build_of_ready (ready : generator.ready draw = true) :
    Builds generator capacity draw.event (generator.build draw capacity) := by
  unfold PacketGenerator.ready at ready
  unfold build
  cases event : draw.event with
  | addOrder =>
      rw [event] at ready
      exact generator.buildAddOrder_builds draw capacity
        (of_decide_eq_true ready)
  | cancelOrder =>
      rw [event] at ready
      exact generator.buildCancelOrder_builds draw capacity
        (of_decide_eq_true ready)
  | execute =>
      rw [event] at ready
      rcases best : bestOf generator.resting (sideOf draw) with ⟨_, _ | _⟩
      · rw [best] at ready
        cases ready
      · exact generator.buildExecute_builds draw capacity best
  | quote => exact generator.buildQuote_builds capacity draw.nowNs

/-- A builder leaves the mid price and the packet count to its caller. -/
theorem build_frame :
    (generator.build draw capacity).2.midPrice = generator.midPrice ∧
      (generator.build draw capacity).2.messagesGenerated =
        generator.messagesGenerated := by
  unfold build
  cases draw.event with
  | addOrder =>
      dsimp only [buildAddOrder]
      split <;> exact ⟨rfl, rfl⟩
  | cancelOrder =>
      dsimp only [buildCancelOrder]
      split <;> exact ⟨rfl, rfl⟩
  | execute =>
      dsimp only [buildExecute]
      split <;> exact ⟨rfl, rfl⟩
  | quote => exact ⟨rfl, rfl⟩

variable {capacity}

theorem Wrote.isSome {generator : PacketGenerator}
    {outcome : Option (List UInt8) × PacketGenerator} {message : Message}
    (wrote : Wrote generator capacity outcome message)
    (roomy : 32 ≤ capacity) : outcome.1.isSome := by
  have size := message.type.structSize_bounds.2
  obtain ⟨packet, written⟩ := message.write_isSome
    (show 2 + message.type.structSize ≤ capacity by omega)
  rw [wrote.packet, written]
  rfl

/-! ### Attempts that fail -/

theorem ready_of_build_some {packet : List UInt8}
    (built : (generator.build draw capacity).1 = some packet) :
    generator.ready draw = true := by
  cases ready : generator.ready draw with
  | false =>
      rw [generator.build_of_not_ready draw capacity ready] at built
      cases built
  | true => rfl

/-- A builder that is ready fails only for want of capacity. -/
theorem build_none_iff_of_ready (ready : generator.ready draw = true) :
    (generator.build draw capacity).1 = none ↔
      capacity < 2 + draw.event.structSize := by
  obtain ⟨message, typeEq, wrote, _⟩ :=
    generator.build_of_ready draw capacity ready
  rw [wrote.packet, ← typeEq]
  exact message.write_eq_none_iff capacity

/-- The capacity takes the packet of a builder that edits the pool. -/
def FitsEdit (generator : PacketGenerator) (draw : Draw) (capacity : ℕ) :
    Prop :=
  draw.event ≠ .quote → generator.ready draw = true →
    2 + draw.event.structSize ≤ capacity

instance : Decidable (generator.FitsEdit draw capacity) :=
  inferInstanceAs (Decidable (_ → _ → _))

/-- Every attempt a call makes fits: the attempts go on while they write
nothing. -/
def AttemptsFit (generator : PacketGenerator) (capacity : ℕ) :
    List Draw → Prop
  | [] => True
  | draw :: rest =>
      generator.FitsEdit draw capacity ∧
        (¬ (generator.ready draw = true ∧
          2 + draw.event.structSize ≤ capacity) →
            AttemptsFit generator capacity rest)

instance decidableAttemptsFit : (draws : List Draw) →
    Decidable (generator.AttemptsFit capacity draws)
  | [] => isTrue trivial
  | _ :: rest =>
      have := decidableAttemptsFit rest
      inferInstanceAs (Decidable (_ ∧ _))

theorem build_eq_of_none (fits : generator.FitsEdit draw capacity)
    (failed : (generator.build draw capacity).1 = none) :
    generator.build draw capacity = (none, generator) := by
  cases ready : generator.ready draw with
  | false => exact generator.build_of_not_ready draw capacity ready
  | true =>
      have short := (generator.build_none_iff_of_ready draw ready).mp failed
      have quotes : draw.event = .quote := by
        by_contra edits
        have room := fits edits ready
        omega
      unfold build at failed ⊢
      rw [quotes] at failed ⊢
      exact Prod.ext failed rfl

theorem attemptsFit_of_roomy (roomy : 32 ≤ capacity) (draws : List Draw) :
    generator.AttemptsFit capacity draws := by
  induction draws with
  | nil => trivial
  | cons draw rest ih =>
      have size := draw.event.structSize_bounds.2
      exact ⟨fun _ _ => by omega, fun _ => ih⟩

/-- The loop ends with the first attempt that writes, on an unchanged
generator, or leaves the generator unchanged. -/
theorem attemptLoop_cases (draws : List Draw)
    (fit : generator.AttemptsFit capacity draws) :
    (∃ draw ∈ draws, ∃ packet built,
      generator.build draw capacity = (some packet, built) ∧
        attemptLoop capacity draws generator =
          (some packet, { built with
            messagesGenerated := built.messagesGenerated + 1 })) ∨
      ((∀ draw ∈ draws, (generator.build draw capacity).1 = none) ∧
        attemptLoop capacity draws generator = (none, generator)) := by
  induction draws with
  | nil =>
      right
      refine ⟨?_, rfl⟩
      intro draw member
      cases member
  | cons draw rest ih =>
      obtain ⟨fits, restFits⟩ := fit
      unfold attemptLoop
      rcases outcome : generator.build draw capacity with ⟨_ | packet, built⟩
      · have failed : (generator.build draw capacity).1 = none :=
          congrArg Prod.fst outcome
        have unchanged := generator.build_eq_of_none draw fits failed
        obtain rfl : generator = built :=
          congrArg Prod.snd (unchanged.symm.trans outcome)
        have goesOn : ¬ (generator.ready draw = true ∧
            2 + draw.event.structSize ≤ capacity) := by
          rintro ⟨ready, room⟩
          have short := (generator.build_none_iff_of_ready draw ready).mp failed
          omega
        obtain ⟨later, member, wrote⟩ | ⟨allFailed, loopEq⟩ :=
          ih (restFits goesOn)
        · exact Or.inl ⟨later, List.mem_cons_of_mem draw member, wrote⟩
        · refine Or.inr ⟨?_, loopEq⟩
          intro other member
          obtain rfl | later := List.mem_cons.mp member
          · rw [outcome]
          · exact allFailed other later
      · exact Or.inl ⟨draw, List.mem_cons_self, packet, built, outcome, rfl⟩

theorem attemptLoop_midPrice (draws : List Draw) :
    (attemptLoop capacity draws generator).2.midPrice = generator.midPrice := by
  induction draws generalizing generator with
  | nil => rfl
  | cons draw rest ih =>
      have kept := (generator.build_frame draw capacity).1
      unfold attemptLoop
      rcases outcome : generator.build draw capacity with ⟨_ | packet, built⟩
      · rw [outcome] at kept
        exact (ih built).trans kept
      · rw [outcome] at kept
        exact kept

/-- The generator as the attempts of a call find it. -/
def evolved (draws : CallDraws) : PacketGenerator :=
  if generator.messagesGenerated % 50 = 0 then
    generator.evolveMid draws.midMove
  else generator

@[simp] theorem evolved_resting (draws : CallDraws) :
    (generator.evolved draws).resting = generator.resting := by
  unfold evolved
  split <;> rfl

@[simp] theorem evolved_nextOrderId (draws : CallDraws) :
    (generator.evolved draws).nextOrderId = generator.nextOrderId := by
  unfold evolved
  split <;> rfl

/-- A call returns what one attempt writes, counted, or the fallback quote,
which is not counted. -/
theorem nextPacket_cases (draws : CallDraws)
    (fit : (generator.evolved draws).AttemptsFit capacity
      draws.attempts.toList) :
    (∃ draw ∈ draws.attempts.toList, ∃ packet built,
      (generator.evolved draws).build draw capacity = (some packet, built) ∧
        generator.nextPacket draws capacity =
          (some packet, { built with
            messagesGenerated := built.messagesGenerated + 1 })) ∨
      ((∀ draw ∈ draws.attempts.toList,
        ((generator.evolved draws).build draw capacity).1 = none) ∧
        generator.nextPacket draws capacity =
          ((generator.evolved draws).buildQuote draws.fallbackNowNs capacity,
            generator.evolved draws)) := by
  unfold nextPacket evolved
  unfold evolved at fit
  dsimp only
  generalize (if generator.messagesGenerated % 50 = 0 then
    generator.evolveMid draws.midMove else generator) = start at fit ⊢
  obtain ⟨draw, member, packet, built, outcome, loopEq⟩ |
      ⟨allFailed, loopEq⟩ := start.attemptLoop_cases _ fit
  · refine Or.inl ⟨draw, member, packet, built, outcome, ?_⟩
    rw [loopEq]
  · refine Or.inr ⟨allFailed, ?_⟩
    rw [loopEq]

@[simp] theorem evolved_messagesGenerated (draws : CallDraws) :
    (generator.evolved draws).messagesGenerated =
      generator.messagesGenerated := by
  unfold evolved
  split <;> rfl

theorem nextPacket_midPrice (draws : CallDraws) :
    (generator.nextPacket draws capacity).2.midPrice =
      (generator.evolved draws).midPrice := by
  have kept : (attemptLoop capacity draws.attempts.toList
      (generator.evolved draws)).2.midPrice =
        (generator.evolved draws).midPrice :=
    attemptLoop_midPrice (generator.evolved draws) draws.attempts.toList
  unfold nextPacket
  unfold evolved at kept ⊢
  dsimp only
  generalize (if generator.messagesGenerated % 50 = 0 then
    generator.evolveMid draws.midMove else generator) = start at kept ⊢
  rcases loop : attemptLoop capacity draws.attempts.toList start with
    ⟨_ | packet, built⟩
  all_goals
    rw [loop] at kept
    exact kept

/-- Where every attempt fits, a call changes the pool as the message of its
packet says; only a quote can be left unwritten. -/
theorem nextPacket_wrote (draws : CallDraws)
    (fit : (generator.evolved draws).AttemptsFit capacity
      draws.attempts.toList) :
    ∃ message, Wrote generator capacity
      (generator.nextPacket draws capacity) message ∧
        DrawnFrom generator.resting message ∧
          ((generator.nextPacket draws capacity).1 = none →
            message.type = .quote) := by
  -- Moving the mid price leaves all that a pool step speaks about.
  have carried : ∀ {outcome message},
      Wrote (generator.evolved draws) capacity outcome message →
        DrawnFrom (generator.evolved draws).resting message →
          Wrote generator capacity outcome message ∧
            DrawnFrom generator.resting message := by
    intro outcome message wrote drawn
    have pool := wrote.pool
    rw [evolved_resting, evolved_nextOrderId] at pool
    rw [evolved_resting] at drawn
    exact ⟨⟨wrote.tagged, wrote.packet, pool⟩, drawn⟩
  obtain ⟨draw, _, packet, built, outcome, callEq⟩ | ⟨_, callEq⟩ :=
    generator.nextPacket_cases draws fit
  · have ready := (generator.evolved draws).ready_of_build_some draw
      (congrArg Prod.fst outcome)
    obtain ⟨message, _, wrote, drawn⟩ :=
      (generator.evolved draws).build_of_ready draw capacity ready
    rw [outcome] at wrote
    rw [callEq]
    obtain ⟨⟨tagged, written, pool⟩, drawn⟩ := carried wrote drawn
    exact ⟨message, ⟨tagged, written, pool⟩, drawn,
      fun absent => by cases absent⟩
  · obtain ⟨message, quotes, wrote, drawn⟩ :=
      (generator.evolved draws).buildQuote_builds capacity
        draws.fallbackNowNs
    rw [callEq]
    obtain ⟨wrote, drawn⟩ := carried wrote drawn
    exact ⟨message, wrote, drawn, fun _ => quotes⟩

end PacketGenerator

end Waler
