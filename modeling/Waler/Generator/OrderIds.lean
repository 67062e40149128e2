/-
The order ids of the generator, across the wrap of its counter.

An observer's ledger follows what each build does to the pool: the id of every
order that is stored is noted, and every slot keeps the number of the id that
stands there.  The ids run through `1..2^32 - 1` in turn, so only an order that
outlives that many others can be met by its own id again.
-/

import Waler.Foundation.IssueLedger
import Waler.Generator.PriceRange

namespace Waler

open MarketData

namespace PacketGenerator

open IssueLedger (InTurn)

/-! ### Following the builds -/

/-- Zero is skipped. -/
def idPeriod : ℕ := 2 ^ 32 - 1

abbrev OrderLedger := IssueLedger UInt32

/-- The order that stands right behind what a pool held before. -/
def entered? (before after : Pool) : Option RestingOrder :=
  if grown : before.count < after.count then
    some (after.get ⟨before.count, grown⟩)
  else none

theorem entered?_push (pool : Pool) (room : pool.count < restingPool)
    (order : RestingOrder) : entered? pool (pool.push room order) =
      some order := by
  have grown : pool.count < (pool.push room order).count :=
    Nat.lt_succ_self _
  unfold entered?
  rw [dif_pos grown, SwapPool.get_push, dif_neg (Nat.lt_irrefl _)]

theorem entered?_self (pool : Pool) : entered? pool pool = none :=
  dif_neg (Nat.lt_irrefl _)

/-- The id of the order that an add has stored. -/
def storedId? (generator : PacketGenerator) (draw : Draw) (capacity : ℕ) :
    Option UInt32 :=
  (entered? generator.resting
    (generator.buildAddOrder draw capacity).2.resting).map
      RestingOrder.orderId

/-- The ledger after one build, whether its packet fits or not. -/
def follow (generator : PacketGenerator) (draw : Draw) (capacity : ℕ)
    (ledger : OrderLedger) : OrderLedger :=
  match draw.event with
  | .addOrder =>
      (generator.storedId? draw capacity).elim ledger
        (ledger.take generator.resting.count)
  | .cancelOrder =>
      if nonempty : 0 < generator.resting.count then
        ledger.copy (generator.resting.count - 1)
          (generator.drawnIndex draw nonempty).val
      else ledger
  | .execute =>
      match bestOf generator.resting (sideOf draw) with
      | (_, none) => ledger
      | (_, some bestIdx) =>
          if randQty draw ≥ (generator.resting.get bestIdx).quantity then
            ledger.copy (generator.resting.count - 1) bestIdx.val
          else ledger
  | .quote => ledger

/-- The ledger after the attempts of one call: they end with the first packet
that is written. -/
def followAttempts (capacity : ℕ) :
    List Draw → PacketGenerator → OrderLedger → OrderLedger
  | [], _, ledger => ledger
  | draw :: rest, generator, ledger =>
      match generator.build draw capacity with
      | (some _, _) => generator.follow draw capacity ledger
      | (none, built) =>
          followAttempts capacity rest built
            (generator.follow draw capacity ledger)

theorem storedId?_eq (generator : PacketGenerator) (draw : Draw)
    (capacity : ℕ) :
    generator.storedId? draw capacity =
      if generator.resting.count < restingPool then
        some generator.nextOrderId
      else none := by
  unfold storedId? buildAddOrder
  by_cases room : generator.resting.count < restingPool
  · rw [if_pos room, dif_pos room]
    dsimp only
    rw [entered?_push]
    rfl
  · rw [if_neg room, dif_neg room]
    dsimp only
    rw [entered?_self]
    rfl

theorem follow_addOrder {generator : PacketGenerator} {draw : Draw}
    (adds : draw.event = .addOrder) (capacity : ℕ) (ledger : OrderLedger) :
    generator.follow draw capacity ledger =
      if generator.resting.count < restingPool then
        ledger.take generator.resting.count generator.nextOrderId
      else ledger := by
  unfold follow
  rw [adds]
  dsimp only
  rw [storedId?_eq]
  split <;> rfl

/-- The id noted for an AddOrder packet is the one the packet announces. -/
theorem follow_announced {generator : PacketGenerator} {draw : Draw}
    {capacity : ℕ} {packet : List UInt8} {message : AddOrderMessage}
    (built : (generator.build draw capacity).1 = some packet)
    (read : packetMessage? packet = some (.addOrder message))
    (ledger : OrderLedger) :
    (generator.follow draw capacity ledger).taken =
      ledger.taken ++ [message.orderId] := by
  have adds : draw.event = .addOrder := event_of_read built read
  unfold build at built
  rw [adds] at built
  rw [read_of_buildAddOrder built] at read
  cases read
  rw [follow_addOrder adds, if_pos (room_of_buildAddOrder built)]
  rfl

theorem attemptLoop_announced {capacity : ℕ} {draws : List Draw}
    {generator : PacketGenerator} {packet : List UInt8}
    {message : AddOrderMessage}
    (wrote : (attemptLoop capacity draws generator).1 = some packet)
    (read : packetMessage? packet = some (.addOrder message))
    (ledger : OrderLedger) :
    (followAttempts capacity draws generator ledger).taken.getLast? =
      some message.orderId := by
  induction draws generalizing generator ledger with
  | nil => cases wrote
  | cons draw rest ih =>
      unfold attemptLoop at wrote
      unfold followAttempts
      rcases outcome : generator.build draw capacity with ⟨_ | first, built⟩
      · rw [outcome] at wrote
        exact ih wrote _
      · rw [outcome] at wrote
        obtain rfl := Option.some.inj wrote
        dsimp only
        rw [follow_announced (congrArg Prod.fst outcome) read,
          List.getLast?_concat]

/-- An AddOrder packet announces the id that its call took last. -/
theorem nextPacket_announced {generator : PacketGenerator} {draws : CallDraws}
    {capacity : ℕ} {packet : List UInt8} {message : AddOrderMessage}
    (returned : (generator.nextPacket draws capacity).1 = some packet)
    (read : packetMessage? packet = some (.addOrder message))
    (ledger : OrderLedger) :
    (followAttempts capacity draws.attempts.toList (generator.evolved draws)
      ledger).taken.getLast? = some message.orderId := by
  unfold nextPacket at returned
  unfold evolved
  dsimp only at returned
  generalize (if generator.messagesGenerated % 50 = 0 then
    generator.evolveMid draws.midMove else generator) = start at returned ⊢
  rcases loop : attemptLoop capacity draws.attempts.toList start with
    ⟨_ | first, built⟩
  · -- The fallback is a quote.
    rw [loop] at returned
    obtain ⟨quoted, quotes, wrote, _⟩ :=
      built.buildQuote_builds capacity draws.fallbackNowNs
    have announced := (packetMessage?_of_write wrote.tagged
      (wrote.packet.symm.trans returned)).2
    obtain rfl := Option.some.inj (announced.symm.trans read)
    cases quotes
  · rw [loop] at returned
    exact attemptLoop_announced (congrArg Prod.fst loop)
      (Option.some.inj returned ▸ read) ledger

/-! ### What the ledger says of the pool -/

structure Issued (resting : Pool) (nextOrderId : UInt32)
    (ledger : OrderLedger) : Prop where
  inTurn : InTurn idPeriod UInt32.toNat ledger.taken
  next : nextOrderId.toNat = IssueCycle.turn idPeriod ledger.taken.length
  records : ledger.Records RestingOrder.orderId resting
  sized : ∀ slot : Fin resting.count,
    1 ≤ (resting.get slot).quantity.toNat ∧
      (resting.get slot).quantity.toNat ≤ 9900

namespace Issued

variable {resting : Pool} {nextOrderId : UInt32} {ledger : OrderLedger}

theorem add (issued : Issued resting nextOrderId ledger)
    (room : resting.count < restingPool) {order : RestingOrder}
    (named : order.orderId = nextOrderId)
    (least : 1 ≤ order.quantity.toNat) (most : order.quantity.toNat ≤ 9900) :
    Issued (resting.push room order) (orderIdAfter nextOrderId)
      (ledger.take resting.count nextOrderId) := by
  have length : (ledger.take resting.count nextOrderId).taken.length =
      ledger.taken.length + 1 :=
    List.length_append
  subst named
  refine ⟨issued.inTurn.snoc issued.next, ?_,
    issued.records.push room order, ?_⟩
  · rw [length, IssueCycle.turn_succ (by decide), ← issued.next]
    exact orderIdAfter_toNat _
  · intro slot
    rw [SwapPool.get_push]
    split
    · exact issued.sized _
    · exact ⟨least, most⟩

theorem remove (issued : Issued resting nextOrderId ledger)
    (idx : Fin resting.count) :
    Issued (resting.swapRemove idx) nextOrderId
      (ledger.copy (resting.count - 1) idx.val) := by
  refine ⟨issued.inTurn, issued.next, issued.records.swapRemove idx, ?_⟩
  intro slot
  rw [SwapPool.get_swapRemove]
  exact issued.sized _

theorem reduce (issued : Issued resting nextOrderId ledger)
    (idx : Fin resting.count) {quantity : UInt32}
    (least : 1 ≤ quantity.toNat) (most : quantity.toNat ≤ 9900) :
    Issued (resting.set idx { resting.get idx with quantity := quantity })
      nextOrderId ledger := by
  refine ⟨issued.inTurn, issued.next, issued.records.set idx rfl, ?_⟩
  intro (slot : Fin resting.count)
  rw [resting.get_set idx _ slot]
  split
  · exact ⟨least, most⟩
  · exact issued.sized slot

end Issued

/-! ### One call -/

variable {generator : PacketGenerator} {ledger : OrderLedger}

theorem build_issued
    (issued : Issued generator.resting generator.nextOrderId ledger)
    (draw : Draw) (capacity : ℕ) :
    Issued (generator.build draw capacity).2.resting
      (generator.build draw capacity).2.nextOrderId
      (generator.follow draw capacity ledger) := by
  obtain ⟨least, most⟩ := randQty_bounds draw
  cases event : draw.event with
  | addOrder =>
      rw [follow_addOrder event]
      unfold build
      rw [event]
      by_cases room : generator.resting.count < restingPool
      · simp only [buildAddOrder, dif_pos room, if_pos room]
        exact issued.add room rfl least most
      · simp only [buildAddOrder, dif_neg room, if_neg room]
        exact issued
  | cancelOrder =>
      unfold build follow
      rw [event]
      by_cases nonempty : 0 < generator.resting.count
      · simp only [buildCancelOrder, dif_pos nonempty]
        exact issued.remove _
      · simp only [buildCancelOrder, dif_neg nonempty]
        exact issued
  | execute =>
      unfold build follow
      rw [event]
      rcases best : bestOf generator.resting (sideOf draw) with
        ⟨_, _ | bestIdx⟩
      · simp only [buildExecute, best]
        exact issued
      · simp only [buildExecute, best]
        by_cases covered :
            randQty draw ≥ (generator.resting.get bestIdx).quantity
        · rw [if_pos covered, if_pos covered]
          exact issued.remove bestIdx
        · rw [if_neg covered, if_neg covered]
          have size := issued.sized bestIdx
          have part := UInt32.not_le.mp covered
          have left := UInt32.toNat_sub_of_le _ _ (UInt32.le_of_lt part)
          rw [UInt32.lt_iff_toNat_lt] at part
          exact issued.reduce bestIdx (by omega) (by omega)
  | quote =>
      unfold build follow
      rw [event]
      exact issued

theorem attemptLoop_issued (capacity : ℕ) (draws : List Draw)
    (issued : Issued generator.resting generator.nextOrderId ledger) :
    Issued (attemptLoop capacity draws generator).2.resting
      (attemptLoop capacity draws generator).2.nextOrderId
      (followAttempts capacity draws generator ledger) := by
  induction draws generalizing generator ledger with
  | nil => exact issued
  | cons draw rest ih =>
      have built := build_issued issued draw capacity
      unfold attemptLoop followAttempts
      rcases outcome : generator.build draw capacity with
        ⟨_ | packet, after⟩
      · rw [outcome] at built
        exact ih built
      · rw [outcome] at built
        exact built

theorem nextPacket_state (generator : PacketGenerator) (draws : CallDraws)
    (capacity : ℕ) :
    (generator.nextPacket draws capacity).2 =
      (attemptLoop capacity draws.attempts.toList
        (generator.evolved draws)).2 := by
  unfold nextPacket evolved
  dsimp only
  split <;> rename_i loop <;> rw [loop]

end PacketGenerator

/-! ### Runs -/

open PacketGenerator

/-- The generator and the ledger of its run so far. -/
structure Issuing where
  generator : PacketGenerator
  ledger : OrderLedger

namespace Issuing

open MarketFeed (Call drawing)

def initial (symbolName : List UInt8) : Issuing :=
  { generator := PacketGenerator.initial symbolName
    ledger := .empty }

def step (issuing : Issuing) (call : Call) : Issuing :=
  { generator := issuing.generator.advance call
    ledger := followAttempts call.capacity call.draws.attempts.toList
      (issuing.generator.evolved call.draws) issuing.ledger }

/-- The id in a slot of `resting_[0..resting_count_)`. -/
def orderIdAt (issuing : Issuing)
    (slot : Fin issuing.generator.resting.count) : UInt32 :=
  (issuing.generator.resting.get slot).orderId

/-- What holds of the ids and of the pool after any run. -/
structure Allocated (issuing : Issuing) : Prop where
  inTurn : ∀ number id, issuing.ledger.taken[number]? = some id →
    id.toNat = number % (2 ^ 32 - 1) + 1
  nonzero : 0 ∉ issuing.ledger.taken
  window : ∀ first,
    ((issuing.ledger.taken.drop first).take (2 ^ 32 - 1)).Nodup
  -- The id of the next order.
  next : issuing.generator.nextOrderId.toNat =
    issuing.ledger.taken.length % (2 ^ 32 - 1) + 1
  -- The next AddOrder packet announces the id that its call takes last.
  announced : ∀ (call : Call) packet message,
    (issuing.generator.nextPacket call.draws call.capacity).1 = some packet →
      packetMessage? packet = some (.addOrder message) →
        (issuing.step call).ledger.taken.getLast? = some message.orderId
  -- Every order in the pool has the id of its number, and a number of its own.
  noted : ∀ slot : Fin issuing.generator.resting.count,
    issuing.ledger.taken[issuing.ledger.number slot.val]? =
      some (issuing.orderIdAt slot)
  apart : ∀ first second : Fin issuing.generator.resting.count,
    issuing.ledger.number first.val = issuing.ledger.number second.val →
      first = second
  distinct : (∀ slot : Fin issuing.generator.resting.count,
      issuing.ledger.takenAfter slot.val < 2 ^ 32 - 1) →
    Function.Injective issuing.orderIdAt
  bounded : issuing.generator.resting.count ≤ restingPool
  sized : ∀ slot : Fin issuing.generator.resting.count,
    1 ≤ (issuing.generator.resting.get slot).quantity.toNat ∧
      (issuing.generator.resting.get slot).quantity.toNat ≤ 9900

def Keeps (issuing : Issuing) : Prop :=
  Issued issuing.generator.resting issuing.generator.nextOrderId
    issuing.ledger

theorem initial_keeps (symbolName : List UInt8) :
    (initial symbolName).Keeps := by
  refine ⟨?_, rfl, ⟨fun slot => Fin.elim0 slot, fun slot => Fin.elim0 slot⟩,
    fun slot => Fin.elim0 slot⟩
  intro number id entry
  cases entry

theorem step_keeps {issuing : Issuing} (keeps : issuing.Keeps) (call : Call) :
    (issuing.step call).Keeps := by
  unfold Keeps step advance
  dsimp only
  rw [nextPacket_state]
  apply attemptLoop_issued
  rw [evolved_resting, evolved_nextOrderId]
  exact keeps

theorem Keeps.allocated {issuing : Issuing} (keeps : issuing.Keeps) :
    issuing.Allocated := by
  refine ⟨keeps.inTurn, ?_, keeps.inTurn.nodup_window, keeps.next,
    fun call _ _ returned read =>
      nextPacket_announced returned read issuing.ledger,
    keeps.records.noted, keeps.records.apart,
    keeps.records.injective_of_young keeps.inTurn,
    issuing.generator.resting.count_le, keeps.sized⟩
  intro member
  obtain ⟨number, entry⟩ := List.mem_iff_getElem?.mp member
  have positive := IssueCycle.turn_pos idPeriod number
  rw [← keeps.inTurn number 0 entry] at positive
  exact Nat.lt_irrefl 0 positive

/-- In every run, whatever is drawn and whatever the capacities are, the ids
are taken in turn from `1..2^32 - 1`, and orders of which none is followed by
a whole period of ids have different ids. -/
theorem run_allocated (symbolName : List UInt8) (calls : List Call) :
    (Run.final step (initial symbolName) calls).Allocated :=
  (Run.final_invariant Keeps (fun _ call keeps => step_keeps keeps call)
    (initial symbolName) calls (initial_keeps symbolName)).allocated

/-- Three orders are added; the cancel moves the last one into the first
slot. -/
theorem run_allocated_moved :
    Function.Injective (Run.final step (initial [])
      [drawing .addOrder, drawing .addOrder, drawing .addOrder,
        drawing .cancelOrder]).orderIdAt :=
  (run_allocated [] [drawing .addOrder, drawing .addOrder, drawing .addOrder,
    drawing .cancelOrder]).distinct (by decide +kernel)

/-! ### The counter comes round

A run of adds and cancels takes as many ids as one likes. -/

theorem step_first (issuing : Issuing) (call : Call) {draw : Draw}
    {rest : List Draw} (attempts : call.draws.attempts.toList = draw :: rest)
    (ready : (issuing.generator.evolved call.draws).ready draw = true)
    (fits : 2 + draw.event.structSize ≤ call.capacity) :
    (issuing.step call).generator.resting =
        ((issuing.generator.evolved call.draws).build draw
          call.capacity).2.resting ∧
      (issuing.step call).ledger =
        (issuing.generator.evolved call.draws).follow draw call.capacity
          issuing.ledger := by
  have writes := mt (build_none_iff_of_ready _ draw ready).mp
    (Nat.not_lt_of_le fits)
  unfold step advance
  rw [nextPacket_state, attempts]
  unfold attemptLoop followAttempts
  rcases outcome : (issuing.generator.evolved call.draws).build draw
    call.capacity with ⟨_ | packet, built⟩
  · exact absurd (congrArg Prod.fst outcome) writes
  · exact ⟨rfl, rfl⟩

theorem step_add {issuing : Issuing}
    (vacant : issuing.generator.resting.count = 0) :
    (issuing.step (drawing .addOrder)).generator.resting.count = 1 ∧
      (issuing.step (drawing .addOrder)).ledger.taken.length =
        issuing.ledger.taken.length + 1 := by
  have room : (issuing.generator.evolved
      (drawing .addOrder).draws).resting.count < restingPool := by
    rw [evolved_resting, vacant]
    decide
  obtain ⟨pool, followed⟩ := step_first issuing (drawing .addOrder) rfl
    (decide_eq_true room) (by decide)
  rw [pool, followed]
  constructor
  · change (PacketGenerator.buildAddOrder _ _ _).2.resting.count = 1
    simp only [buildAddOrder, dif_pos room]
    change (issuing.generator.evolved _).resting.count + 1 = 1
    rw [evolved_resting, vacant]
  · rw [follow_addOrder rfl, if_pos room]
    exact List.length_append

theorem step_cancel {issuing : Issuing}
    (lone : issuing.generator.resting.count = 1) :
    (issuing.step (drawing .cancelOrder)).generator.resting.count = 0 ∧
      (issuing.step (drawing .cancelOrder)).ledger.taken.length =
        issuing.ledger.taken.length := by
  have nonempty : 0 < (issuing.generator.evolved
      (drawing .cancelOrder).draws).resting.count := by
    rw [evolved_resting, lone]
    decide
  obtain ⟨pool, followed⟩ := step_first issuing (drawing .cancelOrder) rfl
    (decide_eq_true nonempty) (by decide)
  rw [pool, followed]
  constructor
  · change (PacketGenerator.buildCancelOrder _ _ _).2.resting.count = 0
    simp only [buildCancelOrder, dif_pos nonempty]
    change (issuing.generator.evolved _).resting.count - 1 = 0
    rw [evolved_resting, lone]
  · change (dite _ _ _ : OrderLedger).taken.length = _
    rw [dif_pos nonempty]
    rfl

theorem exists_run_taken (symbolName : List UInt8) (number : ℕ) :
    ∃ calls,
      (Run.final step (initial symbolName) calls).ledger.taken.length =
          number ∧
        (Run.final step (initial symbolName) calls).generator.resting.count =
          0 := by
  induction number with
  | zero => exact ⟨[], rfl, rfl⟩
  | succ number ih =>
      obtain ⟨calls, length, vacant⟩ := ih
      obtain ⟨lone, added⟩ := step_add vacant
      obtain ⟨removed, kept⟩ := step_cancel lone
      rw [length] at added
      rw [added] at kept
      refine ⟨calls ++ [drawing .addOrder, drawing .cancelOrder], ?_, ?_⟩
      · rw [Run.final_append, Run.final_cons, Run.final_cons, Run.final_nil]
        exact kept
      · rw [Run.final_append, Run.final_cons, Run.final_cons, Run.final_nil]
        exact removed

end Issuing

end Waler
