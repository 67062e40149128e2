/-
The generator's pool and the book it feeds, packet by packet.

Applying the message of a pool step to a book with the same resting orders
gives a book with the same resting orders as the new pool.  The ids handed out
are fresh as long as the counter has not wrapped.
-/

import Waler.Foundation.Run
import Waler.Generator.PoolStep

namespace Waler

open MarketData

/-! ### The same orders on both sides -/

namespace SimpleOrderBook

open PacketGenerator (Pool PoolStep orderIdAfter restingPool)

def pooled (orderId : UInt32) (order : RestingOrder) :
    PacketGenerator.RestingOrder :=
  { orderId := orderId
    price := order.price
    quantity := order.quantity
    side := order.side }

/-- The resting orders of a book as the generator's pool would keep them. -/
def pooledOrders (orders : OrderMap) :
    Multiset PacketGenerator.RestingOrder :=
  orders.entries.map (fun entry => pooled entry.1 entry.2)

theorem pooledOrders_insert (orders : OrderMap) (orderId : UInt32)
    (order : RestingOrder) :
    pooledOrders (orders.insert orderId order) =
      pooled orderId order ::ₘ pooledOrders (orders.erase orderId) := by
  unfold pooledOrders
  rw [FiniteMap.entries_insert, Multiset.map_cons]

theorem pooledOrders_of_lookup {orders : OrderMap} {orderId : UInt32}
    {order : RestingOrder} (found : orders.lookup orderId = some order) :
    pooledOrders orders =
      pooled orderId order ::ₘ pooledOrders (orders.erase orderId) := by
  unfold pooledOrders
  rw [FiniteMap.entries_of_lookup found, Multiset.map_cons]

theorem lookup_of_mem_pooledOrders {orders : OrderMap}
    {item : PacketGenerator.RestingOrder}
    (member : item ∈ pooledOrders orders) :
    ∃ order, orders.lookup item.orderId = some order ∧
      pooled item.orderId order = item := by
  obtain ⟨⟨orderId, order⟩, stored, rfl⟩ := Multiset.mem_map.mp member
  exact ⟨order, (FiniteMap.mem_entries_iff orders orderId order).mp stored,
    rfl⟩

/-- The book's resting orders are the pool's live entries; the ids handed out
so far are `1..issued`, so a next id is fresh as long as the counter has not
wrapped. -/
structure Lockstep (issued : ℕ) (resting : Pool) (nextOrderId : UInt32)
    (orders : OrderMap) : Prop where
  same : pooledOrders orders = ↑resting.live
  bounded : ∀ item ∈ resting.live, item.orderId.toNat ≤ issued
  next : issued + 1 < 2 ^ 32 → nextOrderId.toNat = issued + 1

namespace Lockstep

variable {issued : ℕ} {resting : Pool} {nextOrderId : UInt32}
  {orders : OrderMap}

theorem initial (symbolName : List UInt8) :
    Lockstep 0 (PacketGenerator.initial symbolName).resting
      (PacketGenerator.initial symbolName).nextOrderId
      SimpleOrderBook.empty.orders := by
  have vacant : (PacketGenerator.initial symbolName).resting.live = [] :=
    SwapPool.live_fill _
  refine ⟨?_, ?_, fun _ => rfl⟩
  · rw [vacant]
    rfl
  · intro item member
    rw [vacant] at member
    cases member

/-- The order in a slot of the pool rests in the book, and the rest of the
book is the rest of the pool. -/
theorem lookup_slot (lock : Lockstep issued resting nextOrderId orders)
    (idx : Fin resting.count) :
    ∃ order, orders.lookup (resting.get idx).orderId = some order ∧
      pooled (resting.get idx).orderId order = resting.get idx ∧
      pooledOrders (orders.erase (resting.get idx).orderId) =
        ↑(resting.live.eraseIdx idx.val) := by
  have member : resting.get idx ∈ pooledOrders orders := by
    rw [lock.same]
    exact resting.get_mem_live idx
  obtain ⟨order, found, view⟩ := lookup_of_mem_pooledOrders member
  refine ⟨order, found, view, ?_⟩
  have taken := pooledOrders_of_lookup found
  rw [view, lock.same,
    Multiset.coe_eq_coe.mpr (resting.live_perm_cons idx),
    ← Multiset.cons_coe] at taken
  exact ((Multiset.cons_inj_right _).mp taken).symm

theorem fresh (lock : Lockstep issued resting nextOrderId orders)
    (few : issued + 1 < 2 ^ 32) : nextOrderId ∉ orders := by
  intro rests
  obtain ⟨order, found⟩ := Finmap.mem_iff.mp rests
  have member : pooled nextOrderId order ∈ resting.live := by
    rw [← Multiset.mem_coe, ← lock.same, pooledOrders_of_lookup found]
    exact Multiset.mem_cons_self _ _
  have old := lock.bounded _ member
  have new := lock.next few
  change nextOrderId.toNat ≤ issued at old
  omega

theorem add (lock : Lockstep issued resting nextOrderId orders)
    (few : issued + 1 < 2 ^ 32) (room : resting.count < restingPool)
    (order : RestingOrder) :
    Lockstep (issued + 1) (resting.push room (pooled nextOrderId order))
      (orderIdAfter nextOrderId) (orders.insert nextOrderId order) := by
  have new := lock.next few
  refine ⟨?_, ?_, ?_⟩
  · rw [pooledOrders_insert, FiniteMap.erase_of_notMem (lock.fresh few),
      lock.same, SwapPool.live_push, Multiset.cons_coe]
    exact Multiset.coe_eq_coe.mpr (List.perm_append_singleton _ _).symm
  · intro item member
    obtain old | rfl := SwapPool.mem_live_push member
    · have bound := lock.bounded item old
      omega
    · change nextOrderId.toNat ≤ issued + 1
      omega
  · intro more
    rw [PacketGenerator.orderIdAfter_toNat, new, if_neg (by omega)]

theorem remove (lock : Lockstep issued resting nextOrderId orders)
    (idx : Fin resting.count) :
    Lockstep issued (resting.swapRemove idx) nextOrderId
      (orders.erase (resting.get idx).orderId) := by
  obtain ⟨_, _, _, others⟩ := lock.lookup_slot idx
  refine ⟨?_, ?_, lock.next⟩
  · rw [others]
    exact Multiset.coe_eq_coe.mpr (resting.live_swapRemove_perm idx).symm
  · intro item member
    exact lock.bounded item (SwapPool.mem_live_of_swapRemove member)

theorem resize (lock : Lockstep issued resting nextOrderId orders)
    (idx : Fin resting.count) {order : RestingOrder}
    (found : orders.lookup (resting.get idx).orderId = some order)
    (quantity : UInt32) :
    Lockstep issued
      (resting.set idx { resting.get idx with quantity := quantity })
      nextOrderId
      (orders.insert (resting.get idx).orderId
        { order with quantity := quantity }) := by
  obtain ⟨order', found', view, others⟩ := lock.lookup_slot idx
  obtain rfl : order' = order := Option.some.inj (found'.symm.trans found)
  have resized : pooled (resting.get idx).orderId
      { order' with quantity := quantity } =
        { resting.get idx with quantity := quantity } :=
    congrArg (fun item => { item with quantity := quantity }) view
  refine ⟨?_, ?_, lock.next⟩
  · rw [pooledOrders_insert, others, resized, Multiset.cons_coe]
    exact Multiset.coe_eq_coe.mpr (resting.live_set_perm idx _).symm
  · intro item member
    obtain rfl | kept := SwapPool.mem_live_set member
    · have bound := lock.bounded _ (resting.get_mem_live idx)
      exact bound
    · exact lock.bounded item kept

end Lockstep

def added (message : Message) : ℕ :=
  if message.type = .addOrder then 1 else 0

theorem reduceOrder_lockstep_whole {issued : ℕ} {resting : Pool}
    {nextOrderId : UInt32} {book : SimpleOrderBook}
    (lock : Lockstep issued resting nextOrderId book.orders)
    (idx : Fin resting.count) {order : RestingOrder} (reduceQty : UInt32)
    (covered : order.quantity.toNat ≤ reduceQty.toNat) :
    Lockstep issued (resting.swapRemove idx) nextOrderId
      (book.reduceOrder (resting.get idx).orderId order reduceQty).orders := by
  rw [reduceOrder_orders_of_covered book _ order reduceQty covered]
  exact lock.remove idx

/-- A book in lockstep with the pool accepts the message of the next packet
and stays in lockstep. -/
theorem apply_lockstep {issued : ℕ} {resting resting' : Pool}
    {nextOrderId nextOrderId' : UInt32} {book : SimpleOrderBook}
    {message : Message}
    (lock : Lockstep issued resting nextOrderId book.orders)
    (change : PoolStep resting nextOrderId message resting' nextOrderId')
    (few : issued + added message < 2 ^ 32) :
    (book.apply message).1 = true ∧
      Lockstep (issued + added message) resting' nextOrderId'
        (book.apply message).2.orders := by
  cases change with
  | add message room issuedId =>
      refine ⟨rfl, ?_⟩
      have stored := lock.add few room
        { side := message.side
          price := message.price
          quantity := message.quantity
          timestampNs := message.timestampNs }
      change Lockstep (issued + 1) _ _
        ((book.storeOrder message).addToLevels message.side message.price
          message.quantity).orders
      rw [addToLevels_orders, storeOrder_orders, issuedId]
      exact stored
  | cancel message idx named whole =>
      obtain ⟨order, found, view, _⟩ := lock.lookup_slot idx
      have quantityEq : cancelQuantity order message = order.quantity :=
        if_pos whole
      rw [← named] at found
      rw [apply_cancelOrder_of_lookup found, named, quantityEq]
      exact ⟨rfl, reduceOrder_lockstep_whole lock idx _ (Nat.le_refl _)⟩
  | executeAll message idx named whole =>
      obtain ⟨order, found, view, _⟩ := lock.lookup_slot idx
      have quantityEq : message.execQty = order.quantity := by
        rw [whole, ← view]
        rfl
      rw [← named] at found
      rw [apply_execute_of_lookup found, named]
      refine ⟨rfl, reduceOrder_lockstep_whole lock idx _ ?_⟩
      rw [quantityEq]
  | executePart message idx named part =>
      obtain ⟨order, found, view, _⟩ := lock.lookup_slot idx
      have quantityEq : (resting.get idx).quantity = order.quantity := by
        rw [← view]
        rfl
      have resized := lock.resize idx found (order.quantity - message.execQty)
      rw [quantityEq, UInt32.lt_iff_toNat_lt] at part
      rw [← named] at found
      rw [apply_execute_of_lookup found, quantityEq]
      refine ⟨rfl, ?_⟩
      rw [reduceOrder_orders_of_part book _ order _ part, named]
      exact resized
  | quote message => exact ⟨rfl, lock⟩

end SimpleOrderBook

/-! ### Runs -/

/-- A generator and the book that is fed its packets; the AddOrder packets are
counted. -/
structure MarketFeed where
  generator : PacketGenerator
  book : SimpleOrderBook
  ordersAdded : ℕ

namespace MarketFeed

open SimpleOrderBook (Lockstep pooledOrders wireSize)

/-- The arguments of one call of `nextPacket`. -/
structure Call where
  draws : PacketGenerator.CallDraws
  capacity : ℕ

def initial (symbolName : List UInt8) : MarketFeed :=
  { generator := PacketGenerator.initial symbolName
    book := SimpleOrderBook.empty
    ordersAdded := 0 }

def addsOrder (packet : List UInt8) : ℕ :=
  if packet[2]? = some MessageType.addOrder.toByte then 1 else 0

def step (feed : MarketFeed) (call : Call) : MarketFeed :=
  match feed.generator.nextPacket call.draws call.capacity with
  | (none, generator) => { feed with generator := generator }
  | (some packet, generator) =>
      { generator := generator
        book := (feed.book.applyPacket packet).2
        ordersAdded := feed.ordersAdded + addsOrder packet }

/-- What the next call must do: return one complete packet that the book
accepts, after which both sides hold the same orders. -/
structure StaysTogether (feed : MarketFeed) (call : Call)
    (packet : List UInt8) : Prop where
  returned : (feed.generator.nextPacket call.draws call.capacity).1 =
    some packet
  complete : packet.length = 2 + lengthPrefix packet
  typed : ∃ type : MessageType, packet[2]? = some type.toByte ∧
    lengthPrefix packet = wireSize type
  accepted : (feed.book.applyPacket packet).1 = true
  same : pooledOrders (feed.step call).book.orders =
    ↑(feed.step call).generator.resting.live

/-- The two sides agree, unless more ids were handed out than there are. -/
def InLockstep (feed : MarketFeed) : Prop :=
  feed.ordersAdded < 2 ^ 32 →
    Lockstep feed.ordersAdded feed.generator.resting
      feed.generator.nextOrderId feed.book.orders

theorem initial_inLockstep (symbolName : List UInt8) :
    (initial symbolName).InLockstep :=
  fun _ => Lockstep.initial symbolName

theorem addsOrder_eq {packet : List UInt8} {message : Message}
    (read : packetMessage? packet = some message) :
    addsOrder packet = SimpleOrderBook.added message := by
  obtain ⟨typeByte, _, _⟩ := SimpleOrderBook.packetMessage?_fields read
  unfold addsOrder SimpleOrderBook.added
  rw [typeByte]
  cases message.type <;> decide

theorem step_cases (feed : MarketFeed) {call : Call}
    (roomy : 32 ≤ call.capacity) :
    ∃ packet message built,
      feed.generator.nextPacket call.draws call.capacity =
        (some packet, built) ∧
      packet.length = 2 + message.type.structSize ∧
      packetMessage? packet = some message ∧
      PacketGenerator.PoolStep feed.generator.resting
        feed.generator.nextOrderId message built.resting built.nextOrderId ∧
      PacketGenerator.DrawnFrom feed.generator.resting message ∧
      feed.step call =
        { generator := built
          book := (feed.book.apply message).2
          ordersAdded := feed.ordersAdded + SimpleOrderBook.added message } := by
  obtain ⟨message, wrote, drawn, _⟩ :=
    feed.generator.nextPacket_wrote call.draws
      (PacketGenerator.attemptsFit_of_roomy _ roomy _)
  have returned := wrote.isSome roomy
  rcases outcome : feed.generator.nextPacket call.draws call.capacity with
    ⟨_ | packet, built⟩
  · rw [outcome] at returned
    cases returned
  · rw [outcome] at wrote
    obtain ⟨sized, read⟩ :=
      packetMessage?_of_write wrote.tagged wrote.packet.symm
    refine ⟨packet, message, built, rfl, sized, read, wrote.pool, drawn, ?_⟩
    unfold step
    rw [outcome]
    simp only
    rw [SimpleOrderBook.applyPacket_eq, read, addsOrder_eq read]
    rfl

theorem step_inLockstep {feed : MarketFeed} {call : Call}
    (roomy : 32 ≤ call.capacity) (together : feed.InLockstep) :
    (feed.step call).InLockstep := by
  obtain ⟨_, message, built, _, _, _, change, _, stepEq⟩ :=
    feed.step_cases roomy
  rw [stepEq]
  intro few
  change feed.ordersAdded + SimpleOrderBook.added message < 2 ^ 32 at few
  have lock := together (by omega)
  exact (SimpleOrderBook.apply_lockstep lock change few).2

theorem ordersAdded_le_step (feed : MarketFeed) (call : Call) :
    feed.ordersAdded ≤ (feed.step call).ordersAdded := by
  unfold step
  split
  · exact Nat.le_refl _
  · exact Nat.le_add_right _ _

theorem ordersAdded_le_final (feed : MarketFeed) (calls : List Call) :
    feed.ordersAdded ≤ (Run.final step feed calls).ordersAdded :=
  Run.final_invariant (fun later => feed.ordersAdded ≤ later.ordersAdded)
    (fun later call reached =>
      reached.trans (later.ordersAdded_le_step call))
    feed calls (Nat.le_refl _)

theorem ordersAdded_le_length (feed : MarketFeed) (calls : List Call) :
    (Run.final step feed calls).ordersAdded ≤
      feed.ordersAdded + calls.length := by
  induction calls generalizing feed with
  | nil => exact Nat.le_refl _
  | cons call rest ih =>
      have stepLe : (feed.step call).ordersAdded ≤ feed.ordersAdded + 1 := by
        unfold step
        split
        · exact Nat.le_succ _
        · unfold addsOrder
          dsimp only
          split <;> omega
      have restLe := ih (feed.step call)
      rw [Run.final_cons, List.length_cons]
      omega

theorem staysTogether_of_inLockstep {feed : MarketFeed} {call : Call}
    (roomy : 32 ≤ call.capacity) (together : feed.InLockstep)
    (few : (feed.step call).ordersAdded < 2 ^ 32) :
    ∃ packet, feed.StaysTogether call packet := by
  obtain ⟨packet, message, built, outcome, sized, read, change, _, stepEq⟩ :=
    feed.step_cases roomy
  obtain ⟨typeByte, announced, _⟩ :=
    SimpleOrderBook.packetMessage?_fields read
  have lock := together (Nat.lt_of_le_of_lt (feed.ordersAdded_le_step call) few)
  rw [stepEq] at few
  have applied := SimpleOrderBook.apply_lockstep lock change few
  refine ⟨packet, ?_, ?_, ⟨message.type, typeByte, announced⟩, ?_, ?_⟩
  · rw [outcome]
  · rw [sized, announced, SimpleOrderBook.structSize_eq]
  · rw [SimpleOrderBook.applyPacket_eq, read]
    exact applied.1
  · rw [stepEq]
    exact applied.2.same

/-- In every run of calls with 32 bytes of capacity or more that adds fewer
than `2 ^ 32` orders, every call returns a complete packet which the book
accepts, and after each the book rests exactly the orders of the pool. -/
theorem run_staysTogether (symbolName : List UInt8) (calls : List Call)
    (roomy : ∀ call ∈ calls, 32 ≤ call.capacity)
    (few : (Run.final step (initial symbolName) calls).ordersAdded < 2 ^ 32) :
    ∀ earlier call later, calls = earlier ++ call :: later →
      ∃ packet, (Run.final step (initial symbolName) earlier).StaysTogether
        call packet := by
  intro earlier call later split
  subst split
  have together : (Run.final step (initial symbolName) earlier).InLockstep := by
    refine Run.final_invariant_of_along InLockstep
      (fun feed each enough lock => step_inLockstep enough lock)
      (initial symbolName) earlier (initial_inLockstep symbolName) ?_
    refine Run.along_of_forall (initial symbolName) earlier ?_
    intro each member _
    exact roomy each (List.mem_append_left _ member)
  refine staysTogether_of_inLockstep
    (roomy call (List.mem_append_right _ List.mem_cons_self)) together ?_
  rw [Run.final_append, Run.final_cons] at few
  exact Nat.lt_of_le_of_lt (ordersAdded_le_final _ later) few

def drawing (event : MessageType) : Call :=
  { draws :=
      { midMove := { factor := 1, undefined := 0 }
        attempts := Vector.replicate 4
          { event := event
            isBuy := true
            index := fun _ => 0
            distance := 250
            quantity := 40
            nowNs := 7 }
        fallbackNowNs := 8 }
    capacity := 32 }

/-- An order is added, then executed. -/
theorem run_staysTogether_executed :
    ∃ packet, (Run.final step (initial []) [drawing .addOrder]).StaysTogether
      (drawing .execute) packet :=
  run_staysTogether [] [drawing .addOrder, drawing .execute]
    (by decide)
    (Nat.lt_of_le_of_lt (ordersAdded_le_length _ _) (by decide))
    [drawing .addOrder] (drawing .execute) [] rfl

end MarketFeed

end Waler
