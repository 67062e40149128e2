/-
Builds that write nothing: what they leave behind, and what the packets that
are returned say about the pool.

A builder edits the pool before it knows whether its packet fits.  A builder
that gives up at its first check leaves everything as it was; one that is
stopped by the capacity does not.
-/

import Waler.Generator.Lockstep

namespace Waler

open MarketData

namespace PacketGenerator

/-! ### One failed build -/

structure Untouched (generator built : PacketGenerator) : Prop where
  live : built.resting.live = generator.resting.live
  count : built.resting.count = generator.resting.count
  nextOrderId : built.nextOrderId = generator.nextOrderId

def FailsIntact (generator : PacketGenerator) (draw : Draw) (capacity : ℕ) :
    Prop :=
  (generator.build draw capacity).1 = none →
    generator.Untouched (generator.build draw capacity).2

theorem live_set_ne (resting : Pool) (index : Fin resting.count)
    {item : RestingOrder} (changed : item ≠ resting.get index) :
    (resting.set index item).live ≠ resting.live := by
  intro same
  have entry := resting.live_getElem? index
  rw [← same, SwapPool.live_set,
    List.getElem?_set_self (resting.index_lt_live index)] at entry
  exact changed (Option.some.inj entry)

/-- An execution of part of an order leaves it smaller. -/
theorem reduced_ne (order : RestingOrder) (draw : Draw)
    (part : ¬ randQty draw ≥ order.quantity) :
    { order with quantity := order.quantity - randQty draw } ≠ order := by
  intro same
  have least := (randQty_bounds draw).1
  have less := UInt32.not_le.mp part
  have quantity : (order.quantity - randQty draw).toNat =
      order.quantity.toNat :=
    congrArg (fun item : RestingOrder => item.quantity.toNat) same
  rw [UInt32.toNat_sub_of_le _ _ (UInt32.le_of_lt less)] at quantity
  rw [UInt32.lt_iff_toNat_lt] at less
  omega

/-- A builder that is ready edits the pool, whether its packet fits or not. -/
theorem not_untouched_of_ready (generator : PacketGenerator) (draw : Draw)
    (capacity : ℕ) (edits : draw.event ≠ .quote)
    (ready : generator.ready draw = true) :
    ¬ generator.Untouched (generator.build draw capacity).2 := by
  intro same
  unfold PacketGenerator.ready at ready
  unfold build at same
  cases event : draw.event with
  | addOrder =>
      rw [event] at ready same
      simp only [buildAddOrder, dif_pos (of_decide_eq_true ready)] at same
      have grown := same.count
      change generator.resting.count + 1 = generator.resting.count at grown
      omega
  | cancelOrder =>
      rw [event] at ready same
      have nonempty := of_decide_eq_true ready
      simp only [buildCancelOrder, dif_pos nonempty] at same
      have shrunk := same.count
      change generator.resting.count - 1 = generator.resting.count at shrunk
      omega
  | execute =>
      rw [event] at ready same
      rcases best : bestOf generator.resting (sideOf draw) with
        ⟨_, _ | bestIdx⟩
      · rw [best] at ready
        cases ready
      · simp only [buildExecute, best] at same
        by_cases covered :
            randQty draw ≥ (generator.resting.get bestIdx).quantity
        · have shrunk := same.count
          rw [if_pos covered] at shrunk
          change generator.resting.count - 1 = generator.resting.count
            at shrunk
          have inside := bestIdx.isLt
          omega
        · have kept := same.live
          rw [if_neg covered] at kept
          exact live_set_ne _ _ (reduced_ne _ draw covered) kept
  | quote => exact edits event

theorem untouched_of_failed {generator : PacketGenerator} {draw : Draw}
    {capacity : ℕ} (fits : generator.FitsEdit draw capacity) :
    generator.FailsIntact draw capacity := by
  intro failed
  rw [generator.build_eq_of_none draw fits failed]
  exact ⟨rfl, rfl, rfl⟩

/-- A failing build leaves the generator intact exactly when it was not the
capacity that stopped a builder with something to edit. -/
theorem failsIntact_iff (generator : PacketGenerator) (draw : Draw)
    (capacity : ℕ) :
    generator.FailsIntact draw capacity ↔
      generator.FitsEdit draw capacity := by
  constructor
  · intro intact edits ready
    by_contra short
    have failed := (generator.build_none_iff_of_ready draw ready).mpr
      (Nat.lt_of_not_le short)
    exact generator.not_untouched_of_ready draw capacity edits ready
      (intact failed)
  · exact untouched_of_failed

/-! ### What the returned packets say -/

/-- The orders that stand after the packets returned so far: each was added
by an AddOrder packet, and no later packet removed it. -/
inductive Standing : List Message → Multiset RestingOrder → Prop
  | start : Standing [] 0
  | add {returned : List Message} {orders : Multiset RestingOrder}
      (message : AddOrderMessage) (before : Standing returned orders) :
      Standing (returned ++ [.addOrder message])
        ({ orderId := message.orderId
           price := message.price
           quantity := message.quantity
           side := message.side } ::ₘ orders)
  | cancel {returned : List Message} {orders : Multiset RestingOrder}
      (message : CancelOrderMessage) (order : RestingOrder)
      (named : message.orderId = order.orderId)
      (whole : message.quantity = 0)
      (before : Standing returned (order ::ₘ orders)) :
      Standing (returned ++ [.cancelOrder message]) orders
  | executeAll {returned : List Message} {orders : Multiset RestingOrder}
      (message : ExecuteMessage) (order : RestingOrder)
      (named : message.orderId = order.orderId)
      (whole : message.execQty = order.quantity)
      (before : Standing returned (order ::ₘ orders)) :
      Standing (returned ++ [.execute message]) orders
  | executePart {returned : List Message} {orders : Multiset RestingOrder}
      (message : ExecuteMessage) (order : RestingOrder)
      (named : message.orderId = order.orderId)
      (part : message.execQty < order.quantity)
      (before : Standing returned (order ::ₘ orders)) :
      Standing (returned ++ [.execute message])
        ({ order with quantity := order.quantity - message.execQty } ::ₘ
          orders)
  | quote {returned : List Message} {orders : Multiset RestingOrder}
      (message : QuoteMessage) (before : Standing returned orders) :
      Standing (returned ++ [.quote message]) orders

/-- The order that a packet takes quantity from. -/
def reducedOrder? : Message → Option UInt32
  | .cancelOrder message => some message.orderId
  | .execute message => some message.orderId
  | .addOrder _ => none
  | .quote _ => none

def Announced (returned : List Message) (orderId : UInt32) : Prop :=
  ∃ added : AddOrderMessage,
    Message.addOrder added ∈ returned ∧ added.orderId = orderId

/-- No packet reduces an order whose AddOrder was not returned before it. -/
def OnlyAnnounced (returned : List Message) : Prop :=
  ∀ before message after orderId, returned = before ++ message :: after →
    reducedOrder? message = some orderId → Announced before orderId

theorem Announced.append {returned : List Message} {orderId : UInt32}
    (announced : Announced returned orderId) (message : Message) :
    Announced (returned ++ [message]) orderId := by
  obtain ⟨added, member, named⟩ := announced
  exact ⟨added, List.mem_append_left _ member, named⟩

theorem Standing.announced {returned : List Message}
    {orders : Multiset RestingOrder} (standing : Standing returned orders) :
    ∀ order ∈ orders, Announced returned order.orderId := by
  induction standing with
  | start =>
      intro order member
      cases Multiset.notMem_zero order member
  | add message before ih =>
      intro order member
      obtain rfl | old := Multiset.mem_cons.mp member
      · exact ⟨message, List.mem_append_right _ List.mem_cons_self, rfl⟩
      · exact (ih order old).append _
  | cancel message removed named whole before ih =>
      intro order member
      exact (ih order (Multiset.mem_cons_of_mem member)).append _
  | executeAll message removed named whole before ih =>
      intro order member
      exact (ih order (Multiset.mem_cons_of_mem member)).append _
  | executePart message reduced named part before ih =>
      intro order member
      obtain rfl | old := Multiset.mem_cons.mp member
      · exact (ih reduced (Multiset.mem_cons_self _ _)).append _
      · exact (ih order (Multiset.mem_cons_of_mem old)).append _
  | quote message before ih =>
      intro order member
      exact (ih order member).append _

theorem OnlyAnnounced.append {returned : List Message}
    (only : OnlyAnnounced returned) {last : Message}
    (named : ∀ orderId, reducedOrder? last = some orderId →
      Announced returned orderId) :
    OnlyAnnounced (returned ++ [last]) := by
  intro before message after orderId split reduces
  obtain rfl | ⟨rest, final, rfl⟩ := List.eq_nil_or_concat' after
  · obtain ⟨rfl, same⟩ := List.append_inj' split rfl
    obtain rfl : last = message := List.cons.inj same |>.1
    exact named orderId reduces
  · rw [← List.cons_append, ← List.append_assoc] at split
    obtain ⟨earlier, _⟩ := List.append_inj' split rfl
    exact only before message rest orderId earlier reduces

theorem Standing.onlyAnnounced {returned : List Message}
    {orders : Multiset RestingOrder} (standing : Standing returned orders) :
    OnlyAnnounced returned := by
  -- A packet that reduces an order follows a list after which it stands.
  have reduces : ∀ {earlier : List Message} {order : RestingOrder}
      {others : Multiset RestingOrder} {named : UInt32},
      Standing earlier (order ::ₘ others) → named = order.orderId →
        ∀ orderId, some named = some orderId → Announced earlier orderId := by
    intro earlier order others named before same orderId taken
    rw [← Option.some.inj taken, same]
    exact before.announced order (Multiset.mem_cons_self _ _)
  induction standing with
  | start =>
      intro before message after orderId split
      exact absurd split.symm (List.append_ne_nil_of_right_ne_nil before
        (List.cons_ne_nil message after))
  | add message before ih =>
      refine ih.append ?_
      intro orderId absent
      cases absent
  | cancel message order named whole before ih =>
      exact ih.append (reduces before named)
  | executeAll message order named whole before ih =>
      exact ih.append (reduces before named)
  | executePart message order named part before ih =>
      exact ih.append (reduces before named)
  | quote message before ih =>
      refine ih.append ?_
      intro orderId absent
      cases absent

theorem PoolStep.resting_eq {resting resting' : Pool}
    {nextOrderId nextOrderId' : UInt32} {message : Message}
    (change : PoolStep resting nextOrderId message resting' nextOrderId')
    (quotes : message.type = .quote) : resting' = resting := by
  cases change with
  | add | cancel | executeAll | executePart => cases quotes
  | quote message => rfl

/-- A pool step and the packet that announces it keep the pool what the
packets say. -/
theorem Standing.step {returned : List Message} {resting resting' : Pool}
    {nextOrderId nextOrderId' : UInt32} {message : Message}
    (standing : Standing returned ↑resting.live)
    (change : PoolStep resting nextOrderId message resting' nextOrderId') :
    Standing (returned ++ [message]) ↑resting'.live := by
  have slot : ∀ idx : Fin resting.count,
      (↑resting.live : Multiset RestingOrder) =
        resting.get idx ::ₘ ↑(resting.live.eraseIdx idx.val) := by
    intro idx
    rw [Multiset.cons_coe]
    exact Multiset.coe_eq_coe.mpr (resting.live_perm_cons idx)
  have removed : ∀ idx : Fin resting.count,
      (↑(resting.swapRemove idx).live : Multiset RestingOrder) =
        ↑(resting.live.eraseIdx idx.val) := by
    intro idx
    exact Multiset.coe_eq_coe.mpr (resting.live_swapRemove_perm idx)
  cases change with
  | add message room issued =>
      have grown := Standing.add message standing
      rw [Multiset.cons_coe] at grown
      rw [SwapPool.live_push]
      rwa [← Multiset.coe_eq_coe.mpr (List.perm_append_singleton _ _)] at grown
  | cancel message idx named whole =>
      rw [slot idx] at standing
      rw [removed idx]
      exact .cancel message _ named whole standing
  | executeAll message idx named whole =>
      rw [slot idx] at standing
      rw [removed idx]
      exact .executeAll message _ named whole standing
  | executePart message idx named part =>
      rw [slot idx] at standing
      rw [Multiset.coe_eq_coe.mpr (resting.live_set_perm idx _),
        ← Multiset.cons_coe]
      exact .executePart message _ named part standing
  | quote message => exact .quote message standing

end PacketGenerator

/-! ### Runs -/

/-- A generator and the messages of the packets it has returned. -/
structure PacketLog where
  generator : PacketGenerator
  returned : List Message

namespace PacketLog

open MarketFeed (Call)
open PacketGenerator (Standing OnlyAnnounced)

def initial (symbolName : List UInt8) : PacketLog :=
  { generator := PacketGenerator.initial symbolName
    returned := [] }

def step (log : PacketLog) (call : Call) : PacketLog :=
  match log.generator.nextPacket call.draws call.capacity with
  | (none, generator) => { log with generator := generator }
  | (some packet, generator) =>
      { generator := generator
        returned := log.returned ++ (packetMessage? packet).toList }

def Fits (log : PacketLog) (call : Call) : Prop :=
  (log.generator.evolved call.draws).AttemptsFit call.capacity
    call.draws.attempts.toList

instance (log : PacketLog) (call : Call) : Decidable (log.Fits call) :=
  PacketGenerator.decidableAttemptsFit _ _

/-- The pool holds the orders that the returned packets added and did not
remove, and the packets reduced no other orders. -/
structure Accounted (log : PacketLog) : Prop where
  standing : Standing log.returned ↑log.generator.resting.live
  announced : OnlyAnnounced log.returned

theorem initial_standing (symbolName : List UInt8) :
    Standing (initial symbolName).returned
      ↑(initial symbolName).generator.resting.live := by
  have vacant : (initial symbolName).generator.resting.live = [] :=
    SwapPool.live_fill _
  rw [vacant]
  exact .start

theorem step_standing {log : PacketLog} {call : Call} (fits : log.Fits call)
    (standing : Standing log.returned ↑log.generator.resting.live) :
    Standing (log.step call).returned
      ↑(log.step call).generator.resting.live := by
  obtain ⟨message, wrote, _, unwritten⟩ :=
    log.generator.nextPacket_wrote call.draws fits
  unfold step
  rcases outcome : log.generator.nextPacket call.draws call.capacity with
    ⟨_ | packet, built⟩
  · -- Only the fallback quote is left unwritten, and a quote moves nothing.
    rw [outcome] at wrote unwritten
    have kept : built.resting = log.generator.resting :=
      wrote.pool.resting_eq (unwritten rfl)
    dsimp only
    rw [kept]
    exact standing
  · rw [outcome] at wrote
    obtain ⟨_, read⟩ := packetMessage?_of_write wrote.tagged wrote.packet.symm
    dsimp only
    rw [read]
    exact standing.step wrote.pool

/-- A failed build leaves the generator intact exactly when it was not the
capacity that stopped a builder with something to edit.  In every run of
calls whose attempts are never stopped that way, the pool is at all times what
the returned packets say. -/
theorem failsIntact_iff_and_run_accounted (generator : PacketGenerator)
    (draw : PacketGenerator.Draw) (capacity : ℕ) (symbolName : List UInt8)
    (calls : List Call) :
    (generator.FailsIntact draw capacity ↔
      generator.FitsEdit draw capacity) ∧
    (Run.Along step Fits (initial symbolName) calls →
      Run.Throughout step Accounted (initial symbolName) calls) := by
  refine ⟨generator.failsIntact_iff draw capacity, ?_⟩
  intro along
  exact Run.throughout_of_along
    (fun log => Standing log.returned ↑log.generator.resting.live)
    (fun _ _ fits standing => step_standing fits standing)
    (fun _ standing => ⟨standing, standing.onlyAnnounced⟩)
    (initial symbolName) calls (initial_standing symbolName) along

/-- An order is added; a call with room for a cancel alone cancels it. -/
theorem failsIntact_iff_and_run_accounted_cancelled :
    Run.Throughout step Accounted (initial [])
      [MarketFeed.drawing .addOrder,
        { MarketFeed.drawing .cancelOrder with capacity := 19 }] :=
  (failsIntact_iff_and_run_accounted (PacketGenerator.initial [])
    (MarketFeed.drawing .addOrder).draws.attempts[0] 32 [] _).2
      (by decide +kernel)

/-- A call with room for a cancel whose first attempt adds an order. -/
def shortCall : Call :=
  let adding := MarketFeed.drawing .addOrder
  let cancelling := MarketFeed.drawing .cancelOrder
  { draws :=
      { adding.draws with
        attempts := adding.draws.attempts.set 1 cancelling.draws.attempts[1] }
    capacity := 19 }

/-- The AddOrder packet does not fit and the order stays in the pool; the next
attempt of the same call returns a cancel of it. -/
theorem not_accounted_short :
    ¬ (∀ (generator : PacketGenerator) (draw : PacketGenerator.Draw)
        (capacity : ℕ), generator.FailsIntact draw capacity) ∧
      ¬ ∀ (symbolName : List UInt8) (calls : List Call),
        Run.Throughout step Accounted (initial symbolName) calls := by
  constructor
  · intro claimed
    have intact := claimed (PacketGenerator.initial [])
      shortCall.draws.attempts[0] 19
    have failed : ((PacketGenerator.initial []).build
        shortCall.draws.attempts[0] 19).1 = none := by
      decide +kernel
    have grown : ((PacketGenerator.initial []).build
        shortCall.draws.attempts[0] 19).2.resting.count = 1 := by
      decide +kernel
    have same := (intact failed).count
    rw [grown] at same
    cases same
  · intro claimed
    have accounted : Accounted ((initial []).step shortCall) :=
      (claimed [] [shortCall]).2
    have returned : ((initial []).step shortCall).returned =
        [.cancelOrder
          { header := ⟨MessageType.cancelOrder.toByte⟩
            timestampNs := 7
            orderId := 1
            quantity := 0 }] := by
      decide +kernel
    obtain ⟨_, member, _⟩ := accounted.announced [] _ [] 1 returned rfl
    cases member

end PacketLog

end Waler
