/-
The prices of generated executes and quotes against the book they are fed to.

The generator scans its unordered pool, the book reads the first level of an
ordered map.  With both holding the same orders, none of them empty, the two
find the same price whenever the scan can find one at all.
-/

import Waler.Book.TopOfBook
import Waler.Generator.Lockstep

namespace Waler

open MarketData

/-! ### The best level of a side -/

namespace SimpleOrderBook

open PacketGenerator (Pool PoolStep DrawnFrom sideScan)

def best (book : SimpleOrderBook) : BookSide → Option Level
  | .bid => book.bestBid
  | .ask => book.bestAsk

namespace TopOfBook

variable {book : SimpleOrderBook}

theorem best_trades (top : book.TopOfBook) {side : BookSide} {level : Level}
    (isBest : book.best side = some level) :
    book.TradesAt side.byte level.price ∧
      ∀ price, book.TradesAt side.byte price →
        ¬ side.better price level.price := by
  cases side with
  | bid =>
      obtain ⟨trades, highest, _⟩ := top.best_bid level isBest
      exact ⟨trades, fun price other =>
        UInt32.not_lt.mpr (highest price other)⟩
  | ask =>
      obtain ⟨trades, lowest, _⟩ := top.best_ask level isBest
      exact ⟨trades, fun price other => UInt32.not_lt.mpr (lowest price other)⟩

theorem best_exists (top : book.TopOfBook) {side : BookSide}
    {price : PriceCents} (trades : book.TradesAt side.byte price) :
    ∃ level, book.best side = some level := by
  apply Option.ne_none_iff_exists'.mp
  intro none
  cases side with
  | bid => exact top.no_bid.mp none price trades
  | ask => exact top.no_ask.mp none price trades

end TopOfBook

/-! ### The pool and the book -/

/-- Every order of a pool has something to trade, on a side the book knows. -/
def Marketable (pool : Pool) : Prop :=
  ∀ item ∈ pool.live, 1 ≤ item.quantity.toNat ∧
    item.quantity.toNat ≤ 9900 ∧ ∃ side : BookSide, item.side = side.byte

theorem tradesAt_iff_slot {issued : ℕ} {resting : Pool} {nextOrderId : UInt32}
    {book : SimpleOrderBook}
    (lock : Lockstep issued resting nextOrderId book.orders)
    (marketable : Marketable resting) (side : UInt8) (price : PriceCents) :
    book.TradesAt side price ↔
      ∃ index, (resting.get index).side = side ∧
        (resting.get index).price = price := by
  constructor
  · rintro ⟨orderId, order, found, sideEq, priceEq, _⟩
    have member : pooled orderId order ∈ resting.live := by
      rw [← Multiset.mem_coe, ← lock.same, pooledOrders_of_lookup found]
      exact Multiset.mem_cons_self _ _
    obtain ⟨index, slotEq⟩ := SwapPool.exists_get_of_mem_live member
    refine ⟨index, ?_, ?_⟩
    · rw [slotEq]
      exact sideEq
    · rw [slotEq]
      exact priceEq
  · rintro ⟨index, sideEq, priceEq⟩
    obtain ⟨order, found, view, _⟩ := lock.lookup_slot index
    obtain ⟨positive, _⟩ := marketable _ (resting.get_mem_live index)
    rw [← view] at sideEq priceEq positive
    exact ⟨_, order, found, sideEq, priceEq, positive⟩

section Scans

variable {issued : ℕ} {resting : Pool} {nextOrderId : UInt32}
  {book : SimpleOrderBook}

/-- What the scan of a side finds is the best price of the book. -/
theorem best_of_sideScan
    (lock : Lockstep issued resting nextOrderId book.orders)
    (marketable : Marketable resting) (top : book.TopOfBook)
    {side : BookSide} {price : PriceCents} {index : Fin resting.count}
    (scan : sideScan resting side = (price, some index)) :
    ∃ level, book.best side = some level ∧ level.price = price := by
  obtain ⟨sided, priced, _⟩ := PacketGenerator.sideScan_found scan
  have trades : book.TradesAt side.byte price :=
    (tradesAt_iff_slot lock marketable _ _).mpr ⟨index, sided, priced⟩
  obtain ⟨level, isBest⟩ := top.best_exists trades
  obtain ⟨levelTrades, highest⟩ := top.best_trades isBest
  obtain ⟨other, otherSided, otherPriced⟩ :=
    (tradesAt_iff_slot lock marketable _ _).mp levelTrades
  have scanned := PacketGenerator.sideScan_top resting other otherSided
  rw [scan, otherPriced] at scanned
  exact ⟨level, isBest,
    Std.Trichotomous.trichotomous (r := side.better) _ _ scanned
      (highest price trades)⟩

/-- The scan of a side finds the best price of the book, unless that is the
price it starts from. -/
theorem sideScan_of_best
    (lock : Lockstep issued resting nextOrderId book.orders)
    (marketable : Marketable resting) (top : book.TopOfBook)
    {side : BookSide} {level : Level} (isBest : book.best side = some level)
    (real : level.price ≠ side.sentinel) :
    ∃ index, sideScan resting side = (level.price, some index) := by
  obtain ⟨levelTrades, _⟩ := top.best_trades isBest
  obtain ⟨other, otherSided, otherPriced⟩ :=
    (tradesAt_iff_slot lock marketable _ _).mp levelTrades
  have scanned := PacketGenerator.sideScan_top resting other otherSided
  rw [otherPriced] at scanned
  rcases scan : sideScan resting side with ⟨price, _ | index⟩
  · have absent := (PacketGenerator.sideScan_best resting side).absent
    rw [scan] at absent scanned
    rw [show price = side.sentinel from absent rfl] at scanned
    exact absurd ((side.not_better_sentinel_iff _).mp scanned) real
  · obtain ⟨level', isBest', priceEq⟩ :=
      best_of_sideScan lock marketable top scan
    rw [isBest] at isBest'
    cases isBest'
    exact ⟨index, by rw [priceEq]⟩

end Scans

theorem marketable_poolStep {resting resting' : Pool}
    {nextOrderId nextOrderId' : UInt32} {message : Message}
    (change : PoolStep resting nextOrderId message resting' nextOrderId')
    (drawn : DrawnFrom resting message) (marketable : Marketable resting) :
    Marketable resting' := by
  cases change with
  | add message room issuedId =>
      cases drawn with
      | addOrder _ least most sided =>
          intro item member
          obtain old | rfl := SwapPool.mem_live_push member
          · exact marketable item old
          · exact ⟨least, most, sided⟩
  | cancel message idx named whole =>
      intro item member
      exact marketable item (SwapPool.mem_live_of_swapRemove member)
  | executeAll message idx named whole =>
      intro item member
      exact marketable item (SwapPool.mem_live_of_swapRemove member)
  | executePart message idx named part =>
      intro item member
      obtain rfl | kept := SwapPool.mem_live_set member
      · obtain ⟨least, most, sided⟩ :=
          marketable _ (resting.get_mem_live idx)
        have left := UInt32.toNat_sub_of_le _ _ (UInt32.le_of_lt part)
        rw [UInt32.lt_iff_toNat_lt] at part
        refine ⟨?_, ?_, sided⟩
        · change 1 ≤ ((resting.get idx).quantity - message.execQty).toNat
          omega
        · change ((resting.get idx).quantity - message.execQty).toNat ≤ 9900
          omega
      · exact marketable item kept
  | quote message => exact marketable

/-! ### Prices of packets -/

/-- An execute takes from an order at the best price of its side, at that
price; a quote quotes the best price of each side that has one. -/
def PricesAgree (book : SimpleOrderBook) : Message → Prop
  | .execute message => ∃ order side level,
      book.orders.lookup message.orderId = some order ∧
        order.side = side.byte ∧ book.best side = some level ∧
        order.price = level.price ∧ message.execPrice = level.price ∧
        1 ≤ message.execQty.toNat ∧ message.execQty ≤ order.quantity
  | .quote message =>
      (∀ level, book.bestBid = some level → 0 < level.price →
        message.bidPrice = level.price) ∧
      (∀ level, book.bestAsk = some level → level.price < 0xffffffff →
        message.askPrice = level.price)
  | _ => True

theorem quoted_of_best {issued : ℕ} {resting : Pool} {nextOrderId : UInt32}
    {book : SimpleOrderBook} {message : QuoteMessage}
    (lock : Lockstep issued resting nextOrderId book.orders)
    (marketable : Marketable resting) (top : book.TopOfBook)
    (drawn : DrawnFrom resting (.quote message)) (side : BookSide)
    {level : Level} (isBest : book.best side = some level)
    (real : level.price ≠ side.sentinel) :
    ∃ index, sideScan resting side = (level.price, some index) ∧
      message.side side = (level.price, (resting.get index).quantity) := by
  obtain ⟨index, scan⟩ := sideScan_of_best lock marketable top isBest real
  cases drawn with
  | quote _ quoted =>
      have asked := quoted side index (congrArg Prod.snd scan)
      rw [scan] at asked
      exact ⟨index, scan, asked⟩

theorem pricesAgree_of_drawn {issued : ℕ} {resting : Pool}
    {nextOrderId : UInt32} {book : SimpleOrderBook} {message : Message}
    (lock : Lockstep issued resting nextOrderId book.orders)
    (marketable : Marketable resting) (top : book.TopOfBook)
    (drawn : DrawnFrom resting message) : book.PricesAgree message := by
  cases message with
  | addOrder message => trivial
  | cancelOrder message => trivial
  | execute message =>
      cases drawn with
      | execute _ side index drawnQty scan named positive capped =>
          obtain ⟨order, found, view, _⟩ := lock.lookup_slot index
          obtain ⟨sided, priced, _⟩ := PacketGenerator.sideScan_found scan
          obtain ⟨level, isBest, priceEq⟩ :=
            best_of_sideScan lock marketable top scan
          obtain ⟨least, _⟩ := marketable _ (resting.get_mem_live index)
          rw [← named] at found
          rw [← view] at sided priced least capped
          change order.price = message.execPrice at priced
          change 1 ≤ order.quantity.toNat at least
          change message.execQty.toNat = min drawnQty order.quantity.toNat
            at capped
          refine ⟨order, side, level, found, sided, isBest,
            priced.trans priceEq.symm, priceEq.symm, by omega, ?_⟩
          rw [UInt32.le_iff_toNat_le]
          omega
  | quote message =>
      constructor
      · intro level isBest positive
        have real : level.price ≠ BookSide.bid.sentinel := fun zero =>
          (BookSide.bid.not_better_sentinel_iff _).mpr zero positive
        obtain ⟨_, _, asked⟩ :=
          quoted_of_best lock marketable top drawn .bid isBest real
        exact congrArg Prod.fst asked
      · intro level isBest below
        have real : level.price ≠ BookSide.ask.sentinel := fun most =>
          (BookSide.ask.not_better_sentinel_iff _).mpr most below
        obtain ⟨_, _, asked⟩ :=
          quoted_of_best lock marketable top drawn .ask isBest real
        exact congrArg Prod.fst asked

end SimpleOrderBook

/-! ### Runs -/

namespace MarketFeed

open SimpleOrderBook (Marketable PricesAgree)

/-- What holds between a generator and the book fed by it after any run. -/
structure Sound (feed : MarketFeed) : Prop where
  lock : feed.InLockstep
  marketable : Marketable feed.generator.resting
  summary : feed.book.Summarises feed.book.orders
  full : feed.book.NoEmptyLevel

theorem initial_sound (symbolName : List UInt8) :
    (initial symbolName).Sound := by
  refine ⟨initial_inLockstep symbolName, ?_, SimpleOrderBook.empty_summarises,
    SimpleOrderBook.empty_noEmptyLevel⟩
  intro item member
  rw [show (initial symbolName).generator.resting.live = [] from
    SwapPool.live_fill _] at member
  cases member

theorem step_sound {feed : MarketFeed} {call : Call}
    (roomy : 32 ≤ call.capacity) (sound : feed.Sound) :
    (feed.step call).Sound := by
  obtain ⟨_, message, built, _, _, _, change, drawn, stepEq⟩ :=
    feed.step_cases roomy
  have opens : ¬ feed.book.OpensEmptyLevel message := by
    intro opens
    cases drawn with
    | addOrder message least most sided =>
        rw [opens.1] at least
        exact absurd least (by decide)
    | cancelOrder message => exact opens
    | execute message => exact opens
    | quote message => exact opens
  obtain ⟨summary, full⟩ := SimpleOrderBook.guarded_step_kept feed.book message
    opens ⟨sound.summary, sound.full⟩
  refine ⟨step_inLockstep roomy sound.lock, ?_, ?_, ?_⟩
  · rw [stepEq]
    exact SimpleOrderBook.marketable_poolStep change drawn sound.marketable
  · rw [stepEq]
    exact summary
  · rw [stepEq]
    exact full

theorem final_sound (symbolName : List UInt8) (calls : List Call)
    (roomy : ∀ call ∈ calls, 32 ≤ call.capacity) :
    (Run.final step (initial symbolName) calls).Sound := by
  refine Run.final_invariant_of_along Sound
    (fun feed call enough sound => step_sound enough sound)
    (initial symbolName) calls (initial_sound symbolName) ?_
  refine Run.along_of_forall (initial symbolName) calls ?_
  intro call member _
  exact roomy call member

/-- After every run of calls with 32 bytes of capacity or more that adds fewer
than `2 ^ 32` orders, the prices of the next packet agree with the book it is
about to be applied to. -/
theorem run_pricesAgree (symbolName : List UInt8) (calls : List Call)
    (call : Call) (roomy : ∀ each ∈ calls, 32 ≤ each.capacity)
    (roomyCall : 32 ≤ call.capacity)
    (few : (Run.final step (initial symbolName) calls).ordersAdded < 2 ^ 32) :
    ∃ packet message,
      ((Run.final step (initial symbolName) calls).generator.nextPacket
        call.draws call.capacity).1 = some packet ∧
      packetMessage? packet = some message ∧
      (Run.final step (initial symbolName) calls).book.PricesAgree message := by
  have sound := final_sound symbolName calls roomy
  obtain ⟨packet, message, built, outcome, _, read, _, drawn, _⟩ :=
    (Run.final step (initial symbolName) calls).step_cases roomyCall
  refine ⟨packet, message, congrArg Prod.fst outcome, read, ?_⟩
  exact SimpleOrderBook.pricesAgree_of_drawn (sound.lock few) sound.marketable
    (SimpleOrderBook.topOfBook_of_noEmptyLevel sound.summary sound.full) drawn

/-- An order is added, then executed. -/
theorem run_pricesAgree_executed :
    ∃ packet message,
      ((Run.final step (initial []) [drawing .addOrder]).generator.nextPacket
        (drawing .execute).draws (drawing .execute).capacity).1 =
          some packet ∧
      packetMessage? packet = some message ∧
      (Run.final step (initial [])
        [drawing .addOrder]).book.PricesAgree message :=
  run_pricesAgree [] [drawing .addOrder] (drawing .execute) (by decide)
    (by decide) (Nat.lt_of_le_of_lt (ordersAdded_le_length _ _) (by decide))

end MarketFeed

end Waler
