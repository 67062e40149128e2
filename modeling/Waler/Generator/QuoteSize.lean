/-
The sizes of generated quotes against the book they are fed to.

A quote advertises the quantity of one order at the best price, the book
reports the sum of all of them.  The two agree exactly when that order is the
only one at its price.
-/

import Waler.Generator.BestPrice

namespace Waler

open MarketData

namespace SimpleOrderBook

open PacketGenerator (Pool DrawnFrom sideScan)

/-- The order that the scan of a side finds is alone at its price. -/
def LoneBest (pool : Pool) (side : BookSide) : Prop :=
  ∀ index, (sideScan pool side).2 = some index →
    ∀ other, (pool.get other).side = side.byte →
      (pool.get other).price = (pool.get index).price → other = index

instance (pool : Pool) (side : BookSide) : Decidable (LoneBest pool side) :=
  inferInstanceAs (Decidable (∀ _, _ → ∀ _, _ → _ → _))

theorem TopOfBook.best_quantity {book : SimpleOrderBook}
    (top : book.TopOfBook) {side : BookSide} {level : Level}
    (isBest : book.best side = some level) :
    level.quantity.toNat =
      min (book.restingQuantity side.byte level.price) (2 ^ 32 - 1) := by
  cases side with
  | bid => exact (top.best_bid level isBest).2.2.1
  | ask => exact (top.best_ask level isBest).2.2.1

section Lone

variable {issued : ℕ} {resting : Pool} {nextOrderId : UInt32}
  {book : SimpleOrderBook}

theorem restingQuantity_pooled (book : SimpleOrderBook) (side : UInt8)
    (price : PriceCents) :
    book.restingQuantity side price =
      ((pooledOrders book.orders).map (fun item =>
        if item.side = side ∧ item.price = price then item.quantity.toNat
        else 0)).sum := by
  unfold restingQuantity FiniteMap.total pooledOrders
  rw [Multiset.map_map]
  rfl

theorem restingQuantity_slot
    (lock : Lockstep issued resting nextOrderId book.orders)
    (marketable : Marketable resting) {side : BookSide}
    (index : Fin resting.count)
    (sided : (resting.get index).side = side.byte) :
    book.restingQuantity side.byte (resting.get index).price =
        (resting.get index).quantity.toNat ↔
      ∀ other, (resting.get other).side = side.byte →
        (resting.get other).price = (resting.get index).price →
          other = index := by
  rw [restingQuantity_pooled, lock.same,
    Multiset.coe_eq_coe.mpr (resting.live_perm_cons index), Multiset.map_coe,
    Multiset.sum_coe, List.map_cons, List.sum_cons, if_pos ⟨sided, rfl⟩,
    Nat.add_eq_left, List.sum_eq_zero_iff_forall_eq_nat]
  constructor
  · intro nothing other otherSided otherPriced
    by_contra apart
    have member := (resting.mem_live_eraseIdx_iff index _).mpr
      ⟨other, apart, rfl⟩
    have zero := nothing _ (List.mem_map_of_mem member)
    rw [if_pos ⟨otherSided, otherPriced⟩] at zero
    have positive := (marketable _ (resting.get_mem_live other)).1
    omega
  · intro alone amount member
    obtain ⟨item, elsewhere, rfl⟩ := List.mem_map.mp member
    obtain ⟨other, apart, rfl⟩ :=
      (resting.mem_live_eraseIdx_iff index item).mp elsewhere
    exact if_neg (fun held => apart (alone other held.1 held.2))

/-- The size a quote gives for a side is that of the book's best level exactly
when the order it was taken from is alone there. -/
theorem quotedSize_iff
    (lock : Lockstep issued resting nextOrderId book.orders)
    (marketable : Marketable resting) (top : book.TopOfBook)
    {message : QuoteMessage} (drawn : DrawnFrom resting (.quote message))
    (side : BookSide) :
    (∀ level, book.best side = some level → level.price ≠ side.sentinel →
        (message.side side).2 = level.quantity) ↔
      LoneBest resting side := by
  have atLevel : ∀ {level index}, book.best side = some level →
      sideScan resting side = (level.price, some index) →
      message.side side = (level.price, (resting.get index).quantity) →
      ((message.side side).2 = level.quantity ↔
        ∀ other, (resting.get other).side = side.byte →
          (resting.get other).price = (resting.get index).price →
            other = index) := by
    intro level index isBest scan asked
    obtain ⟨sided, priced, _⟩ := PacketGenerator.sideScan_found scan
    have total := top.best_quantity isBest
    have most := (marketable _ (resting.get_mem_live index)).2.1
    rw [← restingQuantity_slot lock marketable index sided, asked, priced,
      ← UInt32.toNat_inj]
    dsimp only
    omega
  constructor
  · intro agrees index found
    obtain ⟨price, scan⟩ : ∃ price,
        sideScan resting side = (price, some index) := ⟨_, Prod.ext rfl found⟩
    obtain ⟨level, isBest, rfl⟩ := best_of_sideScan lock marketable top scan
    have real := (PacketGenerator.sideScan_found scan).2.2
    obtain ⟨index', scan', asked⟩ :=
      quoted_of_best lock marketable top drawn side isBest real
    obtain rfl : index = index' :=
      Option.some.inj (congrArg Prod.snd (scan.symm.trans scan'))
    exact (atLevel isBest scan asked).mp (agrees level isBest real)
  · intro lone level isBest real
    obtain ⟨index, scan, asked⟩ :=
      quoted_of_best lock marketable top drawn side isBest real
    exact (atLevel isBest scan asked).mpr
      (lone index (congrArg Prod.snd scan))

end Lone

/-- The last quote gives the sizes of the best levels. -/
def SizesAgree (book : SimpleOrderBook) : Prop :=
  ∃ quote, book.lastQuote = some quote ∧
    (∀ level, book.bestBid = some level → 0 < level.price →
      quote.bid.quantity = level.quantity) ∧
    (∀ level, book.bestAsk = some level → level.price < 0xffffffff →
      quote.ask.quantity = level.quantity)

theorem applyQuote_sizesAgree_iff (book : SimpleOrderBook)
    (message : QuoteMessage) :
    (book.apply (.quote message)).2.SizesAgree ↔
      ∀ side level, book.best side = some level →
        level.price ≠ side.sentinel →
          (message.side side).2 = level.quantity := by
  have above : ∀ (side : BookSide) (price : PriceCents),
      side.better price side.sentinel ↔ price ≠ side.sentinel := by
    intro side price
    rw [← not_iff_not, not_not]
    exact side.not_better_sentinel_iff price
  constructor
  · rintro ⟨quote, isLast, bid, ask⟩ side level isBest real
    cases isLast
    cases side with
    | bid => exact bid level isBest ((above .bid level.price).mpr real)
    | ask => exact ask level isBest ((above .ask level.price).mpr real)
  · intro agrees
    refine ⟨_, rfl, ?_, ?_⟩
    · intro level isBest positive
      exact agrees .bid level isBest ((above .bid level.price).mp positive)
    · intro level isBest below
      exact agrees .ask level isBest ((above .ask level.price).mp below)

end SimpleOrderBook

/-! ### Runs -/

namespace MarketFeed

open SimpleOrderBook (LoneBest)

def ReturnsQuote (feed : MarketFeed) (call : Call) : Prop :=
  ((feed.generator.nextPacket call.draws call.capacity).1.bind
    (fun packet => packet[2]?)) = some MessageType.quote.toByte

instance (feed : MarketFeed) (call : Call) :
    Decidable (feed.ReturnsQuote call) :=
  inferInstanceAs (Decidable (_ = _))

/-- A quote, once applied, gives the sizes of the book's best levels. -/
def QuoteSized (feed : MarketFeed) (call : Call) : Prop :=
  feed.ReturnsQuote call → (feed.step call).book.SizesAgree

/-- A quote is taken while the first best order of either side is alone at its
price. -/
def QuotesLone (feed : MarketFeed) (call : Call) : Prop :=
  feed.ReturnsQuote call →
    LoneBest feed.generator.resting .bid ∧ LoneBest feed.generator.resting .ask

instance (feed : MarketFeed) (call : Call) :
    Decidable (feed.QuotesLone call) :=
  inferInstanceAs (Decidable (_ → _))

theorem Sound.quoteSized_iff {feed : MarketFeed} {call : Call}
    (sound : feed.Sound) (few : feed.ordersAdded < 2 ^ 32)
    (roomy : 32 ≤ call.capacity) :
    feed.QuoteSized call ↔ feed.QuotesLone call := by
  have top := SimpleOrderBook.topOfBook_of_noEmptyLevel sound.summary sound.full
  obtain ⟨packet, message, built, outcome, _, read, _, drawn, stepEq⟩ :=
    feed.step_cases roomy
  obtain ⟨typeByte, _⟩ := SimpleOrderBook.packetMessage?_fields read
  unfold QuoteSized QuotesLone
  refine imp_congr_right (fun returns => ?_)
  unfold ReturnsQuote at returns
  rw [outcome, Option.bind_some, typeByte] at returns
  have isQuote : message.type = .quote := by
    have named := congrArg MessageType.ofByte? (Option.some.inj returns)
    rw [MessageType.ofByte?_toByte, MessageType.ofByte?_toByte] at named
    exact Option.some.inj named
  cases message with
  | quote message =>
      have size := SimpleOrderBook.quotedSize_iff (sound.lock few)
        sound.marketable top drawn
      rw [stepEq, SimpleOrderBook.applyQuote_sizesAgree_iff]
      constructor
      · intro agrees
        exact ⟨(size .bid).mp (agrees .bid), (size .ask).mp (agrees .ask)⟩
      · rintro ⟨bid, ask⟩ side
        cases side with
        | bid => exact (size .bid).mpr bid
        | ask => exact (size .ask).mpr ask
  | addOrder message => cases isQuote
  | cancelOrder message => cases isQuote
  | execute message => cases isQuote

/-- Every quote of a run gives the sizes of the best levels exactly when every
quote of the run is taken with lone best orders. -/
theorem quoteSized_along_iff (symbolName : List UInt8) (calls : List Call)
    (roomy : ∀ call ∈ calls, 32 ≤ call.capacity)
    (few : (Run.final step (initial symbolName) calls).ordersAdded < 2 ^ 32) :
    Run.Along step QuoteSized (initial symbolName) calls ↔
      Run.Along step QuotesLone (initial symbolName) calls := by
  apply Run.along_congr
  intro before call after split
  subst split
  have sound := final_sound symbolName before (fun each member =>
    roomy each (List.mem_append_left _ member))
  rw [Run.final_append] at few
  exact sound.quoteSized_iff
    (Nat.lt_of_le_of_lt (ordersAdded_le_final _ _) few)
    (roomy call (List.mem_append_right _ List.mem_cons_self))

theorem quoteSized_along_one_bid :
    Run.Along step QuoteSized (initial [])
      [drawing .addOrder, drawing .quote] :=
  (quoteSized_along_iff [] [drawing .addOrder, drawing .quote] (by decide)
    (Nat.lt_of_le_of_lt (ordersAdded_le_length _ _) (by decide))).mpr
      (by decide +kernel)

/-- Two bids of 40 at one price are quoted as 40, while 80 rest there. -/
theorem not_quoteSized_two_bids :
    ¬ Run.Along step QuoteSized (initial [])
      [drawing .addOrder, drawing .addOrder, drawing .quote] := by
  rintro ⟨_, _, quoted, _⟩
  obtain ⟨quote, isLast, bid, _⟩ := quoted (by decide +kernel)
  have size := bid ⟨14750, 80⟩ (by decide +kernel) (by decide)
  have advertised : some quote.bid.quantity = some 40 := by
    have last := congrArg (Option.map (fun quote => quote.bid.quantity)) isLast
    exact last.symm.trans (by decide +kernel)
  rw [size] at advertised
  exact absurd advertised (by decide)

end MarketFeed

end Waler
