/-
Independence of the book from the order in which messages about different
orders arrive.

A message reads and writes the entry of its own order id only, so the resting
orders are a keyed run.  The levels are shared between ids, but without empty
levels they are a function of the resting orders.
-/

import Waler.Book.Acceptance
import Waler.Book.TopOfBook
import Waler.Foundation.KeyedRun

namespace Waler

open MarketData

/-! ### One order -/

/-- What rests of an order after a reduction, `none` when nothing does. -/
def RestingOrder.reduced (order : RestingOrder) (reduceQty : UInt32) :
    Option RestingOrder :=
  let remaining :=
    order.quantity - SimpleOrderBook.removedQuantity order reduceQty
  if remaining = 0 then none else some { order with quantity := remaining }

namespace SimpleOrderBook

/-- The entry of an order id after a message for that id. -/
def orderAfter (entry : Option RestingOrder) : Message → Option RestingOrder
  | .addOrder message => some
      { side := message.side
        price := message.price
        quantity := message.quantity
        timestampNs := message.timestampNs }
  | .cancelOrder message =>
      entry.bind (fun order => order.reduced (cancelQuantity order message))
  | .execute message =>
      entry.bind (fun order => order.reduced message.execQty)
  | .quote _ => entry

/-- The result of a message for an order id, from the entry of that id. -/
def resultAt (entry : Option RestingOrder) : Message → Bool
  | .addOrder _ => true
  | .cancelOrder _ => entry.isSome
  | .execute _ => entry.isSome
  | .quote _ => true

theorem lookup_reduceOrder (book : SimpleOrderBook) (orderId other : UInt32)
    (order : RestingOrder) (reduceQty : UInt32) :
    (book.reduceOrder orderId order reduceQty).orders.lookup other =
      if other = orderId then order.reduced reduceQty
      else book.orders.lookup other := by
  have stored : (book.reduceOrder orderId order reduceQty).orders =
      if order.quantity - removedQuantity order reduceQty = 0 then
        book.orders.erase orderId
      else
        book.orders.insert orderId
          { order with
            quantity := order.quantity - removedQuantity order reduceQty } := by
    unfold reduceOrder
    simp only
    split <;> simp only [removeFromLevels_orders]
  rw [stored]
  unfold RestingOrder.reduced
  by_cases gone : order.quantity - removedQuantity order reduceQty = 0
  · rw [if_pos gone, if_pos gone]
    by_cases same : other = orderId
    · rw [if_pos same, same]
      exact Finmap.lookup_erase orderId book.orders
    · rw [if_neg same]
      exact Finmap.lookup_erase_ne same
  · rw [if_neg gone, if_neg gone]
    by_cases same : other = orderId
    · rw [if_pos same, same]
      exact Finmap.lookup_insert book.orders
    · rw [if_neg same]
      exact Finmap.lookup_insert_of_ne book.orders same

theorem lookup_applied_reduction (book : SimpleOrderBook) (orderId : UInt32)
    (reduceQty : RestingOrder → UInt32) (updated : SimpleOrderBook)
    (absent : book.orders.lookup orderId = none → updated = book)
    (present : ∀ order, book.orders.lookup orderId = some order →
      updated = book.reduceOrder orderId order (reduceQty order))
    (other : UInt32) :
    updated.orders.lookup other =
      if other = orderId then
        (book.orders.lookup orderId).bind
          (fun order => order.reduced (reduceQty order))
      else book.orders.lookup other := by
  cases found : book.orders.lookup orderId with
  | none =>
      rw [absent found]
      split
      · rename_i same
        rw [same, found]
        rfl
      · rfl
  | some order =>
      rw [present order found, lookup_reduceOrder]
      rfl

theorem lookup_applied (book : SimpleOrderBook) (message : Message)
    (orderId : UInt32) :
    (book.applied message).orders.lookup orderId =
      if orderId = messageOrderId message then
        orderAfter (book.orders.lookup orderId) message
      else book.orders.lookup orderId := by
  cases message with
  | addOrder message =>
      have stored : (book.applied (.addOrder message)).orders =
          (book.storeOrder message).orders := addToLevels_orders _ _ _ _
      rw [stored, storeOrder_orders]
      by_cases own : orderId = message.orderId
      · rw [messageOrderId, if_pos own, own]
        exact Finmap.lookup_insert _
      · rw [messageOrderId, if_neg own]
        exact Finmap.lookup_insert_of_ne _ own
  | cancelOrder message =>
      rw [lookup_applied_reduction book message.orderId
        (fun order => cancelQuantity order message)]
      · by_cases own : orderId = message.orderId
        · rw [messageOrderId, if_pos own, if_pos own, own]
          rfl
        · rw [messageOrderId, if_neg own, if_neg own]
      · intro absent
        simp only [applied, apply, applyCancelOrder]
        rw [absent]
      · intro order found
        unfold applied
        rw [apply_cancelOrder_of_lookup found]
  | execute message =>
      rw [lookup_applied_reduction book message.orderId
        (fun _ => message.execQty)]
      · by_cases own : orderId = message.orderId
        · rw [messageOrderId, if_pos own, if_pos own, own]
          rfl
        · rw [messageOrderId, if_neg own, if_neg own]
      · intro absent
        simp only [applied, apply, applyExecute]
        rw [absent]
      · intro order found
        unfold applied
        rw [apply_execute_of_lookup found]
  | quote message =>
      change book.orders.lookup orderId = _
      split <;> rfl

theorem applied_keyed :
    Run.Keyed applied messageOrderId
      (fun book orderId => book.orders.lookup orderId) orderAfter where
  own := fun book message => by
    rw [lookup_applied, if_pos rfl]
  other := fun book message orderId different => by
    rw [lookup_applied, if_neg different]

theorem result_eq (book : SimpleOrderBook) (message : Message) :
    (book.apply message).1 =
      resultAt (book.orders.lookup (messageOrderId message)) message := by
  cases message with
  | addOrder message => rfl
  | cancelOrder message =>
      simp only [apply, applyCancelOrder, messageOrderId, resultAt]
      cases book.orders.lookup message.orderId with
      | none => rfl
      | some order => rfl
  | execute message =>
      simp only [apply, applyExecute, messageOrderId, resultAt]
      cases book.orders.lookup message.orderId with
      | none => rfl
      | some order => rfl
  | quote message => rfl

/-! ### Levels as a function of the orders -/

theorem Summarises.levelAt_eq {book : SimpleOrderBook}
    (summary : book.Summarises book.orders) (full : book.NoEmptyLevel)
    (key : LevelKey) :
    book.levelAt key =
      if quantityAt book.orders key = 0 then none
      else some (UInt64.ofNat (quantityAt book.orders key)) := by
  have sum := summary.sum key
  rw [levelIndex_getD] at sum
  change _ = quantityAt book.orders key at sum
  rw [← sum]
  cases stored : book.levelAt key with
  | none => rfl
  | some level =>
      have nonzero : level.toNat ≠ 0 := by
        intro zero
        have levelZero : level = 0 := UInt64.toNat_inj.mp zero
        exact full key (levelZero ▸ stored)
      rw [Option.getD_some, if_neg nonzero, UInt64.ofNat_toNat]

theorem levels_eq_of_orders_eq {book other : SimpleOrderBook}
    (summary : book.Summarises book.orders) (full : book.NoEmptyLevel)
    (summary' : other.Summarises other.orders) (full' : other.NoEmptyLevel)
    (same : book.orders = other.orders) :
    book.bids = other.bids ∧ book.asks = other.asks := by
  have levels : ∀ key, book.levelAt key = other.levelAt key := by
    intro key
    rw [summary.levelAt_eq full, summary'.levelAt_eq full', same]
  exact ⟨SortedMap.ext_find? (fun price => levels (.bid, price)),
    SortedMap.ext_find? (fun price => levels (.ask, price))⟩

/-! ### Interleavings -/

/-- Every order added has something to trade. -/
def AddsQuantity (messages : List Message) : Prop :=
  ∀ message, .addOrder message ∈ messages → message.quantity ≠ 0

theorem final_full {messages : List Message} (adds : AddsQuantity messages) :
    (Run.final applied empty messages).Summarises
        (Run.final applied empty messages).orders ∧
      (Run.final applied empty messages).NoEmptyLevel := by
  have guarded : Run.Along applied
      (fun book message => ¬ book.OpensEmptyLevel message) empty messages := by
    apply Run.along_of_forall
    intro message member book opens
    cases message with
    | addOrder message => exact adds message member opens.1
    | cancelOrder message => exact opens
    | execute message => exact opens
    | quote message => exact opens
  exact Run.final_invariant_of_along
    (fun book => book.Summarises book.orders ∧ book.NoEmptyLevel)
    guarded_step_kept empty messages ⟨empty_summarises, empty_noEmptyLevel⟩
    guarded

/-- The results of a run, each beside the message it answers. -/
def results (messages : List Message) : List (Message × Bool) :=
  Run.replies applied (fun book message => (book.apply message).1) empty
    messages

/-- Two books that trade the same: equal orders and levels, and with them
equal answers to the queries about them. -/
structure TradesLike (book other : SimpleOrderBook) : Prop where
  orders : book.orders = other.orders
  bids : book.bids = other.bids
  asks : book.asks = other.asks
  bestBid : book.bestBid = other.bestBid
  bestAsk : book.bestAsk = other.bestAsk
  orderCount : book.orderCount = other.orderCount

/-- Two sequences with the same messages for every order id, in the same
order, end in the same book, and every message gets the same result in both.
Quotes, which name no order, keep their order too. -/
theorem interleaving_independent (first second : List Message)
    (adds : AddsQuantity first)
    (same : Run.SameSubsequences messageOrderId first second) :
    (Run.final applied empty first).TradesLike
        (Run.final applied empty second) ∧
      Run.SameSubsequences (fun result => messageOrderId result.1)
        (results first) (results second) := by
  have orders : (Run.final applied empty first).orders =
      (Run.final applied empty second).orders :=
    Finmap.ext_lookup (fun orderId =>
      applied_keyed.final_view_congr empty same orderId)
  obtain ⟨summary, full⟩ := final_full adds
  have adds' : AddsQuantity second := fun message member =>
    adds message ((same.mem_iff _).mpr member)
  obtain ⟨summary', full'⟩ := final_full adds'
  obtain ⟨bids, asks⟩ :=
    levels_eq_of_orders_eq summary full summary' full' orders
  refine ⟨⟨orders, bids, asks, ?_, ?_, ?_⟩, ?_⟩
  · unfold bestBid
    rw [bids]
  · unfold bestAsk
    rw [asks]
  · unfold orderCount
    rw [orders]
  · exact applied_keyed.replies_congr result_eq empty same

def cancelOf (orderId quantity : UInt32) : Message :=
  .cancelOrder
    { header := ⟨MessageType.cancelOrder.toByte⟩
      timestampNs := 0
      orderId := orderId
      quantity := quantity }

/-- Two bids on one level, the second arriving before or after the first. -/
theorem interleaving_independent_shared_level :
    (Run.final applied empty
        [bidAt100 1 5, bidAt100 2 3, cancelOf 1 2]).TradesLike
        (Run.final applied empty
          [bidAt100 2 3, bidAt100 1 5, cancelOf 1 2]) ∧
      Run.SameSubsequences (fun result => messageOrderId result.1)
        (results [bidAt100 1 5, bidAt100 2 3, cancelOf 1 2])
        (results [bidAt100 2 3, bidAt100 1 5, cancelOf 1 2]) := by
  refine interleaving_independent _ _ ?_ (.swap (by decide) [cancelOf 1 2])
  intro message member
  simp only [bidAt100, cancelOf, List.mem_cons, Message.addOrder.injEq,
    reduceCtorEq, List.not_mem_nil, or_false] at member
  rcases member with rfl | rfl <;> decide

end SimpleOrderBook

end Waler
