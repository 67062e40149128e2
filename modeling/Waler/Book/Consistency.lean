/-
Consistency of the level maps with the resting orders, in the book's own
terms, for every run of `apply` from an empty book.
-/

import Waler.Book.LevelIndex

namespace Waler

open MarketData

namespace SimpleOrderBook

def restingQuantity (book : SimpleOrderBook) (side : UInt8)
    (price : PriceCents) : ℕ :=
  FiniteMap.total
    (fun order =>
      if order.side = side ∧ order.price = price then order.quantity.toNat
      else 0)
    book.orders

def RestsAt (book : SimpleOrderBook) (side : UInt8) (price : PriceCents) :
    Prop :=
  ∃ orderId order, book.orders.lookup orderId = some order ∧
    order.side = side ∧ order.price = price

/-- Both level maps store exactly the resting sums, and no level without an
order. -/
structure LevelsConsistent (book : SimpleOrderBook) : Prop where
  bid_sum : ∀ price,
    ((book.bids.find? price).getD 0).toNat =
      book.restingQuantity sideBuy price
  ask_sum : ∀ price,
    ((book.asks.find? price).getD 0).toNat =
      book.restingQuantity sideSell price
  bid_inhabited : ∀ price,
    (book.bids.find? price).isSome → book.RestsAt sideBuy price
  ask_inhabited : ∀ price,
    (book.asks.find? price).isSome → book.RestsAt sideSell price

/-- The level arithmetic that applying a message performs is exact: the
removals erase only what they remove, and the addition does not wrap.  Each
condition is about the book at the moment of the call. -/
def ExactStep (book : SimpleOrderBook) : Message → Prop
  | .addOrder message =>
      (∀ replaced, book.orders.lookup message.orderId = some replaced →
        book.ErasesExactly replaced.side replaced.price replaced.quantity) ∧
      (book.storeOrder message).AddsExactly message.side message.price
        message.quantity
  | .cancelOrder message =>
      ∀ order, book.orders.lookup message.orderId = some order →
        book.ErasesExactly order.side order.price
          (removedQuantity order (cancelQuantity order message))
  | .execute message =>
      ∀ order, book.orders.lookup message.orderId = some order →
        book.ErasesExactly order.side order.price
          (removedQuantity order message.execQty)
  | .quote _ => True

theorem restingQuantity_eq (book : SimpleOrderBook) (key : LevelKey) :
    book.restingQuantity key.1.byte key.2 = quantityAt book.orders key := by
  unfold restingQuantity quantityAt GroupIndex.held
  congr 1
  funext order
  unfold GroupIndex.share
  have selected :
      order.levelKey? = some key ↔
        order.side = key.1.byte ∧ order.price = key.2 :=
    levelKey?_eq_some_iff order.side order.price key
  simp only [selected]

theorem Summarises.level_sum {book : SimpleOrderBook}
    (summary : book.Summarises book.orders) (key : LevelKey) :
    ((book.levelAt key).getD 0).toNat =
      book.restingQuantity key.1.byte key.2 := by
  rw [← levelIndex_getD, restingQuantity_eq]
  exact summary.sum key

theorem Summarises.level_inhabited {book : SimpleOrderBook}
    (summary : book.Summarises book.orders) (key : LevelKey)
    (stored : (book.levelAt key).isSome) :
    book.RestsAt key.1.byte key.2 := by
  have indexed : (book.levelIndex key).isSome := by
    unfold levelIndex
    rwa [Option.isSome_map]
  rcases summary.inhabited key indexed with ⟨orderId, order, found, member⟩
  exact ⟨orderId, order, found,
    (levelKey?_eq_some_iff order.side order.price key).mp member⟩

theorem Summarises.consistent {book : SimpleOrderBook}
    (summary : book.Summarises book.orders) : book.LevelsConsistent where
  bid_sum := fun price => summary.level_sum (.bid, price)
  ask_sum := fun price => summary.level_sum (.ask, price)
  bid_inhabited := fun price => summary.level_inhabited (.bid, price)
  ask_inhabited := fun price => summary.level_inhabited (.ask, price)

theorem Summarises.exactStep {book : SimpleOrderBook}
    (summary : book.Summarises book.orders) (message : Message) :
    book.ExactStep message := by
  have reduction : ∀ orderId order reduceQty,
      book.orders.lookup orderId = some order →
        book.ErasesExactly order.side order.price
          (removedQuantity order reduceQty) := by
    intro orderId order reduceQty found
    have removed := removedQuantity_toNat order reduceQty
    exact summary.erasesExactly found (by omega)
  cases message with
  | addOrder message =>
      constructor
      · intro replaced found
        exact summary.erasesExactly found (Nat.le_refl _)
      · exact (storeOrder_summarises summary message).addsExactly
          (FiniteMap.notMem_erase_self book.orders message.orderId)
          { side := message.side
            price := message.price
            quantity := message.quantity
            timestampNs := message.timestampNs }
  | cancelOrder message =>
      intro order found
      exact reduction message.orderId order _ found
  | execute message =>
      intro order found
      exact reduction message.orderId order _ found
  | quote message => trivial

/-- After every run of messages from an empty book, the level maps agree with
the resting orders, and whatever message comes next is applied with exact
level arithmetic. -/
theorem final_levels_consistent (messages : List Message) :
    (Run.final applied empty messages).LevelsConsistent ∧
      ∀ message, (Run.final applied empty messages).ExactStep message :=
  ⟨(final_summarises messages).consistent,
    (final_summarises messages).exactStep⟩

end SimpleOrderBook

end Waler
