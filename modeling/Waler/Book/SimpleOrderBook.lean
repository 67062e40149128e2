/-
The order book of SimpleOrderBook.hpp: its state, the level maps it maintains
beside the resting orders, and the four `apply` overloads.

`orders_` is an unordered map, so it is a finite map without an iteration
order; `bids_` and `asks_` are ordered maps and keep theirs.  Quantities are
32-bit words in orders and 64-bit words in levels.
-/

import Waler.Foundation.FiniteMap
import Waler.Foundation.SortedMap
import Waler.MarketData

namespace Waler

open MarketData

/-! ### Price order -/

instance : IsStrictTotalOrder PriceCents (· < ·) where
  trichotomous left right notBelow notAbove := by
    rw [UInt32.lt_iff_toNat_lt] at notBelow notAbove
    exact UInt32.toNat_inj.mp (by omega)
  irrefl price below := by
    rw [UInt32.lt_iff_toNat_lt] at below
    omega
  trans _ _ _ first second := by
    rw [UInt32.lt_iff_toNat_lt] at *
    omega

instance : IsStrictTotalOrder PriceCents (· > ·) where
  trichotomous left right notAbove notBelow :=
    Std.Trichotomous.trichotomous (r := (· < ·)) left right notBelow notAbove
  irrefl price above := irrefl_of (· < ·) price above
  trans _ _ _ first second := trans_of (· < ·) second first

/-! ### State -/

structure Level where
  price : PriceCents
  quantity : UInt32
  deriving DecidableEq, Repr

structure Quote where
  timestampNs : UInt64
  bid : Level
  ask : Level
  deriving DecidableEq, Repr

structure RestingOrder where
  side : UInt8
  price : PriceCents
  quantity : UInt32
  timestampNs : UInt64
  deriving DecidableEq, Repr

abbrev OrderMap := Finmap (fun _ : UInt32 => RestingOrder)

abbrev BidLevels := SortedMap PriceCents UInt64 (· > ·)

abbrev AskLevels := SortedMap PriceCents UInt64 (· < ·)

structure SimpleOrderBook where
  orders : OrderMap
  bids : BidLevels
  asks : AskLevels
  lastQuote : Option Quote
  deriving DecidableEq

def sideBuy : UInt8 := 'B'.toUInt8

def sideSell : UInt8 := 'S'.toUInt8

theorem sideSell_ne_sideBuy : sideSell ≠ sideBuy := by
  decide

namespace SimpleOrderBook

def empty : SimpleOrderBook :=
  { orders := ∅
    bids := SortedMap.empty
    asks := SortedMap.empty
    lastQuote := none }

/-! ### Level maintenance -/

section Levels

variable {before : PriceCents → PriceCents → Prop} [DecidableRel before]
  [IsStrictTotalOrder PriceCents before]

/-- `levels[price] += quantity`, which creates an absent level at zero. -/
def addLevel (levels : SortedMap PriceCents UInt64 before) (price : PriceCents)
    (quantity : UInt32) : SortedMap PriceCents UInt64 before :=
  levels.insert price ((levels.find? price).getD 0 + quantity.toUInt64)

def subtractLevel (levels : SortedMap PriceCents UInt64 before)
    (price : PriceCents) (quantity : UInt32) :
    SortedMap PriceCents UInt64 before :=
  match levels.find? price with
  | none => levels
  | some level =>
      if level ≤ quantity.toUInt64 then levels.erase price
      else levels.insert price (level - quantity.toUInt64)

end Levels

def addToLevels (book : SimpleOrderBook) (side : UInt8) (price : PriceCents)
    (quantity : UInt32) : SimpleOrderBook :=
  if side = sideBuy then
    { book with bids := addLevel book.bids price quantity }
  else if side = sideSell then
    { book with asks := addLevel book.asks price quantity }
  else book

def removeFromLevels (book : SimpleOrderBook) (side : UInt8)
    (price : PriceCents) (quantity : UInt32) : SimpleOrderBook :=
  if side = sideBuy then
    { book with bids := subtractLevel book.bids price quantity }
  else if side = sideSell then
    { book with asks := subtractLevel book.asks price quantity }
  else book

/-! ### Applying messages -/

/-- `removed_qty` of `reduceOrder`: a reduction is capped at what rests. -/
def removedQuantity (order : RestingOrder) (reduceQty : UInt32) : UInt32 :=
  if reduceQty ≥ order.quantity then order.quantity else reduceQty

/-- `reduceOrder(it, reduce_qty)`, the iterator given as the id it points at
and the order stored there. -/
def reduceOrder (book : SimpleOrderBook) (orderId : UInt32)
    (order : RestingOrder) (reduceQty : UInt32) : SimpleOrderBook :=
  let removedQty := removedQuantity order reduceQty
  let reduced := book.removeFromLevels order.side order.price removedQty
  let remaining := order.quantity - removedQty
  if remaining = 0 then
    { reduced with orders := reduced.orders.erase orderId }
  else
    { reduced with
      orders := reduced.orders.insert orderId
        { order with quantity := remaining } }

/-- The first part of `apply(AddOrderMessage)`: an order replaced by the new
one gives up its level, and the new order is stored. -/
def storeOrder (book : SimpleOrderBook) (message : AddOrderMessage) :
    SimpleOrderBook :=
  let released :=
    match book.orders.lookup message.orderId with
    | some replaced =>
        book.removeFromLevels replaced.side replaced.price replaced.quantity
    | none => book
  { released with
    orders := released.orders.insert message.orderId
      { side := message.side
        price := message.price
        quantity := message.quantity
        timestampNs := message.timestampNs } }

def applyAddOrder (book : SimpleOrderBook) (message : AddOrderMessage) :
    Bool × SimpleOrderBook :=
  (true, (book.storeOrder message).addToLevels message.side message.price
    message.quantity)

/-- `cancel_qty`: a cancel for zero takes the whole order. -/
def cancelQuantity (order : RestingOrder) (message : CancelOrderMessage) :
    UInt32 :=
  if message.quantity = 0 then order.quantity else message.quantity

def applyCancelOrder (book : SimpleOrderBook) (message : CancelOrderMessage) :
    Bool × SimpleOrderBook :=
  match book.orders.lookup message.orderId with
  | none => (false, book)
  | some order =>
      (true, book.reduceOrder message.orderId order
        (cancelQuantity order message))

def applyExecute (book : SimpleOrderBook) (message : ExecuteMessage) :
    Bool × SimpleOrderBook :=
  match book.orders.lookup message.orderId with
  | none => (false, book)
  | some order =>
      (true, book.reduceOrder message.orderId order message.execQty)

def applyQuote (book : SimpleOrderBook) (message : QuoteMessage) :
    Bool × SimpleOrderBook :=
  (true,
    { book with
      lastQuote := some
        { timestampNs := message.timestampNs
          bid := ⟨message.bidPrice, message.bidQty⟩
          ask := ⟨message.askPrice, message.askQty⟩ } })

def apply (book : SimpleOrderBook) : Message → Bool × SimpleOrderBook
  | .addOrder message => book.applyAddOrder message
  | .cancelOrder message => book.applyCancelOrder message
  | .execute message => book.applyExecute message
  | .quote message => book.applyQuote message

def applied (book : SimpleOrderBook) (message : Message) : SimpleOrderBook :=
  (book.apply message).2

/-! ### Queries -/

def orderCount (book : SimpleOrderBook) : ℕ :=
  Multiset.card book.orders.entries

def narrowQuantity (quantity : UInt64) : UInt32 :=
  if quantity > 0xffffffff then 0xffffffff else quantity.toUInt32

def bestBid (book : SimpleOrderBook) : Option Level :=
  book.bids.first?.map (fun (price, quantity) =>
    ⟨price, narrowQuantity quantity⟩)

def bestAsk (book : SimpleOrderBook) : Option Level :=
  book.asks.first?.map (fun (price, quantity) =>
    ⟨price, narrowQuantity quantity⟩)

/-! ### Messages about a resting order -/

theorem apply_cancelOrder_of_lookup {book : SimpleOrderBook}
    {message : CancelOrderMessage} {order : RestingOrder}
    (found : book.orders.lookup message.orderId = some order) :
    book.apply (.cancelOrder message) =
      (true, book.reduceOrder message.orderId order
        (cancelQuantity order message)) := by
  simp only [apply, applyCancelOrder]
  rw [found]

theorem apply_execute_of_lookup {book : SimpleOrderBook}
    {message : ExecuteMessage} {order : RestingOrder}
    (found : book.orders.lookup message.orderId = some order) :
    book.apply (.execute message) =
      (true, book.reduceOrder message.orderId order message.execQty) := by
  simp only [apply, applyExecute]
  rw [found]

/-! ### Orders after one message -/

@[simp] theorem addToLevels_orders (book : SimpleOrderBook) (side : UInt8)
    (price : PriceCents) (quantity : UInt32) :
    (book.addToLevels side price quantity).orders = book.orders := by
  unfold addToLevels
  split
  · rfl
  · split <;> rfl

@[simp] theorem removeFromLevels_orders (book : SimpleOrderBook) (side : UInt8)
    (price : PriceCents) (quantity : UInt32) :
    (book.removeFromLevels side price quantity).orders = book.orders := by
  unfold removeFromLevels
  split
  · rfl
  · split <;> rfl

@[simp] theorem storeOrder_orders (book : SimpleOrderBook)
    (message : AddOrderMessage) :
    (book.storeOrder message).orders =
      book.orders.insert message.orderId
        { side := message.side
          price := message.price
          quantity := message.quantity
          timestampNs := message.timestampNs } := by
  unfold storeOrder
  cases book.orders.lookup message.orderId with
  | none => rfl
  | some replaced => simp only [removeFromLevels_orders]

theorem removedQuantity_toNat (order : RestingOrder) (reduceQty : UInt32) :
    (removedQuantity order reduceQty).toNat =
      min reduceQty.toNat order.quantity.toNat := by
  unfold removedQuantity
  split
  · rename_i covered
    rw [ge_iff_le, UInt32.le_iff_toNat_le] at covered
    omega
  · rename_i partly
    rw [ge_iff_le, UInt32.le_iff_toNat_le] at partly
    omega

theorem remaining_toNat (order : RestingOrder) (reduceQty : UInt32) :
    (order.quantity - removedQuantity order reduceQty).toNat =
      order.quantity.toNat - reduceQty.toNat := by
  have removed := removedQuantity_toNat order reduceQty
  have capped : removedQuantity order reduceQty ≤ order.quantity := by
    rw [UInt32.le_iff_toNat_le]
    omega
  rw [UInt32.toNat_sub_of_le _ _ capped]
  omega

theorem reduceOrder_orders_of_covered (book : SimpleOrderBook)
    (orderId : UInt32) (order : RestingOrder) (reduceQty : UInt32)
    (covered : order.quantity.toNat ≤ reduceQty.toNat) :
    (book.reduceOrder orderId order reduceQty).orders =
      book.orders.erase orderId := by
  have gone : order.quantity - removedQuantity order reduceQty = 0 := by
    apply UInt32.toNat_inj.mp
    rw [remaining_toNat]
    exact Nat.sub_eq_zero_of_le covered
  unfold reduceOrder
  simp only [gone, if_true, removeFromLevels_orders]

theorem reduceOrder_orders_of_part (book : SimpleOrderBook)
    (orderId : UInt32) (order : RestingOrder) (reduceQty : UInt32)
    (part : reduceQty.toNat < order.quantity.toNat) :
    (book.reduceOrder orderId order reduceQty).orders =
      book.orders.insert orderId
        { order with quantity := order.quantity - reduceQty } := by
  have removed : removedQuantity order reduceQty = reduceQty := by
    apply UInt32.toNat_inj.mp
    rw [removedQuantity_toNat]
    omega
  have kept : order.quantity - reduceQty ≠ 0 := by
    intro none
    have left := remaining_toNat order reduceQty
    rw [removed, none] at left
    change 0 = _ at left
    omega
  unfold reduceOrder
  simp only [removed, kept, if_false, removeFromLevels_orders]

end SimpleOrderBook

end Waler
