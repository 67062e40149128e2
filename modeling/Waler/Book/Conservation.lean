/-
Where the quantity of a book comes from and where it goes.

Quantity enters a book with the orders added to it.  It leaves when an order
is cancelled, executed, replaced by another of its id, or cleared with the
book.  Nothing else changes what rests, at any price or over all of them.
-/

import Waler.Book.Consistency
import Waler.Foundation.Simulation

namespace Waler

open MarketData

namespace SimpleOrderBook

def clear (book : SimpleOrderBook) : SimpleOrderBook :=
  { book with
    orders := ∅
    bids := SortedMap.empty
    asks := SortedMap.empty
    lastQuote := none }

/-- The calls that change a book. -/
inductive BookCall
  | apply (message : Message)
  | clear

def called (book : SimpleOrderBook) : BookCall → SimpleOrderBook
  | .apply message => book.applied message
  | .clear => book.clear

/-! ### Accounts

What is counted is the quantity at the sides and prices that `counts` picks.
-/

section Accounts

variable (counts : UInt8 → PriceCents → Bool)

def share (order : RestingOrder) : ℕ :=
  if counts order.side order.price then order.quantity.toNat else 0

def resting (book : SimpleOrderBook) : ℕ :=
  FiniteMap.total (share counts) book.orders

def entered (_book : SimpleOrderBook) : BookCall → ℕ
  | .apply (.addOrder message) =>
      share counts
        { side := message.side
          price := message.price
          quantity := message.quantity
          timestampNs := message.timestampNs }
  | _ => 0

/-- What an added order of a known id takes the place of. -/
def replaced (book : SimpleOrderBook) : BookCall → ℕ
  | .apply (.addOrder message) =>
      (book.orders.lookup message.orderId).elim 0 (share counts)
  | _ => 0

def reduction (order : RestingOrder) (reduceQty : UInt32) : ℕ :=
  share counts { order with quantity := removedQuantity order reduceQty }

def cancelled (book : SimpleOrderBook) : BookCall → ℕ
  | .apply (.cancelOrder message) =>
      (book.orders.lookup message.orderId).elim 0
        (fun order => reduction counts order (cancelQuantity order message))
  | _ => 0

def executed (book : SimpleOrderBook) : BookCall → ℕ
  | .apply (.execute message) =>
      (book.orders.lookup message.orderId).elim 0
        (fun order => reduction counts order message.execQty)
  | _ => 0

def cleared (book : SimpleOrderBook) : BookCall → ℕ
  | .clear => resting counts book
  | _ => 0

end Accounts

variable {counts : UInt8 → PriceCents → Bool}

/-! ### One call -/

theorem resting_reduceOrder {book : SimpleOrderBook} {orderId : UInt32}
    {order : RestingOrder} (found : book.orders.lookup orderId = some order)
    (reduceQty : UInt32) :
    resting counts (book.reduceOrder orderId order reduceQty) +
        reduction counts order reduceQty =
      resting counts book := by
  have removed := removedQuantity_toNat order reduceQty
  unfold resting
  rw [FiniteMap.total_of_lookup found]
  by_cases covered : order.quantity.toNat ≤ reduceQty.toNat
  · have whole : removedQuantity order reduceQty = order.quantity := by
      apply UInt32.toNat_inj.mp
      omega
    rw [reduceOrder_orders_of_covered book orderId order reduceQty covered]
    unfold reduction
    rw [whole, Nat.add_comm]
  · have partly : reduceQty.toNat < order.quantity.toNat := by omega
    have part : removedQuantity order reduceQty = reduceQty := by
      apply UInt32.toNat_inj.mp
      omega
    have left : (order.quantity - reduceQty).toNat =
        order.quantity.toNat - reduceQty.toNat :=
      UInt32.toNat_sub_of_le _ _ (UInt32.le_iff_toNat_le.mpr partly.le)
    rw [reduceOrder_orders_of_part book orderId order reduceQty partly,
      FiniteMap.total_insert]
    unfold reduction share
    rw [part]
    dsimp only
    split <;> omega

theorem resting_applyAddOrder (book : SimpleOrderBook)
    (message : AddOrderMessage) :
    resting counts (book.applied (.addOrder message)) +
        (book.orders.lookup message.orderId).elim 0 (share counts) =
      resting counts book +
        share counts
          { side := message.side
            price := message.price
            quantity := message.quantity
            timestampNs := message.timestampNs } := by
  have orders : (book.applied (.addOrder message)).orders =
      book.orders.insert message.orderId
        { side := message.side
          price := message.price
          quantity := message.quantity
          timestampNs := message.timestampNs } := by
    change ((book.storeOrder message).addToLevels _ _ _).orders = _
    rw [addToLevels_orders, storeOrder_orders]
  unfold resting
  rw [orders, FiniteMap.total_insert]
  cases found : book.orders.lookup message.orderId with
  | none =>
      rw [FiniteMap.erase_of_notMem (Finmap.lookup_eq_none.mp found)]
      exact Nat.add_comm (share counts _) _
  | some order =>
      rw [FiniteMap.total_of_lookup found, Option.elim_some]
      omega

theorem resting_applyCancelOrder (book : SimpleOrderBook)
    (message : CancelOrderMessage) :
    resting counts (book.applied (.cancelOrder message)) +
        (book.orders.lookup message.orderId).elim 0
          (fun order =>
            reduction counts order (cancelQuantity order message)) =
      resting counts book := by
  cases found : book.orders.lookup message.orderId with
  | none =>
      unfold applied
      simp only [apply, applyCancelOrder]
      rw [found]
      rfl
  | some order =>
      unfold applied
      rw [apply_cancelOrder_of_lookup found]
      exact resting_reduceOrder found _

theorem resting_applyExecute (book : SimpleOrderBook)
    (message : ExecuteMessage) :
    resting counts (book.applied (.execute message)) +
        (book.orders.lookup message.orderId).elim 0
          (fun order => reduction counts order message.execQty) =
      resting counts book := by
  cases found : book.orders.lookup message.orderId with
  | none =>
      unfold applied
      simp only [apply, applyExecute]
      rw [found]
      rfl
  | some order =>
      unfold applied
      rw [apply_execute_of_lookup found]
      exact resting_reduceOrder found _

/-- What leaves the book with a call, for whatever reason. -/
def removed (counts : UInt8 → PriceCents → Bool) (book : SimpleOrderBook)
    (call : BookCall) : ℕ :=
  cancelled counts book call + executed counts book call +
    (replaced counts book call + cleared counts book call)

/-- Every call accounts for what it changes. -/
theorem called_balanced (counts : UInt8 → PriceCents → Bool)
    (book : SimpleOrderBook) (call : BookCall) :
    resting counts (book.called call) + removed counts book call =
      resting counts book + entered counts book call := by
  cases call with
  | clear =>
      change 0 + (0 + 0 + (0 + resting counts book)) = resting counts book + 0
      omega
  | apply message =>
      cases message with
      | addOrder message =>
          change _ + (0 + 0 + (_ + 0)) = _
          rw [Nat.add_zero, Nat.zero_add]
          exact resting_applyAddOrder book message
      | cancelOrder message =>
          change _ + (_ + 0 + (0 + 0)) = _ + 0
          exact resting_applyCancelOrder book message
      | execute message =>
          change _ + (0 + _ + (0 + 0)) = _ + 0
          rw [Nat.zero_add]
          exact resting_applyExecute book message
      | quote message => rfl

/-! ### Runs -/

theorem called_summarises (book : SimpleOrderBook) (call : BookCall)
    (summary : book.Summarises book.orders) :
    (book.called call).Summarises (book.called call).orders := by
  cases call with
  | apply message => exact applied_summarises book message summary
  | clear => exact empty_summarises

theorem tally_removed (counts : UInt8 → PriceCents → Bool)
    (book : SimpleOrderBook) (calls : List BookCall) :
    Run.tally called (removed counts) book calls =
      Run.tally called (cancelled counts) book calls +
          Run.tally called (executed counts) book calls +
        (Run.tally called (replaced counts) book calls +
          Run.tally called (cleared counts) book calls) := by
  rw [← Run.tally_add, ← Run.tally_add, ← Run.tally_add]
  rfl

/-- The account of a single level. -/
def atLevel (key : LevelKey) (side : UInt8) (price : PriceCents) : Bool :=
  decide (side = key.1.byte ∧ price = key.2)

theorem resting_atLevel (book : SimpleOrderBook) (key : LevelKey) :
    resting (atLevel key) book = book.restingQuantity key.1.byte key.2 := by
  unfold resting restingQuantity
  congr 1
  funext order
  unfold share atLevel
  simp only [decide_eq_true_eq]

/-- For every sequence of calls from an empty book and every choice of sides
and prices: what was added there rests there or was cancelled, executed,
replaced or cleared; and for a single side and price, what rests is the
quantity of the level. -/
theorem quantity_conserved (calls : List BookCall) :
    let book := Run.final called empty calls
    let tally := fun amount => Run.tally called amount empty calls
    (∀ counts, resting counts book +
        (tally (cancelled counts) + tally (executed counts) +
          (tally (replaced counts) + tally (cleared counts))) =
      tally (entered counts)) ∧
    ∀ key, ((book.levelAt key).getD 0).toNat = resting (atLevel key) book := by
  intro book tally
  constructor
  · intro counts
    have balance := Run.tally_balanced (resting counts)
      (called_balanced counts) empty calls
    rw [tally_removed] at balance
    exact balance.trans (Nat.zero_add _)
  · intro key
    have summary : book.Summarises book.orders :=
      Run.final_invariant (fun book => book.Summarises book.orders)
        called_summarises empty calls empty_summarises
    rw [resting_atLevel]
    exact summary.level_sum key

end SimpleOrderBook

end Waler
