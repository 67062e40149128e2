/-
The level maps as a summary of the resting orders.

Abstractly a book is its resting orders, and a level is the sum of what rests
at one side and price.  The code never recomputes that sum: it adjusts the two
maps by the messages it applies.  This module shows that the maps are a group
index of the orders, that each adjustment is the corresponding index
operation, and that no 64-bit addition on the way wraps.
-/

import Mathlib.Data.FinEnum
import Waler.Book.SimpleOrderBook
import Waler.Foundation.GroupIndex
import Waler.Foundation.Run

namespace Waler

open MarketData

/-! ### Sides and levels -/

inductive BookSide
  | bid
  | ask
  deriving DecidableEq, Repr

namespace BookSide

def byte : BookSide → UInt8
  | .bid => sideBuy
  | .ask => sideSell

/-- The side a byte names; orders of other sides rest without a level. -/
def ofByte? (byte : UInt8) : Option BookSide :=
  if byte = sideBuy then some .bid
  else if byte = sideSell then some .ask
  else none

theorem ofByte?_eq_some_iff (value : UInt8) (side : BookSide) :
    ofByte? value = some side ↔ value = side.byte := by
  unfold ofByte?
  by_cases isBuy : value = sideBuy
  · rw [if_pos isBuy]
    cases side with
    | bid => exact ⟨fun _ => isBuy, fun _ => rfl⟩
    | ask =>
        constructor
        · intro impossible
          cases impossible
        · intro isSell
          exact absurd (isSell.symm.trans isBuy) sideSell_ne_sideBuy
  · rw [if_neg isBuy]
    by_cases isSell : value = sideSell
    · rw [if_pos isSell]
      cases side with
      | bid =>
          constructor
          · intro impossible
            cases impossible
          · intro same
            exact absurd same isBuy
      | ask => exact ⟨fun _ => isSell, fun _ => rfl⟩
    · rw [if_neg isSell]
      constructor
      · intro impossible
        cases impossible
      · intro same
        cases side with
        | bid => exact absurd same isBuy
        | ask => exact absurd same isSell

end BookSide

abbrev LevelKey := BookSide × PriceCents

def levelKey? (side : UInt8) (price : PriceCents) : Option LevelKey :=
  (BookSide.ofByte? side).map (fun bookSide => (bookSide, price))

theorem levelKey?_eq_some_iff (side : UInt8) (price : PriceCents)
    (key : LevelKey) :
    levelKey? side price = some key ↔ side = key.1.byte ∧ price = key.2 := by
  rcases key with ⟨bookSide, keyPrice⟩
  unfold levelKey?
  simp only [Option.map_eq_some_iff, Prod.mk.injEq,
    BookSide.ofByte?_eq_some_iff]
  constructor
  · rintro ⟨found, sideEq, rfl, rfl⟩
    exact ⟨sideEq, rfl⟩
  · rintro ⟨sideEq, rfl⟩
    exact ⟨bookSide, sideEq, rfl, rfl⟩

def RestingOrder.levelKey? (order : RestingOrder) : Option LevelKey :=
  Waler.levelKey? order.side order.price

namespace SimpleOrderBook

def levelAt (book : SimpleOrderBook) : LevelKey → Option UInt64
  | (.bid, price) => book.bids.find? price
  | (.ask, price) => book.asks.find? price

def levelIndex (book : SimpleOrderBook) (key : LevelKey) : Option ℕ :=
  (book.levelAt key).map UInt64.toNat

/-! ### Level maintenance as index operations -/

def subtracted (quantity : UInt32) (level : UInt64) : Option UInt64 :=
  if level ≤ quantity.toUInt64 then none
  else some (level - quantity.toUInt64)

theorem subtracted_toNat (quantity : UInt32) (level : UInt64) :
    (subtracted quantity level).map UInt64.toNat =
      if level.toNat ≤ quantity.toNat then none
      else some (level.toNat - quantity.toNat) := by
  have compare : level ≤ quantity.toUInt64 ↔ level.toNat ≤ quantity.toNat := by
    rw [UInt64.le_iff_toNat_le, UInt32.toNat_toUInt64]
  unfold subtracted
  by_cases covered : level ≤ quantity.toUInt64
  · rw [if_pos covered, if_pos (compare.mp covered), Option.map_none]
  · have above : ¬ level.toNat ≤ quantity.toNat := fun below =>
      covered (compare.mpr below)
    have capped : quantity.toUInt64 ≤ level := by
      rw [UInt64.le_iff_toNat_le, UInt32.toNat_toUInt64]
      omega
    rw [if_neg covered, if_neg above, Option.map_some,
      UInt64.toNat_sub_of_le _ _ capped, UInt32.toNat_toUInt64]

section Levels

variable {before : PriceCents → PriceCents → Prop} [DecidableRel before]
  [IsStrictTotalOrder PriceCents before]

theorem find?_addLevel (levels : SortedMap PriceCents UInt64 before)
    (price other : PriceCents) (quantity : UInt32) :
    (addLevel levels price quantity).find? other =
      if other = price then
        some ((levels.find? price).getD 0 + quantity.toUInt64)
      else levels.find? other := by
  unfold addLevel
  rw [SortedMap.find?_insert]

theorem find?_subtractLevel (levels : SortedMap PriceCents UInt64 before)
    (price other : PriceCents) (quantity : UInt32) :
    (subtractLevel levels price quantity).find? other =
      if other = price then (levels.find? price).bind (subtracted quantity)
      else levels.find? other := by
  cases stored : levels.find? price with
  | none =>
      simp only [subtractLevel, stored, Option.bind_none]
      split
      · rename_i same
        rw [same]
        exact stored
      · rfl
  | some level =>
      simp only [subtractLevel, stored, Option.bind_some, subtracted]
      by_cases covered : level ≤ quantity.toUInt64
      · simp only [if_pos covered, SortedMap.find?_erase]
      · simp only [if_neg covered, SortedMap.find?_insert]

end Levels

/-- An update of one price on the side a byte names, and of nothing when it
names none, changes exactly the level that the byte and the price select. -/
theorem levelAt_update (book updated : SimpleOrderBook) (side : UInt8)
    (price : PriceCents) (change : Option UInt64 → Option UInt64)
    (onBuy : side = sideBuy → updated.asks = book.asks ∧
      ∀ other, updated.bids.find? other =
        if other = price then change (book.bids.find? price)
        else book.bids.find? other)
    (onSell : side = sideSell → updated.bids = book.bids ∧
      ∀ other, updated.asks.find? other =
        if other = price then change (book.asks.find? price)
        else book.asks.find? other)
    (onOther : side ≠ sideBuy → side ≠ sideSell → updated = book)
    (key : LevelKey) :
    updated.levelAt key =
      if levelKey? side price = some key then change (book.levelAt key)
      else book.levelAt key := by
  rcases key with ⟨bookSide, other⟩
  have selected : levelKey? side price = some (bookSide, other) ↔
      side = bookSide.byte ∧ price = other :=
    levelKey?_eq_some_iff side price (bookSide, other)
  simp only [selected]
  by_cases isBuy : side = sideBuy
  · rcases onBuy isBuy with ⟨asksEq, bidsAt⟩
    cases bookSide with
    | bid =>
        simp only [levelAt, bidsAt, BookSide.byte, isBuy, true_and]
        by_cases same : other = price
        · rw [if_pos same, if_pos same.symm, same]
        · rw [if_neg same, if_neg (fun eq => same eq.symm)]
    | ask =>
        have notSell : ¬ side = sideSell := fun isSell =>
          sideSell_ne_sideBuy (isSell.symm.trans isBuy)
        simp only [levelAt, asksEq, BookSide.byte, notSell, false_and,
          if_false]
  · by_cases isSell : side = sideSell
    · rcases onSell isSell with ⟨bidsEq, asksAt⟩
      cases bookSide with
      | bid =>
          simp only [levelAt, bidsEq, BookSide.byte, isBuy, false_and,
            if_false]
      | ask =>
          simp only [levelAt, asksAt, BookSide.byte, isSell, true_and]
          by_cases same : other = price
          · rw [if_pos same, if_pos same.symm, same]
          · rw [if_neg same, if_neg (fun eq => same eq.symm)]
    · rw [onOther isBuy isSell]
      cases bookSide <;>
        simp only [BookSide.byte, isBuy, isSell, false_and, if_false]

theorem levelAt_addToLevels (book : SimpleOrderBook) (side : UInt8)
    (price : PriceCents) (quantity : UInt32) (key : LevelKey) :
    (book.addToLevels side price quantity).levelAt key =
      if levelKey? side price = some key then
        some ((book.levelAt key).getD 0 + quantity.toUInt64)
      else book.levelAt key := by
  apply levelAt_update book _ side price
    (fun level => some (level.getD 0 + quantity.toUInt64))
  · intro isBuy
    rw [addToLevels, if_pos isBuy]
    exact ⟨rfl, fun other => find?_addLevel book.bids price other quantity⟩
  · intro isSell
    rw [addToLevels, if_pos isSell, if_neg (isSell ▸ sideSell_ne_sideBuy)]
    exact ⟨rfl, fun other => find?_addLevel book.asks price other quantity⟩
  · intro notBuy notSell
    rw [addToLevels, if_neg notBuy, if_neg notSell]

theorem levelAt_removeFromLevels (book : SimpleOrderBook) (side : UInt8)
    (price : PriceCents) (quantity : UInt32) (key : LevelKey) :
    (book.removeFromLevels side price quantity).levelAt key =
      if levelKey? side price = some key then
        (book.levelAt key).bind (subtracted quantity)
      else book.levelAt key := by
  apply levelAt_update book _ side price
    (fun level => level.bind (subtracted quantity))
  · intro isBuy
    rw [removeFromLevels, if_pos isBuy]
    exact ⟨rfl, fun other => find?_subtractLevel book.bids price other quantity⟩
  · intro isSell
    rw [removeFromLevels, if_pos isSell, if_neg (isSell ▸ sideSell_ne_sideBuy)]
    exact ⟨rfl, fun other => find?_subtractLevel book.asks price other quantity⟩
  · intro notBuy notSell
    rw [removeFromLevels, if_neg notBuy, if_neg notSell]

/-- The 64-bit addition of `addToLevels` does not wrap. -/
def AddsExactly (book : SimpleOrderBook) (side : UInt8) (price : PriceCents)
    (quantity : UInt32) : Prop :=
  ∀ key, levelKey? side price = some key →
    ((book.levelAt key).getD 0).toNat + quantity.toNat < 2 ^ 64

/-- If `removeFromLevels` takes the erasing branch of `subtractLevel`, the
level is exactly the quantity removed. -/
def ErasesExactly (book : SimpleOrderBook) (side : UInt8) (price : PriceCents)
    (quantity : UInt32) : Prop :=
  ∀ key level, levelKey? side price = some key →
    book.levelAt key = some level → level ≤ quantity.toUInt64 →
      level = quantity.toUInt64

theorem levelIndex_getD (book : SimpleOrderBook) (key : LevelKey) :
    (book.levelIndex key).getD 0 = ((book.levelAt key).getD 0).toNat := by
  unfold levelIndex
  cases book.levelAt key with
  | none => rfl
  | some level => rfl

theorem levelIndex_addToLevels (book : SimpleOrderBook) (side : UInt8)
    (price : PriceCents) (quantity : UInt32)
    (noWrap : book.AddsExactly side price quantity) :
    (book.addToLevels side price quantity).levelIndex =
      GroupIndex.credit book.levelIndex (levelKey? side price)
        quantity.toNat := by
  funext key
  unfold levelIndex
  rw [levelAt_addToLevels]
  by_cases selected : levelKey? side price = some key
  · have fits := noWrap key selected
    rw [if_pos selected, selected, GroupIndex.credit_self, Option.map_some,
      UInt64.toNat_add, UInt32.toNat_toUInt64, Nat.mod_eq_of_lt fits]
    exact congrArg (fun held => some (held + quantity.toNat))
      (book.levelIndex_getD key).symm
  · rw [if_neg selected, GroupIndex.credit_other _ _ _ _ selected]

theorem levelIndex_removeFromLevels (book : SimpleOrderBook) (side : UInt8)
    (price : PriceCents) (quantity : UInt32) :
    (book.removeFromLevels side price quantity).levelIndex =
      GroupIndex.debit book.levelIndex (levelKey? side price)
        quantity.toNat := by
  funext key
  unfold levelIndex
  rw [levelAt_removeFromLevels]
  by_cases selected : levelKey? side price = some key
  · rw [if_pos selected, selected, GroupIndex.debit_self]
    cases stored : book.levelAt key with
    | none => simp only [Option.bind_none, Option.map_none]
    | some level =>
        simp only [Option.bind_some, Option.map_some]
        exact subtracted_toNat quantity level
  · rw [if_neg selected, GroupIndex.debit_other _ _ _ _ selected]

/-! ### The summary invariant -/

def Summarises (book : SimpleOrderBook) (orders : OrderMap) : Prop :=
  GroupIndex.Summarises RestingOrder.levelKey?
    (fun order => order.quantity.toNat) book.levelIndex orders

def quantityAt (orders : OrderMap) (key : LevelKey) : ℕ :=
  GroupIndex.held RestingOrder.levelKey? (fun order => order.quantity.toNat)
    orders key

/-- There are at most `2 ^ 32` ids, each with less than `2 ^ 32` of quantity,
so all that rests fits a 64-bit word. -/
theorem total_quantity_lt (orders : OrderMap) :
    FiniteMap.total (fun order : RestingOrder => order.quantity.toNat)
      orders < 2 ^ 64 := by
  have ids : Fintype.card UInt32 ≤ 2 ^ 32 := by
    have injective : Function.Injective
        (fun id : UInt32 => (⟨id.toNat, id.toNat_lt⟩ : Fin (2 ^ 32))) := by
      intro left right same
      exact UInt32.toNat_inj.mp (congrArg Fin.val same)
    have cardLe := Fintype.card_le_of_injective _ injective
    rwa [Fintype.card_fin] at cardLe
  have quantityLe : ∀ order : RestingOrder,
      order.quantity.toNat ≤ 2 ^ 32 - 1 := by
    intro order
    have quantityLt := order.quantity.toNat_lt
    omega
  calc
    FiniteMap.total (fun order : RestingOrder => order.quantity.toNat) orders
        ≤ Fintype.card UInt32 * (2 ^ 32 - 1) :=
      FiniteMap.total_le_card_mul (2 ^ 32 - 1) quantityLe orders
    _ ≤ 2 ^ 32 * (2 ^ 32 - 1) := Nat.mul_le_mul_right _ ids
    _ < 2 ^ 64 := by decide

theorem quantityAt_lt (orders : OrderMap) (key : LevelKey) :
    quantityAt orders key < 2 ^ 64 := by
  have alone : quantityAt orders key ≤
      FiniteMap.total (fun order => order.quantity.toNat) orders :=
    GroupIndex.sum_held_le (List.nodup_singleton key) orders
  exact Nat.lt_of_le_of_lt alone (total_quantity_lt orders)

theorem empty_summarises : empty.Summarises empty.orders := by
  have noLevels : empty.levelIndex = fun _ => none := by
    funext key
    rcases key with ⟨bookSide, price⟩
    cases bookSide <;> rfl
  unfold Summarises
  rw [noLevels]
  exact GroupIndex.summarises_empty

theorem Summarises.remove {book : SimpleOrderBook} {orders : OrderMap}
    (summary : book.Summarises orders) {orderId : UInt32}
    {order : RestingOrder} (found : orders.lookup orderId = some order) :
    (book.removeFromLevels order.side order.price order.quantity).Summarises
      (orders.erase orderId) := by
  unfold Summarises
  rw [levelIndex_removeFromLevels]
  exact GroupIndex.Summarises.debit_all summary found

theorem Summarises.reduce {book : SimpleOrderBook} {orders : OrderMap}
    (summary : book.Summarises orders) {orderId : UInt32}
    {order : RestingOrder} (found : orders.lookup orderId = some order)
    {quantity : UInt32} (part : quantity.toNat < order.quantity.toNat) :
    (book.removeFromLevels order.side order.price quantity).Summarises
      (orders.insert orderId
        { order with quantity := order.quantity - quantity }) := by
  have capped : quantity ≤ order.quantity := by
    rw [UInt32.le_iff_toNat_le]
    omega
  unfold Summarises
  rw [levelIndex_removeFromLevels]
  exact GroupIndex.Summarises.debit_part summary found part rfl
    (UInt32.toNat_sub_of_le _ _ capped)

theorem Summarises.erasesExactly {book : SimpleOrderBook} {orders : OrderMap}
    (summary : book.Summarises orders) {orderId : UInt32}
    {order : RestingOrder} (found : orders.lookup orderId = some order)
    {quantity : UInt32} (part : quantity.toNat ≤ order.quantity.toNat) :
    book.ErasesExactly order.side order.price quantity := by
  intro key level selected stored covered
  have indexed : book.levelIndex key = some level.toNat := by
    unfold levelIndex
    rw [stored, Option.map_some]
  rw [UInt64.le_iff_toNat_le, UInt32.toNat_toUInt64] at covered
  have same := GroupIndex.Summarises.debit_exact summary found selected part
    indexed covered
  apply UInt64.toNat_inj.mp
  rw [UInt32.toNat_toUInt64]
  exact same

/-- Adding the levels of an order whose id is free is exact: the new level is
a sum over resting orders, which fits. -/
theorem Summarises.addsExactly {book : SimpleOrderBook} {orders : OrderMap}
    (summary : book.Summarises orders) {orderId : UInt32}
    (absent : orderId ∉ orders) (order : RestingOrder) :
    book.AddsExactly order.side order.price order.quantity := by
  intro key selected
  have credited :=
    (GroupIndex.Summarises.credit_new summary absent order).sum key
  have member : order.levelKey? = some key := selected
  rw [member, GroupIndex.credit_self, Option.getD_some, levelIndex_getD]
    at credited
  rw [credited]
  exact quantityAt_lt (orders.insert orderId order) key

theorem Summarises.add {book : SimpleOrderBook} {orders : OrderMap}
    (summary : book.Summarises orders) {orderId : UInt32}
    (absent : orderId ∉ orders) (order : RestingOrder) :
    (book.addToLevels order.side order.price order.quantity).Summarises
      (orders.insert orderId order) := by
  unfold Summarises
  rw [levelIndex_addToLevels book order.side order.price order.quantity
    (summary.addsExactly absent order)]
  exact GroupIndex.Summarises.credit_new summary absent order

/-! ### One message -/

/-- After `storeOrder` the levels summarise the orders other than the new
one, which is already stored but not yet in its level. -/
theorem storeOrder_summarises {book : SimpleOrderBook}
    (summary : book.Summarises book.orders) (message : AddOrderMessage) :
    (book.storeOrder message).Summarises
      (book.orders.erase message.orderId) := by
  cases found : book.orders.lookup message.orderId with
  | none =>
      have absent : message.orderId ∉ book.orders :=
        Finmap.lookup_eq_none.mp found
      have levelsKept :
          (book.storeOrder message).levelIndex = book.levelIndex := by
        unfold storeOrder
        rw [found]
        rfl
      unfold Summarises
      rw [levelsKept, FiniteMap.erase_of_notMem absent]
      exact summary
  | some replaced =>
      have levelsReleased :
          (book.storeOrder message).levelIndex =
            (book.removeFromLevels replaced.side replaced.price
              replaced.quantity).levelIndex := by
        unfold storeOrder
        rw [found]
        rfl
      unfold Summarises
      rw [levelsReleased]
      exact summary.remove found

theorem applyAddOrder_summarises {book : SimpleOrderBook}
    (summary : book.Summarises book.orders) (message : AddOrderMessage) :
    (book.applyAddOrder message).2.Summarises
      (book.applyAddOrder message).2.orders := by
  have added := (storeOrder_summarises summary message).add
    (FiniteMap.notMem_erase_self book.orders message.orderId)
    { side := message.side
      price := message.price
      quantity := message.quantity
      timestampNs := message.timestampNs }
  rw [FiniteMap.insert_erase] at added
  unfold applyAddOrder
  rw [addToLevels_orders, storeOrder_orders]
  exact added

theorem reduceOrder_summarises {book : SimpleOrderBook}
    (summary : book.Summarises book.orders) {orderId : UInt32}
    {order : RestingOrder} (found : book.orders.lookup orderId = some order)
    (reduceQty : UInt32) :
    (book.reduceOrder orderId order reduceQty).Summarises
      (book.reduceOrder orderId order reduceQty).orders := by
  have levels : (book.reduceOrder orderId order reduceQty).levelIndex =
      (book.removeFromLevels order.side order.price
        (removedQuantity order reduceQty)).levelIndex := by
    unfold reduceOrder
    simp only
    split <;> rfl
  have removed := removedQuantity_toNat order reduceQty
  unfold Summarises
  rw [levels]
  by_cases covered : order.quantity.toNat ≤ reduceQty.toNat
  · have whole : removedQuantity order reduceQty = order.quantity := by
      apply UInt32.toNat_inj.mp
      omega
    rw [reduceOrder_orders_of_covered book orderId order reduceQty covered,
      whole]
    exact summary.remove found
  · have partly : reduceQty.toNat < order.quantity.toNat := by omega
    have part : removedQuantity order reduceQty = reduceQty := by
      apply UInt32.toNat_inj.mp
      omega
    rw [reduceOrder_orders_of_part book orderId order reduceQty partly, part]
    exact summary.reduce found partly

theorem applied_summarises (book : SimpleOrderBook) (message : Message)
    (summary : book.Summarises book.orders) :
    (book.applied message).Summarises (book.applied message).orders := by
  unfold applied apply
  cases message with
  | addOrder message => exact applyAddOrder_summarises summary message
  | cancelOrder message =>
      simp only [applyCancelOrder]
      cases found : book.orders.lookup message.orderId with
      | none => exact summary
      | some order => exact reduceOrder_summarises summary found _
  | execute message =>
      simp only [applyExecute]
      cases found : book.orders.lookup message.orderId with
      | none => exact summary
      | some order => exact reduceOrder_summarises summary found _
  | quote message => exact summary

theorem final_summarises (messages : List Message) :
    (Run.final applied empty messages).Summarises
      (Run.final applied empty messages).orders :=
  Run.final_invariant (fun book => book.Summarises book.orders)
    applied_summarises empty messages empty_summarises

end SimpleOrderBook

end Waler
