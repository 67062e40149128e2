/-
The best bid and ask against the orders that can trade.

`bestBid` and `bestAsk` report the first stored level.  A level whose orders
all have zero quantity is stored when such an order opens it, and is then
reported although nothing trades there.  The module shows that this is the
only way the top of the book goes wrong.
-/

import Waler.Book.Consistency

namespace Waler

open MarketData

namespace SimpleOrderBook

def TradesAt (book : SimpleOrderBook) (side : UInt8) (price : PriceCents) :
    Prop :=
  ∃ orderId order, book.orders.lookup orderId = some order ∧
    order.side = side ∧ order.price = price ∧ 0 < order.quantity.toNat

/-- The reported bests are exactly the best prices at which something trades,
with the saturated sum of what rests there. -/
structure TopOfBook (book : SimpleOrderBook) : Prop where
  no_bid : book.bestBid = none ↔ ∀ price, ¬ book.TradesAt sideBuy price
  best_bid : ∀ level, book.bestBid = some level →
    book.TradesAt sideBuy level.price ∧
      (∀ price, book.TradesAt sideBuy price → price ≤ level.price) ∧
      level.quantity.toNat =
        min (book.restingQuantity sideBuy level.price) (2 ^ 32 - 1) ∧
      level.quantity ≠ 0
  no_ask : book.bestAsk = none ↔ ∀ price, ¬ book.TradesAt sideSell price
  best_ask : ∀ level, book.bestAsk = some level →
    book.TradesAt sideSell level.price ∧
      (∀ price, book.TradesAt sideSell price → level.price ≤ price) ∧
      level.quantity.toNat =
        min (book.restingQuantity sideSell level.price) (2 ^ 32 - 1) ∧
      level.quantity ≠ 0

/-- An order of zero quantity arrives on a side with levels, at a price where
no other resting order has anything to trade. -/
def OpensEmptyLevel (book : SimpleOrderBook) : Message → Prop
  | .addOrder message =>
      message.quantity = 0 ∧
        (message.side = sideBuy ∨ message.side = sideSell) ∧
        ∀ orderId order, book.orders.lookup orderId = some order →
          orderId ≠ message.orderId → order.side = message.side →
            order.price = message.price → order.quantity = 0
  | _ => False

def NoEmptyLevel (book : SimpleOrderBook) : Prop :=
  ∀ key, book.levelAt key ≠ some 0

/-! ### Empty levels are only ever opened -/

theorem NoEmptyLevel.remove {book : SimpleOrderBook}
    (full : book.NoEmptyLevel) (side : UInt8) (price : PriceCents)
    (quantity : UInt32) :
    (book.removeFromLevels side price quantity).NoEmptyLevel := by
  intro key stored
  rw [levelAt_removeFromLevels] at stored
  split at stored
  · rcases Option.bind_eq_some_iff.mp stored with ⟨level, _, rest⟩
    have restNat := subtracted_toNat quantity level
    rw [rest, Option.map_some] at restNat
    split at restNat
    · cases restNat
    · rename_i above
      have zero : (0 : UInt64).toNat = level.toNat - quantity.toNat :=
        Option.some.inj restNat
      change 0 = level.toNat - quantity.toNat at zero
      omega
  · exact full key stored

theorem NoEmptyLevel.storeOrder {book : SimpleOrderBook}
    (full : book.NoEmptyLevel) (message : AddOrderMessage) :
    (book.storeOrder message).NoEmptyLevel := by
  intro key stored
  unfold SimpleOrderBook.storeOrder at stored
  cases found : book.orders.lookup message.orderId with
  | none =>
      rw [found] at stored
      exact full key stored
  | some replaced =>
      rw [found] at stored
      exact full.remove replaced.side replaced.price replaced.quantity key
        stored

theorem quantityAt_pos_iff (orders : OrderMap) (key : LevelKey) :
    0 < quantityAt orders key ↔
      ∃ orderId order, orders.lookup orderId = some order ∧
        order.side = key.1.byte ∧ order.price = key.2 ∧
          0 < order.quantity.toNat := by
  unfold quantityAt GroupIndex.held
  rw [FiniteMap.total_pos_iff]
  have positive : ∀ order : RestingOrder,
      0 < GroupIndex.share RestingOrder.levelKey?
          (fun order => order.quantity.toNat) key order ↔
        order.side = key.1.byte ∧ order.price = key.2 ∧
          0 < order.quantity.toNat := by
    intro order
    have selected :
        order.levelKey? = some key ↔
          order.side = key.1.byte ∧ order.price = key.2 :=
      levelKey?_eq_some_iff order.side order.price key
    unfold GroupIndex.share
    by_cases member : order.levelKey? = some key
    · have place := selected.mp member
      rw [if_pos member]
      exact ⟨fun quantity => ⟨place.1, place.2, quantity⟩,
        fun all => all.2.2⟩
    · rw [if_neg member]
      constructor
      · intro impossible
        exact absurd impossible (Nat.lt_irrefl 0)
      · intro all
        exact absurd (selected.mpr ⟨all.1, all.2.1⟩) member
  simp only [positive]

theorem applyAddOrder_noEmptyLevel {book : SimpleOrderBook}
    (summary : book.Summarises book.orders) (full : book.NoEmptyLevel)
    (message : AddOrderMessage)
    (opens : ¬ book.OpensEmptyLevel (.addOrder message)) :
    (book.applyAddOrder message).2.NoEmptyLevel := by
  intro key stored
  have storedFull := full.storeOrder message
  have stored' :
      ((book.storeOrder message).addToLevels message.side message.price
        message.quantity).levelAt key = some 0 := stored
  rw [levelAt_addToLevels] at stored'
  split at stored'
  · rename_i selected
    have place :=
      (levelKey?_eq_some_iff message.side message.price key).mp selected
    have noWrap := (summary.exactStep (.addOrder message)).2 key selected
    have sumZero := congrArg UInt64.toNat (Option.some.inj stored')
    rw [UInt64.toNat_add, UInt32.toNat_toUInt64, Nat.mod_eq_of_lt noWrap]
      at sumZero
    change _ = 0 at sumZero
    -- With nothing added and nothing held, the message opened the level.
    refine opens ⟨?_, ?_, ?_⟩
    · apply UInt32.toNat_inj.mp
      change message.quantity.toNat = 0
      omega
    · rcases key with ⟨bookSide, price⟩
      cases bookSide with
      | bid => exact Or.inl place.1
      | ask => exact Or.inr place.1
    · intro orderId order found different sideEq priceEq
      by_contra nonzero
      have positive : 0 < order.quantity.toNat := by
        apply Nat.pos_of_ne_zero
        intro zero
        exact nonzero (UInt32.toNat_inj.mp zero)
      have held : 0 < quantityAt (book.orders.erase message.orderId) key :=
        (quantityAt_pos_iff _ key).mpr
          ⟨orderId, order, (Finmap.lookup_erase_ne different).trans found,
            sideEq.trans place.1, priceEq.trans place.2, positive⟩
      have levelSum := (storeOrder_summarises summary message).sum key
      rw [levelIndex_getD] at levelSum
      change _ = quantityAt (book.orders.erase message.orderId) key at levelSum
      omega
  · exact storedFull key stored'

theorem reduceOrder_noEmptyLevel {book : SimpleOrderBook}
    (full : book.NoEmptyLevel) (orderId : UInt32) (order : RestingOrder)
    (reduceQty : UInt32) :
    (book.reduceOrder orderId order reduceQty).NoEmptyLevel := by
  have levels : (book.reduceOrder orderId order reduceQty).levelAt =
      (book.removeFromLevels order.side order.price
        (removedQuantity order reduceQty)).levelAt := by
    funext key
    rcases key with ⟨bookSide, price⟩
    unfold reduceOrder
    simp only
    split <;> cases bookSide <;> rfl
  intro key stored
  rw [levels] at stored
  exact full.remove _ _ _ key stored

theorem applied_noEmptyLevel (book : SimpleOrderBook) (message : Message)
    (opens : ¬ book.OpensEmptyLevel message)
    (summary : book.Summarises book.orders) (full : book.NoEmptyLevel) :
    (book.applied message).NoEmptyLevel := by
  unfold applied apply
  cases message with
  | addOrder message =>
      exact applyAddOrder_noEmptyLevel summary full message opens
  | cancelOrder message =>
      simp only [applyCancelOrder]
      cases book.orders.lookup message.orderId with
      | none => exact full
      | some order => exact reduceOrder_noEmptyLevel full _ order _
  | execute message =>
      simp only [applyExecute]
      cases book.orders.lookup message.orderId with
      | none => exact full
      | some order => exact reduceOrder_noEmptyLevel full _ order _
  | quote message =>
      intro key
      exact full key

/-! ### Reading the top -/

/-- Without empty levels, the stored levels are exactly the prices at which
something trades. -/
theorem levelAt_isSome_iff {book : SimpleOrderBook}
    (summary : book.Summarises book.orders) (full : book.NoEmptyLevel)
    (key : LevelKey) :
    (book.levelAt key).isSome ↔ book.TradesAt key.1.byte key.2 := by
  have sum := summary.sum key
  rw [levelIndex_getD] at sum
  change _ = quantityAt book.orders key at sum
  have positive := quantityAt_pos_iff book.orders key
  constructor
  · intro stored
    apply positive.mp
    rcases Option.isSome_iff_exists.mp stored with ⟨level, levelEq⟩
    rw [levelEq, Option.getD_some] at sum
    rw [← sum]
    apply Nat.pos_of_ne_zero
    intro zero
    have levelZero : level = 0 := UInt64.toNat_inj.mp zero
    exact full key (levelZero ▸ levelEq)
  · intro trades
    have held := positive.mpr trades
    cases levelEq : book.levelAt key with
    | some level => rfl
    | none =>
        rw [levelEq, Option.getD_none] at sum
        change 0 = _ at sum
        omega

theorem narrowQuantity_toNat (quantity : UInt64) :
    (narrowQuantity quantity).toNat = min quantity.toNat (2 ^ 32 - 1) := by
  have largest : (0xffffffff : UInt64).toNat = 2 ^ 32 - 1 := rfl
  unfold narrowQuantity
  by_cases above : quantity > 0xffffffff
  · rw [if_pos above]
    rw [gt_iff_lt, UInt64.lt_iff_toNat_lt, largest] at above
    change 2 ^ 32 - 1 = _
    omega
  · rw [if_neg above]
    rw [gt_iff_lt, UInt64.lt_iff_toNat_lt, largest] at above
    rw [UInt64.toNat_toUInt32]
    omega

theorem narrowQuantity_level {book : SimpleOrderBook}
    (summary : book.Summarises book.orders) (full : book.NoEmptyLevel)
    (key : LevelKey) (level : UInt64) (stored : book.levelAt key = some level) :
    (narrowQuantity level).toNat =
        min (book.restingQuantity key.1.byte key.2) (2 ^ 32 - 1) ∧
      narrowQuantity level ≠ 0 := by
  have sum := summary.level_sum key
  rw [stored, Option.getD_some] at sum
  have narrow := narrowQuantity_toNat level
  refine ⟨by rw [narrow, sum], ?_⟩
  intro zero
  rw [zero] at narrow
  change 0 = _ at narrow
  have levelZero : level = 0 := by
    apply UInt64.toNat_inj.mp
    change level.toNat = 0
    omega
  exact full key (levelZero ▸ stored)

theorem topOfBook_of_noEmptyLevel {book : SimpleOrderBook}
    (summary : book.Summarises book.orders) (full : book.NoEmptyLevel) :
    book.TopOfBook := by
  have bidStored := fun price => levelAt_isSome_iff summary full (.bid, price)
  have askStored := fun price => levelAt_isSome_iff summary full (.ask, price)
  refine ⟨?_, ?_, ?_, ?_⟩
  · unfold bestBid
    rw [Option.map_eq_none_iff, SortedMap.first?_eq_none_iff]
    refine forall_congr' (fun price => ?_)
    rw [← Option.not_isSome_iff_eq_none]
    exact not_congr (bidStored price)
  · intro level best
    rcases Option.map_eq_some_iff.mp best with ⟨⟨price, quantity⟩, first, rfl⟩
    rcases (SortedMap.first?_eq_some_iff _ _ _).mp first with ⟨stored, top⟩
    have quantityAt := narrowQuantity_level summary full (.bid, price) quantity
      stored
    refine ⟨(bidStored price).mp (by rw [levelAt, stored]; rfl), ?_,
      quantityAt.1, quantityAt.2⟩
    intro other trades
    have notAbove := top other ((bidStored other).mpr trades)
    exact UInt32.not_lt.mp notAbove
  · unfold bestAsk
    rw [Option.map_eq_none_iff, SortedMap.first?_eq_none_iff]
    refine forall_congr' (fun price => ?_)
    rw [← Option.not_isSome_iff_eq_none]
    exact not_congr (askStored price)
  · intro level best
    rcases Option.map_eq_some_iff.mp best with ⟨⟨price, quantity⟩, first, rfl⟩
    rcases (SortedMap.first?_eq_some_iff _ _ _).mp first with ⟨stored, top⟩
    have quantityAt := narrowQuantity_level summary full (.ask, price) quantity
      stored
    refine ⟨(askStored price).mp (by rw [levelAt, stored]; rfl), ?_,
      quantityAt.1, quantityAt.2⟩
    intro other trades
    have notBelow := top other ((askStored other).mpr trades)
    exact UInt32.not_lt.mp notBelow

/-! ### Runs -/

theorem empty_noEmptyLevel : empty.NoEmptyLevel := by
  rintro ⟨bookSide, price⟩ stored
  cases bookSide <;> cases stored

/-- The condition is exact: a step that meets `OpensEmptyLevel` does store an
empty level. -/
theorem emptyLevel_of_opens {book : SimpleOrderBook}
    (summary : book.Summarises book.orders) (message : Message)
    (opens : book.OpensEmptyLevel message) :
    ¬ (book.applied message).NoEmptyLevel := by
  cases message with
  | addOrder message =>
      rcases opens with ⟨quantityZero, onSide, othersZero⟩
      have named : ∃ key, levelKey? message.side message.price = some key := by
        rcases onSide with isBuy | isSell
        · exact ⟨(.bid, message.price),
            (levelKey?_eq_some_iff _ _ _).mpr ⟨isBuy, rfl⟩⟩
        · exact ⟨(.ask, message.price),
            (levelKey?_eq_some_iff _ _ _).mpr ⟨isSell, rfl⟩⟩
      rcases named with ⟨key, selected⟩
      have place :=
        (levelKey?_eq_some_iff message.side message.price key).mp selected
      have nothingHeld :
          quantityAt (book.orders.erase message.orderId) key = 0 := by
        by_contra held
        rcases (quantityAt_pos_iff _ key).mp (Nat.pos_of_ne_zero held) with
          ⟨orderId, order, found, sideEq, priceEq, positive⟩
        have different : orderId ≠ message.orderId := by
          intro same
          rw [same, Finmap.lookup_erase] at found
          cases found
        rw [Finmap.lookup_erase_ne different] at found
        have zero := othersZero orderId order found different
          (sideEq.trans place.1.symm) (priceEq.trans place.2.symm)
        rw [zero] at positive
        exact Nat.lt_irrefl 0 positive
      have levelSum := (storeOrder_summarises summary message).sum key
      rw [levelIndex_getD] at levelSum
      have levelZero : ((book.storeOrder message).levelAt key).getD 0 = 0 := by
        apply UInt64.toNat_inj.mp
        exact levelSum.trans nothingHeld
      intro full
      apply full key
      change ((book.storeOrder message).addToLevels message.side message.price
        message.quantity).levelAt key = some 0
      rw [levelAt_addToLevels, if_pos selected, levelZero, quantityZero]
      rfl
  | cancelOrder message => exact opens.elim
  | execute message => exact opens.elim
  | quote message => exact opens.elim

theorem guarded_step_kept (book : SimpleOrderBook) (message : Message)
    (opens : ¬ book.OpensEmptyLevel message)
    (kept : book.Summarises book.orders ∧ book.NoEmptyLevel) :
    (book.applied message).Summarises (book.applied message).orders ∧
      (book.applied message).NoEmptyLevel :=
  ⟨applied_summarises book message kept.1,
    applied_noEmptyLevel book message opens kept.1 kept.2⟩

theorem opensEmptyLevel_exact :
    Run.Exact applied (fun book message => ¬ book.OpensEmptyLevel message)
      NoEmptyLevel
      (fun book => book.Summarises book.orders ∧ book.NoEmptyLevel) where
  preserved := guarded_step_kept
  sound := fun _ kept => kept.2
  exposed := fun _ message kept full opens =>
    emptyLevel_of_opens kept.1 message opens full

/-- A run stores no empty level exactly when none of its steps opens one. -/
theorem noEmptyLevel_throughout_iff (messages : List Message) :
    Run.Throughout applied NoEmptyLevel empty messages ↔
      Run.Along applied (fun book message => ¬ book.OpensEmptyLevel message)
        empty messages :=
  opensEmptyLevel_exact.throughout_iff empty messages
    ⟨empty_summarises, empty_noEmptyLevel⟩

/-- In every run whose steps open no empty level, every book reached reports
its top of book exactly. -/
theorem topOfBook_throughout (messages : List Message)
    (guarded : Run.Along applied
      (fun book message => ¬ book.OpensEmptyLevel message) empty messages) :
    Run.Throughout applied TopOfBook empty messages :=
  Run.throughout_of_along _ guarded_step_kept
    (fun _ kept => topOfBook_of_noEmptyLevel kept.1 kept.2) empty messages
    ⟨empty_summarises, empty_noEmptyLevel⟩ guarded

def bidAt100 (orderId quantity : UInt32) : Message :=
  .addOrder
    { header := ⟨MessageType.addOrder.toByte⟩
      timestampNs := 0
      orderId := orderId
      side := sideBuy
      price := 100
      quantity := quantity
      symbol := Vector.replicate symbolLen ' '.toUInt8 }

/-- An order of zero quantity behind a positive one at its price is harmless:
the run meets the guard. -/
theorem topOfBook_throughout_shared_level :
    Run.Throughout applied TopOfBook empty [bidAt100 1 5, bidAt100 2 0] := by
  refine topOfBook_throughout _ ⟨?_, ?_, trivial⟩
  · intro opens
    exact absurd opens.1 (by decide)
  · rintro ⟨_, _, othersZero⟩
    have zero := othersZero 1
      { side := sideBuy, price := 100, quantity := 5, timestampNs := 0 }
      (by decide) (by decide) rfl rfl
    exact absurd zero (by decide)

/-- Alone at its price, an order of zero quantity is reported as the best bid
although nothing trades there. -/
theorem not_topOfBook_zero_quantity :
    ¬ (Run.final applied empty [bidAt100 1 0]).TopOfBook := by
  intro top
  have best : (Run.final applied empty [bidAt100 1 0]).bestBid =
      some ⟨100, 0⟩ := by
    decide
  exact (top.best_bid ⟨100, 0⟩ best).2.2.2 rfl

end SimpleOrderBook

end Waler
