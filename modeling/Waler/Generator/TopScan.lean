/-
The two scans of the generator over its pool.

`buildExecute` looks for the best price of one side, `buildQuote` for those of
both at once; each starts from a price that stands for an absent side.  Both
are the same scan for the best item, one side at a time.
-/

import Waler.Book.LevelIndex
import Waler.Foundation.BestScan
import Waler.Generator.PacketGenerator

namespace Waler

open MarketData

namespace BookSide

def better : BookSide → PriceCents → PriceCents → Prop
  | .bid => (· > ·)
  | .ask => (· < ·)

instance (side : BookSide) : DecidableRel side.better :=
  match side with
  | .bid => fun left right => inferInstanceAs (Decidable (left > right))
  | .ask => fun left right => inferInstanceAs (Decidable (left < right))

instance (side : BookSide) : IsStrictTotalOrder PriceCents side.better :=
  match side with
  | .bid => inferInstanceAs (IsStrictTotalOrder PriceCents (· > ·))
  | .ask => inferInstanceAs (IsStrictTotalOrder PriceCents (· < ·))

/-- The price a scan starts from, which no order can then be found at. -/
def sentinel : BookSide → PriceCents
  | .bid => 0
  | .ask => 0xffffffff

theorem not_better_sentinel_iff (side : BookSide) (price : PriceCents) :
    ¬ side.better price side.sentinel ↔ price = side.sentinel := by
  have bound := price.toNat_lt
  rw [← UInt32.toNat_inj]
  cases side with
  | bid =>
      change ¬ (0 < price) ↔ price.toNat = 0
      rw [UInt32.lt_iff_toNat_lt]
      change ¬ (0 < price.toNat) ↔ _
      omega
  | ask =>
      change ¬ (price < 0xffffffff) ↔ price.toNat = 0xffffffff
      rw [UInt32.lt_iff_toNat_lt]
      change ¬ (price.toNat < 0xffffffff) ↔ _
      omega

end BookSide

namespace PacketGenerator

abbrev Pool := SwapPool RestingOrder restingPool

theorem ofInt_toNat {value : ℤ} (low : 0 ≤ value) (high : value < 2 ^ 32) :
    ((UInt32.ofInt value).toNat : ℤ) = value := by
  unfold UInt32.ofInt
  rw [UInt32.toNat_ofNat']
  omega

theorem randQty_bounds (draw : Draw) :
    1 ≤ (randQty draw).toNat ∧ (randQty draw).toNat ≤ 9900 := by
  have value := ofInt_toNat
    (show 0 ≤ min (max draw.quantity 1) 9900 by omega) (by omega)
  unfold randQty
  omega

def drawnSide (draw : Draw) : BookSide :=
  if draw.isBuy then .bid else .ask

theorem sideOf_eq (draw : Draw) : sideOf draw = (drawnSide draw).byte := by
  unfold sideOf drawnSide
  cases draw.isBuy <;> rfl

def sidePrice (pool : Pool) (side : BookSide) (index : Fin pool.count) :
    Option PriceCents :=
  if (pool.get index).side = side.byte then some (pool.get index).price
  else none

/-- The best price of one side and the slot it was found in. -/
def sideScan (pool : Pool) (side : BookSide) :
    PriceCents × Option (Fin pool.count) :=
  BestScan.scan side.better (sidePrice pool side) side.sentinel
    (List.finRange pool.count)

theorem sidePrice_eq_some_iff {pool : Pool} {side : BookSide}
    {index : Fin pool.count} {price : PriceCents} :
    sidePrice pool side index = some price ↔
      (pool.get index).side = side.byte ∧ (pool.get index).price = price := by
  unfold sidePrice
  split
  · rename_i sided
    exact Option.some_inj.trans (and_iff_right sided).symm
  · rename_i other
    constructor
    · intro impossible
      cases impossible
    · intro both
      exact absurd both.1 other

theorem sideScan_best (pool : Pool) (side : BookSide) :
    BestScan.Best side.better (sidePrice pool side) side.sentinel
      (List.finRange pool.count) (sideScan pool side) :=
  BestScan.scan_best _

theorem sideScan_found {pool : Pool} {side : BookSide} {price : PriceCents}
    {index : Fin pool.count} (scanned : sideScan pool side = (price, some index)) :
    (pool.get index).side = side.byte ∧ (pool.get index).price = price ∧
      price ≠ side.sentinel := by
  have best := sideScan_best pool side
  rw [scanned] at best
  obtain ⟨_, keyed, beats⟩ := best.found index rfl
  obtain ⟨sided, priced⟩ := sidePrice_eq_some_iff.mp keyed
  refine ⟨sided, priced, ?_⟩
  intro absent
  exact (side.not_better_sentinel_iff price).mpr absent beats

theorem sideScan_top (pool : Pool) {side : BookSide} (index : Fin pool.count)
    (sided : (pool.get index).side = side.byte) :
    ¬ side.better (pool.get index).price (sideScan pool side).1 :=
  (sideScan_best pool side).top index (List.mem_finRange index) _
    (sidePrice_eq_some_iff.mpr ⟨sided, rfl⟩)

theorem bestOf_eq (pool : Pool) (side : BookSide) :
    bestOf pool side.byte = sideScan pool side := by
  have start : (if side.byte = 'B'.toUInt8 then (0 : PriceCents)
      else 0xffffffff) = side.sentinel := by
    cases side <;> rfl
  have beats : ∀ price best : PriceCents,
      ((side.byte = 'B'.toUInt8 ∧ price > best) ∨
        (side.byte = 'S'.toUInt8 ∧ price < best)) ↔ side.better price best := by
    intro price best
    have apart : ¬ 'B'.toUInt8 = 'S'.toUInt8 := by decide
    have apart' : ¬ 'S'.toUInt8 = 'B'.toUInt8 := by decide
    cases side with
    | bid => simp [BookSide.byte, BookSide.better, sideBuy, apart]
    | ask => simp [BookSide.byte, BookSide.better, sideSell, apart']
  unfold bestOf sideScan BestScan.scan
  rw [start]
  congr 1
  funext best index
  unfold BestScan.step sidePrice
  by_cases sided : (pool.get index).side = side.byte
  · simp only [sided, ne_eq, not_true, if_false, beats]
    rfl
  · simp only [sided, ne_eq, not_false_eq_true, if_true]
    rfl

/-! ### Both sides at once -/

def Top.side (top : Top) : BookSide → PriceCents × UInt32
  | .bid => (top.bid, top.bidQty)
  | .ask => (top.ask, top.askQty)

/-- The quantity of the order a scan found. -/
def foundQuantity (pool : Pool) (found : Option (Fin pool.count)) : UInt32 :=
  (found.map (fun index => (pool.get index).quantity)).getD 0

/-- One step of the double scan is, for each side, one step of its scan. -/
theorem scanTop_step (pool : Pool) (side : BookSide) (top : Top)
    (best : PriceCents × Option (Fin pool.count))
    (same : top.side side = (best.1, foundQuantity pool best.2))
    (index : Fin pool.count) (next : Top)
    (bidNext : next.side .bid =
      if (pool.get index).side = 'B'.toUInt8 ∧ (pool.get index).price > top.bid
      then ((pool.get index).price, (pool.get index).quantity)
      else top.side .bid)
    (askNext : next.side .ask =
      if (pool.get index).side = 'S'.toUInt8 ∧ (pool.get index).price < top.ask
      then ((pool.get index).price, (pool.get index).quantity)
      else top.side .ask) :
    next.side side =
      ((BestScan.step side.better (sidePrice pool side) best index).1,
        foundQuantity pool
          (BestScan.step side.better (sidePrice pool side) best index).2) := by
  have price : (top.side side).1 = best.1 := congrArg Prod.fst same
  have nextEq : next.side side =
      if (pool.get index).side = side.byte ∧
          side.better (pool.get index).price best.1 then
        ((pool.get index).price, (pool.get index).quantity)
      else (best.1, foundQuantity pool best.2) := by
    rw [← same, ← price]
    cases side with
    | bid => exact bidNext
    | ask => exact askNext
  rw [nextEq]
  unfold BestScan.step sidePrice
  by_cases sided : (pool.get index).side = side.byte
  · simp only [sided, true_and, if_true]
    split
    · rfl
    · rfl
  · simp only [sided, false_and, if_false]

theorem scanTop_side (pool : Pool) (side : BookSide) :
    (scanTop pool).side side =
      ((sideScan pool side).1, foundQuantity pool (sideScan pool side).2) := by
  unfold scanTop sideScan BestScan.scan
  refine List.foldl_rel
    (r := fun (top : Top) (best : PriceCents × Option (Fin pool.count)) =>
      top.side side = (best.1, foundQuantity pool best.2)) ?_ ?_
  · cases side <;> rfl
  · intro index _ top best same
    apply scanTop_step pool side top best same index
    all_goals
      by_cases bidBeats : (pool.get index).side = 'B'.toUInt8 ∧
          (pool.get index).price > top.bid
      · simp only [if_pos bidBeats]
        split <;> rfl
      · simp only [if_neg bidBeats]
        split <;> rfl

end PacketGenerator

end Waler
