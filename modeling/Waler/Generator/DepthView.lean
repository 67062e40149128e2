/-
The viewer of pktgen.cpp: a generator, the book that is fed its packets, and
the depth chart drawn after each of them.

The book never rests more than the generator's pool can hold, so no product
behind the bars wraps, and every screen shows what its bars are meant to show.
-/

import Waler.Book.DepthChart
import Waler.Generator.BestPrice

namespace Waler

open MarketData

namespace MarketFeed

open PacketGenerator (CallDraws restingPool)
open SimpleOrderBook (chartWidth columnsOf pooledOrders quantityOfFirst
  quantityOfFirst_mono tradesAt_iff_slot)

/-! ### The loop -/

def viewerBuffer : ℕ := 1024

def viewerRows : UInt64 := 24

def viewerWidth : UInt64 := 24

/-- One turn of the loop: a packet is generated and applied. -/
def turn (feed : MarketFeed) (draws : CallDraws) : MarketFeed :=
  feed.step { draws := draws, capacity := viewerBuffer }

/-- What the turn draws. -/
def screen (feed : MarketFeed) : List ChartRow :=
  feed.book.printDepthChart viewerRows viewerWidth

/-- The prices of a side, from the best one on, with what rests there. -/
def levels (feed : MarketFeed) (side : BookSide) :
    List (PriceCents × UInt64) :=
  feed.book.sideLevels side

/-- How much of a row's bar is drawn. -/
def bar (row : ChartRow) (side : BookSide) : ℕ :=
  (row.cells side).count '#'

/-- The most that a full pool of the largest orders holds. -/
def largestTotal : ℕ := restingPool * 9900

/-- A row that has a level to show: its columns print the price of the level
and the exact sum of the quantities down to it, and it has a bar. -/
structure ShowsLevel (feed : MarketFeed) (side : BookSide) (rank : ℕ)
    (price : PriceCents) (row : ChartRow) : Prop where
  columns : ∃ cumulative : UInt64,
    row.columns side = columnsOf side (some ⟨price, cumulative⟩) ∧
      cumulative.toNat = quantityOfFirst (feed.levels side) (rank + 1) ∧
      1 ≤ cumulative.toNat ∧ cumulative.toNat ≤ largestTotal
  drawn : 1 ≤ bar row side

/-- A row without a level to show. -/
structure ShowsNothing (side : BookSide) (row : ChartRow) : Prop where
  columns : row.columns side = columnsOf side none
  cells : row.cells side = List.replicate 24 ' '

/-- A screen whose rows are exact and whose bars can be compared. -/
structure Legible (feed : MarketFeed) : Prop where
  rows : feed.screen.length = 24
  cells : ∀ row ∈ feed.screen, ∀ side, (row.cells side).length = 24
  shown : ∀ side (rank : ℕ) row, feed.screen[rank]? = some row →
    ∀ price qty, (feed.levels side)[rank]? = some (price, qty) →
      feed.ShowsLevel side rank price row
  nothing : ∀ side (rank : ℕ) row, feed.screen[rank]? = some row →
    (feed.levels side).length ≤ rank → ShowsNothing side row
  vacant : ∀ side, (∀ row ∈ feed.screen, ShowsNothing side row) ↔
    ∀ item ∈ feed.generator.resting.live, item.side ≠ side.byte
  grows : ∀ side (rank later : ℕ) row deeper, rank ≤ later →
    feed.screen[rank]? = some row → feed.screen[later]? = some deeper →
      later < (feed.levels side).length → bar row side ≤ bar deeper side
  full : ∀ side (rank : ℕ) row, feed.screen[rank]? = some row →
    rank + 1 = min 24 (feed.levels side).length →
      (∀ other, quantityOfFirst (feed.levels other) 24 ≤
        quantityOfFirst (feed.levels side) 24) →
      row.cells side = List.replicate 24 '#'

/-! ### Rows and ranks -/

theorem screen_length (feed : MarketFeed) : feed.screen.length = 24 :=
  feed.book.printDepthChart_length viewerRows viewerWidth

theorem Sound.depth_length {feed : MarketFeed} (sound : feed.Sound)
    (side : BookSide) :
    (feed.book.sideDepth viewerRows side).length =
      min 24 (feed.levels side).length :=
  (sound.summary.side_sums viewerRows side).length

theorem Sound.screen_nothing {feed : MarketFeed} (sound : feed.Sound)
    {rank : ℕ} {row : ChartRow}
    (printed : feed.screen[rank]? = some row) {side : BookSide}
    (behind : (feed.levels side).length ≤ rank) :
    ShowsNothing side row := by
  have draws := feed.book.printDepthChart_drawsRank printed
  have length := sound.depth_length side
  have vacant : (feed.book.sideDepth viewerRows side).length ≤ rank := by
    omega
  constructor
  · rw [draws.columns side, List.getElem?_eq_none vacant]
  · rw [draws.cells side, feed.book.sideBar_vacant viewerRows viewerWidth
      vacant]
    cases side <;> rfl

/-- The sum in the last row of a side is that of all levels shown. -/
theorem Sound.deepest_sum {feed : MarketFeed} (sound : feed.Sound)
    {side : BookSide} {deepest : DepthLevel}
    (bottom : (feed.book.sideDepth viewerRows side).getLast? = some deepest) :
    deepest.cumulativeQty.toNat =
      quantityOfFirst (feed.levels side) 24 := by
  have sums := sound.summary.side_sums viewerRows side
  have length := sound.depth_length side
  rw [List.getLast?_eq_getElem?] at bottom
  have inside := (List.getElem?_eq_some_iff.mp bottom).1
  rw [sums.sum _ deepest bottom, Nat.sub_add_cancel (by omega), length]
  change quantityOfFirst (feed.levels side) _ = _
  unfold quantityOfFirst
  rcases Nat.le_total 24 (feed.levels side).length with long | short
  · rw [Nat.min_eq_left long]
  · rw [Nat.min_eq_right short, List.take_length,
      List.take_of_length_le short]

/-! ### What the pool can hold -/

theorem total_quantity_pooled (book : SimpleOrderBook) :
    FiniteMap.total (fun order : RestingOrder => order.quantity.toNat)
        book.orders =
      ((pooledOrders book.orders).map
        (fun item => item.quantity.toNat)).sum := by
  unfold FiniteMap.total pooledOrders
  rw [Multiset.map_map]
  rfl

section Screen

variable {feed : MarketFeed} (sound : feed.Sound)
  (few : feed.ordersAdded < 2 ^ 32)

include sound few

theorem total_quantity_le :
    FiniteMap.total (fun order : RestingOrder => order.quantity.toNat)
      feed.book.orders ≤ largestTotal := by
  rw [total_quantity_pooled, (sound.lock few).same, Multiset.map_coe,
    Multiset.sum_coe]
  have each := List.sum_le_card_nsmul
    (feed.generator.resting.live.map (fun item => item.quantity.toNat)) 9900 (by
      intro quantity listed
      obtain ⟨item, rests, rfl⟩ := List.mem_map.mp listed
      exact (sound.marketable item rests).2.1)
  rw [List.length_map, SwapPool.live_length, smul_eq_mul] at each
  exact each.trans (Nat.mul_le_mul_right _ feed.generator.resting.count_le)

theorem column_bounds (side : BookSide) {level : DepthLevel}
    (shown : level ∈ feed.book.sideDepth viewerRows side) :
    1 ≤ level.cumulativeQty.toNat ∧
      level.cumulativeQty.toNat ≤ largestTotal := by
  have sums := sound.summary.side_sums viewerRows side
  obtain ⟨row, atRow⟩ := List.mem_iff_getElem?.mp shown
  have inside := (List.getElem?_eq_some_iff.mp atRow).1
  have length := sums.length
  have sum := sums.sum row level atRow
  constructor
  · have priced := sums.price row level atRow
    obtain ⟨stored, storedEq, _⟩ := Option.map_eq_some_iff.mp priced
    have levelEq := SimpleOrderBook.levelAt_of_mem
      (List.mem_of_getElem? storedEq)
    have positive : stored.2 ≠ 0 := by
      intro zero
      rw [zero] at levelEq
      exact sound.full _ levelEq
    have first : stored.2.toNat ≤
        quantityOfFirst (feed.book.sideLevels side) (row + 1) := by
      unfold quantityOfFirst
      apply List.le_sum_of_mem
      exact List.mem_map.mpr ⟨stored,
        List.mem_of_getElem? ((List.getElem?_take_of_lt
          (Nat.lt_succ_self row)).trans storedEq), rfl⟩
    have nonzero : stored.2.toNat ≠ 0 :=
      fun zero => positive (UInt64.toNat_inj.mp zero)
    omega
  · rw [sum]
    exact (quantityOfFirst_mono _ (by omega)).trans
      ((sound.summary.side_total_le side).trans (total_quantity_le sound few))

theorem levels_vacant (side : BookSide) :
    feed.levels side = [] ↔
      ∀ item ∈ feed.generator.resting.live, item.side ≠ side.byte := by
  have trades := fun price =>
    tradesAt_iff_slot (sound.lock few) sound.marketable side.byte price
  have stored := fun price => SimpleOrderBook.levelAt_isSome_iff sound.summary
    sound.full (side, price)
  constructor
  · intro blank item rests sided
    obtain ⟨index, rfl⟩ := SwapPool.exists_get_of_mem_live rests
    have level := (stored _).mpr ((trades _).mpr ⟨index, sided, rfl⟩)
    obtain ⟨qty, found⟩ := Option.isSome_iff_exists.mp level
    have listed := SimpleOrderBook.mem_sideLevels found
    change _ ∈ feed.levels side at listed
    rw [blank] at listed
    cases listed
  · intro noOrders
    by_contra some
    obtain ⟨level, listed⟩ := List.exists_mem_of_ne_nil _ some
    have found := SimpleOrderBook.levelAt_of_mem listed
    obtain ⟨index, sided, _⟩ := (trades level.1).mp
      ((stored level.1).mp (by rw [found]; rfl))
    exact noOrders _ (feed.generator.resting.get_mem_live index) sided

theorem bars_fit :
    (feed.book.chartMaximum viewerRows).toNat *
      (chartWidth viewerWidth).toNat < 2 ^ 64 := by
  have bounded : ∀ side, ∀ level ∈ feed.book.sideDepth viewerRows side,
      level.cumulativeQty.toNat ≤ (UInt64.ofNat largestTotal).toNat :=
    fun side level shown => (column_bounds sound few side shown).2
  have largest : (feed.book.chartMaximum viewerRows).toNat ≤
      (UInt64.ofNat largestTotal).toNat :=
    SimpleOrderBook.maxCumulative_le (by decide) (bounded .bid)
      (bounded .ask)
  have product := Nat.mul_le_mul_right (chartWidth viewerWidth).toNat largest
  exact product.trans_lt (by decide)

/-! ### The rows of a screen -/

theorem screen_shown {rank : ℕ} {row : ChartRow}
    (printed : feed.screen[rank]? = some row) {side : BookSide}
    {price : PriceCents} {qty : UInt64}
    (stored : (feed.levels side)[rank]? = some (price, qty)) :
    feed.ShowsLevel side rank price row := by
  have draws := feed.book.printDepthChart_drawsRank printed
  have sums := sound.summary.side_sums viewerRows side
  have length := sound.depth_length side
  have below := (List.getElem?_eq_some_iff.mp printed).1
  have inside := (List.getElem?_eq_some_iff.mp stored).1
  rw [screen_length] at below
  have level := List.getElem?_eq_getElem
    (show rank < (feed.book.sideDepth viewerRows side).length by omega)
  have priced := sums.price rank _ level
  change ((feed.levels side)[rank]?).map Prod.fst = _ at priced
  rw [stored] at priced
  have priceEq : price = _ := Option.some.inj priced
  obtain ⟨least, most⟩ := column_bounds sound few side
    (List.mem_of_getElem? level)
  constructor
  · refine ⟨_, ?_, sums.sum rank _ level, least, most⟩
    rw [draws.columns side, level, priceEq]
  · unfold bar
    rw [draws.cells side, SimpleOrderBook.barCells_count]
    exact UInt64.le_iff_toNat_le.mp
      (feed.book.sideBar_bounds viewerRows viewerWidth side (by omega)).1

theorem screen_vacant (side : BookSide) :
    (∀ row ∈ feed.screen, ShowsNothing side row) ↔
      ∀ item ∈ feed.generator.resting.live, item.side ≠ side.byte := by
  rw [← levels_vacant sound few side]
  constructor
  · intro nothing
    by_contra some
    -- The first row would show the best level.
    have first := List.getElem?_eq_getElem (List.length_pos_iff.mpr some)
    have printed := List.getElem?_eq_getElem
      (show 0 < feed.screen.length by rw [screen_length]; decide)
    have drawn := (screen_shown sound few printed first).drawn
    unfold bar at drawn
    rw [(nothing _ (List.mem_of_getElem? printed)).cells] at drawn
    revert drawn
    decide
  · intro none row printed
    obtain ⟨rank, atRank⟩ := List.mem_iff_getElem?.mp printed
    refine sound.screen_nothing atRank ?_
    rw [none]
    exact Nat.zero_le _

theorem screen_grows {side : BookSide} {rank later : ℕ}
    {row deeper : ChartRow} (ordered : rank ≤ later)
    (printed : feed.screen[rank]? = some row)
    (printedLater : feed.screen[later]? = some deeper)
    (inside : later < (feed.levels side).length) :
    bar row side ≤ bar deeper side := by
  have draws := feed.book.printDepthChart_drawsRank printed
  have drawsLater := feed.book.printDepthChart_drawsRank printedLater
  have length := sound.depth_length side
  have below := (List.getElem?_eq_some_iff.mp printedLater).1
  rw [screen_length] at below
  unfold bar
  rw [draws.cells side, drawsLater.cells side,
    SimpleOrderBook.barCells_count, SimpleOrderBook.barCells_count]
  exact UInt64.le_iff_toNat_le.mp (sound.summary.sideBar_mono
    (bars_fit sound few) side ordered (by omega))

theorem screen_full {side : BookSide} {rank : ℕ} {row : ChartRow}
    (printed : feed.screen[rank]? = some row)
    (last : rank + 1 = min 24 (feed.levels side).length)
    (larger : ∀ other, quantityOfFirst (feed.levels other) 24 ≤
      quantityOfFirst (feed.levels side) 24) :
    row.cells side = List.replicate 24 '#' := by
  have draws := feed.book.printDepthChart_drawsRank printed
  have length := sound.depth_length side
  have some : feed.book.sideDepth viewerRows side ≠ [] := by
    intro none
    rw [none, List.length_nil] at length
    omega
  have bottom := List.getLast?_eq_some_getLast some
  have positive := (column_bounds sound few side
    (List.mem_of_getLast? bottom)).1
  have whole := sound.summary.sideBar_full (bars_fit sound few) bottom
    (UInt64.lt_iff_toNat_lt.mpr positive) (by
      intro other level otherBottom
      rw [UInt64.le_iff_toNat_le, sound.deepest_sum otherBottom,
        sound.deepest_sum bottom]
      exact larger other)
  rw [length, ← last, Nat.add_sub_cancel] at whole
  rw [draws.cells side, whole]
  exact SimpleOrderBook.barCells_full side 24

theorem legible : feed.Legible where
  rows := screen_length feed
  cells := by
    intro row printed side
    obtain ⟨rank, atRank⟩ := List.mem_iff_getElem?.mp printed
    exact (feed.book.printDepthChart_drawsRank atRank).cells_length side
  shown := fun _ _ _ printed _ _ stored =>
    screen_shown sound few printed stored
  nothing := fun _ _ _ printed behind =>
    sound.screen_nothing printed behind
  vacant := screen_vacant sound few
  grows := fun _ _ _ _ _ ordered printed printedLater inside =>
    screen_grows sound few ordered printed printedLater inside
  full := fun _ _ _ printed last larger =>
    screen_full sound few printed last larger

end Screen

/-! ### Runs -/

theorem turn_sound {feed : MarketFeed} (draws : CallDraws)
    (sound : feed.Sound) : (feed.turn draws).Sound :=
  step_sound (show 32 ≤ viewerBuffer by decide) sound

theorem Sound.legible_throughout {feed : MarketFeed} (sound : feed.Sound)
    (draws : List CallDraws)
    (few : feed.ordersAdded + draws.length < 2 ^ 32) :
    Run.Throughout turn Legible feed draws := by
  induction draws generalizing feed with
  | nil => exact legible sound few
  | cons first rest ih =>
      rw [List.length_cons] at few
      have added : (feed.turn first).ordersAdded ≤ feed.ordersAdded + 1 :=
        feed.ordersAdded_le_length
          [{ draws := first, capacity := viewerBuffer }]
      exact ⟨legible sound (by omega),
        ih (turn_sound first sound) (by omega)⟩

/-- In every run of the viewer of fewer than `2 ^ 32` turns, every screen is
legible: its rows and cells have the size asked for, every row prints the
level of its rank with the exact running sum, which never passes what the pool
can hold, the rows of a side are blank exactly when the pool has no order of
the side, and the bars grow downwards to the full width in the last row of the
larger side. -/
theorem legible_along_run (symbolName : List UInt8) (draws : List CallDraws)
    (few : draws.length < 2 ^ 32) :
    Run.Throughout turn Legible (initial symbolName) draws :=
  (initial_sound symbolName).legible_throughout draws
    ((Nat.zero_add _).trans_lt few)

theorem legible_along_run_added :
    Run.Throughout turn Legible (initial [])
      [(drawing .addOrder).draws, (drawing .addOrder).draws] :=
  legible_along_run [] _ (by decide)

end MarketFeed

end Waler
