/-
The price ladder of SimpleOrderBook.hpp: the best levels of both sides, one
pair a row.

A row keeps the text of its two cells; the colours and the headings around them
are left out.
-/

import Waler.Book.DepthChart
import Waler.Book.TopOfBook

namespace Waler

open MarketData

structure AnsiRow where
  bidCell : List Char
  askCell : List Char
  deriving DecidableEq, Repr

def AnsiRow.cell (row : AnsiRow) : BookSide → List Char
  | .bid => row.bidCell
  | .ask => row.askCell

namespace SimpleOrderBook

/-! ### The ladder -/

/-- The loop over one level map; `shown` is what it has pushed so far. -/
def collectLevels (depth : UInt64) :
    List (PriceCents × UInt64) → List Level → List Level
  | [], shown => shown
  | (price, qty) :: levels, shown =>
      if shown.length ≥ depth.toNat then shown
      else collectLevels depth levels (shown ++ [⟨price, narrowQuantity qty⟩])

def askLevels (book : SimpleOrderBook) (depth : UInt64) : List Level :=
  collectLevels depth book.asks.entries []

def bidLevels (book : SimpleOrderBook) (depth : UInt64) : List Level :=
  collectLevels depth book.bids.entries []

def quantityColumn (level : Level) : List Char :=
  padLeft 10 (Nat.toDigits 10 level.quantity.toNat)

def priceColumn (level : Level) : List Char :=
  padLeft 14 (dollars level.price)

/-- `%25s` of nothing. -/
def blankCell : List Char :=
  padLeft 25 []

def ansiRow (bidLevels askLevels : List Level) (row : ℕ) : AnsiRow :=
  { bidCell := (bidLevels[row]?).elim blankCell
      (fun level => quantityColumn level ++ ' ' :: priceColumn level)
    askCell := (askLevels[row]?).elim blankCell
      (fun level => priceColumn level ++ ' ' :: quantityColumn level) }

def printAnsi (book : SimpleOrderBook) (depth : UInt64) : List AnsiRow :=
  (List.range depth.toNat).map
    (ansiRow (book.bidLevels depth) (book.askLevels depth))

/-! ### Columns -/

theorem padLeft_length {width : ℕ} {text : List Char}
    (fits : text.length ≤ width) : (padLeft width text).length = width := by
  unfold padLeft
  rw [List.length_append, List.length_replicate]
  omega

/-- Ten digits hold every 32-bit number. -/
theorem digits_length (value : UInt32) :
    (Nat.toDigits 10 value.toNat).length ≤ 10 := by
  rw [Nat.length_toDigits_le_iff (by decide) (by decide)]
  exact value.toNat_lt.trans (by decide)

theorem dollars_length (price : PriceCents) : (dollars price).length ≤ 14 := by
  have below := price.toNat_lt
  have whole : (Nat.toDigits 10 (price.toNat / 100)).length ≤ 8 := by
    rw [Nat.length_toDigits_le_iff (by decide) (by decide)]
    omega
  unfold dollars
  rw [List.length_append]
  change _ + 3 ≤ 14
  omega

theorem quantityColumn_length (level : Level) :
    (quantityColumn level).length = 10 :=
  padLeft_length (digits_length level.quantity)

theorem priceColumn_length (level : Level) :
    (priceColumn level).length = 14 :=
  padLeft_length (dollars_length level.price)

/-- The text of a level on its side of the ladder. -/
def levelCell (side : BookSide) (level : Level) : List Char :=
  match side with
  | .bid => quantityColumn level ++ ' ' :: priceColumn level
  | .ask => priceColumn level ++ ' ' :: quantityColumn level

theorem levelCell_length (side : BookSide) (level : Level) :
    (levelCell side level).length = 25 := by
  unfold levelCell
  cases side with
  | bid =>
      rw [List.length_append, List.length_cons, quantityColumn_length,
        priceColumn_length]
  | ask =>
      rw [List.length_append, List.length_cons, quantityColumn_length,
        priceColumn_length]

/-- A price has a point, so its cell is not blank. -/
theorem levelCell_ne_blank (side : BookSide) (level : Level) :
    levelCell side level ≠ blankCell := by
  have point : '.' ∈ priceColumn level := by
    unfold priceColumn padLeft dollars
    exact List.mem_append_right _ (List.mem_append_right _ List.mem_cons_self)
  have shown : '.' ∈ levelCell side level := by
    unfold levelCell
    cases side with
    | bid => exact List.mem_append_right _ (List.mem_cons_of_mem _ point)
    | ask => exact List.mem_append_left _ point
  intro blank
  rw [blank] at shown
  revert shown
  decide

/-! ### Levels -/

theorem collectLevels_eq (depth : UInt64)
    (levels : List (PriceCents × UInt64)) (shown : List Level) :
    collectLevels depth levels shown =
      shown ++ (levels.take (depth.toNat - shown.length)).map
        (fun level => ⟨level.1, narrowQuantity level.2⟩) := by
  induction levels generalizing shown with
  | nil =>
      rw [List.take_nil]
      exact (List.append_nil shown).symm
  | cons head rest ih =>
      rcases head with ⟨price, qty⟩
      unfold collectLevels
      by_cases full : shown.length ≥ depth.toNat
      · rw [if_pos full, Nat.sub_eq_zero_of_le full, List.take_zero]
        exact (List.append_nil shown).symm
      · have room : depth.toNat - shown.length =
            depth.toNat - (shown.length + 1) + 1 := by omega
        rw [if_neg full, ih, List.length_append, List.length_singleton, room,
          List.take_succ_cons, List.map_cons, List.append_assoc]
        rfl

def sideLadder (book : SimpleOrderBook) (depth : UInt64) :
    BookSide → List Level
  | .bid => book.bidLevels depth
  | .ask => book.askLevels depth

theorem sideLadder_eq (book : SimpleOrderBook) (depth : UInt64)
    (side : BookSide) :
    book.sideLadder depth side =
      ((book.sideLevels side).take depth.toNat).map
        (fun level => ⟨level.1, narrowQuantity level.2⟩) := by
  cases side with
  | bid => exact collectLevels_eq depth book.bids.entries []
  | ask => exact collectLevels_eq depth book.asks.entries []

/-- How many prices of the side are better. -/
def sideRank (book : SimpleOrderBook) (side : BookSide)
    (price : PriceCents) : ℕ :=
  match side with
  | .bid => book.bids.rank price
  | .ask => book.asks.rank price

theorem sideLevels_getElem?_iff (book : SimpleOrderBook) (side : BookSide)
    (row : ℕ) (price : PriceCents) (qty : UInt64) :
    (book.sideLevels side)[row]? = some (price, qty) ↔
      book.levelAt (side, price) = some qty ∧
        book.sideRank side price = row := by
  cases side with
  | bid => exact book.bids.getElem?_entries_iff row price qty
  | ask => exact book.asks.getElem?_entries_iff row price qty

/-- A row of the ladder shows the level whose rank it is. -/
theorem sideLadder_getElem?_iff (book : SimpleOrderBook) {depth : UInt64}
    {row : ℕ} (inside : row < depth.toNat) (side : BookSide)
    (level : Level) :
    (book.sideLadder depth side)[row]? = some level ↔
      ∃ qty, book.levelAt (side, level.price) = some qty ∧
        level.quantity = narrowQuantity qty ∧
          book.sideRank side level.price = row := by
  rw [sideLadder_eq, List.getElem?_map, List.getElem?_take_of_lt inside,
    Option.map_eq_some_iff]
  constructor
  · rintro ⟨⟨price, qty⟩, stored, rfl⟩
    obtain ⟨found, ranked⟩ :=
      (book.sideLevels_getElem?_iff side row price qty).mp stored
    exact ⟨qty, found, rfl, ranked⟩
  · rintro ⟨qty, found, narrowed, ranked⟩
    refine ⟨(level.price, qty),
      (book.sideLevels_getElem?_iff side row level.price qty).mpr
        ⟨found, ranked⟩, ?_⟩
    rw [← narrowed]

theorem sideLadder_first (book : SimpleOrderBook) {depth : UInt64}
    (some : 0 < depth.toNat) :
    (book.sideLadder depth .bid)[0]? = book.bestBid ∧
      (book.sideLadder depth .ask)[0]? = book.bestAsk := by
  constructor
  all_goals
    rw [sideLadder_eq, List.getElem?_map, List.getElem?_take_of_lt some,
      ← List.head?_eq_getElem?]
    rfl

/-- The cell of a row: the level of its rank, or nothing. -/
theorem printAnsi_cell (book : SimpleOrderBook) {depth : UInt64} {rank : ℕ}
    {row : AnsiRow} (printed : (book.printAnsi depth)[rank]? = some row)
    (side : BookSide) :
    rank < depth.toNat ∧
      row.cell side = ((book.sideLadder depth side)[rank]?).elim blankCell
        (levelCell side) := by
  unfold printAnsi at printed
  rw [List.getElem?_map, Option.map_eq_some_iff] at printed
  obtain ⟨index, counted, rfl⟩ := printed
  obtain ⟨inside, same⟩ := List.getElem?_eq_some_iff.mp counted
  rw [List.length_range] at inside
  rw [List.getElem_range] at same
  subst same
  refine ⟨inside, ?_⟩
  cases side <;> rfl

/-- What a cell of a rank shows: the price of the level of that rank and the
saturated sum of what rests there, in digits; it is blank exactly when there
is no such level. -/
structure ShowsRank (book : SimpleOrderBook) (side : BookSide) (rank : ℕ)
    (cell : List Char) : Prop where
  level : ∀ price quantity, (book.levelAt (side, price)).isSome →
    book.sideRank side price = rank →
      quantity.toNat =
        min (book.restingQuantity side.byte price) (2 ^ 32 - 1) →
        cell = levelCell side ⟨price, quantity⟩
  blank : cell = blankCell ↔
    ∀ price, (book.levelAt (side, price)).isSome →
      book.sideRank side price ≠ rank
  aligned : cell.length = 25

theorem Summarises.narrowQuantity_toNat {book : SimpleOrderBook}
    (summary : book.Summarises book.orders) {key : LevelKey} {qty : UInt64}
    (found : book.levelAt key = some qty) :
    (narrowQuantity qty).toNat =
      min (book.restingQuantity key.1.byte key.2) (2 ^ 32 - 1) := by
  have sum := summary.level_sum key
  rw [found, Option.getD_some] at sum
  rw [SimpleOrderBook.narrowQuantity_toNat, sum]

theorem Summarises.showsRank {book : SimpleOrderBook}
    (summary : book.Summarises book.orders) {depth : UInt64} {rank : ℕ}
    {row : AnsiRow} (printed : (book.printAnsi depth)[rank]? = some row)
    (side : BookSide) : book.ShowsRank side rank (row.cell side) := by
  obtain ⟨inside, cell⟩ := book.printAnsi_cell printed side
  have ranked := book.sideLadder_getElem?_iff inside side
  rw [cell]
  cases shown : (book.sideLadder depth side)[rank]? with
  | none =>
      have vacant : ∀ price, (book.levelAt (side, price)).isSome →
          book.sideRank side price ≠ rank := by
        intro price stored same
        obtain ⟨qty, found⟩ := Option.isSome_iff_exists.mp stored
        have listed := (ranked ⟨price, narrowQuantity qty⟩).mpr
          ⟨qty, found, rfl, same⟩
        rw [shown] at listed
        cases listed
      refine ⟨?_, iff_of_true rfl vacant, rfl⟩
      intro price quantity stored same
      exact absurd same (vacant price stored)
  | some level =>
      obtain ⟨qty, found, narrowed, here⟩ := (ranked level).mp shown
      have stored : (book.levelAt (side, level.price)).isSome := by
        rw [found]
        rfl
      rw [Option.elim_some]
      refine ⟨?_, ?_, levelCell_length side level⟩
      · intro price quantity storedThere same rests
        obtain ⟨other, foundThere⟩ := Option.isSome_iff_exists.mp storedThere
        have listed := (ranked ⟨price, narrowQuantity other⟩).mpr
          ⟨other, foundThere, rfl, same⟩
        rw [← summary.narrowQuantity_toNat foundThere] at rests
        obtain rfl := UInt32.toNat_inj.mp rests
        rw [shown] at listed
        exact congrArg (levelCell side) (Option.some.inj listed)
      · exact iff_of_false (levelCell_ne_blank side level)
          (fun vacant => vacant level.price stored here)

/-- A row of the ladder and a row of the depth chart name the same price, or
both none. -/
def SamePrice (side : BookSide) (row : AnsiRow) (chartRow : ChartRow) :
    Prop :=
  row.cell side = blankCell ∧ chartRow.columns side = columnsOf side none ∨
    ∃ level shown, row.cell side = levelCell side level ∧
      chartRow.columns side = columnsOf side (some shown) ∧
        level.price = shown.price

theorem Summarises.samePrice {book : SimpleOrderBook}
    (summary : book.Summarises book.orders) {depth width : UInt64} {rank : ℕ}
    {row : AnsiRow} (printed : (book.printAnsi depth)[rank]? = some row)
    {chartRow : ChartRow}
    (drawn : (book.printDepthChart depth width)[rank]? = some chartRow)
    (side : BookSide) : SamePrice side row chartRow := by
  obtain ⟨inside, cell⟩ := book.printAnsi_cell printed side
  have columns := (book.printDepthChart_drawsRank drawn).columns side
  have sums := summary.side_sums depth side
  have length := sums.length
  unfold SamePrice
  rw [cell, columns]
  by_cases shown : rank < (book.sideDepth depth side).length
  · have level := List.getElem?_eq_getElem shown
    have priced := sums.price rank _ level
    obtain ⟨stored, storedEq, price⟩ := Option.map_eq_some_iff.mp priced
    right
    refine ⟨⟨stored.1, narrowQuantity stored.2⟩, _, ?_,
      congrArg (columnsOf side) level, price⟩
    rw [sideLadder_eq, List.getElem?_map, List.getElem?_take_of_lt inside,
      storedEq]
    rfl
  · left
    rw [List.getElem?_eq_none (Nat.le_of_not_lt shown), sideLadder_eq,
      List.getElem?_eq_none (by
        rw [List.length_map, List.length_take]
        omega)]
    exact ⟨rfl, rfl⟩

/-- In every book that messages can build and for every depth: the ladder has
a row for each of the first ranks, and the row prints on either side the level
of that rank, and blanks exactly when there is none; the first row prints the
best bid and ask; and the rows name the prices of the depth chart. -/
theorem printAnsi_ladder (messages : List Message) (depth : UInt64) :
    let book := Run.final applied empty messages
    (book.printAnsi depth).length = depth.toNat ∧
      ∀ (rank : ℕ) (row : AnsiRow),
        (book.printAnsi depth)[rank]? = some row →
          (∀ side, book.ShowsRank side rank (row.cell side)) ∧
          (rank = 0 →
            row.bidCell = book.bestBid.elim blankCell (levelCell .bid) ∧
            row.askCell = book.bestAsk.elim blankCell (levelCell .ask)) ∧
          ∀ (width : UInt64) (chartRow : ChartRow),
            (book.printDepthChart depth width)[rank]? = some chartRow →
              ∀ side, SamePrice side row chartRow := by
  intro book
  have summary : book.Summarises book.orders := final_summarises messages
  refine ⟨?_, ?_⟩
  · unfold printAnsi
    rw [List.length_map, List.length_range]
  · intro rank row printed
    refine ⟨summary.showsRank printed, ?_, ?_⟩
    · rintro rfl
      obtain ⟨inside, bidCell⟩ := book.printAnsi_cell printed .bid
      have askCell := (book.printAnsi_cell printed .ask).2
      obtain ⟨bid, ask⟩ := book.sideLadder_first inside
      rw [bid] at bidCell
      rw [ask] at askCell
      exact ⟨bidCell, askCell⟩
    · intro width chartRow drawn
      exact summary.samePrice printed drawn

end SimpleOrderBook

end Waler
