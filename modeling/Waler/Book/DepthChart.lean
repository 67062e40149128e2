/-
The depth chart of SimpleOrderBook.hpp: running quantities on both sides and
the bars drawn for them, all in unsigned 64-bit arithmetic.

A row keeps the text of its columns and the cells of its two bars; the colours
and the headings around them are left out.  A price in cents has two decimals,
which `%.2f` prints as they are.
-/

import Waler.Book.LevelIndex

namespace Waler

open MarketData

structure DepthLevel where
  price : PriceCents
  cumulativeQty : UInt64
  deriving DecidableEq, Repr

/-- One row of the chart, from left to right. -/
structure ChartRow where
  bidColumns : List Char
  bidCells : List Char
  askCells : List Char
  askColumns : List Char
  deriving DecidableEq, Repr

namespace ChartRow

def columns (row : ChartRow) : BookSide → List Char
  | .bid => row.bidColumns
  | .ask => row.askColumns

def cells (row : ChartRow) : BookSide → List Char
  | .bid => row.bidCells
  | .ask => row.askCells

end ChartRow

namespace SimpleOrderBook

/-! ### Numbers as text -/

def padLeft (width : ℕ) (text : List Char) : List Char :=
  List.replicate (width - text.length) ' ' ++ text

/-- `%.2f` of a price in dollars, before it is padded. -/
def dollars (price : PriceCents) : List Char :=
  Nat.toDigits 10 (price.toNat / 100) ++
    ['.', Nat.digitChar (price.toNat / 10 % 10),
      Nat.digitChar (price.toNat % 10)]

/-! ### The chart -/

/-- The loop over one level map: `depth` and `cumulative` are what it has
pushed and added up so far. -/
def accumulateDepth (rows : UInt64) :
    List (PriceCents × UInt64) → List DepthLevel → UInt64 → List DepthLevel
  | [], depth, _ => depth
  | (price, qty) :: levels, depth, cumulative =>
      if depth.length ≥ rows.toNat then depth
      else
        accumulateDepth rows levels (depth ++ [⟨price, cumulative + qty⟩])
          (cumulative + qty)

def bidDepth (book : SimpleOrderBook) (rows : UInt64) : List DepthLevel :=
  accumulateDepth rows book.bids.entries [] 0

def askDepth (book : SimpleOrderBook) (rows : UInt64) : List DepthLevel :=
  accumulateDepth rows book.asks.entries [] 0

def largestCumulative (largest : UInt64) (depth : List DepthLevel) : UInt64 :=
  depth.foldl (fun largest level => max largest level.cumulativeQty) largest

def maxCumulative (bidDepth askDepth : List DepthLevel) : UInt64 :=
  let largest := largestCumulative (largestCumulative 0 bidDepth) askDepth
  if largest = 0 then 1 else largest

def chartWidth (width : UInt64) : UInt64 :=
  if width = 0 then 1 else width

/-- `bid_bar_width` and `ask_bar_width`; the product is a 64-bit product. -/
def barWidth (depth : List DepthLevel) (row : ℕ)
    (chartWidth maxCumulative : UInt64) : UInt64 :=
  match depth[row]? with
  | some level => max 1 (level.cumulativeQty * chartWidth / maxCumulative)
  | none => 0

def chartSeparator : List Char :=
  [' ', '|', ' ']

/-- `"%10llu | %10.2f | "`, or the same width of blanks. -/
def bidColumns : Option DepthLevel → List Char
  | some level =>
      padLeft 10 (Nat.toDigits 10 level.cumulativeQty.toNat) ++
        chartSeparator ++ padLeft 10 (dollars level.price) ++ chartSeparator
  | none => padLeft 10 [] ++ chartSeparator ++ padLeft 10 [] ++ chartSeparator

/-- `" | %10.2f | %10llu"`, or the same width of blanks. -/
def askColumns : Option DepthLevel → List Char
  | some level =>
      chartSeparator ++ padLeft 10 (dollars level.price) ++ chartSeparator ++
        padLeft 10 (Nat.toDigits 10 level.cumulativeQty.toNat)
  | none => chartSeparator ++ padLeft 10 [] ++ chartSeparator ++ padLeft 10 []

def chartRow (bidDepth askDepth : List DepthLevel)
    (chartWidth maxCumulative : UInt64) (row : ℕ) : ChartRow :=
  let bidBarWidth := barWidth bidDepth row chartWidth maxCumulative
  let askBarWidth := barWidth askDepth row chartWidth maxCumulative
  { bidColumns := bidColumns bidDepth[row]?
    bidCells := List.replicate (chartWidth - bidBarWidth).toNat ' ' ++
      List.replicate bidBarWidth.toNat '#'
    askCells := List.replicate askBarWidth.toNat '#' ++
      List.replicate (chartWidth - askBarWidth).toNat ' '
    askColumns := askColumns askDepth[row]? }

def printDepthChart (book : SimpleOrderBook) (rows width : UInt64) :
    List ChartRow :=
  let askDepth := book.askDepth rows
  let bidDepth := book.bidDepth rows
  (List.range rows.toNat).map
    (chartRow bidDepth askDepth (chartWidth width)
      (maxCumulative bidDepth askDepth))

/-! ### Running sums -/

/-- The quantity, in exact arithmetic, of the first `count` levels. -/
def quantityOfFirst (levels : List (PriceCents × UInt64)) (count : ℕ) : ℕ :=
  ((levels.take count).map (fun level => level.2.toNat)).sum

theorem quantityOfFirst_mono (levels : List (PriceCents × UInt64))
    {fewer more : ℕ} (below : fewer ≤ more) :
    quantityOfFirst levels fewer ≤ quantityOfFirst levels more := by
  unfold quantityOfFirst
  rw [List.map_take, List.map_take]
  exact List.monotone_sum_take _ below

theorem quantityOfFirst_append {done : List (PriceCents × UInt64)} {count : ℕ}
    (within : count ≤ done.length) (levels : List (PriceCents × UInt64)) :
    quantityOfFirst (done ++ levels) count = quantityOfFirst done count := by
  unfold quantityOfFirst
  rw [List.take_append_of_le_length within]

theorem quantityOfFirst_succ (done levels : List (PriceCents × UInt64))
    (level : PriceCents × UInt64) :
    quantityOfFirst (done ++ level :: levels) (done.length + 1) =
      quantityOfFirst done done.length + level.2.toNat := by
  unfold quantityOfFirst
  rw [List.take_append, List.take_of_length_le (Nat.le_add_right _ 1),
    Nat.add_sub_cancel_left, List.take_succ_cons, List.take_zero,
    List.map_append, List.sum_append, List.take_length]
  rfl

/-- A column of the chart: the first levels of a side, each with the exact sum
of the quantities up to and including its own. -/
structure SumsExactly (rows : UInt64) (levels : List (PriceCents × UInt64))
    (depth : List DepthLevel) : Prop where
  length : depth.length = min rows.toNat levels.length
  price : ∀ (row : ℕ) (level : DepthLevel), depth[row]? = some level →
    (levels[row]?).map Prod.fst = some level.price
  sum : ∀ (row : ℕ) (level : DepthLevel), depth[row]? = some level →
    level.cumulativeQty.toNat = quantityOfFirst levels (row + 1)

theorem entry_of_concat {depth : List DepthLevel} {pushed level : DepthLevel}
    {row : ℕ} (shown : (depth ++ [pushed])[row]? = some level) :
    row < depth.length ∧ depth[row]? = some level ∨
      row = depth.length ∧ level = pushed := by
  have inside := (List.getElem?_eq_some_iff.mp shown).1
  rw [List.length_append, List.length_singleton] at inside
  by_cases before : row < depth.length
  · rw [List.getElem?_append_left before] at shown
    exact Or.inl ⟨before, shown⟩
  · have last : row = depth.length := by omega
    rw [last, List.getElem?_concat_length] at shown
    exact Or.inr ⟨last, (Option.some.inj shown).symm⟩

section Column

variable {rows : UInt64} {done : List (PriceCents × UInt64)}
  {depth : List DepthLevel}

/-- A full column shows nothing of the levels behind it. -/
theorem SumsExactly.full (sums : SumsExactly rows done depth)
    (full : depth.length ≥ rows.toNat)
    (levels : List (PriceCents × UInt64)) :
    SumsExactly rows (done ++ levels) depth where
  length := by
    have shown := sums.length
    rw [List.length_append]
    omega
  price := by
    intro row level shown
    have inside := (List.getElem?_eq_some_iff.mp shown).1
    have counted := sums.length
    rw [List.getElem?_append_left (by omega)]
    exact sums.price row level shown
  sum := by
    intro row level shown
    have inside := (List.getElem?_eq_some_iff.mp shown).1
    have counted := sums.length
    rw [quantityOfFirst_append (by omega)]
    exact sums.sum row level shown

/-- One turn of the loop below the row limit. -/
theorem SumsExactly.push (sums : SumsExactly rows done depth)
    (counted : depth.length = done.length) (room : depth.length < rows.toNat)
    {cumulative : UInt64}
    (reached : cumulative.toNat = quantityOfFirst done done.length)
    (price : PriceCents) (qty : UInt64)
    (fits : cumulative.toNat + qty.toNat < 2 ^ 64) :
    SumsExactly rows (done ++ [(price, qty)])
      (depth ++ [⟨price, cumulative + qty⟩]) where
  length := by
    rw [List.length_append, List.length_append, List.length_singleton,
      List.length_singleton]
    omega
  price := by
    intro row level shown
    obtain ⟨before, old⟩ | ⟨last, rfl⟩ := entry_of_concat shown
    · rw [List.getElem?_append_left (counted ▸ before)]
      exact sums.price row level old
    · rw [last, counted, List.getElem?_concat_length]
      rfl
  sum := by
    intro row level shown
    obtain ⟨before, old⟩ | ⟨last, rfl⟩ := entry_of_concat shown
    · rw [quantityOfFirst_append (by omega)]
      exact sums.sum row level old
    · rw [last, counted, quantityOfFirst_succ, ← reached]
      exact (UInt64.toNat_add _ _).trans (Nat.mod_eq_of_lt fits)

end Column

theorem accumulateDepth_sums (rows : UInt64)
    (done levels : List (PriceCents × UInt64)) (depth : List DepthLevel)
    (cumulative : UInt64)
    (fits : quantityOfFirst (done ++ levels) (done ++ levels).length < 2 ^ 64)
    (reached : cumulative.toNat = quantityOfFirst done done.length)
    (sums : SumsExactly rows done depth)
    (counted : depth.length = done.length) :
    SumsExactly rows (done ++ levels)
      (accumulateDepth rows levels depth cumulative) := by
  induction levels generalizing done depth cumulative with
  | nil =>
      rw [List.append_nil]
      exact sums
  | cons head rest ih =>
      rcases head with ⟨price, qty⟩
      unfold accumulateDepth
      by_cases full : depth.length ≥ rows.toNat
      · rw [if_pos full]
        exact sums.full full _
      · have upTo : quantityOfFirst (done ++ (price, qty) :: rest)
            (done.length + 1) =
              quantityOfFirst done done.length + qty.toNat :=
          quantityOfFirst_succ done rest (price, qty)
        have whole := quantityOfFirst_mono (done ++ (price, qty) :: rest)
          (show done.length + 1 ≤ (done ++ (price, qty) :: rest).length by
            rw [List.length_append, List.length_cons]
            omega)
        have exact : (cumulative + qty).toNat =
            cumulative.toNat + qty.toNat := by
          rw [UInt64.toNat_add]
          exact Nat.mod_eq_of_lt (by omega)
        rw [if_neg full, List.append_cons done (price, qty) rest]
        apply ih
        · rw [← List.append_cons]
          exact fits
        · rw [exact, reached, List.length_append, List.length_singleton,
            quantityOfFirst_succ]
        · exact sums.push counted (by omega) reached price qty (by omega)
        · rw [List.length_append, List.length_append, counted]
          rfl

/-! ### Bars -/

theorem word_max_toNat (left right : UInt64) :
    (max left right).toNat = max left.toNat right.toNat := by
  change (if left ≤ right then right else left).toNat = _
  by_cases ordered : left ≤ right
  · rw [if_pos ordered, Nat.max_eq_right (UInt64.le_iff_toNat_le.mp ordered)]
  · have above : ¬ left.toNat ≤ right.toNat := fun below =>
      ordered (UInt64.le_iff_toNat_le.mpr below)
    rw [if_neg ordered, Nat.max_eq_left (by omega)]

theorem le_largestCumulative (largest : UInt64) (depth : List DepthLevel) :
    largest.toNat ≤ (largestCumulative largest depth).toNat ∧
      ∀ level ∈ depth,
        level.cumulativeQty.toNat ≤
          (largestCumulative largest depth).toNat := by
  unfold largestCumulative
  induction depth generalizing largest with
  | nil => exact ⟨Nat.le_refl _, fun level listed => by cases listed⟩
  | cons head rest ih =>
      have larger := word_max_toNat largest head.cumulativeQty
      rcases ih (max largest head.cumulativeQty) with ⟨start, later⟩
      rw [List.foldl_cons]
      refine ⟨by omega, ?_⟩
      intro level listed
      rcases List.mem_cons.mp listed with same | inRest
      · rw [same]
        omega
      · exact later level inRest

theorem largestCumulative_le {largest bound : UInt64}
    {depth : List DepthLevel} (start : largest.toNat ≤ bound.toNat)
    (all : ∀ level ∈ depth, level.cumulativeQty.toNat ≤ bound.toNat) :
    (largestCumulative largest depth).toNat ≤ bound.toNat := by
  unfold largestCumulative
  induction depth generalizing largest with
  | nil => exact start
  | cons head rest ih =>
      have larger := word_max_toNat largest head.cumulativeQty
      have headLe := all head List.mem_cons_self
      apply ih (show (max largest head.cumulativeQty).toNat ≤ _ by omega)
      intro level inRest
      exact all level (List.mem_cons_of_mem head inRest)

theorem word_orOne_pos (value : UInt64) :
    0 < (if value = 0 then 1 else value).toNat := by
  split
  · decide
  · rename_i nonzero
    exact Nat.pos_of_ne_zero (fun zero =>
      nonzero (UInt64.toNat_inj.mp zero))

/-- The bars are never divided by zero. -/
theorem maxCumulative_pos (bidDepth askDepth : List DepthLevel) :
    0 < (maxCumulative bidDepth askDepth).toNat :=
  word_orOne_pos _

theorem le_maxCumulative {bidDepth askDepth : List DepthLevel}
    {level : DepthLevel} (shown : level ∈ bidDepth ∨ level ∈ askDepth) :
    level.cumulativeQty.toNat ≤ (maxCumulative bidDepth askDepth).toNat := by
  have bids := le_largestCumulative 0 bidDepth
  have asks := le_largestCumulative (largestCumulative 0 bidDepth) askDepth
  have largest : level.cumulativeQty.toNat ≤
      (largestCumulative (largestCumulative 0 bidDepth) askDepth).toNat := by
    rcases shown with isBid | isAsk
    · exact Nat.le_trans (bids.2 level isBid) asks.1
    · exact asks.2 level isAsk
  unfold maxCumulative
  simp only
  split
  · rename_i zero
    rw [zero] at largest
    exact Nat.le_trans largest (Nat.zero_le _)
  · exact largest

/-- A positive quantity that no shown quantity exceeds is the maximum. -/
theorem maxCumulative_le {bidDepth askDepth : List DepthLevel}
    {bound : UInt64} (positive : 0 < bound.toNat)
    (bids : ∀ level ∈ bidDepth, level.cumulativeQty.toNat ≤ bound.toNat)
    (asks : ∀ level ∈ askDepth, level.cumulativeQty.toNat ≤ bound.toNat) :
    (maxCumulative bidDepth askDepth).toNat ≤ bound.toNat := by
  unfold maxCumulative
  simp only
  split
  · exact positive
  · exact largestCumulative_le
      (largestCumulative_le (Nat.zero_le _) bids) asks

theorem chartWidth_pos (width : UInt64) : 0 < (chartWidth width).toNat :=
  word_orOne_pos width

theorem barWidth_toNat {depth : List DepthLevel} {row : ℕ}
    {level : DepthLevel} (shown : depth[row]? = some level)
    (chartWidth largest : UInt64) :
    (barWidth depth row chartWidth largest).toNat =
      max 1 (level.cumulativeQty.toNat * chartWidth.toNat % 2 ^ 64 /
        largest.toNat) := by
  unfold barWidth
  rw [shown]
  simp only
  rw [word_max_toNat, UInt64.toNat_div, UInt64.toNat_mul]
  rfl

/-- The wrapped product is never above the exact one, and the exact one is at
most the width times the maximum. -/
theorem barWidth_bounds {depth : List DepthLevel} {row : ℕ}
    {level : DepthLevel} (shown : depth[row]? = some level)
    {chartWidth largest : UInt64} (wide : 0 < chartWidth.toNat)
    (below : level.cumulativeQty.toNat ≤ largest.toNat) :
    1 ≤ (barWidth depth row chartWidth largest).toNat ∧
      (barWidth depth row chartWidth largest).toNat ≤ chartWidth.toNat := by
  have share : level.cumulativeQty.toNat * chartWidth.toNat % 2 ^ 64 /
      largest.toNat ≤ chartWidth.toNat := by
    apply Nat.div_le_of_le_mul
    calc
      level.cumulativeQty.toNat * chartWidth.toNat % 2 ^ 64
          ≤ level.cumulativeQty.toNat * chartWidth.toNat := Nat.mod_le _ _
      _ ≤ largest.toNat * chartWidth.toNat := Nat.mul_le_mul_right _ below
  rw [barWidth_toNat shown]
  omega

section Exact

variable {depth : List DepthLevel} {chartWidth largest : UInt64}

theorem barWidth_of_fits {row : ℕ} {level : DepthLevel}
    (shown : depth[row]? = some level)
    (below : level.cumulativeQty.toNat ≤ largest.toNat)
    (fits : largest.toNat * chartWidth.toNat < 2 ^ 64) :
    (barWidth depth row chartWidth largest).toNat =
      max 1 (level.cumulativeQty.toNat * chartWidth.toNat /
        largest.toNat) := by
  have product := Nat.mul_le_mul_right chartWidth.toNat below
  rw [barWidth_toNat shown, Nat.mod_eq_of_lt (Nat.lt_of_le_of_lt product fits)]

theorem barWidth_mono {row later : ℕ} {level deeper : DepthLevel}
    (shown : depth[row]? = some level)
    (shownLater : depth[later]? = some deeper)
    (grows : level.cumulativeQty.toNat ≤ deeper.cumulativeQty.toNat)
    (below : deeper.cumulativeQty.toNat ≤ largest.toNat)
    (fits : largest.toNat * chartWidth.toNat < 2 ^ 64) :
    (barWidth depth row chartWidth largest).toNat ≤
      (barWidth depth later chartWidth largest).toNat := by
  have shares : level.cumulativeQty.toNat * chartWidth.toNat /
      largest.toNat ≤ deeper.cumulativeQty.toNat * chartWidth.toNat /
        largest.toNat :=
    Nat.div_le_div_right (Nat.mul_le_mul_right chartWidth.toNat grows)
  rw [barWidth_of_fits shown (Nat.le_trans grows below) fits,
    barWidth_of_fits shownLater below fits]
  omega

theorem barWidth_full {row : ℕ} {level : DepthLevel}
    (shown : depth[row]? = some level) (wide : 0 < chartWidth.toNat)
    (positive : 0 < largest.toNat)
    (whole : level.cumulativeQty.toNat = largest.toNat)
    (fits : largest.toNat * chartWidth.toNat < 2 ^ 64) :
    barWidth depth row chartWidth largest = chartWidth := by
  apply UInt64.toNat_inj.mp
  rw [barWidth_of_fits shown (Nat.le_of_eq whole) fits, whole,
    Nat.mul_div_cancel_left _ positive]
  omega

end Exact

/-! ### Both sides of a book -/

def sideLevels (book : SimpleOrderBook) :
    BookSide → List (PriceCents × UInt64)
  | .bid => book.bids.entries
  | .ask => book.asks.entries

def sideDepth (book : SimpleOrderBook) (rows : UInt64) :
    BookSide → List DepthLevel
  | .bid => book.bidDepth rows
  | .ask => book.askDepth rows

/-- The `max_cumulative` all bars of a chart are divided by. -/
def chartMaximum (book : SimpleOrderBook) (rows : UInt64) : UInt64 :=
  maxCumulative (book.bidDepth rows) (book.askDepth rows)

def sideBar (book : SimpleOrderBook) (rows width : UInt64) (side : BookSide)
    (row : ℕ) : UInt64 :=
  barWidth (book.sideDepth rows side) row (chartWidth width)
    (book.chartMaximum rows)

theorem levelAt_of_mem {book : SimpleOrderBook} {side : BookSide}
    {level : PriceCents × UInt64} (listed : level ∈ book.sideLevels side) :
    book.levelAt (side, level.1) = some level.2 := by
  cases side with
  | bid => exact (book.bids.mem_entries_iff level.1 level.2).mp listed
  | ask => exact (book.asks.mem_entries_iff level.1 level.2).mp listed

theorem mem_sideLevels {book : SimpleOrderBook} {side : BookSide}
    {price : PriceCents} {qty : UInt64}
    (found : book.levelAt (side, price) = some qty) :
    (price, qty) ∈ book.sideLevels side := by
  cases side with
  | bid => exact (book.bids.mem_entries_iff price qty).mpr found
  | ask => exact (book.asks.mem_entries_iff price qty).mpr found

theorem sideLevels_nodup (book : SimpleOrderBook) (side : BookSide) :
    ((book.sideLevels side).map (fun level => (side, level.1))).Nodup := by
  have prices : ((book.sideLevels side).map Prod.fst).Nodup := by
    cases side with
    | bid => exact book.bids.keys_nodup
    | ask => exact book.asks.keys_nodup
  have keyed := prices.map (f := fun price => (side, price))
    (fun left right same => congrArg Prod.snd same)
  rwa [List.map_map] at keyed

/-- The levels of one side hold different orders, so together they hold no
more than rests. -/
theorem Summarises.side_total_le {book : SimpleOrderBook}
    (summary : book.Summarises book.orders) (side : BookSide) :
    quantityOfFirst (book.sideLevels side) (book.sideLevels side).length ≤
      FiniteMap.total (fun order : RestingOrder => order.quantity.toNat)
        book.orders := by
  have held : (book.sideLevels side).map (fun level => level.2.toNat) =
      ((book.sideLevels side).map (fun level => (side, level.1))).map
        (quantityAt book.orders) := by
    rw [List.map_map]
    apply List.map_congr_left
    intro level listed
    have stored := summary.sum (side, level.1)
    rw [levelIndex_getD, levelAt_of_mem listed, Option.getD_some] at stored
    exact stored
  unfold quantityOfFirst
  rw [List.take_length, held]
  exact GroupIndex.sum_held_le (book.sideLevels_nodup side) book.orders

theorem Summarises.side_total {book : SimpleOrderBook}
    (summary : book.Summarises book.orders) (side : BookSide) :
    quantityOfFirst (book.sideLevels side) (book.sideLevels side).length <
      2 ^ 64 :=
  Nat.lt_of_le_of_lt (summary.side_total_le side)
    (total_quantity_lt book.orders)

theorem Summarises.side_sums {book : SimpleOrderBook}
    (summary : book.Summarises book.orders) (rows : UInt64)
    (side : BookSide) :
    SumsExactly rows (book.sideLevels side) (book.sideDepth rows side) := by
  have start : SumsExactly rows [] [] :=
    { length := (Nat.min_zero rows.toNat).symm
      price := fun row level shown => by cases shown
      sum := fun row level shown => by cases shown }
  have sums := accumulateDepth_sums rows [] (book.sideLevels side) [] 0
    (summary.side_total side) rfl start rfl
  cases side with
  | bid => exact sums
  | ask => exact sums

theorem le_chartMaximum {book : SimpleOrderBook} {rows : UInt64}
    {side : BookSide} {row : ℕ} {level : DepthLevel}
    (shown : (book.sideDepth rows side)[row]? = some level) :
    level.cumulativeQty.toNat ≤ (book.chartMaximum rows).toNat := by
  have listed := List.mem_of_getElem? shown
  cases side with
  | bid => exact le_maxCumulative (Or.inl listed)
  | ask => exact le_maxCumulative (Or.inr listed)

theorem sideBar_bounds (book : SimpleOrderBook) (rows width : UInt64)
    (side : BookSide) {row : ℕ}
    (inside : row < (book.sideDepth rows side).length) :
    1 ≤ book.sideBar rows width side row ∧
      book.sideBar rows width side row ≤ chartWidth width := by
  have shown := List.getElem?_eq_getElem inside
  rw [UInt64.le_iff_toNat_le, UInt64.le_iff_toNat_le]
  exact barWidth_bounds shown (chartWidth_pos width) (le_chartMaximum shown)

theorem sideBar_le (book : SimpleOrderBook) (rows width : UInt64)
    (side : BookSide) (row : ℕ) :
    book.sideBar rows width side row ≤ chartWidth width := by
  by_cases inside : row < (book.sideDepth rows side).length
  · exact (book.sideBar_bounds rows width side inside).2
  · have absent := List.getElem?_eq_none (Nat.le_of_not_lt inside)
    unfold sideBar barWidth
    rw [absent, UInt64.le_iff_toNat_le]
    exact Nat.zero_le _

theorem sideBar_vacant (book : SimpleOrderBook) (rows width : UInt64)
    {side : BookSide} {row : ℕ}
    (vacant : (book.sideDepth rows side).length ≤ row) :
    book.sideBar rows width side row = 0 := by
  unfold sideBar barWidth
  rw [List.getElem?_eq_none vacant]

/-! ### Rows -/

def columnsOf : BookSide → Option DepthLevel → List Char
  | .bid => bidColumns
  | .ask => askColumns

/-- A bar of some width, flush with the middle of the chart. -/
def barCells (side : BookSide) (width bar : ℕ) : List Char :=
  match side with
  | .bid => List.replicate (width - bar) ' ' ++ List.replicate bar '#'
  | .ask => List.replicate bar '#' ++ List.replicate (width - bar) ' '

theorem barCells_length (side : BookSide) {width bar : ℕ}
    (fits : bar ≤ width) : (barCells side width bar).length = width := by
  unfold barCells
  cases side with
  | bid =>
      rw [List.length_append, List.length_replicate, List.length_replicate]
      omega
  | ask =>
      rw [List.length_append, List.length_replicate, List.length_replicate]
      omega

theorem barCells_count (side : BookSide) (width bar : ℕ) :
    (barCells side width bar).count '#' = bar := by
  unfold barCells
  cases side with
  | bid =>
      rw [List.count_append, List.count_replicate, List.count_replicate_self,
        if_neg (by decide), Nat.zero_add]
  | ask =>
      rw [List.count_append, List.count_replicate_self, List.count_replicate,
        if_neg (by decide), Nat.add_zero]

theorem barCells_full (side : BookSide) (width : ℕ) :
    barCells side width width = List.replicate width '#' := by
  unfold barCells
  cases side with
  | bid =>
      rw [Nat.sub_self]
      rfl
  | ask =>
      rw [Nat.sub_self]
      exact List.append_nil _

/-- What a row shows of its rank: on either side the price and the sum of the
level of that rank, and its bar. -/
structure DrawsRank (book : SimpleOrderBook) (rows width : UInt64)
    (rank : ℕ) (row : ChartRow) : Prop where
  columns : ∀ side, row.columns side =
    columnsOf side (book.sideDepth rows side)[rank]?
  cells : ∀ side, row.cells side =
    barCells side (chartWidth width).toNat
      (book.sideBar rows width side rank).toNat

theorem printDepthChart_length (book : SimpleOrderBook)
    (rows width : UInt64) :
    (book.printDepthChart rows width).length = rows.toNat := by
  unfold printDepthChart
  rw [List.length_map, List.length_range]

theorem printDepthChart_drawsRank (book : SimpleOrderBook)
    {rows width : UInt64} {rank : ℕ} {row : ChartRow}
    (printed : (book.printDepthChart rows width)[rank]? = some row) :
    book.DrawsRank rows width rank row := by
  unfold printDepthChart at printed
  rw [List.getElem?_map, Option.map_eq_some_iff] at printed
  obtain ⟨index, counted, rfl⟩ := printed
  obtain ⟨inside, same⟩ := List.getElem?_eq_some_iff.mp counted
  rw [List.getElem_range] at same
  subst same
  have rest : ∀ side, (chartWidth width -
      book.sideBar rows width side rank).toNat =
        (chartWidth width).toNat -
          (book.sideBar rows width side rank).toNat :=
    fun side =>
      UInt64.toNat_sub_of_le _ _ (book.sideBar_le rows width side rank)
  constructor
  · intro side
    cases side <;> rfl
  · intro side
    unfold barCells
    rw [← rest]
    cases side <;> rfl

/-- Every row of the chart is drawn in exactly the width asked for. -/
theorem DrawsRank.cells_length {book : SimpleOrderBook}
    {rows width : UInt64} {rank : ℕ} {row : ChartRow}
    (draws : book.DrawsRank rows width rank row) (side : BookSide) :
    (row.cells side).length = (chartWidth width).toNat := by
  rw [draws.cells]
  exact barCells_length side
    (UInt64.le_iff_toNat_le.mp (book.sideBar_le rows width side rank))

theorem printDepthChart_cells (book : SimpleOrderBook) (rows width : UInt64)
    {row : ChartRow} (printed : row ∈ book.printDepthChart rows width) :
    row.bidCells.length = (chartWidth width).toNat ∧
      row.askCells.length = (chartWidth width).toNat := by
  obtain ⟨rank, atRank⟩ := List.mem_iff_getElem?.mp printed
  have draws := book.printDepthChart_drawsRank atRank
  exact ⟨draws.cells_length .bid, draws.cells_length .ask⟩

/-! ### Every chart -/

theorem Summarises.sideBar_mono {book : SimpleOrderBook}
    (summary : book.Summarises book.orders) {rows width : UInt64}
    (fits : (book.chartMaximum rows).toNat * (chartWidth width).toNat <
      2 ^ 64)
    (side : BookSide) {row later : ℕ} (ordered : row ≤ later)
    (inside : later < (book.sideDepth rows side).length) :
    book.sideBar rows width side row ≤ book.sideBar rows width side later := by
  have shown := List.getElem?_eq_getElem (Nat.lt_of_le_of_lt ordered inside)
  have shownLater := List.getElem?_eq_getElem inside
  have sums := summary.side_sums rows side
  have grows := quantityOfFirst_mono (book.sideLevels side)
    (Nat.add_le_add_right ordered 1)
  rw [← sums.sum row _ shown, ← sums.sum later _ shownLater] at grows
  rw [UInt64.le_iff_toNat_le]
  exact barWidth_mono shown shownLater grows (le_chartMaximum shownLater) fits

/-- The quantity at the bottom of a column is the largest of that column. -/
theorem Summarises.le_deepest {book : SimpleOrderBook}
    (summary : book.Summarises book.orders) {rows : UInt64} {side : BookSide}
    {deepest level : DepthLevel}
    (bottom : (book.sideDepth rows side).getLast? = some deepest)
    (shown : level ∈ book.sideDepth rows side) :
    level.cumulativeQty.toNat ≤ deepest.cumulativeQty.toNat := by
  have sums := summary.side_sums rows side
  rw [List.getLast?_eq_getElem?] at bottom
  rcases List.mem_iff_getElem?.mp shown with ⟨row, at_row⟩
  have inside := (List.getElem?_eq_some_iff.mp at_row).1
  rw [sums.sum row level at_row, sums.sum _ deepest bottom]
  exact quantityOfFirst_mono _ (by omega)

theorem Summarises.sideBar_full {book : SimpleOrderBook}
    (summary : book.Summarises book.orders) {rows width : UInt64}
    (fits : (book.chartMaximum rows).toNat * (chartWidth width).toNat <
      2 ^ 64)
    {side : BookSide} {deepest : DepthLevel}
    (bottom : (book.sideDepth rows side).getLast? = some deepest)
    (positive : 0 < deepest.cumulativeQty)
    (larger : ∀ other level,
      (book.sideDepth rows other).getLast? = some level →
        level.cumulativeQty ≤ deepest.cumulativeQty) :
    book.sideBar rows width side ((book.sideDepth rows side).length - 1) =
      chartWidth width := by
  have counted : 0 < deepest.cumulativeQty.toNat :=
    UInt64.lt_iff_toNat_lt.mp positive
  have largest : ∀ other, ∀ level ∈ book.sideDepth rows other,
      level.cumulativeQty.toNat ≤ deepest.cumulativeQty.toNat := by
    intro other level shown
    cases last : (book.sideDepth rows other).getLast? with
    | none =>
        rw [List.getLast?_eq_none_iff.mp last] at shown
        cases shown
    | some otherDeepest =>
        have above := UInt64.le_iff_toNat_le.mp (larger other _ last)
        exact Nat.le_trans (summary.le_deepest last shown) above
  have shown := bottom
  rw [List.getLast?_eq_getElem?] at shown
  have whole : deepest.cumulativeQty.toNat =
      (book.chartMaximum rows).toNat :=
    Nat.le_antisymm (le_chartMaximum shown)
      (maxCumulative_le counted (largest .bid) (largest .ask))
  exact barWidth_full shown (chartWidth_pos width) (maxCumulative_pos _ _)
    whole fits

/-- In every book that messages can build, and for every number of rows and
every width: the running sums are exact, every bar of a shown level and every
drawn row fit the width, and, as long as the largest product fits a word, the
bars grow downwards and the larger side's deepest bar is full.  The rows show
those sums and those bars, rank by rank. -/
theorem printDepthChart_safe (messages : List Message) (rows width : UInt64) :
    let book := Run.final applied empty messages
    (∀ side,
      SumsExactly rows (book.sideLevels side) (book.sideDepth rows side)) ∧
      (∀ side row, row < (book.sideDepth rows side).length →
        1 ≤ book.sideBar rows width side row ∧
          book.sideBar rows width side row ≤ chartWidth width) ∧
      (∀ row ∈ book.printDepthChart rows width,
        row.bidCells.length = (chartWidth width).toNat ∧
          row.askCells.length = (chartWidth width).toNat) ∧
      ((book.chartMaximum rows).toNat * (chartWidth width).toNat < 2 ^ 64 →
        (∀ side row later, row ≤ later →
          later < (book.sideDepth rows side).length →
            book.sideBar rows width side row ≤
              book.sideBar rows width side later) ∧
          ∀ side deepest,
            (book.sideDepth rows side).getLast? = some deepest →
              0 < deepest.cumulativeQty →
                (∀ other level,
                  (book.sideDepth rows other).getLast? = some level →
                    level.cumulativeQty ≤ deepest.cumulativeQty) →
                  book.sideBar rows width side
                    ((book.sideDepth rows side).length - 1) =
                      chartWidth width) ∧
      (book.printDepthChart rows width).length = rows.toNat ∧
      (∀ (rank : ℕ) (row : ChartRow),
        (book.printDepthChart rows width)[rank]? = some row →
          book.DrawsRank rows width rank row) ∧
      ∀ side rank, (book.sideDepth rows side).length ≤ rank →
        book.sideBar rows width side rank = 0 := by
  intro book
  have summary : book.Summarises book.orders := final_summarises messages
  refine ⟨summary.side_sums rows, ?_, ?_, ?_,
    book.printDepthChart_length rows width,
    fun _ _ printed => book.printDepthChart_drawsRank printed,
    fun _ _ vacant => book.sideBar_vacant rows width vacant⟩
  · intro side row inside
    exact book.sideBar_bounds rows width side inside
  · intro row printed
    exact book.printDepthChart_cells rows width printed
  · intro fits
    constructor
    · intro side row later ordered inside
      exact summary.sideBar_mono fits side ordered inside
    · intro side deepest bottom positive larger
      exact summary.sideBar_full fits bottom positive larger

def chartedOrder (orderId : UInt32) (side : UInt8) (price : PriceCents)
    (quantity : UInt32) : Message :=
  .addOrder
    { header := ⟨MessageType.addOrder.toByte⟩
      timestampNs := 1
      orderId := orderId
      side := side
      price := price
      quantity := quantity
      symbol := Vector.replicate symbolLen 0 }

/-- Two bids of 5 and 7 against one offer of 3, drawn 24 cells wide. -/
theorem printDepthChart_safe_twoBids :
    (Run.final applied empty
      [chartedOrder 1 sideBuy 100 5, chartedOrder 2 sideBuy 99 7,
        chartedOrder 3 sideSell 101 3]).sideBar 10 24 .bid 1 = 24 := by
  have drawn := (printDepthChart_safe
    [chartedOrder 1 sideBuy 100 5, chartedOrder 2 sideBuy 99 7,
      chartedOrder 3 sideSell 101 3] 10 24).2.2.2.1 (by decide +kernel)
  refine drawn.2 .bid ⟨99, 12⟩ (by decide +kernel) (by decide) ?_
  intro other level last
  cases other with
  | bid =>
      have bottom : some (⟨99, 12⟩ : DepthLevel) = some level := last
      cases bottom
      decide
  | ask =>
      have bottom : some (⟨101, 3⟩ : DepthLevel) = some level := last
      cases bottom
      decide

end SimpleOrderBook

end Waler
