/-
What the strategy's quotes say: the two amounts around a theoretical price,
rounded to cents, encoded and read back by a book.

The rounding is signed and the price on the wire is not, so an amount that
rounds below zero comes back as a price near `2 ^ 32`.
-/

import Mathlib.Tactic.Linarith
import Mathlib.Tactic.Ring
import Waler.Generator.TopScan
import Waler.Wire.RoundTrip

namespace Waler

open MarketData

namespace Strategy

def halfSpread : ℚ := 2 / 100

def quoteQty : UInt32 := 100

/-! ### Rounding -/

theorem lround_error (value : ℚ) :
    value - 1 / 2 ≤ lround value ∧ lround value ≤ value + 1 / 2 := by
  unfold lround
  split
  · have low := Int.lt_floor_add_one (value + 1 / 2)
    have high := Int.floor_le (value + 1 / 2)
    constructor
    · linarith
    · exact high
  · have low := Int.le_ceil (value - 1 / 2)
    have high := Int.ceil_lt_add_one (value - 1 / 2)
    constructor
    · exact low
    · linarith

theorem lround_nonneg_iff (value : ℚ) :
    0 ≤ lround value ↔ -(1 / 2) < value := by
  unfold lround
  split
  · rename_i nonneg
    refine iff_of_true (Int.floor_nonneg.mpr ?_) ?_ <;> linarith
  · rw [← Int.sub_one_lt_iff, Int.lt_ceil]
    push_cast
    constructor <;> intro below <;> linarith

theorem lround_mono {low high : ℚ} (ordered : low ≤ high) :
    lround low ≤ lround high := by
  by_cases lowNonneg : 0 ≤ low
  · unfold lround
    rw [if_pos lowNonneg, if_pos (lowNonneg.trans ordered)]
    exact Int.floor_le_floor (by linarith)
  · by_cases highNonneg : 0 ≤ high
    · have above := (lround_nonneg_iff high).mpr (by linarith)
      have below : lround low ≤ 0 := by
        unfold lround
        rw [if_neg lowNonneg, Int.ceil_le]
        push_cast
        linarith
      exact below.trans above
    · unfold lround
      rw [if_neg lowNonneg, if_neg highNonneg]
      exact Int.ceil_le_ceil (by linarith)

/-! ### The packet of a quote -/

def quotedMessage (nowNs : UInt64) (bidDollars askDollars : ℚ)
    (qty : UInt32) : QuoteMessage :=
  { header := ⟨MessageType.quote.toByte⟩
    timestampNs := nowNs
    bidPrice := dollarsToCents bidDollars
    bidQty := qty
    askPrice := dollarsToCents askDollars
    askQty := qty }

theorem read_encodeQuote (nowNs : UInt64) (bidDollars askDollars : ℚ)
    (qty : UInt32) :
    packetMessage? (encodeQuote nowNs bidDollars askDollars qty) =
      some (.quote (quotedMessage nowNs bidDollars askDollars qty)) := by
  have tagged : (Message.quote
      (quotedMessage nowNs bidDollars askDollars qty)).Tagged := rfl
  have read := packetMessage?_written tagged []
  rw [List.append_nil] at read
  exact read

/-- The packet the strategy sends for a theoretical price. -/
def quotePacket (nowNs : UInt64) (callPrice : ℚ) : List UInt8 :=
  encodeQuote nowNs (callPrice - halfSpread) (callPrice + halfSpread) quoteQty

/-- The quote a book holds means the two amounts around the price; a negative
bid amount counts as zero. -/
structure MeansPriced (callPrice : ℚ) (quote : Quote) : Prop where
  uncrossed : quote.bid.price ≤ quote.ask.price
  bid : |(quote.bid.price.toNat : ℚ) / 100 - max (callPrice - halfSpread) 0| ≤
    1 / 200
  ask : |(quote.ask.price.toNat : ℚ) / 100 - (callPrice + halfSpread)| ≤
    1 / 200

def QuotedAsPriced (nowNs : UInt64) (callPrice : ℚ) : Prop :=
  ∀ book : SimpleOrderBook, ∃ quote,
    (book.applyPacket (quotePacket nowNs callPrice)).2.lastQuote =
      some quote ∧ MeansPriced callPrice quote

theorem quotedAsPriced_iff_means (nowNs : UInt64) (callPrice : ℚ) :
    QuotedAsPriced nowNs callPrice ↔
      MeansPriced callPrice
        { timestampNs := nowNs
          bid := ⟨dollarsToCents (callPrice - halfSpread), quoteQty⟩
          ask := ⟨dollarsToCents (callPrice + halfSpread), quoteQty⟩ } := by
  have held : ∀ book : SimpleOrderBook,
      (book.applyPacket (quotePacket nowNs callPrice)).2.lastQuote =
        some
          { timestampNs := nowNs
            bid := ⟨dollarsToCents (callPrice - halfSpread), quoteQty⟩
            ask := ⟨dollarsToCents (callPrice + halfSpread), quoteQty⟩ } := by
    intro book
    unfold quotePacket
    rw [SimpleOrderBook.applyPacket_eq, read_encodeQuote]
    rfl
  constructor
  · intro priced
    obtain ⟨quote, found, means⟩ := priced SimpleOrderBook.empty
    rw [held] at found
    cases found
    exact means
  · intro means book
    exact ⟨_, held book, means⟩

/-! ### Prices in cents -/

def bidCents (callPrice : ℚ) : ℤ :=
  lround ((callPrice - halfSpread) * 100)

def askCents (callPrice : ℚ) : ℤ :=
  lround ((callPrice + halfSpread) * 100)

theorem bidCents_nonneg_iff (callPrice : ℚ) :
    0 ≤ bidCents callPrice ↔ 3 / 200 < callPrice := by
  unfold bidCents halfSpread
  rw [lround_nonneg_iff]
  constructor <;> intro above <;> linarith

theorem bidCents_le_askCents (callPrice : ℚ) :
    bidCents callPrice ≤ askCents callPrice := by
  refine lround_mono ?_
  unfold halfSpread
  linarith

variable {callPrice : ℚ}

theorem bidCents_least (priced : 0 ≤ callPrice) : -2 ≤ bidCents callPrice := by
  obtain ⟨low, _⟩ := lround_error ((callPrice - halfSpread) * 100)
  have above : ((-3 : ℤ) : ℚ) < bidCents callPrice := by
    unfold bidCents
    unfold halfSpread at low ⊢
    push_cast
    linarith
  have strict := Int.cast_lt.mp above
  omega

theorem askCents_bounds (priced : 0 ≤ callPrice) :
    0 ≤ askCents callPrice ∧
      (askCents callPrice : ℚ) ≤ callPrice * 100 + 5 / 2 := by
  obtain ⟨_, high⟩ := lround_error ((callPrice + halfSpread) * 100)
  constructor
  · unfold askCents
    rw [lround_nonneg_iff]
    unfold halfSpread
    linarith
  · unfold askCents
    unfold halfSpread at high ⊢
    linarith

theorem askCents_lt (priced : 0 ≤ callPrice) (most : callPrice ≤ 40000000) :
    askCents callPrice < 2 ^ 32 := by
  have high := (askCents_bounds priced).2
  have below : (askCents callPrice : ℚ) < ((2 ^ 32 : ℤ) : ℚ) := by
    push_cast
    linarith
  exact Int.cast_lt.mp below

theorem askCents_small (negative : ¬ 0 ≤ bidCents callPrice)
    (priced : 0 ≤ callPrice) : askCents callPrice ≤ 4 := by
  rw [bidCents_nonneg_iff, not_lt] at negative
  have high := (askCents_bounds priced).2
  have below : (askCents callPrice : ℚ) < ((5 : ℤ) : ℚ) := by
    push_cast
    linarith
  have strict := Int.cast_lt.mp below
  omega

theorem ofInt_toNat_of_neg {value : ℤ} (low : -2 ^ 32 ≤ value)
    (negative : value < 0) :
    ((UInt32.ofInt value).toNat : ℤ) = value + 2 ^ 32 := by
  unfold UInt32.ofInt
  rw [UInt32.toNat_ofNat']
  omega

/-- Rounding to a cent stays within half a cent. -/
theorem cents_close (dollars : ℚ) :
    |(lround (dollars * 100) : ℚ) / 100 - dollars| ≤ 1 / 200 := by
  obtain ⟨low, high⟩ := lround_error (dollars * 100)
  rw [abs_le]
  constructor <;> linarith

theorem bidCents_close (positive : 0 ≤ bidCents callPrice) :
    |(bidCents callPrice : ℚ) / 100 - max (callPrice - halfSpread) 0| ≤
      1 / 200 := by
  by_cases amount : 0 ≤ callPrice - halfSpread
  · rw [max_eq_left amount]
    exact cents_close _
  · -- The amount is negative and rounds to zero.
    have negative := not_le.mp amount
    have high := (lround_error ((callPrice - halfSpread) * 100)).2
    have below : (bidCents callPrice : ℚ) < ((1 : ℤ) : ℚ) := by
      unfold bidCents
      push_cast
      linarith
    have zero : bidCents callPrice = 0 := by
      have strict := Int.cast_lt.mp below
      omega
    rw [max_eq_right negative.le, zero]
    norm_num

theorem cast_toNat {price : PriceCents} {cents : ℤ}
    (value : (price.toNat : ℤ) = cents) : (price.toNat : ℚ) = cents := by
  rw [← value]
  rfl

/-- On the whole range of prices, a quote is uncrossed and means what was
priced exactly when the price is above one and a half cents. -/
theorem quotedAsPriced_iff (nowNs : UInt64) (callPrice : ℚ)
    (priced : 0 ≤ callPrice) (most : callPrice ≤ 40000000) :
    QuotedAsPriced nowNs callPrice ↔ 3 / 200 < callPrice := by
  have askLow := (askCents_bounds priced).1
  have askHigh := askCents_lt priced most
  have ordered := bidCents_le_askCents callPrice
  have askValue :
      ((dollarsToCents (callPrice + halfSpread)).toNat : ℤ) =
        askCents callPrice :=
    PacketGenerator.ofInt_toNat askLow askHigh
  rw [quotedAsPriced_iff_means, ← bidCents_nonneg_iff]
  constructor
  · intro means
    by_contra negative
    have least := bidCents_least priced
    have small := askCents_small negative priced
    -- A negative bid comes back above every price that can be asked here.
    have wrapped :
        ((dollarsToCents (callPrice - halfSpread)).toNat : ℤ) =
          bidCents callPrice + 2 ^ 32 :=
      ofInt_toNat_of_neg (show -2 ^ 32 ≤ bidCents callPrice by omega)
        (show bidCents callPrice < 0 by omega)
    have uncrossed := means.uncrossed
    rw [UInt32.le_iff_toNat_le] at uncrossed
    dsimp only at uncrossed
    omega
  · intro positive
    have bidValue :
        ((dollarsToCents (callPrice - halfSpread)).toNat : ℤ) =
          bidCents callPrice :=
      PacketGenerator.ofInt_toNat positive (ordered.trans_lt askHigh)
    refine ⟨?_, ?_, ?_⟩
    · rw [UInt32.le_iff_toNat_le]
      dsimp only
      omega
    · dsimp only
      rw [cast_toNat bidValue]
      exact bidCents_close positive
    · dsimp only
      rw [cast_toNat askValue]
      exact cents_close _

/-- An option worth a dollar. -/
theorem quotedAsPriced_iff_one_dollar : QuotedAsPriced 7 1 :=
  (quotedAsPriced_iff 7 1 (by norm_num) (by norm_num)).mpr (by norm_num)

/-- The bid of a worthless option is minus two cents, which the book reads as
4294967294. -/
theorem not_quotedAsPriced_worthless :
    ¬ ∀ (nowNs : UInt64) (callPrice : ℚ), 0 ≤ callPrice →
        callPrice ≤ 40000000 → QuotedAsPriced nowNs callPrice := by
  intro claimed
  obtain ⟨quote, found, means⟩ :=
    claimed 7 0 (le_refl _) (by norm_num) SimpleOrderBook.empty
  have held : (SimpleOrderBook.empty.applyPacket (quotePacket 7 0)).2.lastQuote
      = some
        { timestampNs := 7
          bid := ⟨4294967294, 100⟩
          ask := ⟨2, 100⟩ } := by
    decide +kernel
  rw [held] at found
  cases found
  exact absurd means.uncrossed (by decide)

end Strategy

end Waler
