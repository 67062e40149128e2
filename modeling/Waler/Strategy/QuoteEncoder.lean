/-
The strategy's own quote encoder (exchange_strategy.cpp).

Dollar amounts are exact rationals.  The encoder writes its packet without
going through the generator's `writeMessage`.
-/

import Mathlib.Data.Rat.Floor
import Waler.Generator.PacketGenerator

namespace Waler

open MarketData
open PackedLayout (word16)

namespace Strategy

/-- `std::lround`: to the nearest integer, halves away from zero. -/
def lround (value : ℚ) : ℤ :=
  if 0 ≤ value then ⌊value + 1 / 2⌋ else ⌈value - 1 / 2⌉

def dollarsToCents (dollars : ℚ) : PriceCents :=
  UInt32.ofInt (lround (dollars * 100))

def encodeQuote (nowNs : UInt64) (bidDollars askDollars : ℚ) (qty : UInt32) :
    List UInt8 :=
  let msg : QuoteMessage :=
    { header := ⟨MessageType.quote.toByte⟩
      timestampNs := toNetwork64 nowNs
      bidPrice := toNetwork32 (dollarsToCents bidDollars)
      bidQty := toNetwork32 qty
      askPrice := toNetwork32 (dollarsToCents askDollars)
      askQty := toNetwork32 qty }
  let wireLen := toNetwork16 (UInt16.ofNat QuoteMessage.layout.size)
  word16.encode wireLen ++ QuoteMessage.layout.encode msg

end Strategy

end Waler
