/-
The packet generator of PacketGenerator.hpp.

Random draws and clock readings are inputs: an attempt takes one `Draw`, a
call of `nextPacket` takes the draws of its four attempts.  A draw is whatever
the distributions may return, before the code clamps it.  Prices are computed
from a mathematical integer and converted to 32 bits where the code converts;
what a conversion gives that C++ leaves undefined is an input too.
The destination is a real buffer; what a build writes there is returned, and
`none` stands for the return value -1.
-/

import Mathlib.Data.Rat.Floor
import Waler.Foundation.SwapPool
import Waler.MarketData

universe u

namespace Waler

open MarketData
open PackedLayout (word16 word32 word64)

/-! ### Network byte order

The host is little-endian. -/

def toNetwork16 (value : UInt16) : UInt16 :=
  word16.byteSwap value

def toNetwork32 (value : UInt32) : UInt32 :=
  word32.byteSwap value

def toNetwork64 (value : UInt64) : UInt64 :=
  word64.byteSwap value

/-- `writeMessage<Message>`: the packet, when the capacity allows it. -/
def writeMessage {α : Type u} (layout : PackedLayout α) (capacity : ℕ)
    (message : α) : Option (List UInt8) :=
  let payloadSize := layout.size
  let packetSize := word16.size + payloadSize
  if capacity < packetSize then none
  else
    some (word16.encode (toNetwork16 (UInt16.ofNat payloadSize)) ++
      layout.encode message)

/-! ### State and draws -/

namespace PacketGenerator

def maxBookDepth : ℕ := 20

def tickSize : ℕ := 100

def initialMidPrice : ℤ := 15000

def restingPool : ℕ := 512

structure RestingOrder where
  orderId : UInt32
  price : PriceCents
  quantity : UInt32
  side : UInt8
  deriving DecidableEq, Repr

/-- What one build attempt draws. -/
structure Draw where
  event : MessageType
  -- `side_dist_(rng_) != 0`.
  isBuy : Bool
  -- `uniform_int_distribution(0, bound)`, for the bound it is given.
  index : (bound : ℕ) → Fin (bound + 1)
  -- The distance of `randPrice` before it is clamped.
  distance : ℤ
  -- The quantity of `randQty` before it is clamped.
  quantity : ℤ
  nowNs : UInt64

/-- What one call of `evolveMid` draws. -/
structure MidMove where
  -- `exp(drift + vol * normRand())`.
  factor : ℚ
  -- The conversion of a product that does not fit `std::int32_t`.
  undefined : Int32

structure CallDraws where
  midMove : MidMove
  attempts : Vector Draw 4
  fallbackNowNs : UInt64

end PacketGenerator

/-- The generator's state; `resting_` and `resting_count_` are one pool. -/
structure PacketGenerator where
  resting : SwapPool PacketGenerator.RestingOrder PacketGenerator.restingPool
  midPrice : ℤ
  nextOrderId : UInt32
  symbol : Vector UInt8 symbolLen
  messagesGenerated : UInt64

namespace PacketGenerator

/-- `setSymbol`: the name cut or padded with spaces to eight bytes. -/
def symbolOf (name : List UInt8) : Vector UInt8 symbolLen :=
  Vector.ofFn (fun index => name.getD index.val ' '.toUInt8)

def initial (symbolName : List UInt8) : PacketGenerator :=
  { resting := SwapPool.fill
      { orderId := 0, price := 0, quantity := 0, side := 0 }
    midPrice := initialMidPrice
    nextOrderId := 1
    symbol := symbolOf symbolName
    messagesGenerated := 0 }

def sideOf (draw : Draw) : UInt8 :=
  if draw.isBuy then 'B'.toUInt8 else 'S'.toUInt8

def randQty (draw : Draw) : UInt32 :=
  UInt32.ofInt (min (max draw.quantity 1) 9900)

def clampedDistance (draw : Draw) : ℤ :=
  min (max draw.distance tickSize) (maxBookDepth * tickSize : ℕ)

def signedPrice (midPrice : ℤ) (side : UInt8) (draw : Draw) : ℤ :=
  if side = 'B'.toUInt8 then midPrice - clampedDistance draw
  else midPrice + clampedDistance draw

def randPrice (midPrice : ℤ) (side : UInt8) (draw : Draw) : PriceCents :=
  UInt32.ofInt (signedPrice midPrice side draw)

def truncate (value : ℚ) : ℤ :=
  if 0 ≤ value then ⌊value⌋ else ⌈value⌉

/-- `static_cast<std::int32_t>` of a truncated value. -/
def toInt32 (value : ℤ) (undefined : Int32) : ℤ :=
  if -2 ^ 31 ≤ value ∧ value < 2 ^ 31 then value else undefined.toInt

def evolveMid (generator : PacketGenerator) (midMove : MidMove) :
    PacketGenerator :=
  let moved := toInt32 (truncate (generator.midPrice * midMove.factor))
    midMove.undefined
  { generator with midPrice := if moved < tickSize then tickSize else moved }

/-! ### Builders

Each returns the packet written, if any, and the state after the call. -/

def buildAddOrder (generator : PacketGenerator) (draw : Draw) (capacity : ℕ) :
    Option (List UInt8) × PacketGenerator :=
  if room : generator.resting.count < restingPool then
    let side := sideOf draw
    let price := randPrice generator.midPrice side draw
    let qty := randQty draw
    let oid := generator.nextOrderId
    let nextOrderId := if oid + 1 = 0 then 1 else oid + 1
    let message : AddOrderMessage :=
      { header := ⟨MessageType.addOrder.toByte⟩
        timestampNs := toNetwork64 draw.nowNs
        orderId := toNetwork32 oid
        side := side
        price := toNetwork32 price
        quantity := toNetwork32 qty
        symbol := generator.symbol }
    (writeMessage AddOrderMessage.layout capacity message,
      { generator with
        resting := generator.resting.push room
          { orderId := oid, price := price, quantity := qty, side := side }
        nextOrderId := nextOrderId })
  else (none, generator)

/-- The slot a cancel picks, drawn from `0..resting_count_ - 1`. -/
def drawnIndex (generator : PacketGenerator) (draw : Draw)
    (nonempty : 0 < generator.resting.count) : Fin generator.resting.count :=
  (draw.index (generator.resting.count - 1)).cast (Nat.sub_add_cancel nonempty)

def buildCancelOrder (generator : PacketGenerator) (draw : Draw)
    (capacity : ℕ) : Option (List UInt8) × PacketGenerator :=
  if nonempty : 0 < generator.resting.count then
    let idx := generator.drawnIndex draw nonempty
    let oid := (generator.resting.get idx).orderId
    let message : CancelOrderMessage :=
      { header := ⟨MessageType.cancelOrder.toByte⟩
        timestampNs := toNetwork64 draw.nowNs
        orderId := toNetwork32 oid
        quantity := 0 }
    (writeMessage CancelOrderMessage.layout capacity message,
      { generator with resting := generator.resting.swapRemove idx })
  else (none, generator)

/-- The loop of `buildExecute` over the pool: the best price of the side so
far and the slot it was found in. -/
def bestOf (pool : SwapPool RestingOrder restingPool) (side : UInt8) :
    PriceCents × Option (Fin pool.count) :=
  (List.finRange pool.count).foldl
    (fun (bestPrice, bestIdx) i =>
      let order := pool.get i
      if order.side ≠ side then (bestPrice, bestIdx)
      else if (side = 'B'.toUInt8 ∧ order.price > bestPrice) ∨
          (side = 'S'.toUInt8 ∧ order.price < bestPrice) then
        (order.price, some i)
      else (bestPrice, bestIdx))
    (if side = 'B'.toUInt8 then 0 else 0xffffffff, none)

def buildExecute (generator : PacketGenerator) (draw : Draw) (capacity : ℕ) :
    Option (List UInt8) × PacketGenerator :=
  let side := sideOf draw
  match bestOf generator.resting side with
  | (_, none) => (none, generator)
  | (bestPrice, some bestIdx) =>
      let order := generator.resting.get bestIdx
      let drawnQty := randQty draw
      let execQty := if drawnQty ≥ order.quantity then order.quantity
        else drawnQty
      let resting :=
        if drawnQty ≥ order.quantity then generator.resting.swapRemove bestIdx
        else generator.resting.set bestIdx
          { order with quantity := order.quantity - drawnQty }
      let message : ExecuteMessage :=
        { header := ⟨MessageType.execute.toByte⟩
          timestampNs := toNetwork64 draw.nowNs
          orderId := toNetwork32 order.orderId
          execQty := toNetwork32 execQty
          execPrice := toNetwork32 bestPrice }
      (writeMessage ExecuteMessage.layout capacity message,
        { generator with resting := resting })

structure Top where
  bid : PriceCents
  bidQty : UInt32
  ask : PriceCents
  askQty : UInt32
  deriving DecidableEq, Repr

def scanTop (pool : SwapPool RestingOrder restingPool) : Top :=
  (List.finRange pool.count).foldl
    (fun top i =>
      let order := pool.get i
      let top :=
        if order.side = 'B'.toUInt8 ∧ order.price > top.bid then
          { top with bid := order.price, bidQty := order.quantity }
        else top
      if order.side = 'S'.toUInt8 ∧ order.price < top.ask then
        { top with ask := order.price, askQty := order.quantity }
      else top)
    { bid := 0, bidQty := 0, ask := 0xffffffff, askQty := 0 }

/-- What `buildQuote` quotes: an absent side is put one tick from the mid. -/
def quoteTop (generator : PacketGenerator) : Top :=
  let top := scanTop generator.resting
  let top :=
    if top.bid = 0 then
      { top with bid := UInt32.ofInt (generator.midPrice - tickSize) }
    else top
  if top.ask = 0xffffffff then
    { top with ask := UInt32.ofInt (generator.midPrice + tickSize) }
  else top

def buildQuote (generator : PacketGenerator) (nowNs : UInt64) (capacity : ℕ) :
    Option (List UInt8) :=
  let top := generator.quoteTop
  let message : QuoteMessage :=
    { header := ⟨MessageType.quote.toByte⟩
      timestampNs := toNetwork64 nowNs
      bidPrice := toNetwork32 top.bid
      bidQty := toNetwork32 top.bidQty
      askPrice := toNetwork32 top.ask
      askQty := toNetwork32 top.askQty }
  writeMessage QuoteMessage.layout capacity message

/-! ### One packet -/

def build (generator : PacketGenerator) (draw : Draw) (capacity : ℕ) :
    Option (List UInt8) × PacketGenerator :=
  match draw.event with
  | .addOrder => generator.buildAddOrder draw capacity
  | .cancelOrder => generator.buildCancelOrder draw capacity
  | .execute => generator.buildExecute draw capacity
  | .quote => (generator.buildQuote draw.nowNs capacity, generator)

/-- The attempt loop: a successful build is counted and returned, a failed
one is followed by the next attempt. -/
def attemptLoop (capacity : ℕ) :
    List Draw → PacketGenerator → Option (List UInt8) × PacketGenerator
  | [], generator => (none, generator)
  | draw :: rest, generator =>
      match generator.build draw capacity with
      | (some packet, built) =>
          (some packet,
            { built with messagesGenerated := built.messagesGenerated + 1 })
      | (none, built) => attemptLoop capacity rest built

def nextPacket (generator : PacketGenerator) (draws : CallDraws)
    (capacity : ℕ) : Option (List UInt8) × PacketGenerator :=
  let evolved :=
    if generator.messagesGenerated % 50 = 0 then
      generator.evolveMid draws.midMove
    else generator
  match attemptLoop capacity draws.attempts.toList evolved with
  | (some packet, built) => (some packet, built)
  | (none, built) => (built.buildQuote draws.fallbackNowNs capacity, built)

end PacketGenerator

end Waler
