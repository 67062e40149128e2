/-
The rig of exchange_strategy.cpp: two threads, two NICs and the cable.

The exchange thread draws and sends; its NIC reads a posted frame some time
after the send and puts it on the cable.  The strategy's NIC writes the next
frame on the cable into the oldest posted buffer and reports it.  The strategy
thread polls and handles one frame after the other.  The inputs of a run say
who acts next, so a run is one interleaving of the five.
-/

import Waler.Efvi.FrameLifetime
import Waler.Efvi.TxRing
import Waler.Exchange.ExchangeThread
import Waler.Strategy.FrameHandler

namespace Waler

open MarketData
open Strategy (warmupIters)

structure Rig where
  exchange : ExchangeThread
  -- The descriptors that the exchange's NIC has still to read, oldest first.
  ring : List EfviUdpSender.TxDescriptor
  wire : List (List UInt8)
  rx : EfviInterface.PollState
  locals : StrategyLocals
  -- The frames passed to the callback so far.
  handled : List (List UInt8)

namespace Rig

/-- What is fixed for a run: the arguments of the two threads' constructors,
the clock rate and the math library. -/
structure Setup where
  exchangeEnds : EfviUdpSender.Endpoints
  strategyEnds : EfviUdpSender.Endpoints
  symbolName : List UInt8
  count : ℕ
  rxqCapacity : ℕ
  maxFrameLen : ℕ
  prefixLen : ℕ
  ringCap : ℕ
  t0Ns : ℚ
  gTscHz : ℚ
  libm : Libm ℚ

def Setup.total (setup : Setup) : ℕ :=
  setup.count + warmupIters

def initial (setup : Setup) : Rig :=
  { exchange := ExchangeThread.initial setup.exchangeEnds setup.symbolName
      setup.count
    ring := []
    wire := []
    rx := EfviInterface.PollState.initial setup.rxqCapacity setup.maxFrameLen
      setup.prefixLen setup.ringCap
    locals := StrategyLocals.initial setup.strategyEnds setup.count setup.t0Ns
    handled := [] }

inductive Event
  -- One turn of the exchange thread: it draws a packet or sends it.
  | exchange (turn : ExchangeThread.Turn)
  -- The exchange's NIC reads its oldest descriptor's frame.
  | fetch
  -- The next frame on the cable reaches the strategy's NIC: it is stored, or
  -- found damaged, or lost on the way.
  | arrive (timestamp : Option PreciseTime)
  | damage
  | lose
  -- The strategy thread calls `poll`, or takes the next step of that call.
  | poll (ready : ℕ) (tsc : UInt64)
  | advance (readings : Readings)

/-- A send that the NIC accepts leaves a descriptor with it. -/
def exchangeTurn (rig : Rig) (turn : ExchangeThread.Turn) : Rig :=
  { rig with
    exchange := rig.exchange.step turn
    ring := rig.exchange.buffer.elim rig.ring (fun packet =>
      if turn.transmitResult < 0 then rig.ring
      else rig.ring ++ [rig.exchange.sender.descriptor packet]) }

def read (rig : Rig) (descriptor : EfviUdpSender.TxDescriptor) : List UInt8 :=
  rig.exchange.sender.pool.read descriptor.dma descriptor.frameLen

def fetch (rig : Rig) : Rig :=
  match rig.ring with
  | [] => rig
  | descriptor :: rest =>
      { rig with ring := rest, wire := rig.wire ++ [rig.read descriptor] }

/-- The frame fits a buffer behind the prefix, and the event's byte count. -/
def Fits (rig : Rig) (frame : List UInt8) : Prop :=
  rig.rx.interface.prefixLen + frame.length ≤ rig.rx.interface.slotLen ∧
    rig.rx.interface.prefixLen + frame.length < 2 ^ 16

instance (rig : Rig) (frame : List UInt8) : Decidable (rig.Fits frame) :=
  inferInstanceAs (Decidable (_ ∧ _))

/-- A frame is lost when no buffer is posted or it does not fit. -/
def arrive (rig : Rig) (timestamp : Option PreciseTime) : Rig :=
  match rig.wire, rig.rx.interface.queue.posted with
  | [], _ => rig
  | _ :: rest, [] => { rig with wire := rest }
  | frame :: rest, rqId :: _ =>
      let prefixLen := rig.rx.interface.prefixLen
      if rig.Fits frame then
        { rig with
          wire := rest
          rx := (rig.rx.step (.write rqId prefixLen frame)).step
            (.receive rqId (UInt16.ofNat (prefixLen + frame.length))
              timestamp) }
      else { rig with wire := rest }

/-- A damaged frame takes a buffer all the same. -/
def damage (rig : Rig) : Rig :=
  match rig.wire, rig.rx.interface.queue.posted with
  | [], _ => rig
  | _ :: rest, [] => { rig with wire := rest }
  | _ :: rest, rqId :: _ =>
      { rig with wire := rest, rx := rig.rx.step (.discard rqId) }

def poll (rig : Rig) (total ready : ℕ) (tsc : UInt64) : Rig :=
  if rig.locals.n < total then
    { rig with rx := rig.rx.step (.poll ready tsc) }
  else rig

/-- The frame that the next step of `poll` passes to the callback. -/
def nextFrame (rig : Rig) : Option EfviFrame :=
  match rig.rx.phase with
  | .looping tsc (.rx rqId bytes timestamp :: _) =>
      some (rig.rx.interface.frame tsc rqId bytes timestamp)
  | _ => none

def advance (setup : Setup) (rig : Rig) (readings : Readings) : Rig :=
  let advanced := { rig with rx := rig.rx.step .advance }
  match rig.nextFrame with
  | none => advanced
  | some frame =>
      { advanced with
        locals := rig.locals.handleFrame setup.gTscHz setup.libm setup.total
          { readings with frame := frame, pool := rig.rx.interface.pool }
        handled := rig.handled ++
          [rig.rx.interface.pool.read frame.data frame.len] }

def step (setup : Setup) (rig : Rig) : Event → Rig
  | .exchange turn => rig.exchangeTurn turn
  | .fetch => rig.fetch
  | .arrive timestamp => rig.arrive timestamp
  | .damage => rig.damage
  | .lose => { rig with wire := rig.wire.tail }
  | .poll ready tsc => rig.poll setup.total ready tsc
  | .advance readings => rig.advance setup readings

end Rig

end Waler
