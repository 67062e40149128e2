/-
The receive path of EfviInterface.hpp and EfviInterface.cpp: the constructor
that posts the buffers, `repost`, and `poll` with its event loop.

The device keeps the ids of the buffers posted to it and a queue of events.
The buffer pool is a flat memory that starts at address zero.  What the
timestamp call answers for a received buffer comes with its event.
-/

import Waler.Foundation.ByteMemory

namespace Waler

structure PreciseTime where
  tvSec : UInt64
  tvNsec : UInt32
  tvNsecFrac : UInt16
  deriving DecidableEq, Repr

inductive EfEvent
  -- A good packet: buffer id, byte count, and the NIC timestamp if
  -- `ef_vi_receive_get_precise_timestamp` succeeds on the buffer.
  | rx (rqId : ℕ) (bytes : UInt16) (timestamp : Option PreciseTime)
  | rxDiscard (rqId : ℕ)
  | other
  deriving DecidableEq, Repr

/-- A received packet; `data` is an address in the pool. -/
structure EfviFrame where
  data : ℕ
  len : ℕ
  nicTs : PreciseTime
  nicTsValid : Bool
  tsc : UInt64
  deriving DecidableEq, Repr

/-- The device's side: posted buffer ids, and events in order of arrival. -/
structure RxQueue where
  capacity : ℕ
  posted : List ℕ
  events : List EfEvent
  deriving DecidableEq, Repr

namespace RxQueue

def receivePost (queue : RxQueue) (dmaId : ℕ) : RxQueue :=
  if queue.posted.length < queue.capacity then
    { queue with posted := queue.posted ++ [dmaId] }
  else queue

def eventqPoll (queue : RxQueue) (count : ℕ) : List EfEvent × RxQueue :=
  (queue.events.take count, { queue with events := queue.events.drop count })

end RxQueue

structure EfviInterface where
  pool : ByteMemory
  slotLen : ℕ
  nSlots : ℕ
  prefixLen : ℕ
  nDiscards : UInt64
  queue : RxQueue

namespace EfviInterface

def maxEvents : ℕ := 32

/-- The constructor: the number of slots is capped at the ring's capacity and
each slot's buffer is posted. -/
def initial (rxqCapacity maxFrameLen prefixLen ringCap : ℕ) : EfviInterface :=
  let nSlots := if rxqCapacity > ringCap then ringCap else rxqCapacity
  { pool := ByteMemory.zero
    slotLen := maxFrameLen
    nSlots := nSlots
    prefixLen := prefixLen
    nDiscards := 0
    queue := (List.range nSlots).foldl RxQueue.receivePost
      { capacity := ringCap, posted := [], events := [] } }

def slot (interface : EfviInterface) (dmaId : ℕ) : ℕ :=
  dmaId * interface.slotLen

def repost (interface : EfviInterface) (dmaId : ℕ) : EfviInterface :=
  { interface with queue := interface.queue.receivePost dmaId }

def frame (interface : EfviInterface) (tsc : UInt64) (dmaId : ℕ)
    (bytes : UInt16) (timestamp : Option PreciseTime) : EfviFrame :=
  { data := interface.slot dmaId + interface.prefixLen
    len := if bytes.toNat > interface.prefixLen then
      bytes.toNat - interface.prefixLen else 0
    nicTs := timestamp.getD { tvSec := 0, tvNsec := 0, tvNsecFrac := 0 }
    nicTsValid := timestamp.isSome
    tsc := tsc }

def handleEvent (interface : EfviInterface) (tsc : UInt64) :
    EfEvent → EfviInterface × Option EfviFrame
  | .rx rqId bytes timestamp =>
      (interface.repost rqId,
        some (interface.frame tsc rqId bytes timestamp))
  | .rxDiscard _ =>
      ({ interface with nDiscards := interface.nDiscards + 1 }, none)
  | .other => (interface, none)

def handleEvents (tsc : UInt64) :
    EfviInterface → List EfEvent → EfviInterface × List EfviFrame
  | interface, [] => (interface, [])
  | interface, event :: rest =>
      let (handled, delivered) := interface.handleEvent tsc event
      let (finished, frames) := handleEvents tsc handled rest
      (finished, delivered.toList ++ frames)

/-- The events the next `poll` gets when the device has `ready` of them to
give. -/
def batch (interface : EfviInterface) (ready : ℕ) : List EfEvent :=
  (interface.queue.eventqPoll (min ready maxEvents)).1

def poll (interface : EfviInterface) (ready : ℕ) (tsc : UInt64) :
    EfviInterface × List EfviFrame :=
  let (evs, queue) := interface.queue.eventqPoll (min ready maxEvents)
  handleEvents tsc { interface with queue := queue } evs

end EfviInterface

end Waler
