/-
The loop of `exchangeThreadMain`: draw a packet, send it, go on.

One turn stands at one of the two calls that matter, `nextPacket` or `send`,
and takes what that call needs from outside: the draws, or the answer of
`ef_vi_transmit`.  The loop may be stopped between any two turns.  The packets
returned and the frames accepted are recorded in order.
-/

import Waler.Efvi.EfviUdpSender
import Waler.Generator.Lockstep

namespace Waler

open MarketData

/-- The state of the loop; the last two fields record what happened. -/
structure ExchangeThread where
  generator : PacketGenerator
  sender : EfviUdpSender
  total : ℕ
  sent : ℕ
  -- The packet in `buffer`, between `nextPacket` and `send`.
  buffer : Option (List UInt8)
  generated : List (List UInt8)
  frames : List (List UInt8)

namespace ExchangeThread

def warmupIters : ℕ := 2000

def bufferSize : ℕ := 1024

def initial (endpoints : EfviUdpSender.Endpoints) (symbolName : List UInt8)
    (count : ℕ) : ExchangeThread :=
  { generator := PacketGenerator.initial symbolName
    sender := EfviUdpSender.initial endpoints
    total := count + warmupIters
    sent := 0
    buffer := none
    generated := []
    frames := [] }

/-- What a turn takes from outside; a negative answer means a full ring. -/
structure Turn where
  draws : PacketGenerator.CallDraws
  transmitResult : ℤ

/-- A device that gives the answer, and takes the frame unless it is
negative. -/
def answering (result : ℤ) (frames : List (List UInt8)) (memory : ByteMemory)
    (descriptor : EfviUdpSender.TxDescriptor) : ℤ × List (List UInt8) :=
  (result,
    if result < 0 then frames
    else frames ++ [memory.read descriptor.dma descriptor.frameLen])

def draw (state : ExchangeThread) (draws : PacketGenerator.CallDraws) :
    ExchangeThread :=
  if state.sent < state.total then
    match state.generator.nextPacket draws bufferSize with
    | (none, generator) => { state with generator := generator }
    | (some packet, generator) =>
        { state with
          generator := generator
          buffer := some packet
          generated := state.generated ++ [packet] }
  else state

def transmit (state : ExchangeThread) (packet : List UInt8) (result : ℤ) :
    ExchangeThread :=
  let (rc, frames, sender) :=
    state.sender.send (answering result) state.frames packet
  { state with
    sender := sender
    sent := if rc = 0 then state.sent + 1 else state.sent
    -- Whatever `send` returned, no code reads these bytes again: the next
    -- call of `nextPacket` overwrites them.
    buffer := none
    frames := frames }

def step (state : ExchangeThread) (turn : Turn) : ExchangeThread :=
  match state.buffer with
  | none => state.draw turn.draws
  | some packet => state.transmit packet turn.transmitResult

def payloads (state : ExchangeThread) : List (List UInt8) :=
  state.frames.map (List.drop EfviUdpSender.headerLen)

/-- The device has accepted all generated packets in order, but for the one
that is still to be sent. -/
def InOrder (state : ExchangeThread) : Prop :=
  state.generated = state.payloads ++ state.buffer.toList

/-- The device does not refuse the packet of this turn. -/
def NotRefused (state : ExchangeThread) (turn : Turn) : Prop :=
  state.buffer.isSome → 0 ≤ turn.transmitResult

instance (state : ExchangeThread) (turn : Turn) :
    Decidable (state.NotRefused turn) :=
  inferInstanceAs (Decidable (_ → _))

/-! ### One turn -/

theorem packet_length {generator : PacketGenerator}
    {draws : PacketGenerator.CallDraws} {packet : List UInt8}
    (drawn : (generator.nextPacket draws bufferSize).1 = some packet) :
    18 ≤ packet.length ∧ packet.length ≤ EfviUdpSender.maxPayload := by
  obtain ⟨message, ⟨tagged, written, _⟩, _⟩ :=
    generator.nextPacket_wrote draws
      (PacketGenerator.attemptsFit_of_roomy _
        (show 32 ≤ bufferSize by decide) _)
  obtain ⟨sized, _⟩ := packetMessage?_of_write tagged
    (written.symm.trans drawn)
  obtain ⟨smallest, largest⟩ := message.type.structSize_bounds
  unfold EfviUdpSender.maxPayload
  omega

theorem draw_cases (state : ExchangeThread)
    (draws : PacketGenerator.CallDraws) (more : state.sent < state.total) :
    ∃ packet, 18 ≤ packet.length ∧
      packet.length ≤ EfviUdpSender.maxPayload ∧
      (state.draw draws).buffer = some packet ∧
      (state.draw draws).generated = state.generated ++ [packet] ∧
      (state.draw draws).frames = state.frames := by
  obtain ⟨_, wrote, _⟩ := state.generator.nextPacket_wrote draws
    (PacketGenerator.attemptsFit_of_roomy _
      (show 32 ≤ bufferSize by decide) _)
  have returned := wrote.isSome (show 32 ≤ bufferSize by decide)
  unfold draw
  rw [if_pos more]
  rcases outcome : state.generator.nextPacket draws bufferSize with
    ⟨_ | packet, generator⟩
  · rw [outcome] at returned
    cases returned
  · obtain ⟨long, short⟩ := packet_length
      (show (state.generator.nextPacket draws bufferSize).1 = some packet by
        rw [outcome])
    exact ⟨packet, long, short, rfl, rfl, rfl⟩

theorem built_payload (sender : EfviUdpSender) {packet : List UInt8}
    (long : 18 ≤ packet.length) :
    ((sender.built packet).pool.read (EfviUdpSender.slot sender.nextSlot)
      (EfviUdpSender.frameLength packet)).drop EfviUdpSender.headerLen =
        packet := by
  have lengthCases := EfviUdpSender.frameLength_cases packet
  have split : EfviUdpSender.frameLength packet =
      42 + (EfviUdpSender.frameLength packet - 42) := by
    omega
  have written := EfviUdpSender.writeFrame_payload sender.pool
    (EfviUdpSender.slot sender.nextSlot) sender.ipId packet
  have unpadded :
      EfviUdpSender.frameLength packet - (42 + packet.length) = 0 := by
    omega
  rw [unpadded, List.replicate_zero, List.append_nil] at written
  rw [split]
  exact (ByteMemory.read_drop _ _ 42 _).trans written

theorem transmit_cases (state : ExchangeThread) {packet : List UInt8}
    (long : 18 ≤ packet.length)
    (fits : packet.length ≤ EfviUdpSender.maxPayload) (result : ℤ) :
    (state.transmit packet result).buffer = none ∧
      (state.transmit packet result).generated = state.generated ∧
      (state.transmit packet result).payloads =
        if result < 0 then state.payloads
        else state.payloads ++ [packet] := by
  have payload := built_payload state.sender long
  refine ⟨rfl, rfl, ?_⟩
  unfold transmit payloads
  rw [EfviUdpSender.send_of_fits _ _ _ fits]
  simp only [answering, EfviUdpSender.descriptor]
  split
  · rfl
  · rw [List.map_append, List.map_singleton, payload]

/-- Nothing is lost so far, and what is in the buffer can be sent. -/
structure Lossless (state : ExchangeThread) : Prop where
  inOrder : state.InOrder
  buffered : ∀ packet, state.buffer = some packet →
    18 ≤ packet.length ∧ packet.length ≤ EfviUdpSender.maxPayload

theorem Lossless.initial (endpoints : EfviUdpSender.Endpoints)
    (symbolName : List UInt8) (count : ℕ) :
    (ExchangeThread.initial endpoints symbolName count).Lossless := by
  refine ⟨rfl, ?_⟩
  intro packet impossible
  cases impossible

theorem Lossless.draw {state : ExchangeThread} (lossless : state.Lossless)
    (empty : state.buffer = none) (draws : PacketGenerator.CallDraws) :
    (state.draw draws).Lossless := by
  by_cases more : state.sent < state.total
  · obtain ⟨packet, long, short, bufferEq, generatedEq, framesEq⟩ :=
      state.draw_cases draws more
    have inOrder := lossless.inOrder
    unfold InOrder payloads at inOrder
    rw [empty, Option.toList_none, List.append_nil] at inOrder
    refine ⟨?_, ?_⟩
    · unfold InOrder payloads
      rw [generatedEq, bufferEq, framesEq, inOrder, Option.toList_some]
    · intro other held
      rw [bufferEq] at held
      cases held
      exact ⟨long, short⟩
  · unfold ExchangeThread.draw
    rw [if_neg more]
    exact lossless

theorem Lossless.transmit {state : ExchangeThread} (lossless : state.Lossless)
    {packet : List UInt8} (held : state.buffer = some packet) {result : ℤ}
    (accepted : 0 ≤ result) : (state.transmit packet result).Lossless := by
  obtain ⟨long, fits⟩ := lossless.buffered packet held
  obtain ⟨bufferEq, generatedEq, payloadsEq⟩ :=
    state.transmit_cases long fits result
  have inOrder := lossless.inOrder
  unfold InOrder at inOrder
  rw [held, Option.toList_some] at inOrder
  rw [if_neg (by omega)] at payloadsEq
  refine ⟨?_, ?_⟩
  · unfold InOrder
    rw [generatedEq, payloadsEq, bufferEq, Option.toList_none,
      List.append_nil]
    exact inOrder
  · intro other impossible
    rw [bufferEq] at impossible
    cases impossible

theorem step_draw {state : ExchangeThread} (turn : Turn)
    (empty : state.buffer = none) :
    state.step turn = state.draw turn.draws := by
  unfold step
  rw [empty]

theorem step_transmit {state : ExchangeThread} (turn : Turn)
    {packet : List UInt8} (held : state.buffer = some packet) :
    state.step turn = state.transmit packet turn.transmitResult := by
  unfold step
  rw [held]

theorem step_lossless {state : ExchangeThread} {turn : Turn}
    (accepted : state.NotRefused turn) (lossless : state.Lossless) :
    (state.step turn).Lossless := by
  cases held : state.buffer with
  | none =>
      rw [step_draw turn held]
      exact lossless.draw held turn.draws
  | some packet =>
      rw [step_transmit turn held]
      exact lossless.transmit held (accepted (by rw [held]; rfl))

/-- A refused packet is gone: it is neither accepted nor in the buffer. -/
theorem notRefused_of_inOrder {state : ExchangeThread} {turn : Turn}
    (lossless : state.Lossless) (after : (state.step turn).InOrder) :
    state.NotRefused turn := by
  intro sending
  obtain ⟨packet, held⟩ := Option.isSome_iff_exists.mp sending
  by_contra refused
  obtain ⟨long, fits⟩ := lossless.buffered packet held
  obtain ⟨bufferEq, generatedEq, payloadsEq⟩ :=
    state.transmit_cases long fits turn.transmitResult
  rw [if_pos (by omega)] at payloadsEq
  have before := lossless.inOrder
  unfold InOrder at before after
  rw [held, Option.toList_some] at before
  rw [step_transmit turn held, generatedEq, payloadsEq, bufferEq, before,
    Option.toList_none, List.append_nil] at after
  have lengths := congrArg List.length after
  rw [List.length_append, List.length_singleton] at lengths
  omega

/-! ### Runs -/

theorem notRefused_exact : Run.Exact step NotRefused InOrder Lossless where
  preserved := fun _ _ accepted lossless => step_lossless accepted lossless
  sound := fun _ lossless => lossless.inOrder
  exposed := fun _ _ lossless after => notRefused_of_inOrder lossless after

/-- For every sequence of draws and answers: the accepted payloads are at
every moment all packets generated, in order, but for the one about to be
sent, exactly when the device refuses no packet. -/
theorem inOrder_throughout_iff (endpoints : EfviUdpSender.Endpoints)
    (symbolName : List UInt8) (count : ℕ) (turns : List Turn) :
    Run.Throughout step InOrder (initial endpoints symbolName count) turns ↔
      Run.Along step NotRefused (initial endpoints symbolName count)
        turns :=
  notRefused_exact.throughout_iff _ turns
    (Lossless.initial endpoints symbolName count)

def answered (transmitResult : ℤ) : Turn :=
  { draws := (MarketFeed.drawing .addOrder).draws
    transmitResult := transmitResult }

/-- An AddOrder is drawn and refused by a full ring; the next one is drawn and
accepted in its place. -/
theorem not_inOrder_ring_full :
    ¬ Run.Throughout step InOrder (initial EfviUdpSender.loopback [] 0)
      [answered 0, answered (-11), answered 0, answered 0] := by
  intro inOrder
  have accepted := (notRefused_exact.throughout_iff _ _
    (Lossless.initial EfviUdpSender.loopback [] 0)).mp inOrder
  revert accepted
  decide

end ExchangeThread

end Waler
