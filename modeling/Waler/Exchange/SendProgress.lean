/-
How far the exchange thread has come: what it has drawn, handed over and
counted, whatever the NIC answers.

The thread counts a packet when the NIC accepts its frame, and draws another
only below the limit.  A refused packet is dropped, so the accepted ones are
some of those generated, in order.
-/

import Waler.Exchange.ExchangeThread

namespace Waler

open MarketData
open EfviUdpSender (maxPayload)

namespace ExchangeThread

/-- The frames accepted are counted, are within the limit, and hold packets in
the order in which they were generated. -/
structure Progress (total : ℕ) (thread : ExchangeThread) : Prop where
  totalEq : thread.total = total
  counted : thread.sent = thread.frames.length
  within : thread.sent ≤ total
  below : thread.buffer.isSome → thread.sent < total
  buffered : ∀ packet, thread.buffer = some packet →
    18 ≤ packet.length ∧ packet.length ≤ maxPayload
  framed : ∀ frame ∈ thread.frames, 60 ≤ frame.length
  ordered : (thread.payloads ++ thread.buffer.toList).Sublist thread.generated

theorem Progress.initial (endpoints : EfviUdpSender.Endpoints)
    (symbolName : List UInt8) (count : ℕ) :
    (ExchangeThread.initial endpoints symbolName count).Progress
      (count + warmupIters) where
  totalEq := rfl
  counted := rfl
  within := Nat.zero_le _
  below := fun impossible => by cases impossible
  buffered := fun _ impossible => by cases impossible
  framed := fun _ impossible => by cases impossible
  ordered := List.Sublist.refl _

/-- The frame that a send hands to the device. -/
def builtFrame (thread : ExchangeThread) (packet : List UInt8) : List UInt8 :=
  (thread.sender.built packet).pool.read
    (EfviUdpSender.slot thread.sender.nextSlot)
    (EfviUdpSender.frameLength packet)

theorem transmit_eq (thread : ExchangeThread) {packet : List UInt8}
    (fits : packet.length ≤ maxPayload) (result : ℤ) :
    thread.transmit packet result =
      { thread with
        sender := thread.sender.built packet
        sent := if result < 0 then thread.sent else thread.sent + 1
        buffer := none
        frames := if result < 0 then thread.frames
          else thread.frames ++ [thread.builtFrame packet] } := by
  unfold transmit
  rw [EfviUdpSender.send_of_fits _ _ _ fits]
  by_cases refused : result < 0
  · simp [answering, refused]
  · simp [answering, refused, EfviUdpSender.descriptor, builtFrame]

theorem Progress.draw {total : ℕ} {thread : ExchangeThread}
    (progress : thread.Progress total) (empty : thread.buffer = none)
    (draws : PacketGenerator.CallDraws) :
    (thread.draw draws).Progress total := by
  by_cases more : thread.sent < thread.total
  · obtain ⟨packet, long, short, bufferEq, generatedEq, framesEq⟩ :=
      thread.draw_cases draws more
    have sentEq : (thread.draw draws).sent = thread.sent := by
      unfold ExchangeThread.draw
      rw [if_pos more]
      split <;> rfl
    have totalEq : (thread.draw draws).total = thread.total := by
      unfold ExchangeThread.draw
      rw [if_pos more]
      split <;> rfl
    have ordered := progress.ordered
    rw [empty, Option.toList_none, List.append_nil] at ordered
    refine ⟨?_, ?_, ?_, ?_, ?_, ?_, ?_⟩
    · rw [totalEq, progress.totalEq]
    · rw [sentEq, framesEq, progress.counted]
    · rw [sentEq]
      exact progress.within
    · intro _
      rw [sentEq, ← progress.totalEq]
      exact more
    · intro other held
      rw [bufferEq] at held
      cases held
      exact ⟨long, short⟩
    · rw [framesEq]
      exact progress.framed
    · unfold payloads at ordered ⊢
      rw [framesEq, bufferEq, generatedEq, Option.toList_some]
      exact List.Sublist.append ordered (List.Sublist.refl _)
  · unfold ExchangeThread.draw
    rw [if_neg more]
    exact progress

theorem Progress.transmit {total : ℕ} {thread : ExchangeThread}
    (progress : thread.Progress total) {packet : List UInt8}
    (held : thread.buffer = some packet) (result : ℤ) :
    (thread.transmit packet result).Progress total := by
  obtain ⟨long, fits⟩ := progress.buffered packet held
  obtain ⟨_, _, payloadsEq⟩ := thread.transmit_cases long fits result
  have ordered := progress.ordered
  rw [held, Option.toList_some] at ordered
  have below := progress.below (by rw [held]; rfl)
  have counted := progress.counted
  have builtLong : 60 ≤ (thread.builtFrame packet).length := by
    have cases := EfviUdpSender.frameLength_cases packet
    unfold builtFrame
    rw [ByteMemory.read_length]
    omega
  refine ⟨?_, ?_, ?_, ?_, ?_, ?_, ?_⟩
  · rw [thread.transmit_eq fits]
    exact progress.totalEq
  · rw [thread.transmit_eq fits]
    dsimp only
    split
    · exact counted
    · rw [List.length_append, List.length_singleton, counted]
  · rw [thread.transmit_eq fits]
    dsimp only
    split <;> omega
  · intro impossible
    cases impossible
  · intro other impossible
    cases impossible
  · rw [thread.transmit_eq fits]
    dsimp only
    split
    · exact progress.framed
    · intro frame listed
      rcases List.mem_append.mp listed with old | new
      · exact progress.framed frame old
      · rw [List.mem_singleton.mp new]
        exact builtLong
  · rw [payloadsEq]
    change List.Sublist (_ ++ []) thread.generated
    rw [List.append_nil]
    split
    · exact (List.sublist_append_left _ _).trans ordered
    · exact ordered

theorem Progress.step {total : ℕ} {thread : ExchangeThread}
    (progress : thread.Progress total) (turn : Turn) :
    (thread.step turn).Progress total := by
  cases held : thread.buffer with
  | none =>
      rw [step_draw turn held]
      exact progress.draw held turn.draws
  | some packet =>
      rw [step_transmit turn held]
      exact progress.transmit held turn.transmitResult

theorem draw_keeps (thread : ExchangeThread)
    (draws : PacketGenerator.CallDraws) :
    (thread.draw draws).sender = thread.sender ∧
      (thread.draw draws).frames = thread.frames := by
  unfold ExchangeThread.draw
  split
  · split <;> exact ⟨rfl, rfl⟩
  · exact ⟨rfl, rfl⟩

end ExchangeThread

end Waler
