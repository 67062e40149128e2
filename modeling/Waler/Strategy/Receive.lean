/-
From a sent payload to the strategy's book.

The sender puts 42 header bytes in front of a payload and pads the frame to 60
bytes; the strategy skips the headers and gives the book everything behind
them, padding included.  No struct a packet may announce is short enough for
padding to complete it.
-/

import Waler.Book.Acceptance
import Waler.Efvi.EfviInterface
import Waler.Efvi.EfviUdpSender

namespace Waler

open MarketData

namespace EfviUdpSender

def transmitted (sender : EfviUdpSender) (payload : List UInt8) :
    Option (List UInt8) :=
  (send (fun _ memory descriptor =>
    (0, some (memory.read descriptor.dma descriptor.frameLen)))
    none sender payload).2.1

theorem transmitted_of_fits (sender : EfviUdpSender) {payload : List UInt8}
    (fits : payload.length ≤ maxPayload) :
    transmitted sender payload =
      some ((sender.built payload).pool.read (slot sender.nextSlot)
        (frameLength payload)) := by
  unfold transmitted
  rw [send_of_fits _ _ _ fits]
  rfl

end EfviUdpSender

namespace EfviInterface

/-- The device has put the frame, unchanged, behind the prefix of a buffer,
and the event's byte count covers both. -/
structure Delivered (interface : EfviInterface) (rqId : ℕ) (bytes : UInt16)
    (frame : List UInt8) : Prop where
  unchanged : interface.pool.read (interface.slot rqId + interface.prefixLen)
    frame.length = frame
  counted : bytes.toNat = interface.prefixLen + frame.length

def dmaWrite (interface : EfviInterface) (rqId : ℕ) (frame : List UInt8) :
    EfviInterface :=
  { interface with
    pool := interface.pool.write
      (interface.slot rqId + interface.prefixLen) frame }

theorem delivered_dmaWrite (interface : EfviInterface) (rqId : ℕ)
    {bytes : UInt16} {frame : List UInt8}
    (counted : bytes.toNat = interface.prefixLen + frame.length) :
    (interface.dmaWrite rqId frame).Delivered rqId bytes frame :=
  ⟨ByteMemory.read_write_self _ _ _, counted⟩

theorem Delivered.len {interface : EfviInterface} {rqId : ℕ} {bytes : UInt16}
    {frame : List UInt8} (delivered : interface.Delivered rqId bytes frame)
    (tsc : UInt64) (timestamp : Option PreciseTime) :
    (interface.frame tsc rqId bytes timestamp).len = frame.length := by
  have counted := delivered.counted
  unfold EfviInterface.frame
  dsimp only
  split <;> omega

end EfviInterface

namespace Strategy

def ethIpUdpHeaderLen : ℕ := 14 + 20 + 8

/-- What `strategyThreadMain` does with a frame up to the result of
`applyPacket`; a frame without payload is dropped. -/
def receive (book : SimpleOrderBook) (pool : ByteMemory) (frame : EfviFrame) :
    Bool × SimpleOrderBook :=
  if frame.len ≤ ethIpUdpHeaderLen then (false, book)
  else
    book.applyPacket
      (pool.read (frame.data + ethIpUdpHeaderLen)
        (frame.len - ethIpUdpHeaderLen))

theorem packetMessage?_of_short {packet : List UInt8}
    (short : packet.length < 19) : packetMessage? packet = none := by
  rw [← Option.not_isSome_iff_eq_none,
    SimpleOrderBook.packetMessage?_isSome_iff]
  intro readable
  obtain ⟨_, complete, type, _, sized⟩ := readable
  have smallest := type.structSize_bounds.1
  rw [SimpleOrderBook.structSize_eq] at smallest
  omega

/-- A payload that gets padded is not a packet, and padding does not make it
one. -/
theorem applyPacket_padded (book : SimpleOrderBook) (payload : List UInt8) :
    book.applyPacket (payload ++ List.replicate
      (EfviUdpSender.frameLength payload - (42 + payload.length)) 0) =
        book.applyPacket payload := by
  obtain ⟨short, length⟩ | ⟨full, length⟩ :=
    EfviUdpSender.frameLength_cases payload
  · rw [SimpleOrderBook.applyPacket_eq, SimpleOrderBook.applyPacket_eq,
      packetMessage?_of_short (by
        rw [List.length_append, List.length_replicate, length]
        omega),
      packetMessage?_of_short (by omega)]
  · rw [length, Nat.sub_self, List.replicate_zero, List.append_nil]

/-- For every sender, whatever it sent before, every payload it accepts and
every book: it hands over one frame, and a receiver that gets the frame
unchanged does to its book what `applyPacket` does on the payload. -/
theorem receive_transmitted (sender : EfviUdpSender) {payload : List UInt8}
    (fits : payload.length ≤ EfviUdpSender.maxPayload) :
    ∃ sent, EfviUdpSender.transmitted sender payload = some sent ∧
      ∀ (interface : EfviInterface) (rqId : ℕ) (bytes : UInt16)
        (tsc : UInt64) (timestamp : Option PreciseTime)
        (book : SimpleOrderBook), interface.Delivered rqId bytes sent →
          receive book interface.pool
              (interface.frame tsc rqId bytes timestamp) =
            book.applyPacket payload := by
  refine ⟨_, EfviUdpSender.transmitted_of_fits sender fits, ?_⟩
  intro interface rqId bytes tsc timestamp book delivered
  have lengthCases := EfviUdpSender.frameLength_cases payload
  have lenEq := delivered.len tsc timestamp
  have arrived := delivered.unchanged
  rw [ByteMemory.read_length] at lenEq arrived
  have skipped : interface.pool.read
      (interface.slot rqId + interface.prefixLen + 42)
        (EfviUdpSender.frameLength payload - 42) =
      payload ++ List.replicate
        (EfviUdpSender.frameLength payload - (42 + payload.length)) 0 := by
    have split : EfviUdpSender.frameLength payload =
        42 + (EfviUdpSender.frameLength payload - 42) := by
      omega
    rw [split] at arrived
    have behind := congrArg (List.drop 42) arrived
    rw [ByteMemory.read_drop, ByteMemory.read_drop] at behind
    rw [behind]
    exact EfviUdpSender.writeFrame_payload _ _ _ _
  unfold receive ethIpUdpHeaderLen
  rw [lenEq, if_neg (by omega)]
  change book.applyPacket (interface.pool.read
    (interface.slot rqId + interface.prefixLen + 42)
      (EfviUdpSender.frameLength payload - 42)) = _
  rw [skipped, applyPacket_padded]

/-- Two bytes that announce a cancel are padded with sixteen zeros, and do not
become one. -/
theorem receive_transmitted_truncated :
    ∃ sent, EfviUdpSender.transmitted
        (EfviUdpSender.initial EfviUdpSender.loopback) [0, 17] = some sent ∧
      let interface := (EfviInterface.initial 4 2048 14 4).dmaWrite 0 sent
      receive SimpleOrderBook.empty interface.pool
        (interface.frame 0 0 74 none) = (false, SimpleOrderBook.empty) := by
  obtain ⟨sent, handed, same⟩ := receive_transmitted
    (EfviUdpSender.initial EfviUdpSender.loopback)
    (show ([0, 17] : List UInt8).length ≤ EfviUdpSender.maxPayload by decide)
  have length : sent.length = 60 := by
    rw [EfviUdpSender.transmitted_of_fits _ (by decide)] at handed
    rw [← Option.some.inj handed, ByteMemory.read_length]
    rfl
  refine ⟨sent, handed, ?_⟩
  exact same _ 0 74 0 none SimpleOrderBook.empty
    (EfviInterface.delivered_dmaWrite (EfviInterface.initial 4 2048 14 4) 0
      (by rw [length]; rfl))

end Strategy

end Waler
