/-
The transmit path of EfviUdpSender.cpp: the frame template, the checksum, and
`send`.

The buffer pool is a flat memory that starts at address zero, so a slot's
address is also its offset for `ef_memreg_dma_addr`.  `ef_vi_transmit` is a
parameter: it is given the memory, from which the device may read, and the
descriptor, and returns its code and the device's next state.
-/

import Waler.Foundation.ByteMemory
import Waler.Foundation.PackedLayout

universe u

namespace Waler

open PackedLayout (word16)

def htons (value : UInt16) : UInt16 :=
  word16.byteSwap value

/-! ### The IPv4 checksum -/

def sumWords : UInt32 → List UInt8 → UInt32
  | sum, [] => sum
  | sum, [last] => sum + last.toUInt32 <<< 8
  | sum, high :: low :: rest =>
      sumWords (sum + (high.toUInt32 <<< 8 ||| low.toUInt32)) rest

theorem upperHalf_toNat (sum : UInt32) :
    (sum >>> 16).toNat = sum.toNat / 65536 := by
  rw [UInt32.toNat_shiftRight]
  exact Nat.shiftRight_eq_div_pow sum.toNat 16

theorem foldOnce_toNat (sum : UInt32) :
    ((sum &&& (0xffff : UInt32)) + sum >>> 16).toNat =
      sum.toNat % 65536 + sum.toNat / 65536 := by
  have low : (sum &&& (0xffff : UInt32)).toNat = sum.toNat % 65536 := by
    rw [UInt32.toNat_and]
    exact Nat.and_two_pow_sub_one_eq_mod sum.toNat 16
  have bound := sum.toNat_lt
  rw [UInt32.toNat_add, low, upperHalf_toNat]
  exact Nat.mod_eq_of_lt (by omega)

theorem foldCarries_decreases {sum : UInt32} (carries : sum >>> 16 ≠ 0) :
    ((sum &&& (0xffff : UInt32)) + sum >>> 16).toNat < sum.toNat := by
  have nonzero : (sum >>> 16).toNat ≠ 0 :=
    fun zero => carries (UInt32.toNat_inj.mp zero)
  rw [upperHalf_toNat] at nonzero
  rw [foldOnce_toNat]
  omega

/-- The loop of `ipChecksum` that folds the carries back in. -/
def foldCarries (sum : UInt32) : UInt32 :=
  if sum >>> 16 = 0 then sum
  else foldCarries ((sum &&& (0xffff : UInt32)) + sum >>> 16)
termination_by sum.toNat
decreasing_by exact foldCarries_decreases ‹_›

def ipChecksum (data : List UInt8) : UInt16 :=
  (~~~ foldCarries (sumWords 0 data)).toUInt16

/-! ### State -/

namespace EfviUdpSender

def ethLen : ℕ := 14

def ip4Len : ℕ := 20

def udpLen : ℕ := 8

def headerLen : ℕ := ethLen + ip4Len + udpLen

def minFrameLen : ℕ := 60

def maxPayload : ℕ := 512

def slotLen : ℕ := headerLen + maxPayload

def txSlots : ℕ := 16

/-- The constructor's arguments, addresses in network order. -/
structure Endpoints where
  srcMac : Vector UInt8 6
  dstMac : Vector UInt8 6
  srcAddr : Vector UInt8 4
  dstAddr : Vector UInt8 4
  srcPort : UInt16
  dstPort : UInt16

structure TxDescriptor where
  dma : ℕ
  frameLen : ℕ
  dmaId : UInt32
  deriving DecidableEq, Repr

end EfviUdpSender

structure EfviUdpSender where
  pool : ByteMemory
  nextSlot : Fin EfviUdpSender.txSlots
  nextDmaId : UInt32
  ipId : UInt16

namespace EfviUdpSender

def slot (index : ℕ) : ℕ :=
  index * slotLen

/-! ### The constructor -/

def writeTemplate (endpoints : Endpoints) (pool : ByteMemory) (frame : ℕ) :
    ByteMemory :=
  let ip := frame + ethLen
  let udp := ip + ip4Len
  pool
    |>.write (frame + 0) endpoints.dstMac.toList
    |>.write (frame + 6) endpoints.srcMac.toList
    |>.write (frame + 12) [0x08]
    |>.write (frame + 13) [0x00]
    |>.write (ip + 0) [0x45]
    |>.write (ip + 1) [0x00]
    |>.write (ip + 6) [0x00]
    |>.write (ip + 7) [0x00]
    |>.write (ip + 8) [64]
    |>.write (ip + 9) [17]
    |>.write (ip + 12) endpoints.srcAddr.toList
    |>.write (ip + 16) endpoints.dstAddr.toList
    |>.write (udp + 0) (word16.encode (htons endpoints.srcPort))
    |>.write (udp + 2) (word16.encode (htons endpoints.dstPort))
    |>.write (udp + 6) [0x00]
    |>.write (udp + 7) [0x00]

def initial (endpoints : Endpoints) : EfviUdpSender :=
  { pool := (List.range txSlots).foldl
      (fun pool index => writeTemplate endpoints pool (slot index))
      ByteMemory.zero
    nextSlot := ⟨0, by decide⟩
    nextDmaId := 0
    ipId := 0 }

def loopback : Endpoints :=
  { srcMac := Vector.replicate 6 2
    dstMac := Vector.replicate 6 2
    srcAddr := Vector.ofFn (fun index => if index = 0 then 127 else 0)
    dstAddr := Vector.ofFn (fun index => if index = 0 then 127 else 0)
    srcPort := 12345
    dstPort := 12345 }

/-! ### Sending -/

def frameLength (payload : List UInt8) : ℕ :=
  if headerLen + payload.length < minFrameLen then minFrameLen
  else headerLen + payload.length

/-- The payload copied behind the headers, and the padding cleared. -/
def writePayload (pool : ByteMemory) (frame : ℕ) (payload : List UInt8) :
    ByteMemory :=
  let data := frame + headerLen
  let copied := pool.write data payload
  if frameLength payload > headerLen + payload.length then
    copied.write (data + payload.length)
      (List.replicate (frameLength payload - (headerLen + payload.length)) 0)
  else copied

/-- The length, identification and checksum fields of the headers. -/
def patchHeaders (pool : ByteMemory) (frame : ℕ) (ipId : UInt16)
    (payloadLen : ℕ) : ByteMemory :=
  let ip := frame + ethLen
  let udp := ip + ip4Len
  let udpTotalLen := udpLen + payloadLen
  let ipTotalLen := ip4Len + udpTotalLen
  let cleared := pool
    |>.write (ip + 2) (word16.encode (htons (UInt16.ofNat ipTotalLen)))
    |>.write (ip + 4) (word16.encode (htons ipId))
    |>.write (ip + 10) [0]
    |>.write (ip + 11) [0]
  let ipCsum := htons (ipChecksum (cleared.read ip ip4Len))
  cleared
    |>.write (ip + 10) (word16.encode ipCsum)
    |>.write (udp + 4) (word16.encode (htons (UInt16.ofNat udpTotalLen)))

def writeFrame (pool : ByteMemory) (frame : ℕ) (ipId : UInt16)
    (payload : List UInt8) : ByteMemory :=
  patchHeaders (writePayload pool frame payload) frame ipId payload.length

def descriptor (sender : EfviUdpSender) (payload : List UInt8) :
    TxDescriptor :=
  { dma := slot sender.nextSlot
    frameLen := frameLength payload
    dmaId := sender.nextDmaId }

/-- The sender once a frame of an accepted size has been built, whatever the
device answers. -/
def built (sender : EfviUdpSender) (payload : List UInt8) : EfviUdpSender :=
  { pool := writeFrame sender.pool (slot sender.nextSlot) sender.ipId payload
    nextSlot := ⟨(sender.nextSlot + 1) % txSlots,
      Nat.mod_lt _ (by decide)⟩
    nextDmaId := sender.nextDmaId + 1
    ipId := sender.ipId + 1 }

def send {Nic : Type u}
    (transmit : Nic → ByteMemory → TxDescriptor → ℤ × Nic) (nic : Nic)
    (sender : EfviUdpSender) (payload : List UInt8) :
    ℤ × Nic × EfviUdpSender :=
  if payload.length > maxPayload then (-1, nic, sender)
  else
    let sent := sender.built payload
    let (rc, nic) := transmit nic sent.pool (sender.descriptor payload)
    (if rc < 0 then -1 else 0, nic, sent)

theorem send_of_fits {Nic : Type u}
    (transmit : Nic → ByteMemory → TxDescriptor → ℤ × Nic) (nic : Nic)
    (sender : EfviUdpSender) {payload : List UInt8}
    (fits : payload.length ≤ maxPayload) :
    send transmit nic sender payload =
      (if (transmit nic (sender.built payload).pool
          (sender.descriptor payload)).1 < 0 then -1 else 0,
        (transmit nic (sender.built payload).pool
          (sender.descriptor payload)).2,
        sender.built payload) := by
  unfold send
  rw [if_neg (Nat.not_lt.mpr fits)]

theorem send_of_oversized {Nic : Type u}
    (transmit : Nic → ByteMemory → TxDescriptor → ℤ × Nic) (nic : Nic)
    (sender : EfviUdpSender) {payload : List UInt8}
    (oversized : maxPayload < payload.length) :
    send transmit nic sender payload = (-1, nic, sender) := by
  unfold send
  rw [if_pos oversized]

/-! ### What a send writes -/

theorem frameLength_cases (payload : List UInt8) :
    (payload.length < 18 ∧ frameLength payload = 60) ∨
      (18 ≤ payload.length ∧ frameLength payload = 42 + payload.length) := by
  unfold frameLength headerLen ethLen ip4Len udpLen minFrameLen
  split <;> omega

theorem frameLength_le_slotLen {payload : List UInt8}
    (fits : payload.length ≤ maxPayload) :
    frameLength payload ≤ slotLen := by
  have cases := frameLength_cases payload
  unfold maxPayload at fits
  unfold slotLen headerLen ethLen ip4Len udpLen maxPayload
  omega

theorem encode16_length (value : UInt16) : (word16.encode value).length = 2 :=
  word16.encode_length value

theorem patchHeaders_outside (pool : ByteMemory) {frame location : ℕ}
    (ipId : UInt16) (payloadLen : ℕ)
    (outside : location < frame + 16 ∨ frame + 40 ≤ location) :
    (patchHeaders pool frame ipId payloadLen).byteAt location =
      pool.byteAt location := by
  unfold patchHeaders ethLen ip4Len udpLen
  simp only
  repeat rw [ByteMemory.write_outside _ (by
    simp only [encode16_length, List.length_singleton]
    omega)]

theorem patchHeaders_ipId (pool : ByteMemory) (frame : ℕ) (ipId : UInt16)
    (payloadLen : ℕ) :
    (patchHeaders pool frame ipId payloadLen).read (frame + 18) 2 =
      word16.encode (htons ipId) := by
  have written := ByteMemory.read_write_self
    (pool.write (frame + 16)
      (word16.encode (htons (UInt16.ofNat (20 + (8 + payloadLen))))))
    (frame + 18) (word16.encode (htons ipId))
  rw [encode16_length] at written
  unfold patchHeaders ethLen ip4Len udpLen
  simp only
  rw [ByteMemory.read_write_of_disjoint _ (by omega),
    ByteMemory.read_write_of_disjoint _ (by omega),
    ByteMemory.read_write_of_disjoint _ (by omega),
    ByteMemory.read_write_of_disjoint _ (by omega)]
  exact written

/-- Behind the headers stand the payload and zeros up to the frame's end. -/
theorem writePayload_read (pool : ByteMemory) (frame : ℕ)
    (payload : List UInt8) :
    (writePayload pool frame payload).read (frame + 42)
        (frameLength payload - 42) =
      payload ++
        List.replicate (frameLength payload - (42 + payload.length)) 0 := by
  have copied := pool.read_write_self (frame + 42) payload
  have lengthCases := frameLength_cases payload
  have split : frameLength payload - 42 =
      payload.length + (frameLength payload - (42 + payload.length)) := by
    omega
  rw [split, ByteMemory.read_add]
  unfold writePayload headerLen ethLen ip4Len udpLen
  simp only
  split
  · rename_i padded
    have cleared := (pool.write (frame + 42) payload).read_write_self
      (frame + 42 + payload.length)
      (List.replicate (frameLength payload - (42 + payload.length)) 0)
    rw [List.length_replicate] at cleared
    rw [cleared, ByteMemory.read_write_of_disjoint _ (Or.inl (Nat.le_refl _)),
      copied]
  · rename_i full
    have none : frameLength payload - (42 + payload.length) = 0 := by omega
    rw [none, copied]
    rfl

theorem writePayload_outside (pool : ByteMemory) {frame location : ℕ}
    (payload : List UInt8)
    (outside : location < frame + 42 ∨
      frame + frameLength payload ≤ location) :
    (writePayload pool frame payload).byteAt location =
      pool.byteAt location := by
  have lengthCases := frameLength_cases payload
  unfold writePayload headerLen ethLen ip4Len udpLen
  simp only
  split
  · rw [ByteMemory.write_outside _ (by rw [List.length_replicate]; omega),
      ByteMemory.write_outside _ (by omega)]
  · rw [ByteMemory.write_outside _ (by omega)]

/-- A send writes inside its own frame only. -/
theorem writeFrame_outside (pool : ByteMemory) {frame location : ℕ}
    (ipId : UInt16) (payload : List UInt8)
    (outside : location < frame ∨ frame + frameLength payload ≤ location) :
    (writeFrame pool frame ipId payload).byteAt location =
      pool.byteAt location := by
  have lengthCases := frameLength_cases payload
  unfold writeFrame
  rw [patchHeaders_outside _ _ _ (by omega),
    writePayload_outside _ _ (by omega)]

theorem writeFrame_payload (pool : ByteMemory) (frame : ℕ) (ipId : UInt16)
    (payload : List UInt8) :
    (writeFrame pool frame ipId payload).read (frame + 42)
        (frameLength payload - 42) =
      payload ++
        List.replicate (frameLength payload - (42 + payload.length)) 0 := by
  rw [← writePayload_read pool frame payload]
  apply ByteMemory.read_congr
  intro location above _
  exact patchHeaders_outside _ ipId payload.length (Or.inr (by omega))

end EfviUdpSender

end Waler
