/-
The frames handed to the NIC, as closed expressions.

A datagram is given by the sender's endpoints, the number of frames built
before it and its payload.  Slots are recycled with everything an earlier send
left in them; the frame built there is nevertheless that expression, because
the template survives every send and all other bytes are written anew.
-/

import Waler.Efvi.Checksum
import Waler.Efvi.TxRing

universe u

namespace Waler

open PackedLayout (word16)
open OnesComplement (words)

namespace EfviUdpSender

/-! ### The wire format -/

def ethernetHeader (endpoints : Endpoints) : List UInt8 :=
  endpoints.dstMac.toList ++ endpoints.srcMac.toList ++ [0x08, 0x00]

/-- Version 4, five words, no fragments, TTL 64, protocol UDP. -/
def ipv4Header (endpoints : Endpoints) (serial payloadLen checksum : ℕ) :
    List UInt8 :=
  [0x45, 0x00] ++ (bigEndian16 (28 + payloadLen) ++ bigEndian16 serial) ++
    [0x00, 0x00, 64, 17] ++ bigEndian16 checksum ++
    (endpoints.srcAddr.toList ++ endpoints.dstAddr.toList)

/-- The UDP checksum is zero: it is not used. -/
def udpHeader (endpoints : Endpoints) (payloadLen : ℕ) : List UInt8 :=
  bigEndian16 endpoints.srcPort.toNat ++ bigEndian16 endpoints.dstPort.toNat ++
    bigEndian16 (8 + payloadLen) ++ [0x00, 0x00]

def headerChecksum (endpoints : Endpoints) (serial payloadLen : ℕ) : ℕ :=
  (ipChecksum (ipv4Header endpoints serial payloadLen 0)).toNat

def datagram (endpoints : Endpoints) (serial : ℕ) (payload : List UInt8) :
    List UInt8 :=
  ethernetHeader endpoints ++
    ipv4Header endpoints serial payload.length
      (headerChecksum endpoints serial payload.length) ++
    udpHeader endpoints payload.length ++ payload ++
    List.replicate (minFrameLen - (headerLen + payload.length)) 0

theorem encode_htons (value : UInt16) :
    word16.encode (htons value) = bigEndian16 value.toNat :=
  PackedLayout.encode_byteSwap_word16 value

theorem bigEndian16_mod (value : ℕ) :
    bigEndian16 (value % 65536) = bigEndian16 value := by
  have high : UInt8.ofNat (value % 65536 / 256) = UInt8.ofNat (value / 256) := by
    apply UInt8.toNat_inj.mp
    rw [UInt8.toNat_ofNat', UInt8.toNat_ofNat']
    omega
  have low : UInt8.ofNat (value % 65536) = UInt8.ofNat value := by
    apply UInt8.toNat_inj.mp
    rw [UInt8.toNat_ofNat', UInt8.toNat_ofNat']
    omega
  unfold bigEndian16
  rw [high, low]

theorem bigEndian16_ofNat (value : ℕ) :
    bigEndian16 (UInt16.ofNat value).toNat = bigEndian16 value := by
  rw [UInt16.toNat_ofNat', ← bigEndian16_mod value]

theorem words_bigEndian16 {value : ℕ} (fits : value < 65536) :
    words (bigEndian16 value) = [value] := by
  rw [OnesComplement.words_pair (bigEndian16_length value),
    bigEndianValue_bigEndian16 fits]

/-! ### The header checksum -/

theorem words_ipv4Header (endpoints : Endpoints)
    (serial payloadLen : ℕ) {checksum : ℕ} (fits : checksum < 65536) :
    (words (ipv4Header endpoints serial payloadLen checksum)).sum =
      (words (ipv4Header endpoints serial payloadLen 0)).sum + checksum := by
  have split : ∀ value, value < 65536 →
      (words (ipv4Header endpoints serial payloadLen value)).sum =
        (words ([0x45, 0x00] ++
          (bigEndian16 (28 + payloadLen) ++ bigEndian16 serial) ++
          [0x00, 0x00, 64, 17])).sum + value +
        (words (endpoints.srcAddr.toList ++ endpoints.dstAddr.toList)).sum := by
    intro value valueFits
    unfold ipv4Header
    rw [OnesComplement.words_append (by simp [bigEndian16]),
      OnesComplement.words_append (by simp [bigEndian16]),
      words_bigEndian16 valueFits, List.sum_append, List.sum_append,
      List.sum_singleton]
  rw [split checksum fits, split 0 (by omega)]
  omega

theorem ipv4Header_length (endpoints : Endpoints)
    (serial payloadLen checksum : ℕ) :
    (ipv4Header endpoints serial payloadLen checksum).length = 20 := by
  simp [ipv4Header, bigEndian16]

/-- The ten words of the header, its checksum among them, sum to all ones. -/
theorem ipv4Header_sum (endpoints : Endpoints) (serial payloadLen : ℕ) :
    OnesComplement.sum (words (ipv4Header endpoints serial payloadLen
      (headerChecksum endpoints serial payloadLen))) = 0xffff := by
  have bound := OnesComplement.words_sum_le
    (ipv4Header endpoints serial payloadLen 0)
  rw [ipv4Header_length] at bound
  have nonzero : 0x4500 ≤
      (words (ipv4Header endpoints serial payloadLen 0)).sum :=
    Nat.le_add_right 0x4500 _
  have checksumLt := (ipChecksum
    (ipv4Header endpoints serial payloadLen 0)).toNat_lt
  obtain ⟨total, _⟩ := ipChecksum_spec
    (ipv4Header endpoints serial payloadLen 0) (by omega)
  rw [OnesComplement.sum_eq_allOnes_iff (OnesComplement.words_lt _)]
  unfold headerChecksum
  rw [words_ipv4Header endpoints serial payloadLen checksumLt]
  exact ⟨by omega, total⟩

/-! ### The template -/

def addressesAndPorts (endpoints : Endpoints) : List UInt8 :=
  endpoints.srcAddr.toList ++ endpoints.dstAddr.toList ++
    (bigEndian16 endpoints.srcPort.toNat ++
      bigEndian16 endpoints.dstPort.toNat)

theorem writeTemplate_eq (endpoints : Endpoints) (pool : ByteMemory)
    (frame : ℕ) :
    writeTemplate endpoints pool frame =
      (pool
        |>.write frame (ethernetHeader endpoints ++ [0x45, 0x00])
        |>.write (frame + 20) [0x00, 0x00, 64, 17]
        |>.write (frame + 26) (addressesAndPorts endpoints)
        |>.write (frame + 40) [0x00, 0x00]) := by
  have front : ethernetHeader endpoints ++ [0x45, 0x00] =
      endpoints.dstMac.toList ++ endpoints.srcMac.toList ++ [0x08] ++ [0x00] ++
        [0x45] ++ [0x00] := by
    simp [ethernetHeader]
  have transport : ([0x00, 0x00, 64, 17] : List UInt8) =
      [0x00] ++ [0x00] ++ [64] ++ [17] := rfl
  have unused : ([0x00, 0x00] : List UInt8) = [0x00] ++ [0x00] := rfl
  rw [front, transport, unused, addressesAndPorts, ← List.append_assoc]
  simp only [← ByteMemory.write_append, List.length_append,
    Vector.length_toList, List.length_singleton, bigEndian16_length]
  unfold writeTemplate ethLen ip4Len
  simp only [encode_htons, Nat.add_assoc, Nat.reduceAdd, Nat.add_zero]

/-- The bytes of a frame that no send writes: all headers but the lengths, the
identification and the header checksum. -/
def TemplateOffset (offset : ℕ) : Prop :=
  offset < 16 ∨ (20 ≤ offset ∧ offset < 24) ∨ (26 ≤ offset ∧ offset < 38) ∨
    (40 ≤ offset ∧ offset < 42)

structure Templated (endpoints : Endpoints) (pool : ByteMemory)
    (frame : ℕ) : Prop where
  front : pool.read frame 16 = ethernetHeader endpoints ++ [0x45, 0x00]
  transport : pool.read (frame + 20) 4 = [0x00, 0x00, 64, 17]
  addresses : pool.read (frame + 26) 12 = addressesAndPorts endpoints
  unused : pool.read (frame + 40) 2 = [0x00, 0x00]

theorem Templated.congr {endpoints : Endpoints} {pool other : ByteMemory}
    {frame : ℕ} (templated : Templated endpoints pool frame)
    (agree : ∀ offset, TemplateOffset offset →
      other.byteAt (frame + offset) = pool.byteAt (frame + offset)) :
    Templated endpoints other frame := by
  have kept : ∀ first count,
      (∀ offset, first ≤ offset → offset < first + count →
        TemplateOffset offset) →
      other.read (frame + first) count = pool.read (frame + first) count := by
    intro first count inTemplate
    apply ByteMemory.read_congr
    intro location above below
    have offsetEq : frame + (location - frame) = location := by omega
    have same := agree (location - frame)
      (inTemplate (location - frame) (by omega) (by omega))
    rwa [offsetEq] at same
  unfold TemplateOffset at kept
  obtain ⟨front, transport, addresses, unused⟩ := templated
  refine ⟨?_, ?_, ?_, ?_⟩
  · rw [← front]
    exact kept 0 16 (by omega)
  · rw [← transport]
    exact kept 20 4 (by omega)
  · rw [← addresses]
    exact kept 26 12 (by omega)
  · rw [← unused]
    exact kept 40 2 (by omega)

theorem addressesAndPorts_length (endpoints : Endpoints) :
    (addressesAndPorts endpoints).length = 12 := by
  simp [addressesAndPorts, bigEndian16_length]

theorem front_length (endpoints : Endpoints) :
    (ethernetHeader endpoints ++ [0x45, 0x00]).length = 16 := by
  simp [ethernetHeader]

theorem writeTemplate_outside (endpoints : Endpoints) (pool : ByteMemory)
    {frame location : ℕ}
    (outside : location < frame ∨ frame + 42 ≤ location) :
    (writeTemplate endpoints pool frame).byteAt location =
      pool.byteAt location := by
  have frontLength := front_length endpoints
  have addressesLength := addressesAndPorts_length endpoints
  rw [writeTemplate_eq,
    ByteMemory.write_outside _ (by
      simp only [List.length_cons, List.length_nil]
      omega),
    ByteMemory.write_outside _ (by omega),
    ByteMemory.write_outside _ (by
      simp only [List.length_cons, List.length_nil]
      omega),
    ByteMemory.write_outside _ (by omega)]

theorem writeTemplate_templated (endpoints : Endpoints) (pool : ByteMemory)
    (frame : ℕ) :
    Templated endpoints (writeTemplate endpoints pool frame) frame := by
  have frontLength := front_length endpoints
  have addressesLength := addressesAndPorts_length endpoints
  rw [writeTemplate_eq]
  refine ⟨?_, ?_, ?_, ?_⟩
  · rw [ByteMemory.read_write_of_disjoint _ (Or.inl (by omega)),
      ByteMemory.read_write_of_disjoint _ (Or.inl (by omega)),
      ByteMemory.read_write_of_disjoint _ (Or.inl (by omega)), ← frontLength]
    exact ByteMemory.read_write_self _ _ _
  · rw [ByteMemory.read_write_of_disjoint _ (Or.inl (by omega)),
      ByteMemory.read_write_of_disjoint _ (Or.inl (by omega))]
    exact ByteMemory.read_write_self _ _ [0x00, 0x00, 64, 17]
  · rw [ByteMemory.read_write_of_disjoint _ (Or.inl (by omega)),
      ← addressesLength]
    exact ByteMemory.read_write_self _ _ _
  · exact ByteMemory.read_write_self _ _ [0x00, 0x00]

def slotTemplated (endpoints : Endpoints) (pool : ByteMemory) : Prop :=
  ∀ index, index < txSlots → Templated endpoints pool (slot index)

theorem initial_templated (endpoints : Endpoints) :
    slotTemplated endpoints (initial endpoints).pool := by
  -- After the first `count` iterations the first `count` slots are templated.
  have written : ∀ count, ∀ index, index < count →
      Templated endpoints ((List.range count).foldl
        (fun pool index => writeTemplate endpoints pool (slot index))
        ByteMemory.zero) (slot index) := by
    intro count
    induction count with
    | zero =>
        intro index impossible
        exact absurd impossible (Nat.not_lt_zero index)
    | succ count ih =>
        intro index below
        rw [List.range_succ, List.foldl_append, List.foldl_cons,
          List.foldl_nil]
        by_cases last : index = count
        · rw [last]
          exact writeTemplate_templated endpoints _ (slot count)
        · apply (ih index (by omega)).congr
          intro offset inTemplate
          apply writeTemplate_outside
          unfold TemplateOffset at inTemplate
          unfold slot slotLen headerLen ethLen ip4Len udpLen maxPayload
          omega
  exact written txSlots

/-! ### One frame -/

/-- A send writes no template byte of its own frame. -/
theorem writeFrame_template (pool : ByteMemory) (frame : ℕ) (ipId : UInt16)
    (payload : List UInt8) {offset : ℕ} (inTemplate : TemplateOffset offset) :
    (writeFrame pool frame ipId payload).byteAt (frame + offset) =
      pool.byteAt (frame + offset) := by
  unfold TemplateOffset at inTemplate
  unfold writeFrame patchHeaders ethLen ip4Len udpLen
  simp only
  repeat rw [ByteMemory.write_outside _ (by
    simp only [encode16_length, List.length_singleton]
    omega)]
  exact writePayload_outside pool payload (Or.inl (by omega))

/-- The memory at the moment `ipChecksum` reads the header. -/
def checksumCleared (pool : ByteMemory) (frame serial payloadLen : ℕ) :
    ByteMemory :=
  pool
    |>.write (frame + 16)
      (bigEndian16 (28 + payloadLen) ++ bigEndian16 serial)
    |>.write (frame + 24) (bigEndian16 0)

theorem patchHeaders_eq (pool : ByteMemory) (frame : ℕ) (ipId : UInt16)
    (payloadLen : ℕ) :
    patchHeaders pool frame ipId payloadLen =
      (checksumCleared pool frame ipId.toNat payloadLen
        |>.write (frame + 24) (bigEndian16 (ipChecksum
          ((checksumCleared pool frame ipId.toNat payloadLen).read
            (frame + 14) 20)).toNat)
        |>.write (frame + 38) (bigEndian16 (8 + payloadLen))) := by
  have zeros : bigEndian16 0 = [0] ++ [0] := rfl
  have total : 20 + (8 + payloadLen) = 28 + payloadLen := by omega
  unfold patchHeaders checksumCleared ethLen ip4Len udpLen
  simp only [zeros, ← ByteMemory.write_append, bigEndian16_length,
    List.length_singleton, encode_htons, bigEndian16_ofNat, total,
    Nat.add_assoc, Nat.reduceAdd]

theorem Templated.addresses_split {endpoints : Endpoints}
    {pool : ByteMemory} {frame : ℕ}
    (templated : Templated endpoints pool frame) :
    pool.read (frame + 26) 8 =
        endpoints.srcAddr.toList ++ endpoints.dstAddr.toList ∧
      pool.read (frame + 34) 4 =
        bigEndian16 endpoints.srcPort.toNat ++
          bigEndian16 endpoints.dstPort.toNat := by
  have whole := templated.addresses
  rw [show 12 = 8 + 4 from rfl, ByteMemory.read_add] at whole
  exact List.append_inj whole (by simp)

theorem ipv4Header_read {endpoints : Endpoints} {pool : ByteMemory}
    {frame serial payloadLen checksum : ℕ}
    (templated : Templated endpoints pool frame)
    (lengths : pool.read (frame + 16) 4 =
      bigEndian16 (28 + payloadLen) ++ bigEndian16 serial)
    (sum : pool.read (frame + 24) 2 = bigEndian16 checksum) :
    pool.read (frame + 14) 20 =
      ipv4Header endpoints serial payloadLen checksum := by
  have version : pool.read (frame + 14) 2 = [0x45, 0x00] := by
    rw [← ByteMemory.read_drop, templated.front]
    exact List.drop_left' (by simp [ethernetHeader])
  have addresses := templated.addresses_split.1
  rw [show 20 = 2 + 4 + 4 + 2 + 8 from rfl, ByteMemory.read_add,
    ByteMemory.read_add, ByteMemory.read_add, ByteMemory.read_add]
  simp only [Nat.add_assoc, Nat.reduceAdd]
  rw [version, lengths, templated.transport, sum, addresses]
  rfl

theorem udpHeader_read {endpoints : Endpoints} {pool : ByteMemory}
    {frame payloadLen : ℕ} (templated : Templated endpoints pool frame)
    (length : pool.read (frame + 38) 2 = bigEndian16 (8 + payloadLen)) :
    pool.read (frame + 34) 8 = udpHeader endpoints payloadLen := by
  have ports := templated.addresses_split.2
  rw [show 8 = 4 + 2 + 2 from rfl, ByteMemory.read_add, ByteMemory.read_add]
  simp only [Nat.add_assoc, Nat.reduceAdd]
  rw [ports, length, templated.unused]
  rfl

theorem checksumCleared_read {endpoints : Endpoints} {pool : ByteMemory}
    {frame : ℕ} (templated : Templated endpoints pool frame)
    (serial payloadLen : ℕ) :
    (checksumCleared pool frame serial payloadLen).read (frame + 14) 20 =
      ipv4Header endpoints serial payloadLen 0 := by
  unfold checksumCleared
  apply ipv4Header_read
  · apply templated.congr
    intro offset inTemplate
    unfold TemplateOffset at inTemplate
    rw [ByteMemory.write_outside _ (by rw [bigEndian16_length]; omega),
      ByteMemory.write_outside _ (by
        simp only [List.length_append, bigEndian16_length]
        omega)]
  · rw [ByteMemory.read_write_of_disjoint _ (Or.inl (by omega))]
    exact ByteMemory.read_write_self _ _ (bigEndian16 _ ++ bigEndian16 _)
  · exact ByteMemory.read_write_self _ _ (bigEndian16 0)

/-- The frame built in a templated slot, whatever else the slot held. -/
theorem writeFrame_read {endpoints : Endpoints} {pool : ByteMemory}
    {frame : ℕ} (templated : Templated endpoints pool frame) (ipId : UInt16)
    (payload : List UInt8) :
    (writeFrame pool frame ipId payload).read frame (frameLength payload) =
      datagram endpoints ipId.toNat payload := by
  have lengthCases := frameLength_cases payload
  have built : Templated endpoints (writeFrame pool frame ipId payload) frame :=
    templated.congr (fun offset inTemplate =>
      writeFrame_template pool frame ipId payload inTemplate)
  have copied : Templated endpoints (writePayload pool frame payload) frame :=
    templated.congr (fun offset inTemplate =>
      writePayload_outside pool payload (Or.inl (by
        unfold TemplateOffset at inTemplate
        omega)))
  have ethernet : (writeFrame pool frame ipId payload).read frame 14 =
      ethernetHeader endpoints := by
    have whole := built.front
    rw [show 16 = 14 + 2 from rfl, ByteMemory.read_add] at whole
    exact (List.append_inj whole (by simp [ethernetHeader])).1
  have patched := patchHeaders_eq (writePayload pool frame payload) frame ipId
    payload.length
  rw [checksumCleared_read copied] at patched
  have lengths : (writeFrame pool frame ipId payload).read (frame + 16) 4 =
      bigEndian16 (28 + payload.length) ++ bigEndian16 ipId.toNat := by
    unfold writeFrame
    rw [patched, ByteMemory.read_write_of_disjoint _ (Or.inl (by omega)),
      ByteMemory.read_write_of_disjoint _ (Or.inl (by omega)),
      checksumCleared, ByteMemory.read_write_of_disjoint _ (Or.inl (by omega))]
    exact ByteMemory.read_write_self _ _ (bigEndian16 _ ++ bigEndian16 _)
  have sum : (writeFrame pool frame ipId payload).read (frame + 24) 2 =
      bigEndian16 (headerChecksum endpoints ipId.toNat payload.length) := by
    unfold writeFrame
    rw [patched, ByteMemory.read_write_of_disjoint _ (Or.inl (by omega))]
    exact ByteMemory.read_write_self _ _ (bigEndian16 _)
  have udpLength : (writeFrame pool frame ipId payload).read (frame + 38) 2 =
      bigEndian16 (8 + payload.length) := by
    unfold writeFrame
    rw [patched]
    exact ByteMemory.read_write_self _ _ (bigEndian16 _)
  have behind := writeFrame_payload pool frame ipId payload
  have split : frameLength payload =
      14 + 20 + 8 + (frameLength payload - 42) := by
    omega
  have padding : frameLength payload - (42 + payload.length) =
      minFrameLen - (headerLen + payload.length) := by
    unfold minFrameLen headerLen ethLen ip4Len udpLen
    omega
  rw [split, ByteMemory.read_add, ByteMemory.read_add, ByteMemory.read_add]
  simp only [Nat.reduceAdd]
  rw [ethernet, ipv4Header_read built lengths sum,
    udpHeader_read built udpLength, behind, padding]
  unfold datagram
  simp only [List.append_assoc]

/-! ### Runs of sends -/

section Runs

variable {Nic : Type u} (transmit : Nic → ByteMemory → TxDescriptor → ℤ × Nic)

/-- One call of `send`.  Whatever else the device does between two calls is
part of how `transmit` answers. -/
def sendStep (state : Nic × EfviUdpSender) (payload : List UInt8) :
    Nic × EfviUdpSender :=
  (send transmit state.1 state.2 payload).2

def inSizeSends (payloads : List (List UInt8)) : ℕ :=
  payloads.countP (fun payload => payload.length ≤ maxPayload)

/-- The frame `ef_vi_transmit` is handed for a payload of an accepted size. -/
def handed (sender : EfviUdpSender) (payload : List UInt8) : List UInt8 :=
  (sender.built payload).pool.read (sender.descriptor payload).dma
    (sender.descriptor payload).frameLen

structure HandsOver (endpoints : Endpoints) (sent : ℕ)
    (sender : EfviUdpSender) (payload : List UInt8) : Prop where
  frame : sender.handed payload = datagram endpoints (sent % 2 ^ 16) payload
  length : (sender.descriptor payload).frameLen =
    max 60 (42 + payload.length)
  fits : (sender.descriptor payload).frameLen ≤ slotLen
  checksum : OnesComplement.sum
    (words (((sender.handed payload).drop ethLen).take ip4Len)) = 0xffff
  inSlot : (sender.descriptor payload).dma = slot (sent % txSlots)
  otherSlots : ∀ index, slot index ≠ (sender.descriptor payload).dma →
    (sender.built payload).pool.read (slot index) slotLen =
      sender.pool.read (slot index) slotLen

/-- A payload that fits is handed to the device as a datagram; one that does
not changes nothing. -/
structure SendsDatagram (endpoints : Endpoints) (sent : ℕ)
    (state : Nic × EfviUdpSender) (payload : List UInt8) : Prop where
  inSize : payload.length ≤ maxPayload →
    send transmit state.1 state.2 payload =
        (if (transmit state.1 (state.2.built payload).pool
            (state.2.descriptor payload)).1 < 0 then -1 else 0,
          (transmit state.1 (state.2.built payload).pool
            (state.2.descriptor payload)).2,
          state.2.built payload) ∧
      HandsOver endpoints sent state.2 payload
  oversized : maxPayload < payload.length →
    send transmit state.1 state.2 payload = (-1, state)

structure Standing (endpoints : Endpoints) (sent : ℕ)
    (sender : EfviUdpSender) : Prop where
  slotEq : sender.nextSlot.val = sent % txSlots
  idEq : sender.ipId = UInt16.ofNat sent
  templated : slotTemplated endpoints sender.pool

theorem Standing.built {endpoints : Endpoints} {sent : ℕ}
    {sender : EfviUdpSender} (standing : Standing endpoints sent sender)
    {payload : List UInt8} (fits : payload.length ≤ maxPayload) :
    Standing endpoints (sent + 1) (sender.built payload) := by
  obtain ⟨slotEq, idEq, templated⟩ := standing
  refine ⟨?_, ?_, ?_⟩
  · change (sender.nextSlot.val + 1) % txSlots = (sent + 1) % txSlots
    rw [slotEq, Nat.mod_add_mod]
  · change sender.ipId + 1 = _
    rw [idEq]
    exact (UInt16.ofNat_add sent 1).symm
  · intro index below
    apply (templated index below).congr
    intro offset inTemplate
    by_cases own : slot index = slot sender.nextSlot
    · rw [own]
      exact writeFrame_template sender.pool _ sender.ipId payload inTemplate
    · have apart := TxState.slot_apart own
      have frameFits := frameLength_le_slotLen fits
      have inSlot : offset < slotLen := by
        unfold TemplateOffset at inTemplate
        unfold slotLen headerLen ethLen ip4Len udpLen maxPayload
        omega
      exact writeFrame_outside sender.pool sender.ipId payload (by omega)

theorem Standing.handsOver {endpoints : Endpoints} {sent : ℕ}
    {sender : EfviUdpSender} (standing : Standing endpoints sent sender)
    {payload : List UInt8} (fits : payload.length ≤ maxPayload) :
    HandsOver endpoints sent sender payload := by
  obtain ⟨slotEq, idEq, templated⟩ := standing
  have frameEq : sender.handed payload =
      datagram endpoints (sent % 2 ^ 16) payload := by
    have read := writeFrame_read
      (templated sender.nextSlot.val sender.nextSlot.isLt) sender.ipId payload
    have idNat : sender.ipId.toNat = sent % 2 ^ 16 := by
      rw [idEq, UInt16.toNat_ofNat']
    rw [idNat] at read
    exact read
  have lengthCases := frameLength_cases payload
  refine ⟨frameEq, ?_, frameLength_le_slotLen fits, ?_, ?_, ?_⟩
  · change frameLength payload = _
    omega
  · have header : ((sender.handed payload).drop ethLen).take ip4Len =
        ipv4Header endpoints (sent % 2 ^ 16) payload.length
          (headerChecksum endpoints (sent % 2 ^ 16) payload.length) := by
      rw [frameEq, datagram]
      simp only [List.append_assoc]
      rw [List.drop_left' (by simp [ethernetHeader, ethLen])]
      exact List.take_left' (ipv4Header_length _ _ _ _)
    rw [header]
    exact ipv4Header_sum endpoints _ _
  · change slot sender.nextSlot.val = _
    rw [slotEq]
  · intro index different
    exact TxState.built_read_of_ne sender fits (Nat.le_refl slotLen) different

theorem standing_final (nic : Nic) (endpoints : Endpoints)
    (payloads : List (List UInt8)) :
    Standing endpoints (inSizeSends payloads)
      (Run.final (sendStep transmit) (nic, initial endpoints) payloads).2 := by
  have steps : ∀ (state : Nic × EfviUdpSender) sent,
      Standing endpoints sent state.2 →
        Standing endpoints (sent + inSizeSends payloads)
          (Run.final (sendStep transmit) state payloads).2 := by
    induction payloads with
    | nil =>
        intro state sent standing
        exact standing
    | cons payload rest ih =>
        intro state sent standing
        rw [Run.final_cons]
        unfold inSizeSends sendStep at ih ⊢
        by_cases fits : payload.length ≤ maxPayload
        · rw [List.countP_cons_of_pos (by simpa using fits),
            send_of_fits transmit _ _ fits]
          have later := ih
            ((transmit state.1 (state.2.built payload).pool
              (state.2.descriptor payload)).2, state.2.built payload)
            (sent + 1) (standing.built fits)
          rwa [Nat.add_right_comm, Nat.add_assoc] at later
        · rw [List.countP_cons_of_neg (by simpa using fits),
            send_of_oversized transmit _ _ (Nat.lt_of_not_le fits)]
          exact ih state sent standing
  have start : Standing endpoints 0 (initial endpoints) :=
    ⟨rfl, rfl, initial_templated endpoints⟩
  have reached := steps (nic, initial endpoints) 0 start
  rwa [Nat.zero_add] at reached

/-- For any endpoints, any device and any payloads sent before: the next call
hands over the datagram of its payload, numbered by the in-size sends before
it, or changes nothing when the payload is too long. -/
theorem sends_datagrams (nic : Nic) (endpoints : Endpoints)
    (earlier : List (List UInt8)) (payload : List UInt8) :
    SendsDatagram transmit endpoints (inSizeSends earlier)
      (Run.final (sendStep transmit) (nic, initial endpoints) earlier)
      payload := by
  have standing := standing_final transmit nic endpoints earlier
  exact ⟨fun fits => ⟨send_of_fits transmit _ _ fits, standing.handsOver fits⟩,
    fun oversized => send_of_oversized transmit _ _ oversized⟩

end Runs

end EfviUdpSender

end Waler
