/-
Frames in flight: the sender beside the descriptors the device still holds.

The device is a queue of outstanding descriptors of some capacity.  Sends and
completions interleave in any order.  Each outstanding descriptor remembers
the frame it was posted with; the sender reuses its sixteen slots in turn and
never asks whether a slot's descriptor has completed.
-/

import Waler.Efvi.EfviUdpSender
import Waler.Foundation.Run

namespace Waler

open PackedLayout (word16)

namespace EfviUdpSender

/-! ### The device -/

structure Posted where
  descriptor : TxDescriptor
  frame : List UInt8
  deriving DecidableEq

/-- `ef_vi_transmit` on a ring of the given capacity, oldest first; a full
ring answers `-EAGAIN`. -/
def transmit (capacity : ℕ) (ring : List Posted) (memory : ByteMemory)
    (descriptor : TxDescriptor) : ℤ × List Posted :=
  if ring.length < capacity then
    (0, ring ++
      [{ descriptor := descriptor
         frame := memory.read descriptor.dma descriptor.frameLen }])
  else (-11, ring)

structure TxState where
  sender : EfviUdpSender
  ring : List Posted

inductive TxEvent
  | send (payload : List UInt8)
  -- The device is done with the oldest descriptor.
  | complete

namespace TxState

def initial (endpoints : Endpoints) : TxState :=
  { sender := EfviUdpSender.initial endpoints
    ring := [] }

def step (capacity : ℕ) (state : TxState) : TxEvent → TxState
  | .send payload =>
      let (_, ring, sender) :=
        send (transmit capacity) state.ring state.sender payload
      { sender := sender, ring := ring }
  | .complete => { state with ring := state.ring.tail }

/-- The bytes every outstanding descriptor points at are still the frame it
was posted with. -/
def InFlightIntact (state : TxState) : Prop :=
  ∀ posted ∈ state.ring,
    state.sender.pool.read posted.descriptor.dma posted.descriptor.frameLen =
      posted.frame

/-- A send that builds a frame does so in a slot no outstanding descriptor
points at. -/
def SlotFree (state : TxState) : TxEvent → Prop
  | .send payload =>
      payload.length ≤ maxPayload →
        ∀ posted ∈ state.ring,
          posted.descriptor.dma ≠ slot state.sender.nextSlot
  | .complete => True

instance (state : TxState) (event : TxEvent) :
    Decidable (state.SlotFree event) :=
  match event with
  | .send _ => inferInstanceAs (Decidable (_ → _))
  | .complete => isTrue trivial

/-! ### One step -/

def next (state : TxState) (payload : List UInt8) : Posted :=
  { descriptor := state.sender.descriptor payload
    frame := (state.sender.built payload).pool.read
      (slot state.sender.nextSlot) (frameLength payload) }

theorem step_send_of_fits (capacity : ℕ) (state : TxState)
    {payload : List UInt8} (fits : payload.length ≤ maxPayload) :
    (state.step capacity (.send payload)).sender =
        state.sender.built payload ∧
      ((state.step capacity (.send payload)).ring = state.ring ∨
        (state.step capacity (.send payload)).ring =
          state.ring ++ [state.next payload]) := by
  unfold step
  simp only [send_of_fits _ _ _ fits, true_and]
  unfold transmit
  split
  · exact Or.inr rfl
  · exact Or.inl rfl

theorem step_send_of_oversized (capacity : ℕ) (state : TxState)
    {payload : List UInt8} (oversized : maxPayload < payload.length) :
    state.step capacity (.send payload) = state := by
  unfold step
  simp only [send_of_oversized _ _ _ oversized]

end TxState

/-! ### Where outstanding descriptors come from -/

structure Posted.FromSend (posted : Posted) (serial : ℕ) : Prop where
  slotEq : posted.descriptor.dma = slot (serial % txSlots)
  fits : posted.descriptor.frameLen ≤ slotLen
  idEq : (posted.frame.drop 18).take 2 =
    word16.encode (htons (UInt16.ofNat serial))
  headed : 60 ≤ posted.descriptor.frameLen

namespace TxState

/-- After `sent` in-size sends whose slots were free: all that is outstanding
was posted by the last sixteen of them and is intact. -/
structure Recent (sent : ℕ) (state : TxState) : Prop where
  slotEq : state.sender.nextSlot.val = sent % txSlots
  idEq : state.sender.ipId = UInt16.ofNat sent
  posted : ∀ posted ∈ state.ring,
    ∃ serial, serial < sent ∧ sent ≤ serial + txSlots ∧
      posted.FromSend serial
  intact : state.InFlightIntact

theorem Recent.initial (endpoints : Endpoints) :
    Recent 0 (TxState.initial endpoints) := by
  refine ⟨rfl, rfl, ?_, ?_⟩
  · intro posted member
    cases member
  · intro posted member
    cases member

theorem slot_apart {first second : ℕ} (different : slot first ≠ slot second) :
    slot first + slotLen ≤ slot second ∨
      slot second + slotLen ≤ slot first := by
  unfold slot slotLen headerLen ethLen ip4Len udpLen maxPayload at *
  omega

theorem built_read_of_ne (sender : EfviUdpSender) {payload : List UInt8}
    (fits : payload.length ≤ maxPayload) {index count : ℕ}
    (inside : count ≤ slotLen)
    (different : slot index ≠ slot sender.nextSlot) :
    (sender.built payload).pool.read (slot index) count =
      sender.pool.read (slot index) count := by
  have frameFits := frameLength_le_slotLen fits
  have apart := slot_apart different
  apply ByteMemory.read_congr
  intro location above below
  exact writeFrame_outside sender.pool sender.ipId payload (by omega)

theorem built_read_ipId (sender : EfviUdpSender) (payload : List UInt8) :
    (sender.built payload).pool.read (slot sender.nextSlot + 18) 2 =
      word16.encode (htons sender.ipId) :=
  patchHeaders_ipId _ _ _ _

theorem next_fromSend {sent : ℕ} {state : TxState}
    (recent : Recent sent state) {payload : List UInt8}
    (fits : payload.length ≤ maxPayload) :
    (state.next payload).FromSend sent := by
  have lengthCases := frameLength_cases payload
  refine ⟨?_, frameLength_le_slotLen fits, ?_, ?_⟩
  · change slot state.sender.nextSlot = slot (sent % txSlots)
    rw [recent.slotEq]
  · change (((state.sender.built payload).pool.read
      (slot state.sender.nextSlot) (frameLength payload)).drop 18).take 2 = _
    rw [ByteMemory.read_slice _ _ (by omega), built_read_ipId, recent.idEq]
  · change 60 ≤ frameLength payload
    omega

theorem Recent.send {sent : ℕ} {state : TxState}
    (recent : Recent sent state) (capacity : ℕ) {payload : List UInt8}
    (fits : payload.length ≤ maxPayload)
    (free : state.SlotFree (.send payload)) :
    Recent (sent + 1) (state.step capacity (.send payload)) := by
  obtain ⟨senderEq, ringEq⟩ := state.step_send_of_fits capacity fits
  have member : ∀ posted ∈ (state.step capacity (.send payload)).ring,
      posted ∈ state.ring ∨ posted = state.next payload := by
    intro posted inRing
    obtain full | taken := ringEq
    · rw [full] at inRing
      exact Or.inl inRing
    · rw [taken, List.mem_append, List.mem_singleton] at inRing
      exact inRing
  refine ⟨?_, ?_, ?_, ?_⟩
  · rw [senderEq]
    change (state.sender.nextSlot.val + 1) % txSlots = (sent + 1) % txSlots
    rw [recent.slotEq, Nat.mod_add_mod]
  · rw [senderEq]
    change state.sender.ipId + 1 = _
    rw [recent.idEq]
    exact (UInt16.ofNat_add sent 1).symm
  · intro posted inRing
    obtain old | rfl := member posted inRing
    · obtain ⟨serial, before, after, source⟩ := recent.posted posted old
      refine ⟨serial, by omega, ?_, source⟩
      -- The send sixteen places back used the slot that is about to be used.
      have otherSlot := free fits posted old
      rw [source.slotEq, recent.slotEq] at otherSlot
      have notLast : sent ≠ serial + txSlots := by
        intro last
        rw [last, Nat.add_mod_right] at otherSlot
        exact otherSlot rfl
      omega
    · exact ⟨sent, Nat.lt_succ_self sent, by unfold txSlots; omega,
        next_fromSend recent fits⟩
  · intro posted inRing
    rw [senderEq]
    obtain old | rfl := member posted inRing
    · obtain ⟨serial, _, _, source⟩ := recent.posted posted old
      have otherSlot := free fits posted old
      rw [source.slotEq] at otherSlot
      rw [source.slotEq, built_read_of_ne _ fits source.fits otherSlot,
        ← source.slotEq]
      exact recent.intact posted old
    · rfl

theorem Recent.complete {sent : ℕ} {state : TxState}
    (recent : Recent sent state) (capacity : ℕ) :
    Recent sent (state.step capacity .complete) := by
  refine ⟨recent.slotEq, recent.idEq, ?_, ?_⟩
  · intro posted inRing
    exact recent.posted posted (List.mem_of_mem_tail inRing)
  · intro posted inRing
    exact recent.intact posted (List.mem_of_mem_tail inRing)

theorem recent_step {capacity : ℕ} {state : TxState} {event : TxEvent}
    (free : state.SlotFree event) (recent : ∃ sent, Recent sent state) :
    ∃ sent, Recent sent (state.step capacity event) := by
  obtain ⟨sent, recent⟩ := recent
  cases event with
  | complete => exact ⟨sent, recent.complete capacity⟩
  | send payload =>
      by_cases fits : payload.length ≤ maxPayload
      · exact ⟨sent + 1, recent.send capacity fits free⟩
      · rw [state.step_send_of_oversized capacity (Nat.lt_of_not_le fits)]
        exact ⟨sent, recent⟩

/-! ### A taken slot -/

theorem encode_htons_injective {first second : UInt16}
    (same : word16.encode (htons first) = word16.encode (htons second)) :
    first = second := by
  have swapped := congrArg word16.decode same
  rw [word16.decode_encode, word16.decode_encode] at swapped
  have restored := congrArg word16.byteSwap swapped
  unfold htons at restored
  rwa [PackedLayout.byteSwap_byteSwap, PackedLayout.byteSwap_byteSwap]
    at restored

/-- A send into the slot of an outstanding descriptor overwrites its
identification: the two sends are sixteen apart, and the ids differ. -/
theorem slotFree_of_intact {capacity : ℕ} {state : TxState}
    {event : TxEvent} (recent : ∃ sent, Recent sent state)
    (intact : (state.step capacity event).InFlightIntact) :
    state.SlotFree event := by
  obtain ⟨sent, recent⟩ := recent
  cases event with
  | complete => trivial
  | send payload =>
      intro fits posted old taken
      obtain ⟨senderEq, ringEq⟩ := state.step_send_of_fits capacity fits
      have kept : posted ∈ (state.step capacity (.send payload)).ring := by
        obtain full | appended := ringEq
        · rw [full]
          exact old
        · rw [appended]
          exact List.mem_append_left _ old
      obtain ⟨serial, before, after, source⟩ := recent.posted posted old
      have sameSlot : serial % txSlots = sent % txSlots := by
        have slots := taken
        rw [source.slotEq, recent.slotEq] at slots
        unfold slot at slots
        exact Nat.eq_of_mul_eq_mul_right (by decide) slots
      have apart : sent = serial + 16 := by
        unfold txSlots at sameSlot after
        omega
      have frameEq := intact posted kept
      rw [senderEq] at frameEq
      have headed := source.headed
      have idEq := source.idEq
      rw [← frameEq, ByteMemory.read_slice _ _ (by omega), taken,
        built_read_ipId, recent.idEq] at idEq
      have sameId := congrArg UInt16.toNat (encode_htons_injective idEq)
      rw [UInt16.toNat_ofNat', UInt16.toNat_ofNat'] at sameId
      omega

theorem slotFree_exact (capacity : ℕ) :
    Run.Exact (step capacity) SlotFree InFlightIntact
      (fun state => ∃ sent, Recent sent state) where
  preserved := fun _ _ free recent => recent_step free recent
  sound := fun _ recent => recent.choose_spec.intact
  exposed := fun _ _ recent intact => slotFree_of_intact recent intact

/-- For any ring capacity and any interleaving of sends and completions: every
outstanding frame is intact in every state exactly when no send builds its
frame in the slot of an outstanding descriptor. -/
theorem inFlightIntact_throughout_iff (capacity : ℕ) (endpoints : Endpoints)
    (events : List TxEvent) :
    Run.Throughout (step capacity) InFlightIntact (initial endpoints) events ↔
      Run.Along (step capacity) SlotFree (initial endpoints) events :=
  (slotFree_exact capacity).throughout_iff (initial endpoints) events
    ⟨0, Recent.initial endpoints⟩

/-- On a ring of 512 entries, the seventeenth send without a completion
overwrites the first frame. -/
theorem not_inFlightIntact_seventeen :
    ¬ Run.Throughout (step 512) InFlightIntact (initial loopback)
      (List.replicate 17 (.send [])) := by
  intro intact
  have free := ((slotFree_exact 512).throughout_iff _ _
    ⟨0, Recent.initial loopback⟩).mp intact
  revert free
  decide

end TxState

end EfviUdpSender

end Waler
