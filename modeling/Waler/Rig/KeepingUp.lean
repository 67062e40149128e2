/-
When the exchange's NIC keeps up with the sends.

Without refusals the frames still to be read are those of the latest sends,
one slot after the other.  So the next slot is taken exactly when as many
frames are unread as there are slots.
-/

import Waler.Rig.Delivery

namespace Waler

open EfviUdpSender (maxPayload)

namespace Rig

/-! ### A NIC that keeps up -/

/-- A send finds fewer unread frames than there are slots. -/
def Prompt (rig : Rig) : Event → Prop
  | .exchange _ => rig.exchange.buffer.isSome →
      rig.ring.length < EfviUdpSender.txSlots
  | _ => True

instance (rig : Rig) (event : Event) : Decidable (rig.Prompt event) :=
  match event with
  | .exchange _ => inferInstanceAs (Decidable (_ → _))
  | .fetch => isTrue trivial
  | .arrive _ => isTrue trivial
  | .damage => isTrue trivial
  | .lose => isTrue trivial
  | .poll _ _ => isTrue trivial
  | .advance _ => isTrue trivial

/-- The frames to be read are those of the latest sends, each in the slot that
was its turn. -/
structure InTurn (rig : Rig) : Prop where
  next : rig.exchange.sender.nextSlot.val =
    rig.exchange.frames.length % EfviUdpSender.txSlots
  few : rig.ring.length ≤ rig.exchange.frames.length
  slots : rig.ring.map EfviUdpSender.TxDescriptor.dma =
    (List.range' (rig.exchange.frames.length - rig.ring.length)
      rig.ring.length).map
        (fun serial => EfviUdpSender.slot (serial % EfviUdpSender.txSlots))

theorem InTurn.slotFree_iff {rig : Rig} (inTurn : rig.InTurn)
    (event : Event) : rig.SlotFree event ↔ rig.Prompt event := by
  have few := inTurn.few
  cases event with
  | exchange turn =>
      constructor
      · intro free sending
        by_contra full
        -- The frame sixteen sends back is still to be read.
        have listed : rig.exchange.frames.length - EfviUdpSender.txSlots ∈
            List.range' (rig.exchange.frames.length - rig.ring.length)
              rig.ring.length := by
          rw [List.mem_range'_1]
          unfold EfviUdpSender.txSlots at full ⊢
          omega
        have used := List.mem_map_of_mem
          (f := fun serial =>
            EfviUdpSender.slot (serial % EfviUdpSender.txSlots)) listed
        rw [← inTurn.slots] at used
        obtain ⟨descriptor, inRing, dmaEq⟩ := List.mem_map.mp used
        apply free sending descriptor inRing
        rw [dmaEq, inTurn.next]
        apply congrArg EfviUdpSender.slot
        unfold EfviUdpSender.txSlots at full ⊢
        omega
      · intro prompt sending descriptor listed taken
        have short := prompt sending
        have mapped :=
          List.mem_map_of_mem (f := EfviUdpSender.TxDescriptor.dma) listed
        rw [inTurn.slots] at mapped
        obtain ⟨serial, inRange, dmaEq⟩ := List.mem_map.mp mapped
        rw [List.mem_range'_1] at inRange
        rw [taken, inTurn.next] at dmaEq
        have same : serial % EfviUdpSender.txSlots =
            rig.exchange.frames.length % EfviUdpSender.txSlots :=
          Nat.eq_of_mul_eq_mul_right (by decide) dmaEq
        unfold EfviUdpSender.txSlots at same short
        omega
  | fetch => exact Iff.rfl
  | arrive timestamp => exact Iff.rfl
  | damage => exact Iff.rfl
  | lose => exact Iff.rfl
  | poll ready tsc => exact Iff.rfl
  | advance readings => exact Iff.rfl

theorem InTurn.exchangeTurn {rig : Rig} (inTurn : rig.InTurn)
    {turn : ExchangeThread.Turn} (accepted : rig.exchange.NotRefused turn)
    (fits : ∀ packet, rig.exchange.buffer = some packet →
      packet.length ≤ maxPayload) : (rig.exchangeTurn turn).InTurn := by
  cases held : rig.exchange.buffer with
  | none =>
      obtain ⟨senderEq, framesEq⟩ := rig.exchange.draw_keeps turn.draws
      rw [exchangeTurn_draw held]
      refine ⟨?_, ?_, ?_⟩
      · dsimp only
        rw [senderEq, framesEq]
        exact inTurn.next
      · dsimp only
        rw [framesEq]
        exact inTurn.few
      · dsimp only
        rw [framesEq]
        exact inTurn.slots
  | some packet =>
      have taken : ¬ turn.transmitResult < 0 :=
        not_lt.mpr (accepted (by rw [held]; rfl))
      have ringEq : (rig.exchangeTurn turn).ring =
          rig.ring ++ [rig.exchange.sender.descriptor packet] := by
        unfold Rig.exchangeTurn
        rw [held]
        exact if_neg taken
      have exchangeEq : (rig.exchangeTurn turn).exchange =
          rig.exchange.transmit packet turn.transmitResult :=
        ExchangeThread.step_transmit turn held
      have framesEq : (rig.exchangeTurn turn).exchange.frames =
          rig.exchange.frames ++ [rig.exchange.builtFrame packet] := by
        rw [exchangeEq, rig.exchange.transmit_eq (fits packet held)]
        exact if_neg taken
      have nextEq : (rig.exchangeTurn turn).exchange.sender.nextSlot.val =
          (rig.exchange.sender.nextSlot.val + 1) % EfviUdpSender.txSlots := by
        rw [exchangeEq, rig.exchange.transmit_eq (fits packet held)]
        rfl
      have few := inTurn.few
      refine ⟨?_, ?_, ?_⟩
      · rw [nextEq, framesEq, inTurn.next, List.length_append,
          Nat.mod_add_mod]
        rfl
      · rw [ringEq, framesEq, List.length_append, List.length_append]
        exact Nat.add_le_add_right few _
      · have start : rig.exchange.frames.length + 1 - (rig.ring.length + 1) =
            rig.exchange.frames.length - rig.ring.length := by
          omega
        have last : rig.exchange.frames.length - rig.ring.length +
            rig.ring.length = rig.exchange.frames.length := by
          omega
        rw [ringEq, framesEq, List.length_append, List.length_append,
          List.length_singleton, List.length_singleton, start,
          List.map_append, inTurn.slots, List.range'_1_concat,
          List.map_append, last, List.map_singleton, List.map_singleton,
          ← inTurn.next]
        rfl

theorem InTurn.fetch {rig : Rig} (inTurn : rig.InTurn) :
    rig.fetch.InTurn := by
  unfold Rig.fetch
  split
  · exact inTurn
  · rename_i descriptor rest ringEq
    have few := inTurn.few
    have slots := inTurn.slots
    rw [ringEq, List.length_cons] at few
    rw [ringEq, List.length_cons, List.range'_succ, List.map_cons,
      List.map_cons] at slots
    have start : rig.exchange.frames.length - (rest.length + 1) + 1 =
        rig.exchange.frames.length - rest.length := by
      omega
    refine ⟨inTurn.next, by dsimp only; omega, ?_⟩
    dsimp only
    rw [← start]
    exact (List.cons.inj slots).2

theorem InTurn.congr {rig after : Rig} (inTurn : rig.InTurn)
    (exchange : after.exchange = rig.exchange) (ring : after.ring = rig.ring) :
    after.InTurn := by
  obtain ⟨next, few, slots⟩ := inTurn
  rw [← exchange] at next few slots
  rw [← ring] at few slots
  exact ⟨next, few, slots⟩

theorem InTurn.step {setup : Setup} {rig : Rig} (inTurn : rig.InTurn)
    {event : Event} (nothing : rig.Lossless event)
    (fits : ∀ packet, rig.exchange.buffer = some packet →
      packet.length ≤ maxPayload) : (rig.step setup event).InTurn := by
  have kept := @step_exchange setup rig event
  cases event with
  | exchange turn => exact inTurn.exchangeTurn nothing fits
  | fetch => exact inTurn.fetch
  | arrive timestamp =>
      refine inTurn.congr (kept (fun _ => by simp)) ?_
      change (rig.arrive timestamp).ring = _
      unfold arrive
      split
      · rfl
      · rfl
      · dsimp only
        split <;> rfl
  | damage =>
      refine inTurn.congr (kept (fun _ => by simp)) ?_
      change rig.damage.ring = _
      unfold damage
      split <;> rfl
  | lose => exact inTurn.congr rfl rfl
  | poll ready tsc =>
      refine inTurn.congr (kept (fun _ => by simp)) ?_
      change (rig.poll setup.total ready tsc).ring = _
      unfold poll
      split <;> rfl
  | advance readings =>
      obtain ⟨exchangeEq, ringEq, _⟩ := rig.advance_keeps setup readings
      exact inTurn.congr exchangeEq ringEq

theorem step_progress {setup : Setup} {rig : Rig}
    (progress : rig.exchange.Progress setup.total) (event : Event) :
    (rig.step setup event).exchange.Progress setup.total := by
  by_cases own : ∃ turn, event = .exchange turn
  · obtain ⟨turn, rfl⟩ := own
    exact progress.step turn
  · rw [rig.step_exchange setup (fun turn same => own ⟨turn, same⟩)]
    exact progress

/-- For every interleaving in which nothing is refused, damaged or lost: no
send takes the slot of a frame still to be read exactly when no send finds
sixteen frames unread. -/
theorem slotFree_along_iff (setup : Setup) (events : List Event)
    (lossless : Run.Along (step setup) Lossless (initial setup) events) :
    Run.Along (step setup) SlotFree (initial setup) events ↔
      Run.Along (step setup) Prompt (initial setup) events := by
  apply Run.along_congr
  intro before event after split
  have along : Run.Along (step setup) Lossless (initial setup) before := by
    rw [Run.along_iff_forall] at lossless ⊢
    rintro earlier next later rfl
    exact lossless earlier next (later ++ event :: after) (by
      rw [split, List.append_assoc, List.cons_append])
  have reached := Run.final_invariant_of_along
    (fun rig => rig.exchange.Progress setup.total ∧ rig.InTurn)
    (fun rig event nothing kept =>
      ⟨step_progress kept.1 event, kept.2.step nothing
        (fun packet held => (kept.1.buffered packet held).2)⟩)
    (initial setup) before
    ⟨(initial_sound setup).progress, rfl, le_refl _, rfl⟩ along
  exact reached.2.slotFree_iff event

/-- Sixteen sends fill the slots; one frame is read before its slot is taken
again. -/
def fullRing : List Event :=
  List.replicate 32 (.exchange (ExchangeThread.answered 0)) ++
    [.fetch, .exchange (ExchangeThread.answered 0),
      .exchange (ExchangeThread.answered 0)]

theorem slotFree_along_iff_fullRing :
    Run.Along (step loopbackSetup) SlotFree (initial loopbackSetup)
      fullRing :=
  (slotFree_along_iff loopbackSetup fullRing (by decide +kernel)).mpr
    (by decide +kernel)

end Rig

end Waler
