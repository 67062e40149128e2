/-
The frames on their way through the rig, and what each event does to them.

A frame accepted by the exchange's NIC is from then on in the pipe: with the
descriptors that are still to be read, on the cable, behind a queued event, or
in front of a running `poll`.  As long as no send builds its frame over one
that is still to be read, every event moves frames on in order and unchanged,
or loses the first one on the cable.
-/

import Waler.Efvi.FrameStream
import Waler.Exchange.SendProgress
import Waler.Rig.TwoThreadRig

namespace Waler

open EfviUdpSender (maxPayload)

namespace Rig

/-! ### The pipe -/

/-- The frames on their way, the oldest first. -/
def pipe (rig : Rig) : List (List UInt8) :=
  rig.rx.stream ++ rig.wire ++ rig.ring.map rig.read

/-- A send does not build its frame where one is still to be read. -/
def SlotFree (rig : Rig) : Event → Prop
  | .exchange _ => rig.exchange.buffer.isSome →
      ∀ descriptor ∈ rig.ring,
        descriptor.dma ≠ EfviUdpSender.slot rig.exchange.sender.nextSlot
  | _ => True

/-- No frame is refused, damaged or lost, and one that arrives finds a buffer
it fits. -/
def Lossless (rig : Rig) : Event → Prop
  | .exchange turn => rig.exchange.NotRefused turn
  | .arrive _ => ∀ frame ∈ rig.wire.head?,
      rig.rx.interface.queue.posted ≠ [] ∧ rig.Fits frame
  | .damage => rig.wire = []
  | .lose => rig.wire = []
  | _ => True

instance (rig : Rig) (event : Event) : Decidable (rig.SlotFree event) :=
  match event with
  | .exchange _ => inferInstanceAs (Decidable (_ → _))
  | .fetch => isTrue trivial
  | .arrive _ => isTrue trivial
  | .damage => isTrue trivial
  | .lose => isTrue trivial
  | .poll _ _ => isTrue trivial
  | .advance _ => isTrue trivial

instance (rig : Rig) (event : Event) : Decidable (rig.Lossless event) :=
  match event with
  | .exchange _ => inferInstanceAs (Decidable (_ → _))
  | .fetch => isTrue trivial
  | .arrive _ => inferInstanceAs (Decidable (∀ _ ∈ rig.wire.head?, _ ∧ _))
  | .damage => inferInstanceAs (Decidable (_ = _))
  | .lose => inferInstanceAs (Decidable (_ = _))
  | .poll _ _ => isTrue trivial
  | .advance _ => isTrue trivial

/-- The descriptors to be read point into single slots of the sender. -/
def RingPlaced (rig : Rig) : Prop :=
  ∀ descriptor ∈ rig.ring, descriptor.frameLen ≤ EfviUdpSender.slotLen ∧
    ∃ index, descriptor.dma = EfviUdpSender.slot index

theorem read_congr {rig other : Rig}
    (same : other.exchange.sender.pool = rig.exchange.sender.pool) :
    other.read = rig.read := by
  funext descriptor
  unfold read
  rw [same]

theorem nextFrame_passed (rig : Rig) :
    rig.rx.passed .advance =
      (rig.nextFrame.map (fun frame =>
        rig.rx.interface.pool.read frame.data frame.len)).toList := by
  unfold nextFrame EfviInterface.PollState.passed
  cases phase : rig.rx.phase with
  | returned => rfl
  | looping tsc evs =>
      cases evs with
      | nil => rfl
      | cons event rest =>
          cases event with
          | rx rqId bytes timestamp =>
              have read := rig.rx.interface.frame_read tsc rqId bytes timestamp
              unfold EfviInterface.PollState.frames
              dsimp only [List.take]
              rw [List.filterMap_cons, read]
              rfl
          | rxDiscard rqId => rfl
          | other => rfl
  | reposting tsc rqId evs => rfl

/-! ### One event -/

/-- What an event accepts goes to the end of the pipe, and what it hands over
comes from the front; a lossy event may drop something on the way. -/
structure Flow (rig after : Rig) (accepted : List (List UInt8))
    (lossless : Prop) : Prop where
  frames : after.exchange.frames = rig.exchange.frames ++ accepted
  moved : (after.handled ++ after.pipe).Sublist
    (rig.handled ++ rig.pipe ++ accepted)
  kept : lossless →
    after.handled ++ after.pipe = rig.handled ++ rig.pipe ++ accepted

theorem Flow.of_eq {rig after : Rig} {accepted : List (List UInt8)}
    {lossless : Prop}
    (frames : after.exchange.frames = rig.exchange.frames ++ accepted)
    (kept : after.handled ++ after.pipe =
      rig.handled ++ rig.pipe ++ accepted) :
    Flow rig after accepted lossless :=
  ⟨frames, kept ▸ List.Sublist.refl _, fun _ => kept⟩

theorem exchangeTurn_draw {rig : Rig} (empty : rig.exchange.buffer = none)
    (turn : ExchangeThread.Turn) :
    rig.exchangeTurn turn =
      { rig with exchange := rig.exchange.draw turn.draws } := by
  unfold exchangeTurn
  rw [ExchangeThread.step_draw turn empty, empty]
  rfl

theorem exchangeTurn_flow {rig : Rig} (placed : rig.RingPlaced)
    (turn : ExchangeThread.Turn)
    (fits : ∀ packet, rig.exchange.buffer = some packet →
      packet.length ≤ maxPayload)
    (free : rig.SlotFree (.exchange turn)) (lossless : Prop) :
    ∃ accepted, Flow rig (rig.exchangeTurn turn) accepted lossless := by
  cases held : rig.exchange.buffer with
  | none =>
      obtain ⟨senderEq, framesEq⟩ := rig.exchange.draw_keeps turn.draws
      rw [exchangeTurn_draw held]
      refine ⟨[], Flow.of_eq ?_ ?_⟩
      · rw [List.append_nil]
        exact framesEq
      · rw [List.append_nil]
        unfold pipe
        rw [read_congr (congrArg EfviUdpSender.pool senderEq)]
  | some packet =>
      have short := fits packet held
      have stepEq : rig.exchange.step turn =
          rig.exchange.transmit packet turn.transmitResult :=
        ExchangeThread.step_transmit turn held
      have readEq : ∀ descriptor ∈ rig.ring,
          (rig.exchangeTurn turn).read descriptor = rig.read descriptor := by
        intro descriptor listed
        obtain ⟨inside, index, dmaEq⟩ := placed descriptor listed
        have apart := free (by rw [held]; rfl) descriptor listed
        rw [dmaEq] at apart
        unfold read exchangeTurn
        rw [stepEq, rig.exchange.transmit_eq short, dmaEq]
        exact EfviUdpSender.TxState.built_read_of_ne rig.exchange.sender short
          inside apart
      have readAll : rig.ring.map (rig.exchangeTurn turn).read =
          rig.ring.map rig.read :=
        List.map_congr_left readEq
      by_cases refused : turn.transmitResult < 0
      · have ringEq : (rig.exchangeTurn turn).ring = rig.ring := by
          unfold exchangeTurn
          rw [held]
          exact if_pos refused
        refine ⟨[], Flow.of_eq ?_ ?_⟩
        · unfold exchangeTurn
          rw [stepEq, rig.exchange.transmit_eq short, List.append_nil]
          exact if_pos refused
        · unfold pipe
          rw [ringEq, readAll, List.append_nil]
          rfl
      · have ringEq : (rig.exchangeTurn turn).ring =
            rig.ring ++ [rig.exchange.sender.descriptor packet] := by
          unfold exchangeTurn
          rw [held]
          exact if_neg refused
        have newEq : (rig.exchangeTurn turn).read
            (rig.exchange.sender.descriptor packet) =
              rig.exchange.builtFrame packet := by
          unfold read exchangeTurn
          rw [stepEq, rig.exchange.transmit_eq short]
          rfl
        refine ⟨[rig.exchange.builtFrame packet], Flow.of_eq ?_ ?_⟩
        · unfold exchangeTurn
          rw [stepEq, rig.exchange.transmit_eq short]
          exact if_neg refused
        · unfold pipe
          rw [ringEq, List.map_append, readAll, List.map_singleton, newEq]
          simp only [List.append_assoc]
          rfl

theorem fetch_flow (rig : Rig) (lossless : Prop) :
    Flow rig rig.fetch [] lossless := by
  unfold fetch
  split
  · exact Flow.of_eq (List.append_nil _).symm (List.append_nil _).symm
  · rename_i descriptor rest ringEq
    refine Flow.of_eq (List.append_nil _).symm ?_
    unfold pipe
    rw [ringEq, List.map_cons, List.append_nil]
    simp only [List.append_assoc, List.singleton_append]
    rfl

/-- Whatever becomes of the first frame on the cable, the rest moves on. -/
theorem flow_of_dropped {rig : Rig} {frame : List UInt8}
    {rest : List (List UInt8)} (wireEq : rig.wire = frame :: rest)
    {rx : EfviInterface.PollState} (stream : rx.stream = rig.rx.stream)
    {lossless : Prop} (lossy : ¬ lossless) :
    Flow rig { rig with wire := rest, rx := rx } [] lossless := by
  refine ⟨(List.append_nil _).symm, ?_, fun kept => absurd kept lossy⟩
  unfold pipe
  dsimp only
  rw [stream, wireEq, List.append_nil]
  simp only [List.append_assoc, List.cons_append]
  exact List.Sublist.append_left (List.Sublist.append_left
    (List.sublist_cons_self frame _) _) _

theorem damage_flow (rig : Rig) :
    Flow rig rig.damage [] (rig.Lossless .damage) := by
  have nonempty : ∀ {frame rest}, rig.wire = frame :: rest →
      ¬ rig.Lossless .damage := by
    intro frame rest wireEq none
    rw [show rig.wire = [] from none] at wireEq
    cases wireEq
  unfold damage
  split
  · exact Flow.of_eq (List.append_nil _).symm (List.append_nil _).symm
  · rename_i frame rest wireEq postedEq
    exact flow_of_dropped wireEq rfl (nonempty wireEq)
  · rename_i frame rest rqId posted wireEq postedEq
    exact flow_of_dropped wireEq
      (EfviInterface.PollState.stream_discard rig.rx rqId) (nonempty wireEq)

theorem lose_flow (rig : Rig) :
    Flow rig { rig with wire := rig.wire.tail } []
      (rig.Lossless .lose) := by
  cases wireEq : rig.wire with
  | nil =>
      refine Flow.of_eq (List.append_nil _).symm ?_
      unfold pipe
      rw [wireEq, List.append_nil]
      rfl
  | cons frame rest =>
      refine flow_of_dropped wireEq rfl ?_
      intro none
      rw [show rig.wire = [] from none] at wireEq
      cases wireEq

theorem arrive_flow {rig : Rig} (placed : rig.rx.Placed) (lent : rig.rx.Lent)
    (timestamp : Option PreciseTime) :
    Flow rig (rig.arrive timestamp) [] (rig.Lossless (.arrive timestamp)) := by
  unfold arrive
  split
  · exact Flow.of_eq (List.append_nil _).symm (List.append_nil _).symm
  · rename_i frame rest wireEq postedEq
    refine flow_of_dropped wireEq rfl ?_
    intro kept
    exact (kept frame (by rw [wireEq]; rfl)).1 postedEq
  · rename_i frame rest rqId posted wireEq postedEq
    dsimp only
    split
    · rename_i fits
      have stored := EfviInterface.PollState.stream_store placed lent
        (by rw [postedEq]; exact List.mem_cons_self) fits.1 fits.2 timestamp
      refine Flow.of_eq (List.append_nil _).symm ?_
      unfold pipe
      dsimp only
      rw [stored, wireEq, List.append_nil]
      simp only [List.append_assoc, List.singleton_append]
      rfl
    · rename_i tooLarge
      refine flow_of_dropped wireEq rfl ?_
      intro kept
      exact tooLarge (kept frame (by rw [wireEq]; rfl)).2

theorem poll_flow (rig : Rig) (total ready : ℕ) (tsc : UInt64)
    (lossless : Prop) : Flow rig (rig.poll total ready tsc) [] lossless := by
  unfold poll
  split
  · refine Flow.of_eq (List.append_nil _).symm ?_
    have same := EfviInterface.PollState.stream_start rig.rx ready tsc
    unfold pipe
    rw [List.append_nil]
    change rig.handled ++ ((rig.rx.start ready tsc).stream ++ _ ++ _) = _
    rw [same]
    rfl
  · exact Flow.of_eq (List.append_nil _).symm (List.append_nil _).symm

theorem advance_handled (setup : Setup) (rig : Rig) (readings : Readings) :
    (rig.advance setup readings).handled =
      rig.handled ++ rig.rx.passed .advance := by
  rw [nextFrame_passed]
  unfold advance
  cases rig.nextFrame with
  | none => exact (List.append_nil _).symm
  | some frame => rfl

theorem advance_keeps (setup : Setup) (rig : Rig) (readings : Readings) :
    (rig.advance setup readings).exchange = rig.exchange ∧
      (rig.advance setup readings).ring = rig.ring ∧
        (rig.advance setup readings).wire = rig.wire ∧
          (rig.advance setup readings).rx = rig.rx.advance := by
  unfold advance
  cases rig.nextFrame <;> exact ⟨rfl, rfl, rfl, rfl⟩

theorem advance_flow (setup : Setup) (rig : Rig) (readings : Readings)
    (lossless : Prop) :
    Flow rig (rig.advance setup readings) [] lossless := by
  obtain ⟨exchangeEq, ringEq, wireEq, rxEq⟩ :=
    rig.advance_keeps setup readings
  have front := rig.rx.passed_advance
  refine Flow.of_eq ?_ ?_
  · rw [exchangeEq, List.append_nil]
  · unfold pipe
    rw [read_congr (congrArg (fun thread => thread.sender.pool) exchangeEq),
      advance_handled, ringEq, wireEq, rxEq, List.append_nil, ← front]
    simp only [List.append_assoc]

end Rig

end Waler
