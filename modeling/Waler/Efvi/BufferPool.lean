/-
Where the receive buffers are: posted to the device, named by a queued event,
or lost.

The device takes a posted buffer for each packet and queues one event for it,
good or discarded.  `poll` gives back the buffers of good packets only.
-/

import Mathlib.Data.List.Nodup
import Waler.Efvi.EfviInterface
import Waler.Foundation.Run

namespace Waler

namespace EfviInterface

def bufferOf : EfEvent → List ℕ
  | .rx rqId _ _ => [rqId]
  | .rxDiscard rqId => [rqId]
  | .other => []

def repostedOf : EfEvent → List ℕ
  | .rx rqId _ _ => [rqId]
  | _ => []

def discardedOf : EfEvent → List ℕ
  | .rxDiscard rqId => [rqId]
  | _ => []

def held (interface : EfviInterface) : List ℕ :=
  interface.queue.posted ++ interface.queue.events.flatMap bufferOf

/-- Every buffer is exactly once posted or named by a queued event. -/
def Conserved (interface : EfviInterface) : Prop :=
  ∀ id < interface.nSlots, interface.held.count id = 1

/-! ### Steps -/

inductive RxStep
  -- The device fills a posted buffer with a good packet.
  | receive (rqId : ℕ) (bytes : UInt16) (timestamp : Option PreciseTime)
  -- The device fills a posted buffer with a packet it discards.
  | discard (rqId : ℕ)
  | poll (ready : ℕ) (tsc : UInt64)

def consume (interface : EfviInterface) (rqId : ℕ) (event : EfEvent) :
    EfviInterface :=
  if rqId ∈ interface.queue.posted then
    { interface with
      queue :=
        { interface.queue with
          posted := interface.queue.posted.erase rqId
          events := interface.queue.events ++ [event] } }
  else interface

def step (interface : EfviInterface) : RxStep → EfviInterface
  | .receive rqId bytes timestamp =>
      interface.consume rqId (.rx rqId bytes timestamp)
  | .discard rqId => interface.consume rqId (.rxDiscard rqId)
  | .poll ready tsc => (interface.poll ready tsc).1

/-- The step does not handle the event of a discarded packet. -/
def NoDiscardPolled (interface : EfviInterface) : RxStep → Prop
  | .poll ready _ => (interface.batch ready).flatMap discardedOf = []
  | _ => True

instance (interface : EfviInterface) (step : RxStep) :
    Decidable (interface.NoDiscardPolled step) :=
  match step with
  | .poll _ _ => inferInstanceAs (Decidable (_ = _))
  | .receive _ _ _ => isTrue trivial
  | .discard _ => isTrue trivial

/-! ### Accounting for one step -/

theorem receivePost_of_room (queue : RxQueue) (dmaId : ℕ)
    (room : queue.posted.length < queue.capacity) :
    queue.receivePost dmaId =
      { queue with posted := queue.posted ++ [dmaId] } :=
  if_pos room

theorem handleEvents_queue (tsc : UInt64) (interface : EfviInterface)
    (events : List EfEvent)
    (room : interface.queue.posted.length +
      (events.flatMap bufferOf).length ≤ interface.queue.capacity) :
    (handleEvents tsc interface events).1.queue =
      { interface.queue with
        posted := interface.queue.posted ++ events.flatMap repostedOf } := by
  induction events generalizing interface with
  | nil =>
      rw [List.flatMap_nil, List.append_nil]
      rfl
  | cons event rest ih =>
      rw [List.flatMap_cons, List.length_append] at room
      rw [List.flatMap_cons]
      cases event with
      | rx rqId bytes timestamp =>
          change _ + (1 + _) ≤ _ at room
          have reposted : (interface.repost rqId).queue =
              { interface.queue with
                posted := interface.queue.posted ++ [rqId] } :=
            receivePost_of_room interface.queue rqId (by omega)
          have roomLater : (interface.repost rqId).queue.posted.length +
              (rest.flatMap bufferOf).length ≤
                (interface.repost rqId).queue.capacity := by
            rw [reposted, List.length_append, List.length_singleton]
            dsimp only
            omega
          change (handleEvents tsc (interface.repost rqId) rest).1.queue = _
          rw [ih (interface.repost rqId) roomLater, reposted,
            List.append_assoc]
          rfl
      | rxDiscard rqId =>
          change _ + (1 + _) ≤ _ at room
          exact ih { interface with nDiscards := interface.nDiscards + 1 } (by
            dsimp only
            omega)
      | other =>
          change _ + (0 + _) ≤ _ at room
          exact ih interface (by omega)

theorem handleEvents_nSlots (tsc : UInt64) (interface : EfviInterface)
    (events : List EfEvent) :
    (handleEvents tsc interface events).1.nSlots = interface.nSlots := by
  induction events generalizing interface with
  | nil => rfl
  | cons event rest ih =>
      refine (ih (interface.handleEvent tsc event).1).trans ?_
      cases event <;> rfl

theorem count_bufferOf (events : List EfEvent) (id : ℕ) :
    (events.flatMap repostedOf).count id +
        (events.flatMap discardedOf).count id =
      (events.flatMap bufferOf).count id := by
  induction events with
  | nil => rfl
  | cons event rest ih =>
      simp only [List.flatMap_cons, List.count_append]
      cases event with
      | rx rqId bytes timestamp =>
          simp only [repostedOf, discardedOf, bufferOf, List.count_nil]
          omega
      | rxDiscard rqId =>
          simp only [repostedOf, discardedOf, bufferOf, List.count_nil]
          omega
      | other =>
          simp only [repostedOf, discardedOf, bufferOf, List.count_nil]
          omega

structure Kept (interface : EfviInterface) : Prop where
  slots : interface.nSlots ≤ interface.queue.capacity
  all : interface.held.Perm (List.range interface.nSlots)

theorem Kept.conserved {interface : EfviInterface} (kept : interface.Kept) :
    interface.Conserved := by
  intro id inside
  rw [kept.all.count_eq]
  exact List.count_eq_one_of_mem List.nodup_range (List.mem_range.mpr inside)

theorem batch_append_drop (interface : EfviInterface) (ready : ℕ) :
    interface.batch ready ++
      interface.queue.events.drop (min ready maxEvents) =
        interface.queue.events :=
  List.take_append_drop _ _

theorem poll_queue_of_room {interface : EfviInterface}
    (room : interface.held.length ≤ interface.queue.capacity)
    (ready : ℕ) (tsc : UInt64) :
    (interface.poll ready tsc).1.queue =
      { interface.queue with
        posted := interface.queue.posted ++
          (interface.batch ready).flatMap repostedOf
        events := interface.queue.events.drop (min ready maxEvents) } := by
  refine handleEvents_queue tsc
    { interface with
      queue :=
        { interface.queue with
          events := interface.queue.events.drop (min ready maxEvents) } }
    (interface.batch ready) ?_
  unfold held at room
  rw [← interface.batch_append_drop ready, List.flatMap_append,
    List.length_append, List.length_append] at room
  dsimp only
  omega

theorem poll_queue {interface : EfviInterface} (kept : interface.Kept)
    (ready : ℕ) (tsc : UInt64) :
    (interface.poll ready tsc).1.queue =
      { interface.queue with
        posted := interface.queue.posted ++
          (interface.batch ready).flatMap repostedOf
        events := interface.queue.events.drop (min ready maxEvents) } := by
  have total := kept.all.length_eq
  rw [List.length_range] at total
  exact poll_queue_of_room (total.trans_le kept.slots) ready tsc

/-- A poll loses the buffers of the discarded packets it handles, and no
others. -/
theorem poll_held_count {interface : EfviInterface} (kept : interface.Kept)
    (ready : ℕ) (tsc : UInt64) (id : ℕ) :
    (interface.poll ready tsc).1.held.count id +
        ((interface.batch ready).flatMap discardedOf).count id =
      interface.held.count id := by
  have split := interface.batch_append_drop ready
  have balance := count_bufferOf (interface.batch ready) id
  unfold held
  rw [poll_queue kept, ← split]
  simp only [List.flatMap_append, List.count_append]
  rw [split]
  omega

theorem consume_held_perm (interface : EfviInterface) {rqId : ℕ}
    {event : EfEvent} (names : bufferOf event = [rqId]) :
    (interface.consume rqId event).held.Perm interface.held := by
  unfold consume
  split
  · rename_i posted
    unfold held
    dsimp only
    rw [List.flatMap_append, List.flatMap_singleton, names,
      ← List.append_assoc]
    refine (List.perm_append_singleton rqId _).trans ?_
    rw [← List.cons_append]
    exact List.Perm.append_right _ (List.perm_cons_erase posted).symm
  · exact List.Perm.refl _

theorem consume_slots (interface : EfviInterface) (rqId : ℕ)
    (event : EfEvent) :
    (interface.consume rqId event).nSlots = interface.nSlots ∧
      (interface.consume rqId event).queue.capacity =
        interface.queue.capacity := by
  unfold consume
  split <;> exact ⟨rfl, rfl⟩

theorem Kept.consume {interface : EfviInterface} (kept : interface.Kept)
    {rqId : ℕ} {event : EfEvent} (names : bufferOf event = [rqId]) :
    (interface.consume rqId event).Kept := by
  obtain ⟨slotsEq, capacityEq⟩ := interface.consume_slots rqId event
  refine ⟨?_, ?_⟩
  · rw [slotsEq, capacityEq]
    exact kept.slots
  · rw [slotsEq]
    exact (interface.consume_held_perm names).trans kept.all

theorem step_kept {interface : EfviInterface} {input : RxStep}
    (none : interface.NoDiscardPolled input) (kept : interface.Kept) :
    (interface.step input).Kept := by
  cases input with
  | receive rqId bytes timestamp => exact kept.consume rfl
  | discard rqId => exact kept.consume rfl
  | poll ready tsc =>
      have slotsEq : (interface.poll ready tsc).1.nSlots = interface.nSlots :=
        handleEvents_nSlots tsc _ _
      refine ⟨?_, ?_⟩
      · change (interface.poll ready tsc).1.nSlots ≤
          (interface.poll ready tsc).1.queue.capacity
        rw [slotsEq, poll_queue kept]
        exact kept.slots
      · change (interface.poll ready tsc).1.held.Perm
          (List.range (interface.poll ready tsc).1.nSlots)
        rw [slotsEq]
        refine List.Perm.trans (List.perm_iff_count.mpr ?_) kept.all
        intro id
        have balance := poll_held_count kept ready tsc id
        rw [show (interface.batch ready).flatMap discardedOf = [] from none,
          List.count_nil] at balance
        exact balance

/-- Once the event of a discarded packet has been handled, its buffer is
gone. -/
theorem noDiscardPolled_of_conserved {interface : EfviInterface}
    {input : RxStep} (kept : interface.Kept)
    (after : (interface.step input).Conserved) :
    interface.NoDiscardPolled input := by
  cases input with
  | receive rqId bytes timestamp => trivial
  | discard rqId => trivial
  | poll ready tsc =>
      change (interface.batch ready).flatMap discardedOf = []
      by_contra lossy
      obtain ⟨id, discarded⟩ := List.exists_mem_of_ne_nil _ lossy
      have lost := List.one_le_count_iff.mpr discarded
      have balance := poll_held_count kept ready tsc id
      have before : interface.held.count id ≠ 0 := by omega
      have wasHeld := List.count_pos_iff.mp (Nat.pos_of_ne_zero before)
      have inside := List.mem_range.mp (kept.all.mem_iff.mp wasHeld)
      have once := kept.conserved id inside
      have slotsEq : (interface.poll ready tsc).1.nSlots = interface.nSlots :=
        handleEvents_nSlots tsc _ _
      have still := after id (slotsEq ▸ inside)
      change (interface.poll ready tsc).1.held.count id = 1 at still
      omega

/-! ### Runs -/

theorem foldl_receivePost (queue : RxQueue) (ids : List ℕ)
    (room : queue.posted.length + ids.length ≤ queue.capacity) :
    ids.foldl RxQueue.receivePost queue =
      { queue with posted := queue.posted ++ ids } := by
  induction ids generalizing queue with
  | nil =>
      rw [List.append_nil]
      rfl
  | cons id rest ih =>
      rw [List.length_cons] at room
      have posted := receivePost_of_room queue id (by omega)
      rw [List.foldl_cons, posted, ih _ (by
        rw [List.length_append, List.length_singleton]
        dsimp only
        omega), List.append_assoc]
      rfl

theorem initial_kept (rxqCapacity maxFrameLen prefixLen ringCap : ℕ) :
    (initial rxqCapacity maxFrameLen prefixLen ringCap).Kept := by
  have capped : (if rxqCapacity > ringCap then ringCap else rxqCapacity) ≤
      ringCap := by
    split <;> omega
  have posted := foldl_receivePost
    { capacity := ringCap, posted := [], events := [] }
    (List.range (if rxqCapacity > ringCap then ringCap else rxqCapacity)) (by
      rw [List.length_range]
      exact (Nat.zero_add _).le.trans capped)
  unfold initial
  dsimp only
  rw [posted]
  refine ⟨capped, ?_⟩
  unfold held
  rw [List.flatMap_nil, List.append_nil]
  exact List.Perm.refl _

theorem noDiscardPolled_exact :
    Run.Exact step NoDiscardPolled Conserved Kept where
  preserved := fun _ _ none kept => step_kept none kept
  sound := fun _ kept => kept.conserved
  exposed := fun _ _ kept after => noDiscardPolled_of_conserved kept after

/-- For every interface and every sequence of receptions and polls: all
buffers are conserved in every state exactly when no poll handles the event
of a discarded packet. -/
theorem conserved_throughout_iff
    (rxqCapacity maxFrameLen prefixLen ringCap : ℕ) (inputs : List RxStep) :
    Run.Throughout step Conserved
        (initial rxqCapacity maxFrameLen prefixLen ringCap) inputs ↔
      Run.Along step NoDiscardPolled
        (initial rxqCapacity maxFrameLen prefixLen ringCap) inputs :=
  noDiscardPolled_exact.throughout_iff _ inputs
    (initial_kept rxqCapacity maxFrameLen prefixLen ringCap)

/-- One discarded packet, polled, takes a buffer out of circulation. -/
theorem not_conserved_discarded :
    ¬ Run.Throughout step Conserved (initial 4 2048 0 4)
      [.discard 0, .poll 32 0] := by
  intro conserved
  have none := (noDiscardPolled_exact.throughout_iff _ _
    (initial_kept 4 2048 0 4)).mp conserved
  revert none
  decide

end EfviInterface

end Waler
